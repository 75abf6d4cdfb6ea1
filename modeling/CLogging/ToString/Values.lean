import CLogging.Lib.ReadBack
import CLogging.ToString.Trees
import CLogging.ToString.Types
import CLogging.ToString.Words

/-!
# Reading back values

The values of scalar properties and of strings are read back from their texts, given their types.
-/

namespace CLogging

open C Printf Forest

/-! ### Scalars -/

/-- Read the text of a scalar, as the bytes it has in memory. -/
def ScalarType.read (type : ScalarType) (s : List UInt8) : List UInt8 :=
  match type with
  | .int64 | .int32 | .int16 | .int8     =>
    leBytes type.sizeof (readDecimal s % 2 ^ (8 * type.sizeof)).toNat
  | .uint64 | .uint32 | .uint16 | .uint8 => leBytes type.sizeof (readUnsigned s)
  | .bool                                => if s = ascii "true" then [1] else [0]

lemma memcpy_self {n : ℕ} {bytes : List UInt8} (h : bytes.length = n) : memcpy n bytes = bytes := by
  have happend := memcpy_append h []
  rwa [List.append_nil] at happend

section

variable {n : ℕ} (hn : 0 < n) {print : ℕ → List UInt8} {type : LogContextPropertyType}

lemma text_basicType {bytes : List UInt8} (h : bytes.length = n) :
    Writer.text ((basicType n hn print type).toString bytes) = print (leNat bytes) := by
  rw [basicType, text_snprintf, memcpy_self h]

lemma toString_memcpy (mem : List UInt8) :
    (basicType n hn print type).toString (memcpy n mem) =
      (basicType n hn print type).toString mem := by
  simp only [basicType, memcpy_self (length_memcpy n mem)]

end

lemma read_printSigned {n : ℕ} {bytes : List UInt8} (h : bytes.length = n) :
    leBytes n (readDecimal (printSigned (8 * n) (leNat bytes)) % 2 ^ (8 * n)).toNat = bytes := by
  have hlt : leNat bytes < 2 ^ (8 * n) := by
    have hbytes := leNat_lt h.le
    rwa [show (256 : ℕ) = 2 ^ 8 by rfl, ← pow_mul] at hbytes
  have hmod : (signed (8 * n) (leNat bytes) % 2 ^ (8 * n)).toNat = leNat bytes := by
    have hbmod : Int.bmod (leNat bytes) (2 ^ (8 * n)) % ((2 ^ (8 * n) : ℕ) : ℤ) =
        leNat bytes % ((2 ^ (8 * n) : ℕ) : ℤ) := Int.bmod_emod
    rw [signed]
    push_cast at hbmod ⊢
    rw [hbmod, Int.emod_eq_of_lt (Int.natCast_nonneg _) (by exact_mod_cast hlt), Int.toNat_natCast]
  rw [printSigned, readDecimal_decimal, hmod, ← h, leBytes_leNat]

lemma read_unsignedDecimal {n : ℕ} {bytes : List UInt8} (h : bytes.length = n) :
    leBytes n (readUnsigned (unsignedDecimal (leNat bytes))) = bytes := by
  rw [readUnsigned_unsignedDecimal, ← h, leBytes_leNat]

/-- A scalar is read back from its text, a truth value provided that it is 0 or 1. -/
lemma ScalarType.read_text {type : ScalarType} {bytes : List UInt8}
    (h : bytes.length = type.sizeof) (hbool : type = .bool → bytes = [0] ∨ bytes = [1]) :
    type.read (Writer.text (type.typeIf.toString bytes)) = bytes := by
  cases type with
  | int64  => exact (congrArg _ (text_basicType (by decide) h)).trans (read_printSigned h)
  | uint64 => exact (congrArg _ (text_basicType (by decide) h)).trans (read_unsignedDecimal h)
  | int32  => exact (congrArg _ (text_basicType (by decide) h)).trans (read_printSigned h)
  | uint32 => exact (congrArg _ (text_basicType (by decide) h)).trans (read_unsignedDecimal h)
  | int16  => exact (congrArg _ (text_basicType (by decide) h)).trans (read_printSigned h)
  | uint16 => exact (congrArg _ (text_basicType (by decide) h)).trans (read_unsignedDecimal h)
  | int8   => exact (congrArg _ (text_basicType (by decide) h)).trans (read_printSigned h)
  | uint8  => exact (congrArg _ (text_basicType (by decide) h)).trans (read_unsignedDecimal h)
  | bool   =>
    rcases hbool rfl with rfl | rfl
    · rfl
    · rfl

/-! ### Leaves -/

/-- The types whose values are read back. -/
inductive TextType where
  | scalar (type : ScalarType)
  | asciiCharPtr

def TextType.typeIf : TextType → LogContextPropertyTypeIf
  | .scalar type  => type.typeIf
  | .asciiCharPtr => CLogging.asciiCharPtr

/-- Read the text of a value. -/
def TextType.read : TextType → List UInt8 → List UInt8
  | .scalar type, s  => type.read s
  | .asciiCharPtr, s => s ++ [0]

/-- The text of a value. -/
def Leaf.text (l : Leaf) : List UInt8 := Writer.text (l.type.toString l.value)

/-- The value of a property that is not a struct. -/
def PropertyView.leaf (p : PropertyView) : Leaf := ⟨p.name, p.type, (p.type.copy p.memory).getD []⟩

/-- A value of the type, 0 or 1 if it is a truth value. -/
def TextType.Holds (type : TextType) (l : Leaf) : Prop :=
  l.type = type.typeIf ∧ l.type.copy l.value = some l.value ∧
    (type = .scalar .bool → l.value = [0] ∨ l.value = [1])

/-- Values are read back from their texts. -/
lemma TextType.Holds.read_text {type : TextType} {l : Leaf} (h : type.Holds l) :
    type.read l.text = l.value := by
  obtain ⟨htype, hcopy, hbool⟩ := h
  rw [htype] at hcopy
  rw [Leaf.text, htype]
  cases type with
  | scalar type =>
    have hcopy' : some (memcpy type.sizeof l.value) = some l.value :=
      (type.copy_typeIf l.value).symm.trans hcopy
    have hlength : l.value.length = type.sizeof := by
      rw [← Option.some.inj hcopy', length_memcpy]
    exact ScalarType.read_text hlength fun heq => hbool (congrArg _ heq)
  | asciiCharPtr =>
    have hcopy' : cstr l.value ++ [0] = l.value := Option.some.inj hcopy
    exact (congrArg (· ++ [0]) (text_snprintf (cstr l.value))).trans hcopy'

/-- A scalar is printed from its own bytes. -/
lemma ScalarType.toString_memcpy (type : ScalarType) (mem : List UInt8) :
    type.typeIf.toString (memcpy type.sizeof mem) = type.typeIf.toString mem := by
  cases type with
  | int64  => exact CLogging.toString_memcpy (by decide) mem
  | uint64 => exact CLogging.toString_memcpy (by decide) mem
  | int32  => exact CLogging.toString_memcpy (by decide) mem
  | uint32 => exact CLogging.toString_memcpy (by decide) mem
  | int16  => exact CLogging.toString_memcpy (by decide) mem
  | uint16 => exact CLogging.toString_memcpy (by decide) mem
  | int8   => exact CLogging.toString_memcpy (by decide) mem
  | uint8  => exact CLogging.toString_memcpy (by decide) mem
  | bool   => exact CLogging.toString_memcpy (by decide) mem

lemma TextType.printsText (type : TextType) : PrintsText type.typeIf := by
  cases type with
  | scalar type  => exact printsText_scalar type
  | asciiCharPtr => exact printsText_asciiCharPtr

/-- Copying a value keeps it, and what is printed. -/
lemma TextType.copy_spec (type : TextType) (mem : List UInt8) :
    ∃ value, type.typeIf.copy mem = some value ∧ type.typeIf.copy value = some value ∧
      type.typeIf.toString value = type.typeIf.toString mem := by
  cases type with
  | scalar type =>
    refine ⟨_, type.copy_typeIf mem, ?_, type.toString_memcpy mem⟩
    exact (type.copy_typeIf _).trans (congrArg some (memcpy_self (length_memcpy _ _)))
  | asciiCharPtr =>
    have hcstr : cstr (cstr mem ++ [0]) = cstr mem := cstr_append_zero _ _ (zero_notMem_cstr mem)
    exact ⟨cstr mem ++ [0], rfl, congrArg (fun s => some (s ++ [0])) hcstr, congrArg snprintf hcstr⟩

/-- What is printed of a value in memory is the text of the value. -/
lemma TextType.toString_eq {type : TextType} {p : PropertyView} (h : p.type = type.typeIf) :
    p.type.toString p.memory = snprintf p.leaf.text ∧ 0 ∉ p.leaf.text ∧
      p.leaf.type.copy p.leaf.value = some p.leaf.value := by
  obtain ⟨value, hcopy, hself, hprint⟩ := type.copy_spec p.memory
  obtain ⟨text, hzero, htext⟩ := type.printsText p.memory
  have hvalue : p.leaf.value = value := by
    rw [PropertyView.leaf, h, hcopy, Option.getD_some]
  have hleaf : p.leaf.text = text := by
    rw [Leaf.text, hvalue, show p.leaf.type = p.type from rfl, h, hprint, htext, text_snprintf]
  rw [hleaf, hvalue, show p.leaf.type = p.type from rfl, h]
  exact ⟨htext, hzero, hself⟩

end CLogging
