import CLogging.Lib.Printf

/-!
# Property types

The types a context property can have, as the interface through which the rest of the logger
uses them: printing a value, copying it, and naming its type.
-/

namespace CLogging

open C Printf

/-- `LOG_LEVEL`. -/
inductive LogLevel where
  | critical | error | warning | info | verbose
  deriving DecidableEq

/-- The value of a level, which grows as messages get less important. -/
def LogLevel.toNat : LogLevel → ℕ
  | .critical => 0
  | .error    => 1
  | .warning  => 2
  | .info     => 3
  | .verbose  => 4

/-- What the code takes from the C implementation it is compiled with, and from its macro
library. -/
class Platform where
  /-- `sizeof(wchar_t)`. -/
  sizeofWchar : ℕ
  sizeofWchar_eq : sizeofWchar = 2 ∨ sizeofWchar = 4
  /-- The multibyte form of a wide character, `none` if it has no such form. -/
  wcrtomb : ℕ → Option (List UInt8)
  /-- Only the character that ends a string has a zero byte in its multibyte form. -/
  zero_notMem_wcrtomb : ∀ {c bytes}, c ≠ 0 → wcrtomb c = some bytes → 0 ∉ bytes
  /-- `MU_ENUM_TO_STRING` for `LOG_LEVEL`. -/
  logLevelString : LogLevel → CString

/-- A platform with 32-bit wide characters in the C locale. -/
@[reducible] def posix : Platform where
  sizeofWchar    := 4
  sizeofWchar_eq := .inr rfl
  wcrtomb c      := if c < 128 then some [UInt8.ofNat c] else none
  zero_notMem_wcrtomb {c _} hc h := by
    split_ifs at h with hlt
    obtain rfl := Option.some.inj h
    rw [List.mem_singleton]
    intro hzero
    have hnat := congrArg UInt8.toNat hzero
    rw [UInt8.toNat_zero, UInt8.toNat_ofNat', Nat.mod_eq_of_lt (by omega)] at hnat
    exact hc hnat.symm
  logLevelString
    | .critical => ⟨ascii "LOG_LEVEL_CRITICAL", by decide⟩
    | .error    => ⟨ascii "LOG_LEVEL_ERROR", by decide⟩
    | .warning  => ⟨ascii "LOG_LEVEL_WARNING", by decide⟩
    | .info     => ⟨ascii "LOG_LEVEL_INFO", by decide⟩
    | .verbose  => ⟨ascii "LOG_LEVEL_VERBOSE", by decide⟩

/-- `LOG_CONTEXT_PROPERTY_TYPE`, and any value outside the enumeration. -/
inductive LogContextPropertyType where
  | asciiCharPtr | bool | int64 | uint64 | int32 | uint32 | int16 | uint16 | int8 | uint8
  | struct | wcharTPtr
  | other
  deriving DecidableEq

/-- `LOG_CONTEXT_PROPERTY_TYPE_IF`. A function that takes a pointer to a value is given the memory
from there on. Copying yields the bytes that are stored, or fails; what was copied is a value of
the type again, wherever it lies. A copy reads inside a block of memory if what it does is settled
by the block, whatever lies behind it. -/
structure LogContextPropertyTypeIf where
  toString        : List UInt8 → Writer
  copy            : List UInt8 → Option (List UInt8)
  getType         : LogContextPropertyType
  readsInside     : List UInt8 → Bool
  copy_ne_nil     : ∀ {mem value}, copy mem = some value → value ≠ []
  copy_append     : ∀ {mem value}, copy mem = some value →
    ∀ rest, copy (value ++ rest) = some value
  readsInside_iff : ∀ {mem}, readsInside mem = true ↔ ∀ rest, copy (mem ++ rest) = copy mem

/-- The bytes store a value of the type: this value is what copying from there yields, whatever
follows the bytes. -/
def LogContextPropertyTypeIf.Stores (type : LogContextPropertyTypeIf)
    (bytes value : List UInt8) : Prop :=
  value.length ≤ bytes.length ∧ ∀ rest, type.copy (bytes ++ rest) = some value

lemma LogContextPropertyTypeIf.stores_of_copy {type : LogContextPropertyTypeIf}
    {mem value : List UInt8} (h : type.copy mem = some value) : type.Stores value value :=
  ⟨le_refl _, type.copy_append h⟩

/-- A value is copied without a look behind it. -/
lemma LogContextPropertyTypeIf.Stores.readsInside {type : LogContextPropertyTypeIf}
    {bytes value : List UInt8} (h : type.Stores bytes value) (rest : List UInt8) :
    type.readsInside (bytes ++ rest) = true := by
  refine type.readsInside_iff.mpr fun rest' => ?_
  rw [List.append_assoc, h.2, h.2]

/-! ### The basic types -/

/-- `DEFINE_BASIC_TYPE`: a value of `n` bytes, printed from the number they stand for. -/
def basicType (n : ℕ) (hn : 0 < n) (print : ℕ → List UInt8) (type : LogContextPropertyType) :
    LogContextPropertyTypeIf where
  toString mem    := snprintf (print (leNat (memcpy n mem)))
  copy mem        := some (memcpy n mem)
  getType         := type
  readsInside mem := decide (n ≤ mem.length)
  copy_ne_nil h := by
    obtain rfl := Option.some.inj h
    rw [← List.length_pos_iff, length_memcpy]
    exact hn
  copy_append h rest := by
    obtain rfl := Option.some.inj h
    rw [memcpy_append (length_memcpy _ _)]
  readsInside_iff := by
    simp only [decide_eq_true_eq, Option.some.injEq]
    exact le_length_iff_memcpy

/-- The number an `n`-bit two's complement pattern stands for. -/
def signed (n x : ℕ) : ℤ := Int.bmod x (2 ^ n)

/-- `"%" PRIdN`. -/
def printSigned (n x : ℕ) : List UInt8 := decimal (signed n x)

/-- `"%" PRI_BOOL` with `MU_BOOL_VALUE`. -/
def printBool (x : ℕ) : List UInt8 := ascii (if x = 0 then "false" else "true")

def int64  : LogContextPropertyTypeIf := basicType 8 (by decide) (printSigned 64) .int64
def uint64 : LogContextPropertyTypeIf := basicType 8 (by decide) unsignedDecimal .uint64
def int32  : LogContextPropertyTypeIf := basicType 4 (by decide) (printSigned 32) .int32
def uint32 : LogContextPropertyTypeIf := basicType 4 (by decide) unsignedDecimal .uint32
def int16  : LogContextPropertyTypeIf := basicType 2 (by decide) (printSigned 16) .int16
def uint16 : LogContextPropertyTypeIf := basicType 2 (by decide) unsignedDecimal .uint16
def int8   : LogContextPropertyTypeIf := basicType 1 (by decide) (printSigned 8) .int8
def uint8  : LogContextPropertyTypeIf := basicType 1 (by decide) unsignedDecimal .uint8
def bool   : LogContextPropertyTypeIf := basicType 1 (by decide) printBool .bool

/-- The types `LOG_CONTEXT_PROPERTY` takes. -/
inductive ScalarType where
  | int64 | uint64 | int32 | uint32 | int16 | uint16 | int8 | uint8 | bool
  deriving DecidableEq

/-- `sizeof(type)`, also what `get_init_data_size` returns. -/
def ScalarType.sizeof : ScalarType → ℕ
  | .int64 | .uint64       => 8
  | .int32 | .uint32       => 4
  | .int16 | .uint16       => 2
  | .int8 | .uint8 | .bool => 1

/-- `type##_log_context_property_type`. -/
def ScalarType.typeIf : ScalarType → LogContextPropertyTypeIf
  | .int64  => CLogging.int64
  | .uint64 => CLogging.uint64
  | .int32  => CLogging.int32
  | .uint32 => CLogging.uint32
  | .int16  => CLogging.int16
  | .uint16 => CLogging.uint16
  | .int8   => CLogging.int8
  | .uint8  => CLogging.uint8
  | .bool   => CLogging.bool

/-- A scalar, as the bytes it has in memory. -/
structure Scalar (type : ScalarType) where
  bytes  : List UInt8
  length : bytes.length = type.sizeof

lemma ScalarType.copy_typeIf (type : ScalarType) (mem : List UInt8) :
    type.typeIf.copy mem = some (memcpy type.sizeof mem) := by
  cases type <;> rfl

lemma ScalarType.typeIf_getType_ne_struct (type : ScalarType) : type.typeIf.getType ≠ .struct := by
  cases type <;> decide

lemma Scalar.stores {type : ScalarType} (x : Scalar type) : type.typeIf.Stores x.bytes x.bytes := by
  refine ⟨le_refl _, fun rest => ?_⟩
  rw [type.copy_typeIf, memcpy_append x.length]

/-! ### Strings and structs -/

/-- `ascii_char_ptr_log_context_property_type`. -/
def asciiCharPtr : LogContextPropertyTypeIf where
  toString mem    := snprintf (cstr mem)
  copy mem        := some (cstr mem ++ [0])
  getType         := .asciiCharPtr
  readsInside mem := decide (0 ∈ mem)
  copy_ne_nil h := by
    obtain rfl := Option.some.inj h
    simp
  copy_append {mem _} h rest := by
    obtain rfl := Option.some.inj h
    rw [List.append_assoc, List.singleton_append,
      cstr_append_zero _ _ (zero_notMem_cstr mem)]
  readsInside_iff := by
    simp only [decide_eq_true_eq, Option.some.injEq, List.append_cancel_right_eq]
    exact zero_mem_iff_cstr

/-- `struct_log_context_property_type`: the value is the number of fields, one byte. -/
def struct : LogContextPropertyTypeIf where
  toString _      := snprintf []
  copy mem        := some (memcpy 1 mem)
  getType         := .struct
  readsInside mem := decide (1 ≤ mem.length)
  copy_ne_nil h := by
    obtain rfl := Option.some.inj h
    rw [← List.length_pos_iff, length_memcpy]
    exact Nat.one_pos
  copy_append h rest := by
    obtain rfl := Option.some.inj h
    rw [memcpy_append (length_memcpy _ _)]
  readsInside_iff := by
    simp only [decide_eq_true_eq, Option.some.injEq]
    exact le_length_iff_memcpy

lemma stores_terminated (text : CString) :
    asciiCharPtr.Stores text.terminated text.terminated := by
  refine ⟨le_refl _, fun rest => ?_⟩
  simp only [asciiCharPtr, CString.cstr_terminated]
  rfl

lemma struct_stores (b : UInt8) : struct.Stores [b] [b] := by
  refine ⟨le_refl _, fun rest => ?_⟩
  exact congrArg some (memcpy_append (n := 1) rfl rest)

variable [Platform]

/-- `sizeof(wchar_t)`. -/
def sizeofWchar : ℕ := Platform.sizeofWchar

lemma sizeofWchar_pos : 0 < sizeofWchar := by
  rcases Platform.sizeofWchar_eq with h | h <;> simp [sizeofWchar, h]

/-- `wchar_t_ptr_log_context_property_type`: `wcstombs` and `wcscpy`. -/
def wcharTPtr : LogContextPropertyTypeIf where
  toString mem    := wcstombs ((wcs sizeofWchar mem).map Platform.wcrtomb)
  copy mem        := some (wideBytes sizeofWchar (wcs sizeofWchar mem))
  getType         := .wcharTPtr
  readsInside mem := wcsEnds sizeofWchar mem
  copy_ne_nil h := by
    obtain rfl := Option.some.inj h
    rw [← List.length_pos_iff, length_wideBytes]
    exact Nat.mul_pos (Nat.succ_pos _) sizeofWchar_pos
  copy_append {mem _} h rest := by
    obtain rfl := Option.some.inj h
    rw [wideBytes_wcs_append sizeofWchar_pos]
  readsInside_iff := by
    intro mem
    rw [wcsEnds_iff sizeofWchar_pos]
    refine forall_congr' fun rest => ?_
    rw [Option.some.injEq]
    exact ⟨congrArg _, wideBytes_wcs_inj sizeofWchar_pos⟩

lemma stores_wideBytes {chars : List ℕ} (h : WideChars sizeofWchar chars) :
    wcharTPtr.Stores (wideBytes sizeofWchar chars) (wideBytes sizeofWchar chars) := by
  refine ⟨le_refl _, fun rest => ?_⟩
  simp only [wcharTPtr]
  rw [wcs_wideBytes sizeofWchar_pos h]

end CLogging
