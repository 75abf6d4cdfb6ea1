import CLogging.Context.Setup
import CLogging.Lib.Terminator
import CLogging.ToString.Algorithm

/-!
# The types that are printed

A context holds the types of its parent, the type `struct`, and the types of the properties given
to the macro.
-/

namespace CLogging

open C Memory Printf

/-- The types of all pairs of a context that were filled in. -/
def AllTypes (P : LogContextPropertyTypeIf → Prop) (context : LogContextHandle) : Prop :=
  ∀ c, context = some c → ∀ p, some p ∈ c.propertyValuePairs → P p.type

lemma allTypes_none {P : LogContextPropertyTypeIf → Prop} : AllTypes P none := fun c hc => by cases hc

lemma AllTypes.views {P : LogContextPropertyTypeIf → Prop} {c : LogContext}
    (h : AllTypes P (some c)) : ∀ v ∈ c.views, P v.type := by
  intro v hv
  obtain ⟨q, hq, hview⟩ := List.mem_filterMap.mp hv
  obtain ⟨p, rfl, rfl⟩ := Option.map_eq_some_iff.mp hview
  exact h c rfl p ((List.takeWhile_prefix _).subset hq)

lemma pairsFrom_types {pos : ℤ} {ps : List Property} {q : LogContextPropertyValuePair}
    (h : q ∈ pairsFrom pos ps) : ∃ p ∈ ps, q.type = p.type := by
  induction ps generalizing pos with
  | nil => cases h
  | cons p ps ih =>
    rcases List.mem_cons.mp h with rfl | hrest
    · exact ⟨p, List.mem_cons_self, rfl⟩
    · obtain ⟨p', hp', htype⟩ := ih hrest
      exact ⟨p', List.mem_cons_of_mem _ hp', htype⟩

section

variable [Platform] {P : LogContextPropertyTypeIf → Prop}

/-- The types of the properties given to a macro. -/
def FieldTypes (P : LogContextPropertyTypeIf → Prop) (fields : List FieldDesc) : Prop :=
  ∀ p ∈ properties fields, P p.type

lemma allTypes_filled (hstruct : P struct) {parent : LogContextHandle} (hparent : AllTypes P parent)
    {fields : List FieldDesc} (hfields : FieldTypes P fields) (block : List UInt8) :
    AllTypes P (filled block parent fields).context := by
  intro c hc p hp
  obtain rfl := Option.some.inj hc
  simp only [setupPairs, setup_pairs, List.cons_append, List.mem_cons, List.mem_append,
    Option.some.injEq, List.mem_map, List.mem_replicate, reduceCtorEq, and_false,
    exists_eq_right] at hp
  rcases hp with rfl | (hp | hp) | hp
  · exact hstruct
  · match parent with
    | none => cases hp
    | some parent =>
      obtain ⟨p', hp', rfl⟩ := exists_of_mem_copyPairs hp
      exact hparent parent rfl p' (parent.mem_of_mem_countedPairs hp')
  · cases hp
  · obtain ⟨p', hp', htype⟩ := pairsFrom_types hp
    rw [htype]
    exact hfields p' hp'

/-- The types of a context are those it was made from. -/
lemma AllTypes.run {parent : LogContextHandle} (hparent : AllTypes P parent) (hstruct : P struct)
    {fields : List FieldDesc} (hfields : FieldTypes P fields) (m : ContextMacro) :
    AllTypes P (m.run parent fields).context := by
  have hempty : ∀ block : List UInt8, AllTypes P (some ⟨block, 0, [], 0⟩) := by
    rintro block c ⟨⟩ p hp
    cases hp
  match m with
  | .create none =>
    intro c hc
    cases hc
  | .create (some garbage) => exact allTypes_filled hstruct hparent hfields _
  | .localDefine garbage =>
    simp only [ContextMacro.run, logContextLocalDefine]
    split_ifs
    · exact hempty _
    · exact hempty _
    · exact allTypes_filled hstruct hparent hfields _

end

/-! ### Types that print a text -/

/-- The type keeps the contract of `snprintf`: `to_string` prints a text. -/
def PrintsText (type : LogContextPropertyTypeIf) : Prop :=
  ∀ mem, ∃ text, 0 ∉ text ∧ type.toString mem = snprintf text

lemma printsText_basicType {n : ℕ} (hn : 0 < n) {print : ℕ → List UInt8}
    {type : LogContextPropertyType} (h : ∀ x, 0 ∉ print x) :
    PrintsText (basicType n hn print type) :=
  fun _ => ⟨_, h _, rfl⟩

lemma zero_notMem_printBool (x : ℕ) : 0 ∉ printBool x := by
  rw [printBool]
  split_ifs <;> decide

lemma printsText_scalar (type : ScalarType) : PrintsText type.typeIf := by
  cases type with
  | int64 => exact printsText_basicType (by decide) fun _ => zero_notMem_decimal _
  | uint64 => exact printsText_basicType (by decide) zero_notMem_unsignedDecimal
  | int32 => exact printsText_basicType (by decide) fun _ => zero_notMem_decimal _
  | uint32 => exact printsText_basicType (by decide) zero_notMem_unsignedDecimal
  | int16 => exact printsText_basicType (by decide) fun _ => zero_notMem_decimal _
  | uint16 => exact printsText_basicType (by decide) zero_notMem_unsignedDecimal
  | int8 => exact printsText_basicType (by decide) fun _ => zero_notMem_decimal _
  | uint8 => exact printsText_basicType (by decide) zero_notMem_unsignedDecimal
  | bool => exact printsText_basicType (by decide) zero_notMem_printBool

lemma printsText_asciiCharPtr : PrintsText asciiCharPtr :=
  fun mem => ⟨cstr mem, zero_notMem_cstr mem, rfl⟩

lemma printsText_struct : PrintsText struct := fun _ => ⟨[], List.not_mem_nil, rfl⟩

/-- The types that come with the logger. -/
inductive BuiltIn [Platform] : LogContextPropertyTypeIf → Prop
  | scalar (type : ScalarType) : BuiltIn type.typeIf
  | asciiCharPtr : BuiltIn asciiCharPtr
  | struct : BuiltIn struct
  | wcharTPtr : BuiltIn wcharTPtr

lemma zero_notMem_wcrtomb [Platform] (mem bytes : List UInt8)
    (h : some bytes ∈ (wcs sizeofWchar mem).map Platform.wcrtomb) : 0 ∉ bytes := by
  obtain ⟨c, hc, hbytes⟩ := List.mem_map.mp h
  exact Platform.zero_notMem_wcrtomb (wideChars_wcsWith _ _ _ c hc).1 hbytes

/-- A built-in type stores a text, and nothing behind the end of the buffer. -/
lemma BuiltIn.storesText [Platform] {type : LogContextPropertyTypeIf} (h : BuiltIn type)
    (mem : List UInt8) : StoresText (type.toString mem) ∧ Bounded (type.toString mem) := by
  have htext : PrintsText type → StoresText (type.toString mem) ∧ Bounded (type.toString mem) := by
    intro hprints
    obtain ⟨text, hzero, heq⟩ := hprints mem
    rw [heq]
    exact ⟨storesText_snprintf hzero, bounded_snprintf text⟩
  cases h with
  | scalar type => exact htext (printsText_scalar type)
  | asciiCharPtr => exact htext printsText_asciiCharPtr
  | struct => exact htext printsText_struct
  | wcharTPtr => exact ⟨storesText_wcstombs (zero_notMem_wcrtomb mem), bounded_wcstombs _⟩

end CLogging
