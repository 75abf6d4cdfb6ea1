import CLogging.Context.Layout

/-!
# Chains of contexts

A chain lists the calls of the context macros that lead to a context, the latest first; every
context is the parent of the one before it in the list.
-/

namespace CLogging

open C Memory Tiling

section

variable [Platform]

/-- One call of a context macro. -/
structure Level where
  kind   : ContextMacro
  fields : List FieldDesc

def Level.define (l : Level) (parent : LogContextHandle) : Definition := l.kind.run parent l.fields

/-- The context at the end of a chain. -/
def build : List Level → LogContextHandle
  | []      => none
  | l :: ls => (l.define (build ls)).context

/-- Formatting succeeds at every level, and the bytes every level needs, counted without bound,
fit in 32 bits. -/
def Formats : List Level → Prop
  | []      => True
  | l :: ls => (∀ d ∈ l.fields, d.Formatted) ∧
      internalLogContextGetValuesDataLengthOrZero (build ls) + 1 + dataBytes l.fields < 2 ^ 32 ∧
      Formats ls

/-- The entries of the context at the end of a chain. -/
def entries : List Level → List Entry
  | []      => []
  | l :: ls =>
    if l.kind.Accepts (build ls) l.fields then childEntries (build ls) (entries ls) l.fields else []

/-- The regions of the values in the context at the end of a chain. -/
def regions (chain : List Level) : List Region := (entries chain).map (·.region)

/-- One more level. -/
lemma represents_define {l : Level} {ls : List Level} (h : Formats (l :: ls))
    (ih : HandleRepresents (build ls) (entries ls)) :
    HandleRepresents (build (l :: ls)) (entries (l :: ls)) := by
  obtain ⟨hf, htotal, -⟩ := h
  rw [build, entries, Level.define]
  by_cases haccepts : l.kind.Accepts (build ls) l.fields
  · rw [if_pos haccepts, run_of_accepts haccepts]
    exact represents_filled ih hf htotal (dataLength_le_block haccepts) rfl
  · rw [if_neg haccepts, run_of_not_accepts haccepts]
    cases l.kind with
    | create malloc => rfl
    | localDefine garbage => exact represents_empty _

/-- The context at the end of a chain is described by its entries. -/
theorem represents_build {chain : List Level} (h : Formats chain) :
    HandleRepresents (build chain) (entries chain) := by
  induction chain with
  | nil => rfl
  | cons l ls ih => exact represents_define h (ih h.2.2)

/-! ### The layout, level by level -/

/-- The macro leaves a context with properties in it. -/
def Definition.Stores (d : Definition) (c : LogContext) : Prop :=
  d.context = some c ∧ d.internalErrorReports = 0

/-- The macro leaves an empty context, has written nothing, and has reported the error once. -/
def Definition.Rejected (d : Definition) : Prop :=
  (∃ c, d.context = some c ∧ c.propertyValuePairCount = 0 ∧ c.valuesDataLength = 0 ∧
    c.propertyValuePairs = []) ∧ d.writes = [] ∧ d.internalErrorReports = 1

/-- The value of a pair of a context. -/
def LogContext.valueOf (c : LogContext) (p : LogContextPropertyValuePair) : Option (List UInt8) :=
  p.type.copy (c.deref p.value)

/-- The name, type and value a macro argument supplies. -/
def FieldDesc.supplied : FieldDesc → Option (CString × LogContextPropertyTypeIf × List UInt8)
  | .logContextProperty type name x => some (name, type.typeIf, x.bytes)
  | .logContextStringProperty name (.formatted text _) => some (name, asciiCharPtr, text.terminated)
  | .logContextWstringProperty name (.formatted text _ _) =>
    some (name, wcharTPtr, wideBytes sizeofWchar text)
  | .logContextPropertyCustomFunction type _ name call =>
    some (name, type, storedValue type call.written)
  | _ => none

/-- The names, types and values of the properties given to a macro. -/
def supplied (fields : List FieldDesc) : List (CString × LogContextPropertyTypeIf × List UInt8) :=
  fields.filterMap FieldDesc.supplied

/-- The layout of a context in terms of that of its parent. -/
structure ExactLayout (parent : LogContextHandle) (parentRegions : List Region)
    (fields : List FieldDesc) (c : LogContext) (regions : List Region) : Prop where
  pairCount   : c.propertyValuePairCount =
    logContextGetPropertyValuePairCount parent + 1 + propertyCount fields
  pairs_set   : ∀ i < c.propertyValuePairCount, ∃ p, c.propertyValuePairs[i]? = some (some p)
  regions_eq  : regions = ⟨0, 1⟩ :: parentRegions.map (Region.shift 1) ++
    consecutive (1 + internalLogContextGetValuesDataLengthOrZero parent)
      ((properties fields).map Property.size)
  at_regions  : c.propertyValuePairs.map (·.map (·.value)) = regions.map (fun r => some (r.start : ℤ))
  values_fit  : ∀ (i : ℕ) (p : LogContextPropertyValuePair) (r : Region) (value : List UInt8),
    c.propertyValuePairs[i]? = some (some p) → regions[i]? = some r → c.valueOf p = some value →
      value.length ≤ r.size
  tiles       : Tiles regions c.valuesDataLength
  in_block    : c.valuesDataLength ≤ c.valuesData.length
  struct_pair : c.propertyValuePairs[0]? = some (some ⟨contextName fields, 0, struct⟩)
  inherited   : ∀ (q : LogContext) (i : ℕ) (p : LogContextPropertyValuePair), parent = some q →
    q.propertyValuePairs[i]? = some (some p) →
      ∃ p', c.propertyValuePairs[i + 1]? = some (some p') ∧ p'.name = p.name ∧ p'.type = p.type ∧
        p'.value = 1 + p.value ∧ c.valueOf p' = q.valueOf p
  new         : ∀ (j : ℕ) (name : CString) (type : LogContextPropertyTypeIf) (value : List UInt8),
    (supplied fields)[j]? = some (name, type, value) →
      ∃ p, c.propertyValuePairs[logContextGetPropertyValuePairCount parent + 1 + j]? = some (some p)
        ∧ p.name = name ∧ p.type = type ∧ c.valueOf p = some value

lemma FieldDesc.Formatted.supplied_eq {d : FieldDesc} (h : d.Formatted) :
    d.supplied = d.property.map fun p => (p.name, p.type, p.value) := by
  match d with
  | .logMessage => rfl
  | .logContextName _ => rfl
  | .logContextProperty type name x =>
    have hvalue := storedValue_eq x.stores
    simp only [FieldDesc.supplied, FieldDesc.property, Option.map_some, Property.value, hvalue]
  | .logContextStringProperty name (.formatted text fits) =>
    have hvalue := storedValue_eq (stores_terminated text)
    simp only [FieldDesc.supplied, FieldDesc.property, Option.map_some, Property.value,
      Sprintf.written, hvalue]
  | .logContextWstringProperty name (.formatted text wide fits) =>
    have hvalue := storedValue_eq (stores_wideBytes wide)
    simp only [FieldDesc.supplied, FieldDesc.property, Option.map_some, Property.value,
      Swprintf.written, hvalue]
  | .logContextPropertyCustomFunction type _ name call => rfl

/-- What is stored is what was supplied. -/
lemma supplied_eq {fields : List FieldDesc} (h : ∀ d ∈ fields, d.Formatted) :
    supplied fields = (properties fields).map fun p => (p.name, p.type, p.value) := by
  rw [supplied, properties, List.map_filterMap]
  refine List.filterMap_congr fun d hd => ?_
  exact (h d hd).supplied_eq

lemma exactLayout_of_represents {parent : LogContextHandle} {es : List Entry}
    {fields : List FieldDesc} {c : LogContext} (h : HandleRepresents parent es)
    (hf : ∀ d ∈ fields, d.Formatted) (hc : Represents c (childEntries parent es fields)) :
    ExactLayout parent (es.map (·.region)) fields c
      ((childEntries parent es fields).map (·.region)) where
  pairCount := hc.count_eq.trans (length_childEntries h)
  pairs_set i hi := by
    rw [hc.count_eq] at hi
    exact ⟨_, by rw [hc.pairs_eq, List.getElem?_map, List.getElem?_eq_getElem hi]; rfl⟩
  regions_eq := childEntries_regions
  at_regions := by
    rw [hc.pairs_eq, List.map_map, List.map_map]
    rfl
  values_fit i p r value hp hr hvalue := by
    rw [hc.pairs_eq, List.getElem?_map, Option.map_eq_some_iff] at hp
    obtain ⟨e, he, hpair⟩ := hp
    obtain rfl := Option.some.inj hpair
    rw [List.getElem?_map, he, Option.map_some, Option.some.injEq] at hr
    subst hr
    have hmem := List.mem_of_getElem? he
    have hread := hc.copy_deref hmem
    rw [show c.valueOf e.pair = some e.value from hread, Option.some.injEq] at hvalue
    subst hvalue
    exact (hc.wellFormed e hmem).stores.1.trans (hc.wellFormed e hmem).fits
  tiles := hc.tiles
  in_block := hc.length_le
  struct_pair := by
    rw [hc.pairs_eq]
    rfl
  inherited q i p hq hp := by
    subst hq
    have hparent : Represents q es := h
    rw [hparent.pairs_eq, List.getElem?_map, Option.map_eq_some_iff] at hp
    obtain ⟨e, he, hpair⟩ := hp
    obtain rfl := Option.some.inj hpair
    have hmem := List.mem_of_getElem? he
    have hchild : (childEntries (some q) es fields)[i + 1]? = some e.inherited := by
      rw [childEntries, List.getElem?_cons_succ, List.getElem?_append_left, List.getElem?_map, he,
        Option.map_some]
      simpa using (List.getElem?_eq_some_iff.mp he).1
    refine ⟨e.inherited.pair, ?_, rfl, rfl, ?_, ?_⟩
    · rw [hc.pairs_eq, List.getElem?_map, hchild, Option.map_some]
    · simp only [Entry.pair, Entry.inherited, Region.shift, Nat.cast_add, Nat.cast_one]
      exact add_comm _ _
    · have hread := hc.copy_deref (List.mem_of_getElem? hchild)
      rw [(hparent.wellFormed e hmem).value_inherited] at hread
      exact hread.trans (hparent.copy_deref hmem).symm
  new j name type value hj := by
    rw [supplied_eq hf, List.getElem?_map, Option.map_eq_some_iff] at hj
    obtain ⟨p, hp, hsupplied⟩ := hj
    simp only [Prod.mk.injEq] at hsupplied
    obtain ⟨rfl, rfl, rfl⟩ := hsupplied
    obtain ⟨offset, hentry⟩ := entriesFrom_getElem?
      (1 + internalLogContextGetValuesDataLengthOrZero parent) (properties fields) hp
    have hchild : (childEntries parent es fields)[es.length + 1 + j]? = some (p.entry offset) := by
      rw [childEntries, Nat.add_right_comm, List.getElem?_cons_succ, List.getElem?_append_right,
        List.length_map, Nat.add_sub_cancel_left, hentry]
      simp
    refine ⟨(p.entry offset).pair, ?_, rfl, rfl, hc.copy_deref (List.mem_of_getElem? hchild)⟩
    rw [h.count_eq, hc.pairs_eq, List.getElem?_map, hchild, Option.map_some]

/-- The context fits on the stack: not too many pairs, and not too much data. -/
def FitsOnStack (parent : LogContextHandle) (fields : List FieldDesc) : Prop :=
  logContextGetPropertyValuePairCount parent + 1 + propertyCount fields
      ≤ LOG_MAX_STACK_PROPERTY_VALUE_PAIR_COUNT ∧
    internalLogContextGetValuesDataLengthOrZero parent + 1 + dataBytes fields
      ≤ LOG_MAX_STACK_DATA_SIZE

/-- What `LOG_CONTEXT_LOCAL_DEFINE` accepts, in terms of the sizes themselves. -/
lemma accepts_localDefine_iff {parent : LogContextHandle} {es : List Entry}
    {fields : List FieldDesc} (h : HandleRepresents parent es) (hf : ∀ d ∈ fields, d.Formatted)
    (htotal : internalLogContextGetValuesDataLengthOrZero parent + 1 + dataBytes fields < 2 ^ 32)
    (garbage : ℕ → UInt8) :
    (ContextMacro.localDefine garbage).Accepts parent fields ↔ FitsOnStack parent fields := by
  have hlength : (internalLogContextGetValuesDataLengthOrZero parent + 1 + dataBytes fields : ℤ) =
      dataLength parent fields := by
    rw [dataLength_eq h hf htotal, totalSize_childEntries h, dataBytes_eq_sum hf]
    push_cast
    ring
  rw [ContextMacro.Accepts, FitsOnStack, pairCount_eq h hf htotal, hlength, Nat.cast_le]

/-- A context is stored exactly if the macro accepts it. -/
lemma stores_iff_accepts (l : Level) (parent : LogContextHandle) :
    (∃ c, (l.define parent).Stores c) ↔ l.kind.Accepts parent l.fields := by
  constructor
  · rintro ⟨c, hcontext, hreports⟩
    by_contra h
    rw [Level.define, run_of_not_accepts h] at hcontext hreports
    cases hkind : l.kind with
    | create malloc => rw [hkind] at hcontext; cases hcontext
    | localDefine garbage => rw [hkind] at hreports; cases hreports
  · intro h
    rw [Level.define, run_of_accepts h]
    exact ⟨_, rfl, rfl⟩

lemma rejected_of_not_accepts {l : Level} {parent : LogContextHandle} {garbage : ℕ → UInt8}
    (hkind : l.kind = .localDefine garbage) (h : ¬ l.kind.Accepts parent l.fields) :
    (l.define parent).Rejected := by
  rw [Level.define, run_of_not_accepts h, hkind]
  exact ⟨⟨_, rfl, rfl, rfl, rfl⟩, rfl, rfl⟩

lemma represents_stored {l : Level} {ls : List Level} (h : Formats (l :: ls)) {c : LogContext}
    (hc : (l.define (build ls)).Stores c) :
    Represents c (childEntries (build ls) (entries ls) l.fields) := by
  have haccepts := (stores_iff_accepts l (build ls)).mp ⟨c, hc⟩
  have hrep := represents_build h
  rw [build, hc.1, entries, if_pos haccepts] at hrep
  exact hrep

/-- The layout of every context of a chain: when it is stored on the stack, and what it then holds
of its parent and of the new properties. -/
theorem exactLayout_build (l : Level) (ls : List Level) (h : Formats (l :: ls)) :
    (∀ garbage, l.kind = .localDefine garbage →
      ((∃ c, (l.define (build ls)).Stores c) ↔ FitsOnStack (build ls) l.fields) ∧
      (¬ FitsOnStack (build ls) l.fields → (l.define (build ls)).Rejected)) ∧
    ∀ c, (l.define (build ls)).Stores c →
      ExactLayout (build ls) (regions ls) l.fields c (regions (l :: ls)) := by
  obtain ⟨hf, htotal, hls⟩ := h
  have hparent := represents_build hls
  constructor
  · intro garbage hkind
    have hfits := accepts_localDefine_iff hparent hf htotal garbage
    rw [← hkind] at hfits
    rw [stores_iff_accepts]
    exact ⟨hfits, fun hnot => rejected_of_not_accepts hkind fun ha => hnot (hfits.mp ha)⟩
  · intro c hc
    have haccepts := (stores_iff_accepts l (build ls)).mp ⟨c, hc⟩
    have hlayout := exactLayout_of_represents hparent hf (represents_stored ⟨hf, htotal, hls⟩ hc)
    rw [regions, regions, entries, if_pos haccepts]
    exact hlayout

end

/-- A context on the heap with a string. -/
def sampleParent : @Level posix :=
  @Level.mk posix (.create (some fun _ => 0))
    [@FieldDesc.logContextStringProperty posix ⟨ascii "s", zero_notMem_s⟩
      (.formatted ⟨ascii "ab", by decide⟩ (by decide))]

/-- A context on the stack with a name and a number. -/
def sampleChild : @Level posix :=
  @Level.mk posix (.localDefine fun _ => 0)
    [@FieldDesc.logContextName posix ⟨ascii "child", by decide⟩,
      @FieldDesc.logContextProperty posix .int32 ⟨ascii "x", zero_notMem_x⟩ ⟨[7, 0, 0, 0], length_seven⟩]

lemma formats_sample : @Formats posix [sampleChild, sampleParent] := by
  refine ⟨?_, by decide, ?_, by decide, trivial⟩
  · intro d hd
    simp only [sampleChild, List.mem_cons, List.not_mem_nil, or_false] at hd
    rcases hd with rfl | rfl <;> exact trivial
  · intro d hd
    obtain rfl := List.mem_singleton.mp hd
    exact trivial

theorem exactLayout_sample :
    ∃ c, @Definition.Stores (@Level.define posix sampleChild (@build posix [sampleParent])) c ∧
      @ExactLayout posix (@build posix [sampleParent]) (@regions posix [sampleParent])
        (@Level.fields posix sampleChild) c (@regions posix [sampleChild, sampleParent]) := by
  obtain ⟨hstack, hlayout⟩ := @exactLayout_build posix sampleChild [sampleParent] formats_sample
  obtain ⟨c, hc⟩ := (hstack (fun _ => 0) rfl).1.mpr ⟨by decide, by decide⟩
  exact ⟨c, hc, hlayout c hc⟩

end CLogging
