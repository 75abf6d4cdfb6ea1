import CLogging.Context.Failure
import CLogging.Sink.Reading

/-!
# The constructors build the same context

`LOG_CONTEXT_CREATE` and `LOG_CONTEXT_LOCAL_DEFINE` assign the same pairs and store the same values,
in blocks that hold something else before. Nothing of that is left if every value is stored.
-/

namespace CLogging

open C Memory TraceLogging

/-! ### Values inside the data of a context -/

/-- The values that can be copied lie in the data of the context. -/
def ValuesInside (parent : LogContextHandle) : Prop :=
  ∀ c, parent = some c → ∀ i < c.propertyValuePairCount, ∀ p bytes,
    c.propertyValuePairs[i]? = some (some p) → p.type.copy (c.deref p.value) = some bytes →
      0 ≤ p.value ∧ p.value + bytes.length ≤ c.valuesDataLength

section

variable [Platform]

omit [Platform] in
/-- Values that are reserved their bytes lie where they are reserved. -/
lemma inside_of_mem_writesFrom {ps : List Property}
    (h : ∀ p ∈ ps, p.advance = p.counted ∧ (p.written.length : ℤ) ≤ p.counted) {pos : ℤ}
    {w : Write UInt8} (hw : w ∈ writesFrom pos ps) :
    pos ≤ w.offset ∧ w.stop ≤ pos + countedBytes ps := by
  induction ps generalizing pos with
  | nil => cases hw
  | cons p ps ih =>
    obtain ⟨hadvance, hwritten⟩ := h p List.mem_cons_self
    have hrest : ∀ q ∈ ps, q.advance = q.counted ∧ (q.written.length : ℤ) ≤ q.counted :=
      fun q hq => h q (List.mem_cons_of_mem _ hq)
    have hcounted : 0 ≤ countedBytes ps := by
      refine List.sum_nonneg fun x hx => ?_
      obtain ⟨q, hq, rfl⟩ := List.mem_map.mp hx
      exact (Int.natCast_nonneg _).trans (hrest q hq).2
    rw [countedBytes_cons]
    rcases List.mem_cons.mp hw with rfl | hmem
    · simp only [Write.stop]
      omega
    · have := ih hrest hmem
      omega

/-- The bytes of a context that fits on the stack. -/
lemma natCast_dataLength_of_fits {parent : LogContextHandle} {fields : List FieldDesc}
    (hfields : ∀ d ∈ fields, ¬ d.Fails) (hfits : FitsOnStack parent fields) :
    0 ≤ countedBytes (properties fields) ∧
      startPos parent = 1 + internalLogContextGetValuesDataLengthOrZero parent ∧
      (dataLength parent fields : ℤ) =
        1 + internalLogContextGetValuesDataLengthOrZero parent + countedBytes (properties fields) := by
  have hcounted : 0 ≤ countedBytes (properties fields) := by
    refine List.sum_nonneg fun x hx => ?_
    obtain ⟨p, hp, rfl⟩ := List.mem_map.mp hx
    obtain ⟨d, hd, hproperty⟩ := List.mem_filterMap.mp hp
    exact (Int.natCast_nonneg _).trans (reserved_of_not_fails (hfields d hd) hproperty).2
  obtain ⟨-, hlength⟩ := hfits
  rw [dataBytes_eq, LOG_MAX_STACK_DATA_SIZE] at hlength
  refine ⟨hcounted, startPos_eq (by omega), ?_⟩
  rw [dataLength, natCast_u32, dataBytes_eq]
  omega

/-- Every value is stored inside the data of the context. -/
lemma inside_of_mem_valueStores {parent : LogContextHandle} {fields : List FieldDesc}
    (hvalues : ValuesInside parent) (hfields : ∀ d ∈ fields, ¬ d.Fails)
    (hfits : FitsOnStack parent fields) {i : ℕ} {w : Write UInt8}
    (hw : (i, w) ∈ Statements.valueStores parent fields) :
    0 ≤ w.offset ∧ w.stop ≤ dataLength parent fields := by
  obtain ⟨hcounted, hstart, hlength⟩ := natCast_dataLength_of_fits hfields hfits
  rw [hlength]
  rcases List.mem_append.mp hw with hinherited | hmem
  · -- a value of the parent, one byte further on
    obtain ⟨-, hget⟩ := Statements.mem_labelled.mp hinherited
    cases parent with
    | none => simp [internalLogContextInitFromParent] at hget
    | some c =>
      obtain ⟨p, bytes, hp, hcopy, rfl⟩ := copy_of_getElem?_writes hget
      have hlt := (List.getElem?_eq_some_iff.mp hp).1
      rw [c.length_countedPairs] at hlt
      have hinside := hvalues c rfl _ hlt p bytes ((c.countedPairs_eq_some_iff hlt).mp hp)
        (LogContext.copy_eq_some hcopy).2
      simp only [Write.stop, internalLogContextGetValuesDataLengthOrZero]
      omega
  · rcases List.mem_cons.mp hmem with heq | hnew
    · obtain ⟨-, rfl⟩ := Prod.mk.inj heq
      simp only [Write.stop, List.length_singleton]
      omega
    · obtain ⟨-, hget⟩ := Statements.mem_labelled.mp hnew
      have hreserved : ∀ p ∈ properties fields,
          p.advance = p.counted ∧ (p.written.length : ℤ) ≤ p.counted := by
        intro p hp
        obtain ⟨d, hd, hproperty⟩ := List.mem_filterMap.mp hp
        exact reserved_of_not_fails (hfields d hd) hproperty
      have hinside := inside_of_mem_writesFrom hreserved (List.mem_of_getElem? hget)
      omega

/-! ### The contexts -/

namespace Statements

omit [Platform] in
/-- Both contexts have the same pairs, and of each pair the value was stored, with the same bytes. -/
structure SameContext (a b : Construction) : Prop where
  count_eq  : a.context.propertyValuePairCount = b.context.propertyValuePairCount
  length_eq : a.context.valuesDataLength = b.context.valuesDataLength
  pairs     : ∀ i < a.context.propertyValuePairCount, ∃ p bytes,
    a.context.propertyValuePairs[i]? = some (some p) ∧
    b.context.propertyValuePairs[i]? = some (some p) ∧
    (i, ⟨p.value, bytes⟩) ∈ a.stores ∧ (i, ⟨p.value, bytes⟩) ∈ b.stores ∧
    slice a.context.valuesData p.value.toNat bytes.length =
      slice b.context.valuesData p.value.toNat bytes.length

/-- Behind every value that was stored, nothing matters to its type. -/
def Construction.ReadsValues (a : Construction) : Prop :=
  ∀ i p bytes, a.context.propertyValuePairs[i]? = some (some p) →
    (i, ⟨p.value, bytes⟩) ∈ a.stores →
      p.type.ReadsOnly (slice a.context.valuesData p.value.toNat bytes.length)

/-- Both macros make the same context, and as far as types read their values only, every sink does
the same for both. -/
def BuildAlike [TlgIn] (heap stack : ℕ → UInt8) (parent : LogContextHandle)
    (fields : List FieldDesc) : Prop :=
  ∃ a b, logContextCreateMacro (some heap) parent fields = some (some a) ∧
    logContextLocalDefineMacro stack parent fields = some (b, 0) ∧ SameContext a b ∧
      (a.ReadsValues → SameOutput a.context b.context)

section

variable {parent : LogContextHandle} {fields : List FieldDesc}

/-- The numbers of pairs and bytes of a context that fits on the stack. -/
lemma sizes_of_fits (hfields : ∀ d ∈ fields, ¬ d.Fails) (hfits : FitsOnStack parent fields) :
    pairCount parent fields = (setupPairs parent fields).length ∧
      (setupPairs parent fields).length ≤ LOG_MAX_STACK_PROPERTY_VALUE_PAIR_COUNT ∧
      dataLength parent fields ≤ LOG_MAX_STACK_DATA_SIZE := by
  obtain ⟨-, -, hlength⟩ := natCast_dataLength_of_fits hfields hfits
  obtain ⟨hcount, hbytes⟩ := hfits
  rw [dataBytes_eq] at hbytes
  rw [length_setupPairs]
  refine ⟨?_, hcount, by omega⟩
  rw [LOG_MAX_STACK_PROPERTY_VALUE_PAIR_COUNT] at hcount
  have hlt : logContextGetPropertyValuePairCount parent + 1 + propertyCount fields < 2 ^ 32 := by
    omega
  exact u32_natCast hlt

/-- A pair in the array of a macro. -/
lemma described_getElem? {block : List UInt8} {capacity i : ℕ}
    (hi : i < (setupPairs parent fields).length)
    (hcapacity : (setupPairs parent fields).length ≤ capacity) :
    (described block capacity parent fields).context.propertyValuePairs[i]? =
      (setupPairs parent fields)[i]? := by
  simp only [described]
  rw [List.getElem?_take_of_lt (hi.trans_le hcapacity), List.getElem?_append_left hi]

/-- The contexts are the same if the parent's pairs can be copied. -/
lemma sameContext_described (hvalues : ValuesInside parent) (hfields : ∀ d ∈ fields, ¬ d.Fails)
    (hfits : FitsOnStack parent fields) (hcopied : ParentCopied parent) {block block' : List UInt8}
    (hblock : dataLength parent fields ≤ block.length)
    (hblock' : dataLength parent fields ≤ block'.length) {capacity capacity' : ℕ}
    (hcapacity : (setupPairs parent fields).length ≤ capacity)
    (hcapacity' : (setupPairs parent fields).length ≤ capacity') :
    SameContext (described block capacity parent fields)
      (described block' capacity' parent fields) := by
  obtain ⟨hcount, -, -⟩ := sizes_of_fits hfields hfits
  refine ⟨rfl, rfl, fun i hi => ?_⟩
  have hi' : i < (setupPairs parent fields).length := hcount ▸ hi
  obtain ⟨p, bytes, hp, hw⟩ := exists_pair_store hcopied fields hi'
  obtain ⟨hpos, hstop⟩ := inside_of_mem_valueStores hvalues hfields hfits hw
  have hmem : ⟨p.value, bytes⟩ ∈ (setup parent fields).writes := by
    rw [← map_snd_valueStores]
    exact List.mem_map_of_mem (f := Prod.snd) hw
  refine ⟨p, bytes, (described_getElem? hi' hcapacity).trans hp,
    (described_getElem? hi' hcapacity').trans hp, hw, hw, ?_⟩
  simp only [Write.stop] at hpos hstop
  exact slice_applyAll_congr hmem (Int.toNat_of_nonneg hpos).symm (by simp only; omega)
    (by simp only; omega)

/-- A value is stored for an inherited pair only if it could be copied. -/
lemma parentCopied_of_stores (h : ∀ i < logContextGetPropertyValuePairCount parent,
    ∃ w, (i + 1, w) ∈ valueStores parent fields) : ParentCopied parent := by
  rintro c rfl i hi
  obtain ⟨w, hw⟩ := h i hi
  have hinherited : (CLogging.internalLogContextInitFromParent (some c)).2.1[i]? = some w := by
    rcases List.mem_append.mp hw with hmem | hmem
    · exact (mem_labelled.mp hmem).2
    · rcases List.mem_cons.mp hmem with heq | hnew
      · exact absurd (Prod.mk.inj heq).1 (Nat.succ_ne_zero i)
      · have hle := (mem_labelled.mp hnew).1
        simp only [logContextGetPropertyValuePairCount] at hle hi
        omega
  obtain ⟨p, bytes, hp, hcopy, -⟩ := copy_of_getElem?_writes hinherited
  exact ⟨p, bytes, (c.countedPairs_eq_some_iff hi).mp hp, hcopy⟩

omit [Platform] in
lemma exists_eq_map_some {α : Type} {xs : List (Option α)}
    (h : ∀ i < xs.length, ∃ x, xs[i]? = some (some x)) : ∃ ys : List α, xs = ys.map some := by
  induction xs with
  | nil => exact ⟨[], rfl⟩
  | cons x xs ih =>
    obtain ⟨y, hy⟩ := h 0 (Nat.succ_pos _)
    obtain ⟨ys, rfl⟩ := ih fun i hi => h (i + 1) (Nat.succ_lt_succ hi)
    obtain rfl := Option.some.inj hy
    exact ⟨y :: ys, rfl⟩

/-- What a reader sees if all pairs were assigned. -/
lemma views_described {ps : List LogContextPropertyValuePair}
    (hps : setupPairs parent fields = ps.map some) (block : List UInt8) {capacity : ℕ}
    (hcapacity : (setupPairs parent fields).length ≤ capacity) :
    (described block capacity parent fields).context.views =
      ps.map (described block capacity parent fields).context.view := by
  have hpairs : (described block capacity parent fields).context.propertyValuePairs =
      ps.map some ++ List.replicate (capacity - ps.length) none := by
    simp only [described]
    rw [hps, List.length_map] at hcapacity
    rw [hps, List.take_append, List.take_of_length_le (by simpa using hcapacity),
      List.take_replicate, List.length_map, min_eq_left (Nat.sub_le _ _)]
  have hbehind : (List.replicate (capacity - ps.length)
      (none : Option LogContextPropertyValuePair)).takeWhile Option.isSome = [] := by
    cases capacity - ps.length <;> rfl
  rw [LogContext.views, hpairs]
  refine (filterMap_takeWhile_map_some (described block capacity parent fields).context.view ps
    _).trans ?_
  rw [hbehind, List.filterMap_nil, List.append_nil]

omit [Platform] in
/-- The memory from a value on starts with its bytes. -/
lemma deref_eq_slice_append (c : LogContext) (value : ℤ) (n : ℕ) :
    c.deref value = slice c.valuesData value.toNat n ++ (c.deref value).drop n :=
  (List.take_append_drop n _).symm

/-- The sinks cannot tell the pairs of the contexts apart. -/
lemma SameContext.sameReading {a b : Construction} (h : SameContext a b) (hreads : a.ReadsValues)
    {i : ℕ} (hi : i < a.context.propertyValuePairCount) {p : LogContextPropertyValuePair}
    (hp : a.context.propertyValuePairs[i]? = some (some p)) :
    SameReading (a.context.view p) (b.context.view p) := by
  obtain ⟨q, bytes, hq, -, hw, -, hbytes⟩ := h.pairs i hi
  obtain rfl := Option.some.inj (Option.some.inj (hp.symm.trans hq))
  have hreading := hreads i p bytes hp hw p.name
  have hb := deref_eq_slice_append b.context p.value bytes.length
  rw [← hbytes] at hb
  rw [LogContext.view, LogContext.view, hb, deref_eq_slice_append a.context p.value bytes.length]
  exact hreading _ _

end

end Statements

/-! ### Chains in which formatting succeeds -/

omit [Platform] in
lemma HandleRepresents.exists_entry {parent : LogContextHandle} {es : List Entry}
    (h : HandleRepresents parent es) {c : LogContext} (hc : parent = some c) {i : ℕ}
    (hi : i < c.propertyValuePairCount) :
    ∃ e ∈ es, c.propertyValuePairs[i]? = some (some e.pair) ∧
      c.copy e.pair = some (some e.value) := by
  subst hc
  have hrep : Represents c es := h
  rw [hrep.count_eq] at hi
  refine ⟨es[i], List.getElem_mem hi, ?_, hrep.copy_pair (List.getElem_mem hi)⟩
  rw [hrep.pairs_eq, List.getElem?_map, List.getElem?_eq_getElem hi, Option.map_some]

/-- The pairs of a chain in which formatting succeeds can be copied, and lie in its data. -/
theorem parentCopied_build {chain : List Level} (h : Formats chain) :
    ParentCopied (build chain) ∧ ValuesInside (build chain) := by
  have hrep := represents_build h
  constructor
  · intro c hc i hi
    obtain ⟨e, -, hpair, hcopy⟩ := hrep.exists_entry hc hi
    exact ⟨e.pair, e.value, hpair, hcopy⟩
  · intro c hc i hi p bytes hp hcopy
    obtain ⟨e, he, hpair, hvalue⟩ := hrep.exists_entry hc hi
    obtain rfl := Option.some.inj (Option.some.inj (hp.symm.trans hpair))
    obtain rfl := Option.some.inj (hcopy.symm.trans (LogContext.copy_eq_some hvalue).2)
    rw [hc] at hrep
    have hwf := Represents.wellFormed hrep e he
    have hwithin := (Represents.tiles hrep).within e.region (List.mem_map_of_mem he)
    have hstored := hwf.stores.1
    have hfits := hwf.fits
    simp only [Entry.pair]
    omega

end

section

attribute [local instance] posix tlgIn

lemma valuesInside_uncopyableContext : ValuesInside uncopyableContext := by
  have hcreated : ∃ c, uncopyableContext = some c ∧ c.propertyValuePairCount = 2 ∧
      c.valuesDataLength = 2 ∧ c.propertyValuePairs =
        [some ⟨CString.empty, 0, struct⟩, some ⟨⟨ascii "u", by decide⟩, 1, uncopyable⟩] :=
    ⟨_, rfl, rfl, rfl, rfl⟩
  obtain ⟨c, hc, hcount, hlength, hpairs⟩ := hcreated
  rintro c' hc' i hi p bytes hp hcopy
  obtain rfl := Option.some.inj (hc.symm.trans hc')
  rw [hcount] at hi
  rw [hlength]
  rw [hpairs] at hp
  match i with
  | 0 =>
    obtain rfl := Option.some.inj (Option.some.inj hp)
    obtain rfl := Option.some.inj hcopy
    rw [length_memcpy]
    decide
  | 1 =>
    obtain rfl := Option.some.inj (Option.some.inj hp)
    cases hcopy

end

end CLogging
