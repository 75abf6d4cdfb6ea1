import CLogging.Context.Constructors

/-!
# Failures in `LOG_CONTEXT_CREATE`

The macro notices only that `malloc` fails. A pair of the parent that cannot be copied and a value
that cannot be formatted leave a context that is not complete. A value that is formatted takes the
bytes that are reserved for it.
-/

namespace CLogging

open C Memory Printf

/-- Every pair of the parent was filled in, and its value lies in its block and is copied with
success. -/
def ParentCopied (parent : LogContextHandle) : Prop :=
  ∀ c, parent = some c → ∀ i < c.propertyValuePairCount, ∃ p bytes,
    c.propertyValuePairs[i]? = some (some p) ∧ c.copy p = some (some bytes)

/-! ### Inherited pairs -/

lemma LogContext.copy_eq_some {c : LogContext} {p : LogContextPropertyValuePair}
    {copied : Option (List UInt8)} (h : c.copy p = some copied) :
    c.Within p ∧ p.type.copy (c.deref p.value) = copied := by
  rw [LogContext.copy] at h
  split_ifs at h with hwithin
  exact ⟨hwithin, Option.some.inj h⟩

/-- If all pairs can be copied, each of them is filled in and its value is stored. -/
lemma copyPairs_getElem? {parent : LogContext} {ps : List (Option LogContextPropertyValuePair)}
    (h : ∀ q ∈ ps, ∃ p bytes, q = some p ∧ parent.copy p = some (some bytes)) :
    (copyPairs parent ps).1.length = ps.length ∧ (copyPairs parent ps).2.2 = some true ∧
      ∀ i < ps.length, ∃ p bytes, ps[i]? = some (some p) ∧ parent.copy p = some (some bytes) ∧
      (copyPairs parent ps).1[i]? = some { p with value := 1 + p.value } ∧
      (copyPairs parent ps).2.1[i]? = some ⟨1 + p.value, bytes⟩ := by
  induction ps with
  | nil => exact ⟨rfl, rfl, fun i hi => absurd hi (Nat.not_lt_zero i)⟩
  | cons q ps ih =>
    obtain ⟨p, bytes, rfl, hcopy⟩ := h q List.mem_cons_self
    obtain ⟨hlength, hall, hget⟩ := ih fun q hq => h q (List.mem_cons_of_mem _ hq)
    simp only [copyPairs, hcopy]
    refine ⟨congrArg Nat.succ hlength, hall, fun i hi => ?_⟩
    cases i with
    | zero => exact ⟨p, bytes, rfl, hcopy, rfl, rfl⟩
    | succ i =>
      simp only [List.getElem?_cons_succ]
      exact hget i (Nat.lt_of_succ_lt_succ hi)

/-- A value is stored only if its pair can be copied. -/
lemma copy_of_getElem?_writes {parent : LogContext} {ps : List (Option LogContextPropertyValuePair)}
    {i : ℕ} {w : Write UInt8} (h : (copyPairs parent ps).2.1[i]? = some w) :
    ∃ p bytes, ps[i]? = some (some p) ∧ parent.copy p = some (some bytes) ∧
      w = ⟨1 + p.value, bytes⟩ := by
  induction ps generalizing i with
  | nil => simp [copyPairs] at h
  | cons q ps ih =>
    cases q with
    | none => simp [copyPairs] at h
    | some p =>
      rw [copyPairs] at h
      cases hcopy : parent.copy p with
      | none => simp [hcopy] at h
      | some copied =>
        cases copied with
        | none => simp [hcopy] at h
        | some bytes =>
          simp only [hcopy] at h
          cases i with
          | zero => exact ⟨p, bytes, rfl, hcopy, (Option.some.inj h).symm⟩
          | succ i => exact ih h

/-- What is inherited from a parent whose pairs can be copied. -/
lemma ParentCopied.initFromParent {parent : LogContextHandle} (h : ParentCopied parent) :
    (internalLogContextInitFromParent parent).1.length =
        logContextGetPropertyValuePairCount parent ∧ Statements.Defined parent ∧
      ∀ i < logContextGetPropertyValuePairCount parent, ∃ p bytes,
        (internalLogContextInitFromParent parent).1[i]? = some p ∧
        (internalLogContextInitFromParent parent).2.1[i]? = some ⟨p.value, bytes⟩ := by
  cases parent with
  | none => exact ⟨rfl, rfl, fun i hi => absurd hi (Nat.not_lt_zero i)⟩
  | some c =>
    have hcopied : ∀ q ∈ c.countedPairs, ∃ p bytes, q = some p ∧ c.copy p = some (some bytes) := by
      intro q hq
      obtain ⟨i, hi⟩ := List.mem_iff_getElem?.mp hq
      have hlt := (List.getElem?_eq_some_iff.mp hi).1
      rw [c.length_countedPairs] at hlt
      obtain ⟨p, bytes, hp, hcopy⟩ := h c rfl i hlt
      rw [c.countedPairs_getElem? hlt, hp] at hi
      exact ⟨p, bytes, (Option.some.inj hi).symm, hcopy⟩
    obtain ⟨hpairs, hall, hget⟩ := copyPairs_getElem? hcopied
    refine ⟨hpairs.trans c.length_countedPairs, Option.isSome_of_eq_some hall, fun i hi => ?_⟩
    obtain ⟨p, bytes, -, -, hp, hw⟩ := hget i (c.length_countedPairs.symm ▸ hi)
    exact ⟨_, bytes, hp, hw⟩

section

variable [Platform]

/-! ### New pairs -/

omit [Platform] in
lemma pairsFrom_getElem? (pos : ℤ) (ps : List Property) {i : ℕ} (hi : i < ps.length) :
    ∃ p bytes, (pairsFrom pos ps)[i]? = some p ∧ (writesFrom pos ps)[i]? = some ⟨p.value, bytes⟩ := by
  induction ps generalizing pos i with
  | nil => exact absurd hi (Nat.not_lt_zero i)
  | cons p ps ih =>
    match i with
    | 0 => exact ⟨_, p.written, rfl, rfl⟩
    | i + 1 => exact ih (pos + p.advance) (Nat.lt_of_succ_lt_succ hi)

/-- If the parent's pairs can be copied, every pair is assigned and its value is stored. -/
lemma exists_pair_store {parent : LogContextHandle} (h : ParentCopied parent)
    (fields : List FieldDesc) {i : ℕ} (hi : i < (setupPairs parent fields).length) :
    ∃ p bytes, (setupPairs parent fields)[i]? = some (some p) ∧
      (i, ⟨p.value, bytes⟩) ∈ Statements.valueStores parent fields := by
  obtain ⟨hlength, -, hinherited⟩ := h.initFromParent
  rw [Statements.length_setupPairs] at hi
  have hpairs : setupPairs parent fields =
      some ⟨(setup parent fields).firstName, 0, struct⟩ ::
        (internalLogContextInitFromParent parent).1.map some ++
          (setup parent fields).pairs.map some := by
    rw [setupPairs, hlength, Nat.sub_self, List.replicate_zero, List.append_nil]
  rw [hpairs]
  cases i with
  | zero =>
    exact ⟨⟨(setup parent fields).firstName, 0, struct⟩,
      [u8 ((if parent.isSome then 1 else 0) + propertyCount fields)], rfl,
      List.mem_append_right _ List.mem_cons_self⟩
  | succ i =>
    by_cases hlt : i < logContextGetPropertyValuePairCount parent
    · obtain ⟨p, bytes, hp, hw⟩ := hinherited i hlt
      refine ⟨p, bytes, ?_, List.mem_append_left _ (Statements.mem_labelled.mpr ?_)⟩
      · rw [List.cons_append, List.getElem?_cons_succ, List.getElem?_append_left,
          List.getElem?_map, hp, Option.map_some]
        rwa [List.length_map, hlength]
      · exact ⟨Nat.le_add_left 1 i, hw⟩
    · have hlast : i - logContextGetPropertyValuePairCount parent < (properties fields).length := by
        rw [propertyCount_eq] at hi
        omega
      obtain ⟨p, bytes, hp, hw⟩ := pairsFrom_getElem? (startPos parent) (properties fields) hlast
      refine ⟨p, bytes, ?_, List.mem_append_right _ (List.mem_cons_of_mem _
        (Statements.mem_labelled.mpr ?_))⟩
      · rw [List.cons_append, List.getElem?_cons_succ, List.getElem?_append_right,
          List.length_map, hlength, List.getElem?_map, setup_pairs, hp, Option.map_some]
        rw [List.length_map, hlength]
        exact not_lt.mp hlt
      · refine ⟨by omega, ?_⟩
        rw [Nat.add_sub_add_right]
        exact hw

/-! ### Failures -/

/-- Formatting the value returns a negative result. -/
def FieldDesc.Fails : FieldDesc → Prop
  | .logContextStringProperty _ text             => text.result < 0
  | .logContextWstringProperty _ text            => text.result < 0
  | .logContextPropertyCustomFunction _ _ _ call => call.result < 0
  | _                                            => False

lemma length_wide_lt {text : List ℕ} (h : text.length < LOG_MAX_WCHAR_STRING_LENGTH) :
    text.length * sizeofWchar < 2 ^ 31 := by
  have hle : sizeofWchar ≤ 4 := by
    rcases Platform.sizeofWchar_eq with hw | hw <;> simp [sizeofWchar, hw]
  calc text.length * sizeofWchar ≤ LOG_MAX_WCHAR_STRING_LENGTH * 4 := Nat.mul_le_mul h.le hle
    _ < 2 ^ 31 := by decide

omit [Platform] in
lemma asciiCharPtrGetInitDataSize_formatted (text : CString)
    (fits : text.bytes.length + 1 < 2 ^ 31) :
    asciiCharPtrGetInitDataSize (.formatted text fits) = text.bytes.length + 1 :=
  if_pos (Int.natCast_nonneg _)

lemma wcharTPtrGetInitDataSize_formatted {text : List ℕ} (wide : WideChars sizeofWchar text)
    (fits : text.length < LOG_MAX_WCHAR_STRING_LENGTH) :
    wcharTPtrGetInitDataSize (.formatted text wide fits) =
      (Swprintf.formatted text wide fits).result * sizeofWchar + sizeofWchar := by
  have hint : int ((text.length : ℤ) * sizeofWchar) = (text.length * sizeofWchar : ℕ) := by
    rw [← Nat.cast_mul]
    exact int_natCast (length_wide_lt fits)
  rw [wcharTPtrGetInitDataSize, Swprintf.result, hint, if_pos (Int.natCast_nonneg _),
    Nat.cast_mul]

/-- A value is reserved the bytes it takes, unless formatting it fails. -/
lemma reserved_of_not_fails {d : FieldDesc} (h : ¬ d.Fails) {p : Property}
    (hp : d.property = some p) : p.advance = p.counted ∧ (p.written.length : ℤ) ≤ p.counted := by
  match d with
  | .logMessage => cases hp
  | .logContextName _ => cases hp
  | .logContextProperty type name x =>
    cases hp
    exact ⟨rfl, by simp [x.length]⟩
  | .logContextStringProperty name (.formatted text fits) =>
    cases hp
    have hcounted := asciiCharPtrGetInitDataSize_formatted text fits
    refine ⟨hcounted.symm, ?_⟩
    simp only [hcounted, Sprintf.written, CString.length_terminated]
    exact le_refl _
  | .logContextStringProperty name (.failed result negative written) => exact absurd negative h
  | .logContextWstringProperty name (.formatted text wide fits) =>
    cases hp
    have hcounted := wcharTPtrGetInitDataSize_formatted wide fits
    refine ⟨?_, ?_⟩
    · simp only [hcounted]
    · simp [hcounted, Swprintf.written, Swprintf.result, length_wideBytes, add_mul]
  | .logContextWstringProperty name (.failed result negative written bounded) =>
    exact absurd negative h
  | .logContextPropertyCustomFunction type _ name call =>
    -- a custom property: the memory it is given holds what it stores
    cases hp
    have hfits := call.fits
    have hnonneg : 0 ≤ call.result := not_lt.mp h
    refine ⟨rfl, ?_⟩
    simp only
    omega

omit [Platform] in
/-- The pair was assigned its name, its type and its value, and the value was stored. -/
def Statements.Construction.PairSet (c : Statements.Construction) (i : ℕ) : Prop :=
  ∃ p bytes, c.context.propertyValuePairs[i]? = some (some p) ∧ (i, ⟨p.value, bytes⟩) ∈ c.stores

/-- If anything fails, there is no context; and if there is one, its pairs were all set. -/
def FailsAsWhole (malloc : Option (ℕ → UInt8)) (parent : LogContextHandle)
    (fields : List FieldDesc) : Prop :=
  ((malloc = none ∨ ¬ ParentCopied parent ∨ ∃ d ∈ fields, d.Fails) →
    Statements.logContextCreateMacro malloc parent fields = some none) ∧
  ∀ c, Statements.logContextCreateMacro malloc parent fields = some (some c) →
    ∀ i < c.context.propertyValuePairCount, c.PairSet i

/-- `LOG_CONTEXT_CREATE` fails as a whole exactly if `malloc` fails or nothing does. -/
theorem failsAsWhole_iff (malloc : Option (ℕ → UInt8)) (parent : LogContextHandle)
    (fields : List FieldDesc) :
    FailsAsWhole malloc parent fields ↔
      malloc = none ∨ (ParentCopied parent ∧ ∀ d ∈ fields, ¬ d.Fails) := by
  cases malloc with
  | none =>
    refine iff_of_true ⟨fun _ => rfl, fun c hc => ?_⟩ (Or.inl rfl)
    cases hc
  | some garbage =>
    simp only [FailsAsWhole, reduceCtorEq, false_or]
    constructor
    · rintro ⟨hnone, -⟩
      -- the macro never returns without a context once it has memory
      have hnever : Statements.logContextCreateMacro (some garbage) parent fields ≠ some none := by
        intro hmacro
        by_cases hdefined : Statements.Defined parent
        · rw [Statements.logContextCreateMacro_eq garbage hdefined] at hmacro
          cases Option.some.inj hmacro
        · rw [Statements.logContextCreateMacro_of_not_defined garbage hdefined] at hmacro
          cases hmacro
      obtain ⟨hcopied, hformats⟩ := not_or.mp fun h => hnever (hnone h)
      exact ⟨not_not.mp hcopied, fun d hd hfails => hformats ⟨d, hd, hfails⟩⟩
    · rintro ⟨hcopied, hformats⟩
      refine ⟨?_, ?_⟩
      · rintro (hnot | ⟨d, hd, hfails⟩)
        · exact absurd hcopied hnot
        · exact absurd hfails (hformats d hd)
      · intro c hmacro i hi
        rw [Statements.logContextCreateMacro_eq garbage hcopied.initFromParent.2.1] at hmacro
        obtain rfl := Option.some.inj (Option.some.inj hmacro)
        have hcount : pairCount parent fields ≤ (setupPairs parent fields).length := by
          rw [Statements.length_setupPairs, pairCount]
          simp only [u32]
          omega
        obtain ⟨p, bytes, hp, hw⟩ := exists_pair_store hcopied fields (hi.trans_le hcount)
        have hlt : i < pairCount parent fields := hi
        refine ⟨p, bytes, ?_, hw⟩
        simp only [Statements.described]
        rw [List.getElem?_take_of_lt hlt, List.getElem?_append_left (hlt.trans_le hcount), hp]

end

section

attribute [local instance] posix

/-- A type whose values cannot be copied. -/
def uncopyable : LogContextPropertyTypeIf where
  toString _      := snprintf []
  copy _          := none
  getType         := .other
  readsInside _   := true
  copy_ne_nil h   := by cases h
  copy_append h   := by cases h
  readsInside_iff := by simp

def uncopyableField : FieldDesc :=
  .logContextPropertyCustomFunction uncopyable (by decide) ⟨ascii "u", by decide⟩
    ⟨1, [7], by decide⟩

/-- A context on the heap with such a value. -/
def uncopyableContext : LogContextHandle :=
  (Statements.logContextCreateMacro (some fun _ => 0) none [uncopyableField]).join.map
    Statements.Construction.context

/-- No value is stored for the third pair of a child of such a context. -/
lemma exists_uncopyableChild : ∃ c,
    Statements.logContextCreateMacro (some fun _ => 0) uncopyableContext [] = some (some c) ∧
      c.context.propertyValuePairCount = 3 ∧ ∀ w, (2, w) ∉ c.stores := by
  have hcreated : ∃ c, Statements.logContextCreateMacro (some fun _ => 0) uncopyableContext [] =
      some (some c) ∧ c.context.propertyValuePairCount = 3 ∧ c.stores.map Prod.fst = [1, 0] :=
    ⟨_, rfl, rfl, rfl⟩
  obtain ⟨c, hc, hcount, hstores⟩ := hcreated
  refine ⟨c, hc, hcount, fun w hmem => ?_⟩
  have hlabel := List.mem_map_of_mem (f := Prod.fst) hmem
  rw [hstores] at hlabel
  exact absurd hlabel (show (2 : ℕ) ∉ [1, 0] by decide)

/-- A child of such a context has a pair whose value is not set. -/
theorem not_failsAsWhole_uncopyable :
    ¬ FailsAsWhole (some fun _ => 0) uncopyableContext [] ∧
      ∃ c, Statements.logContextCreateMacro (some fun _ => 0) uncopyableContext [] = some (some c) ∧
        2 < c.context.propertyValuePairCount ∧ ¬ c.PairSet 2 := by
  obtain ⟨c, hc, hcount, hstores⟩ := exists_uncopyableChild
  have hset : ¬ c.PairSet 2 := by
    rintro ⟨p, bytes, -, hmem⟩
    exact hstores _ hmem
  have hlt : 2 < c.context.propertyValuePairCount := by
    rw [hcount]
    decide
  exact ⟨fun h => hset (h.2 c hc 2 hlt), c, hc, hlt, hset⟩

end

end CLogging
