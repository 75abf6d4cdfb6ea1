import CLogging.Context.Tree

/-!
# The bytes for the field counts

The structs are the first pairs of a context: its own, and those of the contexts that it inherits
from. Their field counts stand side by side at the start of its block, whatever becomes of the other
values, as long as none of these is stored over them.
-/

namespace CLogging

open C Memory Forest

/-- The pairs of structs, given with their field counts, which are stored one behind the other. -/
def structPairs : ℕ → List (CString × UInt8) → List LogContextPropertyValuePair
  | _, []        => []
  | pos, s :: ss => ⟨s.1, pos, struct⟩ :: structPairs (pos + 1) ss

/-- The stores of the field counts of structs, one behind the other. -/
def countStores : ℕ → List (CString × UInt8) → List (Write UInt8)
  | _, []        => []
  | pos, s :: ss => ⟨pos, [s.2]⟩ :: countStores (pos + 1) ss

/-- The structs of a context are its first pairs, and their field counts the first bytes of its
block. No other pair is a struct, and none points to these bytes. -/
structure Counts (c : LogContext) (ss : List (CString × UInt8))
    (others : List (Option LogContextPropertyValuePair)) : Prop where
  pairs_eq : c.propertyValuePairs = (structPairs 0 ss).map some ++ others
  count_eq : c.propertyValuePairCount = ss.length + others.length
  bytes    : ss.map Prod.snd <+: c.valuesData
  behind   : ∀ p, some p ∈ others → p.type.getType ≠ .struct ∧ (ss.length : ℤ) ≤ p.value

@[simp] lemma length_structPairs (pos : ℕ) (ss : List (CString × UInt8)) :
    (structPairs pos ss).length = ss.length := by
  induction ss generalizing pos with
  | nil => rfl
  | cons s ss ih => simp [structPairs, ih]

lemma applyAll_countStores (pos : ℕ) (ss : List (CString × UInt8)) (block : List UInt8) :
    applyAll (countStores pos ss) block = (Write.mk (pos : ℤ) (ss.map Prod.snd)).apply block := by
  induction ss generalizing pos block with
  | nil => rw [countStores, applyAll_nil, List.map_nil, Write.apply_nil]
  | cons s ss ih =>
    rw [countStores, applyAll_cons, ih, List.map_cons, Write.apply_cons, Write.apply_cons,
      Write.apply_nil]

/-- The field counts that are copied and the one that is stored are found in the end, if no other
value is stored over them. -/
lemma bytes_prefix {s : CString × UInt8} {ss : List (CString × UInt8)} {block : List UInt8}
    {inherited new : List (Write UInt8)} (hroom : ss.length + 1 ≤ block.length)
    (hinherited : ∀ w ∈ inherited, (ss.length + 1 : ℤ) ≤ w.offset)
    (hnew : ∀ w ∈ new, (ss.length + 1 : ℤ) ≤ w.offset) :
    (s :: ss).map Prod.snd <+:
      applyAll (countStores 1 ss ++ inherited ++ ⟨0, [s.2]⟩ :: new) block := by
  rw [List.prefix_iff_getElem?]
  intro i hi
  rw [List.length_map, List.length_cons] at hi
  have hbehind : ∀ ws : List (Write UInt8), (∀ w ∈ ws, (ss.length + 1 : ℤ) ≤ w.offset) →
      ∀ w ∈ ws, ¬ w.Covers i := by
    intro ws hws w hw hc
    have := hws w hw
    have := hc.1
    omega
  rw [applyAll_append, applyAll_cons, applyAll_getElem?_of_not_covers new _ i (hbehind new hnew)]
  cases i with
  | zero =>
    -- the own count at place 0, which no later store touches
    have hcovers : (Write.mk 0 [s.2]).Covers ((0 : ℕ) : ℤ) := ⟨le_refl _, Int.zero_lt_one⟩
    rw [Write.apply_getElem?_of_covers _ _ 0 hcovers (by rw [length_applyAll]; omega)]
    rfl
  | succ i =>
    -- a count of the parent, copied one byte further on
    have hfirst : ¬ (Write.mk 0 [s.2]).Covers ((i + 1 : ℕ) : ℤ) := by
      simp only [Write.Covers, List.length_singleton]
      omega
    have hcovers : (Write.mk ((1 : ℕ) : ℤ) (ss.map Prod.snd)).Covers ((i + 1 : ℕ) : ℤ) := by
      simp only [Write.Covers, List.length_map]
      omega
    have hindex : (((i + 1 : ℕ) : ℤ) - ((1 : ℕ) : ℤ)).toNat = i := by omega
    rw [Write.apply_getElem?_of_not_covers _ _ _ hfirst, applyAll_append,
      applyAll_getElem?_of_not_covers inherited _ _ (hbehind inherited hinherited),
      applyAll_countStores, Write.apply_getElem?_of_covers _ _ _ hcovers (by omega)]
    simp only [hindex, List.map_cons, List.getElem_cons_succ]
    exact List.getElem?_eq_getElem _

lemma prefix_drop_succ {b : UInt8} {bytes data : List UInt8} {pos : ℕ}
    (h : b :: bytes <+: data.drop pos) : bytes <+: data.drop (pos + 1) := by
  obtain ⟨rest, hrest⟩ := h
  rw [← List.drop_drop, ← hrest]
  exact ⟨rest, rfl⟩

/-- The structs are read with their field counts. -/
lemma token_structPairs {c : LogContext} {ss : List (CString × UInt8)} {pos : ℕ}
    (h : ss.map Prod.snd <+: c.valuesData.drop pos) :
    (structPairs pos ss).map c.token = ss.map fun s => .node s.1 s.2.toNat := by
  induction ss generalizing pos with
  | nil => rfl
  | cons s ss ih =>
    have hnext := ih (prefix_drop_succ h)
    obtain ⟨rest, hrest⟩ := h
    have hfirst : c.token ⟨s.1, pos, struct⟩ = .node s.1 s.2.toNat := by
      simp only [LogContext.token, LogContext.deref, Int.toNat_natCast, ← hrest]
      rfl
    rw [structPairs, List.map_cons, List.map_cons, hfirst, hnext]

/-- The other pairs are read as leaves. -/
lemma Counts.arity_tokens {c : LogContext} {ss : List (CString × UInt8)}
    {ps : List LogContextPropertyValuePair} (h : Counts c ss (ps.map some)) :
    ((structPairs 0 ss ++ ps).map c.token).map Token.arity =
      ss.map (fun s => some s.2.toNat) ++ List.replicate ps.length none := by
  have hbytes : ss.map Prod.snd <+: c.valuesData.drop 0 := h.bytes
  have hleaves : (ps.map c.token).map Token.arity = List.replicate ps.length none := by
    rw [List.map_map, ← List.map_const']
    refine List.map_congr_left fun p hp => ?_
    have hleaf := (h.behind p (List.mem_map_of_mem hp)).1
    rw [Function.comp_apply, LogContext.token, if_neg hleaf]
    rfl
  rw [List.map_append, List.map_append, hleaves, token_structPairs hbytes, List.map_map]
  rfl

/-! ### What is inherited -/

/-- The structs of a parent are copied first. -/
lemma copyPairs_structPairs (c : LogContext) (ss : List (CString × UInt8)) (pos : ℕ)
    (others : List (Option LogContextPropertyValuePair))
    (h : ss.map Prod.snd <+: c.valuesData.drop pos) :
    copyPairs c ((structPairs pos ss).map some ++ others) =
      (structPairs (pos + 1) ss ++ (copyPairs c others).1,
        countStores (pos + 1) ss ++ (copyPairs c others).2.1, (copyPairs c others).2.2) := by
  induction ss generalizing pos with
  | nil => rfl
  | cons s ss ih =>
    have hnext := prefix_drop_succ h
    obtain ⟨rest, hrest⟩ := h
    have hbyte := memcpy_append (show [s.2].length = 1 from rfl) (ss.map Prod.snd ++ rest)
    have hderef : c.deref pos = s.2 :: (ss.map Prod.snd ++ rest) := by
      rw [LogContext.deref, Int.toNat_natCast, ← hrest]
      rfl
    have hwithin : c.Within ⟨s.1, pos, struct⟩ := by
      refine ⟨Int.natCast_nonneg _, ?_⟩
      rw [hderef]
      exact (struct_stores s.2).readsInside _
    have hcopy : c.copy ⟨s.1, pos, struct⟩ = some (some [s.2]) := by
      rw [LogContext.copy, if_pos hwithin, hderef]
      exact congrArg (some ∘ some) hbyte
    have hpos : 1 + (pos : ℤ) = (pos + 1 : ℕ) := by
      push_cast
      ring
    simp only [structPairs, countStores, List.map_cons, List.cons_append, copyPairs, hcopy,
      ih (pos + 1) hnext, hpos]

/-- A value is stored one byte behind the place it is copied from. -/
lemma exists_of_mem_copyStores {c : LogContext} {ps : List (Option LogContextPropertyValuePair)}
    {w : Write UInt8} (h : w ∈ (copyPairs c ps).2.1) :
    ∃ q, some q ∈ ps ∧ w.offset = 1 + q.value := by
  obtain ⟨i, hi⟩ := List.mem_iff_getElem?.mp h
  obtain ⟨q, bytes, hq, -, rfl⟩ := copy_of_getElem?_writes hi
  exact ⟨q, List.mem_of_getElem? hq, rfl⟩

/-- What is inherited from a context: its structs with their field counts, and behind them other
pairs and values. -/
structure Inherits (parent : LogContextHandle) (ss : List (CString × UInt8)) (leaves : ℕ)
    (inherited : List LogContextPropertyValuePair) (stores : List (Write UInt8)) : Prop where
  count_eq  : logContextGetPropertyValuePairCount parent = ss.length + leaves
  pairs_eq  : (internalLogContextInitFromParent parent).1 = structPairs 1 ss ++ inherited
  stores_eq : (internalLogContextInitFromParent parent).2.1 = countStores 1 ss ++ stores
  pairs     : ∀ p ∈ inherited, p.type.getType ≠ .struct ∧ (ss.length + 1 : ℤ) ≤ p.value
  stores    : ∀ w ∈ stores, (ss.length + 1 : ℤ) ≤ w.offset

lemma inherits_none : Inherits none [] 0 [] [] where
  count_eq  := rfl
  pairs_eq  := rfl
  stores_eq := rfl
  pairs     := by simp
  stores    := by simp

lemma Counts.inherits {c : LogContext} {ss : List (CString × UInt8)}
    {others : List (Option LogContextPropertyValuePair)} (h : Counts c ss others) :
    Inherits (some c) ss others.length (copyPairs c others).1 (copyPairs c others).2.1 := by
  have hcopied : internalLogContextInitFromParent (some c) =
      copyPairs c ((structPairs 0 ss).map some ++ others) := by
    rw [internalLogContextInitFromParent, LogContext.countedPairs_eq ?_, h.pairs_eq]
    rw [h.pairs_eq, h.count_eq, List.length_append, List.length_map, length_structPairs]
  have hbytes : ss.map Prod.snd <+: c.valuesData.drop 0 := h.bytes
  rw [copyPairs_structPairs c ss 0 others hbytes] at hcopied
  refine ⟨h.count_eq, congrArg Prod.fst hcopied, congrArg (·.2.1) hcopied, fun p hp => ?_,
    fun w hw => ?_⟩
  · obtain ⟨q, hq, rfl⟩ := exists_of_mem_copyPairs hp
    obtain ⟨htype, hvalue⟩ := h.behind q hq
    exact ⟨htype, by simp only; omega⟩
  · obtain ⟨q, hq, hoffset⟩ := exists_of_mem_copyStores hw
    have := (h.behind q hq).2
    omega

/-! ### A child context -/

lemma writesFrom_offset {pos : ℤ} {ps : List Property} {w : Write UInt8}
    (h : w ∈ writesFrom pos ps) : ∃ p ∈ pairsFrom pos ps, w.offset = p.value := by
  induction ps generalizing pos with
  | nil => cases h
  | cons p ps ih =>
    rcases List.mem_cons.mp h with rfl | hmem
    · exact ⟨_, List.mem_cons_self, rfl⟩
    · obtain ⟨q, hq, hoffset⟩ := ih hmem
      exact ⟨q, List.mem_cons_of_mem _ hq, hoffset⟩

section

variable [Platform]

variable {parent : LogContextHandle} {fields : List FieldDesc} {ss : List (CString × UInt8)}
  {leaves : ℕ} {inherited : List LogContextPropertyValuePair} {stores : List (Write UInt8)}

/-- The pairs of a child: the structs, the other inherited pairs, the places of those that were not
filled in, and the new pairs. -/
lemma Inherits.setupPairs_eq (h : Inherits parent ss leaves inherited stores) :
    setupPairs parent fields =
      (structPairs 0 ((contextName fields, u8 (fieldCount parent fields)) :: ss)).map some ++
        (inherited.map some ++ List.replicate (leaves - inherited.length) none ++
          (setup parent fields).pairs.map some) := by
  have hmissing : ss.length + leaves - (ss.length + inherited.length) =
      leaves - inherited.length := Nat.add_sub_add_left _ _ _
  simp only [setupPairs, setup_firstName, h.pairs_eq, h.count_eq, List.length_append,
    length_structPairs, hmissing, structPairs, List.map_cons, List.map_append, List.cons_append,
    List.append_assoc, Nat.cast_zero]

/-- The stores in a child: the inherited field counts, the other inherited values, the field count,
and the new values. -/
lemma Inherits.setup_writes_eq (h : Inherits parent ss leaves inherited stores) :
    (setup parent fields).writes = countStores 1 ss ++ stores ++
      ⟨0, [u8 (fieldCount parent fields)]⟩ ::
        writesFrom (startPos parent) (properties fields) := by
  simp only [setup_writes, h.stores_eq, fieldCount, Nat.cast_add, Nat.cast_ite, Nat.cast_one,
    Nat.cast_zero]

/-- The field counts in a child are its own and those of its parent. -/
lemma Inherits.counts (h : Inherits parent ss leaves inherited stores) {block : List UInt8}
    (hcount : logContextGetPropertyValuePairCount parent + 1 + propertyCount fields < 2 ^ 32)
    (hroom : ss.length + 1 ≤ block.length)
    (hvalues : ∀ p ∈ (setup parent fields).pairs, (ss.length + 1 : ℤ) ≤ p.value)
    {c : LogContext} (hc : (filled block parent fields).context = some c) :
    ∃ others, others.length = leaves + propertyCount fields ∧
      Counts c ((contextName fields, u8 (fieldCount parent fields)) :: ss) others := by
  obtain rfl := Option.some.inj hc
  rw [setup_pairs] at hvalues
  have hlength := Statements.length_setupPairs parent fields
  have hothers := hlength
  rw [h.setupPairs_eq, List.length_append, List.length_map, length_structPairs] at hothers
  rw [h.count_eq, List.length_cons] at hothers
  refine ⟨_, by omega, h.setupPairs_eq, ?_, ?_, fun p hp => ?_⟩
  · have hpairs : pairCount parent fields =
        logContextGetPropertyValuePairCount parent + 1 + propertyCount fields := by
      exact_mod_cast u32_natCast hcount
    rw [show (LogContext.propertyValuePairCount _) = pairCount parent fields from rfl, hpairs,
      h.count_eq, List.length_cons]
    omega
  · -- the count bytes lie before every other value
    simp only [h.setup_writes_eq]
    refine bytes_prefix hroom h.stores fun w hw => ?_
    obtain ⟨p, hp, hoffset⟩ := writesFrom_offset hw
    rw [hoffset]
    exact hvalues p hp
  · -- each other pair has a value behind the count bytes
    rw [List.length_cons, Nat.cast_add, Nat.cast_one]
    rcases List.mem_append.mp hp with hp | hp
    · rcases List.mem_append.mp hp with hp | hp
      · obtain ⟨q, hq, heq⟩ := List.mem_map.mp hp
        obtain rfl := Option.some.inj heq
        exact h.pairs q hq
      · -- a place that was not filled in holds no pair
        cases (List.mem_replicate.mp hp).2
    · obtain ⟨q, hq, heq⟩ := List.mem_map.mp hp
      obtain rfl := Option.some.inj heq
      rw [setup_pairs] at hq
      exact ⟨pairsFrom_type_ne_struct hq, hvalues q hq⟩

/-! ### Pairs that are not filled in -/

omit [Platform] in
/-- Every pair of the parent was filled in, with a value that lies in its block, and copying the value
succeeds, except perhaps for the last. -/
def PairsCopied (parent : LogContextHandle) : Prop :=
  ∀ c, parent = some c → ∀ i < c.propertyValuePairCount, ∃ p,
    c.propertyValuePairs[i]? = some (some p) ∧ (c.copy p).isSome ∧
      (i + 1 < c.propertyValuePairCount → (c.copy p).join.isSome)

omit [Platform] in
lemma length_copyPairs_eq_iff (c : LogContext) (ps : List (Option LogContextPropertyValuePair)) :
    ((copyPairs c ps).1.length = ps.length ∧ (copyPairs c ps).2.2.isSome) ↔
      ∀ i < ps.length, ∃ p, ps[i]? = some (some p) ∧ (c.copy p).isSome ∧
        (i + 1 < ps.length → (c.copy p).join.isSome) := by
  induction ps with
  | nil => simp [copyPairs]
  | cons q ps ih =>
    rw [List.length_cons, Nat.forall_lt_succ_left]
    simp only [List.getElem?_cons_zero, List.getElem?_cons_succ, Nat.succ_lt_succ_iff, Nat.zero_add,
      Nat.lt_add_left_iff_pos]
    cases q with
    | none => simp [copyPairs]
    | some q =>
      rw [copyPairs]
      cases hcopy : c.copy q with
      | none => simp [hcopy]
      | some copied =>
        cases copied with
        | none =>
          -- a copy that fails ends the loop, so that nothing may follow it
          cases ps with
          | nil => simp [hcopy]
          | cons q' ps => simp [hcopy]
        | some bytes =>
          rw [← ih]
          simp [hcopy]

omit [Platform] in
/-- All pairs of a parent are filled in again exactly if all but the last can be copied. -/
lemma length_initFromParent_eq_iff (parent : LogContextHandle) :
    ((internalLogContextInitFromParent parent).1.length =
      logContextGetPropertyValuePairCount parent ∧ Statements.Defined parent) ↔
        PairsCopied parent := by
  cases parent with
  | none => exact iff_of_true ⟨rfl, rfl⟩ fun c hc => nomatch hc
  | some c =>
    have hiff := length_copyPairs_eq_iff c c.countedPairs
    rw [c.length_countedPairs] at hiff
    simp only [PairsCopied, Option.some.injEq, forall_eq']
    refine hiff.trans (forall₂_congr fun i hi => exists_congr fun p => and_congr_left fun _ => ?_)
    exact c.countedPairs_eq_some_iff hi

/-- All pairs of a child are filled in exactly if all but the last of the parent's can be copied. -/
lemma Inherits.none_notMem_iff (h : Inherits parent ss leaves inherited stores) :
    (none ∉ setupPairs parent fields ∧ Statements.Defined parent) ↔ PairsCopied parent := by
  have hle := Statements.length_initFromParent_le parent
  rw [← length_initFromParent_eq_iff, h.setupPairs_eq]
  refine and_congr_left fun _ => ?_
  rw [h.pairs_eq, h.count_eq, List.length_append, length_structPairs] at hle ⊢
  simp only [List.mem_append, List.mem_map, reduceCtorEq, and_false, exists_false, or_false,
    false_or, List.mem_replicate, and_true, not_not]
  omega

/-! ### Chains -/

/-- The structs of the context at the end of a chain, with their field counts. -/
def structs : List Level → List (CString × UInt8)
  | []      => []
  | l :: ls =>
    if l.kind.Accepts (build ls) l.fields then
      (contextName l.fields, u8 (fieldCount (build ls) l.fields)) :: structs ls
    else []

/-- The number of its other pairs. -/
def leafCount : List Level → ℕ
  | []      => 0
  | l :: ls =>
    if l.kind.Accepts (build ls) l.fields then leafCount ls + propertyCount l.fields else 0

/-- Behind the other contexts of a chain, one more has room for its pairs and for all field counts,
and no value has its place over these. -/
structure Level.KeepsCounts (l : Level) (ls : List Level) : Prop where
  pairs  : logContextGetPropertyValuePairCount (build ls) + 1 + propertyCount l.fields < 2 ^ 32
  room   : (structs ls).length + 1 ≤ dataLength (build ls) l.fields
  values : ∀ p ∈ (setup (build ls) l.fields).pairs, ((structs ls).length + 1 : ℤ) ≤ p.value

/-- Every context that something is inherited from, and the last one, keep the field counts. -/
def KeepsCounts : List Level → Prop
  | []      => True
  | l :: ls => l.kind.Accepts (build ls) l.fields → l.KeepsCounts ls ∧ KeepsCounts ls

lemma inherits_build {chain : List Level} (h : KeepsCounts chain) :
    ∃ inherited stores, Inherits (build chain) (structs chain) (leafCount chain) inherited stores := by
  induction chain with
  | nil => exact ⟨[], [], inherits_none⟩
  | cons l ls ih =>
    rw [build, structs, leafCount, Level.define]
    by_cases haccepts : l.kind.Accepts (build ls) l.fields
    · obtain ⟨hl, hls⟩ := h haccepts
      obtain ⟨inherited, stores, hparent⟩ := ih hls
      obtain ⟨others, hlength, hcounts⟩ := hparent.counts hl.pairs
        (hl.room.trans (dataLength_le_block haccepts)) hl.values rfl
      rw [if_pos haccepts, if_pos haccepts, run_of_accepts haccepts, ← hlength]
      exact ⟨_, _, hcounts.inherits⟩
    · rw [if_neg haccepts, if_neg haccepts, run_of_not_accepts haccepts]
      cases l.kind with
      | create malloc => exact ⟨[], [], inherits_none⟩
      | localDefine garbage =>
        have hempty : Counts ⟨uninitialised garbage LOG_MAX_STACK_DATA_SIZE, 0, [], 0⟩ [] [] :=
          ⟨rfl, rfl, List.nil_prefix, by simp⟩
        exact ⟨_, _, hempty.inherits⟩

lemma counts_stored {l : Level} {ls : List Level} (h : KeepsCounts (l :: ls)) {c : LogContext}
    (hc : (l.define (build ls)).Stores c) : ∃ others, others.length = leafCount (l :: ls) ∧
      Counts c (structs (l :: ls)) others ∧
        (none ∉ others ∧ (l.define (build ls)).defined = true ↔ PairsCopied (build ls)) := by
  have haccepts := (stores_iff_accepts l (build ls)).mp ⟨c, hc⟩
  have hfilled := hc.1
  rw [Level.define, run_of_accepts haccepts] at hfilled
  obtain ⟨hl, hls⟩ := h haccepts
  obtain ⟨inherited, stores, hparent⟩ := inherits_build hls
  obtain ⟨others, hlength, hcounts⟩ := hparent.counts hl.pairs
    (hl.room.trans (dataLength_le_block haccepts)) hl.values hfilled
  rw [structs, leafCount, if_pos haccepts, if_pos haccepts]
  refine ⟨others, hlength, hcounts, ?_⟩
  have hpairs : c.propertyValuePairs = setupPairs (build ls) l.fields := by
    obtain rfl := Option.some.inj hfilled
    rfl
  have hdefined : (l.define (build ls)).defined = true ↔ Statements.Defined (build ls) := by
    rw [Level.define, run_of_accepts haccepts]
    exact Iff.rfl
  have hcopied : (none ∉ setupPairs (build ls) l.fields ∧ Statements.Defined (build ls)) ↔
      PairsCopied (build ls) := hparent.none_notMem_iff
  rw [← hpairs, hcounts.pairs_eq] at hcopied
  rw [hdefined, ← hcopied]
  simp

/-! ### Where formatting succeeds -/

omit [Platform] in
lemma le_of_mem_pairsFrom {pos : ℤ} {ps : List Property} (hps : ∀ p ∈ ps, p.Formatted)
    {q : LogContextPropertyValuePair} (h : q ∈ pairsFrom pos ps) : pos ≤ q.value := by
  induction ps generalizing pos with
  | nil => cases h
  | cons p ps ih =>
    rcases List.mem_cons.mp h with rfl | hmem
    · exact le_refl pos
    · have hp := hps p List.mem_cons_self
      have hle := ih (fun p' hp' => hps p' (List.mem_cons_of_mem _ hp')) hmem
      have hnonneg : 0 ≤ p.advance := by
        rw [hp.advance_eq, ← hp.size_eq]
        exact Int.natCast_nonneg _
      omega

/-- If all formatting succeeds, the field counts are kept. -/
lemma keepsCounts_of_formats {chain : List Level} (h : Formats chain) : KeepsCounts chain := by
  induction chain with
  | nil => trivial
  | cons l ls ih =>
    obtain ⟨hf, htotal, hls⟩ := h
    have hparent := represents_build hls
    have hkeeps := ih hls
    obtain ⟨inherited, stores, hinherits⟩ := inherits_build hkeeps
    have hcount := hinherits.count_eq
    have hlength := length_le_totalSize hparent.wellFormed
    rw [← hparent.length_eq, ← hparent.count_eq] at hlength
    refine fun _ => ⟨⟨?_, ?_, fun p hp => ?_⟩, hkeeps⟩
    · rw [← pairCount_eq hparent hf htotal]
      exact u32_lt _
    · have hle := length_childEntries_le hparent hf
      rw [length_childEntries hparent] at hle
      rw [dataLength_eq hparent hf htotal]
      omega
    · -- the values of the properties begin behind what the parent takes
      rw [setup_pairs, natCast_startPos_eq hf htotal] at hp
      have := le_of_mem_pairsFrom (formatted_properties hf) hp
      omega

omit [Platform] in
lemma HandleRepresents.pairsCopied {parent : LogContextHandle} {es : List Entry}
    (h : HandleRepresents parent es) : PairsCopied parent := by
  rintro c rfl i hi
  have hc : Represents c es := h
  rw [hc.count_eq] at hi
  have hvalue := hc.copy_pair (List.getElem_mem hi)
  refine ⟨es[i].pair, ?_, Option.isSome_of_eq_some hvalue, fun _ => ?_⟩
  · rw [hc.pairs_eq, List.getElem?_map, List.getElem?_eq_getElem hi, Option.map_some]
  · rw [hvalue]
    rfl

end

end CLogging
