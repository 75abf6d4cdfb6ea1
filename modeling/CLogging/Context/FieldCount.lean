import CLogging.Context.Rejected
import CLogging.Context.CountBytes
import CLogging.ToString.Closing

/-!
# The field count is one byte

The number of fields of a context is added up as an `int`, but stored in one byte. A context with
more than 255 fields announces too few of them, and so does every context that inherits from it:
the brace of its struct is closed before its last property.
-/

namespace CLogging

open C Memory Forest

/-- The brace of the context is closed behind its last property: in the calls that
`log_n_properties` is meant to make, and in every run, whichever calls fail. -/
structure LogContext.ClosesLast (c : LogContext) : Prop where
  calls : ∃ calls, contextScript c.views c.propertyValuePairCount = some calls ∧
    ∀ j < c.propertyValuePairCount, Precedes (·.index = j) (PrintCall.Closes 0) calls
  runs  : ∀ env buffer s, logNProperties env buffer c.views c.propertyValuePairCount 0 = some s →
    ∀ j < c.propertyValuePairCount, Precedes (· = .read j) (PrintEvent.Closes 0) s.log

section

variable {c : LogContext} {p : LogContextPropertyValuePair}
  {ps : List LogContextPropertyValuePair} (hpairs : c.propertyValuePairs = (p :: ps).map some)
  (hcount : c.propertyValuePairCount = ps.length + 1)

include hpairs

lemma views_of_pairs : c.views = c.view p :: ps.map c.view := by
  have hviews := filterMap_takeWhile_map_some c.view (p :: ps) []
  rw [List.append_nil, ← hpairs] at hviews
  exact hviews.trans (List.append_nil _)

include hcount

lemma tokens_of_pairs :
    c.tokens = some ((c.view p).token :: (ps.map c.view).map PropertyView.token) := by
  rw [LogContext.tokens, hpairs, hcount, List.take_of_length_le (by simp), mapM_map_some,
    List.map_cons, List.map_map]
  rfl

/-- The brace of a context is closed behind its last property exactly if its pairs are one tree. -/
lemma closesLast_iff_matches (hstruct : p.type.getType = .struct) :
    c.ClosesLast ↔ c.FieldCountMatches := by
  have htokens := tokens_of_pairs hpairs hcount
  have hviews := views_of_pairs hpairs
  have hview : (c.view p).type.getType = .struct := hstruct
  have hlength : ps.length = (ps.map c.view).length := (List.length_map _).symm
  rw [PropertyView.token, if_pos hview] at htokens
  constructor
  · -- the last list is closed by the last call: the fields are trees
    rintro ⟨⟨calls, hcalls, hlast⟩, -⟩
    rw [hviews, hcount, hlength] at hcalls
    obtain ⟨ts, hts, hfields⟩ := exists_trees_of_closes hview (Nat.succ_pos _) hcalls
      (hlast _ (by rw [hcount, hlength]; exact Nat.lt_succ_self _))
    rw [hfields, hts] at htokens
    refine ⟨_, ts, htokens, ?_⟩
    rw [← hts, List.length_map, hcount, hlength]
  · -- a tree closes behind its last leaf, in the calls made and in every run
    rintro ⟨name, ts, htrees, -⟩
    rw [htokens] at htrees
    obtain ⟨hnode, hts⟩ := List.cons.inj (Option.some.inj htrees)
    have hfields := (Token.node.inj hnode).2
    obtain ⟨cs, hlists, hcs⟩ := exists_lists_of_tokens hts
    refine ⟨?_, fun env buffer s hrun j hj => ?_⟩
    · rw [hviews, hcount, hlength]
      exact closes_behind_calls hview hts hfields
    · rw [hcount, hlength] at hj
      rw [hviews, hcount, hlength] at hrun
      exact closes_behind_reads hview hlists (hfields.trans hcs.symm) hrun hj

end

section

variable [Platform]

/-- What the struct pair of a context is meant for: the field count that is read back is the number
of its fields, and its brace is closed behind the last of them. -/
structure CountsFields (parent : LogContextHandle) (fields : List FieldDesc) (c : LogContext) :
    Prop where
  count_eq : ∃ p, c.propertyValuePairs[0]? = some (some p) ∧ p.type.getType = .struct ∧
    (c.view p).fieldCount = fieldCount parent fields
  closes   : c.ClosesLast

/-- There is no context, or it is stored and has at most 255 fields, and the same holds for its
parent. -/
def CountsFit : List Level → Prop
  | []      => True
  | l :: ls => build (l :: ls) = none ∨
      ((∃ c, (l.define (build ls)).Stores c) ∧ fieldCount (build ls) l.fields ≤ 255 ∧ CountsFit ls)

/-- Whatever a byte is read back from, it is not more than 255. -/
lemma CountsFields.fieldCount_le {parent : LogContextHandle} {fields : List FieldDesc}
    {c : LogContext} (h : CountsFields parent fields c) : fieldCount parent fields ≤ 255 := by
  obtain ⟨p, -, -, hcount⟩ := h.count_eq
  rw [← hcount]
  exact Nat.le_of_lt_succ (UInt8.toNat_lt _)

/-! ### Fields that are not announced -/

omit [Platform] in
/-- What the byte for the field count leaves out. -/
lemma natCast_sub_u8 (n : ℕ) : (n : ℤ) - (u8 n).toNat = 256 * (n / 256 : ℕ) := by
  simp only [u8, UInt8.toNat_ofNat']
  omega

/-- The tokens of the context at the end of a chain, without what is stored at the leaves. -/
def shape (chain : List Level) : List (Token CString Unit) :=
  (structs chain).map (fun s => .node s.1 s.2.toNat) ++ List.replicate (leafCount chain) (.leaf ())

lemma shape_cons {l : Level} {ls : List Level} (h : l.kind.Accepts (build ls) l.fields) :
    shape (l :: ls) = .node (contextName l.fields) (u8 (fieldCount (build ls) l.fields)).toNat ::
      (shape ls ++ List.replicate (propertyCount l.fields) (.leaf ())) := by
  rw [shape, shape, structs, leafCount, if_pos h, if_pos h, List.map_cons, List.cons_append,
    List.append_assoc, List.replicate_append_replicate]

lemma shape_of_not_accepts {l : Level} {ls : List Level}
    (h : ¬ l.kind.Accepts (build ls) l.fields) : shape (l :: ls) = [] := by
  rw [shape, structs, leafCount, if_neg h, if_neg h]
  rfl

omit [Platform] in
lemma replicate_leaf (n : ℕ) : List.replicate n (.leaf ()) =
    encodeForest (List.replicate n (RoseTree.leaf () : RoseTree CString Unit)) := by
  have hleaves := encodeForest_map_leaf (σ := CString) (List.replicate n ())
  rwa [List.map_replicate, List.map_replicate, eq_comm] at hleaves

/-- A context is short of the fields that its own struct does not announce, and of those that its
parent is short of. -/
lemma weight_shape {l : Level} {ls : List Level} (h : l.kind.Accepts (build ls) l.fields) :
    weight (shape (l :: ls)) = 1 + 256 * (fieldCount (build ls) l.fields / 256 : ℕ) +
      (weight (shape ls) - if (build ls).isSome then 1 else 0) := by
  have hbyte := natCast_sub_u8 (fieldCount (build ls) l.fields)
  have hfields : ((fieldCount (build ls) l.fields : ℕ) : ℤ) =
      (if (build ls).isSome then 1 else 0) + propertyCount l.fields := by
    rw [fieldCount]
    push_cast
    rfl
  rw [shape_cons h, weight_cons, weight_append, replicate_leaf, weight_encodeForest,
    List.length_replicate, Token.weight]
  omega

/-- How many trees the pairs of a context are: as many as there are contexts at the end of its
chain, more by what the field counts leave out, and less by one for a child of a rejected
context. -/
lemma exists_missing (chain : List Level) : ∃ missing rejected : ℕ,
    weight (shape chain) = (if (build chain).isSome then 1 else 0) + 256 * missing - rejected ∧
    rejected ≤ 1 ∧ (missing = 0 → rejected = 0 → CountsFit chain) := by
  induction chain with
  | nil => exact ⟨0, 0, rfl, Nat.zero_le _, fun _ _ => trivial⟩
  | cons l ls ih =>
    by_cases haccepts : l.kind.Accepts (build ls) l.fields
    · obtain ⟨missing, rejected, hweight, hle, hfit⟩ := ih
      obtain ⟨c, hc⟩ := (stores_iff_accepts l (build ls)).mpr haccepts
      have hsome : (build (l :: ls)).isSome := by
        rw [build, hc.1]
        rfl
      refine ⟨missing + fieldCount (build ls) l.fields / 256, rejected, ?_, hle, fun hnone hzero => ?_⟩
      · -- 256 fields or more lose a multiple of 256
        rw [if_pos hsome, weight_shape haccepts, hweight]
        push_cast
        ring
      · -- none was lost, so the counts of this context and of the chain fit
        refine Or.inr ⟨⟨c, hc⟩, ?_, hfit (by omega) hzero⟩
        omega
    · -- rejected: the tree of the chain ends here
      rw [shape_of_not_accepts haccepts]
      cases hkind : l.kind with
      | create malloc =>
        have hbuild : build (l :: ls) = none := by
          rw [build, Level.define, run_of_not_accepts haccepts, hkind]
          rfl
        exact ⟨0, 0, by rw [hbuild]; rfl, Nat.zero_le _, fun _ _ => Or.inl hbuild⟩
      | localDefine garbage =>
        have hbuild : (build (l :: ls)).isSome := by
          rw [build, Level.define, run_of_not_accepts haccepts, hkind]
          rfl
        exact ⟨0, 1, by rw [if_pos hbuild]; rfl, le_refl _, fun _ hone => absurd hone Nat.one_ne_zero⟩

/-- The pairs of a context are complete trees only if every field is announced. -/
lemma countsFit_of_weight {chain : List Level}
    (hweight : weight (shape chain) = if (build chain).isSome then 1 else 0) : CountsFit chain := by
  obtain ⟨missing, rejected, hmissing, hle, hfit⟩ := exists_missing chain
  rw [hweight] at hmissing
  exact hfit (by omega) (by omega)

lemma exists_trees {chain : List Level} (hfit : CountsFit chain) :
    ∃ ts : List (RoseTree CString Unit), shape chain = encodeForest ts ∧
      ts.length = if (build chain).isSome then 1 else 0 := by
  induction chain with
  | nil => exact ⟨[], by simp [shape, structs, leafCount], rfl⟩
  | cons l ls ih =>
    by_cases haccepts : l.kind.Accepts (build ls) l.fields
    · obtain ⟨c, hc⟩ := (stores_iff_accepts l (build ls)).mpr haccepts
      have hbuild : build (l :: ls) = some c := hc.1
      rcases hfit with hnone | ⟨-, hcount, hfit⟩
      · cases hbuild.symm.trans hnone
      obtain ⟨ts, hts, hlength⟩ := ih hfit
      refine ⟨[.node (contextName l.fields)
        (ts ++ List.replicate (propertyCount l.fields) (.leaf ()))], ?_, by rw [hbuild]; rfl⟩
      have hbyte : (u8 (fieldCount (build ls) l.fields)).toNat =
          (ts ++ List.replicate (propertyCount l.fields) (RoseTree.leaf ())).length := by
        rw [toNat_u8_natCast (by omega), List.length_append, hlength, List.length_replicate,
          fieldCount]
      rw [shape_cons haccepts, hts, replicate_leaf, ← encodeForest_append, hbyte, ← encode_node]
      simp
    · have hnone : build (l :: ls) = none := by
        rcases hfit with hnone | ⟨hstored, -⟩
        · exact hnone
        · exact absurd ((stores_iff_accepts l (build ls)).mp hstored) haccepts
      exact ⟨[], by rw [shape_of_not_accepts haccepts, encodeForest_nil], by rw [hnone]; rfl⟩

/-! ### Chains -/

variable {l : Level} {ls : List Level} {c : LogContext}

omit [Platform] in
lemma none_notMem_of_length_le {α β : Type} {f : α → β} {xs : List (Option α)}
    (h : xs.length ≤ ((xs.takeWhile Option.isSome).filterMap (Option.map f)).length) :
    none ∉ xs := by
  induction xs with
  | nil => exact List.not_mem_nil
  | cons x xs ih =>
    cases x with
    | none => cases h
    | some x => simpa using ih (Nat.le_of_succ_le_succ h)

omit [Platform] in
lemma exists_map_some {α : Type} {xs : List (Option α)} (h : none ∉ xs) :
    ∃ ys : List α, xs = ys.map some := by
  induction xs with
  | nil => exact ⟨[], rfl⟩
  | cons x xs ih =>
    rw [List.mem_cons, not_or] at h
    obtain ⟨ys, rfl⟩ := ih h.2
    obtain ⟨y, rfl⟩ := Option.ne_none_iff_exists'.mp (Ne.symm h.1)
    exact ⟨y :: ys, rfl⟩

/-- The first pair of a stored context is its struct, with the field count that was stored. -/
lemma struct_of_stores (h : KeepsCounts (l :: ls)) (hc : (l.define (build ls)).Stores c) :
    ∃ tail, c.propertyValuePairs = some ⟨contextName l.fields, 0, struct⟩ :: tail ∧
      c.propertyValuePairCount = tail.length + 1 ∧
      (none ∉ tail ∧ (l.define (build ls)).defined = true ↔ PairsCopied (build ls)) ∧
        (c.view ⟨contextName l.fields, 0, struct⟩).fieldCount =
          (u8 (fieldCount (build ls) l.fields)).toNat := by
  obtain ⟨others, -, hcounts, hcopied⟩ := counts_stored h hc
  have haccepts := (stores_iff_accepts l (build ls)).mp ⟨c, hc⟩
  rw [structs, if_pos haccepts] at hcounts
  refine ⟨_, hcounts.pairs_eq, ?_, ?_, ?_⟩
  · have hlength : (((structPairs (0 + 1) (structs ls)).map some).append others).length =
        (structs ls).length + others.length := by simp
    rw [hcounts.count_eq, hlength, List.length_cons]
    omega
  · rw [← hcopied]
    simp
  · obtain ⟨rest, hrest⟩ := hcounts.bytes
    rw [PropertyView.fieldCount, LogContext.view, LogContext.deref, ← hrest]
    rfl

/-- If all pairs are filled in, they are read as the shape of the chain. -/
lemma arity_of_stores (h : KeepsCounts (l :: ls)) (hc : (l.define (build ls)).Stores c)
    {ps : List LogContextPropertyValuePair} (hpairs : c.propertyValuePairs = ps.map some) :
    (ps.map c.token).map Token.arity = (shape (l :: ls)).map Token.arity := by
  obtain ⟨others, hlength, hcounts, -⟩ := counts_stored h hc
  have hothers : none ∉ others := by
    intro hnone
    have hmem : none ∈ c.propertyValuePairs := by
      rw [hcounts.pairs_eq]
      exact List.mem_append_right _ hnone
    rw [hpairs] at hmem
    obtain ⟨p, -, hp⟩ := List.mem_map.mp hmem
    cases hp
  obtain ⟨others, rfl⟩ := exists_map_some hothers
  rw [hcounts.pairs_eq, ← List.map_append] at hpairs
  obtain rfl := List.map_injective_iff.mpr (Option.some_injective _) hpairs
  rw [List.length_map] at hlength
  rw [hcounts.arity_tokens, shape, hlength, List.map_append, List.map_map, List.map_replicate]
  rfl

/-- A context whose brace is closed behind its last property has no pairs that are not filled in. -/
lemma pairsCopied_of_closesLast (h : KeepsCounts (l :: ls)) (hc : (l.define (build ls)).Stores c)
    (hdefined : (l.define (build ls)).defined = true) (hcloses : c.ClosesLast) :
    PairsCopied (build ls) := by
  obtain ⟨tail, hpairs, hcount, hcopied, -⟩ := struct_of_stores h hc
  obtain ⟨calls, hcalls, hlast⟩ := hcloses.calls
  have hviews : c.views = c.view ⟨contextName l.fields, 0, struct⟩ ::
      (tail.takeWhile Option.isSome).filterMap (Option.map c.view) := by
    rw [LogContext.views, hpairs]
    rfl
  have hlt : tail.length < c.propertyValuePairCount := by
    rw [hcount]
    exact Nat.lt_succ_self _
  rw [hviews] at hcalls
  have hle := le_length_of_closes rfl (Nat.zero_lt_of_lt hlt) hcalls (hlast _ hlt)
  exact hcopied.mp ⟨none_notMem_of_length_le hle, hdefined⟩

/-- A context is defined and its brace is closed behind its last property exactly if no field count
of the chain is cut off and all pairs are filled in. -/
lemma closesLast_iff_countsFit (h : KeepsCounts (l :: ls)) (hc : (l.define (build ls)).Stores c) :
    (l.define (build ls)).defined = true ∧ c.ClosesLast ↔
      CountsFit (l :: ls) ∧ PairsCopied (build ls) := by
  have hcloses : (l.define (build ls)).defined = true ∧ c.ClosesLast → PairsCopied (build ls) :=
    fun h' => pairsCopied_of_closesLast h hc h'.1 h'.2
  rw [← and_iff_right_of_imp hcloses, and_comm, and_congr_left_iff]
  intro hpairsCopied
  obtain ⟨tail, hpairs, hcount, hcopied, -⟩ := struct_of_stores h hc
  obtain ⟨hfilled, hdefined⟩ := hcopied.mpr hpairsCopied
  obtain ⟨tail, rfl⟩ := exists_map_some hfilled
  rw [← List.map_cons] at hpairs
  rw [List.length_map] at hcount
  have harity := arity_of_stores h hc hpairs
  have htokens : c.tokens =
      some ((⟨contextName l.fields, 0, struct⟩ :: tail).map c.token) := by
    rw [tokens_of_pairs hpairs hcount, List.map_map]
    rfl
  have hone : (if (build (l :: ls)).isSome then 1 else 0) = 1 := by
    rw [build, hc.1]
    rfl
  rw [and_iff_right hdefined, closesLast_iff_matches hpairs hcount rfl]
  constructor
  · -- the weight of a tree is 1, so that no count has wrapped
    rintro ⟨name, ts, hts, -⟩
    rw [htokens, Option.some.injEq, ← encode_node] at hts
    have hweight := weight_encodeForest [RoseTree.node name ts]
    rw [encodeForest_cons, encodeForest_nil, List.append_nil, ← hts, weight_congr harity] at hweight
    exact countsFit_of_weight (hweight.trans (by exact_mod_cast hone.symm))
  · -- the counts fit: the pairs have the arity of one tree
    intro hfit
    obtain ⟨us, hus, hlength⟩ := exists_trees hfit
    rw [hus] at harity
    obtain ⟨ts, hts, hsame⟩ := exists_encodeForest_of_arity harity
    obtain ⟨t, rfl⟩ := List.length_eq_one_iff.mp (hsame.trans (hlength.trans hone))
    rw [encodeForest_cons, encodeForest_nil, List.append_nil] at hts
    cases t with
    | leaf leaf =>
      rw [encode_leaf, List.map_cons] at hts
      cases (List.cons.inj hts).1
    | node name cs =>
      rw [encode_node] at hts
      refine ⟨name, cs, htokens.trans (congrArg some hts), ?_⟩
      have hpairs := congrArg List.length hts
      rw [List.length_map, List.length_cons, List.length_cons] at hpairs
      rw [hcount, hpairs]

/-- Every context of a chain is defined: nothing was inherited from a pair that was never filled in or
whose value is not in its block. -/
def DefinedChain : List Level → Prop
  | []      => True
  | l :: ls => (l.define (build ls)).defined = true ∧ DefinedChain ls

/-- Where all formatting succeeds, the contexts are defined. -/
lemma definedChain_of_formats {chain : List Level} (h : Formats chain) : DefinedChain chain := by
  induction chain with
  | nil => trivial
  | cons l ls ih =>
    refine ⟨?_, ih h.2.2⟩
    rw [Level.define]
    by_cases haccepts : l.kind.Accepts (build ls) l.fields
    · have hinherited := (represents_build h.2.2).initFromParent
      rw [run_of_accepts haccepts, filled, hinherited]
      rfl
    · exact (writes_of_not_accepts haccepts).2

end

section

attribute [local instance] posix

lemma zero_notMem_p : 0 ∉ ascii "p" := by decide

/-- The number `p0`, `p1` and so on. -/
def numberField (i : ℕ) : FieldDesc :=
  .logContextProperty .int8 (CString.concat [⟨ascii "p", zero_notMem_p⟩, .unsigned i]) ⟨[5], rfl⟩

/-- A context on the heap with some numbers. -/
def manyNumbers (n : ℕ) : Level :=
  ⟨.create (some fun _ => 0), (List.range n).map numberField⟩

lemma fieldCount_manyNumbers (n : ℕ) : fieldCount none (manyNumbers n).fields = n := by
  simp [fieldCount, propertyCount, manyNumbers, numberField, countProperty, Function.comp_def]

lemma formats_manyNumbers {n : ℕ} (hn : n + 1 < 2 ^ 32) : Formats [manyNumbers n] := by
  refine ⟨fun d hd => ?_, ?_, trivial⟩
  · obtain ⟨i, -, rfl⟩ := List.mem_map.mp hd
    trivial
  · have hbytes : dataBytes (manyNumbers n).fields = n := by
      simp [dataBytes, manyNumbers, numberField, countDataBytes, ScalarType.sizeof,
        Function.comp_def]
    rw [hbytes, build, internalLogContextGetValuesDataLengthOrZero]
    omega

end

end CLogging
