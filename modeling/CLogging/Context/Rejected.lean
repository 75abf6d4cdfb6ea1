import CLogging.ToString.Trees

/-!
# Children of rejected contexts

`LOG_CONTEXT_LOCAL_DEFINE` leaves an empty context when it rejects one. A child counts it as a
field because the pointer to it is not `NULL`, but copies no pairs from it.
-/

namespace CLogging

open C Memory Forest

/-- The context is a struct, and behind it follow exactly as many trees as its field count says. -/
def LogContext.FieldCountMatches (c : LogContext) : Prop :=
  ∃ (name : CString) (ts : List (RoseTree CString Leaf)),
    c.tokens = some (.node name ts.length :: encodeForest ts) ∧
      (encodeForest ts).length + 1 = c.propertyValuePairCount

/-- The context is printed without reading a pair behind the last. -/
def LogContext.PrintsInside (c : LogContext) : Prop :=
  (contextScript c.views c.propertyValuePairCount).isSome

lemma LogContext.FieldCountMatches.printsInside {c : LogContext} (h : c.FieldCountMatches) :
    c.PrintsInside := by
  obtain ⟨name, ts, htokens, hcount⟩ := h
  have htree : .node name ts.length :: encodeForest ts = encodeForest [RoseTree.node name ts] := by
    simp
  rw [htree] at htokens
  refine contextScript_isSome htokens ?_
  rw [← htree, List.length_cons, hcount]

/-- A context that holds nothing. -/
structure LogContext.Empty (c : LogContext) : Prop where
  count_eq  : c.propertyValuePairCount = 0
  length_eq : c.valuesDataLength = 0

/-- Nothing is inherited from such a context. -/
lemma LogContext.Empty.initFromParent {c : LogContext} (h : c.Empty) :
    internalLogContextInitFromParent (some c) = ([], [], some true) := by
  rw [internalLogContextInitFromParent, LogContext.countedPairs, h.count_eq]
  rfl

lemma LogContext.Empty.startPos_eq {c : LogContext} (h : c.Empty) : startPos (some c) = 1 := by
  rw [startPos, internalLogContextGetValuesDataLengthOrZero, h.length_eq]
  rfl

section

variable [Platform]

/-- The byte found where the field count was stored, in a child of an empty context. -/
def fieldCountFound (m : ContextMacro) (parent : LogContextHandle) (fields : List FieldDesc) :
    UInt8 :=
  (applyAll (⟨0, [u8 (1 + propertyCount fields)]⟩ :: writesFrom 1 (properties fields))
    (m.block (dataLength parent fields))).headD 0

/-- The fill pass leaves its reservation and destroys the field count: no byte was reserved for
it, and a zero is read, or a value is stored over it, the last of them with the byte `b`. -/
def FieldCountReplaced (m : ContextMacro) (parent : LogContextHandle) (fields : List FieldDesc)
    (b : UInt8) : Prop :=
  (m.block (dataLength parent fields) = [] ∧ b = 0) ∨
    (m.block (dataLength parent fields) ≠ [] ∧ LastStored (writesFrom 1 (properties fields)) 0 b)

variable {p : LogContext} (hempty : p.Empty) (fields : List FieldDesc)

include hempty

lemma setup_writes_of_empty : (setup (some p) fields).writes =
    ⟨0, [u8 (1 + propertyCount fields)]⟩ :: writesFrom 1 (properties fields) := by
  rw [setup_writes, hempty.initFromParent, hempty.startPos_eq]
  rfl

lemma setupPairs_of_empty : setupPairs (some p) fields =
    ((⟨contextName fields, 0, struct⟩ :: pairsFrom 1 (properties fields)).map some) := by
  simp only [setupPairs, hempty.initFromParent, hempty.startPos_eq,
    logContextGetPropertyValuePairCount, hempty.count_eq, List.map_nil, List.length_nil,
    Nat.sub_zero, List.replicate_zero, List.append_nil, setup_firstName, setup_pairs, Nat.cast_one,
    List.singleton_append, List.map_cons]

/-- The child lists its struct, with the field count that is found, and the new properties. -/
lemma tokens_of_empty {m : ContextMacro} {c : LogContext}
    (hc : (filled (m.block (dataLength (some p) fields)) (some p) fields).context = some c) :
    ∃ ls : List Leaf, ls.length = propertyCount fields ∧
      c.tokens = some ((.node (contextName fields) (fieldCountFound m (some p) fields).toNat ::
        ls.map Token.leaf).take (pairCount (some p) fields)) := by
  obtain rfl := Option.some.inj hc
  set c : LogContext := ⟨applyAll (setup (some p) fields).writes _, dataLength (some p) fields,
    setupPairs (some p) fields, pairCount (some p) fields⟩ with hcdef
  refine ⟨(pairsFrom 1 (properties fields)).map fun q => ⟨q.name, q.type, (c.valueOf q).getD []⟩,
    ?_, ?_⟩
  · rw [List.length_map, length_pairsFrom, propertyCount_eq]
  · -- the count byte is the first token, whatever it holds
    have hfirst : c.token ⟨contextName fields, 0, struct⟩ =
        .node (contextName fields) (fieldCountFound m (some p) fields).toNat := by
      simp only [LogContext.token, LogContext.deref, hcdef, setup_writes_of_empty hempty,
        fieldCountFound, Int.toNat_zero, List.drop_zero]
      rfl
    have hrest : (pairsFrom 1 (properties fields)).map c.token =
        ((pairsFrom 1 (properties fields)).map fun q =>
          ⟨q.name, q.type, (c.valueOf q).getD []⟩).map Token.leaf := by
      rw [List.map_map]
      exact List.map_congr_left fun q hq => if_neg (pairsFrom_type_ne_struct hq)
    rw [LogContext.tokens, show c.propertyValuePairs = setupPairs (some p) fields from rfl,
      setupPairs_of_empty hempty, ← List.map_take, mapM_map_some, List.map_take, List.map_cons,
      hfirst, hrest]

omit hempty in
lemma pairCount_le (parent : LogContextHandle) : pairCount parent fields ≤
    logContextGetPropertyValuePairCount parent + 1 + propertyCount fields := by
  have h := natCast_u32 (logContextGetPropertyValuePairCount parent + 1 + propertyCount fields)
  rw [pairCount]
  omega

/-- The child is well formed exactly if the field count that is found is the number of pairs
behind the struct. -/
lemma fieldCountMatches_of_empty {m : ContextMacro} {c : LogContext}
    (hc : (filled (m.block (dataLength (some p) fields)) (some p) fields).context = some c) :
    c.FieldCountMatches ↔
      (fieldCountFound m (some p) fields).toNat + 1 = pairCount (some p) fields := by
  obtain ⟨ls, hlength, htokens⟩ := tokens_of_empty hempty fields hc
  have hcount : c.propertyValuePairCount = pairCount (some p) fields := by
    obtain rfl := Option.some.inj hc
    rfl
  have hle := pairCount_le fields (some p)
  rw [logContextGetPropertyValuePairCount, hempty.count_eq] at hle
  rw [LogContext.FieldCountMatches, htokens, hcount]
  generalize pairCount (some p) fields = count at hle ⊢
  cases count with
  | zero =>
    -- the pair count has wrapped to 0: no pair, so no tree
    constructor
    · rintro ⟨name, ts, -, h⟩
      cases h
    · intro h
      cases h
  | succ k =>
    have htake : (ls.map Token.leaf).take k =
        encodeForest ((ls.take k).map (RoseTree.leaf : Leaf → RoseTree CString Leaf)) := by
      rw [encodeForest_map_leaf, List.map_take]
    have hk : (ls.take k).length = k := by
      rw [List.length_take]
      omega
    rw [List.take_succ_cons, htake]
    constructor
    · -- a tree: its count is the number of leaves read
      rintro ⟨name, ts, h, -⟩
      obtain ⟨hnode, hforest⟩ := List.cons.inj (Option.some.inj h)
      have hnumber := (Token.node.inj hnode).2
      rw [hnumber, ← encodeForest_injective hforest, List.length_map, hk]
    · -- the count is the number of leaves read: they are its fields
      intro h
      refine ⟨contextName fields, _, congrArg some (congrArg₂ List.cons ?_ rfl), ?_⟩
      · rw [List.length_map, hk, Nat.succ.inj h]
      · rw [encodeForest_map_leaf, List.length_map, hk]

/-- The field count that was stored is one more than the number of pairs behind the struct. -/
lemma toNat_u8_ne_pairCount :
    (u8 (1 + propertyCount fields)).toNat + 1 ≠ pairCount (some p) fields := by
  simp only [pairCount, logContextGetPropertyValuePairCount, hempty.count_eq, u8, u32,
    UInt8.toNat_ofNat']
  omega

omit hempty in
/-- A field count that was replaced is found as it was replaced. -/
lemma FieldCountReplaced.found_eq {m : ContextMacro} {parent : LogContextHandle} {b : UInt8}
    (h : FieldCountReplaced m parent fields b) : fieldCountFound m parent fields = b := by
  rw [fieldCountFound, List.headD_eq_head?_getD, List.head?_eq_getElem?]
  rcases h with ⟨hblock, rfl⟩ | ⟨hblock, hlast⟩
  · rw [List.getElem?_eq_none (by rw [length_applyAll, hblock]; rfl), Option.getD_none]
  · have hlen := List.length_pos_iff.mpr hblock
    rw [applyAll_cons, hlast.getElem? (by rwa [Write.length_apply]), Option.getD_some]

omit hempty in
/-- Unless it was replaced, the field count is found as it was stored. -/
lemma fieldCountFound_of_not_replaced {m : ContextMacro} {parent : LogContextHandle}
    (h : ∀ b, ¬ FieldCountReplaced m parent fields b) :
    fieldCountFound m parent fields = u8 (1 + propertyCount fields) := by
  have hblock : m.block (dataLength parent fields) ≠ [] := fun hnil => h 0 (Or.inl ⟨hnil, rfl⟩)
  have hcovers : ∀ w ∈ writesFrom 1 (properties fields), ¬ w.Covers (0 : ℕ) := by
    intro w hw hc
    obtain ⟨b, hb⟩ := exists_lastStored ⟨w, hw, hc⟩
    exact h b (Or.inr ⟨hblock, hb⟩)
  have hlen := List.length_pos_iff.mpr hblock
  have hfirst : (Write.mk 0 [u8 (1 + propertyCount fields)]).Covers (0 : ℕ) :=
    ⟨le_refl _, Int.zero_lt_one⟩
  rw [fieldCountFound, applyAll_cons, List.headD_eq_head?_getD, List.head?_eq_getElem?,
    applyAll_getElem?_of_not_covers _ _ 0 hcovers,
    Write.apply_getElem?_of_covers _ _ 0 hfirst hlen]
  rfl

omit hempty in
/-- What a child of an empty context looks like: well formed exactly if nothing is stored in it, or
the fill pass destroys the field count and leaves the right number in its place. -/
lemma fieldCountMatches_iff_of_empty (hempty : p.Empty) (l : Level) :
    (∀ c, (l.define (some p)).Stores c → c.FieldCountMatches ∧ c.PrintsInside) ↔
      ¬ l.kind.Accepts (some p) l.fields ∨
        ∃ b, FieldCountReplaced l.kind (some p) l.fields b ∧
          b.toNat + 1 = pairCount (some p) l.fields := by
  by_cases haccepts : l.kind.Accepts (some p) l.fields
  · have hiff : (∀ c, (l.define (some p)).Stores c → c.FieldCountMatches ∧ c.PrintsInside) ↔
        (fieldCountFound l.kind (some p) l.fields).toNat + 1 = pairCount (some p) l.fields := by
      obtain ⟨c, hc⟩ := (stores_iff_accepts l (some p)).mpr haccepts
      have hfilled := hc.1
      rw [Level.define, run_of_accepts haccepts] at hfilled
      rw [← fieldCountMatches_of_empty hempty l.fields hfilled]
      constructor
      · intro h
        exact (h c hc).1
      · intro h c' hc'
        obtain rfl := Option.some.inj (hc.1.symm.trans hc'.1)
        exact ⟨h, h.printsInside⟩
    rw [hiff]
    constructor
    · -- the count byte is the one stored, unless a value replaced it
      intro h
      refine Or.inr ?_
      by_contra hnone
      have hnot : ∀ b, ¬ FieldCountReplaced l.kind (some p) l.fields b := by
        intro b hb
        exact hnone ⟨b, hb, by rwa [hb.found_eq] at h⟩
      rw [fieldCountFound_of_not_replaced l.fields hnot] at h
      exact toNat_u8_ne_pairCount hempty l.fields h
    · -- a value stands over the count byte, with the right number in it
      rintro (h | ⟨b, hb, h⟩)
      · exact absurd haccepts h
      · rwa [hb.found_eq]
  · refine iff_of_true (fun c hc => ?_) (Or.inl haccepts)
    exact absurd ((stores_iff_accepts l (some p)).mp ⟨c, hc⟩) haccepts

omit hempty in
/-- When a child of a rejected context is well formed. -/
theorem fieldCountMatches_iff (garbage : ℕ → UInt8) (grandparent : LogContextHandle)
    (tooLarge : List FieldDesc) (parent : LogContextHandle)
    (hparent : (logContextLocalDefine garbage grandparent tooLarge).context = parent)
    (hrejected : (logContextLocalDefine garbage grandparent tooLarge).Rejected) (l : Level) :
    (∀ c, (l.define parent).Stores c → c.FieldCountMatches ∧ c.PrintsInside) ↔
      ¬ l.kind.Accepts parent l.fields ∨
        ∃ b, FieldCountReplaced l.kind parent l.fields b ∧
          b.toNat + 1 = pairCount parent l.fields := by
  obtain ⟨⟨p, hp, hcount, hlength, -⟩, -⟩ := hrejected
  rw [← hparent, hp]
  exact fieldCountMatches_iff_of_empty ⟨hcount, hlength⟩ l

end

section

attribute [local instance] posix

/-- More data than fits on the stack. -/
def oversizedFields : List FieldDesc :=
  [FieldDesc.logContextPropertyCustomFunction asciiCharPtr (fun h => nomatch h)
    ⟨ascii "big", by decide⟩ ⟨5000, [0], by decide⟩]

lemma rejected_oversizedFields :
    (logContextLocalDefine (fun _ => 0) none oversizedFields).Rejected :=
  rejected_of_not_accepts (l := ⟨.localDefine fun _ => 0, oversizedFields⟩) rfl (by decide)

/-- A value function that fails with -1 moves the next value back over the field count, where it
leaves a three. -/
def overwritingFields : List FieldDesc :=
  [FieldDesc.logContextPropertyCustomFunction int8 (fun h => nomatch h) ⟨ascii "x", zero_notMem_x⟩
      ⟨-1, [], Nat.zero_le _⟩,
    FieldDesc.logContextProperty .int8 ⟨ascii "y", zero_notMem_y⟩ ⟨[3], rfl⟩,
    FieldDesc.logContextProperty .int8 ⟨ascii "z", by decide⟩ ⟨[9], rfl⟩]

/-- Three properties, and a three that was stored last where their number is read. -/
lemma fieldCountReplaced_overwritingFields (parent : LogContextHandle) :
    FieldCountReplaced (.localDefine fun _ => 0) parent overwritingFields 3 := by
  refine Or.inr ⟨?_, [⟨1, []⟩], ⟨0, [3]⟩, [⟨1, [9]⟩], rfl, ?_, ?_, rfl⟩
  · rw [← List.length_pos_iff, ContextMacro.block, length_uninitialised]
    decide
  · exact ⟨le_refl _, Int.zero_lt_one⟩
  · intro w hw hcovers
    obtain rfl := List.mem_singleton.mp hw
    exact absurd hcovers.1 (by decide)

theorem fieldCountMatches_overwritten :
    ∃ c, (Level.define ⟨.localDefine fun _ => 0, overwritingFields⟩
      (logContextLocalDefine (fun _ => 0) none oversizedFields).context).Stores c ∧
        c.FieldCountMatches ∧ c.PrintsInside := by
  obtain ⟨c, hc⟩ := (stores_iff_accepts ⟨.localDefine fun _ => 0, overwritingFields⟩
    (logContextLocalDefine (fun _ => 0) none oversizedFields).context).mpr (by decide)
  refine ⟨c, hc, (fieldCountMatches_iff (fun _ => 0) none oversizedFields _ rfl
    rejected_oversizedFields ⟨.localDefine fun _ => 0, overwritingFields⟩).mpr ?_ c hc⟩
  exact Or.inr ⟨3, fieldCountReplaced_overwritingFields _, by decide⟩

/-- The child announces its rejected parent as a field that is not there. -/
theorem not_fieldCountMatches_numberChild :
    (logContextLocalDefine (fun _ => 0) none oversizedFields).Rejected ∧
      ∃ c, (numberChild.define
        (logContextLocalDefine (fun _ => 0) none oversizedFields).context).Stores c ∧
          ¬ c.FieldCountMatches := by
  refine ⟨rejected_oversizedFields, ?_⟩
  obtain ⟨⟨p, hp, hcount, hlength, -⟩, -⟩ := rejected_oversizedFields
  rw [hp]
  have haccepts : numberChild.kind.Accepts (some p) numberChild.fields := by
    rw [← hp]
    decide
  obtain ⟨c, hc⟩ := (stores_iff_accepts numberChild (some p)).mpr haccepts
  have hfilled := hc.1
  rw [Level.define, run_of_accepts haccepts] at hfilled
  refine ⟨c, hc, fun h => ?_⟩
  have hfound := (fieldCountMatches_of_empty ⟨hcount, hlength⟩ _ hfilled).mp h
  rw [← hp] at hfound
  exact absurd hfound (by decide +kernel)

end

end CLogging
