import CLogging.Context.Tree
import CLogging.ToString.Properties

/-!
# Printing complete trees

If the pairs of a context are complete trees, printing them stays inside the array.
-/

namespace CLogging

open C Printf Forest

/-- What a reader sees of a pair. -/
def PropertyView.token (p : PropertyView) : Token CString Leaf :=
  if p.type.getType = .struct then .node p.name p.fieldCount
  else .leaf ⟨p.name, p.type, (p.type.copy p.memory).getD []⟩

lemma PropertyView.token_eq_node {p : PropertyView} {name : CString} {n : ℕ}
    (h : p.token = .node name n) : p.type.getType = .struct ∧ p.fieldCount = n := by
  rw [token] at h
  split_ifs at h with hstruct
  exact ⟨hstruct, (Token.node.inj h).2⟩

lemma PropertyView.token_eq_leaf {p : PropertyView} {l : Leaf} (h : p.token = .leaf l) :
    p.type.getType ≠ .struct := by
  rw [token] at h
  split_ifs at h with hstruct
  exact hstruct

/-- A pair of a context, as a reader uses it. -/
def LogContext.view (c : LogContext) (p : LogContextPropertyValuePair) : PropertyView :=
  ⟨p.name, p.type, c.deref p.value⟩

lemma filterMap_takeWhile_map_some {α β : Type} (f : α → β) (xs : List α) (ys : List (Option α)) :
    ((xs.map some ++ ys).takeWhile Option.isSome).filterMap (Option.map f) =
      xs.map f ++ (ys.takeWhile Option.isSome).filterMap (Option.map f) := by
  rw [List.takeWhile_append_of_pos (by simp), List.filterMap_append]
  simp

lemma exists_of_mapM_eq_some {α β : Type} {f : α → β} {xs : List (Option α)} {ys : List β}
    (h : xs.mapM (Option.map f) = some ys) : ∃ zs : List α, xs = zs.map some ∧ zs.map f = ys := by
  induction xs generalizing ys with
  | nil => exact ⟨[], rfl, by simpa using h⟩
  | cons x xs ih =>
    rw [List.mapM_cons] at h
    obtain ⟨y, hy, hrest⟩ := Option.bind_eq_some_iff.mp h
    obtain ⟨ys', hys', heq⟩ := Option.bind_eq_some_iff.mp hrest
    obtain ⟨z, rfl, rfl⟩ := Option.map_eq_some_iff.mp hy
    obtain ⟨zs, rfl, rfl⟩ := ih hys'
    exact ⟨z :: zs, rfl, Option.some.inj heq⟩

/-- The loop, started with some trees in front of it that it is meant to print, makes calls for
them and stops behind them. -/
def ScriptsTrees (ts : List (RoseTree CString Leaf)) : Prop :=
  ∀ (views rest : List PropertyView) (count depth index i added : ℕ),
    views.map PropertyView.token = encodeForest ts →
    (depth = 0 → count = i + (encodeForest ts).length) →
    (depth > 0 → count = added + ts.length) →
      ∃ calls, printScript count depth (views ++ rest) index i added =
        some (calls, i + (encodeForest ts).length)

lemma scriptsTrees_nil : ScriptsTrees [] := by
  intro views rest count depth index i added hviews hflat hnested
  rw [encodeForest_nil, List.length_nil, Nat.add_zero] at hflat ⊢
  rw [List.length_nil, Nat.add_zero] at hnested
  rw [printScript.eq_def, if_neg (not_guard_of_eq hflat hnested)]
  exact ⟨[], rfl⟩

lemma scriptsTrees_leaf {l : Leaf} {ts : List (RoseTree CString Leaf)} (ih : ScriptsTrees ts) :
    ScriptsTrees (.leaf l :: ts) := by
  intro views rest count depth index i added hviews hflat hnested
  have hguard := guard_of_cons hflat hnested
  obtain ⟨hflat, hnested⟩ := count_of_cons hflat hnested (length_encode_leaf l)
  rw [encodeForest_cons, encode_leaf, List.singleton_append] at hviews
  obtain ⟨v, views, rfl, hv, hviews⟩ := List.map_eq_cons_iff.mp hviews
  obtain ⟨calls, hcalls⟩ := ih views rest count depth (index + 1) (i + 1) (added + 1) hviews hflat
    hnested
  rw [List.cons_append, printScript, if_pos hguard, encodeForest_cons, List.length_append,
    length_encode_leaf, ← Nat.add_assoc]
  simp only [if_neg (PropertyView.token_eq_leaf hv), hcalls, Option.map_some]
  exact ⟨_, rfl⟩

lemma scriptsTrees_node {name : CString} {cs ts : List (RoseTree CString Leaf)}
    (ihc : ScriptsTrees cs) (ih : ScriptsTrees ts) : ScriptsTrees (.node name cs :: ts) := by
  intro views rest count depth index i added hviews hflat hnested
  have hguard := guard_of_cons hflat hnested
  obtain ⟨hflat, hnested⟩ := count_of_cons hflat hnested (length_encode_node name cs)
  rw [encodeForest_cons, encode_node, List.cons_append] at hviews
  obtain ⟨v, views, rfl, hv, hviews⟩ := List.map_eq_cons_iff.mp hviews
  obtain ⟨hstruct, hfields⟩ := PropertyView.token_eq_node hv
  obtain ⟨inside, behind, rfl, hinside, hbehind⟩ := List.map_eq_append_iff.mp hviews
  have hlength : inside.length = (encodeForest cs).length := by
    rw [← hinside, List.length_map]
  obtain ⟨inner, hinner⟩ := ihc inside (behind ++ rest) v.fieldCount (depth + 1) (index + 1) 0 0
    hinside (fun h => absurd h (Nat.succ_ne_zero _)) (fun _ => by rw [hfields, Nat.zero_add])
  have hnext : i + (encodeForest cs).length + 1 = i + (1 + (encodeForest cs).length) := by ring
  obtain ⟨after, hafter⟩ := ih behind rest count depth (index + 1 + (encodeForest cs).length)
    (i + (encodeForest cs).length + 1) (added + 1) hbehind (by rwa [hnext]) hnested
  rw [Nat.zero_add, ← hlength] at hinner
  rw [encodeForest_cons, List.length_append, length_encode_node, ← Nat.add_assoc, ← hnext, ← hlength]
  rw [← hlength] at hafter
  rw [List.cons_append, printScript, if_pos hguard]
  simp only [if_pos hstruct, List.append_assoc, hinner, List.drop_left, hafter, Option.map_some]
  exact ⟨_, rfl⟩

/-- The loop makes calls for the trees that it is meant to print. -/
lemma printScript_of_encodeForest : ∀ ts : List (RoseTree CString Leaf), ScriptsTrees ts
  | []               => scriptsTrees_nil
  | .leaf _ :: ts    => scriptsTrees_leaf (printScript_of_encodeForest ts)
  | .node _ cs :: ts =>
    scriptsTrees_node (printScript_of_encodeForest cs) (printScript_of_encodeForest ts)

/-- What the calls inside a struct print are the trees that its field count announces, and there is
a call for each of their pairs. -/
lemma exists_trees_of_printScript (count depth : ℕ) (pairs : List PropertyView)
    (index i added : ℕ) : ∀ {calls : List PrintCall} {n : ℕ}, 0 < depth → added ≤ count →
    printScript count depth pairs index i added = some (calls, n) →
      ∃ (ts : List (RoseTree CString Leaf)) (inside behind : List PropertyView),
        pairs = inside ++ behind ∧ inside.map PropertyView.token = encodeForest ts ∧
          added + ts.length = count ∧ n = i + inside.length ∧
          ∀ j, j ∈ calls.map PrintCall.index ↔ index ≤ j ∧ j < index + inside.length := by
  induction count, depth, pairs, index, i, added using printScript.induct with
  | case1 count depth index i added hguard =>
    intro calls n hdepth hle h
    rw [printScript, if_pos hguard] at h
    cases h
  | case2 count depth index i added hguard p rest hstruct hinner ihc =>
    intro calls n hdepth hle h
    rw [printScript, if_pos hguard] at h
    simp only [if_pos hstruct, hinner] at h
    cases h
  | case3 count depth index i added hguard p rest hstruct inner m hinner ihc ih =>
    intro calls n hdepth hle h
    rw [printScript, if_pos hguard] at h
    simp only [if_pos hstruct, hinner] at h
    obtain ⟨⟨after, n'⟩, hafter, heq⟩ := Option.map_eq_some_iff.mp h
    obtain ⟨rfl, rfl⟩ := Prod.mk.inj heq
    obtain ⟨cs, inside, others, rfl, hcs, hfields, rfl, hcalls⟩ :=
      ihc (Nat.succ_pos depth) (Nat.zero_le _) hinner
    rw [Nat.zero_add] at hfields
    rw [Nat.zero_add, List.drop_left] at ih hafter
    obtain ⟨ts, behind, rest, rfl, hts, hadded, rfl, hcalls'⟩ := ih hdepth (by omega) hafter
    refine ⟨.node p.name cs :: ts, p :: (inside ++ behind), rest, by simp, ?_, ?_, ?_, fun j => ?_⟩
    · -- the struct over its fields, then the trees behind it
      rw [List.map_cons, List.map_append, PropertyView.token, if_pos hstruct, hcs, hts, ← hfields]
      simp
    · rw [List.length_cons]
      omega
    · rw [List.length_cons, List.length_append]
      omega
    · -- every call is about one of these pairs
      simp only [List.map_append, List.map_cons, List.map_nil, List.mem_append, List.mem_cons,
        List.not_mem_nil, or_false, hcalls, hcalls', PropertyView.openCall, PropertyView.closeCall,
        List.length_cons, List.length_append]
      omega
  | case4 count depth index i added hguard p rest hleaf ih =>
    intro calls n hdepth hle h
    rw [printScript, if_pos hguard] at h
    simp only [if_neg hleaf] at h
    obtain ⟨⟨after, n'⟩, hafter, heq⟩ := Option.map_eq_some_iff.mp h
    obtain ⟨rfl, rfl⟩ := Prod.mk.inj heq
    obtain ⟨ts, inside, behind, rfl, hts, hadded, rfl, hcalls⟩ := ih hdepth (by omega) hafter
    refine ⟨.leaf ⟨p.name, p.type, (p.type.copy p.memory).getD []⟩ :: ts, p :: inside, behind, rfl,
      ?_, ?_, ?_, fun j => ?_⟩
    · rw [List.map_cons, PropertyView.token, if_neg hleaf, hts, encodeForest_cons, encode_leaf]
      rfl
    · rw [List.length_cons]
      omega
    · rw [List.length_cons]
      omega
    · simp only [List.map_append, List.map_cons, List.map_nil, List.mem_append, List.mem_cons,
        List.not_mem_nil, or_false, hcalls, PropertyView.nameCall, PropertyView.valueCall,
        List.length_cons]
      omega
  | case5 count depth pairs index i added hguard =>
    intro calls n hdepth hle h
    rw [printScript.eq_def, if_neg hguard] at h
    obtain ⟨rfl, rfl⟩ := Prod.mk.inj (Option.some.inj h)
    refine ⟨[], [], pairs, rfl, by simp, ?_, rfl, by simp⟩
    rw [List.length_nil]
    omega

/-- The pairs of a context that were filled in, as a reader uses them. -/
lemma exists_views_of_tokens {c : LogContext} {toks : List (Token CString Leaf)}
    (h : c.tokens = some toks) :
    ∃ pairs rest, c.views = pairs ++ rest ∧ pairs.map PropertyView.token = toks := by
  obtain ⟨ps, hpairs, hps⟩ := exists_of_mapM_eq_some h
  have hsplit := List.take_append_drop c.propertyValuePairCount c.propertyValuePairs
  have hviews : c.views = ps.map c.view ++
      ((c.propertyValuePairs.drop c.propertyValuePairCount).takeWhile Option.isSome).filterMap
        (Option.map c.view) := by
    rw [← filterMap_takeWhile_map_some, ← hpairs, hsplit]
    rfl
  refine ⟨ps.map c.view, _, hviews, ?_⟩
  rw [List.map_map, ← hps]
  rfl

/-- A context whose pairs are complete trees is printed without leaving its array. -/
lemma contextScript_isSome {c : LogContext} {ts : List (RoseTree CString Leaf)}
    (htokens : c.tokens = some (encodeForest ts))
    (hcount : (encodeForest ts).length = c.propertyValuePairCount) :
    (contextScript c.views c.propertyValuePairCount).isSome := by
  obtain ⟨pairs, rest, hviews, htoken⟩ := exists_views_of_tokens htokens
  obtain ⟨calls, hcalls⟩ := printScript_of_encodeForest ts pairs rest c.propertyValuePairCount 0
    0 0 0 htoken (fun _ => by rw [hcount, Nat.zero_add])
    (fun h => absurd h (Nat.lt_irrefl 0))
  rw [contextScript, hviews, hcalls]
  rfl

end CLogging
