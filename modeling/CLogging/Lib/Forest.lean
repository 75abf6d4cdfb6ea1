import Mathlib.Data.List.Basic
import Mathlib.Tactic

/-!
# Trees in preorder with child counts

A tree is written as a flat list of tokens, every node before its children and carrying their
number. Reading a node token and then as many trees as it announces recovers the tree, whatever
tokens follow.
-/

namespace Forest

/-- Trees with labels `σ` at the nodes and `ℓ` at the leaves. -/
inductive RoseTree (σ ℓ : Type*) where
  | leaf : ℓ → RoseTree σ ℓ
  | node : σ → List (RoseTree σ ℓ) → RoseTree σ ℓ

/-- One entry of the flat form: a leaf, or a node with the number of its children. -/
inductive Token (σ ℓ : Type*) where
  | leaf : ℓ → Token σ ℓ
  | node : σ → ℕ → Token σ ℓ
  deriving DecidableEq

variable {σ ℓ : Type*}

mutual

/-- The flat form of a tree. -/
def RoseTree.encode : RoseTree σ ℓ → List (Token σ ℓ)
  | .leaf l    => [.leaf l]
  | .node s ts => .node s ts.length :: encodeForest ts

/-- The flat form of a list of trees. -/
def encodeForest : List (RoseTree σ ℓ) → List (Token σ ℓ)
  | []      => []
  | t :: ts => t.encode ++ encodeForest ts

end

@[simp] lemma encode_leaf (l : ℓ) : (RoseTree.leaf l : RoseTree σ ℓ).encode = [.leaf l] := by
  simp [RoseTree.encode]

@[simp] lemma encode_node (s : σ) (ts : List (RoseTree σ ℓ)) :
    (RoseTree.node s ts).encode = .node s ts.length :: encodeForest ts := by
  simp [RoseTree.encode]

@[simp] lemma encodeForest_nil : encodeForest ([] : List (RoseTree σ ℓ)) = [] := by
  simp [encodeForest]

@[simp] lemma encodeForest_cons (t : RoseTree σ ℓ) (ts : List (RoseTree σ ℓ)) :
    encodeForest (t :: ts) = t.encode ++ encodeForest ts := by
  simp [encodeForest]

lemma encodeForest_append (ts us : List (RoseTree σ ℓ)) :
    encodeForest (ts ++ us) = encodeForest ts ++ encodeForest us := by
  induction ts with
  | nil => simp
  | cons t ts ih => simp [ih]

lemma encodeForest_map_leaf (ls : List ℓ) :
    encodeForest (ls.map (RoseTree.leaf : ℓ → RoseTree σ ℓ)) = ls.map Token.leaf := by
  induction ls with
  | nil => simp
  | cons l ls ih => simp [ih]

lemma encode_length_pos (t : RoseTree σ ℓ) : 0 < t.encode.length := by
  cases t <;> simp

lemma length_encode_leaf (l : ℓ) : (RoseTree.leaf l : RoseTree σ ℓ).encode.length = 1 := by
  rw [encode_leaf, List.length_singleton]

lemma length_encode_node (s : σ) (ts : List (RoseTree σ ℓ)) :
    (RoseTree.node s ts).encode.length = 1 + (encodeForest ts).length := by
  rw [encode_node, List.length_cons, Nat.add_comm]

lemma length_le_encodeForest (ts : List (RoseTree σ ℓ)) : ts.length ≤ (encodeForest ts).length := by
  induction ts with
  | nil => simp
  | cons t ts ih =>
    have := encode_length_pos t
    simp only [encodeForest_cons, List.length_append, List.length_cons]
    omega

/-- Read `n` trees off the front of a token list. Every step of the recursion consumes a token,
so `fuel` is enough once it reaches the number of tokens. -/
def decodeWith : ℕ → ℕ → List (Token σ ℓ) → Option (List (RoseTree σ ℓ) × List (Token σ ℓ))
  | _, 0, toks => some ([], toks)
  | 0, _ + 1, _ => none
  | _ + 1, _ + 1, [] => none
  | fuel + 1, n + 1, .leaf l :: toks =>
    match decodeWith fuel n toks with
    | none            => none
    | some (ts, rest) => some (.leaf l :: ts, rest)
  | fuel + 1, n + 1, .node s k :: toks =>
    match decodeWith fuel k toks with
    | none            => none
    | some (cs, rest) =>
      match decodeWith fuel n rest with
      | none              => none
      | some (ts, rest') => some (.node s cs :: ts, rest')

/-- Read `n` trees off the front of a token list. -/
def decode (n : ℕ) (toks : List (Token σ ℓ)) : Option (List (RoseTree σ ℓ) × List (Token σ ℓ)) :=
  decodeWith toks.length n toks

@[simp] lemma decodeWith_zero (fuel : ℕ) (toks : List (Token σ ℓ)) :
    decodeWith fuel 0 toks = some ([], toks) := by
  cases fuel <;> simp [decodeWith]

/-- Reading back a forest that was written, with anything behind it. -/
lemma decodeWith_encodeForest (fuel : ℕ) :
    ∀ (ts : List (RoseTree σ ℓ)) (rest : List (Token σ ℓ)), (encodeForest ts).length ≤ fuel →
      decodeWith fuel ts.length (encodeForest ts ++ rest) = some (ts, rest) := by
  induction fuel with
  | zero =>
    intro ts rest hfuel
    have hnil : ts = [] := by
      have := length_le_encodeForest ts
      exact List.length_eq_zero_iff.mp (by omega)
    subst hnil
    simp
  | succ fuel ih =>
    intro ts rest hfuel
    match ts with
    | [] => simp
    | .leaf l :: ts =>
      simp only [encodeForest_cons, encode_leaf, List.cons_append, List.nil_append,
        List.length_cons] at hfuel ⊢
      rw [decodeWith, ih ts rest (by omega)]
    | .node s cs :: ts =>
      simp only [encodeForest_cons, encode_node, List.cons_append, List.append_assoc,
        List.length_cons, List.length_append] at hfuel ⊢
      rw [decodeWith, ih cs _ (by omega)]
      simp only
      rw [ih ts rest (by omega)]

theorem decode_encodeForest (ts : List (RoseTree σ ℓ)) (rest : List (Token σ ℓ)) :
    decode ts.length (encodeForest ts ++ rest) = some (ts, rest) :=
  decodeWith_encodeForest _ ts rest (by simp)

theorem decode_encode (t : RoseTree σ ℓ) (rest : List (Token σ ℓ)) :
    decode 1 (t.encode ++ rest) = some ([t], rest) := by
  simpa using decode_encodeForest [t] rest

/-- A token list is the flat form of at most one forest. -/
theorem encodeForest_injective :
    Function.Injective (encodeForest : List (RoseTree σ ℓ) → List (Token σ ℓ)) := by
  have key : ∀ (ts us : List (RoseTree σ ℓ)), ts.length ≤ us.length →
      encodeForest ts = encodeForest us → ts = us := by
    intro ts us hle h
    have hts := decode_encodeForest ts []
    have hus := decode_encodeForest (us.take ts.length) (encodeForest (us.drop ts.length))
    rw [← encodeForest_append, List.take_append_drop, ← h, List.length_take,
      Nat.min_eq_left hle] at hus
    rw [List.append_nil, hus, Option.some.injEq, Prod.mk.injEq] at hts
    have hrest : us.drop ts.length = [] := by
      have := length_le_encodeForest (us.drop ts.length)
      rw [hts.2, List.length_nil] at this
      exact List.length_eq_zero_iff.mp (by omega)
    rw [← hts.1, ← List.take_append_drop ts.length us, hrest]
    simp
  intro ts us h
  rcases Nat.le_total ts.length us.length with hle | hle
  · exact key ts us hle h
  · exact (key us ts hle h.symm).symm

/-- Read trees until no token is left. -/
def decodeAllWith : ℕ → List (Token σ ℓ) → Option (List (RoseTree σ ℓ))
  | _, [] => some []
  | 0, _ :: _ => none
  | fuel + 1, tok :: toks =>
    match decode 1 (tok :: toks) with
    | some ([t], rest) => (decodeAllWith fuel rest).map (t :: ·)
    | _                => none

/-- Read trees until no token is left. -/
def decodeAll (toks : List (Token σ ℓ)) : Option (List (RoseTree σ ℓ)) :=
  decodeAllWith toks.length toks

lemma decodeAllWith_encodeForest (ts : List (RoseTree σ ℓ)) {fuel : ℕ}
    (hfuel : (encodeForest ts).length ≤ fuel) :
    decodeAllWith fuel (encodeForest ts) = some ts := by
  induction ts generalizing fuel with
  | nil => simp [decodeAllWith]
  | cons t ts ih =>
    have hpos := encode_length_pos t
    rw [encodeForest_cons, List.length_append] at hfuel
    obtain ⟨fuel, rfl⟩ := Nat.exists_eq_add_one_of_ne_zero (show fuel ≠ 0 by omega)
    have hfirst := decode_encode t (encodeForest ts)
    rw [encodeForest_cons]
    match htoks : t.encode ++ encodeForest ts with
    | [] =>
      rw [(List.append_eq_nil_iff.mp htoks).1] at hpos
      exact absurd hpos (Nat.lt_irrefl 0)
    | tok :: toks =>
      rw [htoks] at hfirst
      rw [decodeAllWith, hfirst]
      simp only
      rw [ih (by omega), Option.map_some]

theorem decodeAll_encodeForest (ts : List (RoseTree σ ℓ)) :
    decodeAll (encodeForest ts) = some ts :=
  decodeAllWith_encodeForest ts (le_refl _)

/-- A node has fewer children than there are tokens. -/
lemma lt_of_node_mem_encodeForest {s : σ} {n : ℕ} (bound : ℕ) :
    ∀ ts : List (RoseTree σ ℓ), (encodeForest ts).length ≤ bound →
      Token.node s n ∈ encodeForest ts → n < (encodeForest ts).length := by
  induction bound with
  | zero =>
    intro ts hbound hmem
    rw [List.length_eq_zero_iff.mp (Nat.le_zero.mp hbound)] at hmem
    cases hmem
  | succ bound ih =>
    intro ts hbound hmem
    match ts with
    | [] =>
      rw [encodeForest_nil] at hmem
      cases hmem
    | .leaf l :: ts =>
      simp only [encodeForest_cons, encode_leaf, List.cons_append, List.nil_append,
        List.length_cons, List.mem_cons, reduceCtorEq, false_or] at hbound hmem ⊢
      exact (ih ts (Nat.le_of_succ_le_succ hbound) hmem).trans (Nat.lt_succ_self _)
    | .node s' cs :: ts =>
      simp only [encodeForest_cons, encode_node, List.cons_append, List.length_cons,
        List.length_append, List.mem_cons, List.mem_append] at hbound hmem ⊢
      rcases hmem with heq | hchild | hrest
      · -- the head of the tree: it has no more children than tokens behind it
        have := length_le_encodeForest cs
        rw [(Token.node.inj heq).2]
        omega
      · have := ih cs (by omega) hchild
        omega
      · have := ih ts (by omega) hrest
        omega

/-! ### Relabelling -/

variable {κ : Type*}

/-- Change the label of a leaf. -/
def Token.map (f : ℓ → κ) : Token σ ℓ → Token σ κ
  | .leaf l   => .leaf (f l)
  | .node s n => .node s n

mutual

/-- Change the labels of the leaves. -/
def RoseTree.map (f : ℓ → κ) : RoseTree σ ℓ → RoseTree σ κ
  | .leaf l    => .leaf (f l)
  | .node s ts => .node s (mapForest f ts)

/-- Change the labels of the leaves. -/
def mapForest (f : ℓ → κ) : List (RoseTree σ ℓ) → List (RoseTree σ κ)
  | []      => []
  | t :: ts => t.map f :: mapForest f ts

end

lemma length_mapForest (f : ℓ → κ) (ts : List (RoseTree σ ℓ)) :
    (mapForest f ts).length = ts.length := by
  induction ts with
  | nil => rw [mapForest]; rfl
  | cons t ts ih => rw [mapForest, List.length_cons, List.length_cons, ih]

mutual

lemma encode_map (f : ℓ → κ) : (t : RoseTree σ ℓ) → (t.map f).encode = t.encode.map (Token.map f)
  | .leaf l    => by simp [RoseTree.map, Token.map]
  | .node s ts => by
    simp [RoseTree.map, Token.map, length_mapForest, encodeForest_map f ts]

/-- Relabelling commutes with writing. -/
lemma encodeForest_map (f : ℓ → κ) :
    (ts : List (RoseTree σ ℓ)) → encodeForest (mapForest f ts) = (encodeForest ts).map (Token.map f)
  | []      => by simp [mapForest]
  | t :: ts => by simp [mapForest, encode_map f t, encodeForest_map f ts]

end

/-! ### Shape -/

/-- The number of children of a node. -/
def Token.arity : Token σ ℓ → Option ℕ
  | .node _ n => some n
  | .leaf _   => none

/-- Whether tokens are complete trees depends only on the number of children of each. -/
lemma exists_encodeForest_of_arity {τ : Type*} :
    ∀ {ts : List (RoseTree σ ℓ)} {toks : List (Token τ κ)},
      toks.map Token.arity = (encodeForest ts).map Token.arity →
        ∃ ts' : List (RoseTree τ κ), toks = encodeForest ts' ∧ ts'.length = ts.length
  | [], toks, h => by
    rw [encodeForest_nil, List.map_nil, List.map_eq_nil_iff] at h
    exact ⟨[], by rw [h, encodeForest_nil], rfl⟩
  | .leaf l :: ts, toks, h => by
    rw [encodeForest_cons, encode_leaf, List.singleton_append, List.map_cons] at h
    obtain ⟨tok, rest, rfl, htok, hrest⟩ := List.map_eq_cons_iff.mp h
    obtain ⟨ts', rfl, hlength⟩ := exists_encodeForest_of_arity hrest
    match tok with
    | .leaf l' =>
      exact ⟨.leaf l' :: ts', by simp, by simp [hlength]⟩
    | .node s' n => cases htok
  | .node s cs :: ts, toks, h => by
    rw [encodeForest_cons, encode_node, List.cons_append, List.map_cons, List.map_append] at h
    obtain ⟨tok, rest, rfl, htok, hrest⟩ := List.map_eq_cons_iff.mp h
    obtain ⟨inside, behind, rfl, hinside, hbehind⟩ := List.map_eq_append_iff.mp hrest
    obtain ⟨cs', rfl, hcs⟩ := exists_encodeForest_of_arity hinside
    obtain ⟨ts', rfl, hts⟩ := exists_encodeForest_of_arity hbehind
    match tok with
    | .leaf l' => cases htok
    | .node s' n =>
      obtain rfl : n = cs.length := Option.some.inj htok
      exact ⟨.node s' cs' :: ts', by simp [hcs], by simp [hts]⟩

/-! ### Missing children -/

/-- By how many trees a token changes the number of complete trees. -/
def Token.weight : Token σ ℓ → ℤ
  | .leaf _   => 1
  | .node _ n => 1 - n

/-- The number of trees that some tokens would be, if they were complete. -/
def weight (toks : List (Token σ ℓ)) : ℤ := (toks.map Token.weight).sum

@[simp] lemma weight_cons (tok : Token σ ℓ) (toks : List (Token σ ℓ)) :
    weight (tok :: toks) = tok.weight + weight toks := by
  simp [weight]

lemma weight_append (toks toks' : List (Token σ ℓ)) :
    weight (toks ++ toks') = weight toks + weight toks' := by
  simp [weight]

lemma Token.weight_eq (tok : Token σ ℓ) : tok.weight = 1 - (tok.arity.getD 0 : ℕ) := by
  cases tok <;> simp [Token.weight, Token.arity]

/-- The weight of tokens depends only on the number of children of each. -/
lemma weight_congr {τ : Type*} {toks : List (Token σ ℓ)} {toks' : List (Token τ κ)}
    (h : toks.map Token.arity = toks'.map Token.arity) : weight toks = weight toks' := by
  induction toks generalizing toks' with
  | nil =>
    obtain rfl := List.map_eq_nil_iff.mp h.symm
    rfl
  | cons tok toks ih =>
    rw [List.map_cons] at h
    obtain ⟨tok', rest, rfl, htok, hrest⟩ := List.map_eq_cons_iff.mp h.symm
    rw [weight_cons, weight_cons, ih hrest.symm, tok.weight_eq, tok'.weight_eq, htok]

/-- Complete trees have the weight of their number. -/
lemma weight_encodeForest : ∀ ts : List (RoseTree σ ℓ), weight (encodeForest ts) = ts.length
  | []               => by simp [weight]
  | .leaf l :: ts    => by
    rw [encodeForest_cons, encode_leaf, List.singleton_append, weight_cons, weight_encodeForest ts,
      Token.weight, List.length_cons]
    push_cast
    ring
  | .node s cs :: ts => by
    rw [encodeForest_cons, encode_node, List.cons_append, weight_cons, weight_append,
      weight_encodeForest cs, weight_encodeForest ts, Token.weight, List.length_cons]
    push_cast
    ring

/-! ### Last leaves -/

/-- The positions, counted from a given one, of the leaves behind which their list ends: the last
of some trees, or the last child of a node. -/
def lastLeaves : ℕ → List (RoseTree σ ℓ) → List ℕ
  | _, []               => []
  | i, .leaf _ :: ts    => (if ts.isEmpty then [i] else []) ++ lastLeaves (i + 1) ts
  | i, .node _ cs :: ts =>
    lastLeaves (i + 1) cs ++ lastLeaves (i + 1 + (encodeForest cs).length) ts

/-- A leaf that ends its list is one of the leaves. -/
lemma mem_lastLeaves_within : ∀ (ts : List (RoseTree σ ℓ)) (i j : ℕ), j ∈ lastLeaves i ts →
    i ≤ j ∧ j < i + (encodeForest ts).length
  | [], i, j, h => by
    rw [lastLeaves] at h
    cases h
  | .leaf l :: ts, i, j, h => by
    rw [lastLeaves, List.mem_append] at h
    rw [encodeForest_cons, encode_leaf, List.length_append, List.length_singleton]
    rcases h with h | h
    · split_ifs at h
      · obtain rfl := List.mem_singleton.mp h
        omega
      · cases h
    · have := mem_lastLeaves_within ts (i + 1) j h
      omega
  | .node s cs :: ts, i, j, h => by
    rw [lastLeaves, List.mem_append] at h
    rw [encodeForest_cons, encode_node, List.length_append, List.length_cons]
    rcases h with h | h
    · have := mem_lastLeaves_within cs (i + 1) j h
      omega
    · have := mem_lastLeaves_within ts (i + 1 + (encodeForest cs).length) j h
      omega

/-- Behind the first tree, the first tree does not matter. -/
lemma mem_lastLeaves_cons {t : RoseTree σ ℓ} {ts : List (RoseTree σ ℓ)} {i j : ℕ}
    (h : i + t.encode.length ≤ j) :
    j ∈ lastLeaves i (t :: ts) ↔ j ∈ lastLeaves (i + t.encode.length) ts := by
  match t with
  | .leaf l =>
    rw [encode_leaf, List.length_singleton] at h ⊢
    rw [lastLeaves, List.mem_append, or_iff_right]
    intro hfirst
    split_ifs at hfirst
    · obtain rfl := List.mem_singleton.mp hfirst
      omega
    · cases hfirst
  | .node s cs =>
    rw [encode_node, List.length_cons, Nat.add_comm _ 1, ← Nat.add_assoc] at h ⊢
    rw [lastLeaves, List.mem_append, or_iff_right]
    intro hfirst
    have := mem_lastLeaves_within cs (i + 1) j hfirst
    omega

/-- Inside a node, what lies behind it does not matter. -/
lemma mem_lastLeaves_node {s : σ} {cs ts : List (RoseTree σ ℓ)} {i j : ℕ}
    (h : j < i + 1 + (encodeForest cs).length) :
    j ∈ lastLeaves i (.node s cs :: ts) ↔ j ∈ lastLeaves (i + 1) cs := by
  rw [lastLeaves, List.mem_append, or_iff_left]
  intro hbehind
  have := mem_lastLeaves_within ts _ j hbehind
  omega

lemma mem_lastLeaves_leaf {l : ℓ} {ts : List (RoseTree σ ℓ)} {i : ℕ} :
    i ∈ lastLeaves i (.leaf l :: ts) ↔ ts = [] := by
  have hbehind : i ∉ lastLeaves (i + 1) ts := fun hmem => by
    have := mem_lastLeaves_within ts (i + 1) i hmem
    omega
  rw [lastLeaves, List.mem_append, or_iff_left hbehind]
  cases ts <;> simp

end Forest
