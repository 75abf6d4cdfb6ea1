import CLogging.Lib.Forest

/-!
# Trees between brackets

Trees written as a list of words: a leaf is one word, and the trees below a node stand between an
opening and a closing word. They are read back with a stack of the nodes that are open.
-/

namespace Forest

variable {σ ℓ σ' ℓ' : Type*}

/-! ### Other labels -/

/-- The same entry with other labels, of nodes as well. -/
def Token.relabel (f : σ → σ') (g : ℓ → ℓ') : Token σ ℓ → Token σ' ℓ'
  | .leaf l   => .leaf (g l)
  | .node s n => .node (f s) n

/-- The same trees with other labels, of nodes as well. -/
def relabel (f : σ → σ') (g : ℓ → ℓ') : List (RoseTree σ ℓ) → List (RoseTree σ' ℓ')
  | []               => []
  | .leaf l :: ts    => .leaf (g l) :: relabel f g ts
  | .node s cs :: ts => .node (f s) (relabel f g cs) :: relabel f g ts

lemma length_relabel (f : σ → σ') (g : ℓ → ℓ') :
    ∀ ts : List (RoseTree σ ℓ), (relabel f g ts).length = ts.length
  | []               => by simp [relabel]
  | .leaf l :: ts    => by simp [relabel, length_relabel f g ts]
  | .node s cs :: ts => by simp [relabel, length_relabel f g ts]

lemma encodeForest_relabel (f : σ → σ') (g : ℓ → ℓ') :
    ∀ ts : List (RoseTree σ ℓ), encodeForest (relabel f g ts) = (encodeForest ts).map (.relabel f g)
  | []               => by simp [relabel]
  | .leaf l :: ts    => by simp [relabel, Token.relabel, encodeForest_relabel f g ts]
  | .node s cs :: ts => by
    simp [relabel, Token.relabel, length_relabel, encodeForest_relabel f g cs,
      encodeForest_relabel f g ts]

lemma relabel_relabel {σ'' ℓ'' : Type*} (f : σ → σ') (g : ℓ → ℓ') (f' : σ' → σ'') (g' : ℓ' → ℓ'') :
    ∀ ts : List (RoseTree σ ℓ),
      relabel f' g' (relabel f g ts) = relabel (fun s => f' (f s)) (fun l => g' (g l)) ts
  | []               => by simp [relabel]
  | .leaf l :: ts    => by simp [relabel, relabel_relabel f g f' g' ts]
  | .node s cs :: ts => by
    simp [relabel, relabel_relabel f g f' g' cs, relabel_relabel f g f' g' ts]

/-- The labels of the leaves, from left to right. -/
def leaves : List (RoseTree σ ℓ) → List ℓ
  | []               => []
  | .leaf l :: ts    => l :: leaves ts
  | .node _ cs :: ts => leaves cs ++ leaves ts

lemma leaves_relabel (f : σ → σ') (g : ℓ → ℓ') :
    ∀ ts : List (RoseTree σ ℓ), leaves (relabel f g ts) = (leaves ts).map g
  | []               => by simp [relabel, leaves]
  | .leaf l :: ts    => by simp [relabel, leaves, leaves_relabel f g ts]
  | .node s cs :: ts => by
    simp [relabel, leaves, leaves_relabel f g cs, leaves_relabel f g ts]

lemma leaves_map_leaf (ls : List ℓ) : leaves (ls.map (RoseTree.leaf : ℓ → RoseTree σ ℓ)) = ls := by
  induction ls with
  | nil => rw [List.map_nil, leaves]
  | cons l ls ih => rw [List.map_cons, leaves, ih]

lemma mem_leaves_iff {l : ℓ} :
    ∀ ts : List (RoseTree σ ℓ), l ∈ leaves ts ↔ .leaf l ∈ encodeForest ts
  | []               => by simp [leaves]
  | .leaf l' :: ts   => by simp [leaves, mem_leaves_iff ts]
  | .node s cs :: ts => by simp [leaves, mem_leaves_iff cs, mem_leaves_iff ts]

/-! ### Words -/

/-- A leaf, or a word that opens or closes a node. -/
inductive Word (σ ℓ : Type*) where
  | leaf : ℓ → Word σ ℓ
  | opening : σ → Word σ ℓ
  | closing : Word σ ℓ

/-- The trees between brackets. -/
def brackets : List (RoseTree σ ℓ) → List (Word σ ℓ)
  | []               => []
  | .leaf l :: ts    => .leaf l :: brackets ts
  | .node s cs :: ts => .opening s :: (brackets cs ++ .closing :: brackets ts)

lemma brackets_append (us : List (RoseTree σ ℓ)) :
    ∀ ts : List (RoseTree σ ℓ), brackets (ts ++ us) = brackets ts ++ brackets us
  | []               => by simp [brackets]
  | .leaf l :: ts    => by simp [brackets, brackets_append us ts]
  | .node s cs :: ts => by simp [brackets, brackets_append us ts]

/-- Read words, given the nodes that are open, each with the trees in front of it, and the trees that
were read in the innermost one. -/
def readBrackets : List (Word σ ℓ) → List (σ × List (RoseTree σ ℓ)) →
    List (RoseTree σ ℓ) → Option (List (RoseTree σ ℓ))
  | [], [], ts                           => some ts
  | [], _ :: _, _                        => none
  | .leaf l :: ws, stack, ts             => readBrackets ws stack (ts ++ [.leaf l])
  | .opening s :: ws, stack, ts          => readBrackets ws ((s, ts) :: stack) []
  | .closing :: _, [], _                 => none
  | .closing :: ws, (s, us) :: stack, ts => readBrackets ws stack (us ++ [.node s ts])

/-- The trees that some words stand for. -/
def unbracket (ws : List (Word σ ℓ)) : Option (List (RoseTree σ ℓ)) := readBrackets ws [] []

lemma readBrackets_brackets (ws : List (Word σ ℓ)) :
    ∀ (ts : List (RoseTree σ ℓ)) (stack : List (σ × List (RoseTree σ ℓ)))
      (us : List (RoseTree σ ℓ)),
      readBrackets (brackets ts ++ ws) stack us = readBrackets ws stack (us ++ ts)
  | [], stack, us               => by simp [brackets]
  | .leaf l :: ts, stack, us    => by
    rw [brackets, List.cons_append, readBrackets, readBrackets_brackets ws ts, List.append_assoc,
      List.singleton_append]
  | .node s cs :: ts, stack, us => by
    rw [brackets, List.cons_append, readBrackets, List.append_assoc, List.cons_append,
      readBrackets_brackets (.closing :: (brackets ts ++ ws)) cs, List.nil_append, readBrackets,
      readBrackets_brackets ws ts, List.append_assoc, List.singleton_append]

/-- The words in front of those that are still to be read. -/
def openBrackets : List (σ × List (RoseTree σ ℓ)) → List (Word σ ℓ)
  | []              => []
  | (s, us) :: rest => openBrackets rest ++ (brackets us ++ [.opening s])

lemma brackets_of_readBrackets {ws : List (Word σ ℓ)} {stack : List (σ × List (RoseTree σ ℓ))}
    {us ts : List (RoseTree σ ℓ)} (h : readBrackets ws stack us = some ts) :
    brackets ts = openBrackets stack ++ (brackets us ++ ws) := by
  induction ws generalizing stack us with
  | nil =>
    cases stack with
    | nil =>
      rw [readBrackets] at h
      obtain rfl := Option.some.inj h
      simp [openBrackets]
    | cons opened stack =>
      rw [readBrackets] at h
      cases h
  | cons w ws ih =>
    cases w with
    | leaf l =>
      rw [readBrackets] at h
      rw [ih h, brackets_append]
      simp [brackets]
    | opening s =>
      rw [readBrackets] at h
      rw [ih h]
      simp [openBrackets, brackets]
    | closing =>
      cases stack with
      | nil =>
        rw [readBrackets] at h
        cases h
      | cons opened stack =>
        obtain ⟨s, vs⟩ := opened
        rw [readBrackets] at h
        rw [ih h, brackets_append]
        simp [openBrackets, brackets]

/-- The words of some trees are read as these trees, and no other words are. -/
theorem unbracket_eq_some_iff {ws : List (Word σ ℓ)} {ts : List (RoseTree σ ℓ)} :
    unbracket ws = some ts ↔ brackets ts = ws := by
  constructor
  · intro h
    have hbrackets := brackets_of_readBrackets h
    simpa [openBrackets, brackets] using hbrackets
  · rintro rfl
    have hread := readBrackets_brackets [] ts [] []
    rwa [List.append_nil, List.nil_append, readBrackets] at hread

/-! ### Depth -/

/-- By how much a word changes the number of nodes that are open. -/
def Word.depth : Word σ ℓ → ℤ
  | .leaf _    => 0
  | .opening _ => 1
  | .closing   => -1

/-- The number of nodes that are open behind some words. -/
def depth (ws : List (Word σ ℓ)) : ℤ := (ws.map Word.depth).sum

@[simp] lemma depth_nil : depth ([] : List (Word σ ℓ)) = 0 := rfl

@[simp] lemma depth_cons (w : Word σ ℓ) (ws : List (Word σ ℓ)) :
    depth (w :: ws) = w.depth + depth ws := by
  simp [depth]

lemma depth_append (ws ws' : List (Word σ ℓ)) : depth (ws ++ ws') = depth ws + depth ws' := by
  simp [depth]

/-- Whole trees leave no node open. -/
lemma depth_brackets : ∀ ts : List (RoseTree σ ℓ), depth (brackets ts) = 0
  | []               => by simp [brackets]
  | .leaf l :: ts    => by simp [brackets, Word.depth, depth_brackets ts]
  | .node s cs :: ts => by
    simp [brackets, Word.depth, depth_append, depth_brackets cs, depth_brackets ts]

/-- No node is closed that is not open. -/
lemma depth_take_brackets : ∀ (ts : List (RoseTree σ ℓ)) (n : ℕ), 0 ≤ depth ((brackets ts).take n)
  | ts, 0 => by simp
  | [], n + 1 => by simp [brackets]
  | .leaf l :: ts, n + 1 => by
    rw [brackets, List.take_succ_cons, depth_cons, Word.depth, zero_add]
    exact depth_take_brackets ts n
  | .node s cs :: ts, n + 1 => by
    have hcs := depth_take_brackets cs n
    rw [brackets, List.take_succ_cons, depth_cons, Word.depth, List.take_append, depth_append]
    cases hrest : n - (brackets cs).length with
    | zero =>
      rw [List.take_zero, depth_nil]
      omega
    | succ k =>
      have hts := depth_take_brackets ts k
      have hall : (brackets cs).take n = brackets cs := List.take_of_length_le (by omega)
      rw [hall, depth_brackets, List.take_succ_cons, depth_cons, Word.depth]
      omega

/-- If the words of a node are cut off behind its first one, what closes no node that is open cannot
complete them. -/
theorem unbracket_cut_off (s : σ) (cs : List (RoseTree σ ℓ)) {n : ℕ} (hpos : 0 < n)
    (hcut : n < (brackets [.node s cs]).length) {ws : List (Word σ ℓ)} (hws : 0 ≤ depth ws) :
    unbracket ((brackets [.node s cs]).take n ++ ws) = none := by
  obtain ⟨n, rfl⟩ := Nat.exists_eq_add_one_of_ne_zero hpos.ne'
  have hinside := depth_take_brackets cs n
  have htake : (brackets [.node s cs]).take (n + 1) = .opening s :: (brackets cs).take n := by
    simp only [brackets, List.length_cons, List.length_append, List.length_nil] at hcut
    rw [brackets, List.take_succ_cons, List.take_append_of_le_length (by omega)]
  rw [Option.eq_none_iff_forall_ne_some]
  intro ts hread
  have hdepth := depth_brackets ts
  rw [unbracket_eq_some_iff.mp hread, htake, List.cons_append, depth_cons, depth_append,
    Word.depth] at hdepth
  omega

end Forest
