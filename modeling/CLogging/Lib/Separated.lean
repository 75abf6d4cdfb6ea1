import Mathlib.Algebra.Order.BigOperators.Group.List
import Mathlib.Tactic

/-!
# Lists joined by a separator

What a search for a list in the joined lists can find, when the separators stand alone, and which
lists are collected if those that are found are skipped.
-/

namespace Separated

variable {α : Type*} {sep : α}

lemma intercalate_concat {xs : List (List α)} (h : xs ≠ []) (x : List α) :
    [sep].intercalate (xs ++ [x]) = [sep].intercalate xs ++ sep :: x := by
  induction xs with
  | nil => exact absurd rfl h
  | cons y ys ih =>
    match ys with
    | [] =>
      rw [List.singleton_append, List.intercalate_cons_cons, List.intercalate_singleton,
        List.intercalate_singleton, List.append_assoc, List.singleton_append]
    | z :: zs =>
      rw [List.cons_append, List.cons_append, List.intercalate_cons_cons, ← List.cons_append,
        ih (List.cons_ne_nil z zs), List.intercalate_cons_cons, List.append_assoc,
        List.append_assoc, List.append_assoc]

lemma mem_intercalate {xs : List (List α)} {a : α} (h : a ∈ [sep].intercalate xs) :
    a = sep ∨ ∃ x ∈ xs, a ∈ x := by
  induction xs with
  | nil => exact absurd h List.not_mem_nil
  | cons x xs ih =>
    match xs with
    | [] =>
      rw [List.intercalate_singleton] at h
      exact Or.inr ⟨x, List.mem_singleton_self x, h⟩
    | y :: ys =>
      rw [List.intercalate_cons_cons, List.mem_append, List.mem_append, List.mem_singleton] at h
      rcases h with (hx | hsep) | hrest
      · exact Or.inr ⟨x, List.mem_cons_self, hx⟩
      · exact Or.inl hsep
      · rcases ih hrest with hsep | ⟨z, hz, ha⟩
        · exact Or.inl hsep
        · exact Or.inr ⟨z, List.mem_cons_of_mem x hz, ha⟩

lemma intercalate_eq_nil_iff {xs : List (List α)} (h : ∀ x ∈ xs, x ≠ []) :
    [sep].intercalate xs = [] ↔ xs = [] := by
  constructor
  · intro hnil
    match xs with
    | [] => rfl
    | [x] =>
      rw [List.intercalate_singleton] at hnil
      exact absurd hnil (h x (List.mem_singleton_self x))
    | x :: y :: ys =>
      rw [List.intercalate_cons_cons, List.append_assoc, List.append_eq_nil_iff] at hnil
      exact absurd hnil.1 (h x List.mem_cons_self)
  · rintro rfl
    exact List.intercalate_nil

/-! ### Lengths -/

lemma length_intercalate (sep : α) {xs : List (List α)} (h : xs ≠ []) :
    ([sep].intercalate xs).length + 1 = (xs.map fun x => x.length + 1).sum := by
  induction xs with
  | nil => exact absurd rfl h
  | cons x xs ih =>
    match xs with
    | [] => simp
    | y :: ys =>
      rw [List.map_cons, List.sum_cons, ← ih (List.cons_ne_nil y ys), List.intercalate_cons_cons,
        List.length_append, List.length_append, List.length_singleton]
      omega

/-- Leaving some of the lists out makes them shorter. -/
lemma length_intercalate_le (sep : α) {xs ys : List (List α)} (h : xs.Sublist ys) :
    ([sep].intercalate xs).length ≤ ([sep].intercalate ys).length := by
  by_cases hxs : xs = []
  · rw [hxs, List.intercalate_nil]
    exact Nat.zero_le _
  · have hys : ys ≠ [] := by
      rintro rfl
      exact hxs (List.sublist_nil.mp h)
    have hsum := (h.map fun x => x.length + 1).sum_le_sum fun a _ => Nat.zero_le a
    rw [← length_intercalate sep hxs, ← length_intercalate sep hys] at hsum
    omega

/-! ### Searching -/

/-- What is found without a separator in it is on one side of the separator. -/
lemma infix_append_cons_iff {d a b : List α} (hsep : sep ∉ d) :
    d <:+: a ++ sep :: b ↔ d <:+: a ∨ d <:+: b := by
  constructor
  · intro h
    rcases List.infix_append_iff_ne_nil.mp h with hleft | hright | ⟨l, r, -, hne, rfl, -, hr⟩
    · exact Or.inl hleft
    · rcases List.infix_cons_iff.mp hright with hprefix | hinfix
      · rcases List.prefix_cons_iff.mp hprefix with rfl | ⟨t, rfl, -⟩
        · exact Or.inl List.nil_infix
        · exact absurd List.mem_cons_self hsep
      · exact Or.inr hinfix
    · rcases List.prefix_cons_iff.mp hr with rfl | ⟨t, rfl, -⟩
      · exact absurd rfl hne
      · exact absurd (List.mem_append_right l List.mem_cons_self) hsep
  · rintro (hleft | hright)
    · exact hleft.trans List.infix_append_left
    · exact (List.infix_cons hright).trans List.infix_append_right

/-- What is found without a separator in it is in one of the lists. -/
theorem infix_intercalate_iff {d : List α} {xs : List (List α)} (hsep : sep ∉ d) (hne : d ≠ []) :
    d <:+: [sep].intercalate xs ↔ ∃ x ∈ xs, d <:+: x := by
  induction xs with
  | nil =>
    refine iff_of_false (fun h => hne (List.eq_nil_of_infix_nil h)) ?_
    rintro ⟨x, hx, -⟩
    exact List.not_mem_nil hx
  | cons x xs ih =>
    match xs with
    | [] => rw [List.intercalate_singleton, List.exists_mem_cons_iff]; simp
    | y :: ys =>
      rw [List.intercalate_cons_cons, List.append_assoc, List.singleton_append,
        infix_append_cons_iff hsep, ih]
      exact (List.exists_mem_cons_iff _ x (y :: ys)).symm

/-- No piece of a list that is split at the separators contains one. -/
lemma notMem_of_mem_splitOn [DecidableEq α] {x xs : List α} (h : x ∈ xs.splitOn sep) : sep ∉ x := by
  induction xs generalizing x with
  | nil =>
    rw [List.splitOn_nil, List.mem_singleton] at h
    rw [h]
    exact List.not_mem_nil
  | cons a xs ih =>
    rw [List.splitOn_cons_eq_if_modifyHead] at h
    obtain ⟨y, ys, hsplit⟩ := List.exists_cons_of_ne_nil (List.splitOn_ne_nil sep xs)
    rw [hsplit] at h ih
    split_ifs at h with ha
    · rcases List.mem_cons.mp h with rfl | hmem
      · exact List.not_mem_nil
      · exact ih hmem
    · rcases List.mem_cons.mp h with rfl | hmem
      · rw [List.mem_cons, not_or]
        exact ⟨fun heq => ha (beq_iff_eq.mpr heq.symm), ih List.mem_cons_self⟩
      · exact ih (List.mem_cons_of_mem y hmem)

/-! ### Separators that stand alone -/

/-- There is no separator at the beginning or the end, and none behind another. -/
structure Clean (sep : α) (xs : List α) : Prop where
  leading  : xs.head? ≠ some sep
  trailing : xs.getLast? ≠ some sep
  doubled  : ¬ [sep, sep] <:+: xs

lemma doubled_append_cons_iff {xs ys : List α} :
    [sep, sep] <:+: xs ++ sep :: ys ↔
      [sep, sep] <:+: xs ∨ xs.getLast? = some sep ∨ ys.head? = some sep ∨ [sep, sep] <:+: ys := by
  have hright : [sep, sep] <:+: sep :: ys ↔ ys.head? = some sep ∨ [sep, sep] <:+: ys := by
    rw [List.infix_cons_iff, List.cons_prefix_cons, and_iff_right rfl,
      List.singleton_prefix_iff_head?_eq_some]
  rw [List.infix_append_iff_ne_nil, hright]
  constructor
  · rintro (hleft | hright | ⟨l, r, hl, hr, heq, hsuffix, -⟩)
    · exact Or.inl hleft
    · exact Or.inr (Or.inr hright)
    · -- it lies across: the separator is one of its two
      obtain ⟨a, l, rfl⟩ := List.exists_cons_of_ne_nil hl
      obtain ⟨rfl, hrest⟩ := List.cons.inj heq
      match l with
      | [] => exact Or.inr (Or.inl (List.singleton_suffix_iff_getLast?_eq_some.mp hsuffix))
      | b :: l =>
        have hnil := (List.cons.inj hrest).2
        exact absurd (List.append_eq_nil_iff.mp hnil.symm).2 hr
  · rintro (hleft | hlast | hright)
    · exact Or.inl hleft
    · refine Or.inr (Or.inr ⟨[sep], [sep], List.cons_ne_nil _ _, List.cons_ne_nil _ _, rfl, ?_, ?_⟩)
      · exact List.singleton_suffix_iff_getLast?_eq_some.mpr hlast
      · exact List.singleton_prefix_iff_head?_eq_some.mpr rfl
    · exact Or.inr (Or.inl hright)

/-- Clean lists that are joined are clean, and no others. -/
lemma clean_append_cons_iff {xs ys : List α} (hxs : xs ≠ []) (hys : ys ≠ []) :
    Clean sep (xs ++ sep :: ys) ↔ Clean sep xs ∧ Clean sep ys := by
  have hhead : (xs ++ sep :: ys).head? = xs.head? := by
    rw [List.head?_append, Option.or_of_isSome (List.isSome_head?.mpr hxs)]
  have hlast : (xs ++ sep :: ys).getLast? = ys.getLast? := by
    rw [List.getLast?_append, Option.or_of_isSome (List.getLast?_isSome.mpr (List.cons_ne_nil _ _)),
      List.getLast?_cons_of_ne_nil hys]
  constructor
  · rintro ⟨hleading, htrailing, hdoubled⟩
    rw [doubled_append_cons_iff, not_or, not_or, not_or] at hdoubled
    rw [hhead] at hleading
    rw [hlast] at htrailing
    exact ⟨⟨hleading, hdoubled.2.1, hdoubled.1⟩, ⟨hdoubled.2.2.1, htrailing, hdoubled.2.2.2⟩⟩
  · rintro ⟨hx, hy⟩
    refine ⟨hhead ▸ hx.leading, hlast ▸ hy.trailing, ?_⟩
    rw [doubled_append_cons_iff, not_or, not_or, not_or]
    exact ⟨hx.doubled, hx.trailing, hy.leading, hy.doubled⟩

lemma clean_nil : Clean sep ([] : List α) :=
  ⟨nofun, nofun, fun h => absurd (List.eq_nil_of_infix_nil h) (List.cons_ne_nil _ _)⟩

/-- A separator at the end is not clean. -/
lemma not_clean_concat (xs : List α) : ¬ Clean sep (xs ++ [sep]) :=
  fun h => h.trailing List.getLast?_concat

/-- Another list can be joined exactly if it is clean. -/
theorem clean_intercalate_concat_iff {xs : List (List α)} (h : ∀ x ∈ xs, x ≠ []) {x : List α}
    (hx : x ≠ []) : Clean sep ([sep].intercalate (xs ++ [x])) ↔
      Clean sep ([sep].intercalate xs) ∧ Clean sep x := by
  by_cases hxs : xs = []
  · rw [hxs, List.nil_append, List.intercalate_singleton, List.intercalate_nil]
    exact (and_iff_right clean_nil).symm
  · rw [intercalate_concat hxs]
    exact clean_append_cons_iff (mt (intercalate_eq_nil_iff h).mp hxs) hx

/-! ### Collecting lists -/

/-- A list that is part of one before it is itself one of those. -/
def NoNewPart (xs : List (List α)) : Prop :=
  ∀ before x after, xs = before ++ x :: after → (∃ a ∈ before, x <:+: a) → x ∈ before

lemma noNewPart_concat_iff (xs : List (List α)) (x : List α) :
    NoNewPart (xs ++ [x]) ↔ NoNewPart xs ∧ ((∃ a ∈ xs, x <:+: a) → x ∈ xs) := by
  constructor
  · refine fun h => ⟨fun before y after heq => h before y (after ++ [x]) ?_, h xs x [] rfl⟩
    rw [heq, List.append_assoc, List.cons_append]
  · rintro ⟨hinit, hlast⟩ before y after heq
    rcases List.eq_nil_or_concat after with rfl | ⟨after, z, rfl⟩
    · obtain ⟨rfl, hx⟩ := List.append_inj' heq rfl
      obtain rfl := List.singleton_inj.mp hx
      exact hlast
    · rw [List.concat_eq_append, ← List.cons_append, ← List.append_assoc] at heq
      exact hinit before y after (List.append_inj' heq rfl).1

variable [DecidableEq α]

/-- Another list, unless it is found in those that are joined already. -/
def addNew (sep : α) (found : List (List α)) (x : List α) : List (List α) :=
  if x <:+: [sep].intercalate found then found else found ++ [x]

/-- The lists that are collected one after the other. -/
def collect (sep : α) (xs : List (List α)) : List (List α) := xs.foldl (addNew sep) []

lemma collect_concat (xs : List (List α)) (x : List α) :
    collect sep (xs ++ [x]) = addNew sep (collect sep xs) x := List.foldl_concat _ _ _ _

lemma prefix_addNew (found : List (List α)) (x : List α) : found <+: addNew sep found x := by
  rw [addNew]
  split_ifs
  · exact List.prefix_rfl
  · exact List.prefix_append _ _

lemma prefix_foldl_addNew (sep : α) (xs found : List (List α)) : found <+: xs.foldl (addNew sep) found := by
  induction xs generalizing found with
  | nil => exact List.prefix_rfl
  | cons x xs ih => exact (prefix_addNew found x).trans (ih _)

/-- What was added is found from then on. -/
lemma infix_addNew (sep : α) (found : List (List α)) (x : List α) :
    [sep].intercalate found <:+: [sep].intercalate (addNew sep found x) ∧
      x <:+: [sep].intercalate (addNew sep found x) := by
  rw [addNew]
  split_ifs with h
  · exact ⟨List.infix_rfl, h⟩
  · by_cases hfound : found = []
    · rw [hfound, List.nil_append, List.intercalate_singleton, List.intercalate_nil]
      exact ⟨List.nil_infix, List.infix_rfl⟩
    · rw [intercalate_concat hfound]
      exact ⟨List.infix_append_left, (List.infix_cons List.infix_rfl).trans List.infix_append_right⟩

lemma infix_collect (sep : α) {xs : List (List α)} {x : List α} (h : x ∈ xs) :
    x <:+: [sep].intercalate (collect sep xs) := by
  induction xs using List.reverseRecOn with
  | nil => exact absurd h List.not_mem_nil
  | append_singleton xs y ih =>
    rw [collect_concat]
    obtain ⟨hold, hnew⟩ := infix_addNew sep (collect sep xs) y
    rcases List.mem_append.mp h with hin | hlast
    · exact (ih hin).trans hold
    · rw [List.mem_singleton.mp hlast]
      exact hnew

lemma eraseDups_concat (xs : List (List α)) (x : List α) :
    (xs ++ [x]).eraseDups = if x ∈ xs then xs.eraseDups else xs.eraseDups ++ [x] := by
  rw [List.eraseDups_append]
  split_ifs with h
  · simp [List.removeAll, h]
  · simp [List.removeAll, h, List.eraseDups_cons]

/-- No list is collected twice. -/
lemma collect_sublist (sep : α) (xs : List (List α)) : (collect sep xs).Sublist xs.eraseDups := by
  induction xs using List.reverseRecOn with
  | nil => exact List.Sublist.slnil
  | append_singleton xs x ih =>
    rw [collect_concat, eraseDups_concat, addNew]
    by_cases hfound : x <:+: [sep].intercalate (collect sep xs)
    · rw [if_pos hfound]
      split_ifs
      · exact ih
      · exact ih.trans (List.sublist_append_left _ _)
    · rw [if_neg hfound, if_neg fun hin => hfound (infix_collect sep hin)]
      exact ih.append (List.Sublist.refl [x])

lemma collect_ne_nil {xs : List (List α)} (hxs : xs ≠ []) (hne : ∀ x ∈ xs, x ≠ []) :
    collect sep xs ≠ [] := by
  intro hnil
  obtain ⟨x, ys, rfl⟩ := List.exists_cons_of_ne_nil hxs
  have hfound := infix_collect sep (List.mem_cons_self (a := x) (l := ys))
  rw [hnil, List.intercalate_nil] at hfound
  exact hne x List.mem_cons_self (List.eq_nil_of_infix_nil hfound)

/-- Without separators in the lists, nothing is left out exactly if no list is part of another one
before it that it is not among. -/
theorem collect_eq_iff {xs : List (List α)} (hsep : ∀ x ∈ xs, sep ∉ x) (hne : ∀ x ∈ xs, x ≠ []) :
    collect sep xs = xs.eraseDups ↔ NoNewPart xs := by
  induction xs using List.reverseRecOn with
  | nil =>
    refine iff_of_true rfl fun before x after heq => ?_
    exact absurd heq.symm (List.append_ne_nil_of_right_ne_nil _ (List.cons_ne_nil _ _))
  | append_singleton xs x ih =>
    rw [List.forall_mem_append, List.forall_mem_singleton] at hsep hne
    have hfound : x <:+: [sep].intercalate (collect sep xs) ↔ ∃ a ∈ xs, x <:+: a := by
      rw [infix_intercalate_iff hsep.2 hne.2]
      constructor
      · rintro ⟨a, ha, hx⟩
        exact ⟨a, List.mem_eraseDups.mp ((collect_sublist sep xs).subset ha), hx⟩
      · rintro ⟨a, ha, hx⟩
        exact (infix_intercalate_iff hsep.2 hne.2).mp (hx.trans (infix_collect sep ha))
    have hlength := (collect_sublist sep xs).length_le
    rw [noNewPart_concat_iff, ← ih hsep.1 hne.1, ← hfound, collect_concat, eraseDups_concat, addNew]
    by_cases hin : x ∈ xs
    · rw [if_pos hin, if_pos (infix_collect sep hin)]
      exact (and_iff_left fun _ => hin).symm
    · rw [if_neg hin]
      by_cases hpart : x <:+: [sep].intercalate (collect sep xs)
      · -- a part of one before it: left out, though it is new
        rw [if_pos hpart]
        refine iff_of_false (fun heq => ?_) fun hboth => hin (hboth.2 hpart)
        rw [heq, List.length_append, List.length_singleton] at hlength
        omega
      · -- new, and part of none: it is added
        rw [if_neg hpart]
        exact ⟨fun heq => ⟨(List.append_inj' heq rfl).1, fun h => absurd h hpart⟩,
          fun h => congrArg (· ++ [x]) h.1⟩

/-- Lists none of which is part of another one before it are all collected. -/
lemma collect_eq_self {xs : List (List α)} (hsep : ∀ x ∈ xs, sep ∉ x) (hne : ∀ x ∈ xs, x ≠ [])
    (h : xs.Pairwise fun a x => ¬ x <:+: a) : collect sep xs = xs := by
  induction xs using List.reverseRecOn with
  | nil => rfl
  | append_singleton xs x ih =>
    rw [List.forall_mem_append, List.forall_mem_singleton] at hsep hne
    obtain ⟨hinit, -, hlast⟩ := List.pairwise_append.mp h
    have hfound : ¬ x <:+: [sep].intercalate xs := by
      rw [infix_intercalate_iff hsep.2 hne.2]
      rintro ⟨a, ha, hx⟩
      exact hlast a ha x (List.mem_singleton_self x) hx
    rw [collect_concat, ih hsep.1 hne.1 hinit, addNew, if_neg hfound]

/-- Splitting what is collected gives all the lists exactly if none of them holds a separator or is
part of another one before it. -/
theorem splitOn_collect_iff {xs : List (List α)} (hxs : xs ≠ []) (hne : ∀ x ∈ xs, x ≠ []) :
    ([sep].intercalate (collect sep xs)).splitOn sep = xs.eraseDups ↔
      (∀ x ∈ xs, sep ∉ x) ∧ NoNewPart xs := by
  have hsplit : (∀ x ∈ xs, sep ∉ x) →
      ([sep].intercalate (collect sep xs)).splitOn sep = collect sep xs := by
    intro hsep
    refine List.splitOn_intercalate sep (fun x hx => ?_) (collect_ne_nil hxs hne)
    exact hsep x (List.mem_eraseDups.mp ((collect_sublist sep xs).subset hx))
  constructor
  · intro heq
    have hsep : ∀ x ∈ xs, sep ∉ x := by
      intro x hx
      rw [← List.mem_eraseDups, ← heq] at hx
      exact notMem_of_mem_splitOn hx
    rw [hsplit hsep, collect_eq_iff hsep hne] at heq
    exact ⟨hsep, heq⟩
  · rintro ⟨hsep, hpart⟩
    rw [hsplit hsep]
    exact (collect_eq_iff hsep hne).mpr hpart

end Separated
