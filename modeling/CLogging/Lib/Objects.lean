import Mathlib.Data.List.Basic
import Mathlib.Tactic

/-!
# Objects in memory

A memory is a list of objects at the places where they were allocated, and `none` where an object is
gone. Its objects can be seen in different ways, in which they may depend on the place.
-/

namespace Objects

variable {α β : Type*}

/-- The object at a place, unless it is gone. -/
def object (h : List (Option α)) (i : ℕ) : Option α := h[i]?.join

/-- An object goes. -/
def remove (h : List (Option α)) (i : ℕ) : List (Option α) := h.set i none

/-- The objects, each seen from its place. -/
def relocate (f : ℕ → α → β) (h : List (Option α)) : List (Option β) :=
  h.mapIdx fun i => Option.map (f i)

@[simp] lemma object_concat_length (h : List (Option α)) (a : α) :
    object (h ++ [some a]) h.length = some a := by
  rw [object, List.getElem?_concat_length]
  rfl

/-- An object is new, or was there before. -/
lemma object_concat_eq_some {h : List (Option α)} {a b : α} {i : ℕ}
    (hb : object (h ++ [some a]) i = some b) : object h i = some b ∨ b = a := by
  by_cases hi : i < h.length
  · rw [object, List.getElem?_append_left hi] at hb
    exact Or.inl hb
  · rw [object, Option.join_eq_some_iff, List.getElem?_append_right (not_lt.mp hi),
      List.getElem?_singleton] at hb
    split_ifs at hb
    exact Or.inr (Option.some.inj (Option.some.inj hb)).symm

lemma object_remove_of_ne {h : List (Option α)} {i j : ℕ} (hne : i ≠ j) :
    object (remove h i) j = object h j := by
  rw [object, remove, List.getElem?_set_ne hne]
  rfl

@[simp] lemma object_remove_self (h : List (Option α)) (i : ℕ) : object (remove h i) i = none := by
  rw [object, remove, List.getElem?_set_self']
  cases h[i]? with
  | none => rfl
  | some a => rfl

variable (f : ℕ → α → β)

@[simp] lemma length_relocate (h : List (Option α)) : (relocate f h).length = h.length :=
  List.length_mapIdx

@[simp] lemma object_relocate (h : List (Option α)) (i : ℕ) :
    object (relocate f h) i = (object h i).map (f i) := by
  rw [object, relocate, List.getElem?_mapIdx, object]
  cases h[i]? with
  | none => rfl
  | some a => rfl

lemma relocate_relocate {γ : Type*} (g : ℕ → β → γ) (h : List (Option α)) :
    relocate g (relocate f h) = relocate (fun i a => g i (f i a)) h := by
  apply List.ext_getElem?
  intro i
  simp only [relocate, List.getElem?_mapIdx, Option.map_map]
  cases h[i]? with
  | none => rfl
  | some a => cases a <;> rfl

@[simp] lemma relocate_concat (h : List (Option α)) (a : Option α) :
    relocate f (h ++ [a]) = relocate f h ++ [a.map (f h.length)] := by
  rw [relocate, List.mapIdx_concat]
  rfl

@[simp] lemma relocate_remove (h : List (Option α)) (i : ℕ) :
    relocate f (remove h i) = remove (relocate f h) i := by
  apply List.ext_getElem?
  intro j
  rw [relocate, List.getElem?_mapIdx, remove, remove, List.getElem?_set, List.getElem?_set,
    length_relocate, relocate, List.getElem?_mapIdx]
  split_ifs <;> rfl

end Objects
