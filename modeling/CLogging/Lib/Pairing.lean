import Mathlib.Data.Multiset.AddSub
import Mathlib.Tactic

/-!
# Pairing of acquisitions and releases

A trace lists what happens to resources. Executing it keeps the multiset of those that are held,
and gets stuck where something is released or used that is not held.
-/

namespace Pairing

variable {α : Type*} [DecidableEq α]

/-- What happens to a resource. An acquisition may be refused. -/
inductive Use (α : Type*) where
  | acquire (a : α)
  | refused (a : α)
  | release (a : α)
  | use (a : α)
  deriving DecidableEq

/-- The resources held after one more event. -/
def Use.exec (held : Multiset α) : Use α → Option (Multiset α)
  | .acquire a => some (a ::ₘ held)
  | .refused _ => some held
  | .release a => if a ∈ held then some (held.erase a) else none
  | .use a     => if a ∈ held then some held else none

/-- The resources held after a trace. -/
def exec : Multiset α → List (Use α) → Option (Multiset α)
  | held, []      => some held
  | held, u :: us => (u.exec held).bind fun held => exec held us

@[simp] lemma exec_nil (held : Multiset α) : exec held [] = some held := rfl

lemma exec_append (held : Multiset α) (us vs : List (Use α)) :
    exec held (us ++ vs) = (exec held us).bind fun held => exec held vs := by
  induction us generalizing held with
  | nil => rfl
  | cons u us ih =>
    rw [List.cons_append, exec, exec]
    match u.exec held with
    | none => rfl
    | some held' => exact ih held'

/-- Acquiring adds to what is held. -/
lemma exec_acquire (held : Multiset α) (xs : List α) :
    exec held (xs.map Use.acquire) = some ((xs : Multiset α) + held) := by
  induction xs generalizing held with
  | nil => rw [List.map_nil, exec_nil, Multiset.coe_nil, zero_add]
  | cons x xs ih =>
    rw [List.map_cons, exec, Use.exec, Option.bind_some, ih, ← Multiset.cons_coe,
      Multiset.cons_add, Multiset.add_cons]

/-- Releasing succeeds exactly if everything that is released is held, in any order. -/
lemma exec_release_iff {held held' : Multiset α} {xs : List α} :
    exec held (xs.map Use.release) = some held' ↔ held = (xs : Multiset α) + held' := by
  induction xs generalizing held with
  | nil => rw [List.map_nil, exec_nil, Multiset.coe_nil, zero_add, Option.some.injEq]
  | cons x xs ih =>
    rw [List.map_cons, exec, Use.exec, ← Multiset.cons_coe, Multiset.cons_add]
    by_cases hx : x ∈ held
    · rw [if_pos hx, Option.bind_some, ih, ← Multiset.cons_inj_right x, Multiset.cons_erase hx]
    · rw [if_neg hx, Option.bind_none]
      refine iff_of_false (Option.some_ne_none _).symm fun heq => hx ?_
      rw [heq]
      exact Multiset.mem_cons_self x _

/-- Using succeeds exactly if everything that is used is held. -/
lemma exec_use_iff {held : Multiset α} {xs : List α} :
    exec held (xs.map Use.use) = some held ↔ ∀ x ∈ xs, x ∈ held := by
  induction xs with
  | nil => exact iff_of_true rfl fun x hx => absurd hx List.not_mem_nil
  | cons x xs ih =>
    rw [List.map_cons, exec, Use.exec, List.forall_mem_cons]
    by_cases hx : x ∈ held
    · rw [if_pos hx, Option.bind_some, ih]
      exact (and_iff_right hx).symm
    · rw [if_neg hx, Option.bind_none]
      exact iff_of_false (Option.some_ne_none _).symm fun hall => hx hall.1

/-- What is held is what was acquired more often than it was released. -/
theorem count_of_exec {held held' : Multiset α} {us : List (Use α)}
    (h : exec held us = some held') (a : α) :
    held'.count a + us.count (.release a) = held.count a + us.count (.acquire a) := by
  induction us generalizing held with
  | nil =>
    obtain rfl := Option.some.inj h
    rfl
  | cons u us ih =>
    rw [exec] at h
    obtain ⟨held'', hone, hrest⟩ := Option.bind_eq_some_iff.mp h
    have hcount := ih hrest
    match u with
    | .acquire b =>
      obtain rfl := Option.some.inj hone
      have hrelease : (Use.acquire b :: us).count (.release a) = us.count (.release a) :=
        List.count_cons_of_ne (by simp)
      by_cases hab : a = b
      · -- this resource: one more is held, and one more was acquired
        subst hab
        rw [Multiset.count_cons_self] at hcount
        rw [hrelease, List.count_cons_self]
        omega
      · rw [Multiset.count_cons_of_ne hab] at hcount
        rw [hrelease, List.count_cons_of_ne (by simpa using Ne.symm hab)]
        exact hcount
    | .refused b =>
      obtain rfl := Option.some.inj hone
      rw [List.count_cons_of_ne (by simp), List.count_cons_of_ne (by simp)]
      exact hcount
    | .release b =>
      rw [Use.exec] at hone
      split_ifs at hone with hmem
      obtain rfl := Option.some.inj hone
      have hacquire : (Use.release b :: us).count (.acquire a) = us.count (.acquire a) :=
        List.count_cons_of_ne (by simp)
      by_cases hab : a = b
      · -- this resource: one less is held, and one more was released
        subst hab
        have hpos := Multiset.count_pos.mpr hmem
        rw [Multiset.count_erase_self] at hcount
        rw [hacquire, List.count_cons_self]
        omega
      · rw [Multiset.count_erase_of_ne hab] at hcount
        rw [hacquire, List.count_cons_of_ne (by simpa using Ne.symm hab)]
        exact hcount
    | .use b =>
      rw [Use.exec] at hone
      split_ifs at hone with hmem
      obtain rfl := Option.some.inj hone
      rw [List.count_cons_of_ne (by simp), List.count_cons_of_ne (by simp)]
      exact hcount

end Pairing
