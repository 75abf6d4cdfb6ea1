import Mathlib.Data.List.Basic
import Mathlib.Tactic

/-!
# Runs of a machine

A machine takes calls one at a time. A call returns an output, or ends the run for good.
-/

namespace Machine

variable {σ ι ο : Type*}

/-- The state after some calls, and their outputs. -/
def run (step : σ → ι → Option (σ × ο)) : σ → List ι → Option (σ × List ο)
  | s, []      => some (s, [])
  | s, i :: is =>
    match step s i with
    | none         => none
    | some (s', o) => (run step s' is).map fun (t, os) => (t, o :: os)

variable {step : σ → ι → Option (σ × ο)}

lemma run_cons {s t : σ} {i : ι} {is : List ι} {os : List ο}
    (h : run step s (i :: is) = some (t, os)) :
    ∃ s' o os', step s i = some (s', o) ∧ run step s' is = some (t, os') ∧ os = o :: os' := by
  rw [run] at h
  match hstep : step s i with
  | none =>
    rw [hstep] at h
    cases h
  | some (s', o) =>
    rw [hstep] at h
    obtain ⟨⟨t', os'⟩, hrun, heq⟩ := Option.map_eq_some_iff.mp h
    obtain ⟨rfl, rfl⟩ := Prod.mk.inj heq
    exact ⟨s', o, os', rfl, hrun, rfl⟩

lemma run_append (s : σ) (is js : List ι) :
    run step s (is ++ js) = (run step s is).bind fun (t, os) =>
      (run step t js).map fun (u, os') => (u, os ++ os') := by
  induction is generalizing s with
  | nil =>
    rw [List.nil_append, run, Option.bind_some]
    exact Option.map_id'.symm
  | cons i is ih =>
    rw [List.cons_append, run, run]
    match step s i with
    | none => rfl
    | some (s', o) =>
      simp only [ih, Option.map_bind, Option.bind_map, Option.map_map, Function.comp_def,
        List.cons_append]

/-- Calls that always return make a run. -/
lemma exists_run (h : ∀ s i, ∃ s' o, step s i = some (s', o)) (s : σ) (is : List ι) :
    ∃ t os, run step s is = some (t, os) := by
  induction is generalizing s with
  | nil => exact ⟨s, [], rfl⟩
  | cons i is ih =>
    obtain ⟨s', o, hstep⟩ := h s i
    obtain ⟨t, os, hrun⟩ := ih s'
    refine ⟨t, o :: os, ?_⟩
    rw [run, hstep]
    simp only [hrun, Option.map_some]

/-- There is one output for each call. -/
lemma length_outputs {s t : σ} {is : List ι} {os : List ο} (h : run step s is = some (t, os)) :
    os.length = is.length := by
  induction is generalizing s os with
  | nil =>
    obtain ⟨-, rfl⟩ := Prod.mk.inj (Option.some.inj h)
    rfl
  | cons i is ih =>
    obtain ⟨s', o, os', -, hrest, rfl⟩ := run_cons h
    rw [List.length_cons, List.length_cons, ih hrest]

/-- The last call of a run. -/
lemma run_concat {s t : σ} {is : List ι} {i : ι} {os : List ο} :
    run step s (is ++ [i]) = some (t, os) ↔
      ∃ s' os' o, run step s is = some (s', os') ∧ step s' i = some (t, o) ∧ os = os' ++ [o] := by
  have hone : ∀ s' o, run step s' [i] = some (t, o) ↔ ∃ o', step s' i = some (t, o') ∧ o = [o'] := by
    intro s' o
    constructor
    · intro h
      obtain ⟨t', o', os', hstep, hnil, rfl⟩ := run_cons h
      obtain ⟨rfl, rfl⟩ := Prod.mk.inj (Option.some.inj hnil)
      exact ⟨o', hstep, rfl⟩
    · rintro ⟨o', hstep, rfl⟩
      simp only [run, hstep, Option.map_some]
  rw [run_append, Option.bind_eq_some_iff]
  constructor
  · rintro ⟨⟨s', os'⟩, hrun, hlast⟩
    obtain ⟨⟨t', last⟩, hstep, heq⟩ := Option.map_eq_some_iff.mp hlast
    obtain ⟨rfl, rfl⟩ := Prod.mk.inj heq
    obtain ⟨o, ho, rfl⟩ := (hone s' last).mp hstep
    exact ⟨s', os', o, hrun, ho, rfl⟩
  · rintro ⟨s', os', o, hrun, ho, rfl⟩
    refine ⟨(s', os'), hrun, ?_⟩
    simp only [(hone s' [o]).mpr ⟨o, ho, rfl⟩, Option.map_some]

/-- What every step preserves of the state and all outputs so far holds after every run. -/
theorem run_invariant {P : σ → List ο → Prop} {is : List ι}
    (hstep : ∀ s os i s' o, i ∈ is → P s os → step s i = some (s', o) → P s' (os ++ [o])) :
    ∀ {s t : σ} {past os : List ο}, P s past → run step s is = some (t, os) → P t (past ++ os) := by
  induction is with
  | nil =>
    intro s t past os hs hrun
    obtain ⟨rfl, rfl⟩ := Prod.mk.inj (Option.some.inj hrun)
    rwa [List.append_nil]
  | cons i is ih =>
    intro s t past os hs hrun
    obtain ⟨s', o, os', hone, hrest, rfl⟩ := run_cons hrun
    have hnext := hstep s past i s' o List.mem_cons_self hs hone
    have hlast := ih (fun s os j s' o hj => hstep s os j s' o (List.mem_cons_of_mem _ hj))
      hnext hrest
    rwa [List.append_assoc] at hlast

/-- The same for runs from a state in which nothing was output yet. -/
theorem run_invariant_start {P : σ → List ο → Prop} {is : List ι} {s t : σ} {os : List ο}
    (hstart : P s [])
    (hstep : ∀ s os i s' o, i ∈ is → P s os → step s i = some (s', o) → P s' (os ++ [o]))
    (hrun : run step s is = some (t, os)) : P t os := by
  have hpast : P t ([] ++ os) := run_invariant hstep hstart hrun
  rwa [List.nil_append] at hpast

/-- What holds of the calls so far and the state holds after every run. -/
theorem run_history {P : List ι → σ → Prop} {s t : σ} {is : List ι} {os : List ο} (hstart : P [] s)
    (hstep : ∀ is s i s' o, P is s → step s i = some (s', o) → P (is ++ [i]) s')
    (hrun : run step s is = some (t, os)) : P is t := by
  induction is using List.reverseRecOn generalizing t os with
  | nil =>
    obtain ⟨rfl, -⟩ := Prod.mk.inj (Option.some.inj hrun)
    exact hstart
  | append_singleton is i ih =>
    obtain ⟨s', os', o, hbefore, hlast, -⟩ := run_concat.mp hrun
    exact hstep is s' i t o (ih hbefore) hlast

/-- What every step has in common, from states with an invariant, holds of each call of a run and its
output. -/
theorem run_forall₂ {P : σ → Prop} {R : ι → ο → Prop} {is : List ι}
    (hstep : ∀ s i s' o, i ∈ is → P s → step s i = some (s', o) → P s' ∧ R i o) {s t : σ}
    {os : List ο} (hs : P s) (hrun : run step s is = some (t, os)) : P t ∧ List.Forall₂ R is os := by
  induction is generalizing s os with
  | nil =>
    obtain ⟨rfl, rfl⟩ := Prod.mk.inj (Option.some.inj hrun)
    exact ⟨hs, .nil⟩
  | cons i is ih =>
    obtain ⟨s', o, os', hone, hrest, rfl⟩ := run_cons hrun
    obtain ⟨hs', hfirst⟩ := hstep s i s' o List.mem_cons_self hs hone
    obtain ⟨ht, hothers⟩ := ih (fun s j s' o hj => hstep s j s' o (List.mem_cons_of_mem _ hj)) hs'
      hrest
    exact ⟨ht, .cons hfirst hothers⟩

/-- States that no call can tell apart cannot be told apart by any sequence of calls. -/
theorem run_bisimulation {R : σ → σ → Prop}
    (hstep : ∀ s t i, R s t → (step s i = none ∧ step t i = none) ∨
      ∃ s' t' o, step s i = some (s', o) ∧ step t i = some (t', o) ∧ R s' t') (is : List ι) :
    ∀ {s t : σ}, R s t → (run step s is = none ∧ run step t is = none) ∨
      ∃ s' t' os, run step s is = some (s', os) ∧ run step t is = some (t', os) ∧ R s' t' := by
  induction is with
  | nil =>
    intro s t h
    exact Or.inr ⟨s, t, [], rfl, rfl, h⟩
  | cons i is ih =>
    intro s t h
    rw [run, run]
    rcases hstep s t i h with ⟨hs, ht⟩ | ⟨s', t', o, hs, ht, h'⟩
    · rw [hs, ht]
      exact Or.inl ⟨rfl, rfl⟩
    · rw [hs, ht]
      simp only
      rcases ih h' with ⟨hs', ht'⟩ | ⟨s'', t'', os, hs', ht', h''⟩
      · rw [hs', ht']
        exact Or.inl ⟨rfl, rfl⟩
      · rw [hs', ht']
        exact Or.inr ⟨s'', t'', o :: os, rfl, rfl, h''⟩

end Machine
