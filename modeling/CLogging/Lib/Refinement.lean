import CLogging.Lib.Machine

/-!
# Runs seen from another level

A machine is related to another one, or to a protocol its outputs must follow, by a function `f` of
its states, and its outputs are viewed through a function `v`. What one step does is lifted to runs.
-/

namespace Machine

variable {σ ι ο : Type*} {step : σ → ι → Option (σ × ο)}

/-- If every step is some steps of an abstract machine, with the same view of the outputs, every run
is a run of the abstract machine. -/
theorem run_refines {σ' ι' ο' ε : Type*} {step' : σ' → ι' → Option (σ' × ο')} {P : σ → Prop}
    {f : σ → σ'} {v : ο → List ε} {w : ο' → List ε}
    (hstep : ∀ s i s' o, P s → step s i = some (s', o) → P s' ∧ ∃ is os,
      run step' (f s) is = some (f s', os) ∧ os.flatMap w = v o)
    {s t : σ} {is : List ι} {os : List ο} (hs : P s) (hrun : run step s is = some (t, os)) :
    P t ∧ ∃ is' os', run step' (f s) is' = some (f t, os') ∧
      os'.flatMap w = os.flatMap v := by
  induction is generalizing s os with
  | nil =>
    obtain ⟨rfl, rfl⟩ := Prod.mk.inj (Option.some.inj hrun)
    exact ⟨hs, [], [], rfl, rfl⟩
  | cons i is ih =>
    obtain ⟨s', o, os', hone, hrest, rfl⟩ := run_cons hrun
    obtain ⟨hs', is₁, os₁, hrun₁, hv₁⟩ := hstep s i s' o hs hone
    obtain ⟨ht, is₂, os₂, hrun₂, hv₂⟩ := ih hs' hrest
    refine ⟨ht, is₁ ++ is₂, os₁ ++ os₂, ?_, ?_⟩
    · rw [run_append, hrun₁]
      simp only [Option.bind_some, hrun₂, Option.map_some]
    · rw [List.flatMap_append, hv₁, hv₂, List.flatMap_cons]

/-- If every step follows a protocol, which takes the events one at a time and gets stuck at those
that are not allowed, every run does. -/
theorem run_follows {τ ε : Type*} {next : τ → ε → Option τ} {P : σ → Prop} {f : σ → τ}
    {v : ο → List ε}
    (hstep : ∀ s i s' o, P s → step s i = some (s', o) →
      P s' ∧ (v o).foldlM next (f s) = some (f s'))
    {s t : σ} {is : List ι} {os : List ο} (hs : P s) (hrun : run step s is = some (t, os)) :
    P t ∧ (os.flatMap v).foldlM next (f s) = some (f t) := by
  induction is generalizing s os with
  | nil =>
    obtain ⟨rfl, rfl⟩ := Prod.mk.inj (Option.some.inj hrun)
    exact ⟨hs, rfl⟩
  | cons i is ih =>
    obtain ⟨s', o, os', hone, hrest, rfl⟩ := run_cons hrun
    obtain ⟨hs', hfirst⟩ := hstep s i s' o hs hone
    obtain ⟨ht, hothers⟩ := ih hs' hrest
    refine ⟨ht, ?_⟩
    rw [List.flatMap_cons, List.foldlM_append, hfirst]
    exact hothers

/-- If the view of a state determines what every step does, and how its result is seen, a run is seen
as a run from the view. -/
theorem run_map {σ' : Type*} {step' : σ' → ι → Option (σ' × ο)} {f : σ → σ'}
    (hstep : ∀ s i, step' (f s) i = (step s i).map fun (t, o) => (f t, o)) (s : σ) (is : List ι) :
    run step' (f s) is = (run step s is).map fun (t, os) => (f t, os) := by
  induction is generalizing s with
  | nil => rfl
  | cons i is ih =>
    rw [run, run, hstep]
    cases step s i with
    | none => rfl
    | some next =>
      obtain ⟨s', o⟩ := next
      simp only [Option.map_some, ih, Option.map_map, Function.comp_def]

/-- If a protocol follows a machine where a condition on the state and the call is met, and the machine
gets stuck where it is not, a run is possible exactly if the protocol allows all of its calls, and the
condition is met at each of them. -/
theorem run_iff_foldlM {τ : Type*} {next : τ → ι → Option τ} {f : σ → τ} {A : σ → ι → Prop}
    (hstep : ∀ s i, A s i → (step s i).map (fun (t, _) => f t) = next (f s) i)
    (hstuck : ∀ s i, ¬ A s i → step s i = none) (s : σ) (is : List ι) (u : τ) :
    (∃ t os, run step s is = some (t, os) ∧ f t = u) ↔
      is.foldlM next (f s) = some u ∧ ∀ before i after, is = before ++ i :: after →
        ∀ t os, run step s before = some (t, os) → A t i := by
  induction is generalizing s with
  | nil =>
    constructor
    · rintro ⟨t, os, hrun, rfl⟩
      obtain ⟨rfl, -⟩ := Prod.mk.inj (Option.some.inj hrun)
      exact ⟨rfl, fun before i after h => by simp at h⟩
    · rintro ⟨hu, -⟩
      exact ⟨s, [], rfl, Option.some.inj hu⟩
  | cons j is ih =>
    rw [List.foldlM_cons]
    constructor
    · rintro ⟨t, os, hrun, hu⟩
      obtain ⟨s', o, os', hone, hrest, -⟩ := run_cons hrun
      have hmet : A s j := by
        by_contra hnot
        rw [hstuck s j hnot] at hone
        cases hone
      have hnext := hstep s j hmet
      rw [hone, Option.map_some] at hnext
      obtain ⟨hfold, hall⟩ := (ih s').mp ⟨t, os', hrest, hu⟩
      rw [← hnext]
      refine ⟨hfold, fun before i after h t' os₁ hbefore => ?_⟩
      cases before with
      | nil =>
        obtain ⟨rfl, -⟩ := Prod.mk.inj (Option.some.inj hbefore)
        obtain ⟨rfl, -⟩ := List.cons.inj h
        exact hmet
      | cons j' before =>
        obtain ⟨rfl, rfl⟩ := List.cons.inj h
        obtain ⟨s₁, o₁, os₂, hone', hbefore', -⟩ := run_cons hbefore
        obtain ⟨rfl, -⟩ := Prod.mk.inj (Option.some.inj (hone.symm.trans hone'))
        exact hall before i after rfl t' os₂ hbefore'
    · -- the abstract step is one of the machine, as the condition is met
      rintro ⟨hfold, hall⟩
      obtain ⟨v, hv, hfold'⟩ := Option.bind_eq_some_iff.mp hfold
      have hnext := hstep s j (hall [] j is rfl s [] rfl)
      rw [hv] at hnext
      obtain ⟨⟨s', o⟩, hone, rfl⟩ := Option.map_eq_some_iff.mp hnext
      have hrun : ∀ {js t' os}, run step s' js = some (t', os) →
          run step s (j :: js) = some (t', o :: os) := by
        intro js t' os hjs
        rw [run, hone]
        simp only [hjs, Option.map_some]
      obtain ⟨t, os, hrest, hu⟩ := (ih s').mpr ⟨hfold', fun before i after h t' os' hbefore =>
        hall (j :: before) i after (congrArg (j :: ·) h) t' (o :: os') (hrun hbefore)⟩
      exact ⟨t, o :: os, hrun hrest, hu⟩

end Machine
