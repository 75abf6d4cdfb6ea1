import CLogging.Lib.Threads
import Mathlib.Algebra.Order.BigOperators.Group.Finset

/-!
# Deadlocks

A thread that is suspended while it holds the lock holds up every thread that waits for the lock. As
long as suspended threads are resumed, nothing else does.
-/

namespace Threads

open Machine

variable {τ ε : Type*} [DecidableEq τ]

/-- The threads that a thread has suspended. -/
def State.suspendedBy (s : State τ ε) (t : τ) : List τ :=
  (s.suspensions.filter fun p => p.1 = t).map Prod.snd

/-- The thread suspends only other threads, and has resumed all of them in the end. -/
def Resumes (t : τ) : List τ → List (Action τ ε) → Prop
  | held, []               => held = []
  | held, .suspend u :: as => u ≠ t ∧ Resumes t (u :: held) as
  | held, .resume u :: as  => Resumes t (held.erase u) as
  | held, _ :: as          => Resumes t held as

lemma resumes_append {t : τ} {held : List τ} {as bs : List (Action τ ε)} (has : Resumes t held as)
    (hbs : Resumes t [] bs) : Resumes t held (as ++ bs) := by
  induction as generalizing held with
  | nil =>
    rw [Resumes] at has
    rwa [has]
  | cons a as ih =>
    cases a with
    | acquire => exact ih has
    | release => exact ih has
    | suspend u => exact ⟨has.1, ih has.2⟩
    | resume u => exact ih has
    | act e => exact ih has

lemma resumes_acts {t : τ} {held : List τ} (es : List ε) {as : List (Action τ ε)}
    (has : Resumes t held as) : Resumes t held (es.map Action.act ++ as) := by
  induction es with
  | nil => exact has
  | cons e es ih => exact ih

/-- Every suspended thread will be resumed, and no thread was suspended when it suspended another. -/
structure State.Resumable (s : State τ ε) : Prop where
  rest  : ∀ t, Resumes t (s.suspendedBy t) (s.rest t)
  other : ∀ p ∈ s.suspensions, p.2 ≠ p.1
  order : s.suspensions.Pairwise fun later earlier => earlier.2 ≠ later.1

lemma resumable_start {programs : τ → List (Action τ ε)} (h : ∀ t, Resumes t [] (programs t)) :
    (State.start programs).Resumable :=
  ⟨h, fun _ hp => absurd hp List.not_mem_nil, List.Pairwise.nil⟩

lemma filter_erase_self (l : List (τ × τ)) (t u : τ) :
    ((l.erase (t, u)).filter fun p => p.1 = t).map Prod.snd =
      ((l.filter fun p => p.1 = t).map Prod.snd).erase u := by
  induction l with
  | nil => rfl
  | cons p l ih =>
    by_cases hp : p = (t, u)
    · subst hp
      simp
    · rw [List.erase_cons_tail (by simpa using hp)]
      by_cases hfst : p.1 = t
      · have hsnd : p.2 ≠ u := fun hsnd => hp (Prod.ext hfst hsnd)
        rw [List.filter_cons_of_pos (by simpa using hfst),
          List.filter_cons_of_pos (by simpa using hfst), List.map_cons, List.map_cons,
          List.erase_cons_tail (by simpa using hsnd), ih]
      · rw [List.filter_cons_of_neg (by simpa using hfst),
          List.filter_cons_of_neg (by simpa using hfst), ih]

lemma filter_erase_of_ne (l : List (τ × τ)) {t v : τ} (u : τ) (h : v ≠ t) :
    (l.erase (t, u)).filter (fun p => p.1 = v) = l.filter fun p => p.1 = v := by
  induction l with
  | nil => rfl
  | cons p l ih =>
    by_cases hp : p = (t, u)
    · subst hp
      rw [List.erase_cons_head, List.filter_cons_of_neg (by simpa using Ne.symm h)]
    · rw [List.erase_cons_tail (by simpa using hp), List.filter_cons, List.filter_cons, ih]

lemma Steps.resumable {s s' : State τ ε} {t : τ} {a : Action τ ε} {as : List (Action τ ε)}
    (hfree : ¬ s.Suspended t) (hrest : s.rest t = a :: as) (hsteps : Steps s t as a s')
    (h : s.Resumable) : s'.Resumable := by
  have ht := h.rest t
  rw [hrest] at ht
  -- Only what the thread that steps has yet to do changes, and which threads it has suspended.
  have hothers : ∀ l : List (τ × τ), Resumes t ((l.filter fun p => p.1 = t).map Prod.snd) as →
      (∀ v ≠ t, (l.filter fun p => p.1 = v) = s.suspensions.filter fun p => p.1 = v) →
        ∀ v, Resumes v ((l.filter fun p => p.1 = v).map Prod.snd)
          (Function.update s.rest t as v) := by
    intro l hself hne v
    by_cases hv : v = t
    · subst hv
      rwa [Function.update_self]
    · rw [Function.update_of_ne hv, hne v hv]
      exact h.rest v
  cases hsteps with
  | acquire hlock => exact ⟨hothers _ ht fun _ _ => rfl, h.other, h.order⟩
  | release hlock => exact ⟨hothers _ ht fun _ _ => rfl, h.other, h.order⟩
  | act e => exact ⟨hothers _ ht fun _ _ => rfl, h.other, h.order⟩
  | suspend u =>
    refine ⟨hothers _ ?_ fun v hv => ?_, ?_, ?_⟩
    · -- what is suspended has yet to be resumed
      rw [List.filter_cons_of_pos (by simp)]
      exact ht.2
    · rw [List.filter_cons_of_neg (by simpa using Ne.symm hv)]
    · -- a thread does not suspend itself
      rw [List.forall_mem_cons]
      exact ⟨ht.1, h.other⟩
    · -- the thread that suspends was not suspended, so the order is kept
      rw [List.pairwise_cons]
      exact ⟨fun p hp heq => hfree ⟨p, hp, heq⟩, h.order⟩
  | resume u =>
    refine ⟨hothers _ ?_ fun v hv => filter_erase_of_ne _ u hv, ?_, ?_⟩
    · -- the thread resumed is the one it suspended last
      rw [filter_erase_self]
      exact ht
    · exact fun p hp => h.other p (List.mem_of_mem_erase hp)
    · exact h.order.sublist List.erase_sublist

/-- Whoever suspended a thread last is neither suspended nor done. -/
lemma State.Resumable.exists_running {s : State τ ε} (h : s.Resumable) {t : τ}
    (ht : s.Suspended t) : ∃ u, ¬ s.Suspended u ∧ s.rest u ≠ [] := by
  match hs : s.suspensions with
  | [] =>
    obtain ⟨p, hp, -⟩ := ht
    rw [hs] at hp
    cases hp
  | (u, v) :: l =>
    have hother := h.other (u, v) (hs ▸ List.mem_cons_self)
    have horder := h.order
    rw [hs, List.pairwise_cons] at horder
    refine ⟨u, ?_, fun hnil => ?_⟩
    · rintro ⟨p, hp, heq⟩
      rw [hs] at hp
      rcases List.mem_cons.mp hp with rfl | hp
      · exact hother heq
      · exact horder.1 p hp heq
    · have hrest := h.rest u
      rw [hnil, Resumes, State.suspendedBy, hs, List.filter_cons_of_pos (by simp)] at hrest
      cases hrest

/-! ### Stuck states -/

variable {P : ε → Bool}

/-- The thread that holds the lock is suspended, and all threads that are not wait for the lock, or
are done. -/
def State.Deadlocked (s : State τ ε) : Prop :=
  ∃ h, s.holder = some h ∧ s.Suspended h ∧
    ∀ t, ¬ s.Suspended t → s.rest t = [] ∨ ∃ as, s.rest t = .acquire :: as

omit [DecidableEq τ] in
lemma Locks.rest_ne_nil {as : List (Action τ ε)} (h : Locks P true as) : as ≠ [] := by
  rintro rfl
  cases h

/-- A thread that is neither suspended nor done can make a step, unless it waits for the lock. -/
lemma State.Locked.waits {s : State τ ε} (h : s.Locked P) {t : τ} (hfree : ¬ s.Suspended t)
    (hnone : s.step t = none) :
    s.rest t = [] ∨ (∃ as, s.rest t = .acquire :: as) ∧ s.holder ≠ none := by
  rcases (step_eq_none_iff hfree).mp hnone with hdone | hwaits | ⟨⟨as, hrest⟩, hholder⟩
  · exact Or.inl hdone
  · exact Or.inr hwaits
  · have hlock := h t
    rw [hrest] at hlock
    exact absurd (of_decide_eq_true hlock.1) hholder

/-- The threads are stuck before they are done exactly in a deadlock. -/
lemma stuck_iff_deadlocked {s : State τ ε} (hlocked : s.Locked P) (hresumable : s.Resumable) :
    s.Stuck ∧ ¬ s.Done ↔ s.Deadlocked := by
  constructor
  · -- nothing can be done, but something is left: the lock is held by a thread that stands still
    rintro ⟨hstuck, hnotDone⟩
    have hrunning : ∃ t, ¬ s.Suspended t ∧ s.rest t ≠ [] := by
      by_contra hnone
      refine hnotDone fun t => ?_
      by_contra hrest
      by_cases hsuspended : s.Suspended t
      · exact hnone (hresumable.exists_running hsuspended)
      · exact hnone ⟨t, hsuspended, hrest⟩
    obtain ⟨t, hfree, hrest⟩ := hrunning
    have hheld := (hlocked.waits hfree (hstuck t)).resolve_left hrest
    obtain ⟨h, hholder⟩ := Option.ne_none_iff_exists'.mp hheld.2
    refine ⟨h, hholder, ?_, fun u hu => (hlocked.waits hu (hstuck u)).imp_right And.left⟩
    by_contra hnot
    have hlock := hlocked h
    rw [decide_eq_true hholder] at hlock
    rcases hlocked.waits hnot (hstuck h) with hnil | ⟨⟨as, hacquire⟩, -⟩
    · exact hlock.rest_ne_nil hnil
    · rw [hacquire] at hlock
      cases hlock.1
  · -- the holder is suspended, and the others wait for it
    rintro ⟨h, hholder, hsuspended, hothers⟩
    refine ⟨fun t => ?_, fun hdone => ?_⟩
    · by_cases ht : s.Suspended t
      · rw [State.step, if_pos ht]
      · refine (step_eq_none_iff ht).mpr ((hothers t ht).imp_right fun hwaits => Or.inl ⟨hwaits, ?_⟩)
        rw [hholder]
        exact Option.some_ne_none h
    · have hlock := hlocked h
      rw [decide_eq_true hholder] at hlock
      exact hlock.rest_ne_nil (hdone h)

lemma resumable_of_run {programs : τ → List (Action τ ε)}
    (hprograms : ∀ t, Resumes t [] (programs t)) {schedule : List τ} {s : State τ ε}
    {trace : List (τ × Action τ ε)}
    (hrun : run State.step (.start programs) schedule = some (s, trace)) : s.Resumable := by
  refine run_invariant_start (P := fun s _ => s.Resumable) (resumable_start hprograms) ?_ hrun
  rintro s trace t s' o - hresumable hstep
  obtain ⟨hfree, a, as, hrest, rfl, hsteps⟩ := step_cases hstep
  exact hsteps.resumable hfree hrest hresumable

/-- In every state that is reached, the threads are stuck before they are done exactly if the thread
that holds the lock is suspended, and all others that are not wait for the lock. -/
theorem stuck_iff {programs : τ → List (Action τ ε)} (hlocks : ∀ t, Locks P false (programs t))
    (hresumes : ∀ t, Resumes t [] (programs t)) {schedule : List τ} {s : State τ ε}
    {trace : List (τ × Action τ ε)}
    (hrun : run State.step (.start programs) schedule = some (s, trace)) :
    s.Stuck ∧ ¬ s.Done ↔ s.Deadlocked :=
  stuck_iff_deadlocked (exists_order hlocks hrun).1 (resumable_of_run hresumes hrun)

/-! ### Threads that never go on -/

/-- The step neither takes or releases the lock, nor resumes a thread. -/
def Action.Passes : Action τ ε → Prop
  | .act _ | .suspend _ => True
  | _                   => False

/-- A thread holds the lock and has been suspended by one that still stands before the lock: it has
no more to do than some steps until it takes the lock. -/
structure State.Doomed (s : State τ ε) (t h : τ) (before behind : List (Action τ ε)) : Prop where
  holder    : s.holder = some h
  suspended : (t, h) ∈ s.suspensions
  rest      : ∃ left, left <:+ before ∧ s.rest t = left ++ .acquire :: behind

lemma State.Doomed.step {s s' : State τ ε} {t h u : τ} {before behind : List (Action τ ε)}
    {o : τ × Action τ ε} (hbefore : ∀ a ∈ before, a.Passes) (hdoomed : s.Doomed t h before behind)
    (hstep : s.step u = some (s', o)) : s'.Doomed t h before behind := by
  obtain ⟨hholder, hmem, left, hleft, hstands⟩ := hdoomed
  obtain ⟨hfree, a, as, hrest, -, hsteps⟩ := step_cases hstep
  have hne : h ≠ u := fun heq => hfree ⟨(t, h), hmem, heq⟩
  -- The thread that suspended the other passes one more step, or stands still.
  have hnext : a ≠ .acquire → (t = u → a.Passes) ∧
      ∃ left, left <:+ before ∧ Function.update s.rest u as t = left ++ .acquire :: behind := by
    intro hacquire
    by_cases ht : t = u
    · subst ht
      rw [Function.update_self]
      rw [hrest] at hstands
      cases left with
      | nil => exact absurd (List.cons.inj hstands).1 hacquire
      | cons b left =>
        obtain ⟨rfl, rfl⟩ := List.cons.inj hstands
        exact ⟨fun _ => hbefore a (hleft.subset List.mem_cons_self), left,
          (List.suffix_cons a left).trans hleft, rfl⟩
    · rw [Function.update_of_ne ht]
      exact ⟨fun heq => absurd heq ht, left, hleft, hstands⟩
  cases hsteps with
  | acquire hlock => cases hlock.symm.trans hholder
  | release hlock => exact absurd (Option.some.inj (hholder.symm.trans hlock)) hne
  | suspend v => exact ⟨hholder, List.mem_cons_of_mem _ hmem, (hnext nofun).2⟩
  | act e => exact ⟨hholder, hmem, (hnext nofun).2⟩
  | resume v =>
    obtain ⟨hpasses, hstands'⟩ := hnext nofun
    refine ⟨hholder, (List.mem_erase_of_ne fun heq => ?_).mpr hmem, hstands'⟩
    exact hpasses (Prod.mk.inj heq).1

/-- Neither of the two ever goes on, whatever the others do. -/
theorem State.Doomed.of_run {s s' : State τ ε} {t h : τ} {before behind : List (Action τ ε)}
    (hbefore : ∀ a ∈ before, a.Passes) (hdoomed : s.Doomed t h before behind) {schedule : List τ}
    {trace : List (τ × Action τ ε)} (hrun : run State.step s schedule = some (s', trace)) :
    s'.Doomed t h before behind :=
  run_invariant_start (P := fun s _ => s.Doomed t h before behind) hdoomed
    (fun _ _ _ _ _ _ hdoomed hstep => hdoomed.step hbefore hstep) hrun

/-! ### Threads that always can go on -/

/-- What was done, and what is left to do, are parts of the programs. -/
structure State.From (programs : τ → List (Action τ ε)) (s : State τ ε) : Prop where
  rest    : ∀ t, s.rest t <:+ programs t
  holder  : ∀ t, s.holder = some t → .acquire ∈ programs t
  suspend : ∀ p ∈ s.suspensions, .suspend p.2 ∈ programs p.1

lemma Steps.from {programs : τ → List (Action τ ε)} {s s' : State τ ε} {t : τ} {a : Action τ ε}
    {as : List (Action τ ε)} (hrest : s.rest t = a :: as) (hsteps : Steps s t as a s')
    (h : s.From programs) : s'.From programs := by
  have hmem : a ∈ programs t := (h.rest t).subset (hrest ▸ List.mem_cons_self)
  have hsuffix : ∀ u, s'.rest u <:+ programs u := by
    intro u
    rw [hsteps.rest_eq]
    by_cases hu : u = t
    · subst hu
      rw [Function.update_self]
      exact (List.suffix_cons a as).trans (hrest ▸ h.rest u)
    · rw [Function.update_of_ne hu]
      exact h.rest u
  cases hsteps with
  | acquire hlock => exact ⟨hsuffix, fun u hu => Option.some.inj hu ▸ hmem, h.suspend⟩
  | release hlock => exact ⟨hsuffix, fun _ hu => (Option.some_ne_none _ hu.symm).elim, h.suspend⟩
  | suspend u => exact ⟨hsuffix, h.holder, List.forall_mem_cons.mpr ⟨hmem, h.suspend⟩⟩
  | resume u =>
    exact ⟨hsuffix, h.holder, fun p hp => h.suspend p (List.mem_of_mem_erase hp)⟩
  | act e => exact ⟨hsuffix, h.holder, h.suspend⟩

lemma from_of_run {programs : τ → List (Action τ ε)} {schedule : List τ} {s : State τ ε}
    {trace : List (τ × Action τ ε)}
    (hrun : run State.step (.start programs) schedule = some (s, trace)) :
    s.From programs := by
  refine run_invariant_start (P := fun s _ => s.From programs)
    ⟨fun _ => List.suffix_refl _, fun _ h => (Option.some_ne_none _ h.symm).elim,
      fun _ hp => absurd hp List.not_mem_nil⟩ ?_ hrun
  rintro s trace t s' o - hfrom hstep
  obtain ⟨-, a, as, hrest, -, hsteps⟩ := step_cases hstep
  exact hsteps.from hrest hfrom

/-- If no thread that takes the lock is ever suspended, there is no deadlock. -/
theorem exists_step {programs : τ → List (Action τ ε)} (hlocks : ∀ t, Locks P false (programs t))
    (hresumes : ∀ t, Resumes t [] (programs t))
    (htargets : ∀ t u, .suspend u ∈ programs t → .acquire ∉ programs u) {schedule : List τ}
    {s : State τ ε} {trace : List (τ × Action τ ε)}
    (hrun : run State.step (.start programs) schedule = some (s, trace))
    (hnotDone : ¬ s.Done) : ∃ t s' o, s.step t = some (s', o) := by
  by_contra hnone
  have hstuck : s.Stuck := by
    intro t
    by_contra hsome
    obtain ⟨⟨s', o⟩, hstep⟩ := Option.ne_none_iff_exists'.mp hsome
    exact hnone ⟨t, s', o, hstep⟩
  obtain ⟨h, hholder, ⟨p, hp, rfl⟩, -⟩ := (stuck_iff hlocks hresumes hrun).mp ⟨hstuck, hnotDone⟩
  have hfrom := from_of_run hrun
  exact htargets p.1 p.2 (hfrom.suspend p hp) (hfrom.holder p.2 hholder)

/-- The number of steps that some threads have yet to make. -/
def State.remaining (threads : Finset τ) (s : State τ ε) : ℕ := ∑ t ∈ threads, (s.rest t).length

lemma remaining_step {threads : Finset τ} {s s' : State τ ε} {t : τ} {o : τ × Action τ ε}
    (ht : t ∈ threads) (hstep : s.step t = some (s', o)) :
    s'.remaining threads < s.remaining threads := by
  obtain ⟨-, a, as, hrest, -, hsteps⟩ := step_cases hstep
  rw [State.remaining, State.remaining, hsteps.rest_eq]
  refine Finset.sum_lt_sum (fun u _ => ?_) ⟨t, ht, ?_⟩
  · by_cases hu : u = t
    · subst hu
      rw [Function.update_self, hrest]
      exact Nat.le_succ _
    · rw [Function.update_of_ne hu]
  · rw [Function.update_self, hrest]
    exact Nat.lt_succ_self _

/-- Then finitely many threads can always be run until all are done. -/
theorem exists_completion {programs : τ → List (Action τ ε)} {threads : Finset τ}
    (hthreads : ∀ t ∉ threads, programs t = []) (hlocks : ∀ t, Locks P false (programs t))
    (hresumes : ∀ t, Resumes t [] (programs t))
    (htargets : ∀ t u, .suspend u ∈ programs t → .acquire ∉ programs u) {schedule : List τ}
    {s : State τ ε} {trace : List (τ × Action τ ε)}
    (hrun : run State.step (.start programs) schedule = some (s, trace)) :
    ∃ schedule' s' trace', run State.step s schedule' = some (s', trace') ∧ s'.Done := by
  -- The induction is on the number of steps that are left.
  induction hn : s.remaining threads using Nat.strong_induction_on generalizing s schedule trace with
  | _ n ih =>
    by_cases hdone : s.Done
    · exact ⟨[], s, [], rfl, hdone⟩
    obtain ⟨t, s', o, hstep⟩ := exists_step hlocks hresumes htargets hrun hdone
    have ht : t ∈ threads := by
      by_contra hnot
      obtain ⟨-, a, as, hrest, -⟩ := step_cases hstep
      have hsuffix := (from_of_run hrun).rest t
      rw [hthreads t hnot, hrest, List.suffix_nil] at hsuffix
      cases hsuffix
    have hrun' := run_concat.mpr ⟨s, trace, o, hrun, hstep, rfl⟩
    obtain ⟨schedule', s'', trace', hrest, hdone'⟩ :=
      ih _ (hn ▸ remaining_step ht hstep) hrun' rfl
    refine ⟨t :: schedule', s'', o :: trace', ?_, hdone'⟩
    rw [run, hstep]
    simp only [hrest, Option.map_some]

end Threads
