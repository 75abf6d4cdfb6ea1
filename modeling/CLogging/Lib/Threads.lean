import CLogging.Lib.Machine
import Mathlib.Algebra.BigOperators.Group.Finset.Basic

/-!
# Threads that share a lock

Threads run in any order, one step at a time. A thread waits for the lock until it is free, and may
suspend other threads, which stand still at once and until they are resumed.
-/

namespace Threads

open Machine

variable {τ ε : Type*}

/-- What a thread does in one step. -/
inductive Action (τ ε : Type*) where
  | acquire
  | release
  | suspend (t : τ)
  | resume (t : τ)
  | act (e : ε)
  deriving DecidableEq

/-- What every thread has yet to do, the thread that holds the lock, and which thread has suspended
which, the latest first. -/
structure State (τ ε : Type*) where
  rest        : τ → List (Action τ ε)
  holder      : Option τ
  suspensions : List (τ × τ)

/-- Before the first step. -/
def State.start (programs : τ → List (Action τ ε)) : State τ ε := ⟨programs, none, []⟩

def State.Suspended (s : State τ ε) (t : τ) : Prop := ∃ p ∈ s.suspensions, p.2 = t

/-- Every thread has done all it had to do. -/
def State.Done (s : State τ ε) : Prop := ∀ t, s.rest t = []

/-! ### Programs -/

section Programs

variable (P : ε → Bool)

/-- The thread takes the lock only if it does not hold it, releases it in the end, does what is
guarded only while it holds it, and suspends and resumes threads only while it does not. -/
def Locks : Bool → List (Action τ ε) → Prop
  | held, []               => held = false
  | held, .acquire :: as   => held = false ∧ Locks true as
  | held, .release :: as   => held = true ∧ Locks false as
  | held, .suspend _ :: as => held = false ∧ Locks held as
  | held, .resume _ :: as  => held = false ∧ Locks held as
  | held, .act e :: as     => (P e → held = true) ∧ Locks held as

/-- The guarded events before the lock is released. -/
def inside : List (Action τ ε) → List ε
  | .release :: _ => []
  | .act e :: as  => if P e then e :: inside as else inside as
  | _ :: as       => inside as
  | []            => []

/-- The guarded events of every critical section that is entered. -/
def sections : List (Action τ ε) → List (List ε)
  | .acquire :: as => inside P as :: sections as
  | _ :: as        => sections as
  | []             => []

variable {P}

lemma locks_append {held : Bool} {as bs : List (Action τ ε)} (has : Locks P held as)
    (hbs : Locks P false bs) : Locks P held (as ++ bs) := by
  induction as generalizing held with
  | nil =>
    rw [Locks] at has
    rwa [has]
  | cons a as ih =>
    cases a with
    | acquire => exact ⟨has.1, ih has.2⟩
    | release => exact ⟨has.1, ih has.2⟩
    | suspend u => exact ⟨has.1, ih has.2⟩
    | resume u => exact ⟨has.1, ih has.2⟩
    | act e => exact ⟨has.1, ih has.2⟩

lemma locks_acts {held : Bool} {es : List ε} {as : List (Action τ ε)}
    (hes : ∀ e ∈ es, P e → held = true) (has : Locks P held as) :
    Locks P held (es.map Action.act ++ as) := by
  induction es with
  | nil => exact has
  | cons e es ih =>
    rw [List.forall_mem_cons] at hes
    exact ⟨hes.1, ih hes.2⟩

lemma inside_acts (es : List ε) (as : List (Action τ ε)) :
    inside P (es.map Action.act ++ as) = es.filter P ++ inside P as := by
  induction es with
  | nil => rfl
  | cons e es ih =>
    rw [List.map_cons, List.cons_append, inside, ih, List.filter_cons]
    split_ifs
    · rfl
    · rfl

lemma sections_acts (es : List ε) (as : List (Action τ ε)) :
    sections P (es.map Action.act ++ as) = sections P as := by
  induction es with
  | nil => rfl
  | cons e es ih => exact ih

/-- A section that is left is not continued by the next program. -/
lemma inside_append {as : List (Action τ ε)} (h : Locks P true as) (bs : List (Action τ ε)) :
    inside P (as ++ bs) = inside P as := by
  induction as with
  | nil => cases h
  | cons a as ih =>
    cases a with
    | acquire => cases h.1
    | release => rfl
    | suspend u => cases h.1
    | resume u => cases h.1
    | act e =>
      rw [List.cons_append, inside, inside, ih h.2]

lemma sections_append {held : Bool} {as : List (Action τ ε)} (h : Locks P held as)
    (bs : List (Action τ ε)) : sections P (as ++ bs) = sections P as ++ sections P bs := by
  induction as generalizing held with
  | nil => rfl
  | cons a as ih =>
    cases a with
    | acquire => rw [List.cons_append, sections, sections, inside_append h.2, ih h.2, List.cons_append]
    | release => exact ih h.2
    | suspend u => exact ih h.2
    | resume u => exact ih h.2
    | act e => exact ih h.2

end Programs

/-! ### Steps -/

variable [DecidableEq τ]

instance (s : State τ ε) (t : τ) : Decidable (s.Suspended t) :=
  inferInstanceAs (Decidable (∃ p ∈ s.suspensions, p.2 = t))

/-- What an action does to the lock and to other threads. `none` where it has to wait. -/
def State.perform (s : State τ ε) (t : τ) : Action τ ε → Option (State τ ε)
  | .acquire   => if s.holder = none then some { s with holder := some t } else none
  | .release   => if s.holder = some t then some { s with holder := none } else none
  | .suspend u => some { s with suspensions := (t, u) :: s.suspensions }
  | .resume u  => some { s with suspensions := s.suspensions.erase (t, u) }
  | .act _     => some s

/-- One step of a thread. `none` while it is suspended or has to wait, and when it is done. -/
def State.step (s : State τ ε) (t : τ) : Option (State τ ε × τ × Action τ ε) :=
  if s.Suspended t then none
  else
    match s.rest t with
    | []      => none
    | a :: as =>
      (s.perform t a).map fun s' => ({ s' with rest := Function.update s.rest t as }, t, a)

/-- No thread can make a step. -/
def State.Stuck (s : State τ ε) : Prop := ∀ t, s.step t = none

/-- What a step of a thread can be. -/
inductive Steps (s : State τ ε) (t : τ) (as : List (Action τ ε)) : Action τ ε → State τ ε → Prop
  | acquire : s.holder = none →
      Steps s t as .acquire ⟨Function.update s.rest t as, some t, s.suspensions⟩
  | release : s.holder = some t →
      Steps s t as .release ⟨Function.update s.rest t as, none, s.suspensions⟩
  | suspend (u : τ) :
      Steps s t as (.suspend u) ⟨Function.update s.rest t as, s.holder, (t, u) :: s.suspensions⟩
  | resume (u : τ) :
      Steps s t as (.resume u)
        ⟨Function.update s.rest t as, s.holder, s.suspensions.erase (t, u)⟩
  | act (e : ε) : Steps s t as (.act e) ⟨Function.update s.rest t as, s.holder, s.suspensions⟩

lemma step_cases {s s' : State τ ε} {t : τ} {o : τ × Action τ ε} (h : s.step t = some (s', o)) :
    ¬ s.Suspended t ∧ ∃ a as, s.rest t = a :: as ∧ o = (t, a) ∧ Steps s t as a s' := by
  rw [State.step] at h
  split_ifs at h with hsuspended
  refine ⟨hsuspended, ?_⟩
  match hrest : s.rest t with
  | [] =>
    rw [hrest] at h
    cases h
  | a :: as =>
    rw [hrest] at h
    obtain ⟨s'', hperform, heq⟩ := Option.map_eq_some_iff.mp h
    obtain ⟨rfl, rfl⟩ := Prod.mk.inj heq
    refine ⟨a, as, rfl, rfl, ?_⟩
    cases a with
    | acquire =>
      rw [State.perform] at hperform
      split_ifs at hperform with hfree
      obtain rfl := Option.some.inj hperform
      exact .acquire hfree
    | release =>
      rw [State.perform] at hperform
      split_ifs at hperform with hheld
      obtain rfl := Option.some.inj hperform
      exact .release hheld
    | suspend u =>
      obtain rfl := Option.some.inj hperform
      exact .suspend u
    | resume u =>
      obtain rfl := Option.some.inj hperform
      exact .resume u
    | act e =>
      obtain rfl := Option.some.inj hperform
      exact .act e

lemma Steps.rest_eq {s s' : State τ ε} {t : τ} {as : List (Action τ ε)} {a : Action τ ε}
    (h : Steps s t as a s') : s'.rest = Function.update s.rest t as := by
  cases h <;> rfl

/-- A thread that is not suspended cannot make a step only if it is done, or waits for the lock, or
releases a lock it does not hold. -/
lemma step_eq_none_iff {s : State τ ε} {t : τ} (h : ¬ s.Suspended t) :
    s.step t = none ↔ s.rest t = [] ∨
      (∃ as, s.rest t = .acquire :: as) ∧ s.holder ≠ none ∨
      (∃ as, s.rest t = .release :: as) ∧ s.holder ≠ some t := by
  rw [State.step, if_neg h]
  match s.rest t with
  | [] => simp
  | a :: as =>
    cases a <;> simp [State.perform]

/-! ### Critical sections -/

section Sections

variable (P : ε → Bool)

/-- The guarded events of a trace. -/
def guarded (trace : List (τ × Action τ ε)) : List (τ × ε) :=
  trace.filterMap fun
    | (t, .act e) => if P e then some (t, e) else none
    | _           => none

/-- The guarded events that the thread in its critical section has yet to do. -/
def State.pending (s : State τ ε) : List (τ × ε) :=
  match s.holder with
  | none   => []
  | some h => (inside P (s.rest h)).map fun e => (h, e)

/-- The events of some critical sections one after the other. -/
def expand (order : List (τ × List ε)) : List (τ × ε) :=
  order.flatMap fun x => x.2.map fun e => (x.1, e)

/-- The critical sections of a thread. -/
def sectionsOf (order : List (τ × List ε)) (t : τ) : List (List ε) :=
  (order.filter fun x => x.1 = t).map Prod.snd

/-- What every thread has yet to do fits the lock. -/
def State.Locked (s : State τ ε) : Prop :=
  ∀ t, Locks P (decide (s.holder = some t)) (s.rest t)

lemma locked_start {programs : τ → List (Action τ ε)} (h : ∀ t, Locks P false (programs t)) :
    (State.start programs).Locked P := h

variable {P}

lemma Steps.locked {s s' : State τ ε} {t : τ} {a : Action τ ε} {as : List (Action τ ε)}
    (hrest : s.rest t = a :: as) (hsteps : Steps s t as a s') (h : s.Locked P) : s'.Locked P := by
  intro u
  have hu := h u
  rw [hsteps.rest_eq]
  by_cases hut : u = t
  · subst hut
    rw [Function.update_self]
    rw [hrest] at hu
    cases hsteps with
    | acquire hfree =>
      rw [decide_eq_true rfl]
      exact hu.2
    | release hheld =>
      rw [decide_eq_false (Option.some_ne_none u).symm]
      exact hu.2
    | suspend v => exact hu.2
    | resume v => exact hu.2
    | act e => exact hu.2
  · rw [Function.update_of_ne hut]
    cases hsteps with
    | acquire hfree =>
      rw [decide_eq_false (show ¬ some t = some u from fun heq => hut (Option.some.inj heq).symm)]
      rwa [hfree, decide_eq_false (Option.some_ne_none u).symm] at hu
    | release hheld =>
      rw [decide_eq_false (Option.some_ne_none u).symm]
      rwa [hheld, decide_eq_false
        (show ¬ some t = some u from fun heq => hut (Option.some.inj heq).symm)] at hu
    | suspend v => exact hu
    | resume v => exact hu
    | act e => exact hu

/-- The order of the critical sections accounts for what was done and for what is left to do. -/
structure Serializes (programs : τ → List (Action τ ε)) (order : List (τ × List ε))
    (s : State τ ε) (trace : List (τ × Action τ ε)) : Prop where
  expand_eq : expand order = guarded P trace ++ s.pending P
  sections_eq : ∀ t, sectionsOf order t ++ sections P (s.rest t) = sections P (programs t)

lemma serializes_start (programs : τ → List (Action τ ε)) :
    Serializes (P := P) programs [] (.start programs) [] :=
  ⟨rfl, fun _ => rfl⟩

omit [DecidableEq τ] in
lemma guarded_concat (trace : List (τ × Action τ ε)) (o : τ × Action τ ε) :
    guarded P (trace ++ [o]) = guarded P trace ++ guarded P [o] := by
  rw [guarded, guarded, guarded, List.filterMap_append]

omit [DecidableEq τ] in
lemma pending_of_free {s : State τ ε} (h : s.holder = none) : s.pending P = [] := by
  rw [State.pending, h]

omit [DecidableEq τ] in
lemma pending_of_holder {s : State τ ε} {t : τ} (h : s.holder = some t) :
    s.pending P = (inside P (s.rest t)).map fun e => (t, e) := by
  rw [State.pending, h]

/-- A thread that does not hold the lock leaves what is pending as it is. -/
lemma pending_update {s : State τ ε} {t : τ} (h : s.holder ≠ some t) (as : List (Action τ ε))
    (suspensions : List (τ × τ)) :
    State.pending P ⟨Function.update s.rest t as, s.holder, suspensions⟩ = s.pending P := by
  match hs : s.holder with
  | none => rw [pending_of_free hs, pending_of_free rfl]
  | some u =>
    have hut : u ≠ t := fun heq => h (hs.trans (congrArg some heq))
    rw [pending_of_holder hs, pending_of_holder rfl]
    simp only [Function.update_of_ne hut]

lemma sectionsOf_concat (order : List (τ × List ε)) (t u : τ) (es : List ε) :
    sectionsOf (order ++ [(t, es)]) u =
      sectionsOf order u ++ if t = u then [es] else [] := by
  rw [sectionsOf, sectionsOf, List.filter_append, List.map_append]
  by_cases h : t = u
  · rw [if_pos h, List.filter_cons_of_pos (by simpa using h)]
    rfl
  · rw [if_neg h, List.filter_cons_of_neg (by simpa using h)]
    rfl

/-- A step outside of the lock's code. -/
lemma Serializes.step_act {programs : τ → List (Action τ ε)} {order : List (τ × List ε)}
    {s s' : State τ ε} {trace : List (τ × Action τ ε)} {t : τ} {a : Action τ ε}
    {as : List (Action τ ε)} (h : Serializes (P := P) programs order s trace)
    (hrest : s.rest t = a :: as) (hrest' : s'.rest = Function.update s.rest t as)
    (hsections : sections P (a :: as) = sections P as)
    (hpending : s.pending P = guarded P [(t, a)] ++ s'.pending P) :
    Serializes (P := P) programs order s' (trace ++ [(t, a)]) := by
  refine ⟨?_, fun u => ?_⟩
  · rw [h.expand_eq, guarded_concat, hpending, List.append_assoc]
  · rw [← h.sections_eq u, hrest']
    by_cases hut : u = t
    · subst hut
      rw [Function.update_self, hrest, hsections]
    · rw [Function.update_of_ne hut]

/-- One step continues the order: a thread that takes the lock is the next. -/
lemma Serializes.step {programs : τ → List (Action τ ε)} {order : List (τ × List ε)}
    {s s' : State τ ε} {trace : List (τ × Action τ ε)} {t : τ} {a : Action τ ε}
    {as : List (Action τ ε)} (h : Serializes (P := P) programs order s trace)
    (hlocked : s.Locked P) (hrest : s.rest t = a :: as) (hsteps : Steps s t as a s') :
    ∃ order', Serializes (P := P) programs order' s' (trace ++ [(t, a)]) := by
  have hlock := hlocked t
  rw [hrest] at hlock
  cases hsteps with
  | acquire hfree =>
    refine ⟨order ++ [(t, inside P as)], ?_, fun u => ?_⟩
    · have hexpand := h.expand_eq
      rw [pending_of_free hfree, List.append_nil] at hexpand
      rw [pending_of_holder rfl, guarded_concat, expand, List.flatMap_append, ← expand, hexpand]
      simp [guarded]
    · rw [← h.sections_eq u, sectionsOf_concat]
      by_cases hut : u = t
      · subst hut
        simp [hrest, sections]
      · simp [Ne.symm hut, Function.update_of_ne hut]
  | release hheld =>
    refine ⟨order, h.step_act hrest rfl rfl ?_⟩
    rw [pending_of_holder hheld, pending_of_free rfl, hrest]
    rfl
  | suspend u =>
    refine ⟨order, h.step_act hrest rfl rfl ?_⟩
    exact (pending_update (of_decide_eq_false hlock.1) _ _).symm
  | resume u =>
    refine ⟨order, h.step_act hrest rfl rfl ?_⟩
    exact (pending_update (of_decide_eq_false hlock.1) _ _).symm
  | act e =>
    refine ⟨order, h.step_act hrest rfl rfl ?_⟩
    by_cases hheld : s.holder = some t
    · have hinside : s.pending P = (inside P (.act e :: as)).map fun e => (t, e) := by
        rw [pending_of_holder hheld, hrest]
      have hinside' : State.pending P ⟨Function.update s.rest t as, s.holder, s.suspensions⟩ =
          (inside P as).map fun e => (t, e) := by
        rw [State.pending, hheld]
        simp only [Function.update_self]
      rw [hinside, hinside', inside, guarded]
      by_cases he : P e
      · simp [he]
      · simp [he]
    · have he : ¬ P e := fun he => hheld (of_decide_eq_true (hlock.1 he))
      rw [pending_update hheld]
      simp [guarded, he]

/-- What is guarded happens as if every critical section were run as a whole, one after the other:
there is an order of the sections that were entered, in which those of each thread come in the order
of its program, and the guarded events are those of the sections in this order, up to those that the
thread in its section has yet to do. -/
theorem exists_order {programs : τ → List (Action τ ε)} (hprograms : ∀ t, Locks P false (programs t))
    {schedule : List τ} {s : State τ ε} {trace : List (τ × Action τ ε)}
    (hrun : run State.step (.start programs) schedule = some (s, trace)) :
    s.Locked P ∧ ∃ order, Serializes (P := P) programs order s trace := by
  refine run_invariant_start (P := fun s trace => s.Locked P ∧
    ∃ order, Serializes (P := P) programs order s trace)
    ⟨locked_start P hprograms, [], serializes_start programs⟩ ?_ hrun
  rintro s trace t s' o - ⟨hlocked, order, horder⟩ hstep
  obtain ⟨-, a, as, hrest, rfl, hsteps⟩ := step_cases hstep
  exact ⟨hsteps.locked hrest hlocked, horder.step hlocked hrest hsteps⟩

end Sections

end Threads
