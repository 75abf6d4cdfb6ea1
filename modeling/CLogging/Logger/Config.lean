import CLogging.Logger.Basic

/-!
# Changing the configuration

`logger_set_config` takes effect at once, whether or not the logger is initialised. Everything stays
paired as long as the sinks that are configured when it matters are those that were initialised.
-/

namespace CLogging

open C Pairing Machine

variable {α : Type*}

/-- Where a call uses the configured sinks, these were initialised: some of them where it logs, and
all of them, in any order, where it de-initialises them. -/
def LoggerCall.Respects (initialised : List α) (l : Logger α) : LoggerCall α → Prop
  | .log    => l.state = .initialized → ∀ s ∈ l.sinks, s ∈ initialised
  | .deinit => l.state = .initialized → u32 (l.initCount - 1) = 0 → l.sinks.Perm initialised
  | _       => True

/-- The sinks that were initialised last. -/
def Logger.nextInitialised (l : Logger α) (initialised : List α) : LoggerOutput α → List α
  | .init true _ => if l.state = .notInitialized then l.sinks else initialised
  | _            => initialised

/-- Runs of such calls, from a logger with the given sinks: the state reached, the sinks that were
initialised last, and the outputs. -/
inductive RespectfulRun (sinks : List α) : Logger α → List α → List (LoggerOutput α) → Prop
  | start : RespectfulRun sinks ⟨.notInitialized, 0, sinks⟩ [] []
  | step {l l' : Logger α} {initialised : List α} {outputs : List (LoggerOutput α)}
      {c : LoggerCall α} {o : LoggerOutput α} :
      RespectfulRun sinks l initialised outputs → c.Respects initialised l →
        l.step c = some (l', o) →
          RespectfulRun sinks l' (l.nextInitialised initialised o) (outputs ++ [o])

variable [DecidableEq α]

/-- What is held after some calls: the thread stack module and the sinks that were initialised, or
nothing. -/
def Logger.Holds (l : Logger α) (initialised : List α) (outputs : List (LoggerOutput α)) : Prop :=
  exec 0 (allUses outputs) =
    some (match l.state with
      | .notInitialized => 0
      | .initialized    => heldWith initialised)

/-- What one call does to what is held: it is what it should be afterwards exactly if the call
respects the sinks that were initialised. -/
lemma Logger.Holds.step_iff {l l' : Logger α} {initialised : List α}
    {outputs : List (LoggerOutput α)} (h : l.Holds initialised outputs) {c : LoggerCall α}
    {o : LoggerOutput α} (hstep : l.step c = some (l', o)) :
    l'.Holds (l.nextInitialised initialised o) (outputs ++ [o]) ↔ c.Respects initialised l := by
  rw [Logger.Holds] at h
  rw [Logger.Holds, allUses_concat, exec_append, h, Option.bind_some]
  match c with
  | .setConfig sinks =>
    -- the uses are not touched: what is configured now was not initialised
    obtain ⟨rfl, rfl⟩ := Prod.mk.inj (Option.some.inj hstep)
    exact iff_of_true rfl trivial
  | .log =>
    obtain ⟨uses, hlog, heq⟩ := Option.map_eq_some_iff.mp hstep
    obtain ⟨rfl, rfl⟩ := Prod.mk.inj heq
    rw [loggerLog] at hlog
    match hstate : l.state with
    | .notInitialized =>
      -- LOGGER_LOG aborts
      rw [hstate] at hlog
      cases hlog
    | .initialized =>
      rw [hstate] at hlog
      obtain rfl := Option.some.inj hlog
      simp only [LoggerOutput.uses, Logger.nextInitialised, exec_use_iff, List.forall_mem_map,
        mem_heldWith]
      exact ⟨fun hall _ => hall, fun hall => hall hstate⟩
  | .init threadStackOk ok =>
    obtain ⟨rfl, rfl⟩ := Prod.mk.inj (Option.some.inj hstep)
    refine iff_of_true ?_ trivial
    rcases loggerInit_cases threadStackOk ok l with ⟨hinit, heq⟩ | ⟨hnot, heq⟩ |
        ⟨hnot, n, s, heq⟩ | ⟨hnot, heq⟩
    · rw [heq, Logger.nextInitialised, hinit]
      rfl
    · simp only [heq, hnot]
      rfl
    · -- what was taken is given back
      simp only [heq, hnot]
      exact exec_undone 0 _ s
    · -- the sinks that are configured now are held
      rw [heq, Logger.nextInitialised, hnot]
      exact exec_initialised l.sinks
  | .deinit =>
    obtain ⟨rfl, rfl⟩ := Prod.mk.inj (Option.some.inj hstep)
    rcases loggerDeinit_cases l with ⟨hnot, heq⟩ | ⟨hinit, hmore, heq⟩ | ⟨hinit, hlast, heq⟩
    · rw [heq, hnot]
      refine iff_of_true rfl fun hinit => ?_
      exact absurd (hnot.symm.trans hinit) (by decide)
    · rw [heq, hinit]
      exact iff_of_true rfl fun _ hlast => absurd hlast hmore
    · -- the sinks configured now are given back, and they have to be the ones held
      rw [heq, hinit]
      simp only [LoggerOutput.uses]
      rw [exec_deinitialised_iff]
      exact ⟨fun hperm _ _ => hperm, fun hperm => hperm hinit hlast⟩

omit [DecidableEq α] in
/-- The call that brings the counter to zero releases everything once. -/
lemma uses_of_last_deinit {l l' : Logger α} {initialised : List α} {uses : List (Use (Resource α))}
    (hrespects : LoggerCall.deinit.Respects initialised l)
    (hstep : l.step .deinit = some (l', .deinit uses)) (hinit : l.state = .initialized)
    (hstate : l'.state = .notInitialized) :
    uses.Perm ((.threadStack :: initialised.map Resource.sink).map Use.release) := by
  obtain ⟨rfl, huses⟩ := Prod.mk.inj (Option.some.inj hstep)
  obtain rfl := LoggerOutput.deinit.inj huses
  rcases loggerDeinit_cases l with ⟨hnot, -⟩ | ⟨-, -, heq⟩ | ⟨-, hlast, heq⟩
  · exact absurd (hnot.symm.trans hinit) (by decide)
  · rw [heq] at hstate
    exact absurd (hstate.symm.trans hinit) (by decide)
  · rw [heq, deinitSinks, List.map_cons]
    refine (List.perm_append_singleton _ _).trans (.cons _ ?_)
    exact ((hrespects hinit hlast).map Resource.sink).map Use.release

/-- In every run whose calls respect the sinks that were initialised, a sink is logged to and
de-initialised only while it is held. While the logger is initialised, what is held is what was
initialised; the call that brings the counter to zero releases all of it once, and then everything
has been de-initialised as often as it was initialised. -/
theorem holds_of_respectfulRun {sinks : List α} {l : Logger α} {initialised : List α}
    {outputs : List (LoggerOutput α)} (h : RespectfulRun sinks l initialised outputs) :
    l.Holds initialised outputs ∧
    (l.state = .notInitialized →
      ∀ r, (allUses outputs).count (.acquire r) = (allUses outputs).count (.release r)) ∧
    ∀ l' uses, LoggerCall.deinit.Respects initialised l → l.step .deinit = some (l', .deinit uses) →
      l.state = .initialized → l'.state = .notInitialized →
        uses.Perm ((.threadStack :: initialised.map Resource.sink).map Use.release) := by
  have hholds : l.Holds initialised outputs := by
    induction h with
    | start => rfl
    | step _ hrespects hstep ih => exact (ih.step_iff hstep).mpr hrespects
  refine ⟨hholds, fun hstate r => ?_, fun l' uses => uses_of_last_deinit⟩
  rw [Logger.Holds, hstate] at hholds
  have hcount := count_of_exec hholds r
  rw [Multiset.count_zero, Nat.zero_add, Nat.zero_add] at hcount
  exact hcount.symm

/-- The sinks are switched off and on again while the logger is initialised. -/
theorem holds_of_respectfulRun_sample : ∃ l outputs,
    RespectfulRun [0, 1] l [0, 1] outputs ∧ l.Holds [0, 1] outputs ∧
      l.state = .notInitialized ∧ (allUses outputs).length = 6 := by
  have hstart : RespectfulRun [0, 1] ⟨.notInitialized, 0, [0, 1]⟩ [] [] := .start
  have hinit := hstart.step (c := .init true fun _ => true) trivial rfl
  have hoff := hinit.step (c := .setConfig []) trivial rfl
  have hlog := hoff.step (c := .log) (fun _ s hs => absurd hs List.not_mem_nil) rfl
  have hon := hlog.step (c := .setConfig [1, 0]) trivial rfl
  have hdeinit := hon.step (c := .deinit) (fun _ _ => List.Perm.swap 0 1 []) rfl
  exact ⟨_, _, hdeinit, (holds_of_respectfulRun hdeinit).1, rfl, rfl⟩

/-- If other sinks are configured between `logger_init` and `logger_deinit`, a sink is de-initialised
that was never initialised, and the one that was stays initialised. -/
theorem not_paired_setConfig : ∃ l outputs,
    run Logger.step ⟨.notInitialized, 0, [0]⟩ [.init true (fun _ => true), .setConfig [1], .deinit] =
        some (l, outputs) ∧ l.state = .notInitialized ∧
      exec 0 (allUses outputs) = none ∧
      (allUses outputs).count (.acquire (.sink 0)) = 1 ∧
      (allUses outputs).count (.release (.sink 0)) = 0 :=
  ⟨_, _, rfl, rfl, by decide, by decide, by decide⟩

end CLogging
