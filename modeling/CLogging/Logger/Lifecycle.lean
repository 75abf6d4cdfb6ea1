import CLogging.Logger.Basic

/-!
# The lifecycle of the logger

As long as the configuration stays the same, everything is initialised exactly while the logger is,
and a failed `logger_init` leaves no trace.
-/

namespace CLogging

open C Pairing Machine

variable {α : Type*}

/-- The calls that leave the configuration alone and do not log. -/
def LoggerCall.IsLifecycle : LoggerCall α → Prop
  | .init _ _ | .deinit   => True
  | .setConfig _ | .log   => False

/-! ### A failed call -/

/-- Loggers that differ at most in a counter that is not used. -/
structure Logger.Alike (l l' : Logger α) : Prop where
  state_eq : l.state = l'.state
  sinks_eq : l.sinks = l'.sinks
  count_eq : l.state = .initialized → l.initCount = l'.initCount

lemma Logger.Alike.refl (l : Logger α) : l.Alike l := ⟨rfl, rfl, fun _ => rfl⟩

/-- A logger that is initialised is alike only to itself. -/
lemma Logger.Alike.eq_of_initialized {l l' : Logger α} (h : l.Alike l')
    (hstate : l.state = .initialized) : l = l' := by
  obtain ⟨state, count, sinks⟩ := l
  obtain ⟨state', count', sinks'⟩ := l'
  obtain rfl := h.state_eq
  obtain rfl := h.sinks_eq
  obtain rfl := h.count_eq hstate
  rfl

lemma loggerInit_alike (threadStackOk : Bool) (ok : ℕ → Bool) (n m : ℕ) (sinks : List α) :
    (loggerInit threadStackOk ok ⟨.notInitialized, n, sinks⟩).2 =
        (loggerInit threadStackOk ok ⟨.notInitialized, m, sinks⟩).2 ∧
      (loggerInit threadStackOk ok ⟨.notInitialized, n, sinks⟩).1.Alike
        (loggerInit threadStackOk ok ⟨.notInitialized, m, sinks⟩).1 := by
  cases threadStackOk with
  | false => exact ⟨rfl, rfl, rfl, fun hinit => nomatch hinit⟩
  | true => exact ⟨rfl, .refl _⟩

/-- No call tells such loggers apart. -/
lemma Logger.Alike.step {l l' : Logger α} (h : l.Alike l') (c : LoggerCall α) :
    (l.step c = none ∧ l'.step c = none) ∨
      ∃ t t' o, l.step c = some (t, o) ∧ l'.step c = some (t', o) ∧ t.Alike t' := by
  match hstate : l.state with
  | .initialized =>
    obtain rfl := h.eq_of_initialized hstate
    match hstep : l.step c with
    | none => exact Or.inl ⟨rfl, rfl⟩
    | some (t, o) => exact Or.inr ⟨t, t, o, rfl, rfl, .refl t⟩
  | .notInitialized =>
    have hstate' := h.state_eq ▸ hstate
    match c with
    | .setConfig sinks =>
      refine Or.inr ⟨_, _, _, rfl, rfl, h.state_eq, rfl, fun hinit => ?_⟩
      exact h.count_eq hinit
    | .deinit =>
      refine Or.inr ⟨l, l', .deinit [], ?_, ?_, h⟩
      · -- nothing to deinitialise: both return at once
        rw [Logger.step, loggerDeinit, hstate]
      · rw [Logger.step, loggerDeinit, hstate']
    | .log =>
      refine Or.inl ⟨?_, ?_⟩
      · rw [Logger.step, loggerLog, hstate]
        rfl
      · rw [Logger.step, loggerLog, hstate']
        rfl
    | .init threadStackOk ok =>
      -- the count is overwritten before it is read
      obtain ⟨state, n, sinks⟩ := l
      obtain ⟨state', m, sinks'⟩ := l'
      obtain rfl : state = .notInitialized := hstate
      obtain rfl : state' = .notInitialized := hstate'
      obtain rfl : sinks = sinks' := h.sinks_eq
      obtain ⟨hsame, halike⟩ := loggerInit_alike threadStackOk ok n m sinks
      refine Or.inr ⟨_, _, _, rfl, ?_, halike⟩
      rw [hsame]
      rfl

/-- A `logger_init` that fails changes at most the counter of a logger that is not initialised. -/
lemma alike_of_failed {l l' : Logger α} {threadStackOk : Bool} {ok : ℕ → Bool}
    {uses : List (Use (Resource α))}
    (h : l.step (.init threadStackOk ok) = some (l', .init false uses)) : l'.Alike l := by
  obtain ⟨hl, hresult, -⟩ : (loggerInit threadStackOk ok l).1 = l' ∧
      (loggerInit threadStackOk ok l).2.1 = false ∧ (loggerInit threadStackOk ok l).2.2 = uses := by
    simpa [Logger.step] using h
  rcases loggerInit_cases threadStackOk ok l with ⟨-, heq⟩ | ⟨-, heq⟩ | ⟨hstate, n, s, heq⟩ |
      ⟨-, heq⟩
  · rw [heq] at hresult
    exact absurd hresult Bool.true_eq_false.mp
  · rw [heq] at hl
    rw [← hl]
    exact .refl l
  · rw [heq] at hl
    rw [← hl]
    exact ⟨rfl, rfl, fun hinit => absurd (hstate.symm.trans hinit) (by decide)⟩
  · rw [heq] at hresult
    exact absurd hresult Bool.true_eq_false.mp

/-! ### The invariant -/

variable [DecidableEq α]

/-- What holds after each call: nothing is held while the logger is not initialised, and while it is
the counter is the number of outstanding calls, and the thread stack module and every sink are
held. -/
def Logger.Consistent (sinks : List α) (l : Logger α) (outputs : List (LoggerOutput α)) : Prop :=
  l.sinks = sinks ∧
  match l.state with
  | .notInitialized => outstanding outputs = 0 ∧ exec 0 (allUses outputs) = some 0
  | .initialized    => 1 ≤ l.initCount ∧ l.initCount = outstanding outputs ∧
      exec 0 (allUses outputs) = some (heldWith sinks)

lemma Logger.Consistent.init {sinks : List α} {l : Logger α} {outputs : List (LoggerOutput α)}
    (h : l.Consistent sinks outputs) (threadStackOk : Bool) (ok : ℕ → Bool)
    (hbound : outstanding (outputs ++ [.init (loggerInit threadStackOk ok l).2.1
      (loggerInit threadStackOk ok l).2.2]) < 2 ^ 32) :
    (loggerInit threadStackOk ok l).1.Consistent sinks
      (outputs ++ [.init (loggerInit threadStackOk ok l).2.1 (loggerInit threadStackOk ok l).2.2])
    := by
  obtain ⟨hsinks, hstate⟩ := h
  rw [Logger.Consistent, allUses_concat, exec_append]
  rw [outstanding_concat] at hbound ⊢
  rcases loggerInit_cases threadStackOk ok l with ⟨hinit, heq⟩ | ⟨hnot, heq⟩ | ⟨hnot, n, s, heq⟩ |
      ⟨hnot, heq⟩
  · -- initialised before: the count goes up, and the bound keeps it from wrapping
    rw [hinit] at hstate
    obtain ⟨hpos, hcount, hheld⟩ := hstate
    rw [heq] at hbound ⊢
    simp only [hinit, LoggerOutput.uses, hheld, Option.bind_some, exec_nil] at hbound ⊢
    have hnat : u32 ((l.initCount : ℤ) + 1) = outstanding outputs + 1 := by
      rw [hcount]
      exact u32_natCast hbound
    rw [hnat]
    exact ⟨hsinks, Nat.le_add_left 1 _, rfl, trivial⟩
  · -- get_thread_stack_init failed: nothing is held
    rw [hnot] at hstate
    rw [heq]
    simp only [hnot, LoggerOutput.uses, hstate.2, Option.bind_some]
    exact ⟨hsinks, hstate.1, rfl⟩
  · -- a sink failed: what was taken is given back
    rw [hnot] at hstate
    rw [heq]
    simp only [hnot, LoggerOutput.uses, hstate.2, Option.bind_some]
    exact ⟨hsinks, hstate.1, exec_undone 0 _ s⟩
  · -- the thread stack and every configured sink are held
    rw [hnot] at hstate
    rw [heq]
    simp only [LoggerOutput.uses, hstate.2, Option.bind_some, hstate.1]
    refine ⟨hsinks, le_refl 1, trivial, ?_⟩
    rw [exec_initialised, hsinks]

lemma Logger.Consistent.deinit {sinks : List α} {l : Logger α} {outputs : List (LoggerOutput α)}
    (h : l.Consistent sinks outputs) (hbound : outstanding outputs < 2 ^ 32) :
    (loggerDeinit l).1.Consistent sinks (outputs ++ [.deinit (loggerDeinit l).2]) := by
  obtain ⟨hsinks, hstate⟩ := h
  rw [Logger.Consistent, allUses_concat, exec_append, outstanding_concat]
  have hnat : l.state = .initialized → u32 ((l.initCount : ℤ) - 1) = outstanding outputs - 1 := by
    intro hinit
    rw [hinit] at hstate
    obtain ⟨hpos, hcount, -⟩ := hstate
    rw [← hcount, ← Nat.cast_one, ← Nat.cast_sub hpos]
    exact u32_natCast (by omega)
  rcases loggerDeinit_cases l with ⟨hnot, heq⟩ | ⟨hinit, hmore, heq⟩ | ⟨hinit, hlast, heq⟩
  · rw [hnot] at hstate
    rw [heq]
    simp only [hnot, LoggerOutput.uses, hstate.2, Option.bind_some, hstate.1, exec_nil]
    exact ⟨hsinks, trivial, trivial⟩
  · -- others still use the logger: the count goes down
    rw [hnat hinit] at hmore heq
    rw [hinit] at hstate
    rw [heq]
    simp only [hinit, LoggerOutput.uses, hstate.2.2, Option.bind_some, exec_nil]
    exact ⟨hsinks, Nat.one_le_iff_ne_zero.mpr hmore, trivial, trivial⟩
  · -- the last one: all that is held is given back
    rw [hnat hinit] at hlast
    rw [hinit] at hstate
    rw [heq]
    simp only [LoggerOutput.uses, hstate.2.2, Option.bind_some]
    refine ⟨hsinks, hlast, ?_⟩
    rw [hsinks]
    exact exec_deinitialised_iff.mpr (.refl sinks)

/-- The invariant holds after every run. -/
theorem consistent_of_run {sinks : List α} {calls : List (LoggerCall α)}
    (hcalls : ∀ c ∈ calls, c.IsLifecycle) {l : Logger α} {outputs : List (LoggerOutput α)}
    (hrun : run Logger.step ⟨.notInitialized, 0, sinks⟩ calls = some (l, outputs))
    (hbound : ∀ past, past <+: outputs → outstanding past < 2 ^ 32) :
    l.Consistent sinks outputs := by
  have hstart : (∀ past, past <+: ([] : List (LoggerOutput α)) → outstanding past < 2 ^ 32) →
      Logger.Consistent sinks ⟨.notInitialized, 0, sinks⟩ [] := fun _ => ⟨rfl, rfl, rfl⟩
  have hall : (∀ past, past <+: [] ++ outputs → outstanding past < 2 ^ 32) →
      l.Consistent sinks ([] ++ outputs) := by
    refine run_invariant (P := fun l past =>
      (∀ past', past' <+: past → outstanding past' < 2 ^ 32) → l.Consistent sinks past) ?_
        hstart hrun
    intro l past c l' o hc hl hstep hpast
    have hconsistent := hl fun past' hpast' => hpast past' (hpast'.trans (List.prefix_append _ _))
    match c with
    | .init threadStackOk ok =>
      obtain ⟨rfl, rfl⟩ := Prod.mk.inj (Option.some.inj hstep)
      exact hconsistent.init threadStackOk ok (hpast _ (List.prefix_refl _))
    | .deinit =>
      obtain ⟨rfl, rfl⟩ := Prod.mk.inj (Option.some.inj hstep)
      exact hconsistent.deinit (hpast _ (List.prefix_append _ _))
    | .setConfig _ => exact absurd (hcalls _ hc) id
    | .log => exact absurd (hcalls _ hc) id
  exact hall hbound

/-- After every sequence of `logger_init` and `logger_deinit` nothing was de-initialised that was
not initialised. A logger that is not initialised has de-initialised everything as often as it
initialised it; one that is counts its outstanding calls, and the thread stack module and each of
its sinks has one outstanding initialisation. A `logger_init` that fails cannot be told from one
that was not made. -/
theorem loggerLifecycle {sinks : List α} {calls : List (LoggerCall α)}
    (hcalls : ∀ c ∈ calls, c.IsLifecycle) {l : Logger α} {outputs : List (LoggerOutput α)}
    (hrun : run Logger.step ⟨.notInitialized, 0, sinks⟩ calls = some (l, outputs))
    (hbound : ∀ past, past <+: outputs → outstanding past < 2 ^ 32) :
    (∃ held, exec 0 (allUses outputs) = some held ∧
      (l.state = .notInitialized ∧ held = 0 ∧ (∀ r, (allUses outputs).count (.acquire r) =
          (allUses outputs).count (.release r)) ∨
        l.state = .initialized ∧ 1 ≤ l.initCount ∧ l.initCount = outstanding outputs ∧
          held = heldWith sinks ∧ ∀ r, (allUses outputs).count (.acquire r) =
            (allUses outputs).count (.release r) +
              (Resource.threadStack :: sinks.map Resource.sink).count r)) ∧
    ∀ threadStackOk ok l' uses, l.step (.init threadStackOk ok) = some (l', .init false uses) →
      ∀ later, (run Logger.step l' later = none ∧ run Logger.step l later = none) ∨
        ∃ t' t outputs', run Logger.step l' later = some (t', outputs') ∧
          run Logger.step l later = some (t, outputs') ∧ t'.Alike t := by
  obtain ⟨hsinks, hstate⟩ := consistent_of_run hcalls hrun hbound
  constructor
  · match hl : l.state with
    | .notInitialized =>
      rw [hl] at hstate
      refine ⟨0, hstate.2, Or.inl ⟨rfl, rfl, fun r => ?_⟩⟩
      have hcount := count_of_exec hstate.2 r
      rw [Multiset.count_zero, Nat.zero_add, Nat.zero_add] at hcount
      exact hcount.symm
    | .initialized =>
      rw [hl] at hstate
      obtain ⟨hpos, hcounter, hheld⟩ := hstate
      refine ⟨heldWith sinks, hheld, Or.inr ⟨rfl, hpos, hcounter, rfl, fun r => ?_⟩⟩
      have hcount := count_of_exec hheld r
      rw [Multiset.count_zero, Nat.zero_add, heldWith, Multiset.cons_coe,
        Multiset.coe_count] at hcount
      rw [← hcount, Nat.add_comm]
  · intro threadStackOk ok l' uses hfailed later
    exact run_bisimulation (fun s t c h => h.step c) later (alike_of_failed hfailed)

omit [DecidableEq α] in
/-- There are no more outstanding calls than calls. -/
lemma outstanding_le_length (outputs : List (LoggerOutput α)) :
    outstanding outputs ≤ outputs.length := by
  induction outputs using List.reverseRecOn with
  | nil => exact le_refl 0
  | append_singleton outputs o ih =>
    rw [outstanding_concat, List.length_append]
    match o with
    | .init true _ => exact Nat.succ_le_succ ih
    | .init false _ | .setConfig | .log _ => exact ih.trans (Nat.le_add_right _ 1)
    | .deinit _ => exact (Nat.sub_le _ 1).trans (ih.trans (Nat.le_add_right _ 1))

/-- The second sink fails first, and then the logger is initialised twice and de-initialised once. -/
def sampleCalls : List (LoggerCall ℕ) :=
  [.init true (fun i => i = 0), .init true (fun _ => true), .init true (fun _ => true), .deinit]

theorem loggerLifecycle_sample : ∃ l outputs,
    run Logger.step ⟨.notInitialized, 0, [0, 1]⟩ sampleCalls = some (l, outputs) ∧
      l.state = .initialized ∧ l.initCount = outstanding outputs := by
  have hrun : run Logger.step ⟨.notInitialized, 0, [0, 1]⟩ sampleCalls =
      some (⟨.initialized, 1, [0, 1]⟩, _) := rfl
  refine ⟨_, _, hrun, rfl, ?_⟩
  obtain ⟨⟨held, -, hstate⟩, -⟩ := loggerLifecycle
    (by simp [sampleCalls, LoggerCall.IsLifecycle]) hrun fun past hpast =>
      calc outstanding past ≤ past.length := outstanding_le_length past
        _ ≤ 4 := hpast.length_le
        _ < 2 ^ 32 := by decide
  rcases hstate with ⟨hnot, -⟩ | ⟨-, -, hcount, -⟩
  · cases hnot
  · exact hcount

end CLogging
