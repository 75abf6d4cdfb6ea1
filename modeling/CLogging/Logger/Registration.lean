import CLogging.Logger.Protocols

/-!
# When the library can be initialised

`logger_init` succeeds if the functions it calls do, and the ETW sink is configured at most once and
not initialised already. If it fails, it leaves nothing behind. Only a change of the configuration
can leave the ETW sink initialised behind `logger_deinit`, and then `logger_init` fails for good as
long as that sink is configured.
-/

namespace CLogging

open C Pairing Machine TraceLogging

variable {β κ : Type*}

section

variable [Platform] [TlgIn]

/-- When `logger_init` succeeds after any calls. -/
theorem loggerInit_succeeds_iff {sinks : List (Sink β)} {mask : Option UInt64}
    {calls : List (LibraryCall β κ)} {l : Library β κ} {outputs : List (LibraryOutput β κ)}
    (hrun : run Library.step (.start sinks mask) calls = some (l, outputs)) (env : LoggerInitEnv) :
    ∃ l' o, l.step (.loggerInit env) = some (l', o) ∧
      (o.succeeded = true ↔ l.logger.state = .initialized ∨ l.CanInit env) := by
  cases hstate : l.logger.state with
  | initialized =>
    refine ⟨{ l with logger.initCount := u32 (l.logger.initCount + 1) }, ⟨true, []⟩, ?_,
      iff_of_true rfl (Or.inl rfl)⟩
    rw [Library.step, Library.loggerInit, hstate]
  | notInitialized =>
    obtain ⟨l', succeeded, events, hinit, -, hiff, -⟩ :=
      Library.loggerInit_spec env (Library.sound_of_run hrun) hstate
    exact ⟨l', _, hinit, hiff.trans (or_iff_right LoggerState.noConfusion).symm⟩

end

section

attribute [local instance] posix tlgIn

/-- The ETW sink cannot be configured twice. -/
theorem loggerInit_succeeds_iff_sample : ∃ l' o,
    (Library.start [.etw, .callback, .etw] none : Library ℕ ℕ).step (.loggerInit sampleInitEnv) =
      some (l', o) ∧ ¬ o.succeeded = true := by
  have hrun : run Library.step (.start [.etw, .callback, .etw] none : Library ℕ ℕ) [] =
    some (.start [.etw, .callback, .etw] none, []) := rfl
  obtain ⟨l', o, hstep, hiff⟩ := loggerInit_succeeds_iff hrun sampleInitEnv
  refine ⟨l', o, hstep, fun hsucceeded => ?_⟩
  rcases hiff.mp hsucceeded with hinit | hcan
  · cases hinit
  · exact absurd (hcan.2.once 0 2 rfl rfl) (by decide)

end

/-! ### A failed call -/

lemma Library.Alike.eq_of_initialized {l l' : Library β κ} (h : l.Alike l')
    (hstate : l.logger.state = .initialized) : l = l' := by
  obtain ⟨logger, threadStack, callbackSink, etwSink⟩ := l
  obtain ⟨logger', threadStack', callbackSink', etwSink'⟩ := l'
  obtain rfl : logger = logger' := h.logger.eq_of_initialized hstate
  obtain rfl : callbackSink = callbackSink' := h.callbackSink
  obtain rfl : etwSink = etwSink' := h.etwSink
  rcases h.threadStack with hstack | ⟨hnot, -⟩
  · obtain rfl : threadStack = threadStack' := hstack
    rfl
  · exact absurd (hstate.symm.trans hnot) (by decide)

/-- `get_thread_stack_init` sets the mask, if there is one. -/
lemma getThreadStackInit_alike (env : InitEnv) {mask mask' : Option UInt64}
    (h : mask.isSome = mask'.isSome) :
    (∃ es, getThreadStackInit env ⟨.notInitialized, none, mask⟩ =
        (⟨.notInitialized, none, mask⟩, false, es) ∧
      getThreadStackInit env ⟨.notInitialized, none, mask'⟩ =
        (⟨.notInitialized, none, mask'⟩, false, es)) ∨
    ∃ g es, getThreadStackInit env ⟨.notInitialized, none, mask⟩ = (g, true, es) ∧
      getThreadStackInit env ⟨.notInitialized, none, mask'⟩ = (g, true, es) := by
  have hmask : mask.map (fun _ => fillBits env.maximumApplicationAddress) =
      mask'.map fun _ => fillBits env.maximumApplicationAddress := by
    cases mask <;> cases mask' <;> first | rfl | cases h
  simp only [getThreadStackInit, if_pos]
  cases env.duplicateHandle with
  | none => exact Or.inl ⟨_, rfl, rfl⟩
  | some handle =>
    by_cases hinit : env.symInitialize = true
    · -- both store the same handle and mask
      simp only [if_pos hinit, hmask]
      exact Or.inr ⟨_, _, rfl, rfl⟩
    · -- SymInitialize failed: both keep the mask they have
      simp only [if_neg hinit]
      exact Or.inl ⟨_, rfl, rfl⟩

section

variable [Platform] [TlgIn]

/-- `logger_init` does not tell such libraries apart. -/
lemma Library.Alike.loggerInit {l l' : Library β κ} (h : l.Alike l')
    (hstate : l.logger.state = .notInitialized) (env : LoggerInitEnv) :
    l.loggerInit env = l'.loggerInit env ∨ ∃ t t' o, l.loggerInit env = some (t, o) ∧
      l'.loggerInit env = some (t', o) ∧ t.Alike t' := by
  obtain ⟨⟨state, count, sinks⟩, threadStack, callbackSink, etwSink⟩ := l
  obtain ⟨⟨state', count', sinks'⟩, threadStack', callbackSink', etwSink'⟩ := l'
  obtain ⟨hlogger, hstack, hcallback, hetw⟩ := h
  obtain rfl : state = .notInitialized := hstate
  obtain rfl : .notInitialized = state' := hlogger.state_eq
  obtain rfl : sinks = sinks' := hlogger.sinks_eq
  obtain rfl : callbackSink = callbackSink' := hcallback
  obtain rfl : etwSink = etwSink' := hetw
  rcases hstack with heq | ⟨-, mask, mask', hl, hl', hmask⟩
  · -- the same thread stack: the same outcome
    obtain rfl : threadStack = threadStack' := heq
    simp only [Library.loggerInit]
    rcases getThreadStackInit env.threadStack threadStack with ⟨g, ok, es⟩
    cases ok with
    | true => exact Or.inl rfl
    | false =>
      exact Or.inr ⟨_, _, _, rfl, rfl, ⟨rfl, rfl, LoggerState.noConfusion⟩, Or.inl rfl, rfl, rfl⟩
  · -- the masks differ, in what they hold but not in whether they are set
    obtain rfl : threadStack = _ := hl
    obtain rfl : threadStack' = _ := hl'
    simp only [Library.loggerInit]
    rcases getThreadStackInit_alike env.threadStack hmask with ⟨es, hinit, hinit'⟩ |
        ⟨g, es, hinit, hinit'⟩
    · rw [hinit, hinit']
      exact Or.inr ⟨_, _, _, rfl, rfl, ⟨rfl, rfl, LoggerState.noConfusion⟩,
        Or.inr ⟨rfl, mask, mask', rfl, rfl, hmask⟩, rfl, rfl⟩
    · rw [hinit, hinit']
      exact Or.inl rfl

/-- No call tells such libraries apart. -/
lemma Library.Alike.step {l l' : Library β κ} (h : l.Alike l') (c : LibraryCall β κ) :
    (l.step c = none ∧ l'.step c = none) ∨
      ∃ t t' o, l.step c = some (t, o) ∧ l'.step c = some (t', o) ∧ t.Alike t' := by
  cases hstate : l.logger.state with
  | initialized =>
    obtain rfl := h.eq_of_initialized hstate
    match hstep : l.step c with
    | none => exact Or.inl ⟨rfl, rfl⟩
    | some (t, o) => exact Or.inr ⟨t, t, o, rfl, rfl, .refl _, Or.inl rfl, rfl, rfl⟩
  | notInitialized =>
    have hstate' := h.logger.state_eq ▸ hstate
    match c with
    | .loggerInit env =>
      rcases h.loggerInit hstate env with heq | hsome
      · -- from here on the two are the same
        match hstep : l.loggerInit env with
        | none => exact Or.inl ⟨hstep, heq.symm.trans hstep⟩
        | some (t, o) =>
          exact Or.inr ⟨t, t, o, hstep, heq.symm.trans hstep, .refl _, Or.inl rfl, rfl, rfl⟩
      · exact Or.inr hsome
    | .loggerDeinit symCleanup closeHandle =>
      refine Or.inr ⟨l, l', ⟨true, []⟩, ?_, ?_, h⟩
      · rw [Library.step, loggerDeinit, hstate]
      · rw [Library.step, loggerDeinit, hstate']
    | .loggerSetConfig sinks =>
      exact Or.inr ⟨_, _, _, rfl, rfl, ⟨h.logger.state_eq, rfl, h.logger.count_eq⟩, h.threadStack,
        h.callbackSink, h.etwSink⟩
    | .setCallback logCallback context =>
      have hset := congrArg (logSinkCallbackSetCallback logCallback context) h.callbackSink
      refine Or.inr ⟨_, { l' with
          callbackSink := (logSinkCallbackSetCallback logCallback context l'.callbackSink).1 },
        _, rfl, ?_, h.logger, h.threadStack, congrArg Prod.fst hset, h.etwSink⟩
      rw [Library.step, hset]
    | .setMaxLevel level =>
      exact Or.inr ⟨_, _, _, rfl, rfl, h.logger, h.threadStack,
        congrArg (logSinkCallbackSetMaxLevel level) h.callbackSink, h.etwSink⟩
    | .loggerLog env m =>
      refine Or.inl ⟨?_, ?_⟩
      · rw [Library.step, loggerLog, hstate]
        rfl
      · rw [Library.step, loggerLog, hstate']
        rfl
    | .loggerLogWithConfig none env m => exact Or.inr ⟨l, l', _, rfl, rfl, h⟩
    | .loggerLogWithConfig (some sinks) env m =>
      refine Or.inl ⟨?_, ?_⟩
      · rw [Library.step, loggerLogWithConfig, hstate]
        rfl
      · rw [Library.step, loggerLogWithConfig, hstate']
        rfl

/-- A `logger_init` that fails cannot be told from one that was not made, whatever is called
afterwards. -/
theorem failed_loggerInit {sinks : List (Sink β)} {mask : Option UInt64}
    {calls : List (LibraryCall β κ)} {l l' : Library β κ} {outputs : List (LibraryOutput β κ)}
    (hrun : run Library.step (.start sinks mask) calls = some (l, outputs)) {env : LoggerInitEnv}
    {events : List (LibraryEvent β κ)}
    (hfailed : l.step (.loggerInit env) = some (l', ⟨false, events⟩))
    (later : List (LibraryCall β κ)) :
    (run Library.step l' later = none ∧ run Library.step l later = none) ∨
      ∃ t' t os, run Library.step l' later = some (t', os) ∧
        run Library.step l later = some (t, os) ∧ t'.Alike t := by
  refine run_bisimulation (fun s t c h => h.step c) later (?_ : l'.Alike l)
  cases hstate : l.logger.state with
  | initialized =>
    rw [Library.step, Library.loggerInit, hstate] at hfailed
    cases hfailed
  | notInitialized =>
    obtain ⟨l'', succeeded, events', hinit, -, -, halike, -⟩ :=
      Library.loggerInit_spec env (Library.sound_of_run hrun) hstate
    obtain ⟨rfl, heq⟩ := Prod.mk.inj (Option.some.inj (hinit.symm.trans hfailed))
    exact halike (LibraryOutput.mk.inj heq).1

end

section

attribute [local instance] posix tlgIn

/-- The ETW sink is configured twice, so that its first registration is undone. -/
theorem failed_loggerInit_sample : ∃ l' events, ∃ t' t : Library ℕ ℕ, ∃ os,
    (Library.start [.etw, .callback, .etw] none).step (.loggerInit sampleInitEnv) =
      some (l', ⟨false, events⟩) ∧
    run Library.step l' [.loggerSetConfig [.etw], .loggerInit sampleInitEnv] = some (t', os) ∧
    run Library.step (.start [.etw, .callback, .etw] none)
      [.loggerSetConfig [.etw], .loggerInit sampleInitEnv] = some (t, os) := by
  have hstart : run Library.step (.start [.etw, .callback, .etw] none : Library ℕ ℕ) [] =
    some (.start [.etw, .callback, .etw] none, []) := rfl
  have hfailed : (Library.start [.etw, .callback, .etw] none : Library ℕ ℕ).step
    (.loggerInit sampleInitEnv) = some (_, ⟨false, _⟩) := rfl
  rcases failed_loggerInit hstart hfailed [.loggerSetConfig [.etw], .loggerInit sampleInitEnv] with
    ⟨-, hnone⟩ | ⟨t', t, os, hrun', hrun, -⟩
  · cases hnone
  · exact ⟨_, _, t', t, os, hfailed, hrun', hrun⟩

end

/-! ### The configuration -/

section

variable [Platform] [TlgIn]

omit [Platform] [TlgIn] in
/-- The ETW sink after `logger_deinit`. -/
lemma Library.loggerDeinit_etwSink (symCleanup closeHandle : Bool) {l : Library β κ} (h : l.Sound) :
    (((l.loggerDeinit symCleanup closeHandle).1.logger.state = l.logger.state ∧
        (l.loggerDeinit symCleanup closeHandle).1.etwSink = l.etwSink) ∨
      (l.logger.state = .initialized ∧
        (l.loggerDeinit symCleanup closeHandle).1.logger.state = .notInitialized ∧
        (.etw ∈ l.logger.sinks → (l.loggerDeinit symCleanup closeHandle).1.etwSink.state =
          .notInitialized) ∧
        (.etw ∉ l.logger.sinks → (l.loggerDeinit symCleanup closeHandle).1.etwSink = l.etwSink))) ∧
      (l.loggerDeinit symCleanup closeHandle).1.logger.sinks = l.logger.sinks := by
  rw [loggerDeinit]
  cases hstate : l.logger.state with
  | notInitialized => exact ⟨Or.inl ⟨hstate, rfl⟩, rfl⟩
  | initialized =>
    obtain ⟨etw, undone, hdeinit, hmem, hnotMem, -⟩ :=
      deinitAll_spec (κ := κ) l.logger.sinks h.etwSink
    simp only
    by_cases hlast : u32 (l.logger.initCount - 1) = 0
    · -- the last one: deinitialised if it is configured
      simp only [if_pos hlast, hdeinit]
      exact ⟨Or.inr ⟨trivial, trivial, fun hetw => by rw [hmem hetw], hnotMem⟩, trivial⟩
    · simp only [if_neg hlast]
      exact ⟨Or.inl ⟨hstate, trivial⟩, trivial⟩

/-- What a call can do to the ETW sink, other than changing the configuration: nothing, initialise it
if it is configured, or de-initialise it if it is. -/
lemma Library.Sound.step_etwSink {l l' : Library β κ} (h : l.Sound) {c : LibraryCall β κ}
    (hc : ∀ ss, c ≠ .loggerSetConfig ss) {o : LibraryOutput β κ} (hstep : l.step c = some (l', o)) :
    l'.logger.sinks = l.logger.sinks ∧
      ((l'.logger.state = l.logger.state ∧ l'.etwSink = l.etwSink) ∨
      (l.logger.state = .notInitialized ∧ l'.logger.state = .initialized ∧
        l.etwSink.Initialises l'.etwSink l.logger.sinks) ∨
      (l.logger.state = .initialized ∧ l'.logger.state = .notInitialized ∧
        (.etw ∈ l.logger.sinks → l'.etwSink.state = .notInitialized) ∧
        (.etw ∉ l.logger.sinks → l'.etwSink = l.etwSink))) := by
  match c with
  | .loggerSetConfig ss => exact absurd rfl (hc ss)
  | .setCallback logCallback context =>
    obtain ⟨rfl, rfl⟩ := Prod.mk.inj (Option.some.inj hstep)
    exact ⟨rfl, Or.inl ⟨rfl, rfl⟩⟩
  | .setMaxLevel level =>
    obtain ⟨rfl, rfl⟩ := Prod.mk.inj (Option.some.inj hstep)
    exact ⟨rfl, Or.inl ⟨rfl, rfl⟩⟩
  | .loggerLog env m =>
    obtain ⟨o', -, heq⟩ := Option.map_eq_some_iff.mp hstep
    obtain ⟨rfl, rfl⟩ := Prod.mk.inj heq
    exact ⟨rfl, Or.inl ⟨rfl, rfl⟩⟩
  | .loggerLogWithConfig ss env m =>
    obtain ⟨o', -, heq⟩ := Option.map_eq_some_iff.mp hstep
    obtain ⟨rfl, rfl⟩ := Prod.mk.inj heq
    exact ⟨rfl, Or.inl ⟨rfl, rfl⟩⟩
  | .loggerDeinit symCleanup closeHandle =>
    obtain ⟨hdeinit, hsinks⟩ := loggerDeinit_etwSink symCleanup closeHandle h
    rw [show l.loggerDeinit symCleanup closeHandle = (l', o) from Option.some.inj hstep] at hdeinit hsinks
    exact ⟨hsinks, hdeinit.imp_right Or.inr⟩
  | .loggerInit env =>
    cases hstate : l.logger.state with
    | initialized =>
      rw [Library.step, loggerInit, hstate] at hstep
      obtain ⟨rfl, rfl⟩ := Prod.mk.inj (Option.some.inj hstep)
      exact ⟨rfl, Or.inl ⟨hstate, rfl⟩⟩
    | notInitialized =>
      obtain ⟨l'', succeeded, events, hinit, -, -, halike, hsucceeded⟩ := loggerInit_spec env h hstate
      obtain ⟨rfl, rfl⟩ := Prod.mk.inj (Option.some.inj (hinit.symm.trans hstep))
      cases succeeded with
      | false =>
        have hsame := halike rfl
        exact ⟨hsame.logger.sinks_eq, Or.inl ⟨hsame.logger.state_eq.trans hstate, hsame.etwSink⟩⟩
      | true =>
        obtain ⟨hlogger, hinitialises⟩ := hsucceeded rfl
        rw [hlogger]
        exact ⟨rfl, Or.inr (Or.inl ⟨rfl, rfl, hinitialises⟩)⟩

/-- As long as the configuration stays the same, the ETW sink is initialised, and its provider
registered, exactly while the logger is initialised and the sink is configured. -/
theorem etwSink_initialized_iff {sinks : List (Sink β)} {mask : Option UInt64}
    {calls : List (LibraryCall β κ)} (hcalls : ∀ c ∈ calls, ∀ ss, c ≠ .loggerSetConfig ss)
    {l : Library β κ} {outputs : List (LibraryOutput β κ)}
    (hrun : run Library.step (.start sinks mask) calls = some (l, outputs)) :
    l.etwSink.state = .initialized ↔ l.logger.state = .initialized ∧ .etw ∈ sinks := by
  have hnot : LoggerState.notInitialized ≠ .initialized := nofun
  have hnotEtw : LogSinkEtwState.notInitialized ≠ .initialized := nofun
  refine (run_invariant_start (P := fun l _ => l.Sound ∧ l.logger.sinks = sinks ∧
    (l.etwSink.state = .initialized ↔ l.logger.state = .initialized ∧ .etw ∈ sinks))
    ⟨Library.sound_start sinks mask, rfl, iff_of_false hnotEtw fun h => hnot h.1⟩ ?_ hrun).2.2
  rintro l os c l' o hc ⟨hsound, rfl, hiff⟩ hstep
  refine ⟨(hsound.step hstep).sound, ?_⟩
  obtain ⟨hsame, ⟨hstate, hetw⟩ | ⟨hstate, hstate', hinitialises⟩ | ⟨hstate, hstate', hmem, hnotMem⟩⟩ :=
    hsound.step_etwSink (hcalls c hc) hstep
  · rw [hstate, hetw]
    exact ⟨hsame, hiff⟩
  · -- initialised: the sink is configured or stays as it was
    rw [hstate']
    refine ⟨hsame, ?_⟩
    by_cases hetw : .etw ∈ l.logger.sinks
    · rw [(hinitialises.configured hetw).2]
      exact iff_of_true rfl ⟨rfl, hetw⟩
    · rw [hinitialises.unchanged hetw, hiff, hstate]
      exact iff_of_false (fun h => hnot h.1) fun h => hetw h.2
  · -- deinitialised: the sink is configured or was not initialised
    rw [hstate']
    refine ⟨hsame, iff_of_false (fun hstill => ?_) fun h => hnot h.1⟩
    by_cases hetw : .etw ∈ l.logger.sinks
    · rw [hmem hetw] at hstill
      exact hnotEtw hstill
    · rw [hnotMem hetw, hiff] at hstill
      exact hetw hstill.2

end

section

attribute [local instance] posix tlgIn

theorem etwSink_initialized_iff_sample : ∃ (l : Library ℕ ℕ) (outputs : _),
    run Library.step (.start [.etw, .callback] none) [.loggerInit sampleInitEnv] =
      some (l, outputs) ∧ l.etwSink.state = .initialized := by
  have hrun : run Library.step (.start [.etw, .callback] none : Library ℕ ℕ)
    [.loggerInit sampleInitEnv] = some (_, _) := rfl
  refine ⟨_, _, hrun, (etwSink_initialized_iff ?_ hrun).mpr ⟨rfl, List.mem_cons_self⟩⟩
  rintro c hc ss rfl
  exact nomatch List.mem_singleton.mp hc

end

/-! ### A registration that is left behind -/

/-- The call leaves the ETW sink configured. -/
def LibraryCall.KeepsEtw (c : LibraryCall β κ) : Prop :=
  ∀ ss, c = .loggerSetConfig ss → .etw ∈ ss

/-- The ETW sink is initialised, and the logger is not. -/
def Library.LeftRegistered (l : Library β κ) : Prop :=
  l.logger.state = .notInitialized ∧ l.etwSink.state = .initialized

section

variable [Platform] [TlgIn]

/-- As long as the ETW sink is configured, it stays initialised, and every `logger_init` fails. -/
lemma Library.LeftRegistered.step {l l' : Library β κ} (h : l.LeftRegistered) (hsound : l.Sound)
    (hetw : .etw ∈ l.logger.sinks) {c : LibraryCall β κ} (hc : c.KeepsEtw) {o : LibraryOutput β κ}
    (hstep : l.step c = some (l', o)) :
    l'.LeftRegistered ∧ .etw ∈ l'.logger.sinks ∧ ∀ env, c = .loggerInit env → o.succeeded = false := by
  obtain ⟨hstate, hetwState⟩ := h
  by_cases hset : ∃ ss, c = .loggerSetConfig ss
  · obtain ⟨ss, rfl⟩ := hset
    obtain ⟨rfl, rfl⟩ := Prod.mk.inj (Option.some.inj hstep)
    exact ⟨⟨hstate, hetwState⟩, hc ss rfl, nofun⟩
  · obtain ⟨hsame, ⟨hkept, hetwKept⟩ | ⟨-, -, hinitialises⟩ | ⟨hinit, -⟩⟩ :=
      hsound.step_etwSink (fun ss hss => hset ⟨ss, hss⟩) hstep
    · -- the state stayed; an init that succeeds would have changed it
      refine ⟨⟨hkept.trans hstate, hetwKept ▸ hetwState⟩, hsame ▸ hetw, ?_⟩
      rintro env rfl
      obtain ⟨l'', succeeded, events, hinit, -, -, -, hsucceeded⟩ := loggerInit_spec env hsound hstate
      obtain ⟨rfl, rfl⟩ := Prod.mk.inj (Option.some.inj (hinit.symm.trans hstep))
      cases succeeded with
      | false => rfl
      | true =>
        rw [(hsucceeded rfl).1, hstate] at hkept
        cases hkept
    · -- an init that succeeds finds the sink not initialised, and it is
      have hfresh := (hinitialises.configured hetw).1
      rw [hetwState] at hfresh
      cases hfresh
    · -- the logger is not initialised, so there is nothing to deinitialise
      rw [hstate] at hinit
      cases hinit

/-- The last `logger_deinit` leaves the provider registered exactly if the ETW sink is initialised but
not configured any more. Then the logger cannot be initialised again with that sink, whatever is
called. -/
theorem left_registered {sinks : List (Sink β)} {mask : Option UInt64}
    {calls : List (LibraryCall β κ)} {l l' : Library β κ} {outputs : List (LibraryOutput β κ)}
    (hrun : run Library.step (.start sinks mask) calls = some (l, outputs))
    (hinit : l.logger.state = .initialized) {symCleanup closeHandle : Bool}
    {o : LibraryOutput β κ} (hstep : l.step (.loggerDeinit symCleanup closeHandle) = some (l', o))
    (hlast : l'.logger.state = .notInitialized) :
    (l'.LeftRegistered ↔ l.etwSink.state = .initialized ∧ .etw ∉ l.logger.sinks) ∧
    (l'.LeftRegistered → ∀ ss later, (∀ c ∈ .loggerSetConfig ss :: later, c.KeepsEtw) →
      ∀ t os, run Library.step l' (.loggerSetConfig ss :: later) = some (t, os) →
        t.LeftRegistered ∧ List.Forall₂ (fun c o => ∀ env, c = .loggerInit env →
          o.succeeded = false) (.loggerSetConfig ss :: later) os) := by
  have hsound := Library.sound_of_run hrun
  constructor
  · have hsame : ∀ ss : List (Sink β), LibraryCall.loggerDeinit (κ := κ) symCleanup closeHandle ≠
        .loggerSetConfig ss := nofun
    obtain ⟨-, ⟨hkept, -⟩ | ⟨hnot, -⟩ | ⟨-, -, hmem, hnotMem⟩⟩ := hsound.step_etwSink hsame hstep
    · rw [hlast, hinit] at hkept
      cases hkept
    · rw [hinit] at hnot
      cases hnot
    · rw [Library.LeftRegistered, and_iff_right hlast]
      by_cases hetw : .etw ∈ l.logger.sinks
      · -- configured: the provider is unregistered
        rw [hmem hetw]
        exact iff_of_false LogSinkEtwState.noConfusion fun h => h.2 hetw
      · rw [hnotMem hetw, and_iff_left hetw]
  · -- induction over the calls that follow: each leaves the sink registered
    intro hleft ss later hkeeps t os hlater
    obtain ⟨s, o, os', hset, hrest, rfl⟩ := run_cons hlater
    obtain ⟨rfl, rfl⟩ := Prod.mk.inj (Option.some.inj hset)
    have hconfigured : .etw ∈ ss := hkeeps _ List.mem_cons_self ss rfl
    have hsound' := (hsound.step hstep).sound
    have hstays : ∀ (s : Library β κ) c s' o, c ∈ later →
        (s.Sound ∧ s.LeftRegistered ∧ .etw ∈ s.logger.sinks) → s.step c = some (s', o) →
          (s'.Sound ∧ s'.LeftRegistered ∧ .etw ∈ s'.logger.sinks) ∧
            ∀ env, c = .loggerInit env → o.succeeded = false := by
      rintro s c s' o hc ⟨hsound, hleft, hetw⟩ hstep
      obtain ⟨hleft', hetw', hfails⟩ :=
        hleft.step hsound hetw (hkeeps c (List.mem_cons_of_mem _ hc)) hstep
      exact ⟨⟨(hsound.step hstep).sound, hleft', hetw'⟩, hfails⟩
    obtain ⟨⟨-, hfinal, -⟩, hall⟩ := run_forall₂ hstays
      (s := { l' with logger := loggerSetConfig ss l'.logger })
      ⟨⟨hsound'.etwSink, hsound'.threadStack⟩, hleft, hconfigured⟩ hrest
    exact ⟨hfinal, .cons nofun hall⟩

end

section

attribute [local instance] posix tlgIn

/-- The ETW sink is initialised, but not configured. -/
def switchedOff : Library ℕ ℕ :=
  ⟨⟨.initialized, 1, [.callback]⟩, ⟨.initialized, some 8, none⟩, .start, ⟨.initialized, true⟩⟩

/-- It is still initialised behind `logger_deinit`. -/
def leftBehind : Library ℕ ℕ :=
  ⟨⟨.notInitialized, 0, [.callback]⟩, ⟨.notInitialized, none, none⟩, .start, ⟨.initialized, true⟩⟩

/-- The ETW sink is switched off before the last `logger_deinit`. -/
theorem left_registered_sample : ∃ (outputs : _) (o : _) (t : Library ℕ ℕ) (os : _),
    run Library.step (.start [.etw] none)
      [.loggerInit sampleInitEnv, .loggerSetConfig [.callback]] = some (switchedOff, outputs) ∧
    switchedOff.step (.loggerDeinit true true) = some (leftBehind, o) ∧
    run Library.step leftBehind [.loggerSetConfig [.etw], .loggerInit sampleInitEnv] = some (t, os) ∧
    t.LeftRegistered := by
  have hrun : run Library.step (.start [.etw] none : Library ℕ ℕ)
    [.loggerInit sampleInitEnv, .loggerSetConfig [.callback]] = some (switchedOff, _) := rfl
  have hdeinit : switchedOff.step (.loggerDeinit true true) = some (leftBehind, _) := rfl
  obtain ⟨hiff, hlater⟩ := left_registered hrun rfl hdeinit rfl
  have hleft := hiff.mpr ⟨rfl, by simp [switchedOff]⟩
  refine ⟨_, _, _, _, hrun, hdeinit, rfl, (hlater hleft [.etw] [.loggerInit sampleInitEnv] ?_ _ _ rfl).1⟩
  rintro c hc ss rfl
  simp only [List.mem_cons, LibraryCall.loggerSetConfig.injEq, reduceCtorEq, List.not_mem_nil,
    or_false] at hc
  exact hc ▸ List.mem_cons_self

end

end CLogging
