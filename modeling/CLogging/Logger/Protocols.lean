import CLogging.Logger.Effects
import CLogging.Logger.Lifecycle

/-!
# Protocols of the system calls

Whatever calls a program makes, and whichever sinks it configures in between, the provider of the ETW
sink is registered and unregistered in turns, and events are written only in between. The symbol
handler is initialised with an open handle of the process, which is closed behind it. What the
library calls through its interfaces is what the logger calls.
-/

namespace CLogging

open C Pairing Machine TraceLogging

variable {β κ : Type*}

/-! ### Calls of the library -/

/-- What holds between the calls: the ETW sink knows whether its provider is registered, and the
thread stack module is initialised exactly while the logger is. -/
structure Library.Sound (l : Library β κ) : Prop where
  etwSink     : l.etwSink.Sound
  threadStack :
    (l.logger.state = .notInitialized ∧ ∃ mask, l.threadStack = ⟨.notInitialized, none, mask⟩) ∨
    (l.logger.state = .initialized ∧ ∃ h mask, l.threadStack = ⟨.initialized, some h, mask⟩)

lemma Library.sound_start (sinks : List (Sink β)) (mask : Option UInt64) :
    (start sinks mask : Library β κ).Sound :=
  ⟨rfl, Or.inl ⟨rfl, mask, rfl⟩⟩

/-- What happens in a call follows the protocols, and is what the logger does in some calls. -/
structure Library.Effect (l l' : Library β κ) (events : List (LibraryEvent β κ)) : Prop where
  sound    : l'.Sound
  provider : (providerEvents events).foldlM ProviderEvent.next l.etwSink.registered =
    some l'.etwSink.registered
  stack    : (stackEvents events).foldlM StackEvent.next l.threadStack.phase =
    some l'.threadStack.phase
  logger   : ∃ is os, run Logger.step l.logger is = some (l'.logger, os) ∧ allUses os = uses events

/-- Libraries that differ at most in variables that are set again before they are used. -/
structure Library.Alike (l l' : Library β κ) : Prop where
  logger       : l.logger.Alike l'.logger
  threadStack  : l.threadStack = l'.threadStack ∨ l.logger.state = .notInitialized ∧
    ∃ mask mask', l.threadStack = ⟨.notInitialized, none, mask⟩ ∧
      l'.threadStack = ⟨.notInitialized, none, mask'⟩ ∧ mask.isSome = mask'.isSome
  callbackSink : l.callbackSink = l'.callbackSink
  etwSink      : l.etwSink = l'.etwSink

/-- What `logger_init` needs in order to succeed while the logger is not initialised. -/
def Library.CanInit (env : LoggerInitEnv) (l : Library β κ) : Prop :=
  (env.threadStack.duplicateHandle ≠ none ∧ env.threadStack.symInitialize = true) ∧
    CanInitAll env.sinks 0 l.logger.sinks l.etwSink

lemma LogSinkEtw.Initialises.sound {etw etw' : LogSinkEtw} {ss : List (Sink β)}
    (h : etw.Initialises etw' ss) (hetw : etw.Sound) : etw'.Sound := by
  by_cases hmem : .etw ∈ ss
  · rw [(h.configured hmem).2]
    rfl
  · rw [h.unchanged hmem]
    exact hetw

/-- One call of the logger. -/
lemma run_logger {α : Type*} {l l' : Logger α} {c : LoggerCall α} {o : LoggerOutput α}
    (h : l.step c = some (l', o)) :
    ∃ is os, run Logger.step l is = some (l', os) ∧ allUses os = o.uses := by
  refine ⟨[c], [o], ?_, ?_⟩
  · simp only [run, h, Option.map_some]
  · rw [allUses, List.flatMap_singleton]

/-- One call of `logger_init`. -/
lemma run_loggerInit {α : Type*} {l l' : Logger α} {threadStackOk succeeded : Bool} {ok : ℕ → Bool}
    {us : List (Use (Resource α))} (h : loggerInit threadStackOk ok l = (l', succeeded, us)) :
    ∃ is os, run Logger.step l is = some (l', os) ∧ allUses os = us := by
  refine run_logger (c := .init threadStackOk ok) (o := .init succeeded us) ?_
  rw [Logger.step, h]

/-- Logging with other sinks, and then the old ones again. -/
lemma run_logWithConfig {α : Type*} {l : Logger α} (h : l.state = .initialized) (sinks : List α) :
    run Logger.step l [.setConfig sinks, .log, .setConfig l.sinks] =
      some (l, [.setConfig, .log ((sinks.map Resource.sink).map Use.use), .setConfig]) := by
  obtain ⟨state, initCount, ss⟩ := l
  obtain rfl : state = .initialized := h
  rfl

/-- The thread stack module cannot be initialised. -/
lemma Library.effect_refused {l : Library β κ} (h : l.Sound)
    (hstate : l.logger.state = .notInitialized) {es : List StackEvent}
    (hfollows : es.foldlM StackEvent.next l.threadStack.phase = some l.threadStack.phase) :
    l.Effect l (es.map .stack ++ [.call (.refused .threadStack)]) := by
  refine ⟨h, ?_, ?_, ?_⟩
  · simp
  · simpa using hfollows
  · have hlogger : CLogging.loggerInit false (fun _ => true) l.logger =
        (l.logger, false, [.refused .threadStack]) := by
      simp only [CLogging.loggerInit, hstate, if_neg Bool.false_ne_true]
    simpa using run_loggerInit hlogger

/-- A sink cannot be initialised, and everything before it is undone. -/
lemma Library.effect_undone {l : Library β κ} (h : l.Sound)
    (hstate : l.logger.state = .notInitialized) {es : List StackEvent} {handle n : ℕ}
    (hfollows : es.foldlM StackEvent.next l.threadStack.phase = some (.initialized handle))
    {ok : ℕ → Bool} {initialised undone : List (LibraryEvent β κ)}
    (hok : initSinks ok 0 l.logger.sinks = (uses initialised, n)) (hn : n < l.logger.sinks.length)
    (hstack : stackEvents initialised = [] ∧ stackEvents undone = [])
    (hundone : uses undone = deinitSinks (l.logger.sinks.take n))
    (hprovider : (providerEvents initialised ++ providerEvents undone).foldlM ProviderEvent.next
      l.etwSink.registered = some l.etwSink.registered) (mask : Option UInt64)
    (symCleanup closeHandle : Bool) :
    l.Effect { l with logger.initCount := 1, threadStack := ⟨.notInitialized, none, mask⟩ }
      (es.map .stack ++ .call (.acquire .threadStack) :: initialised ++ undone ++
        ([StackEvent.symCleanup (some handle) symCleanup,
          .closeHandle (some handle) closeHandle].map .stack ++
            [.call (.release .threadStack)])) := by
  refine ⟨⟨h.etwSink, Or.inl ⟨hstate, mask, rfl⟩⟩, ?_, ?_, ?_⟩
  · -- the provider is back where it was
    simp only [providerEvents_append, providerEvents_call, providerEvents_map_stack,
      providerEvents_nil, List.append_nil, List.nil_append]
    exact hprovider
  · -- the symbol handler is initialised and cleaned up again
    simp only [stackEvents_append, stackEvents_call, stackEvents_map_stack, stackEvents_nil, hstack,
      List.append_nil, List.foldlM_append, hfollows]
    simp [StackEvent.next]
  · -- the logger on its own takes the same step
    have hlogger : CLogging.loggerInit true ok l.logger =
        ({ l.logger with initCount := 1 }, false, .acquire .threadStack :: uses initialised ++
          deinitSinks (l.logger.sinks.take n) ++ [.release .threadStack]) := by
      simp only [CLogging.loggerInit, hstate, if_pos, hok, if_pos hn]
    obtain ⟨is, os, hrun, huses⟩ := run_loggerInit hlogger
    refine ⟨is, os, hrun, ?_⟩
    rw [huses, ← hundone]
    simp only [uses_append, uses_call, uses_map_stack, uses_nil, List.nil_append]

/-- Everything is initialised. -/
lemma Library.effect_initialised {l : Library β κ}
    (hstate : l.logger.state = .notInitialized) {es : List StackEvent} {handle : ℕ}
    (hfollows : es.foldlM StackEvent.next l.threadStack.phase = some (.initialized handle))
    {ok : ℕ → Bool} {initialised : List (LibraryEvent β κ)}
    (hok : initSinks ok 0 l.logger.sinks = (uses initialised, l.logger.sinks.length))
    (hstack : stackEvents initialised = []) {etw : LogSinkEtw} (hetw : etw.Sound)
    (hprovider : (providerEvents initialised).foldlM ProviderEvent.next
      l.etwSink.registered = some etw.registered) (mask : Option UInt64) :
    l.Effect
      { l with
        logger.state     := .initialized
        logger.initCount := 1
        threadStack      := ⟨.initialized, some handle, mask⟩
        etwSink          := etw }
      (es.map .stack ++ .call (.acquire .threadStack) :: initialised) := by
  refine ⟨⟨hetw, Or.inr ⟨rfl, handle, mask, rfl⟩⟩, ?_, ?_, ?_⟩
  · simpa using hprovider
  · simpa [hstack] using hfollows
  · have hlogger : CLogging.loggerInit true ok l.logger =
        ({ l.logger with state := .initialized, initCount := 1 }, true,
          .acquire .threadStack :: uses initialised) := by
      simp only [CLogging.loggerInit, hstate, if_pos, hok, if_neg (Nat.lt_irrefl _)]
    simpa using run_loggerInit hlogger

section

variable [Platform] [TlgIn]

/-- What `logger_init` does while the logger is not initialised: it fails and leaves everything as it
was, or it initialises everything. -/
lemma Library.loggerInit_spec (env : LoggerInitEnv) {l : Library β κ} (h : l.Sound)
    (hstate : l.logger.state = .notInitialized) : ∃ l' succeeded events,
      l.loggerInit env = some (l', ⟨succeeded, events⟩) ∧ l.Effect l' events ∧
      (succeeded = true ↔ l.CanInit env) ∧ (succeeded = false → l'.Alike l) ∧
      (succeeded = true → l'.logger = ⟨.initialized, 1, l.logger.sinks⟩ ∧
        l.etwSink.Initialises l'.etwSink l.logger.sinks) := by
  obtain ⟨mask, hstack⟩ : ∃ mask, l.threadStack = ⟨.notInitialized, none, mask⟩ := by
    rcases h.threadStack with ⟨-, hstack⟩ | ⟨hinit, -⟩
    · -- the state of the thread stack follows that of the logger
      exact hstack
    · exact absurd (hstate.symm.trans hinit) (by decide)
  have hphase : l.threadStack.phase = .closed := by rw [hstack, SymbolHandler.phase_none]
  rcases getThreadStackInit_follows env.threadStack mask with ⟨hnot, es, hinit, hfollows⟩ |
      ⟨hcan, handle, es, hinit, hfollows⟩
  · -- get_thread_stack_init failed: the sinks are not reached
    rw [← hstack] at hinit
    rw [← hphase] at hfollows
    refine ⟨l, false, es.map .stack ++ [.call (.refused .threadStack)], ?_,
      effect_refused h hstate hfollows, iff_of_false Bool.false_ne_true fun hcan => hnot hcan.1,
      fun _ => ⟨.refl _, Or.inl rfl, rfl, rfl⟩, nofun⟩
    simp only [loggerInit, hstate, hinit, if_neg Bool.false_ne_true]
  rw [← hstack] at hinit
  rw [← hphase] at hfollows
  obtain ⟨etw, n, initialised, ok, hall, hle, hiff, hinitialises, hok, hnone, hprovider⟩ :=
    initAll_spec env.sinks 0 l.logger.sinks h.etwSink
  have hetw := hinitialises.sound h.etwSink
  rw [Nat.zero_add] at hall hok
  rcases Nat.lt_or_eq_of_le hle with hn | rfl
  · -- a sink fails
    obtain ⟨etw', undone, hdeinit, hmem, hnotMem, hundone, hnone', hprovider'⟩ :=
      deinitAll_spec (κ := κ) (l.logger.sinks.take n) hetw
    have hback : etw' = l.etwSink := by
      by_cases hconfigured : .etw ∈ l.logger.sinks.take n
      · -- the ETW sink was initialised and is deinitialised: not registered, as before
        rw [hmem hconfigured]
        rcases h.etwSink.eq with heq | heq
        · exact heq.symm
        · have hnot := (hinitialises.configured hconfigured).1
          rw [heq] at hnot
          cases hnot
      · -- the ETW sink was not reached
        rw [hnotMem hconfigured, hinitialises.unchanged hconfigured]
    subst hback
    refine ⟨_, false, _, ?_, effect_undone h hstate hfollows hok hn ⟨hnone, hnone'⟩ hundone ?_
      (mask.map fun _ => fillBits env.threadStack.maximumApplicationAddress) env.symCleanup
      env.closeHandle, iff_of_false Bool.false_ne_true fun hcan => hn.ne (hiff.mpr hcan.2), ?_, nofun⟩
    · simp only [loggerInit, hstate, hinit, if_pos, hall, Option.map_some, hn, hdeinit,
        deinitThreadStack, getThreadStackDeinit]
    · -- registered and unregistered again
      rw [List.foldlM_append, hprovider]
      exact hprovider'
    · -- what is left differs only in the count and in the address mask
      intro _
      exact ⟨⟨rfl, rfl, fun hinit => absurd (hstate.symm.trans hinit) (by decide)⟩,
        Or.inr ⟨hstate, _, mask, rfl, hstack, Option.isSome_map⟩, rfl, rfl⟩
  · rw [List.take_length] at hinitialises
    refine ⟨_, true, _, ?_, effect_initialised hstate hfollows hok hnone hetw hprovider
      (mask.map fun _ => fillBits env.threadStack.maximumApplicationAddress),
      iff_of_true rfl ⟨hcan, hiff.mp rfl⟩, nofun, fun _ => ⟨rfl, hinitialises⟩⟩
    simp only [loggerInit, hstate, hinit, if_pos, hall, Option.map_some, Nat.lt_irrefl, if_false]

omit [Platform] [TlgIn] in
/-- What `logger_deinit` does. -/
lemma Library.effect_loggerDeinit (symCleanup closeHandle : Bool) {l : Library β κ} (h : l.Sound) :
    l.Effect (l.loggerDeinit symCleanup closeHandle).1
      (l.loggerDeinit symCleanup closeHandle).2.events := by
  have hlogger := run_logger (l := l.logger) (c := .deinit) rfl
  rcases loggerDeinit_cases l.logger with ⟨hnot, heq⟩ | ⟨hinit, hmore, heq⟩ | ⟨hinit, hlast, heq⟩
  · rw [heq] at hlogger
    rw [loggerDeinit, hnot]
    exact ⟨h, rfl, rfl, hlogger⟩
  · rw [heq, hinit] at hlogger
    simp only [loggerDeinit, hinit, if_neg hmore]
    refine ⟨⟨h.etwSink, Or.inr ⟨rfl, ?_⟩⟩, rfl, rfl, hlogger⟩
    rcases h.threadStack with ⟨hnot, -⟩ | ⟨-, hstack⟩
    · exact absurd (hinit.symm.trans hnot) (by decide)
    · exact hstack
  · -- the last one: sinks first, then the thread stack
    rw [heq] at hlogger
    obtain ⟨handle, mask, hstack⟩ : ∃ handle mask, l.threadStack = ⟨.initialized, some handle, mask⟩ := by
      rcases h.threadStack with ⟨hnot, -⟩ | ⟨-, hstack⟩
      · exact absurd (hinit.symm.trans hnot) (by decide)
      · exact hstack
    obtain ⟨etw, undone, hdeinit, hmem, hnotMem, hundone, hnone, hprovider⟩ :=
      deinitAll_spec (κ := κ) l.logger.sinks h.etwSink
    have hetw : etw.Sound := by
      by_cases hconfigured : .etw ∈ l.logger.sinks
      · rw [hmem hconfigured]
        rfl
      · rw [hnotMem hconfigured]
        exact h.etwSink
    simp only [loggerDeinit, hinit, hlast, if_pos, hdeinit, hstack, deinitThreadStack,
      getThreadStackDeinit]
    refine ⟨⟨hetw, Or.inl ⟨rfl, mask, rfl⟩⟩, ?_, ?_, ?_⟩
    · -- the provider is unregistered with the sink
      simp only [providerEvents_append, providerEvents_call, providerEvents_map_stack,
        providerEvents_nil, List.append_nil]
      exact hprovider
    · -- SymCleanup and CloseHandle end the symbol handler
      simp only [stackEvents_append, stackEvents_call, stackEvents_map_stack, stackEvents_nil, hnone,
        List.append_nil, List.nil_append, hstack]
      simp [StackEvent.next]
    · obtain ⟨is, os, hrun, huses⟩ := hlogger
      refine ⟨is, os, hrun, ?_⟩
      rw [huses, LoggerOutput.uses, ← hundone]
      simp only [uses_append, uses_call, uses_map_stack, uses_nil, List.nil_append]

/-- No event is written while no level is enabled. -/
lemma logSinkEtwLog_zero (garbage : ℕ → UInt8) (level : Option LogLevel) (context : LogContextHandle)
    (file func : Option CString) (line : ℤ) (message : Option FormattedMessage) :
    logSinkEtwLog 0 garbage level context file func line message = some ⟨[], []⟩ := by
  match message, context with
  | none, _        => rfl
  | some m, none   =>
    rw [logSinkEtwLog, internalEmitSelfDescribedEventVa, if_neg (Nat.not_lt_zero _)]
  | some m, some c =>
    rw [logSinkEtwLog, internalEmitSelfDescribedEventVa, if_neg (Nat.not_lt_zero _)]

/-- What `log` of a sink does. -/
lemma Sink.log_follows {env : SinkLogEnv} {m : LogMessage} {callbackSink : LogSinkCallback κ}
    {etw : LogSinkEtw} {s : Sink β} {events : List (LibraryEvent β κ)}
    (h : s.log env m callbackSink etw = some events) : uses events = [] ∧ stackEvents events = [] ∧
      (providerEvents events).foldlM ProviderEvent.next etw.registered = some etw.registered := by
  cases s with
  | other b =>
    obtain rfl := Option.some.inj h
    exact ⟨rfl, rfl, rfl⟩
  | console =>
    obtain ⟨prints, -, rfl⟩ := Option.map_eq_some_iff.mp h
    simp [uses, stackEvents, providerEvents, LibraryEvent.toUse, LibraryEvent.toStack,
      LibraryEvent.toProvider, Function.comp_def]
  | callback =>
    obtain ⟨calls, -, rfl⟩ := Option.map_eq_some_iff.mp h
    simp [uses, stackEvents, providerEvents, LibraryEvent.toUse, LibraryEvent.toStack,
      LibraryEvent.toProvider, Function.comp_def]
  | etw =>
    obtain ⟨emission, hemission, rfl⟩ := Option.map_eq_some_iff.mp h
    rw [← List.map_map]
    simp only [uses_map_provider, stackEvents_map_provider, providerEvents_map_provider, true_and]
    by_cases hregistered : etw.registered = true
    · -- registered: every event is written to the provider
      rw [hregistered]
      exact foldlM_write emission.events
    · -- not registered: the sink is not enabled, so it writes nothing
      rw [Bool.eq_false_iff.mpr hregistered, TlgIn.levelPlus1_unregistered, logSinkEtwLog_zero]
        at hemission
      obtain rfl := Option.some.inj hemission
      rfl

/-- What the loops that call `log` do. -/
lemma logAll_follows {env : ℕ → SinkLogEnv} {m : LogMessage} {l : Library β κ} {i : ℕ}
    {ss : List (Sink β)} {events : List (LibraryEvent β κ)} (h : logAll env m l i ss = some events) :
    uses events = (ss.map Resource.sink).map Use.use ∧ stackEvents events = [] ∧
      (providerEvents events).foldlM ProviderEvent.next l.etwSink.registered =
        some l.etwSink.registered := by
  induction ss generalizing i events with
  | nil =>
    obtain rfl := Option.some.inj h
    exact ⟨rfl, rfl, rfl⟩
  | cons s ss ih =>
    obtain ⟨first, hfirst, hothers⟩ := Option.bind_eq_some_iff.mp h
    obtain ⟨rest, hrest, rfl⟩ := Option.map_eq_some_iff.mp hothers
    obtain ⟨huses, hstack, hprovider⟩ := Sink.log_follows hfirst
    obtain ⟨huses', hstack', hprovider'⟩ := ih hrest
    refine ⟨?_, ?_, ?_⟩
    · rw [List.cons_append, uses_call, uses_append, huses, huses']
      rfl
    · rw [List.cons_append, stackEvents_call, stackEvents_append, hstack, hstack']
      rfl
    · rw [List.cons_append, providerEvents_call, providerEvents_append, List.foldlM_append, hprovider]
      exact hprovider'

/-- What happens in a call follows the protocols, and is what the logger does in some calls. A call of
`logger_log_with_config` does what `logger_log` does between two calls of `logger_set_config`. -/
theorem Library.Sound.step {l l' : Library β κ} (h : l.Sound) {c : LibraryCall β κ}
    {o : LibraryOutput β κ} (hstep : l.step c = some (l', o)) : l.Effect l' o.events := by
  cases c with
  | loggerInit env =>
    by_cases hstate : l.logger.state = .notInitialized
    · -- the call that initialises
      obtain ⟨l', succeeded, events, hinit, heffect, -⟩ := loggerInit_spec env h hstate
      obtain ⟨rfl, rfl⟩ := Prod.mk.inj (Option.some.inj (hstep.symm.trans hinit))
      exact heffect
    · have hinit : l.logger.state = .initialized := by
        cases hl : l.logger.state with
        | notInitialized => exact absurd hl hstate
        | initialized    => rfl
      have hcount : CLogging.loggerInit true (fun _ => true) l.logger =
          ({ l.logger with initCount := u32 (l.logger.initCount + 1) }, true, []) := by
        simp only [CLogging.loggerInit, hinit]
      rw [Library.step, loggerInit, hinit] at hstep
      obtain ⟨rfl, rfl⟩ := Prod.mk.inj (Option.some.inj hstep)
      exact ⟨⟨h.etwSink, h.threadStack⟩, rfl, rfl, run_loggerInit hcount⟩
  | loggerDeinit symCleanup closeHandle =>
    obtain ⟨rfl, rfl⟩ := Prod.mk.inj (Option.some.inj hstep)
    exact effect_loggerDeinit symCleanup closeHandle h
  | loggerSetConfig sinks =>
    obtain ⟨rfl, rfl⟩ := Prod.mk.inj (Option.some.inj hstep)
    exact ⟨⟨h.etwSink, h.threadStack⟩, rfl, rfl, run_logger (c := .setConfig sinks) rfl⟩
  | setCallback logCallback context =>
    obtain ⟨rfl, rfl⟩ := Prod.mk.inj (Option.some.inj hstep)
    exact ⟨⟨h.etwSink, h.threadStack⟩, rfl, rfl, [], [], rfl, rfl⟩
  | setMaxLevel level =>
    obtain ⟨rfl, rfl⟩ := Prod.mk.inj (Option.some.inj hstep)
    exact ⟨⟨h.etwSink, h.threadStack⟩, rfl, rfl, [], [], rfl, rfl⟩
  | loggerLog env m =>
    obtain ⟨o', hlog, heq⟩ := Option.map_eq_some_iff.mp hstep
    obtain ⟨rfl, rfl⟩ := Prod.mk.inj heq
    cases hstate : l.logger.state with
    | notInitialized =>
      -- LOGGER_LOG aborts
      rw [loggerLog, hstate] at hlog
      cases hlog
    | initialized =>
      rw [loggerLog, hstate] at hlog
      obtain ⟨events, hall, rfl⟩ := Option.map_eq_some_iff.mp hlog
      obtain ⟨huses, hstack, hprovider⟩ := logAll_follows hall
      refine ⟨h, hprovider, by rw [hstack]; rfl, ?_⟩
      rw [huses]
      refine run_logger (c := .log) (o := .log _) ?_
      rw [Logger.step, CLogging.loggerLog, hstate]
      rfl
  | loggerLogWithConfig sinks env m =>
    obtain ⟨o', hlog, heq⟩ := Option.map_eq_some_iff.mp hstep
    obtain ⟨rfl, rfl⟩ := Prod.mk.inj heq
    cases sinks with
    | none =>
      -- no configuration: nothing is logged
      obtain rfl := Option.some.inj hlog
      exact ⟨h, rfl, rfl, [], [], rfl, rfl⟩
    | some sinks =>
      cases hstate : l.logger.state with
      | notInitialized =>
        rw [loggerLogWithConfig, hstate] at hlog
        cases hlog
      | initialized =>
        rw [loggerLogWithConfig, hstate] at hlog
        -- the sinks of the call are used, not those of the logger
        obtain ⟨events, hall, rfl⟩ := Option.map_eq_some_iff.mp hlog
        obtain ⟨huses, hstack, hprovider⟩ := logAll_follows hall
        refine ⟨h, hprovider, by rw [hstack]; rfl, _, _, run_logWithConfig hstate sinks, ?_⟩
        rw [huses]
        simp [allUses, LoggerOutput.uses]

/-! ### Runs -/

/-- Everything that happens in a run. -/
def allEvents (outputs : List (LibraryOutput β κ)) : List (LibraryEvent β κ) :=
  outputs.flatMap LibraryOutput.events

lemma Library.sound_of_run {sinks : List (Sink β)} {mask : Option UInt64}
    {calls : List (LibraryCall β κ)} {l : Library β κ} {outputs : List (LibraryOutput β κ)}
    (hrun : run Library.step (.start sinks mask) calls = some (l, outputs)) : l.Sound :=
  run_invariant_start (P := fun l _ => l.Sound) (sound_start sinks mask)
    (fun _ _ _ _ _ _ h hstep => (h.step hstep).sound) hrun

end

section

attribute [local instance] posix tlgIn

/-- Everything can be initialised, and no session listens. -/
def sampleInitEnv : LoggerInitEnv where
  threadStack := ⟨some 8, CString.empty, true, true, 0⟩
  sinks       := fun _ =>
    ⟨⟨true, none, 0, fun _ => 0, ⟨ascii "log_sink_etw.c", by decide⟩, none, none⟩, true⟩
  symCleanup  := true
  closeHandle := true

/-- The ETW sink is configured twice at first, and once in the end. -/
def sampleLibraryCalls : List (LibraryCall ℕ ℕ) :=
  [.loggerInit sampleInitEnv, .loggerSetConfig [.etw], .loggerInit sampleInitEnv]

def sampleLibrary : Library ℕ ℕ :=
  ⟨⟨.initialized, 1, [.etw]⟩, ⟨.initialized, some 8, none⟩, .start, ⟨.initialized, true⟩⟩

lemma run_sampleLibraryCalls :
    ∃ outputs, run Library.step (.start [.etw, .callback, .etw] none) sampleLibraryCalls =
      some (sampleLibrary, outputs) := ⟨_, rfl⟩

end

section

variable [Platform] [TlgIn]

/-- In every run the calls of TraceLogging and of the thread stack module follow their protocols, and
the variables tell how far these are: the provider of the ETW sink is registered exactly if the sink
is initialised, and the symbol handler is set up exactly while the logger is initialised. -/
theorem library_follows {sinks : List (Sink β)} {mask : Option UInt64}
    {calls : List (LibraryCall β κ)} {l : Library β κ} {outputs : List (LibraryOutput β κ)}
    (hrun : run Library.step (.start sinks mask) calls = some (l, outputs)) :
    (providerEvents (allEvents outputs)).foldlM ProviderEvent.next false =
        some (decide (l.etwSink.state = .initialized)) ∧
      ∃ phase, (stackEvents (allEvents outputs)).foldlM StackEvent.next .closed = some phase ∧
        (l.logger.state = .notInitialized → phase = .closed) ∧
        (l.logger.state = .initialized → ∃ h, l.threadStack.processHandle = some h ∧
          phase = .initialized h) := by
  have hstart := Library.sound_start sinks mask (κ := κ)
  obtain ⟨hsound, hprovider⟩ := run_follows (f := fun l => l.etwSink.registered)
    (v := fun o => providerEvents o.events) (fun s c s' o (hs : s.Sound) hstep =>
      ⟨(hs.step hstep).sound, (hs.step hstep).provider⟩) hstart hrun
  obtain ⟨-, hstack⟩ := run_follows (f := fun l => l.threadStack.phase)
    (v := fun o => stackEvents o.events) (fun s c s' o (hs : s.Sound) hstep =>
      ⟨(hs.step hstep).sound, (hs.step hstep).stack⟩) hstart hrun
  rw [providerEvents, stackEvents, allEvents, List.filterMap_flatMap, List.filterMap_flatMap]
  refine ⟨hsound.etwSink ▸ hprovider, _, hstack, fun hnot => ?_, fun hinit => ?_⟩
  · rcases hsound.threadStack with ⟨-, mask', heq⟩ | ⟨hinit, -⟩
    · rw [heq, SymbolHandler.phase_none]
    · exact absurd (hnot.symm.trans hinit) (by decide)
  · rcases hsound.threadStack with ⟨hnot, -⟩ | ⟨-, h, mask', heq⟩
    · exact absurd (hinit.symm.trans hnot) (by decide)
    · rw [heq, SymbolHandler.phase_some]
      exact ⟨h, rfl, rfl⟩

end

section

attribute [local instance] posix tlgIn

theorem library_follows_sample : ∃ outputs, ∃ phase,
    run Library.step (.start [.etw, .callback, .etw] none) sampleLibraryCalls =
      some (sampleLibrary, outputs) ∧
    (providerEvents (allEvents outputs)).foldlM ProviderEvent.next false = some true ∧
    (stackEvents (allEvents outputs)).foldlM StackEvent.next .closed = some phase := by
  obtain ⟨outputs, hrun⟩ := run_sampleLibraryCalls
  obtain ⟨hprovider, phase, hstack, -⟩ := library_follows hrun
  exact ⟨outputs, phase, hrun, hprovider, hstack⟩

end

section

variable [Platform] [TlgIn]

/-- Every run is a run of the logger alone, with the same calls through the interfaces. -/
theorem library_refines {sinks : List (Sink β)} {mask : Option UInt64}
    {calls : List (LibraryCall β κ)} {l : Library β κ} {outputs : List (LibraryOutput β κ)}
    (hrun : run Library.step (.start sinks mask) calls = some (l, outputs)) :
    ∃ is os, run Logger.step ⟨.notInitialized, 0, sinks⟩ is = some (l.logger, os) ∧
      allUses os = uses (allEvents outputs) := by
  obtain ⟨-, is, os, hlogger, huses⟩ := run_refines (f := Library.logger)
    (v := fun o => uses o.events) (w := LoggerOutput.uses) (fun s c s' o (hs : s.Sound) hstep =>
      ⟨(hs.step hstep).sound, (hs.step hstep).logger⟩) (Library.sound_start sinks mask) hrun
  refine ⟨is, os, hlogger, huses.trans ?_⟩
  rw [uses, allEvents, List.filterMap_flatMap]
  rfl

end

section

attribute [local instance] posix tlgIn

theorem library_refines_sample : ∃ outputs is os,
    run Library.step (.start [.etw, .callback, .etw] none) sampleLibraryCalls =
      some (sampleLibrary, outputs) ∧
    run Logger.step ⟨.notInitialized, 0, [.etw, .callback, .etw]⟩ is =
      some (sampleLibrary.logger, os) ∧ allUses os = uses (allEvents outputs) := by
  obtain ⟨outputs, hrun⟩ := run_sampleLibraryCalls
  obtain ⟨is, os, hlogger, huses⟩ := library_refines hrun
  exact ⟨outputs, is, os, hrun, hlogger, huses⟩

end

end CLogging
