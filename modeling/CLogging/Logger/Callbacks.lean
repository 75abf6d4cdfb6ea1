import CLogging.Logger.Protocols

/-!
# Which callback gets a message

What `logger_log` does with the callback sink depends only on what was called last: on the callback
that was set, the maximum level, and the configuration.
-/

namespace CLogging

open C Machine TraceLogging

variable {β κ : Type*}

/-! ### The history -/

/-- The callback and the context a call sets. -/
def LibraryCall.setsCallback : LibraryCall β κ → Option (κ × ℕ)
  | .setCallback (some f) context => some (f, context)
  | _                             => none

def LibraryCall.setsMaxLevel : LibraryCall β κ → Option LogLevel
  | .setMaxLevel level => some level
  | _                  => none

def LibraryCall.setsConfig : LibraryCall β κ → Option (List (Sink β))
  | .loggerSetConfig sinks => some sinks
  | _                      => none

/-- What was set last. -/
def lastOf {α : Type*} (sets : LibraryCall β κ → Option α) (calls : List (LibraryCall β κ)) :
    Option α :=
  calls.reverse.findSome? sets

/-- The callback that was set last, and its context. -/
def lastCallback (calls : List (LibraryCall β κ)) : Option κ × ℕ :=
  match lastOf LibraryCall.setsCallback calls with
  | none              => (none, 0)
  | some (f, context) => (some f, context)

/-- The maximum level that was set last. -/
def lastMaxLevel (calls : List (LibraryCall β κ)) : LogLevel :=
  (lastOf LibraryCall.setsMaxLevel calls).getD .verbose

/-- The sinks that were configured last. -/
def lastConfig (sinks : List (Sink β)) (calls : List (LibraryCall β κ)) : List (Sink β) :=
  (lastOf LibraryCall.setsConfig calls).getD sinks

lemma lastOf_concat {α : Type*} (sets : LibraryCall β κ → Option α)
    (calls : List (LibraryCall β κ)) (c : LibraryCall β κ) :
    lastOf sets (calls ++ [c]) = (sets c).or (lastOf sets calls) := by
  rw [lastOf, List.reverse_append, List.reverse_singleton, List.singleton_append,
    List.findSome?_cons]
  cases sets c <;> rfl

/-- The variables are determined by the calls that set them last. -/
structure Library.SetBy (sinks : List (Sink β)) (calls : List (LibraryCall β κ))
    (l : Library β κ) : Prop where
  callback : (l.callbackSink.callback, l.callbackSink.context) = lastCallback calls
  maxLevel : l.callbackSink.maxLevel = lastMaxLevel calls
  config   : l.logger.sinks = lastConfig sinks calls

/-- The calls of callbacks: which, with what context, and what for. -/
def LibraryEvent.toCallback : LibraryEvent β κ → Option ((Option κ × ℕ) × CallbackCall)
  | .callback f context c => some ((f, context), c)
  | _                     => none

def callbackEvents (es : List (LibraryEvent β κ)) : List ((Option κ × ℕ) × CallbackCall) :=
  es.filterMap LibraryEvent.toCallback

def Sink.isCallback : Sink β → Bool
  | .callback => true
  | _         => false

/-! ### What the calls leave alone -/

/-- A call that sets nothing. -/
lemma Library.SetBy.keep {sinks : List (Sink β)} {calls : List (LibraryCall β κ)}
    {l l' : Library β κ} (h : l.SetBy sinks calls) (hcallback : l'.callbackSink = l.callbackSink)
    (hsinks : l'.logger.sinks = l.logger.sinks) {c : LibraryCall β κ}
    (hc : c.setsCallback = none ∧ c.setsMaxLevel = none ∧ c.setsConfig = none) :
    l'.SetBy sinks (calls ++ [c]) := by
  constructor
  · rw [hcallback, h.callback, lastCallback, lastCallback, lastOf_concat, hc.1, Option.none_or]
  · rw [hcallback, h.maxLevel, lastMaxLevel, lastMaxLevel, lastOf_concat, hc.2.1, Option.none_or]
  · rw [hsinks, h.config, lastConfig, lastConfig, lastOf_concat, hc.2.2, Option.none_or]

lemma Library.loggerDeinit_keeps (symCleanup closeHandle : Bool) (l : Library β κ) :
    (l.loggerDeinit symCleanup closeHandle).1.callbackSink = l.callbackSink ∧
      (l.loggerDeinit symCleanup closeHandle).1.logger.sinks = l.logger.sinks := by
  rw [loggerDeinit]
  cases l.logger.state with
  | notInitialized => exact ⟨rfl, rfl⟩
  | initialized =>
    simp only
    split_ifs <;> exact ⟨rfl, rfl⟩

section

variable [Platform] [TlgIn]

lemma Library.loggerInit_keeps {env : LoggerInitEnv} {l l' : Library β κ} {o : LibraryOutput β κ}
    (h : l.loggerInit env = some (l', o)) :
    l'.callbackSink = l.callbackSink ∧ l'.logger.sinks = l.logger.sinks := by
  rw [loggerInit] at h
  cases hstate : l.logger.state with
  | initialized =>
    rw [hstate] at h
    obtain ⟨rfl, -⟩ := Prod.mk.inj (Option.some.inj h)
    exact ⟨rfl, rfl⟩
  | notInitialized =>
    rw [hstate] at h
    simp only at h
    split_ifs at h
    · obtain ⟨⟨etw, events, i⟩, -, heq⟩ := Option.map_eq_some_iff.mp h
      simp only at heq
      split_ifs at heq
      · obtain ⟨rfl, -⟩ := Prod.mk.inj heq
        exact ⟨rfl, rfl⟩
      · obtain ⟨rfl, -⟩ := Prod.mk.inj heq
        exact ⟨rfl, rfl⟩
    · obtain ⟨rfl, -⟩ := Prod.mk.inj (Option.some.inj h)
      exact ⟨rfl, rfl⟩

lemma Library.SetBy.step {sinks : List (Sink β)} {calls : List (LibraryCall β κ)}
    {l l' : Library β κ} (h : l.SetBy sinks calls) {c : LibraryCall β κ} {o : LibraryOutput β κ}
    (hstep : l.step c = some (l', o)) : l'.SetBy sinks (calls ++ [c]) := by
  match c with
  | .loggerInit env =>
    obtain ⟨hcallback, hsinks⟩ := loggerInit_keeps hstep
    exact h.keep hcallback hsinks ⟨rfl, rfl, rfl⟩
  | .loggerDeinit symCleanup closeHandle =>
    have hkeeps := loggerDeinit_keeps symCleanup closeHandle l
    rw [show l.loggerDeinit symCleanup closeHandle = (l', o) from Option.some.inj hstep] at hkeeps
    exact h.keep hkeeps.1 hkeeps.2 ⟨rfl, rfl, rfl⟩
  | .loggerLog env m =>
    obtain ⟨o', -, heq⟩ := Option.map_eq_some_iff.mp hstep
    obtain ⟨rfl, rfl⟩ := Prod.mk.inj heq
    exact h.keep rfl rfl ⟨rfl, rfl, rfl⟩
  | .loggerLogWithConfig ss env m =>
    obtain ⟨o', -, heq⟩ := Option.map_eq_some_iff.mp hstep
    obtain ⟨rfl, rfl⟩ := Prod.mk.inj heq
    exact h.keep rfl rfl ⟨rfl, rfl, rfl⟩
  | .setCallback none context =>
    -- without a function log_sink_callback_set_callback fails and stores nothing
    obtain ⟨rfl, rfl⟩ := Prod.mk.inj (Option.some.inj hstep)
    exact h.keep rfl rfl ⟨rfl, rfl, rfl⟩
  | .setCallback (some f) context =>
    obtain ⟨rfl, rfl⟩ := Prod.mk.inj (Option.some.inj hstep)
    constructor
    · -- the callback is the one set last; level and sinks stay
      rw [lastCallback, lastOf_concat]
      rfl
    · rw [lastMaxLevel, lastOf_concat]
      exact h.maxLevel
    · rw [lastConfig, lastOf_concat]
      exact h.config
  | .setMaxLevel level =>
    obtain ⟨rfl, rfl⟩ := Prod.mk.inj (Option.some.inj hstep)
    constructor
    · rw [lastCallback, lastOf_concat]
      exact h.callback
    · rw [lastMaxLevel, lastOf_concat]
      rfl
    · rw [lastConfig, lastOf_concat]
      exact h.config
  | .loggerSetConfig ss =>
    obtain ⟨rfl, rfl⟩ := Prod.mk.inj (Option.some.inj hstep)
    constructor
    · rw [lastCallback, lastOf_concat]
      exact h.callback
    · rw [lastMaxLevel, lastOf_concat]
      exact h.maxLevel
    · rw [lastConfig, lastOf_concat]
      rfl

/-! ### Messages -/

omit [Platform] [TlgIn] in
/-- What the callback sink does with a message: at most one call, and none only if the level of the
message is too high. -/
lemma logSinkCallbackLog_cases {env : PrintEnv} {garbage : ℕ → UInt8} {maxLevel level : LogLevel}
    {context : LogContextHandle} {args : LogArguments} {cs : List CallbackCall}
    (h : logSinkCallbackLog env garbage maxLevel level context args = some cs) :
    (cs = [] ∧ ¬ (args.message = none ∨ level.toNat ≤ maxLevel.toNat)) ∨
      (∃ c, cs = [c]) ∧ (args.message = none ∨ level.toNat ≤ maxLevel.toNat) := by
  rw [logSinkCallbackLog] at h
  match hmessage : args.message with
  | none =>
    -- the message could not be allocated: its text is delivered at any level
    rw [hmessage] at h
    obtain rfl := Option.some.inj h
    exact Or.inr ⟨⟨_, rfl⟩, Or.inl rfl⟩
  | some message =>
    rw [hmessage] at h
    simp only at h
    by_cases hlevel : level.toNat > maxLevel.toNat
    · rw [if_pos hlevel] at h
      obtain rfl := Option.some.inj h
      exact Or.inl ⟨rfl, fun hdelivered => hdelivered.elim nofun (not_le.mpr hlevel)⟩
    · rw [if_neg hlevel] at h
      refine Or.inr ⟨?_, Or.inr (not_lt.mp hlevel)⟩
      match hline : formatLine env garbage (headerText args) context message with
      | none =>
        rw [hline] at h
        cases h
      | some .error =>
        rw [hline] at h
        exact ⟨_, (Option.some.inj h).symm⟩
      | some (.line temp) =>
        rw [hline] at h
        exact ⟨_, (Option.some.inj h).symm⟩

/-- The message is passed to the callback. -/
def LogMessage.Passes (m : LogMessage) (maxLevel : LogLevel) : Prop :=
  m.format = none ∨ m.level.toNat ≤ maxLevel.toNat

instance (m : LogMessage) (maxLevel : LogLevel) : Decidable (m.Passes maxLevel) :=
  inferInstanceAs (Decidable (_ ∨ _))

/-- The calls of callbacks by one sink. -/
lemma callbackEvents_log {env : SinkLogEnv} {m : LogMessage} {callbackSink : LogSinkCallback κ}
    {etw : LogSinkEtw} {s : Sink β} {events : List (LibraryEvent β κ)}
    (h : s.log env m callbackSink etw = some events) :
    ∃ cs : List CallbackCall,
      callbackEvents events = cs.map ((callbackSink.callback, callbackSink.context), ·) ∧
      cs.length = (if m.Passes callbackSink.maxLevel ∧ s.isCallback then 1 else 0) ∧
      ∀ c ∈ cs, logSinkCallbackLog env.print env.garbage callbackSink.maxLevel m.level m.context
        (m.arguments env.time) = some [c] := by
  cases s with
  | other b =>
    obtain rfl := Option.some.inj h
    exact ⟨[], rfl, by simp [Sink.isCallback], nofun⟩
  | console =>
    obtain ⟨prints, -, rfl⟩ := Option.map_eq_some_iff.mp h
    refine ⟨[], ?_, by simp [Sink.isCallback], nofun⟩
    simp [callbackEvents, LibraryEvent.toCallback, Function.comp_def]
  | etw =>
    obtain ⟨emission, -, rfl⟩ := Option.map_eq_some_iff.mp h
    refine ⟨[], ?_, by simp [Sink.isCallback], nofun⟩
    simp [callbackEvents, LibraryEvent.toCallback, Function.comp_def]
  | callback =>
    obtain ⟨cs, hcs, rfl⟩ := Option.map_eq_some_iff.mp h
    have hpasses : (m.arguments env.time).message = none ↔ m.format = none := Option.map_eq_none_iff
    refine ⟨cs, ?_, ?_, ?_⟩
    · simp [callbackEvents, LibraryEvent.toCallback, Function.comp_def]
    · rcases logSinkCallbackLog_cases hcs with ⟨rfl, hnot⟩ | ⟨⟨c, rfl⟩, hpass⟩
      · rw [hpasses] at hnot
        rw [if_neg fun hpass => hnot hpass.1, List.length_nil]
      · rw [hpasses] at hpass
        rw [if_pos ⟨hpass, rfl⟩, List.length_singleton]
    · intro c hc
      rcases logSinkCallbackLog_cases hcs with ⟨rfl, -⟩ | ⟨⟨c', rfl⟩, -⟩
      · cases hc
      · rw [List.mem_singleton.mp hc]
        exact hcs

/-- The calls of callbacks by all sinks: one for each time the callback sink is configured. -/
lemma callbackEvents_logAll {env : ℕ → SinkLogEnv} {m : LogMessage} {l : Library β κ} {i : ℕ}
    {ss : List (Sink β)} {events : List (LibraryEvent β κ)} (h : logAll env m l i ss = some events) :
    ∃ cs : List CallbackCall,
      callbackEvents events = cs.map ((l.callbackSink.callback, l.callbackSink.context), ·) ∧
      cs.length =
        (if m.Passes l.callbackSink.maxLevel then ss.countP Sink.isCallback else 0) ∧
      ∀ c ∈ cs, ∃ j, logSinkCallbackLog (env j).print (env j).garbage l.callbackSink.maxLevel m.level
        m.context (m.arguments (env j).time) = some [c] := by
  induction ss generalizing i events with
  | nil =>
    obtain rfl := Option.some.inj h
    exact ⟨[], rfl, by simp, nofun⟩
  | cons s ss ih =>
    obtain ⟨first, hfirst, hothers⟩ := Option.bind_eq_some_iff.mp h
    obtain ⟨rest, hrest, rfl⟩ := Option.map_eq_some_iff.mp hothers
    obtain ⟨cs, hevents, hlength, hcs⟩ := callbackEvents_log hfirst
    obtain ⟨cs', hevents', hlength', hcs'⟩ := ih hrest
    refine ⟨cs ++ cs', ?_, ?_, ?_⟩
    · -- the calls of this sink, then those of the ones behind it
      rw [List.map_append, ← hevents, ← hevents', callbackEvents, List.cons_append,
        List.filterMap_cons_none rfl, List.filterMap_append]
      rfl
    · rw [List.length_append, hlength, hlength', List.countP_cons]
      by_cases hpasses : m.Passes l.callbackSink.maxLevel
      · simp only [hpasses, true_and, if_true, Nat.add_comm]
      · simp only [hpasses, false_and, if_false]
    · intro c hc
      rcases List.mem_append.mp hc with hc | hc
      · exact ⟨i, hcs c hc⟩
      · exact hcs' c hc

/-- What is called for a message that is logged depends on what was set last. -/
lemma exists_logAll {sinks : List (Sink β)} {mask : Option UInt64}
    {calls : List (LibraryCall β κ)} {env : ℕ → SinkLogEnv} {m : LogMessage} {l : Library β κ}
    {outputs : List (LibraryOutput β κ)}
    (hrun : run Library.step (.start sinks mask) (calls ++ [.loggerLog env m]) =
      some (l, outputs)) :
    ∃ before o, outputs = before ++ [o] ∧ l.SetBy sinks calls ∧
      logAll env m l 0 l.logger.sinks = some o.events := by
  obtain ⟨l', before, o, hbefore, hstep, rfl⟩ := run_concat.mp hrun
  have hset : l'.SetBy sinks calls := run_history (P := fun calls l => l.SetBy sinks calls)
    ⟨rfl, rfl, rfl⟩ (fun _ _ _ _ _ h hstep => h.step hstep) hbefore
  obtain ⟨o', hlog, heq⟩ := Option.map_eq_some_iff.mp hstep
  obtain ⟨rfl, rfl⟩ := Prod.mk.inj heq
  cases hstate : l'.logger.state with
  | notInitialized =>
    -- LOGGER_LOG aborts
    rw [Library.loggerLog, hstate] at hlog
    cases hlog
  | initialized =>
    rw [Library.loggerLog, hstate] at hlog
    obtain ⟨events, hall, rfl⟩ := Option.map_eq_some_iff.mp hlog
    exact ⟨before, _, rfl, hset, hall⟩

/-- A message that is logged goes to the callback that was set last, with the context that was set with
it, as often as the callback sink was configured last, and not at all if its level is above the
maximum level that was set last. -/
theorem callbacks_of_run {sinks : List (Sink β)} {mask : Option UInt64}
    {calls : List (LibraryCall β κ)} {env : ℕ → SinkLogEnv} {m : LogMessage} {l : Library β κ}
    {outputs : List (LibraryOutput β κ)}
    (hrun : run Library.step (.start sinks mask) (calls ++ [.loggerLog env m]) =
      some (l, outputs)) :
    ∃ before o, ∃ cs : List CallbackCall, outputs = before ++ [o] ∧
      callbackEvents o.events = cs.map ((lastCallback calls, ·)) ∧
      cs.length = (if m.Passes (lastMaxLevel calls) then
        (lastConfig sinks calls).countP Sink.isCallback else 0) ∧
      ∀ c ∈ cs, ∃ j, logSinkCallbackLog (env j).print (env j).garbage (lastMaxLevel calls) m.level
        m.context (m.arguments (env j).time) = some [c] := by
  obtain ⟨before, o, houtputs, hset, hall⟩ := exists_logAll hrun
  obtain ⟨cs, hcs⟩ := callbackEvents_logAll hall
  rw [hset.callback, hset.maxLevel, hset.config] at hcs
  exact ⟨before, o, cs, houtputs, hcs⟩

end

section

attribute [local instance] posix tlgIn

/-- A message for the callback sink. -/
def sampleMessage : LogMessage where
  level   := .error
  context := none
  file    := none
  func    := none
  line    := 7
  format  := none

/-- A callback is set, then none, and then the maximum level. -/
theorem callbacks_of_run_sample : ∃ (l : Library ℕ ℕ) (outputs before : _) (o : _)
    (cs : List CallbackCall),
    run Library.step (.start [.callback, .callback] none) ([.loggerInit sampleInitEnv,
      .setCallback (some 3) 4, .setCallback none 5, .setMaxLevel .critical] ++
        [.loggerLog (fun _ => ⟨fun _ _ => none, fun _ => 0, 0, none⟩) sampleMessage]) =
      some (l, outputs) ∧
    outputs = before ++ [o] ∧ callbackEvents o.events = cs.map (((some 3, 4), ·)) ∧
    cs.length = 2 := by
  have hrun : run Library.step (.start [.callback, .callback] none : Library ℕ ℕ)
    ([.loggerInit sampleInitEnv, .setCallback (some 3) 4, .setCallback none 5,
      .setMaxLevel .critical] ++
        [.loggerLog (fun _ => ⟨fun _ _ => none, fun _ => 0, 0, none⟩) sampleMessage]) =
    some (_, _) := rfl
  obtain ⟨before, o, cs, houtputs, hcs, hlength, -⟩ := callbacks_of_run hrun
  exact ⟨_, _, before, o, cs, hrun, houtputs, hcs, hlength⟩

end

end CLogging
