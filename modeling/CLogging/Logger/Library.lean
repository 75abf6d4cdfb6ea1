import CLogging.Lib.Refinement
import CLogging.Logger.Sinks

/-!
# The library

The logger with the sinks of the library and the thread stack module, as a machine whose calls are
those a program makes. What the operating system returns is part of the calls.
-/

namespace CLogging

open C Pairing Machine TraceLogging

variable {β κ : Type*}

/-- The variables of all modules. -/
structure Library (β κ : Type*) where
  logger       : Logger (Sink β)
  threadStack  : SymbolHandler
  callbackSink : LogSinkCallback κ
  etwSink      : LogSinkEtw

/-- The library before the first call. -/
def Library.start (sinks : List (Sink β)) (addressMask : Option UInt64) : Library β κ where
  logger       := ⟨.notInitialized, 0, sinks⟩
  threadStack  := ⟨.notInitialized, none, addressMask⟩
  callbackSink := .start
  etwSink      := ⟨.notInitialized, false⟩

/-- What a call of `logger_init` depends on: the calls of `get_thread_stack_init` and of the sinks,
and those of `get_thread_stack_deinit` if a sink fails. -/
structure LoggerInitEnv where
  threadStack : InitEnv
  sinks       : ℕ → SinkInitEnv
  symCleanup  : Bool
  closeHandle : Bool

/-- A call of the library. The sinks passed to `logger_log_with_config` are `none` if they are `NULL`
and their number is not 0. -/
inductive LibraryCall (β κ : Type*) where
  | loggerInit (env : LoggerInitEnv)
  | loggerDeinit (symCleanup closeHandle : Bool)
  | loggerSetConfig (sinks : List (Sink β))
  | loggerLog (env : ℕ → SinkLogEnv) (m : LogMessage)
  | loggerLogWithConfig (sinks : Option (List (Sink β))) (env : ℕ → SinkLogEnv) (m : LogMessage)
  | setCallback (logCallback : Option κ) (context : ℕ)
  | setMaxLevel (level : LogLevel)

/-- Whether a call returns 0, or nothing, and what happens in it. -/
structure LibraryOutput (β κ : Type*) where
  succeeded : Bool
  events    : List (LibraryEvent β κ)

section

variable [Platform] [TlgIn]

/-- The loop of `logger_init` over the sinks: what happens, and the index it stops at. -/
def initAll (env : ℕ → SinkInitEnv) :
    ℕ → List (Sink β) → LogSinkEtw → Option (LogSinkEtw × List (LibraryEvent β κ) × ℕ)
  | i, [], etw      => some (etw, [], i)
  | i, s :: ss, etw =>
    match s.init (env i) etw with
    | none                      => none
    | some (etw, false, events) =>
      some (etw, events.map .provider ++ [.call (.refused (.sink s))], i)
    | some (etw, true, events)  =>
      (initAll env (i + 1) ss etw).map fun (etw, rest, i) =>
        (etw, events.map .provider ++ .call (.acquire (.sink s)) :: rest, i)

/-- The loops that call `deinit`. -/
def deinitAll : List (Sink β) → LogSinkEtw → LogSinkEtw × List (LibraryEvent β κ)
  | [], etw      => (etw, [])
  | s :: ss, etw =>
    let (etw, events) := s.deinit etw
    let (etw, rest) := deinitAll ss etw
    (etw, events.map .provider ++ .call (.release (.sink s)) :: rest)

/-- `get_thread_stack_deinit` as the logger calls it. -/
def deinitThreadStack (symCleanup closeHandle : Bool) (g : SymbolHandler) :
    SymbolHandler × List (LibraryEvent β κ) :=
  let (g, events) := getThreadStackDeinit symCleanup closeHandle g
  (g, events.map .stack ++ [.call (.release .threadStack)])

/-- `logger_init`. -/
def Library.loggerInit (env : LoggerInitEnv) (l : Library β κ) :
    Option (Library β κ × LibraryOutput β κ) :=
  match l.logger.state with
  | .initialized    =>
    some ({ l with logger.initCount := u32 (l.logger.initCount + 1) }, ⟨true, []⟩)
  | .notInitialized =>
    let (threadStack, ok, events) := getThreadStackInit env.threadStack l.threadStack
    if ok then
      (initAll env.sinks 0 l.logger.sinks l.etwSink).map fun (etwSink, initialised, i) =>
        let events := events.map .stack ++ .call (.acquire .threadStack) :: initialised
        if i < l.logger.sinks.length then
          let (etwSink, undone) := deinitAll (l.logger.sinks.take i) etwSink
          let (threadStack, released) := deinitThreadStack env.symCleanup env.closeHandle threadStack
          ({ l with
              logger.initCount := 1
              threadStack      := threadStack
              etwSink          := etwSink },
            ⟨false, events ++ undone ++ released⟩)
        else
          ({ l with
              logger.state     := .initialized
              logger.initCount := 1
              threadStack      := threadStack
              etwSink          := etwSink },
            ⟨true, events⟩)
    else
      some ({ l with threadStack := threadStack },
        ⟨false, events.map .stack ++ [.call (.refused .threadStack)]⟩)

/-- `logger_deinit`. -/
def Library.loggerDeinit (symCleanup closeHandle : Bool) (l : Library β κ) :
    Library β κ × LibraryOutput β κ :=
  match l.logger.state with
  | .notInitialized => (l, ⟨true, []⟩)
  | .initialized    =>
    let l := { l with logger.initCount := u32 (l.logger.initCount - 1) }
    if l.logger.initCount = 0 then
      let (etwSink, undone) := deinitAll l.logger.sinks l.etwSink
      let (threadStack, released) := deinitThreadStack symCleanup closeHandle l.threadStack
      ({ l with
          logger.state := .notInitialized
          threadStack  := threadStack
          etwSink      := etwSink },
        ⟨true, undone ++ released⟩)
    else (l, ⟨true, []⟩)

/-- The loops that call `log`. -/
def logAll (env : ℕ → SinkLogEnv) (m : LogMessage) (l : Library β κ) :
    ℕ → List (Sink β) → Option (List (LibraryEvent β κ))
  | _, []      => some []
  | i, s :: ss =>
    (s.log (env i) m l.callbackSink l.etwSink).bind fun events =>
      (logAll env m l (i + 1) ss).map fun rest => .call (.use (.sink s)) :: events ++ rest

/-- `logger_log`. `none` where it aborts the program, or the behaviour is undefined. -/
def Library.loggerLog (env : ℕ → SinkLogEnv) (m : LogMessage) (l : Library β κ) :
    Option (LibraryOutput β κ) :=
  match l.logger.state with
  | .notInitialized => none
  | .initialized    => (logAll env m l 0 l.logger.sinks).map (.mk true)

/-- `logger_log_with_config`. -/
def Library.loggerLogWithConfig (sinks : Option (List (Sink β))) (env : ℕ → SinkLogEnv)
    (m : LogMessage) (l : Library β κ) : Option (LibraryOutput β κ) :=
  match sinks with
  | none       => some ⟨true, []⟩
  | some sinks =>
    match l.logger.state with
    | .notInitialized => none
    | .initialized    => (logAll env m l 0 sinks).map (.mk true)

/-- One call. -/
def Library.step (l : Library β κ) : LibraryCall β κ → Option (Library β κ × LibraryOutput β κ)
  | .loggerInit env                     => l.loggerInit env
  | .loggerDeinit symCleanup closeHandle => some (l.loggerDeinit symCleanup closeHandle)
  | .loggerSetConfig sinks              =>
    some ({ l with logger := loggerSetConfig sinks l.logger }, ⟨true, []⟩)
  | .loggerLog env m                    => (l.loggerLog env m).map fun o => (l, o)
  | .loggerLogWithConfig sinks env m    => (l.loggerLogWithConfig sinks env m).map fun o => (l, o)
  | .setCallback logCallback context    =>
    some ({ l with
        callbackSink := (logSinkCallbackSetCallback logCallback context l.callbackSink).1 },
      ⟨(logSinkCallbackSetCallback logCallback context l.callbackSink).2, []⟩)
  | .setMaxLevel level                  =>
    some ({ l with callbackSink := logSinkCallbackSetMaxLevel level l.callbackSink }, ⟨true, []⟩)

end

end CLogging
