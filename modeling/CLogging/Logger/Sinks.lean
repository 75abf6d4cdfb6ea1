import CLogging.Etw.Sink
import CLogging.Logger.Basic
import CLogging.Sink.Line
import CLogging.Stack.Symbols

/-!
# The sinks of the library

The logger calls a sink through the functions in `LOG_SINK_IF`. Of the sinks of the library, the ETW
sink registers a provider when it is initialised, and the callback sink calls the function that was
set last.
-/

namespace CLogging

open C Pairing Printf TraceLogging

/-! ### The ETW sink -/

/-- `LOG_SINK_ETW_STATE`. -/
inductive LogSinkEtwState where
  | notInitialized | initialized
  deriving DecidableEq

/-- The variable of the sink, and whether TraceLogging has its provider registered. -/
structure LogSinkEtw where
  state      : LogSinkEtwState
  registered : Bool
  deriving DecidableEq

/-- A call of TraceLogging. -/
inductive ProviderEvent where
  | register (succeeded : Bool)
  | unregister
  | write (e : Event)

/-- What the calls of `log_sink_etw_init` return: `none` if `GetModuleFileNameA` fails, and for each
call of `vsnprintf` whether it fails. The file is `__FILE__`. -/
structure EtwInitEnv where
  traceLoggingRegister : Bool
  moduleFileName       : Option CString
  sessions             : ℕ
  garbage              : ℕ → UInt8
  file                 : CString
  first                : Option Failure
  second               : Option Failure

/-- The message of the self test. -/
def selfTestMessage (env : EtwInitEnv) : FormattedMessage where
  text   := ascii "ETW provider was registered succesfully (self test). " ++
    ascii "Executable file full path name = " ++
      (env.moduleFileName.map CString.bytes).getD (ascii "UNKNOWN")
  first  := env.first
  second := env.second

section

variable [Platform] [TlgIn]

/-- The event of the self test, behind the registration. -/
def selfTest (env : EtwInitEnv) : Option Emission :=
  internalEmitSelfDescribedEventVa (TlgIn.levelPlus1 true env.sessions) env.garbage
    (eventName (some .info)) (traceLevel (some .info)) [] 0 (some env.file)
    (some ⟨ascii "log_sink_etw_init", by decide⟩) 603 (selfTestMessage env)

/-- `log_sink_etw_init`: the sink, whether it returns 0, and the calls it makes. -/
def logSinkEtwInit (env : EtwInitEnv) (s : LogSinkEtw) :
    Option (LogSinkEtw × Bool × List ProviderEvent) :=
  match s.state with
  | .notInitialized =>
    if env.traceLoggingRegister then
      (selfTest env).map fun emission =>
        (⟨.initialized, true⟩, true, .register true :: emission.events.map .write)
    else some (s, false, [.register false])
  | .initialized => some (s, false, [])

end

/-- `log_sink_etw_deinit`. -/
def logSinkEtwDeinit (s : LogSinkEtw) : LogSinkEtw × List ProviderEvent :=
  match s.state with
  | .notInitialized => (s, [])
  | .initialized    => (⟨.notInitialized, false⟩, [.unregister])

/-! ### The callback sink -/

/-- The variables of the callback sink. `none` stands for `log_sink_callback_noop_callback`. -/
structure LogSinkCallback (κ : Type*) where
  callback : Option κ
  context  : ℕ
  maxLevel : LogLevel

variable {β κ : Type*}

/-- The values the variables are initialised with. -/
def LogSinkCallback.start : LogSinkCallback κ := ⟨none, 0, .verbose⟩

/-- `log_sink_callback_set_callback`, with `none` for `NULL`: the sink, and whether it returns 0. -/
def logSinkCallbackSetCallback (logCallback : Option κ) (context : ℕ) (s : LogSinkCallback κ) :
    LogSinkCallback κ × Bool :=
  match logCallback with
  | none   => (s, false)
  | some f => ({ s with callback := some f, context := context }, true)

/-- `log_sink_callback_set_max_level`. -/
def logSinkCallbackSetMaxLevel (level : LogLevel) (s : LogSinkCallback κ) : LogSinkCallback κ :=
  { s with maxLevel := level }

/-! ### The interface -/

/-- The sinks of the library, and those of the program. The functions of the latter make no calls
of the library. -/
inductive Sink (β : Type*) where
  | console
  | callback
  | etw
  | other (b : β)
  deriving DecidableEq

/-- What happens in calls of the library: the functions of the sinks and of the thread stack module
that the logger calls, and what these do. A callback is called with its context. -/
inductive LibraryEvent (β κ : Type*) where
  | call (u : Use (Resource (Sink β)))
  | stack (e : StackEvent)
  | provider (e : ProviderEvent)
  | console (print : ConsolePrint)
  | callback (callback : Option κ) (context : ℕ) (c : CallbackCall)

/-- What a call of `init` depends on. -/
structure SinkInitEnv where
  etw   : EtwInitEnv
  other : Bool

/-- The arguments of `logger_log`. `none` stands for `NULL`. -/
structure LogMessage where
  level   : LogLevel
  context : LogContextHandle
  file    : Option CString
  func    : Option CString
  line    : ℤ
  format  : Option FormattedMessage

/-- What a call of `log` depends on, such as what the sessions of TraceLogging listen for. -/
structure SinkLogEnv where
  print    : PrintEnv
  garbage  : ℕ → UInt8
  sessions : ℕ
  time     : Option CString

/-- What the console sink and the callback sink print. -/
def LogMessage.arguments (m : LogMessage) (time : Option CString) : LogArguments where
  time    := time
  file    := m.file
  func    := m.func
  line    := m.line
  message := m.format.map FormattedMessage.text

section

variable [Platform] [TlgIn]

/-- `init` of a sink. -/
def Sink.init (env : SinkInitEnv) (etw : LogSinkEtw) :
    Sink β → Option (LogSinkEtw × Bool × List ProviderEvent)
  | .console  => some (etw, true, [])
  | .callback => some (etw, true, [])
  | .etw      => logSinkEtwInit env.etw etw
  | .other _  => some (etw, env.other, [])

/-- `deinit` of a sink. -/
def Sink.deinit (etw : LogSinkEtw) : Sink β → LogSinkEtw × List ProviderEvent
  | .etw => logSinkEtwDeinit etw
  | _    => (etw, [])

/-- `log` of a sink. -/
def Sink.log (env : SinkLogEnv) (m : LogMessage) (callbackSink : LogSinkCallback κ)
    (etw : LogSinkEtw) : Sink β → Option (List (LibraryEvent β κ))
  | .console  => (logSinkConsoleLog env.print env.garbage m.level m.context
      (m.arguments env.time)).map (·.map .console)
  | .callback => (logSinkCallbackLog env.print env.garbage callbackSink.maxLevel m.level m.context
      (m.arguments env.time)).map (·.map (.callback callbackSink.callback callbackSink.context))
  | .etw      => (logSinkEtwLog (TlgIn.levelPlus1 etw.registered env.sessions) env.garbage
      (some m.level) m.context m.file m.func m.line m.format).map
        fun emission => emission.events.map (.provider ∘ .write)
  | .other _  => some []

end

end CLogging
