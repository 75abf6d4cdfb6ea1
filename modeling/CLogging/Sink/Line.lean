import CLogging.ToString.Properties

/-!
# Log lines

The console sink and the callback sink format a line by the same steps into a buffer of their own:
a header, the properties of the context, and the message. They differ in the header and in what
they do with the line.
-/

namespace CLogging

open C Printf

def LOG_MAX_MESSAGE_LENGTH : ℕ := 4096

/-- The arguments of the `log` function of a sink besides the level and the context, and the time.
`none` stands for `NULL`: of a string that was not given, and of the time if `time` or `ctime`
fails. -/
structure LogArguments where
  time    : Option CString
  file    : Option CString
  func    : Option CString
  line    : ℤ
  message : Option (List UInt8)

/-- `MU_P_OR_NULL`. -/
def pOrNull : Option CString → List UInt8
  | none   => ascii "NULL"
  | some s => s.bytes

/-- `"Time:%.24s File:%s:%d Func:%s"`. -/
def headerText (args : LogArguments) : List UInt8 :=
  ascii "Time:" ++ (pOrNull args.time).take 24 ++ ascii " File:" ++ pOrNull args.file ++
    ascii ":" ++ decimal args.line ++ ascii " Func:" ++ pOrNull args.func

lemma zero_notMem_pOrNull (s : Option CString) : 0 ∉ pOrNull s := by
  cases s with
  | none => decide
  | some s => exact s.noNul

lemma zero_notMem_headerText (args : LogArguments) : 0 ∉ headerText args := by
  have htime : 0 ∉ (pOrNull args.time).take 24 := fun h0 =>
    zero_notMem_pOrNull args.time (List.mem_of_mem_take h0)
  simp only [headerText, List.mem_append, not_or]
  exact ⟨⟨⟨⟨⟨⟨⟨by decide, htime⟩, by decide⟩, zero_notMem_pOrNull args.file⟩, by decide⟩,
    zero_notMem_decimal args.line⟩, by decide⟩, zero_notMem_pOrNull args.func⟩

/-- What comes out of formatting a line: the buffer, or an error. -/
inductive FormatResult where
  | line (temp : List UInt8)
  | error

/-- The buffer before anything is printed. -/
def lineBuffer (garbage : ℕ → UInt8) : Cursor :=
  ⟨uninitialised garbage LOG_MAX_MESSAGE_LENGTH, 0, LOG_MAX_MESSAGE_LENGTH⟩

def headerCall (header : List UInt8) : PrintCall := ⟨.header, 0, snprintf header⟩

def messageCall (message : List UInt8) : PrintCall := ⟨.message, 0, snprintf message⟩

/-- The cursor behind a blank. -/
def blank (buffer : Cursor) : Cursor := ⟨buffer.put (ascii " "), buffer.pos + 1, buffer.room - 1⟩

/-- The message, behind a blank, if there is room for more than the blank. -/
def formatMessage (env : PrintEnv) (buffer : Cursor) (message : List UInt8) : FormatResult :=
  if buffer.room > 1 then
    let printed := env.apply (messageCall message) (blank buffer).room
    if printed.1 < 0 then .error else .line ((blank buffer).put printed.2)
  else .line buffer.mem

/-- The steps both sinks take to format a line. `none` where the behaviour is undefined. -/
def formatLine (env : PrintEnv) (garbage : ℕ → UInt8) (header : List UInt8)
    (context : LogContextHandle) (message : List UInt8) : Option FormatResult :=
  let printed := env.apply (headerCall header) LOG_MAX_MESSAGE_LENGTH
  if printed.1 < 0 then some .error
  else
    let buffer := (lineBuffer garbage).emit (env.apply (headerCall header))
    match context with
    | none   => some (formatMessage env buffer message)
    | some c =>
      match logContextPropertyToString env buffer c.views c.propertyValuePairCount with
      | none          => none
      | some (n, mem) =>
        if n < 0 then some .error
        else
          let length := (min n buffer.room).toNat
          some (formatMessage env ⟨mem, buffer.pos + length, buffer.room - length⟩ message)

/-! ### The sinks -/

def errorString : List UInt8 := ascii "Error formatting log line"

def errorStringInvalidArgs : List UInt8 := ascii "Error logging: invalid arguments"

/-- The text a callback is called with: the buffer with the line, or one of the texts above. -/
inductive CallbackText where
  | line (temp : List UInt8)
  | literal (text : List UInt8)
  deriving DecidableEq

/-- A call of the callback. -/
structure CallbackCall where
  level : LogLevel
  text  : CallbackText
  deriving DecidableEq

/-- `log_sink_callback_log`: the calls of the callback. -/
def logSinkCallbackLog (env : PrintEnv) (garbage : ℕ → UInt8) (maxLevel level : LogLevel)
    (context : LogContextHandle) (args : LogArguments) : Option (List CallbackCall) :=
  match args.message with
  | none         => some [⟨.critical, .literal errorStringInvalidArgs⟩]
  | some message =>
    if level.toNat > maxLevel.toNat then some []
    else
      match formatLine env garbage (headerText args) context message with
      | none             => none
      | some .error      => some [⟨.critical, .literal errorString⟩]
      | some (.line temp) => some [⟨level, .line temp⟩]

/-- A call of `printf` by the console sink: with the buffer and the code that resets the colour, or
with one of its error texts. -/
inductive ConsolePrint where
  | line (temp : List UInt8)
  | literal (text : List UInt8)
  | invalidArguments
  deriving DecidableEq

/-- The escape character of the colour codes. -/
def escape : List UInt8 := [27]

/-- `level_colors`. -/
def levelColor : LogLevel → List UInt8
  | .critical => escape ++ ascii "[31;1m"
  | .error    => escape ++ ascii "[31m"
  | .warning  => escape ++ ascii "[33m"
  | .info     => escape ++ ascii "[37m"
  | .verbose  => escape ++ ascii "[90m"

/-- `LOG_SINK_CONSOLE_ANSI_COLOR_RESET`. -/
def colorReset : List UInt8 := escape ++ ascii "[0m"

def crlf : List UInt8 := [13, 10]

/-- What the console sink prints before the time. -/
def consolePrefix [Platform] (level : LogLevel) : List UInt8 :=
  levelColor level ++ (Platform.logLevelString level).bytes ++ ascii " "

/-- `log_sink_console_log`: the calls of `printf`. -/
def logSinkConsoleLog [Platform] (env : PrintEnv) (garbage : ℕ → UInt8) (level : LogLevel)
    (context : LogContextHandle) (args : LogArguments) : Option (List ConsolePrint) :=
  match args.message with
  | none         => some [.invalidArguments]
  | some message =>
    match formatLine env garbage (consolePrefix level ++ headerText args) context message with
    | none              => none
    | some .error       => some [.literal (errorString ++ crlf)]
    | some (.line temp) => some [.line temp]

/-- What `printf` prints of the buffer with a line, if there is a terminator in it. -/
def printedText (temp : List UInt8) : List UInt8 := cstr temp ++ colorReset ++ crlf

end CLogging
