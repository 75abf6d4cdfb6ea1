import CLogging.Sink.Delivery
import CLogging.ToString.Reported

/-!
# The sinks agree

Both sinks print the same texts one behind the other, each behind a header of its own. What they
hand out is the concatenation, cut off at the end of the buffer, unless an error was hidden.
-/

namespace CLogging

open C Printf Forest

/-! ### Hidden errors -/

/-- No error is hidden while the context is printed: no call for the name of a leaf fails, or an
error is reported. -/
def HidesNothing (log : List PrintEvent) : Prop := NamesPrinted log ∨ ErrorReported log

instance : DecidablePred HidesNothing :=
  fun log => inferInstanceAs (Decidable (NamesPrinted log ∨ ErrorReported log))

/-- A line comes out only if no error is reported. -/
lemma not_errorReported_of_line {env : PrintEnv} {garbage : ℕ → UInt8}
    {header message temp : List UInt8} {context : LogContextHandle}
    (h : formatLine env garbage header context message = some (.line temp)) :
    ¬ ErrorReported (contextLog env garbage header context) := by
  cases context with
  | none =>
    -- nothing is printed, so nothing is reported
    rintro (⟨e, hlast, -⟩ | ⟨e, he, -⟩)
    · cases hlast
    · cases he
  | some c =>
    obtain ⟨s, -, hrun, hneg, hlog, -⟩ := exists_run_of_line h
    rw [hlog, ← logNProperties_neg_iff hrun]
    exact hneg

/-- If a line comes out and no error was hidden, every name was printed. -/
lemma HidesNothing.namesPrinted {context : LogContextHandle} {env : PrintEnv} {garbage : ℕ → UInt8}
    {header message temp : List UInt8}
    (h : HidesNothing (contextLog env garbage header context))
    (hline : formatLine env garbage header context message = some (.line temp)) :
    NamesPrinted (contextLog env garbage header context) :=
  h.resolve_right (not_errorReported_of_line hline)

/-! ### The texts of a line -/

lemma exists_texts {calls : List PrintCall} (h : ∀ k ∈ calls, ∃ text, k.writer = snprintf text) :
    ∃ texts : List (List UInt8), calls.map PrintCall.writer = texts.map snprintf := by
  induction calls with
  | nil => exact ⟨[], rfl⟩
  | cons k calls ih =>
    obtain ⟨text, htext⟩ := h k List.mem_cons_self
    obtain ⟨texts, htexts⟩ := ih fun k' hk' => h k' (List.mem_cons_of_mem _ hk')
    exact ⟨text :: texts, by rw [List.map_cons, List.map_cons, htext, htexts]⟩

/-- A context prints the same text in every buffer. -/
lemma FollowsSnprintf.exists_texts {context : LogContextHandle} (h : FollowsSnprintf context) :
    ∃ texts : List (List UInt8), ∀ calls, handleScript context = some calls →
      calls.map PrintCall.writer = texts.map snprintf := by
  match hscript : handleScript context with
  | none => exact ⟨[], fun calls hcalls => by cases hcalls⟩
  | some calls =>
    have hprints : ∀ k ∈ calls, ∃ text, k.writer = snprintf text := by
      intro k hk
      match context with
      | none =>
        obtain rfl := Option.some.inj hscript
        cases hk
      | some c =>
        rcases contextScript_prints hscript k hk with ⟨text, -, htext⟩ | ⟨p, hp, hvalue⟩
        · exact ⟨text, htext⟩
        · rw [hvalue]
          exact h c rfl p hp
    obtain ⟨texts, htexts⟩ := CLogging.exists_texts hprints
    exact ⟨texts, fun calls' hcalls' => by rw [← Option.some.inj hcalls']; exact htexts⟩

/-- What a line is meant to say: a header, the texts of the context, and behind a blank the
message. -/
def lineText (header : List UInt8) (texts : List (List UInt8)) (message : List UInt8) :
    List UInt8 :=
  header ++ texts.flatten ++ 32 :: message

/-- The buffer holds what fits of the line. -/
lemma cstr_of_formatLine {env : PrintEnv} {garbage : ℕ → UInt8} {header message : List UInt8}
    {context : LogContextHandle} (hnames : NamesPrinted (contextLog env garbage header context))
    {temp : List UInt8} {texts : List (List UInt8)}
    (htexts : ∀ calls, handleScript context = some calls →
      calls.map PrintCall.writer = texts.map snprintf)
    (h : formatLine env garbage header context message = some (.line temp)) :
    0 ∈ temp ∧
      cstr temp = (cstr (lineText header texts message)).take (LOG_MAX_MESSAGE_LENGTH - 1) := by
  obtain ⟨-, calls, c, hscript, htry, hmessage⟩ := (formatLine_eq_line_iff hnames).mp h
  obtain ⟨rest, hrest, rfl⟩ := Option.map_eq_some_iff.mp hscript
  have hcursor := Cursor.tryAll_eq_some (tryAll_writer htry)
  rw [List.map_cons, Cursor.emitAll_cons, htexts rest hrest] at hcursor
  have hsize : LOG_MAX_MESSAGE_LENGTH ≤ (uninitialised garbage LOG_MAX_MESSAGE_LENGTH).length := by
    rw [length_uninitialised]
  have hholds : Holds LOG_MAX_MESSAGE_LENGTH (header ++ texts.flatten) c := by
    rw [hcursor]
    exact (holds_first _ header (by decide) hsize).emitAll texts
  rcases formatMessage_eq_line hmessage with ⟨hroom, rfl⟩ | ⟨hroom, rfl⟩
  · -- room for the message: the line ends with it
    have hline := hholds.emit_cons 32 message hroom
    exact ⟨hline.zero_mem, hline.cstr_mem⟩
  · -- no room is left: the message would not be in the line anyway
    have hfull : LOG_MAX_MESSAGE_LENGTH - 1 ≤ (header ++ texts.flatten).length := by
      have := hholds.room_eq
      omega
    refine ⟨hholds.zero_mem, ?_⟩
    rw [hholds.cstr_mem, ← cstr_take, ← cstr_take, lineText, List.take_append_of_le_length hfull]

section

variable [Platform]

omit [Platform] in
lemma zero_notMem_levelColor (level : LogLevel) : 0 ∉ levelColor level := by
  cases level <;> decide

lemma zero_notMem_consolePrefix (level : LogLevel) : 0 ∉ consolePrefix level := by
  simp only [consolePrefix, List.mem_append, not_or]
  exact ⟨⟨zero_notMem_levelColor level, (Platform.logLevelString level).noNul⟩, by decide⟩

/-- The callback is called with a line. -/
def CallbackEmits (calls : Option (List CallbackCall)) (temp : List UInt8) : Prop :=
  ∃ cs, calls = some cs ∧ ∃ level, ⟨level, .line temp⟩ ∈ cs

/-- The console prints a line. -/
def ConsoleEmits (prints : Option (List ConsolePrint)) (temp : List UInt8) : Prop :=
  ∃ ps, prints = some ps ∧ .line temp ∈ ps

omit [Platform] in
lemma callbackEmits_inv {env : PrintEnv} {garbage : ℕ → UInt8} {maxLevel level : LogLevel}
    {context : LogContextHandle} {args : LogArguments} {temp : List UInt8}
    (h : CallbackEmits (logSinkCallbackLog env garbage maxLevel level context args) temp) :
    ∃ message, args.message = some message ∧ level.toNat ≤ maxLevel.toNat ∧
      formatLine env garbage (headerText args) context message = some (.line temp) ∧
        logSinkCallbackLog env garbage maxLevel level context args =
          some [⟨level, .line temp⟩] := by
  obtain ⟨calls, hcalls, level', hmem⟩ := h
  rw [hcalls]
  rw [logSinkCallbackLog] at hcalls
  cases hmessage : args.message with
  | none =>
    rw [hmessage] at hcalls
    obtain rfl := Option.some.inj hcalls
    simp at hmem
  | some message =>
    simp only [hmessage] at hcalls
    split_ifs at hcalls with hlevel
    · obtain rfl := Option.some.inj hcalls
      cases hmem
    · cases hline : formatLine env garbage (headerText args) context message with
      | none => simp [hline] at hcalls
      | some result =>
        cases result with
        | error =>
          simp only [hline, Option.some.injEq] at hcalls
          subst hcalls
          simp at hmem
        | line temp' =>
          simp only [hline, Option.some.injEq] at hcalls
          subst hcalls
          obtain ⟨rfl, heq⟩ := CallbackCall.mk.inj (List.mem_singleton.mp hmem)
          obtain rfl := CallbackText.line.inj heq
          exact ⟨message, rfl, not_lt.mp hlevel, hline, rfl⟩

omit [Platform] in
lemma callbackEmits_of_line {env : PrintEnv} {garbage : ℕ → UInt8} {maxLevel level : LogLevel}
    {context : LogContextHandle} {args : LogArguments} {message temp : List UInt8}
    (hmessage : args.message = some message) (hlevel : level.toNat ≤ maxLevel.toNat)
    (hline : formatLine env garbage (headerText args) context message = some (.line temp)) :
    CallbackEmits (logSinkCallbackLog env garbage maxLevel level context args) temp := by
  refine ⟨[⟨level, .line temp⟩], ?_, level, List.mem_singleton_self _⟩
  simp only [logSinkCallbackLog, hmessage, if_neg (not_lt.mpr hlevel), hline]

lemma consoleEmits_of_line {env : PrintEnv} {garbage : ℕ → UInt8} {level : LogLevel}
    {context : LogContextHandle} {args : LogArguments} {message temp : List UInt8}
    (hmessage : args.message = some message)
    (hline : formatLine env garbage (consolePrefix level ++ headerText args) context message =
      some (.line temp)) :
    ConsoleEmits (logSinkConsoleLog env garbage level context args) temp := by
  refine ⟨[.line temp], ?_, List.mem_singleton_self _⟩
  simp only [logSinkConsoleLog, hmessage, hline]

lemma consoleEmits_inv {env : PrintEnv} {garbage : ℕ → UInt8} {level : LogLevel}
    {context : LogContextHandle} {args : LogArguments} {temp : List UInt8}
    (h : ConsoleEmits (logSinkConsoleLog env garbage level context args) temp) :
    ∃ message, args.message = some message ∧
      formatLine env garbage (consolePrefix level ++ headerText args) context message =
        some (.line temp) ∧
      logSinkConsoleLog env garbage level context args = some [.line temp] := by
  obtain ⟨prints, hprints, hmem⟩ := h
  rw [hprints]
  rw [logSinkConsoleLog] at hprints
  cases hmessage : args.message with
  | none =>
    simp only [hmessage, Option.some.injEq] at hprints
    subst hprints
    simp at hmem
  | some message =>
    simp only [hmessage] at hprints
    cases hline : formatLine env garbage (consolePrefix level ++ headerText args) context message
    with
    | none => simp [hline] at hprints
    | some result =>
      cases result with
      | error =>
        simp only [hline, Option.some.injEq] at hprints
        subst hprints
        simp at hmem
      | line temp' =>
        simp only [hline, Option.some.injEq] at hprints
        subst hprints
        obtain rfl := ConsolePrint.line.inj (List.mem_singleton.mp hmem)
        exact ⟨message, rfl, hline, rfl⟩

/-- One text is behind what both sinks hand out: the callback gets its first bytes, and the console
prints with one call the first bytes of it behind the coloured level, and resets the colour. -/
def SinksAgree (level : LogLevel) (calls : Option (List CallbackCall)) (temp₁ : List UInt8)
    (prints : Option (List ConsolePrint)) (temp₂ : List UInt8) : Prop :=
  ∃ text : List UInt8,
    (calls = some [⟨level, .line temp₁⟩] ∧ 0 ∈ temp₁ ∧
      cstr temp₁ = text.take (LOG_MAX_MESSAGE_LENGTH - 1)) ∧
    (prints = some [.line temp₂] ∧ 0 ∈ temp₂ ∧
      printedText temp₂ = (consolePrefix level ++ text).take (LOG_MAX_MESSAGE_LENGTH - 1) ++
        colorReset ++ crlf)

/-- The sinks agree unless an error was hidden in one of them. -/
theorem sinksAgree (env₁ env₂ : PrintEnv) (garbage₁ garbage₂ : ℕ → UInt8)
    (maxLevel level : LogLevel) (context : LogContextHandle) (args : LogArguments)
    (hcontext : FollowsSnprintf context)
    (hhidden₁ : HidesNothing (contextLog env₁ garbage₁ (headerText args) context))
    (hhidden₂ : HidesNothing
      (contextLog env₂ garbage₂ (consolePrefix level ++ headerText args) context))
    (temp₁ temp₂ : List UInt8)
    (hcallback : CallbackEmits (logSinkCallbackLog env₁ garbage₁ maxLevel level context args) temp₁)
    (hconsole : ConsoleEmits (logSinkConsoleLog env₂ garbage₂ level context args) temp₂) :
    SinksAgree level (logSinkCallbackLog env₁ garbage₁ maxLevel level context args) temp₁
      (logSinkConsoleLog env₂ garbage₂ level context args) temp₂ := by
  obtain ⟨message, hmessage, -, hline₁, hcalls⟩ := callbackEmits_inv hcallback
  obtain ⟨message', hmessage', hline₂, hprints⟩ := consoleEmits_inv hconsole
  obtain rfl := Option.some.inj (hmessage.symm.trans hmessage')
  obtain ⟨texts, htexts⟩ := hcontext.exists_texts
  obtain ⟨hzero₁, hcstr₁⟩ := cstr_of_formatLine (hhidden₁.namesPrinted hline₁) htexts hline₁
  obtain ⟨hzero₂, hcstr₂⟩ := cstr_of_formatLine (hhidden₂.namesPrinted hline₂) htexts hline₂
  have hbehind : lineText (consolePrefix level ++ headerText args) texts message =
      consolePrefix level ++ lineText (headerText args) texts message := by
    simp only [lineText, List.append_assoc]
  rw [hbehind, cstr_append_of_notMem (zero_notMem_consolePrefix level)] at hcstr₂
  refine ⟨_, ⟨hcalls, hzero₁, hcstr₁⟩, hprints, hzero₂, ?_⟩
  rw [printedText, hcstr₂]

end

section

attribute [local instance] posix

theorem sinksAgree_sample : ∃ temp₁ temp₂, SinksAgree .error
    (logSinkCallbackLog (fun _ _ => none) (fun _ => 0) .verbose .error sampleContext
      sampleArguments) temp₁
    (logSinkConsoleLog (fun _ _ => none) (fun _ => 0) .error sampleContext
      sampleArguments) temp₂ := by
  have hbuild := deliverable_build_iff storedChain_sample formats_sample
  have hnone₁ := noFailure_sampleContext (headerText sampleArguments) (ascii "hello")
  have hnone₂ := noFailure_sampleContext (consolePrefix .error ++ headerText sampleArguments)
    (ascii "hello")
  obtain ⟨temp₁, hline₁⟩ := (exists_line_iff hnone₁).mpr ((hbuild _).mpr (by decide))
  obtain ⟨temp₂, hline₂⟩ := (exists_line_iff hnone₂).mpr ((hbuild _).mpr (by decide))
  exact ⟨temp₁, temp₂, sinksAgree _ _ _ _ .verbose .error sampleContext sampleArguments
    followsSnprintf_sampleContext (Or.inl hnone₁.of_lineLog.2.namesPrinted)
    (Or.inl hnone₂.of_lineLog.2.namesPrinted) temp₁ temp₂
    (callbackEmits_of_line rfl (by decide) hline₁) (consoleEmits_of_line rfl hline₂)⟩

/-- Two numbers. -/
def numbers : List FieldDesc :=
  [FieldDesc.logContextProperty .int8 ⟨ascii "x", zero_notMem_x⟩ ⟨[1], rfl⟩,
    FieldDesc.logContextProperty .int8 ⟨ascii "y", zero_notMem_y⟩ ⟨[2], rfl⟩]

def numbersContext : LogContextHandle :=
  (ContextMacro.run (.localDefine fun _ => 0) none numbers).context

lemma followsSnprintf_numbersContext : FollowsSnprintf numbersContext := by
  have hfields : FieldTypes PrintsText numbers := by
    intro p hp
    rcases List.mem_pair.mp hp with rfl | rfl
    · exact printsText_scalar .int8
    · exact printsText_scalar .int8
  exact (allTypes_none.run printsText_struct hfields _).followsSnprintf

/-- Printing the name of the first number fails. -/
def nameFails : PrintEnv
  | .leafName, 1 => some ⟨-1, minusOne_negative, []⟩
  | _, _         => none

/-- The string in the buffer with a line. -/
def FormatResult.text : FormatResult → Option (List UInt8)
  | .line temp => some (cstr temp)
  | .error     => none

lemma formatLine_eq_of_text {env : PrintEnv} {garbage : ℕ → UInt8} {header message : List UInt8}
    {context : LogContextHandle} {text : List UInt8}
    (h : (formatLine env garbage header context message).bind FormatResult.text = some text) :
    ∃ temp, formatLine env garbage header context message = some (.line temp) ∧
      cstr temp = text := by
  obtain ⟨result, hresult, htext⟩ := Option.bind_eq_some_iff.mp h
  match result with
  | .line temp => exact ⟨temp, hresult, Option.some.inj htext⟩
  | .error => cases htext

/-- If printing a name fails in one of the sinks, a later result can hide it. -/
theorem not_sinksAgree_nameFails :
    FollowsSnprintf numbersContext ∧ ∃ temp₁ temp₂,
      CallbackEmits (logSinkCallbackLog nameFails (fun _ => 0) .verbose .error numbersContext
        sampleArguments) temp₁ ∧
      ConsoleEmits (logSinkConsoleLog (fun _ _ => none) (fun _ => 0) .error numbersContext
        sampleArguments) temp₂ ∧
      ¬ SinksAgree .error
        (logSinkCallbackLog nameFails (fun _ => 0) .verbose .error numbersContext
          sampleArguments) temp₁
        (logSinkConsoleLog (fun _ _ => none) (fun _ => 0) .error numbersContext
          sampleArguments) temp₂ := by
  have hcallback : (formatLine nameFails (fun _ => 0) (headerText sampleArguments) numbersContext
      (ascii "hello")).bind FormatResult.text = some
        (ascii "Time:Thu Jan  1 00:00:00 1970 File:main.c:7 Func:main \x7b y= \x7d hello") := by
    decide +kernel
  have hconsole : (formatLine (fun _ _ => none) (fun _ => 0)
      (consolePrefix .error ++ headerText sampleArguments) numbersContext
      (ascii "hello")).bind FormatResult.text = some (consolePrefix .error ++
        ascii "Time:Thu Jan  1 00:00:00 1970 File:main.c:7 Func:main \x7b x=1 y=2 \x7d hello") := by
    decide +kernel
  obtain ⟨temp₁, hline₁, hcstr₁⟩ := formatLine_eq_of_text hcallback
  obtain ⟨temp₂, hline₂, hcstr₂⟩ := formatLine_eq_of_text hconsole
  refine ⟨followsSnprintf_numbersContext, temp₁, temp₂,
    callbackEmits_of_line rfl (by decide) hline₁,
    consoleEmits_of_line rfl hline₂, ?_⟩
  rintro ⟨text, ⟨-, -, htext₁⟩, -, -, htext₂⟩
  have hlength : text.length < LOG_MAX_MESSAGE_LENGTH - 1 := by
    have htake := congrArg List.length (hcstr₁.symm.trans htext₁)
    rw [List.length_take] at htake
    have hshort : (ascii "Time:Thu Jan  1 00:00:00 1970 File:main.c:7 Func:main \x7b y= \x7d hello").length <
        LOG_MAX_MESSAGE_LENGTH - 1 := by decide
    omega
  rw [List.take_of_length_le hlength.le] at htext₁
  rw [printedText, hcstr₂, ← htext₁, hcstr₁] at htext₂
  exact absurd htext₂ (by decide +kernel)

end

end CLogging
