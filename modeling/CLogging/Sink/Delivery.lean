import CLogging.Context.Rejected
import CLogging.Sink.Format
import CLogging.ToString.Trees

/-!
# When a message is delivered

A sink takes every negative result of `log_context_property_to_string` for a formatting error. That
function is negative without one if there are no pairs or there is no room, so that some messages
are replaced by an error text although nothing failed.
-/

namespace CLogging

open C Printf Forest

lemma FollowsSnprintf.nonneg {context : LogContextHandle} (h : FollowsSnprintf context) :
    ∀ c, context = some c → ∀ p ∈ c.views, ∀ room, 0 ≤ (p.type.toString p.memory room).1 := by
  intro c hc p hp room
  obtain ⟨text, htext⟩ := h c hc p hp
  rw [htext]
  exact Int.natCast_nonneg _

/-- The header leaves room for the context, and the context has pairs and is printed without
leaving the array of pairs. -/
def Deliverable (header : List UInt8) (context : LogContextHandle) : Prop :=
  Renderable header context ∧ (handleScript context).isSome

/-- When a line comes out if no call fails. -/
lemma exists_line_iff {env : PrintEnv} {garbage : ℕ → UInt8} {header message : List UInt8}
    {context : LogContextHandle} (hnone : NoFailure (lineLog env garbage header context message)) :
    (∃ temp, formatLine env garbage header context message = some (.line temp)) ↔
      Deliverable header context := by
  obtain ⟨hheader, hcontext⟩ := hnone.of_lineLog
  simp only [formatLine_eq_line_iff hcontext.namesPrinted]
  constructor
  · -- a line was delivered, so header and context were printed
    rintro ⟨temp, hrender, calls, c, hscript, -, -⟩
    obtain ⟨rest, hrest, -⟩ := Option.map_eq_some_iff.mp hscript
    exact ⟨hrender, by rw [hrest]; rfl⟩
  · -- no call fails: each step of the line goes through
    rintro ⟨hrender, hsome⟩
    obtain ⟨rest, hrest⟩ := Option.isSome_iff_exists.mp hsome
    have hscript : lineScript header context = some (headerCall header :: rest) := by
      rw [lineScript, hrest]
      rfl
    have htry : ∃ d, (lineBuffer garbage).tryAll ((headerCall header :: rest).map env.apply) =
        some d := by
      rw [tryAll_headerCall hheader]
      cases context with
      | none =>
        obtain rfl := Option.some.inj hrest
        exact ⟨_, rfl⟩
      | some c =>
        obtain ⟨hroom, hcount⟩ := hrender.room_ne_zero garbage
        exact exists_tryAll_of_noFailure hcontext hroom (room_header_lt garbage header) hcount hrest
    obtain ⟨d, htry⟩ := htry
    rw [lineLog_eq hcontext.namesPrinted hrender hscript htry] at hnone
    have hmessage : ∃ temp, formatMessage env d message = .line temp := by
      rw [formatMessage]
      by_cases hroom : d.room > 1
      · -- room for the message: its call is one of those made
        have hsucceeds : ¬ (env.apply (messageCall message) (blank d).room).1 < 0 := by
          rw [messageLog, if_pos hroom] at hnone
          exact hnone _ (List.mem_cons_of_mem _ (List.mem_append_right _
            (List.mem_singleton_self _)))
        rw [if_pos hroom]
        exact ⟨_, if_neg hsucceeds⟩
      · -- no room left: the line ends behind the context
        exact ⟨d.mem, if_neg hroom⟩
    obtain ⟨temp, htemp⟩ := hmessage
    exact ⟨temp, hrender, _, d, hscript, htry, htemp⟩

section

variable [Platform]

/-- The callback is called once, with the level and the line. -/
def CallbackDelivers (env : PrintEnv) (garbage : ℕ → UInt8) (maxLevel level : LogLevel)
    (context : LogContextHandle) (args : LogArguments) : Prop :=
  ∃ temp, logSinkCallbackLog env garbage maxLevel level context args = some [⟨level, .line temp⟩]

/-- The console prints once, the line. -/
def ConsoleDelivers (env : PrintEnv) (garbage : ℕ → UInt8) (level : LogLevel)
    (context : LogContextHandle) (args : LogArguments) : Prop :=
  ∃ temp, logSinkConsoleLog env garbage level context args = some [.line temp]

omit [Platform] in
lemma callbackDelivers_iff_line {env : PrintEnv} {garbage : ℕ → UInt8} {maxLevel level : LogLevel}
    {context : LogContextHandle} {args : LogArguments} {message : List UInt8}
    (hmessage : args.message = some message) (hlevel : level.toNat ≤ maxLevel.toNat) :
    CallbackDelivers env garbage maxLevel level context args ↔
      ∃ temp, formatLine env garbage (headerText args) context message = some (.line temp) := by
  simp only [CallbackDelivers, logSinkCallbackLog, hmessage, if_neg (not_lt.mpr hlevel)]
  match formatLine env garbage (headerText args) context message with
  | none              => simp
  | some .error       => simp
  | some (.line temp) => simp

lemma consoleDelivers_iff_line {env : PrintEnv} {garbage : ℕ → UInt8} {level : LogLevel}
    {context : LogContextHandle} {args : LogArguments} {message : List UInt8}
    (hmessage : args.message = some message) :
    ConsoleDelivers env garbage level context args ↔
      ∃ temp, formatLine env garbage (consolePrefix level ++ headerText args) context message =
        some (.line temp) := by
  simp only [ConsoleDelivers, logSinkConsoleLog, hmessage]
  match formatLine env garbage (consolePrefix level ++ headerText args) context message with
  | none              => simp
  | some .error       => simp
  | some (.line temp) => simp

/-- The sinks report a context that is refused as a formatting error. -/
lemma error_of_not_renderable {env : PrintEnv} (henv : env .header 0 = none)
    {garbage : ℕ → UInt8} {maxLevel level : LogLevel} {context : LogContextHandle}
    {args : LogArguments} {message : List UInt8} (hmessage : args.message = some message)
    (hlevel : level.toNat ≤ maxLevel.toNat) (h : ∀ header, ¬ Renderable header context) :
    logSinkCallbackLog env garbage maxLevel level context args =
      some [⟨.critical, .literal errorString⟩] ∧
    logSinkConsoleLog env garbage level context args = some [.literal (errorString ++ crlf)] := by
  simp only [logSinkCallbackLog, logSinkConsoleLog, hmessage, if_neg (not_lt.mpr hlevel),
    formatLine_of_not_renderable henv (h _), and_self]

/-- A chain of stored contexts is printed without leaving the array of pairs. -/
lemma handleScript_build_isSome {chain : List Level} (hstored : StoredChain chain)
    (h : Formats chain) : (handleScript (build chain)).isSome := by
  cases chain with
  | nil => rfl
  | cons l ls =>
    obtain ⟨c, hc, htokens, hlength⟩ := tokens_build hstored h
    rw [build, hc.1]
    exact contextScript_isSome htokens hlength

/-- Of a chain of stored contexts only a long header keeps a message from being delivered. -/
theorem deliverable_build_iff {l : Level} {ls : List Level} (hstored : StoredChain (l :: ls))
    (h : Formats (l :: ls)) (header : List UInt8) :
    Deliverable header (build (l :: ls)) ↔ header.length < LOG_MAX_MESSAGE_LENGTH := by
  have hscript := handleScript_build_isSome hstored h
  have hrep := represents_build h
  obtain ⟨⟨c, hc⟩, -⟩ := id hstored
  rw [build, hc.1] at hrep hscript ⊢
  have hcount := Represents.count_eq hrep
  have hpos : 0 < (entries (l :: ls)).length := by
    rw [entries, if_pos ((stores_iff_accepts l (build ls)).mp ⟨c, hc⟩), childEntries]
    exact Nat.succ_pos _
  constructor
  · rintro ⟨⟨hlength, -⟩, -⟩
    exact hlength
  · intro hlength
    exact ⟨⟨hlength, by rw [hcount]; exact hpos.ne'⟩, hscript⟩

end

section

attribute [local instance] posix

/-- The arguments of a call from `main.c`. -/
def sampleArguments : LogArguments where
  time    := some ⟨ascii "Thu Jan  1 00:00:00 1970", by decide⟩
  file    := some ⟨ascii "main.c", by decide⟩
  func    := some ⟨ascii "main", by decide⟩
  line    := 7
  message := some (ascii "hello")

/-- A context on the stack, below one on the heap. -/
def sampleContext : LogContextHandle := build [sampleChild, sampleParent]

/-- What holds of the types of strings and numbers holds of the types of this context. -/
lemma allTypes_sampleContext {P : LogContextPropertyTypeIf → Prop} (hstruct : P struct)
    (hstring : P asciiCharPtr) (hnumber : P int32) : AllTypes P sampleContext := by
  have hparent : FieldTypes P sampleParent.fields := by
    intro p hp
    obtain rfl := List.mem_singleton.mp hp
    exact hstring
  have hchild : FieldTypes P sampleChild.fields := by
    intro p hp
    obtain rfl := List.mem_singleton.mp hp
    exact hnumber
  exact (allTypes_none.run hstruct hparent sampleParent.kind).run hstruct hchild sampleChild.kind

lemma printsText_sampleContext : AllTypes PrintsText sampleContext :=
  allTypes_sampleContext printsText_struct printsText_asciiCharPtr (printsText_scalar .int32)

lemma followsSnprintf_sampleContext : FollowsSnprintf sampleContext :=
  printsText_sampleContext.followsSnprintf

lemma noFailure_sampleContext (header message : List UInt8) :
    NoFailure (lineLog (fun _ _ => none) (fun _ => 0) header sampleContext message) :=
  noFailure_lineLog (fun _ _ => rfl) followsSnprintf_sampleContext.nonneg _ _ _

/-- The context that `LOG_CONTEXT_LOCAL_DEFINE` leaves when it rejects too much data. -/
def rejectedContext : LogContextHandle :=
  (logContextLocalDefine (fun _ => 0) none oversizedFields).context

lemma not_renderable_rejectedContext (header : List UInt8) :
    ¬ Renderable header rejectedContext := by
  obtain ⟨⟨c, hc, hcount, -⟩, -⟩ := rejected_oversizedFields
  rw [rejectedContext, hc]
  rintro ⟨-, hne⟩
  exact hne hcount

lemma noFailure_rejectedContext (header message : List UInt8) :
    NoFailure (lineLog (fun _ _ => none) (fun _ => 0) header rejectedContext message) := by
  refine noFailure_lineLog (fun _ _ => rfl) (fun c hc p hp => ?_) _ _ _
  obtain ⟨⟨c', hc', -, -, hpairs⟩, -⟩ := rejected_oversizedFields
  obtain rfl := Option.some.inj (hc.symm.trans hc')
  rw [LogContext.views, hpairs] at hp
  cases hp

end

end CLogging
