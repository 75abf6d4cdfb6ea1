import CLogging.Sink.Agreement
import CLogging.ToString.Closing
import CLogging.ToString.Rendering

/-!
# The text of a line

What the callback gets is the header, the rendering of the context and the message, cut off at the
end of the buffer, unless an error in rendering the context was hidden.
-/

namespace CLogging

open C Printf Forest

/-- The context is `NULL`, or its pairs list some trees. -/
def ListsTrees (ts : List PropertyTree) : LogContextHandle → Prop
  | none   => ts = []
  | some c => ∃ pairs rest, c.views = pairs ++ rest ∧ pairs.length = c.propertyValuePairCount ∧
      Lists pairs ts

/-- The run behind a header over a context that lists some trees. -/
lemma ListsTrees.levelRun {ts : List PropertyTree} {c : LogContext} (h : ListsTrees ts (some c))
    {env : PrintEnv} {garbage : ℕ → UInt8} {header : List UInt8} {s : PrintState}
    (hrun : logNProperties env ((lineBuffer garbage).emit (headerCall header).writer) c.views
      c.propertyValuePairCount 0 = some s) :
    LevelRun ts 0 ⟨(lineBuffer garbage).emit (headerCall header).writer, 0, 0, 0, []⟩ s s.log := by
  obtain ⟨pairs, rest, hviews, hcount, hlists⟩ := h
  have hint : 0 ≤ int ((lineBuffer garbage).emit (headerCall header).writer).room := by
    rw [int_natCast (room_header_lt garbage header)]
    exact Int.natCast_nonneg _
  obtain ⟨s', hrun', hlevel⟩ := exists_run env hlists rest _ hint
  rw [hviews, ← hcount] at hrun
  obtain rfl := Option.some.inj (hrun.symm.trans hrun')
  exact hlevel

/-- The context is `NULL`, or its pairs list some trees that print some texts. -/
def HoldsTrees (text : PropertyView → List UInt8) (ts : List PropertyTree) :
    LogContextHandle → Prop
  | none   => ts = []
  | some c => ∃ pairs rest, c.views = pairs ++ rest ∧ pairs.length = c.propertyValuePairCount ∧
      Lists pairs ts ∧ PrintsAs text pairs

/-- The text of a line that is not cut off. -/
def fullText (header : List UInt8) (text : PropertyView → List UInt8) (ts : List PropertyTree)
    (message : List UInt8) : List UInt8 :=
  header ++ rendering text ts ++ 32 :: message

/-- The buffer holds as much of the text of a line as fits. -/
def HoldsLine (full temp : List UInt8) : Prop :=
  ∃ rest, temp = full.take (LOG_MAX_MESSAGE_LENGTH - 1) ++ 0 :: rest

/-- A reader of the buffer gets the first 4095 bytes of the text, up to its first zero byte. -/
lemma HoldsLine.cstr_eq {full temp : List UInt8} (h : HoldsLine full temp) :
    cstr temp = (cstr full).take (LOG_MAX_MESSAGE_LENGTH - 1) := by
  obtain ⟨rest, rfl⟩ := h
  rw [cstr_append_zero_cons, cstr_take]

lemma HoldsTrees.lists {text : PropertyView → List UInt8} {ts : List PropertyTree}
    {context : LogContextHandle} (h : HoldsTrees text ts context) : ListsTrees ts context := by
  cases context with
  | none => exact h
  | some c =>
    obtain ⟨pairs, rest, hviews, hcount, hlists, -⟩ := h
    exact ⟨pairs, rest, hviews, hcount, hlists⟩

/-- No call fails, or an error is reported. -/
def NothingHidden (ts : List PropertyTree) (log : List PrintEvent) : Prop :=
  (∀ e ∈ log, ¬ e.Fails) ∨ ∃ e ∈ log, e.Reported (lastLeaves 0 ts)

/-- The message behind the header and the context. -/
lemma holdsLine_of_formatMessage {env : PrintEnv} {text : PropertyView → List UInt8}
    {ts : List PropertyTree} {header message temp : List UInt8} {c : Cursor}
    (hholds : Holds LOG_MAX_MESSAGE_LENGTH (header ++ rendering text ts) c)
    (h : formatMessage env c message = .line temp) :
    HoldsLine (fullText header text ts message) temp := by
  rcases formatMessage_eq_line h with ⟨hroom, rfl⟩ | ⟨hroom, rfl⟩
  · exact (hholds.emit_cons 32 message hroom).mem_eq
  · have hfull : LOG_MAX_MESSAGE_LENGTH - 1 ≤ (header ++ rendering text ts).length := by
      have := hholds.room_eq
      omega
    obtain ⟨rest, hrest⟩ := hholds.mem_eq
    exact ⟨rest, by rw [hrest, fullText, List.take_append_of_le_length hfull]⟩

/-- A buffer with a line holds the whole text, unless an error was hidden. -/
lemma holdsLine_of_formatLine {env : PrintEnv} {garbage : ℕ → UInt8} {header message : List UInt8}
    {context : LogContextHandle} {text : PropertyView → List UInt8} {ts : List PropertyTree}
    (hcontext : HoldsTrees text ts context)
    (hhidden : NothingHidden ts (contextLog env garbage header context)) {temp : List UInt8}
    (h : formatLine env garbage header context message = some (.line temp)) :
    HoldsLine (fullText header text ts message) temp := by
  have hsize : LOG_MAX_MESSAGE_LENGTH ≤ (uninitialised garbage LOG_MAX_MESSAGE_LENGTH).length := by
    rw [length_uninitialised]
  have hfirst : Holds LOG_MAX_MESSAGE_LENGTH header
      ((lineBuffer garbage).emit (headerCall header).writer) :=
    holds_first _ header (by decide) hsize
  have hheader := header_of_line h
  cases context with
  | none =>
    obtain rfl : ts = [] := hcontext
    have hrendering : rendering text [] = [] := by rw [rendering]
    rw [formatLine, if_neg hheader] at h
    simp only [PrintEnv.apply_of_nonneg (not_lt.mp hheader)] at h
    refine holdsLine_of_formatMessage ?_ (Option.some.inj h)
    rwa [hrendering, List.append_nil]
  | some c =>
    obtain ⟨s, d, hrun, hneg, hlog, hbehind, hmessage, -⟩ := exists_run_of_line h
    have hlevel := hcontext.lists.levelRun hrun
    obtain ⟨pairs, rest, -, -, hlists, htext⟩ := hcontext
    rw [hlog] at hhidden
    have hroom := room_header_lt garbage header
    set buffer := (lineBuffer garbage).emit (headerCall header).writer
    -- an error that is reported would have made the run fail
    have hnone : ∀ e ∈ s.log, ¬ e.Fails :=
      hhidden.resolve_right fun hreported => hneg (hlevel.fails_iff.mpr (Or.inl hreported))
    have hholds := holds_of_levelRun hlists htext hfirst hroom hlevel hnone
    obtain ⟨hcursor, hresult, -⟩ := hlevel.prints hroom hnone
    have hsame := cursor_behind_emitAll buffer (writers ts)
    rw [← hcursor] at hsame
    rw [hbehind, hresult, zero_add, hsame] at hmessage
    exact holdsLine_of_formatMessage hholds hmessage

/-- What the callback gets, unless an error in rendering the context was hidden. -/
theorem callback_line_text (env : PrintEnv) (garbage : ℕ → UInt8) (maxLevel level : LogLevel)
    (context : LogContextHandle) (args : LogArguments) {text : PropertyView → List UInt8}
    {ts : List PropertyTree} (hcontext : HoldsTrees text ts context)
    (hhidden : NothingHidden ts (contextLog env garbage (headerText args) context))
    (temp : List UInt8)
    (h : CallbackEmits (logSinkCallbackLog env garbage maxLevel level context args) temp) :
    ∃ message, args.message = some message ∧
      HoldsLine (fullText (headerText args) text ts message) temp := by
  obtain ⟨message, hmessage, -, hline, -⟩ := callbackEmits_inv h
  exact ⟨message, hmessage, holdsLine_of_formatLine hcontext hhidden hline⟩

/-! ### The contexts that are made -/

/-- Every context that is made of types that print a text lists trees that print texts. -/
theorem exists_holdsTrees [Platform] {chain : List Level} (hstored : StoredChain chain)
    (h : Formats chain) (htypes : FollowsSnprintf (build chain)) :
    ∃ text ts, HoldsTrees text ts (build chain) := by
  cases chain with
  | nil => exact ⟨fun _ => [], [], rfl⟩
  | cons l ls =>
    obtain ⟨c, hc, htokens, hlength⟩ := tokens_build hstored h
    rw [build, hc.1] at htypes ⊢
    obtain ⟨pairs, rest, hviews, htoken⟩ := exists_views_of_tokens htokens
    obtain ⟨ts, hts, -⟩ := exists_lists_of_tokens htoken
    have hcount : pairs.length = c.propertyValuePairCount := by
      rw [← hlength, ← htoken, List.length_map]
    have hprints : ∀ p : PropertyView, ∃ text, p ∈ pairs → p.type.toString p.memory = snprintf text :=
      fun p => by
        by_cases hp : p ∈ pairs
        · obtain ⟨text, htext⟩ := htypes c rfl p (hviews ▸ List.mem_append_left rest hp)
          exact ⟨text, fun _ => htext⟩
        · exact ⟨[], fun hmem => absurd hmem hp⟩
    choose text htext using hprints
    exact ⟨text, ts, pairs, rest, hviews, hcount, hts, fun p hp _ => htext p hp⟩

section

attribute [local instance] posix

/-- Two numbers, in a context on the heap. -/
def numbersOnHeap : LogContextHandle :=
  (ContextMacro.run (.create (some fun _ => 0)) none numbers).context

def numbersTrees : List PropertyTree :=
  [.node ⟨CString.empty, struct, [2, 1, 2]⟩ [.leaf ⟨⟨ascii "x", zero_notMem_x⟩, int8, [1, 2]⟩,
    .leaf ⟨⟨ascii "y", zero_notMem_y⟩, int8, [2]⟩]]

lemma holdsTrees_numbersOnHeap : HoldsTrees numberText numbersTrees numbersOnHeap := by
  refine ⟨[⟨CString.empty, struct, [2, 1, 2]⟩, ⟨⟨ascii "x", zero_notMem_x⟩, int8, [1, 2]⟩,
    ⟨⟨ascii "y", zero_notMem_y⟩, int8, [2]⟩], [], rfl, rfl, rfl, ?_⟩
  intro p hp hleaf
  simp only [List.mem_cons, List.not_mem_nil, or_false] at hp
  rcases hp with rfl | rfl | rfl
  · exact absurd rfl hleaf
  · rfl
  · rfl

lemma fullText_numbersTrees :
    fullText (headerText sampleArguments) numberText numbersTrees (ascii "hello") =
      ascii "Time:Thu Jan  1 00:00:00 1970 File:main.c:7 Func:main \x7b x=1 y=2 \x7d hello" := by
  simp only [fullText, numbersTrees, rendering]
  decide +kernel

theorem callback_line_text_sample : ∃ temp,
    CallbackEmits (logSinkCallbackLog (fun _ _ => none) (fun _ => 0) .verbose .error
      numbersOnHeap sampleArguments) temp ∧
    HoldsLine (ascii "Time:Thu Jan  1 00:00:00 1970 File:main.c:7 Func:main \x7b x=1 y=2 \x7d hello")
      temp := by
  have hformat : ((formatLine (fun _ _ => none) (fun _ => 0) (headerText sampleArguments)
      numbersOnHeap (ascii "hello")).bind FormatResult.text).isSome := by
    decide +kernel
  obtain ⟨text, htext⟩ := Option.isSome_iff_exists.mp hformat
  obtain ⟨temp, hline, -⟩ := formatLine_eq_of_text htext
  have hemits : CallbackEmits (logSinkCallbackLog (fun _ _ => none) (fun _ => 0) .verbose .error
      numbersOnHeap sampleArguments) temp := callbackEmits_of_line rfl (by decide) hline
  obtain ⟨message, hmessage, hholds⟩ := callback_line_text (fun _ _ => none) (fun _ => 0) .verbose
    .error numbersOnHeap sampleArguments holdsTrees_numbersOnHeap (Or.inl (by decide +kernel))
    temp hemits
  obtain rfl := Option.some.inj hmessage
  rw [fullText_numbersTrees] at hholds
  exact ⟨temp, hemits, hholds⟩

/-- If printing the first name fails, the callback gets a line without it. -/
theorem not_line_text_nameFails : HoldsTrees numberText numbersTrees numbersOnHeap ∧ ∃ temp,
    CallbackEmits (logSinkCallbackLog nameFails (fun _ => 0) .verbose .error numbersOnHeap
      sampleArguments) temp ∧
    ¬ HoldsLine (fullText (headerText sampleArguments) numberText numbersTrees (ascii "hello"))
      temp := by
  have hformat : (formatLine nameFails (fun _ => 0) (headerText sampleArguments) numbersOnHeap
      (ascii "hello")).bind FormatResult.text = some
        (ascii "Time:Thu Jan  1 00:00:00 1970 File:main.c:7 Func:main \x7b y= \x7d hello") := by
    decide +kernel
  obtain ⟨temp, hline, hcstr⟩ := formatLine_eq_of_text hformat
  refine ⟨holdsTrees_numbersOnHeap, temp, callbackEmits_of_line rfl (by decide) hline, ?_⟩
  rintro ⟨rest, rfl⟩
  rw [fullText_numbersTrees, cstr_append_zero_cons] at hcstr
  exact absurd hcstr (by decide +kernel)

end

end CLogging
