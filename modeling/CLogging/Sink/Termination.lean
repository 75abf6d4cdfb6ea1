import CLogging.Sink.Text
import CLogging.ToString.Terminated

/-!
# When a line is terminated

The message ends a line with a terminator if there is room for it. Otherwise the line ends as the
last property left it, and `wcstombs` leaves no terminator where its text uses up the room.
-/

namespace CLogging

open C Printf Forest

/-! ### The message -/

lemma fits_lineBuffer (garbage : ℕ → UInt8) : (lineBuffer garbage).Fits := by
  rw [Cursor.Fits, lineBuffer, length_uninitialised, Nat.zero_add]

/-- A message that is printed ends with a terminator. -/
lemma zero_mem_of_message {c : Cursor} (h : c.Fits) (message : List UInt8) (hroom : 1 < c.room) :
    0 ∈ ((blank c).emit (snprintf message)).mem := by
  have hblank : (blank c).Fits := by
    simp only [Cursor.Fits, blank, Cursor.length_put] at h ⊢
    omega
  have hroom' : (blank c).room ≠ 0 := by
    simp only [blank]
    omega
  exact (terminating_snprintf message).zero_mem_emit hblank (Or.inr hroom')

/-! ### What is stored for a line -/

/-- The header is stored with a terminator. -/
lemma tracks_header {env : PrintEnv} (garbage : ℕ → UInt8) {header : List UInt8}
    (hzero : 0 ∉ header)
    (hheader : ¬ (env.apply (headerCall header) LOG_MAX_MESSAGE_LENGTH).1 < 0) :
    ((lineBuffer garbage).emit (env.apply (headerCall header))).Tracks
        [(env.apply (headerCall header) LOG_MAX_MESSAGE_LENGTH).2] ∧
      EndsTerminated [(env.apply (headerCall header) LOG_MAX_MESSAGE_LENGTH).2] := by
  have hnonneg : 0 ≤ (env.apply (headerCall header) LOG_MAX_MESSAGE_LENGTH).1 := not_lt.mp hheader
  have hwriter := PrintEnv.apply_of_nonneg hnonneg
  have hstart : (lineBuffer garbage).Tracks [] := by
    refine ⟨fits_lineBuffer garbage, fun h => ?_, ?_, fun h => ?_⟩
    · exact absurd h List.not_mem_nil
    · rw [show (lineBuffer garbage).pos = 0 from rfl, Nat.zero_min]
      exact List.not_mem_nil
    · exact absurd h (by decide : LOG_MAX_MESSAGE_LENGTH ≠ 0)
  constructor
  · -- the header is a text without a zero
    refine hstart.emit ?_ hnonneg
    rw [hwriter]
    exact storesText_snprintf hzero
  · -- its store ends with a terminator, as there is room for one
    have hmem : 0 ∈ (env.apply (headerCall header) LOG_MAX_MESSAGE_LENGTH).2 := by
      rw [hwriter]
      exact zero_mem_stored header (show LOG_MAX_MESSAGE_LENGTH ≠ 0 by decide)
    rw [← List.nil_append [_], endsTerminated_concat, if_neg (List.ne_nil_of_mem hmem)]
    exact hmem

/-- All pairs of the context are in one struct, as in every context that the macros make unless the
count of its fields does not fit in a byte. -/
def InStruct : LogContextHandle → Prop
  | none   => True
  | some c => ∃ p cs, ListsTrees [.node p cs] (some c)

/-- What is stored for a line behind its header and before its message. -/
def lineStores (env : PrintEnv) (garbage : ℕ → UInt8) (header : List UInt8)
    (context : LogContextHandle) : List (List UInt8) :=
  (env.apply (headerCall header) LOG_MAX_MESSAGE_LENGTH).2 ::
    bytesStored (contextLog env garbage header context)

/-- The cursor behind the properties of a line: what was stored last decides whether the buffer is
terminated. -/
lemma exists_cursor_of_line {env : PrintEnv} {garbage : ℕ → UInt8} {header message : List UInt8}
    (hzero : 0 ∉ header) {context : LogContextHandle} (hcontext : AllTypes StoresValues context)
    {temp : List UInt8} (h : formatLine env garbage header context message = some (.line temp)) :
    ∃ d, formatMessage env d message = .line temp ∧
      bytesStored (lineLog env garbage header context message) =
        lineStores env garbage header context ++ bytesStored (messageLog env d message) ∧
      d.Tracks (lineStores env garbage header context) ∧
      (InStruct context → ¬ EndsTerminated (lineStores env garbage header context) →
        0 ∉ d.mem) := by
  have hheader := header_of_line h
  obtain ⟨hbuffer, hends⟩ := tracks_header garbage hzero hheader
  simp only [lineStores]
  set before := (env.apply (headerCall header) LOG_MAX_MESSAGE_LENGTH).2
  cases context with
  | none =>
    rw [formatLine, if_neg hheader] at h
    rw [lineLog, if_neg hheader]
    exact ⟨_, Option.some.inj h, rfl, hbuffer, fun _ hnot => absurd hends hnot⟩
  | some c =>
    obtain ⟨s, d, hrun, hneg, hlog, hbehind, hmessage, hline⟩ := exists_run_of_line h
    rw [PrintEnv.apply_of_nonneg (not_lt.mp hheader)] at hbuffer
    set buffer := (lineBuffer garbage).emit (headerCall header).writer
    have hstart : (⟨buffer, 0, 0, 0, []⟩ : PrintState).Tracks [before] := by
      rw [PrintState.Tracks, show bytesStored [] = [] from rfl, List.append_nil]
      exact hbuffer
    have htracks := (loopRun_iff.mpr hrun).tracks hcontext.views hstart
    have huses := (loopRun_iff.mpr hrun).uses
      (PrintState.nested_result_ge (s := ⟨buffer, 0, 0, 0, []⟩))
    have hused : s.result + s.cursor.room ≤ 0 + buffer.room := huses.result_le
    rw [hlog, hline]
    refine ⟨d, hmessage, ?_, ?_, ?_⟩
    · -- the stores are those of the header, of the context and of the message
      simp only [bytesStored, List.map_cons, List.map_append, List.cons_append]
      rfl
    · rw [hbehind]
      exact Cursor.Tracks.lag htracks hbuffer.fits huses.length_eq (by omega)
    · -- inside a struct an unfinished store is the last one only when the room is used up
      rintro ⟨p, cs, pairs, rest, hviews, hcount, hlists⟩ hnot
      rw [hviews, ← hcount] at hrun
      rcases room_eq_zero_or_ends hlists hrun (not_lt.mp hneg) [before] with hroom | hstored
      · rw [hbehind]
        exact htracks.full hroom hnot
      · exact absurd hstored hnot

/-- A message that is printed is stored with a terminator. -/
lemma ends_messageLog {env : PrintEnv} {d : Cursor} {message temp : List UInt8}
    (h : formatMessage env d message = .line temp) (hroom : 1 < d.room)
    (stores : List (List UInt8)) :
    EndsTerminated (stores ++ bytesStored (messageLog env d message)) := by
  rw [formatMessage, if_pos hroom] at h
  have hnonneg : ¬ (env.apply (messageCall message) (blank d).room).1 < 0 := by
    intro hneg
    simp only [if_pos hneg] at h
    cases h
  have hleft : (blank d).room ≠ 0 := by
    simp only [blank]
    omega
  have hmem : 0 ∈ (env.event (messageCall message) (blank d).room).bytes := by
    show 0 ∈ (env.apply (messageCall message) (blank d).room).2
    rw [PrintEnv.apply_of_nonneg (not_lt.mp hnonneg)]
    exact zero_mem_stored message hleft
  rw [messageLog, if_pos hroom]
  show EndsTerminated (stores ++ [(env.event (messageCall message) (blank d).room).bytes])
  rw [endsTerminated_concat, if_neg (List.ne_nil_of_mem hmem)]
  exact hmem

section

variable {env : PrintEnv} {garbage : ℕ → UInt8} {header message temp : List UInt8}
  {context : LogContextHandle} (hzero : 0 ∉ header)

include hzero

/-- If the last bytes that were stored for a line ended with a terminator, the line does. -/
lemma zero_mem_of_ends (hcontext : AllTypes StoresValues context)
    (h : formatLine env garbage header context message = some (.line temp))
    (hends : EndsTerminated (bytesStored (lineLog env garbage header context message))) :
    0 ∈ temp := by
  obtain ⟨d, hmessage, hlog, htracks, -⟩ := exists_cursor_of_line hzero hcontext h
  rcases formatMessage_eq_line hmessage with ⟨hroom, rfl⟩ | ⟨hroom, rfl⟩
  · exact zero_mem_of_message htracks.fits message hroom
  · rw [hlog, messageLog, if_neg (not_lt.mpr hroom)] at hends
    exact htracks.zero_mem (by simpa [bytesStored] using hends)

/-- If they did not, the line is not terminated where all pairs are in one struct. -/
lemma zero_notMem_of_not_ends (hcontext : AllTypes StoresValues context)
    (hstruct : InStruct context)
    (h : formatLine env garbage header context message = some (.line temp))
    (hnot : ¬ EndsTerminated (bytesStored (lineLog env garbage header context message))) :
    0 ∉ temp := by
  obtain ⟨d, hmessage, hlog, -, hfull⟩ := exists_cursor_of_line hzero hcontext h
  rw [hlog] at hnot
  rcases formatMessage_eq_line hmessage with ⟨hroom, rfl⟩ | ⟨hroom, rfl⟩
  · exact absurd (ends_messageLog hmessage hroom _) hnot
  · rw [messageLog, if_neg (not_lt.mpr hroom)] at hnot
    exact hfull hstruct (by simpa [bytesStored] using hnot)

/-- A line without wide strings ends with a terminator that was stored last. -/
lemma ends_of_line (hcontext : AllTypes StoresValues context) (htext : AllTypes PrintsText context)
    (h : formatLine env garbage header context message = some (.line temp)) :
    EndsTerminated (bytesStored (lineLog env garbage header context message)) := by
  have hheader : ¬ (env.apply (headerCall header) LOG_MAX_MESSAGE_LENGTH).1 < 0 := by
    intro hneg
    rw [formatLine, if_pos hneg] at h
    cases h
  obtain ⟨-, hends⟩ := tracks_header garbage hzero hheader
  obtain ⟨d, hmessage, hlog, -, -⟩ := exists_cursor_of_line hzero hcontext h
  have hstores : EndsTerminated (lineStores env garbage header context) := by
    cases context with
    | none => exact hends
    | some c => exact ends_of_printsText htext.views _ _ hends
  rw [hlog]
  rcases formatMessage_eq_line hmessage with ⟨hroom, -⟩ | ⟨hroom, -⟩
  · exact ends_messageLog hmessage hroom _
  · rw [messageLog, if_neg (not_lt.mpr hroom)]
    simpa [bytesStored] using hstores

end

/-! ### Runs that print every name -/

/-- The calls for a line. -/
lemma storesText_lineScript {header : List UInt8} (hheader : 0 ∉ header)
    {context : LogContextHandle} (hcontext : AllTypes StoresValues context)
    {calls : List PrintCall} (h : lineScript header context = some calls) :
    ∀ w ∈ calls.map PrintCall.writer, StoresText w := by
  obtain ⟨rest, hrest, rfl⟩ := Option.map_eq_some_iff.mp h
  refine List.forall_mem_map.mpr (List.forall_mem_cons.mpr
    ⟨storesText_snprintf hheader, fun k hk => ?_⟩)
  cases context with
  | none =>
    obtain rfl := Option.some.inj hrest
    cases hk
  | some c => exact ((contextScript_prints hrest k hk).storesText hcontext.views).1

/-- What is stored for a line is what its calls are meant to store. -/
lemma effective_lineStores {env : PrintEnv} {garbage : ℕ → UInt8} {header : List UInt8}
    {context : LogContextHandle} (hnames : NamesPrinted (contextLog env garbage header context))
    (hrender : Renderable header context) {calls : List PrintCall} {d : Cursor}
    (hscript : lineScript header context = some calls)
    (htry : (lineBuffer garbage).tryAll (calls.map env.apply) = some d) :
    effective (lineStores env garbage header context) =
      effective (storedBy (calls.map PrintCall.writer) LOG_MAX_MESSAGE_LENGTH) := by
  obtain ⟨rest, hrest, rfl⟩ := Option.map_eq_some_iff.mp hscript
  obtain ⟨hheader, htry⟩ := header_of_tryAll htry
  have hwriter := PrintEnv.apply_of_nonneg (not_lt.mp hheader)
  have hroom : ((lineBuffer garbage).emit (headerCall header).writer).room =
      LOG_MAX_MESSAGE_LENGTH - min ((headerCall header).writer LOG_MAX_MESSAGE_LENGTH).1.toNat
        LOG_MAX_MESSAGE_LENGTH := rfl
  have hcontext : effective (bytesStored (contextLog env garbage header context)) =
      effective (storedBy (rest.map env.apply)
        ((lineBuffer garbage).emit (headerCall header).writer).room) := by
    cases context with
    | none =>
      obtain rfl := Option.some.inj hrest
      rfl
    | some c =>
      obtain ⟨hleft, hcount⟩ := hrender.room_ne_zero garbage
      have hspec := logContextPropertyToString_spec hnames hleft (room_header_lt garbage header)
        hcount
      rw [show contextScript c.views c.propertyValuePairCount = some rest from hrest] at hspec
      simp only [htry] at hspec
      exact hspec.2
  rw [storedBy_writer htry, hroom] at hcontext
  rw [lineStores, hwriter, List.map_cons, storedBy, ← List.singleton_append, effective_append,
    hcontext, ← effective_append]
  rfl

/-- Where every name is printed, a line that is terminated whatever the buffer held before ends with
a terminator that was stored last. -/
lemma ends_of_terminates {env : PrintEnv} {header message : List UInt8} (hzero : 0 ∉ header)
    {context : LogContextHandle} (hcontext : AllTypes StoresValues context)
    (hnames : ∀ garbage, NamesPrinted (contextLog env garbage header context))
    (hterminates : ∀ garbage temp,
      formatLine env garbage header context message = some (.line temp) → 0 ∈ temp)
    {garbage : ℕ → UInt8} {temp : List UInt8}
    (h : formatLine env garbage header context message = some (.line temp)) :
    EndsTerminated (bytesStored (lineLog env garbage header context message)) := by
  obtain ⟨hrender, calls, d, hscript, htry, hmessage⟩ :=
    (formatLine_eq_line_iff (hnames garbage)).mp h
  have hstores : bytesStored (lineLog env garbage header context message) =
      lineStores env garbage header context ++ bytesStored (messageLog env d message) := by
    rw [lineLog_eq (hnames garbage) hrender hscript htry, lineStores, List.cons_append,
      ← bytesStored_append]
    rfl
  rw [hstores]
  rcases formatMessage_eq_line hmessage with ⟨hroom, -⟩ | ⟨hroom, -⟩
  · exact ends_messageLog hmessage hroom _
  by_contra hnot
  rw [messageLog, if_neg (not_lt.mpr hroom)] at hnot
  -- the same calls, in a buffer without any zero byte
  set clean : ℕ → UInt8 := fun _ => 1
  have hclean : 0 ∉ (lineBuffer clean).mem := by
    simp [lineBuffer, uninitialised, clean]
  have hsucceed := (exists_tryAll_iff _ (lineBuffer garbage)).mp ⟨d, htry⟩
  obtain ⟨c, htry'⟩ := (exists_tryAll_iff _ (lineBuffer clean)).mpr hsucceed
  have hcursor := Cursor.tryAll_eq_some (tryAll_writer htry')
  have hroom' : ¬ c.room > 1 := by
    rw [Cursor.tryAll_eq_some htry', room_emitAll]
    rw [Cursor.tryAll_eq_some htry, room_emitAll] at hroom
    exact not_lt.mpr hroom
  have hline := hterminates clean c.mem ((formatLine_eq_line_iff (hnames clean)).mpr
    ⟨hrender, calls, c, hscript, htry', if_neg hroom'⟩)
  rw [hcursor] at hline
  have hstart : (lineBuffer clean).Unterminated (EndsTerminated []) :=
    ⟨fits_lineBuffer clean, fun _ => hclean, fun _ h0 => hclean (List.mem_of_mem_take h0),
      fun _ h0 => hclean (List.mem_of_mem_drop h0)⟩
  refine zero_notMem_emitAll (storesText_lineScript hzero hcontext hscript) hstart
    ((exists_tryAll_iff _ (lineBuffer clean)).mp ⟨c, tryAll_writer htry'⟩) (fun hends => hnot ?_) hline
  rw [show bytesStored [] = [] from rfl, List.append_nil]
  exact (endsTerminated_congr (effective_lineStores (hnames garbage) hrender hscript htry)).mpr hends

/-! ### The sinks -/

section

variable [Platform]

/-- Every line the callback is called with is terminated. -/
def CallbackTerminates (env : PrintEnv) (maxLevel level : LogLevel) (context : LogContextHandle)
    (args : LogArguments) : Prop :=
  ∀ garbage temp,
    CallbackEmits (logSinkCallbackLog env garbage maxLevel level context args) temp → 0 ∈ temp

/-- Every line the console prints is terminated. -/
def ConsoleTerminates (env : PrintEnv) (level : LogLevel) (context : LogContextHandle)
    (args : LogArguments) : Prop :=
  ∀ garbage temp, ConsoleEmits (logSinkConsoleLog env garbage level context args) temp → 0 ∈ temp

lemma zero_notMem_header (level : LogLevel) (args : LogArguments) :
    0 ∉ consolePrefix level ++ headerText args := by
  rw [List.mem_append, not_or]
  exact ⟨zero_notMem_consolePrefix level, zero_notMem_headerText args⟩

/-- Whenever the callback is called with a line, the last call that stored anything stored a
terminator. -/
def CallbackEnds (env : PrintEnv) (maxLevel level : LogLevel) (context : LogContextHandle)
    (args : LogArguments) : Prop :=
  ∀ garbage temp message, args.message = some message →
    CallbackEmits (logSinkCallbackLog env garbage maxLevel level context args) temp →
      EndsTerminated (bytesStored (lineLog env garbage (headerText args) context message))

/-- Whenever the console prints a line, the last call that stored anything stored a terminator. -/
def ConsoleEnds (env : PrintEnv) (level : LogLevel) (context : LogContextHandle)
    (args : LogArguments) : Prop :=
  ∀ garbage temp message, args.message = some message →
    ConsoleEmits (logSinkConsoleLog env garbage level context args) temp →
      EndsTerminated (bytesStored
        (lineLog env garbage (consolePrefix level ++ headerText args) context message))

/-- All pairs of the context are in one struct, or no call for the name of a leaf fails. -/
def Traceable (env : PrintEnv) (header : List UInt8) (context : LogContextHandle) : Prop :=
  InStruct context ∨ ∀ garbage, NamesPrinted (contextLog env garbage header context)

omit [Platform] in
/-- A line that is terminated whatever the buffer held before ends with a terminator that was stored
last. -/
lemma Traceable.ends {env : PrintEnv} {header message : List UInt8} {context : LogContextHandle}
    (htraceable : Traceable env header context) (hzero : 0 ∉ header)
    (hcontext : AllTypes StoresValues context)
    (hterminates : ∀ garbage temp,
      formatLine env garbage header context message = some (.line temp) → 0 ∈ temp)
    {garbage : ℕ → UInt8} {temp : List UInt8}
    (h : formatLine env garbage header context message = some (.line temp)) :
    EndsTerminated (bytesStored (lineLog env garbage header context message)) := by
  rcases htraceable with hstruct | hnames
  · by_contra hnot
    exact zero_notMem_of_not_ends hzero hcontext hstruct h hnot (hterminates garbage temp h)
  · exact ends_of_terminates hzero hcontext hnames hterminates h

/-- A line of either sink is terminated if the last call that stored anything stored a terminator,
whichever calls fail, and always without wide strings. Where all pairs are in one struct, or every
name is printed, a line is terminated only if it was. -/
theorem terminates_iff (env : PrintEnv) (maxLevel level : LogLevel) (context : LogContextHandle)
    (args : LogArguments) (hcontext : AllTypes BuiltIn context) :
    (CallbackEnds env maxLevel level context args →
      CallbackTerminates env maxLevel level context args) ∧
    (ConsoleEnds env level context args → ConsoleTerminates env level context args) ∧
    (AllTypes PrintsText context →
      CallbackEnds env maxLevel level context args ∧ ConsoleEnds env level context args) ∧
    (Traceable env (headerText args) context →
      CallbackTerminates env maxLevel level context args →
        CallbackEnds env maxLevel level context args) ∧
    (Traceable env (consolePrefix level ++ headerText args) context →
      ConsoleTerminates env level context args → ConsoleEnds env level context args) := by
  have hstores : AllTypes StoresValues context := fun c hc p hp => (hcontext c hc p hp).storesText
  have hcallback := zero_notMem_headerText args
  have hconsole := zero_notMem_header level args
  refine ⟨?_, ?_, ?_, ?_, ?_⟩
  · -- the last store of every line ends with a zero, and no store takes it away
    intro hends garbage temp hemits
    obtain ⟨message, hmessage, -, hline, -⟩ := callbackEmits_inv hemits
    exact zero_mem_of_ends hcallback hstores hline (hends garbage temp message hmessage hemits)
  · intro hends garbage temp hemits
    obtain ⟨message, hmessage, hline, -⟩ := consoleEmits_inv hemits
    exact zero_mem_of_ends hconsole hstores hline (hends garbage temp message hmessage hemits)
  · -- a property that prints a text always stores its terminator
    intro htext
    constructor
    · intro garbage temp message hmessage hemits
      obtain ⟨message', hmessage', -, hline, -⟩ := callbackEmits_inv hemits
      obtain rfl := Option.some.inj (hmessage.symm.trans hmessage')
      exact ends_of_line hcallback hstores htext hline
    · intro garbage temp message hmessage hemits
      obtain ⟨message', hmessage', hline, -⟩ := consoleEmits_inv hemits
      obtain rfl := Option.some.inj (hmessage.symm.trans hmessage')
      exact ends_of_line hconsole hstores htext hline
  · -- a terminator in every line is one of the last store, whatever the bytes were before
    intro htraceable hterminates garbage temp message hmessage hemits
    obtain ⟨message', hmessage', hlevel, hline, -⟩ := callbackEmits_inv hemits
    obtain rfl := Option.some.inj (hmessage.symm.trans hmessage')
    refine htraceable.ends hcallback hstores (fun garbage temp hline => ?_) hline
    exact hterminates garbage temp (callbackEmits_of_line hmessage hlevel hline)
  · intro htraceable hterminates garbage temp message hmessage hemits
    obtain ⟨message', hmessage', hline, -⟩ := consoleEmits_inv hemits
    obtain rfl := Option.some.inj (hmessage.symm.trans hmessage')
    refine htraceable.ends hconsole hstores (fun garbage temp hline => ?_) hline
    exact hterminates garbage temp (consoleEmits_of_line hmessage hline)

/-- All pairs of a chain of stored contexts are in one struct. -/
theorem inStruct_build {chain : List Level} (hstored : StoredChain chain) (h : Formats chain) :
    InStruct (build chain) := by
  cases chain with
  | nil => exact trivial
  | cons l ls =>
    obtain ⟨c, hc, htokens, hlength⟩ := tokens_build hstored h
    obtain ⟨pairs, rest, hviews, htoken⟩ := exists_views_of_tokens htokens
    obtain ⟨ts, hts, hone⟩ := exists_lists_of_tokens htoken
    have hcount : pairs.length = c.propertyValuePairCount := by
      rw [← hlength, ← htoken, List.length_map]
    rw [build, hc.1]
    obtain ⟨t, rfl⟩ := List.length_eq_one_iff.mp (hone.trans List.length_singleton)
    cases t with
    | node p cs => exact ⟨p, cs, pairs, rest, hviews, hcount, hts⟩
    | leaf p =>
      -- the first pair of a context is a struct
      obtain ⟨rest', rfl, hleaf, -⟩ := lists_leaf hts
      rw [trees, encodeForest_cons, encode_node, List.map_cons, List.cons_append] at htoken
      exact absurd (PropertyView.token_eq_node (List.cons.inj htoken).1).1 hleaf

end

section

attribute [local instance] posix

theorem terminates_sample : CallbackTerminates nameFails .verbose .error sampleContext
    sampleArguments ∧ ConsoleTerminates nameFails .error sampleContext sampleArguments := by
  obtain ⟨hcallback, hconsole, htext, -, -⟩ := terminates_iff nameFails .verbose .error sampleContext
    sampleArguments (allTypes_sampleContext .struct .asciiCharPtr (.scalar .int32))
  obtain ⟨hends, hends'⟩ := htext printsText_sampleContext
  exact ⟨hcallback hends, hconsole hends'⟩

/-- A wide string of three characters. -/
def wideText : List FieldDesc :=
  [FieldDesc.logContextWstringProperty ⟨ascii "w", zero_notMem_w⟩
    (.formatted [97, 98, 99] (by unfold WideChars; decide) (by decide))]

def wideContext : LogContextHandle :=
  (ContextMacro.run (.localDefine fun _ => 0) none wideText).context

/-- A file name that leaves room for exactly the three characters. -/
def longArguments : LogArguments :=
  { sampleArguments with
    file := some ⟨List.replicate 4041 97, by rw [List.mem_replicate]; decide⟩ }

lemma length_headerText_longArguments : (headerText longArguments).length = 4088 := by
  decide +kernel

/-- The calls for a struct with one field. -/
lemma contextScript_pair {p q : PropertyView} (hp : p.type.getType = .struct)
    (hfields : p.fieldCount = 1) (hq : q.type.getType ≠ .struct) :
    contextScript [p, q] 2 = some [p.openCall 0, q.nameCall 1, q.valueCall 1, p.closeCall 0] := by
  simp [contextScript, printScript, hp, hfields, hq]

lemma builtIn_wideContext : AllTypes BuiltIn wideContext := by
  refine allTypes_none.run .struct ?_ _
  intro p hp
  obtain rfl := List.mem_singleton.mp hp
  exact .wcharTPtr

lemma wideContext_eq : wideContext =
    (filled (uninitialised (fun _ => 0) LOG_MAX_STACK_DATA_SIZE) none wideText).context :=
  congrArg Definition.context (run_of_accepts (m := .localDefine fun _ => 0) ⟨by decide, by decide⟩)

/-- What is read from the memory of the context. -/
lemma memory_wideContext :
    (wideContext.map fun c => ((c.deref 0).headD 0, wcs sizeofWchar (c.deref 1))) =
      some (1, [97, 98, 99]) := by
  decide +kernel

lemma views_wideContext : ∃ c, wideContext = some c ∧ c.propertyValuePairCount = 2 ∧
    c.views = [⟨CString.empty, struct, c.deref 0⟩,
      ⟨⟨ascii "w", zero_notMem_w⟩, wcharTPtr, c.deref 1⟩] ∧
    (c.deref 0).headD 0 = 1 ∧ wcs sizeofWchar (c.deref 1) = [97, 98, 99] := by
  have hmemory := memory_wideContext
  rw [wideContext_eq] at hmemory ⊢
  obtain ⟨c, hc, hread⟩ := Option.map_eq_some_iff.mp hmemory
  obtain ⟨hfields, hwide⟩ := Prod.mk.inj hread
  refine ⟨c, hc, ?_, ?_, hfields, hwide⟩
  · obtain rfl := Option.some.inj hc
    rfl
  · obtain rfl := Option.some.inj hc
    rfl

/-- A conversion without a character that does not exist never fails. -/
lemma wcstombs_nonneg (a b c : List UInt8) (room : ℕ) :
    0 ≤ (wcstombs [some a, some b, some c] room).1 := by
  simp only [wcstombs, convert]
  split_ifs <;> exact Int.natCast_nonneg _

/-- No value of the context fails. -/
lemma values_wideContext : ∀ c, wideContext = some c → ∀ p ∈ c.views, ∀ room,
    0 ≤ (p.type.toString p.memory room).1 := by
  obtain ⟨c, hc, -, hviews, -, hwide⟩ := views_wideContext
  intro c' hc' p hp room
  obtain rfl := Option.some.inj (hc.symm.trans hc')
  rw [hviews] at hp
  rcases List.mem_pair.mp hp with rfl | rfl
  · exact Int.natCast_nonneg _
  · simp only [wcharTPtr, hwide]
    exact wcstombs_nonneg _ _ _ room

/-- The calls for a line with that context. -/
def wideWriters (header : List UInt8) : List Writer :=
  [snprintf header, snprintf (structOpenText CString.empty),
    snprintf (leafNameText ⟨ascii "w", zero_notMem_w⟩),
    wcstombs [some [97], some [98], some [99]], snprintf structCloseText]

lemma lineScript_wideContext (header : List UInt8) : ∃ calls,
    lineScript header wideContext = some calls ∧
      calls.map PrintCall.writer = wideWriters header := by
  obtain ⟨c, hc, hcount, hviews, hfields, hwide⟩ := views_wideContext
  have hscript := contextScript_pair (p := ⟨CString.empty, struct, c.deref 0⟩)
    (q := ⟨⟨ascii "w", zero_notMem_w⟩, wcharTPtr, c.deref 1⟩) rfl (congrArg UInt8.toNat hfields)
    (show LogContextPropertyType.wcharTPtr ≠ .struct by decide)
  rw [hc, lineScript, handleScript, hviews, hcount, hscript]
  refine ⟨_, rfl, ?_⟩
  simp only [List.map_cons, List.map_nil, PropertyView.openCall, PropertyView.nameCall,
    PropertyView.valueCall, PropertyView.closeCall, headerCall, wcharTPtr, hwide]
  rfl

/-- What is stored for a line whose header leaves room for exactly the three characters. -/
lemma not_ends_wideWriters {header : List UInt8} (hlength : header.length = 4088) :
    roomAfter (wideWriters header) LOG_MAX_MESSAGE_LENGTH = 0 ∧
      ¬ EndsTerminated (storedBy (wideWriters header) LOG_MAX_MESSAGE_LENGTH) := by
  have hroom : LOG_MAX_MESSAGE_LENGTH - 4088 - (structOpenText CString.empty).length -
      (leafNameText ⟨ascii "w", zero_notMem_w⟩).length = 3 := by decide
  constructor
  · rw [wideWriters, roomAfter_snprintf, roomAfter_snprintf, roomAfter_snprintf, hlength, hroom]
    decide
  · rw [wideWriters, storedBy_snprintf, storedBy_snprintf, storedBy_snprintf, hlength, hroom]
    have hlast : storedBy [wcstombs [some [97], some [98], some [99]], snprintf structCloseText] 3 =
        [[97, 98, 99], []] := by decide
    rw [hlast]
    generalize stored header LOG_MAX_MESSAGE_LENGTH = a
    generalize stored (structOpenText CString.empty) (LOG_MAX_MESSAGE_LENGTH - 4088) = b
    generalize stored (leafNameText ⟨ascii "w", zero_notMem_w⟩) _ = c
    have hsplit : [a, b, c, [97, 98, 99], []] = [a, b, c] ++ [[97, 98, 99]] ++ [[]] := rfl
    rw [hsplit, endsTerminated_concat, if_pos rfl, endsTerminated_concat, if_neg (by decide)]
    decide

/-- A wide string that just fits leaves the line without a terminator. -/
theorem not_callbackTerminates_wideContext :
    AllTypes BuiltIn wideContext ∧
      ¬ CallbackTerminates (fun _ _ => none) .verbose .error wideContext longArguments := by
  refine ⟨builtIn_wideContext, fun hterminates => ?_⟩
  have hstores : AllTypes StoresValues wideContext :=
    fun c hc p hp => (builtIn_wideContext c hc p hp).storesText
  have hlength := length_headerText_longArguments
  obtain ⟨calls, hscript, hwriters⟩ := lineScript_wideContext (headerText longArguments)
  have hrender : Renderable (headerText longArguments) wideContext := by
    rw [wideContext_eq]
    exact ⟨hlength.trans_lt (by decide), by decide⟩
  have hnone : ∀ garbage message, NoFailure (lineLog (fun _ _ => none) garbage
      (headerText longArguments) wideContext message) := fun garbage message =>
    noFailure_lineLog (fun _ _ => rfl) values_wideContext garbage _ message
  have hnames : ∀ garbage, NamesPrinted (contextLog (fun _ _ => none) garbage
      (headerText longArguments) wideContext) := fun garbage =>
    (hnone garbage []).of_lineLog.2.namesPrinted
  have htext : longArguments.message = some (ascii "hello") := rfl
  -- the line is printed
  set garbage : ℕ → UInt8 := fun _ => 0
  obtain ⟨temp, hline⟩ := (exists_line_iff (hnone garbage (ascii "hello"))).mpr
    ⟨hrender, by rw [← Option.isSome_map, ← lineScript, hscript]; rfl⟩
  obtain ⟨-, calls', d, hscript', htry, -⟩ := (formatLine_eq_line_iff (hnames garbage)).mp hline
  obtain rfl := Option.some.inj (hscript.symm.trans hscript')
  obtain ⟨hroom, hnot⟩ := not_ends_wideWriters hlength
  -- there is no room for the message
  have hfull : d.room = 0 := by
    rw [Cursor.tryAll_eq_some htry, room_emitAll,
      show calls.map (PrintEnv.apply fun _ _ => none) = wideWriters _ from hwriters]
    exact hroom
  have hends := ends_of_terminates (zero_notMem_headerText longArguments) hstores hnames
    (fun garbage temp h => hterminates garbage temp (callbackEmits_of_line htext (by decide) h))
    hline
  rw [lineLog_eq (hnames garbage) hrender hscript htry, messageLog, hfull, if_neg (by decide),
    List.append_nil] at hends
  refine hnot (hwriters ▸ (endsTerminated_congr ?_).mp hends)
  exact effective_lineStores (hnames garbage) hrender hscript htry

end

end CLogging
