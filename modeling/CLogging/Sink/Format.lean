import CLogging.Sink.Line
import CLogging.ToString.Types

/-!
# When a line is formatted

Unless a call that prints the name of a leaf fails, a line comes out exactly if the context can be
printed at all and every call succeeds. The buffer then holds what the calls printed, and the
message if there was room left for it.
-/

namespace CLogging

open C Printf

/-! ### Calls that succeed -/

lemma tryEmit_writer {env : PrintEnv} {k : PrintCall} {c d : Cursor}
    (h : c.tryEmit (env.apply k) = some d) : c.tryEmit k.writer = some d := by
  rw [← PrintEnv.apply_of_nonneg (Cursor.tryEmit_eq_some h).1]
  exact h

lemma tryAll_writer {env : PrintEnv} {calls : List PrintCall} {c d : Cursor}
    (h : c.tryAll (calls.map env.apply) = some d) :
    c.tryAll (calls.map PrintCall.writer) = some d := by
  induction calls generalizing c with
  | nil => exact h
  | cons k calls ih =>
    obtain ⟨b, hb, hrest⟩ := Option.bind_eq_some_iff.mp h
    rw [List.map_cons, Cursor.tryAll_cons, tryEmit_writer hb]
    exact ih hrest

/-- Calls that succeed store what they are meant to store. -/
lemma storedBy_writer {env : PrintEnv} {calls : List PrintCall} {c d : Cursor}
    (h : c.tryAll (calls.map env.apply) = some d) :
    storedBy (calls.map env.apply) c.room = storedBy (calls.map PrintCall.writer) c.room := by
  induction calls generalizing c with
  | nil => rfl
  | cons k calls ih =>
    obtain ⟨b, hb, hrest⟩ := Option.bind_eq_some_iff.mp h
    obtain ⟨hnonneg, rfl⟩ := Cursor.tryEmit_eq_some hb
    have hbehind := ih hrest
    rw [List.map_cons, List.map_cons, storedBy, storedBy, ← PrintEnv.apply_of_nonneg hnonneg]
    exact congrArg (_ :: ·) hbehind

/-! ### The calls that are made -/

/-- What is recorded of a call of a sink. -/
def PrintEnv.event (env : PrintEnv) (k : PrintCall) (room : ℕ) : PrintEvent :=
  .call k.site k.index room (env.apply k room).1 (env.apply k room).2

/-- What is done to render the context behind a header. -/
def contextLog (env : PrintEnv) (garbage : ℕ → UInt8) (header : List UInt8) :
    LogContextHandle → List PrintEvent
  | none   => []
  | some c => toStringLog env ((lineBuffer garbage).emit (headerCall header).writer) c.views
      c.propertyValuePairCount

/-- The call for the message, if there is room for it. -/
def messageLog (env : PrintEnv) (buffer : Cursor) (message : List UInt8) : List PrintEvent :=
  if buffer.room > 1 then [env.event (messageCall message) (blank buffer).room] else []

/-- What is done to format a line, as long as it is defined. -/
def lineLog (env : PrintEnv) (garbage : ℕ → UInt8) (header : List UInt8)
    (context : LogContextHandle) (message : List UInt8) : List PrintEvent :=
  env.event (headerCall header) LOG_MAX_MESSAGE_LENGTH ::
    if (env.apply (headerCall header) LOG_MAX_MESSAGE_LENGTH).1 < 0 then []
    else
      let buffer := (lineBuffer garbage).emit (env.apply (headerCall header))
      contextLog env garbage header context ++
        match context with
        | none   => messageLog env buffer message
        | some c =>
          match logContextPropertyToString env buffer c.views c.propertyValuePairCount with
          | none          => []
          | some (n, mem) =>
            if n < 0 then []
            else
              let length := (min n buffer.room).toNat
              messageLog env ⟨mem, buffer.pos + length, buffer.room - length⟩ message

/-! ### The calls for a line -/

/-- The calls for the properties of a context. -/
def handleScript : LogContextHandle → Option (List PrintCall)
  | none   => some []
  | some c => contextScript c.views c.propertyValuePairCount

/-- The calls for a line up to its message. -/
def lineScript (header : List UInt8) (context : LogContextHandle) : Option (List PrintCall) :=
  (handleScript context).map (headerCall header :: ·)

/-- Behind the header, `log_context_property_to_string` does not refuse the context: if there is
one, it has pairs, and there is room for them. -/
def Renderable (header : List UInt8) : LogContextHandle → Prop
  | none   => True
  | some c => header.length < LOG_MAX_MESSAGE_LENGTH ∧ c.propertyValuePairCount ≠ 0

/-- The types of the properties keep the contract of `snprintf`: `to_string` prints a text. -/
def FollowsSnprintf (context : LogContextHandle) : Prop :=
  ∀ c, context = some c → ∀ p ∈ c.views, ∃ text, p.type.toString p.memory = snprintf text

lemma AllTypes.followsSnprintf {context : LogContextHandle} (h : AllTypes PrintsText context) :
    FollowsSnprintf context := by
  rintro c rfl p hp
  obtain ⟨text, -, htext⟩ := h.views p hp p.memory
  exact ⟨text, htext⟩

lemma room_emit_header (garbage : ℕ → UInt8) (header : List UInt8) :
    ((lineBuffer garbage).emit (headerCall header).writer).room =
      LOG_MAX_MESSAGE_LENGTH - header.length := by
  simp only [Cursor.emit, lineBuffer, headerCall, snprintf, Int.toNat_natCast]
  omega

lemma not_renderable_iff {header : List UInt8} {c : LogContext} (garbage : ℕ → UInt8) :
    ¬ Renderable header (some c) ↔
      ((lineBuffer garbage).emit (headerCall header).writer).room = 0 ∨
        c.propertyValuePairCount = 0 := by
  rw [Renderable, room_emit_header]
  omega

/-- The sinks move their cursor to where it stood when the last property was printed. -/
lemma cursor_behind_emitAll (buffer : Cursor) (ws : List Writer) :
    (⟨(buffer.emitAll ws).mem,
      buffer.pos + (min ((buffer.room : ℤ) - (buffer.emitAll ws).room) buffer.room).toNat,
      buffer.room - (min ((buffer.room : ℤ) - (buffer.emitAll ws).room) buffer.room).toNat⟩ :
        Cursor) = buffer.emitAll ws := by
  have hroom := Cursor.emitAll_room_le ws buffer
  have hpos := Cursor.emitAll_pos ws buffer
  have hmin : (min ((buffer.room : ℤ) - (buffer.emitAll ws).room) buffer.room).toNat =
      buffer.room - (buffer.emitAll ws).room := by
    omega
  rw [hmin, ← hpos, Nat.sub_sub_self hroom]

section

variable {env : PrintEnv}

/-- The part of a line behind its header. -/
lemma logContextPropertyToString_nonneg_iff {buffer : Cursor} {c : LogContext}
    (hnames : NamesPrinted (toStringLog env buffer c.views c.propertyValuePairCount))
    (hroom : buffer.room ≠ 0) (hint : buffer.room < 2 ^ 31)
    (hcount : c.propertyValuePairCount ≠ 0) (n : ℤ) (mem : List UInt8) :
    (logContextPropertyToString env buffer c.views c.propertyValuePairCount = some (n, mem) ∧
      ¬ n < 0) ↔
    ∃ calls d, contextScript c.views c.propertyValuePairCount = some calls ∧
      buffer.tryAll (calls.map env.apply) = some d ∧ n = (buffer.room : ℤ) - d.room ∧
        mem = d.mem := by
  have hspec := logContextPropertyToString_spec hnames hroom hint hcount
  match hscript : contextScript c.views c.propertyValuePairCount with
  | none =>
    rw [hscript] at hspec
    constructor
    · -- the pairs are no forest: the function fails
      rintro ⟨hout, hn⟩
      exact absurd (hspec n mem hout) hn
    · rintro ⟨calls, d, h, -⟩
      cases h
  | some calls =>
    rw [hscript] at hspec
    simp only at hspec
    match htry : buffer.tryAll (calls.map env.apply) with
    | none =>
      rw [htry] at hspec
      obtain ⟨m, mem', hout, hneg⟩ := hspec
      constructor
      · rintro ⟨h, hn⟩
        obtain ⟨rfl, -⟩ := Prod.mk.inj (Option.some.inj (hout.symm.trans h))
        exact absurd hneg hn
      · rintro ⟨calls', d, h, h', -⟩
        obtain rfl := Option.some.inj h
        rw [htry] at h'
        cases h'
    | some d =>
      rw [htry] at hspec
      have hle : d.room ≤ buffer.room := by
        rw [Cursor.tryAll_eq_some htry]
        exact Cursor.emitAll_room_le _ _
      constructor
      · -- every call succeeds: size and memory are those of the calls
        rintro ⟨h, -⟩
        obtain ⟨rfl, rfl⟩ := Prod.mk.inj (Option.some.inj (hspec.1.symm.trans h))
        exact ⟨calls, d, rfl, htry, rfl, rfl⟩
      · rintro ⟨calls', d', h, h', rfl, rfl⟩
        obtain rfl := Option.some.inj h
        obtain rfl := Option.some.inj (htry.symm.trans h')
        exact ⟨hspec.1, by omega⟩

/-- Where the cursor stands behind the properties. -/
lemma cursor_behind {buffer d : Cursor} {ws : List Writer} (h : buffer.tryAll ws = some d) :
    (⟨d.mem, buffer.pos + (min ((buffer.room : ℤ) - d.room) buffer.room).toNat,
      buffer.room - (min ((buffer.room : ℤ) - d.room) buffer.room).toNat⟩ : Cursor) = d := by
  obtain rfl := Cursor.tryAll_eq_some h
  exact cursor_behind_emitAll buffer ws

variable {garbage : ℕ → UInt8} {header message temp : List UInt8} {c : LogContext}

/-- Behind the header the other calls go on where it ends. -/
lemma tryAll_headerCall (hheader : ¬ (env.apply (headerCall header) LOG_MAX_MESSAGE_LENGTH).1 < 0)
    (calls : List PrintCall) :
    (lineBuffer garbage).tryAll ((headerCall header :: calls).map env.apply) =
      ((lineBuffer garbage).emit (headerCall header).writer).tryAll (calls.map env.apply) := by
  have hfirst : (lineBuffer garbage).tryEmit (env.apply (headerCall header)) =
      some ((lineBuffer garbage).emit (env.apply (headerCall header))) := tryEmit_of_nonneg hheader
  rw [List.map_cons, Cursor.tryAll_cons, hfirst, Option.bind_some,
    PrintEnv.apply_of_nonneg (not_lt.mp hheader)]

/-- Where all calls of a line succeed, the header is printed and the others come behind it. -/
lemma header_of_tryAll {calls : List PrintCall} {d : Cursor}
    (htry : (lineBuffer garbage).tryAll ((headerCall header :: calls).map env.apply) = some d) :
    ¬ (env.apply (headerCall header) LOG_MAX_MESSAGE_LENGTH).1 < 0 ∧
      ((lineBuffer garbage).emit (headerCall header).writer).tryAll (calls.map env.apply) =
        some d := by
  have hheader : ¬ (env.apply (headerCall header) LOG_MAX_MESSAGE_LENGTH).1 < 0 := by
    intro hneg
    rw [List.map_cons, tryAll_cons_of_neg hneg] at htry
    cases htry
  exact ⟨hheader, (tryAll_headerCall hheader calls).symm.trans htry⟩

lemma Renderable.room_ne_zero (hrender : Renderable header (some c)) (garbage : ℕ → UInt8) :
    ((lineBuffer garbage).emit (headerCall header).writer).room ≠ 0 ∧
      c.propertyValuePairCount ≠ 0 :=
  not_or.mp ((not_congr (not_renderable_iff garbage)).mp (not_not.mpr hrender))

lemma room_header_lt (garbage : ℕ → UInt8) (header : List UInt8) :
    ((lineBuffer garbage).emit (headerCall header).writer).room < 2 ^ 31 := by
  have hlimit : LOG_MAX_MESSAGE_LENGTH < 2 ^ 31 := by decide
  exact (Cursor.emit_room_le (lineBuffer garbage) _).trans_lt hlimit

/-- A line with a context that is not refused. -/
lemma formatLine_renderable_iff
    (hnames : NamesPrinted (contextLog env garbage header (some c)))
    (hheader : ¬ (env.apply (headerCall header) LOG_MAX_MESSAGE_LENGTH).1 < 0)
    (hrender : Renderable header (some c)) :
    formatLine env garbage header (some c) message = some (.line temp) ↔
      ∃ calls d, contextScript c.views c.propertyValuePairCount = some calls ∧
        ((lineBuffer garbage).emit (headerCall header).writer).tryAll (calls.map env.apply) =
          some d ∧ formatMessage env d message = .line temp := by
  rw [formatLine, if_neg hheader]
  simp only [PrintEnv.apply_of_nonneg (not_lt.mp hheader)]
  obtain ⟨hroom, hcount⟩ := hrender.room_ne_zero garbage
  have hint := room_header_lt garbage header
  rw [contextLog] at hnames
  set buffer := (lineBuffer garbage).emit (headerCall header).writer
  have hiff := fun n mem => logContextPropertyToString_nonneg_iff hnames hroom hint hcount n mem
  constructor
  · -- a line: no part of it failed, and the message went behind the context
    intro h
    match hout : logContextPropertyToString env buffer c.views c.propertyValuePairCount with
    | none =>
      rw [hout] at h
      cases h
    | some (n, mem) =>
      rw [hout] at h
      by_cases hn : n < 0
      · simp only [if_pos hn] at h
        cases h
      · simp only [if_neg hn] at h
        obtain ⟨calls, d, hscript, htry, rfl, rfl⟩ := (hiff n mem).mp ⟨hout, hn⟩
        rw [cursor_behind htry] at h
        exact ⟨calls, d, hscript, htry, Option.some.inj h⟩
  · -- the calls of the context go through, so the message decides
    rintro ⟨calls, d, hscript, htry, hmessage⟩
    obtain ⟨hout, hn⟩ := (hiff _ _).mpr ⟨calls, d, hscript, htry, rfl, rfl⟩
    simp only [hout, if_neg hn, cursor_behind htry, hmessage]

/-- A context that is refused turns the line into an error. -/
lemma formatLine_refused (hheader : ¬ (env.apply (headerCall header) LOG_MAX_MESSAGE_LENGTH).1 < 0)
    (hrender : ¬ Renderable header (some c)) :
    formatLine env garbage header (some c) message = some .error := by
  have hrefused := (not_renderable_iff garbage).mp hrender
  rw [formatLine, if_neg hheader]
  simp only [PrintEnv.apply_of_nonneg (not_lt.mp hheader), logContextPropertyToString,
    if_pos hrefused, if_pos (show (-1 : ℤ) < 0 from Int.negSucc_lt_zero 0)]

/-- A line comes out only behind a header that was printed. -/
lemma header_of_line {context : LogContextHandle}
    (h : formatLine env garbage header context message = some (.line temp)) :
    ¬ (env.apply (headerCall header) LOG_MAX_MESSAGE_LENGTH).1 < 0 := by
  intro hneg
  rw [formatLine, if_pos hneg] at h
  cases h

/-- A line with a context: a run that does not fail has printed the properties, and the message
stands behind what it has used up. -/
lemma exists_run_of_line
    (h : formatLine env garbage header (some c) message = some (.line temp)) :
    ∃ s d, logNProperties env ((lineBuffer garbage).emit (headerCall header).writer) c.views
        c.propertyValuePairCount 0 = some s ∧ ¬ s.result < 0 ∧
      contextLog env garbage header (some c) = s.log ∧
      d = ⟨s.cursor.mem, ((lineBuffer garbage).emit (headerCall header).writer).pos +
          (min s.result ((lineBuffer garbage).emit (headerCall header).writer).room).toNat,
        ((lineBuffer garbage).emit (headerCall header).writer).room -
          (min s.result ((lineBuffer garbage).emit (headerCall header).writer).room).toNat⟩ ∧
      formatMessage env d message = .line temp ∧
      lineLog env garbage header (some c) message =
        env.event (headerCall header) LOG_MAX_MESSAGE_LENGTH :: (s.log ++ messageLog env d message) := by
  have hheader := header_of_line h
  have hrender : Renderable header (some c) := by
    by_contra hnot
    rw [formatLine_refused hheader hnot] at h
    cases h
  rw [formatLine, if_neg hheader] at h
  rw [lineLog, if_neg hheader, contextLog]
  simp only [PrintEnv.apply_of_nonneg (not_lt.mp hheader)] at h ⊢
  set buffer := (lineBuffer garbage).emit (headerCall header).writer
  obtain ⟨hout, hlog⟩ := toString_eq env buffer c.views (not_or.mpr (hrender.room_ne_zero garbage))
  rw [hlog]
  cases hrun : logNProperties env buffer c.views c.propertyValuePairCount 0 with
  | none =>
    rw [hrun] at hout
    simp only [hout, Option.map_none] at h
    cases h
  | some s =>
    rw [hrun, Option.map_some] at hout
    simp only [hout] at h ⊢
    by_cases hneg : s.result < 0
    · rw [if_pos hneg] at h
      cases h
    rw [if_neg hneg] at h ⊢
    exact ⟨s, _, rfl, hneg, rfl, rfl, Option.some.inj h, rfl⟩

/-- When a line comes out, and what is in the buffer. -/
theorem formatLine_eq_line_iff {context : LogContextHandle}
    (hnames : NamesPrinted (contextLog env garbage header context)) :
    formatLine env garbage header context message = some (.line temp) ↔
      Renderable header context ∧ ∃ calls c, lineScript header context = some calls ∧
        (lineBuffer garbage).tryAll (calls.map env.apply) = some c ∧
          formatMessage env c message = .line temp := by
  by_cases hheader : (env.apply (headerCall header) LOG_MAX_MESSAGE_LENGTH).1 < 0
  · -- the header fails, so neither has a line
    rw [formatLine, if_pos hheader]
    constructor
    · intro h
      cases h
    · rintro ⟨-, calls, c, hscript, htry, -⟩
      obtain ⟨rest, -, rfl⟩ := Option.map_eq_some_iff.mp hscript
      exact absurd hheader (header_of_tryAll htry).1
  cases context with
  | none =>
    rw [formatLine, if_neg hheader]
    simp only [PrintEnv.apply_of_nonneg (not_lt.mp hheader)]
    constructor
    · intro h
      exact ⟨trivial, _, _, rfl, tryAll_headerCall hheader [], Option.some.inj h⟩
    · rintro ⟨-, calls, c, hscript, htry, hmessage⟩
      obtain rfl := Option.some.inj hscript
      rw [tryAll_headerCall hheader] at htry
      obtain rfl := Option.some.inj htry
      exact congrArg some hmessage
  | some c =>
    by_cases hrender : Renderable header (some c)
    · rw [formatLine_renderable_iff hnames hheader hrender]
      constructor
      · rintro ⟨calls, d, hscript, htry, hmessage⟩
        refine ⟨hrender, _, d, ?_, (tryAll_headerCall hheader calls).trans htry, hmessage⟩
        rw [lineScript, handleScript, hscript]
        rfl
      · rintro ⟨-, all, d, hscript, htry, hmessage⟩
        obtain ⟨calls, hcontext, rfl⟩ := Option.map_eq_some_iff.mp hscript
        rw [tryAll_headerCall hheader] at htry
        exact ⟨calls, d, hcontext, htry, hmessage⟩
    · -- the context cannot be printed: no room, or no pair
      rw [formatLine_refused hheader hrender]
      constructor
      · intro h
        cases h
      · rintro ⟨h, -⟩
        exact absurd h hrender

end

/-- What is done to format a line whose calls succeed up to its message. -/
lemma lineLog_eq {env : PrintEnv} {garbage : ℕ → UInt8} {header : List UInt8}
    {context : LogContextHandle} (hnames : NamesPrinted (contextLog env garbage header context))
    (hrender : Renderable header context) {calls : List PrintCall} {d : Cursor}
    (hscript : lineScript header context = some calls)
    (htry : (lineBuffer garbage).tryAll (calls.map env.apply) = some d) (message : List UInt8) :
    lineLog env garbage header context message =
      env.event (headerCall header) LOG_MAX_MESSAGE_LENGTH ::
        (contextLog env garbage header context ++ messageLog env d message) := by
  obtain ⟨rest, hrest, rfl⟩ := Option.map_eq_some_iff.mp hscript
  obtain ⟨hheader, htry⟩ := header_of_tryAll htry
  rw [lineLog, if_neg hheader]
  simp only [PrintEnv.apply_of_nonneg (not_lt.mp hheader)]
  cases context with
  | none =>
    obtain rfl := Option.some.inj hrest
    obtain rfl := Option.some.inj htry
    rfl
  | some c =>
    obtain ⟨hroom, hcount⟩ := hrender.room_ne_zero garbage
    obtain ⟨hout, hn⟩ := (logContextPropertyToString_nonneg_iff hnames hroom
      (room_header_lt garbage header) hcount _ _).mpr ⟨rest, d, hrest, htry, rfl, rfl⟩
    simp only [hout, if_neg hn, cursor_behind htry]

/-- If no call that is made for a line fails, the header is printed, and no call fails that is made
for the context. -/
lemma NoFailure.of_lineLog {env : PrintEnv} {garbage : ℕ → UInt8} {header message : List UInt8}
    {context : LogContextHandle} (h : NoFailure (lineLog env garbage header context message)) :
    ¬ (env.apply (headerCall header) LOG_MAX_MESSAGE_LENGTH).1 < 0 ∧
      NoFailure (contextLog env garbage header context) := by
  have hheader : ¬ (env.apply (headerCall header) LOG_MAX_MESSAGE_LENGTH).1 < 0 :=
    h _ List.mem_cons_self
  refine ⟨hheader, fun e he => h e ?_⟩
  rw [lineLog, if_neg hheader]
  exact List.mem_cons_of_mem _ (List.mem_append_left _ he)

/-- If nothing can fail, no call that is made for a line does. -/
lemma noFailure_lineLog {env : PrintEnv} (henv : ∀ site index, env site index = none)
    {context : LogContextHandle} (hvalues : ∀ c, context = some c → ∀ p ∈ c.views, ∀ room,
      0 ≤ (p.type.toString p.memory room).1) (garbage : ℕ → UInt8) (header message : List UInt8) :
    NoFailure (lineLog env garbage header context message) := by
  have happly : ∀ k : PrintCall, env.apply k = k.writer := fun k => by rw [PrintEnv.apply, henv]
  have hmessage : ∀ buffer : Cursor, NoFailure (messageLog env buffer message) := by
    intro buffer
    rw [messageLog]
    split_ifs
    · refine List.forall_mem_singleton.mpr (not_lt.mpr ?_)
      rw [happly]
      exact Int.natCast_nonneg _
    · exact List.forall_mem_nil _
  have hcontext : NoFailure (contextLog env garbage header context) := by
    cases context with
    | none => exact List.forall_mem_nil _
    | some c => exact noFailure_toStringLog henv _ (hvalues c rfl) _
  refine List.forall_mem_cons.mpr ⟨not_lt.mpr ?_, ?_⟩
  · rw [happly]
    exact Int.natCast_nonneg _
  · split_ifs
    · exact List.forall_mem_nil _
    · refine List.forall_mem_append.mpr ⟨hcontext, ?_⟩
      cases context with
      | none => exact hmessage _
      | some c =>
        simp only
        split
        · exact List.forall_mem_nil _
        · split_ifs
          · exact List.forall_mem_nil _
          · exact hmessage _

/-- A context that is refused turns the line into an error, although no call failed. -/
lemma formatLine_of_not_renderable {env : PrintEnv} (henv : env .header 0 = none)
    {garbage : ℕ → UInt8} {header message : List UInt8} {context : LogContextHandle}
    (h : ¬ Renderable header context) :
    formatLine env garbage header context message = some .error := by
  have hheader : ¬ (env.apply (headerCall header) LOG_MAX_MESSAGE_LENGTH).1 < 0 := by
    simp only [PrintEnv.apply, headerCall, henv]
    exact not_lt.mpr (Int.natCast_nonneg _)
  cases context with
  | none => exact absurd trivial h
  | some c => exact formatLine_refused hheader h

/-- The message is printed if there is room for more than the blank. -/
lemma formatMessage_eq_line {env : PrintEnv} {c : Cursor} {message temp : List UInt8}
    (h : formatMessage env c message = .line temp) :
    (1 < c.room ∧ temp = ((blank c).emit (snprintf message)).mem) ∨ (c.room ≤ 1 ∧ temp = c.mem) := by
  rw [formatMessage] at h
  by_cases hroom : c.room > 1
  · rw [if_pos hroom] at h
    by_cases hneg : (env.apply (messageCall message) (blank c).room).1 < 0
    · simp only [if_pos hneg] at h
      cases h
    · have hline := (if_neg hneg).symm.trans h
      rw [PrintEnv.apply_of_nonneg (not_lt.mp hneg)] at hline
      exact Or.inl ⟨hroom, (FormatResult.line.inj hline).symm⟩
  · rw [if_neg hroom] at h
    exact Or.inr ⟨not_lt.mp hroom, (FormatResult.line.inj h).symm⟩

end CLogging
