import CLogging.Etw.Metadata

/-!
# Written events

Whichever way the event takes, its metadata are the name of the event, the fixed fields, and the
fields of all properties or of none.
-/

namespace CLogging

open C Memory Printf TraceLogging

lemma vsnprintf_none (text : List UInt8) : vsnprintf text none = snprintf text := rfl

lemma vsnprintf_some_lt (text : List UInt8) (failure : Failure) (room : ℕ) :
    (vsnprintf text (some failure) room).1 < 0 := failure.negative

section

variable [Platform]

variable (traceLevel : ℕ) {fixed b : MetadataBuffer} (pairs : List PropertyView) (count : ℕ)
  (file func : Option CString) (line : ℤ) (message : FormattedMessage)
  {fixedBytes propertyBytes : List UInt8} (hfixed : fixed.Filled fixedBytes)
  (hroom : fixedBytes.length < MAX_METADATA_SIZE)

include hfixed hroom

/-- Without properties the message is printed once, behind the fixed fields. -/
lemma printMessage_fixed (hkeeps : b.Keeps fixedBytes) :
    (message.first ≠ none ∧ ∃ ws,
      printMessage traceLevel fixed b false pairs count file func line message = some ⟨ws, []⟩ ∧
        StaysBelow ws MAX_METADATA_SIZE) ∨
    message.first = none ∧ ∃ b', Printed fixedBytes message.text b' ∧
      printMessage traceLevel fixed b false pairs count file func line message =
        writeEvent traceLevel b' fixedBytes.length file func line false pairs count := by
  have hprints := hkeeps.vsnprintf message.text message.first
  rw [printMessage]
  simp only [Bool.false_eq_true, if_false, and_false, hfixed.pos_eq]
  match hfirst : message.first with
  | some failure =>
    rw [hfirst] at hprints
    exact Or.inl ⟨Option.some_ne_none failure, _, if_pos (vsnprintf_some_lt _ _ _), hprints.inside⟩
  | none =>
    rw [vsnprintf_none, snprintf, if_neg (Int.not_lt.mpr (Int.natCast_nonneg _))]
    exact Or.inr ⟨rfl, _, hkeeps.printed message.text hroom, rfl⟩

/-- The message is printed behind all properties if it fits there, and else a second time, behind
the fixed fields. -/
lemma printMessage_behind (hfilled : b.Filled (fixedBytes ++ propertyBytes)) :
    (∃ ws, printMessage traceLevel fixed b true pairs count file func line message =
        some ⟨ws, []⟩ ∧ StaysBelow ws MAX_METADATA_SIZE ∧
      (message.first ≠ none ∨ MAX_METADATA_SIZE ≤
        (fixedBytes ++ propertyBytes).length + message.text.length ∧ message.second ≠ none)) ∨
    message.first = none ∧
      ((MAX_METADATA_SIZE ≤ (fixedBytes ++ propertyBytes).length + message.text.length ∧
        message.second = none ∧ ∃ b', Printed fixedBytes message.text b' ∧
          printMessage traceLevel fixed b true pairs count file func line message =
            writeEvent traceLevel b' fixedBytes.length file func line false pairs count) ∨
      ((fixedBytes ++ propertyBytes).length + message.text.length < MAX_METADATA_SIZE ∧
        ∃ b', Printed (fixedBytes ++ propertyBytes) message.text b' ∧
          printMessage traceLevel fixed b true pairs count file func line message =
            writeEvent traceLevel b' (fixedBytes ++ propertyBytes).length file func line true
              pairs count)) := by
  have hprints := hfilled.toKeeps.vsnprintf message.text message.first
  rw [printMessage]
  simp only [if_true, and_true, hfilled.pos_eq, hfixed.pos_eq]
  match hfirst : message.first with
  | some failure =>
    rw [hfirst] at hprints
    refine Or.inl ⟨_, if_pos (vsnprintf_some_lt _ _ _), hprints.inside, Or.inl ?_⟩
    exact Option.some_ne_none failure
  | none =>
    rw [hfirst, vsnprintf_none, snprintf] at hprints
    rw [vsnprintf_none, snprintf]
    simp only
    rw [if_neg (Int.not_lt.mpr (Int.natCast_nonneg _))]
    have hle := hfilled.toKeeps.length_le
    by_cases hlong : MAX_METADATA_SIZE ≤
        (fixedBytes ++ propertyBytes).length + message.text.length
    · -- too long behind the properties: printed again behind the fixed fields
      have hagain := hprints.of_append.vsnprintf message.text message.second
      rw [if_pos (by omega)]
      match hsecond : message.second with
      | some failure =>
        rw [hsecond] at hagain
        refine Or.inl ⟨_, if_pos (vsnprintf_some_lt _ _ _), hagain.inside, Or.inr ?_⟩
        exact ⟨hlong, Option.some_ne_none failure⟩
      | none =>
        have hlast : fixedBytes.length + (MAX_METADATA_SIZE - fixedBytes.length) - 1 =
            MAX_METADATA_SIZE - 1 := by
          rw [Nat.add_sub_cancel' hroom.le]
        have hprinted := (hprints.of_append.printed message.text hroom).terminate hroom
        rw [vsnprintf_none, snprintf, if_neg (Int.not_lt.mpr (Int.natCast_nonneg _)), hlast]
        exact Or.inr ⟨trivial, Or.inl ⟨hlong, rfl, _, hprinted, rfl⟩⟩
    · -- the message fits behind the properties
      have hlt := Nat.not_le.mp hlong
      rw [if_neg (by omega)]
      exact Or.inr ⟨trivial, Or.inr ⟨hlt, _, hfilled.toKeeps.printed message.text
        (lt_of_le_of_lt (Nat.le_add_right _ _) hlt), rfl⟩⟩

end

/-! ### The metadata of a written event -/

section

variable [TlgIn]

/-- The properties are emitted: there are few enough, their types are known, and their fields, the
message and its terminator fit. -/
structure EmitsProperties (eventName : EventName) (pairs : List PropertyView) (count : ℕ)
    (text : List UInt8) : Prop where
  few   : count ≤ LOG_MAX_ETW_PROPERTY_VALUE_PAIR_COUNT
  known : ∀ p ∈ pairs.take count, p.field ≠ none
  fits  : (fixedMetadata eventName).length +
    (encodeFields (propertyFields (pairs.take count))).length + text.length < MAX_METADATA_SIZE

/-- The message is printed a second time: the properties were added, but the message does not fit
behind them. -/
structure PrintsAgain (eventName : EventName) (pairs : List PropertyView) (count : ℕ)
    (text : List UInt8) : Prop where
  few  : count ≤ LOG_MAX_ETW_PROPERTY_VALUE_PAIR_COUNT
  fit  : FieldsFit (fixedMetadata eventName).length (pairs.take count)
  long : MAX_METADATA_SIZE ≤ (fixedMetadata eventName).length +
    (encodeFields (propertyFields (pairs.take count))).length + text.length

/-- No call of `vsnprintf` that is made for an event fails. -/
structure MessagePrints (eventName : EventName) (pairs : List PropertyView) (count : ℕ)
    (message : FormattedMessage) : Prop where
  first  : message.first = none
  second : PrintsAgain eventName pairs count message.text → message.second = none

/-- The fields of an event, with those of the properties or without. -/
def eventFields (pairs : List PropertyView) (count : ℕ) (emitted : Bool) : List FieldMetadata :=
  fixedFields ++ if emitted then propertyFields (pairs.take count) else []

/-- The metadata of an event. -/
def eventMetadata (eventName : EventName) (pairs : List PropertyView) (count : ℕ)
    (emitted : Bool) : List UInt8 :=
  eventName.name.terminated ++ encodeFields (eventFields pairs count emitted)

lemma eventMetadata_eq (eventName : EventName) (pairs : List PropertyView) (count : ℕ)
    (emitted : Bool) : eventMetadata eventName pairs count emitted = fixedMetadata eventName ++
      if emitted then encodeFields (propertyFields (pairs.take count)) else [] := by
  rw [eventMetadata, eventFields, encodeFields_append, ← List.append_assoc, fixedMetadata]
  cases emitted <;> rfl

lemma inType_lt_of_mem_eventFields {pairs : List PropertyView} {count : ℕ} {emitted : Bool} :
    ∀ f ∈ eventFields pairs count emitted, f.inType.toNat < 128 := by
  intro f hf
  rcases List.mem_append.mp hf with hfixed | hproperty
  · simp only [fixedFields, List.mem_cons, List.not_mem_nil, or_false] at hfixed
    rcases hfixed with rfl | rfl | rfl | rfl <;> exact TlgIn.code_lt _
  · cases emitted with
    | false => exact absurd hproperty List.not_mem_nil
    | true =>
      obtain ⟨p, -, hp⟩ := List.mem_filterMap.mp hproperty
      obtain ⟨type, -, rfl⟩ := Option.map_eq_some_iff.mp hp
      exact TlgIn.code_lt type

/-- An event as it is written. -/
structure Event.Written (e : Event) (eventName : EventName) (pairs : List PropertyView)
    (count : ℕ) (text : List UInt8) (emitted : Bool) : Prop where
  emitted_iff : emitted = true ↔ EmitsProperties eventName pairs count text
  size_eq     : e.evtMetaSize = (eventMetadata eventName pairs count emitted).length + 4
  tag_eq      : e.evtTag = 128
  length_eq   : e.metadata.length = MAX_METADATA_SIZE
  starts      : eventMetadata eventName pairs count emitted <+: e.metadata
  message     : text.take (MAX_METADATA_SIZE -
      (eventMetadata eventName pairs count emitted).length - 1) ++ [0] <+:
    e.metadata.drop (eventMetadata eventName pairs count emitted).length

variable {e : Event} {eventName : EventName} {pairs : List PropertyView} {count : ℕ}
  {text : List UInt8} {emitted : Bool}

/-- The bytes that are described are the size, the tag and the metadata, without the message. -/
lemma Event.Written.described_eq (h : e.Written eventName pairs count text emitted) :
    e.described = leBytes 2 e.evtMetaSize ++ [128, 0] ++
      eventMetadata eventName pairs count emitted := by
  obtain ⟨rest, hrest⟩ := h.starts
  have htag : leBytes 2 e.evtTag = [128, 0] := by
    rw [h.tag_eq]
    rfl
  rw [described, htag, ← hrest, ← List.append_assoc]
  refine List.take_left' ?_
  rw [List.length_append, List.length_append, length_leBytes, h.size_eq, List.length_cons,
    List.length_singleton, Nat.add_comm]

/-- The metadata of an event are read back. -/
theorem Event.Written.parseEvent (h : e.Written eventName pairs count text emitted) :
    TraceLogging.parseEvent e.described =
      some ⟨e.evtMetaSize, [128, 0], eventName.name, eventFields pairs count emitted⟩ := by
  have hle := h.length_eq ▸ h.starts.length_le
  have hsmall : MAX_METADATA_SIZE + 4 < 2 ^ 16 := by decide
  have hsize := h.size_eq
  rw [h.described_eq]
  exact parseEvent_encode eventName.name _ inType_lt_of_mem_eventFields hsize (by omega)

end

/-! ### Writing an event -/

section

variable [Platform] [TlgIn]

/-- An event is not written, or with metadata that tell whether the properties are emitted. -/
def EndsWritten (eventName : EventName) (traceLevel : ℕ) (pairs : List PropertyView) (count : ℕ)
    (file func : Option CString) (line : ℤ) (message : FormattedMessage) (out : Option Emission) :
    Prop :=
  (∃ ws, out = some ⟨ws, []⟩ ∧ StaysBelow ws MAX_METADATA_SIZE ∧
    ¬ MessagePrints eventName pairs count message) ∨
  ∃ (emitted : Bool) (b : MetadataBuffer), MessagePrints eventName pairs count message ∧
    (emitted = true ↔ EmitsProperties eventName pairs count message.text) ∧
    Printed (eventMetadata eventName pairs count emitted) message.text b ∧
    out = writeEvent traceLevel b (eventMetadata eventName pairs count emitted).length file func line
      emitted pairs count

section

variable {eventName : EventName} (traceLevel : ℕ) {pairs : List PropertyView} {count : ℕ}
  (file func : Option CString) (line : ℤ) (message : FormattedMessage) {fixed b : MetadataBuffer}
  (hfixed : fixed.Filled (fixedMetadata eventName))

include hfixed

/-- The properties were not added. -/
lemma endsWritten_fixed (hkeeps : b.Keeps (fixedMetadata eventName))
    (hnot : ¬ (count ≤ LOG_MAX_ETW_PROPERTY_VALUE_PAIR_COUNT ∧
      FieldsFit (fixedMetadata eventName).length (pairs.take count))) :
    EndsWritten eventName traceLevel pairs count file func line message
      (printMessage traceLevel fixed b false pairs count file func line message) := by
  rcases printMessage_fixed traceLevel pairs count file func line message hfixed
      (length_fixedMetadata_lt eventName) hkeeps with
    ⟨hfirst, ws, hnone, hinside⟩ | ⟨hfirst, b', hprinted, hwrite⟩
  · exact Or.inl ⟨ws, hnone, hinside, fun hprints => hfirst hprints.first⟩
  · refine Or.inr ⟨false, b', ⟨hfirst, fun hagain => ?_⟩, ?_, ?_⟩
    · exact absurd ⟨hagain.few, hagain.fit⟩ hnot
    · refine iff_of_false Bool.false_ne_true fun h => hnot ⟨h.few, h.known, ?_⟩
      exact (Nat.le_add_right _ _).trans h.fits.le
    · rw [eventMetadata_eq, if_neg Bool.false_ne_true, List.append_nil]
      exact ⟨hprinted, hwrite⟩

/-- All properties were added. -/
lemma endsWritten_behind (hfew : count ≤ LOG_MAX_ETW_PROPERTY_VALUE_PAIR_COUNT)
    (hfit : FieldsFit (fixedMetadata eventName).length (pairs.take count))
    (hfilled : b.Filled
      (fixedMetadata eventName ++ encodeFields (propertyFields (pairs.take count)))) :
    EndsWritten eventName traceLevel pairs count file func line message
      (printMessage traceLevel fixed b true pairs count file func line message) := by
  rcases printMessage_behind traceLevel pairs count file func line message hfixed
      (length_fixedMetadata_lt eventName) hfilled with
    ⟨ws, hnone, hinside, hfails⟩ |
      ⟨hfirst, ⟨hlong, hsecond, b', hprinted, hwrite⟩ | ⟨hlt, b', hprinted, hwrite⟩⟩
  · -- a call of vsnprintf failed
    refine Or.inl ⟨ws, hnone, hinside, fun hprints => ?_⟩
    rcases hfails with hfirst | ⟨hlong, hsecond⟩
    · exact hfirst hprints.first
    · rw [List.length_append] at hlong
      exact hsecond (hprints.second ⟨hfew, hfit, hlong⟩)
  · -- the properties are given up for the message
    rw [List.length_append] at hlong
    refine Or.inr ⟨false, b', ⟨hfirst, fun _ => hsecond⟩, ?_, ?_⟩
    · exact iff_of_false Bool.false_ne_true fun h => absurd h.fits (Nat.not_lt.mpr hlong)
    · rw [eventMetadata_eq, if_neg Bool.false_ne_true, List.append_nil]
      exact ⟨hprinted, hwrite⟩
  · rw [List.length_append] at hlt
    refine Or.inr ⟨true, b', ⟨hfirst, fun hagain => ?_⟩, ?_, ?_⟩
    · exact absurd hlt (Nat.not_lt.mpr hagain.long)
    · exact iff_of_true rfl ⟨hfew, hfit.known, hlt⟩
    · rw [eventMetadata_eq, if_pos rfl]
      exact ⟨hprinted, hwrite⟩

end

/-- The pairs that are read were all filled in. None is read if there are too many. -/
def PairsFilled (pairs : List PropertyView) (count : ℕ) : Prop :=
  count ≤ LOG_MAX_ETW_PROPERTY_VALUE_PAIR_COUNT → count ≤ pairs.length

/-- On an enabled level an event is written unless printing the message fails. -/
theorem internalEmit_cases (levelPlus1 : ℕ) (garbage : ℕ → UInt8) (eventName : EventName)
    (traceLevel : ℕ) {pairs : List PropertyView} {count : ℕ} (hcount : PairsFilled pairs count)
    (file func : Option CString) (line : ℤ) (message : FormattedMessage)
    (hlevel : traceLevel < levelPlus1) :
    EndsWritten eventName traceLevel pairs count file func line message
      (internalEmitSelfDescribedEventVa levelPlus1 garbage eventName traceLevel pairs count file
        func line message) := by
  have hfixed := fillFixedFields_filled eventName (length_uninitialised garbage MAX_METADATA_SIZE)
  rw [internalEmitSelfDescribedEventVa, if_pos hlevel]
  simp only
  by_cases hfew : count ≤ LOG_MAX_ETW_PROPERTY_VALUE_PAIR_COUNT
  · obtain ⟨added, b, hadd, hkeeps, hiff, hall⟩ := addProperties_spec count (hcount hfew) hfixed
    rw [if_pos hfew, hadd]
    cases added with
    | false =>
      exact endsWritten_fixed traceLevel file func line message hfixed hkeeps
        fun hfit => Bool.false_ne_true (hiff.mpr hfit.2)
    | true =>
      exact endsWritten_behind traceLevel file func line message hfixed hfew (hiff.mp rfl) (hall rfl)
  · rw [if_neg hfew]
    exact endsWritten_fixed traceLevel file func line message hfixed hfixed.toKeeps
      fun hfit => hfew hfit.1

/-- The event that is written. -/
lemma written_of_printed {traceLevel : ℕ} {eventName : EventName} {pairs : List PropertyView}
    {count : ℕ} {file func : Option CString} {line : ℤ} {text : List UInt8} {emitted : Bool}
    {b : MetadataBuffer} (hiff : emitted = true ↔ EmitsProperties eventName pairs count text)
    (hprinted : Printed (eventMetadata eventName pairs count emitted) text b) {d : Descriptors}
    (hd : createDescriptors (b.metadata.drop (eventMetadata eventName pairs count emitted).length)
      file func line emitted pairs count = some d) :
    ∃ e, writeEvent traceLevel b (eventMetadata eventName pairs count emitted).length file func
        line emitted pairs count = some ⟨b.writes, [e]⟩ ∧
      e.Written eventName pairs count text emitted ∧ e.descriptors = d ∧ e.level = traceLevel := by
  have hle := hprinted.keeps.length_le
  have hsmall : MAX_METADATA_SIZE + 4 < 2 ^ 16 := by decide
  rw [writeEvent, hd, Option.map_some]
  refine ⟨_, rfl, ⟨hiff, ?_, rfl, hprinted.length_eq, hprinted.keeps.starts, hprinted.message⟩,
    rfl, rfl⟩
  simp only
  rw [u16_natCast (by omega), ← Nat.cast_ofNat, ← Nat.cast_add, u16_natCast (by omega)]

end

end CLogging
