import CLogging.Etw.Descriptors

/-!
# All properties or none

An event carries all properties if they are few, their types are known, and their metadata, the
message and its terminator fit in the array. Otherwise it carries none.
-/

namespace CLogging

open C Memory Printf TraceLogging

/-- The size of the field of a property: its name and the terminator, its type, and of a struct
the number of its fields. -/
def PropertyView.fieldSize (p : PropertyView) : ℕ :=
  p.name.bytes.length + 1 + if p.type.getType = .struct then 2 else 1

/-- The size of the metadata of an event with the given properties. -/
def metadataSize (eventName : EventName) (ps : List PropertyView) : ℕ :=
  eventName.name.bytes.length + 1 + 27 + (ps.map PropertyView.fieldSize).sum

section

variable [TlgIn]

lemma PropertyView.field_ne_none {p : PropertyView} :
    p.field ≠ none ↔ p.type.getType ≠ .other := by
  rw [field, ne_eq, Option.map_eq_none_iff]
  cases p.type.getType with
  | other => simp [inType]
  | struct | int64 | uint64 | int32 | uint32 | int16 | uint16 | int8 | uint8 | bool
  | asciiCharPtr | wcharTPtr => simp [inType]

lemma length_encode_eq_fieldSize {p : PropertyView} {f : FieldMetadata} (h : p.field = some f) :
    f.encode.length = p.fieldSize := by
  obtain ⟨type, htype, -⟩ := Option.map_eq_some_iff.mp h
  obtain ⟨f', hf', hencode⟩ := length_encode_field htype
  obtain rfl := Option.some.inj (hf'.symm.trans h)
  rw [hencode, List.length_append, CString.length_terminated, PropertyView.fieldSize]
  by_cases hstruct : type = .struct
  · subst hstruct
    rw [if_pos rfl, if_pos (inType_eq_struct.mp htype)]
    rfl
  · have hleaf : p.type.getType ≠ .struct := by
      intro hp
      rw [inType_eq_struct.mpr hp] at htype
      exact hstruct (Option.some.inj htype).symm
    rw [if_neg hstruct, if_neg hleaf, List.length_singleton]

/-- No field is lost, and the fields have the sizes that were computed. -/
lemma length_propertyFields {ps : List PropertyView} (h : ∀ p ∈ ps, p.field ≠ none) :
    (propertyFields ps).length = ps.length ∧
      (encodeFields (propertyFields ps)).length = (ps.map PropertyView.fieldSize).sum := by
  induction ps with
  | nil => exact ⟨rfl, rfl⟩
  | cons p ps ih =>
    obtain ⟨f, hf⟩ := Option.ne_none_iff_exists'.mp (h p List.mem_cons_self)
    obtain ⟨hcount, hsize⟩ := ih fun q hq => h q (List.mem_cons_of_mem _ hq)
    rw [propertyFields_cons hf, encodeFields_cons, List.length_append, hsize,
      length_encode_eq_fieldSize hf, List.map_cons, List.sum_cons, List.length_cons, hcount]
    exact ⟨rfl, rfl⟩

lemma length_fixedMetadata_eq (eventName : EventName) :
    (fixedMetadata eventName).length = metadataSize eventName [] := by
  rw [length_fixedMetadata]
  rfl

lemma emitsProperties_iff {eventName : EventName} {pairs : List PropertyView} {count : ℕ}
    {text : List UInt8} : EmitsProperties eventName pairs count text ↔
      count ≤ 64 ∧ (∀ p ∈ pairs.take count, p.type.getType ≠ .other) ∧
        metadataSize eventName (pairs.take count) + text.length + 1 ≤ 4096 := by
  have hsize : (∀ p ∈ pairs.take count, p.field ≠ none) → (fixedMetadata eventName).length +
      (encodeFields (propertyFields (pairs.take count))).length =
        metadataSize eventName (pairs.take count) := by
    intro hknown
    rw [(length_propertyFields hknown).2, length_fixedMetadata]
    rfl
  constructor
  · intro h
    have hfits := h.fits
    rw [hsize h.known] at hfits
    exact ⟨h.few, fun p hp => PropertyView.field_ne_none.mp (h.known p hp), hfits⟩
  · rintro ⟨hfew, hknown, hfits⟩
    have hfields : ∀ p ∈ pairs.take count, p.field ≠ none :=
      fun p hp => PropertyView.field_ne_none.mpr (hknown p hp)
    refine ⟨hfew, hfields, ?_⟩
    rw [hsize hfields]
    exact hfits

variable [Platform]

/-- On an enabled level one event is written unless printing the message fails. It carries all
properties and the whole message if these fit, and else no properties and as much of the message as
fits. No store leaves the array on the way. -/
theorem etwEmission (levelPlus1 : ℕ) (garbage : ℕ → UInt8) (eventName : EventName)
    (traceLevel : ℕ) (hlevel : traceLevel < levelPlus1) {pairs : List PropertyView} {count : ℕ}
    (hcount : count ≤ pairs.length) (file func : Option CString) (line : ℤ)
    (message : FormattedMessage) :
    ∃ emission, internalEmitSelfDescribedEventVa levelPlus1 garbage eventName traceLevel pairs
        count file func line message = some emission ∧
      StaysBelow emission.writes 4096 ∧
      (¬ MessagePrints eventName pairs count message → emission.events = []) ∧
      (MessagePrints eventName pairs count message →
        ∃ (e : Event) (carried : Bool) (n : ℕ), emission.events = [e] ∧
          (carried = true ↔ count ≤ 64 ∧ (∀ p ∈ pairs.take count, p.type.getType ≠ .other) ∧
            metadataSize eventName (pairs.take count) + message.text.length + 1 ≤ 4096) ∧
          n = (if carried then message.text.length else 4096 - metadataSize eventName [] - 1) ∧
          parseEvent e.described = some ⟨e.evtMetaSize, [128, 0], eventName.name, fixedFields ++
            if carried then propertyFields (pairs.take count) else []⟩ ∧
          (carried = true → (propertyFields (pairs.take count)).length = count) ∧
          e.metadata.length = 4096 ∧
          message.text.take n ++ [0] <+: e.metadata.drop (e.evtMetaSize - 4) ∧
          e.descriptors.Holds ((eventPayloads ((cstr message.text).take n) file func line pairs
            count carried).map Payload.bytes)) := by
  obtain ⟨emission, hemit, hinside, hevents⟩ := internalEmit_spec levelPlus1 garbage eventName
    traceLevel (fun _ => hcount) file func line message
  refine ⟨emission, hemit, hinside, ?_, ?_⟩
  · -- an event would mean that the message was printed
    intro hfails
    rcases hevents with ⟨hnil, -⟩ | ⟨e, emitted, -, -, hprints, -⟩
    · exact hnil
    · exact absurd hprints hfails
  · intro hprints
    rcases hevents with ⟨-, hnone⟩ | ⟨e, emitted, hone, -, -, hwritten, hholds⟩
    · -- the level is enabled and the message was printed, so there is an event
      exact absurd ⟨hlevel, hprints⟩ hnone
    · -- one event; the text starts behind the fields that were written
      have hsize : e.evtMetaSize - 4 =
          (eventMetadata eventName pairs count emitted).length := by
        rw [hwritten.size_eq, Nat.add_sub_cancel]
      have hmessage := hwritten.message
      rw [← hsize] at hmessage hholds
      have hiff := hwritten.emitted_iff.trans emitsProperties_iff
      refine ⟨e, emitted, _, hone, hiff, rfl, hwritten.parseEvent, ?_, hwritten.length_eq, ?_⟩
      · intro hemitted
        rw [(length_propertyFields (hwritten.emitted_iff.mp hemitted).known).1, List.length_take,
          min_eq_left hcount]
      cases emitted with
      | false =>
        have hfixed : e.evtMetaSize - 4 = metadataSize eventName [] := by
          rw [hsize, eventMetadata_eq, if_neg Bool.false_ne_true, List.append_nil,
            length_fixedMetadata_eq]
        rw [if_neg Bool.false_ne_true, ← hfixed]
        exact ⟨hmessage, hholds⟩
      | true =>
        have hfits := (hwritten.emitted_iff.mp rfl).fits
        have hle : message.text.length ≤ MAX_METADATA_SIZE - (e.evtMetaSize - 4) - 1 := by
          rw [hsize, eventMetadata_eq, if_pos rfl, List.length_append]
          omega
        have hcstr : (cstr message.text).length ≤ message.text.length :=
          (List.takeWhile_prefix _).length_le
        rw [if_pos rfl, List.take_of_length_le (le_refl _), List.take_of_length_le hcstr]
        rw [List.take_of_length_le hle] at hmessage
        rw [List.take_of_length_le (hcstr.trans hle)] at hholds
        exact ⟨hmessage, hholds⟩

end

section

attribute [local instance] posix tlgIn

theorem etwEmission_sample : ∃ ws e,
    internalEmitSelfDescribedEventVa 6 (fun _ => 0) eventNameInfo 4 numberContext.views 2 none none
        7 ⟨ascii "done", none, none⟩ = some ⟨ws, [e]⟩ ∧ StaysBelow ws 4096 ∧
      ascii "done" ++ [0] <+: e.metadata.drop (e.evtMetaSize - 4) := by
  obtain ⟨⟨ws, events⟩, hemit, hinside, -, hevent⟩ := etwEmission 6 (fun _ => 0) eventNameInfo 4
    (by decide) (show 2 ≤ numberContext.views.length by decide) none none 7
    ⟨ascii "done", none, none⟩
  obtain ⟨e, carried, n, hone, hiff, hn, -, -, -, hmessage, -⟩ :=
    hevent messagePrints_numberContext
  rw [hiff.mpr (emitsProperties_iff.mp emitsProperties_numberContext)] at hn
  rw [hn] at hmessage
  simp only at hone
  exact ⟨ws, e, hone ▸ hemit, hinside, hmessage⟩

end

end CLogging
