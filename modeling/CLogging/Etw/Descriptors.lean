import CLogging.Etw.Event

/-!
# The values of the fields

The second loop goes through the properties again. It passes one data descriptor for every field
of the metadata that is not a struct, in the same order.
-/

namespace CLogging

open C Memory Printf TraceLogging

lemma inType_eq_struct {type : LogContextPropertyType} :
    inType type = some .struct ↔ type = .struct := by
  cases type <;> decide

/-- A value that goes with a field. -/
structure Payload where
  name  : CString
  type  : InType
  bytes : List UInt8

/-- The values lie in the descriptors from index 2 on, and `_tlgIdx` is behind them. -/
structure Descriptors.Holds (values : List (List UInt8)) (d : Descriptors) : Prop where
  length_eq : d.entries.length = DESCRIPTOR_COUNT
  idx_eq    : d.idx = 2 + values.length
  idx_le    : d.idx ≤ DESCRIPTOR_COUNT
  stored    : ∀ k v, values[k]? = some v → d.entries[2 + k]? = some (some v)

/-- Passing one more value. -/
lemma Descriptors.Holds.create {values : List (List UInt8)} {d : Descriptors} (h : d.Holds values)
    (bytes : List UInt8) (hroom : 2 + values.length < DESCRIPTOR_COUNT) :
    ∃ d', d.create bytes = some d' ∧ d'.next.Holds (values ++ [bytes]) := by
  have hlt : d.idx < d.entries.length := by
    rw [h.idx_eq, h.length_eq]
    exact hroom
  refine ⟨_, if_pos hlt, ?_, ?_, ?_, fun k v hk => ?_⟩
  · rw [next, List.length_set, h.length_eq]
  · rw [next, List.length_append, h.idx_eq]
    rfl
  · rw [h.length_eq] at hlt
    exact hlt
  · rw [next]
    simp only
    rcases Nat.lt_trichotomy k values.length with hk' | rfl | hk'
    · rw [List.getElem?_append_left hk'] at hk
      rw [List.getElem?_set_ne (by rw [h.idx_eq]; omega)]
      exact h.stored k v hk
    · rw [List.getElem?_concat_length] at hk
      rw [h.idx_eq] at hlt ⊢
      rw [List.getElem?_set_self hlt, Option.some.inj hk]
    · rw [List.getElem?_eq_none (by rw [List.length_append]; exact hk')] at hk
      cases hk

section

variable [Platform]

/-- The value of a property as an event carries it: a string with its terminator, a truth value as
a number, and any other number as it lies in memory. -/
def PropertyView.valueAs (p : PropertyView) : InType → List UInt8
  | .ansiString    => cstr p.memory ++ [0]
  | .unicodeString => wideBytes sizeofWchar (wcs sizeofWchar p.memory)
  | .bool32        => leBytes 4 (if p.memory.headD 0 = 0 then 0 else 1)
  | type           => memcpy type.width p.memory

/-- What an event carries for a property. There is nothing for a struct. -/
def PropertyView.payload (p : PropertyView) : Option Payload :=
  match inType p.type.getType with
  | none         => none
  | some .struct => none
  | some type    => some ⟨p.name, type, p.valueAs type⟩

lemma PropertyView.payload_of_leaf {p : PropertyView} {type : InType}
    (h : inType p.type.getType = some type) (hleaf : type ≠ .struct) :
    p.payload = some ⟨p.name, type, p.valueAs type⟩ := by
  rw [payload, h]
  cases type with
  | struct => exact absurd rfl hleaf
  | _ => rfl

lemma PropertyView.payload_of_struct {p : PropertyView} (h : inType p.type.getType = some .struct) :
    p.payload = none := by
  rw [payload, h]

/-- What an event always carries. -/
def fixedPayloads (content : List UInt8) (file func : Option CString) (line : ℤ) : List Payload :=
  [⟨⟨ascii "content", zero_notMem_content⟩, .ansiString, content ++ [0]⟩,
    ⟨⟨ascii "file", zero_notMem_file⟩, .ansiString, sz file⟩,
    ⟨⟨ascii "func", zero_notMem_func⟩, .ansiString, sz func⟩,
    ⟨⟨ascii "line", zero_notMem_line⟩, .int32, leBytes 4 (u32 line)⟩]

/-- What an event carries, in order. -/
def eventPayloads (content : List UInt8) (file func : Option CString) (line : ℤ)
    (pairs : List PropertyView) (count : ℕ) (emitted : Bool) : List Payload :=
  fixedPayloads content file func line ++
    if emitted then (pairs.take count).filterMap PropertyView.payload else []

/-! ### Sizes -/

lemma PropertyView.prescribes_valueAs (p : PropertyView) {type : InType} (h : type ≠ .struct) :
    type.Prescribes sizeofWchar (p.valueAs type) := by
  cases type with
  | ansiString => exact ⟨⟨cstr p.memory, zero_notMem_cstr p.memory⟩, rfl⟩
  | unicodeString => exact ⟨_, wideChars_wcsWith _ _ _, rfl⟩
  | struct => exact absurd rfl h
  | bool32 => exact length_leBytes 4 _
  | _ => exact length_memcpy _ _

lemma prescribes_sz (s : Option CString) : InType.ansiString.Prescribes sizeofWchar (sz s) := by
  cases s with
  | none => exact ⟨CString.empty, rfl⟩
  | some s => exact ⟨s, rfl⟩

lemma prescribes_fixedPayloads {content : List UInt8} (hcontent : 0 ∉ content)
    (file func : Option CString) (line : ℤ) :
    ∀ v ∈ fixedPayloads content file func line, v.type.Prescribes sizeofWchar v.bytes := by
  intro v hv
  simp only [fixedPayloads, List.mem_cons, List.not_mem_nil, or_false] at hv
  rcases hv with rfl | rfl | rfl | rfl
  · exact ⟨⟨content, hcontent⟩, rfl⟩
  · exact prescribes_sz file
  · exact prescribes_sz func
  · exact length_leBytes 4 _

/-- Every value has the size its in-type prescribes. -/
lemma prescribes_eventPayloads {content : List UInt8} (hcontent : 0 ∉ content)
    (file func : Option CString) (line : ℤ) (pairs : List PropertyView) (count : ℕ)
    (emitted : Bool) : ∀ v ∈ eventPayloads content file func line pairs count emitted,
      v.type.Prescribes sizeofWchar v.bytes := by
  intro v hv
  rcases List.mem_append.mp hv with hfixed | hproperty
  · exact prescribes_fixedPayloads hcontent file func line v hfixed
  · cases emitted with
    | false => exact absurd hproperty List.not_mem_nil
    | true =>
      obtain ⟨p, -, hp⟩ := List.mem_filterMap.mp hproperty
      match htype : inType p.type.getType with
      | none =>
        rw [PropertyView.payload, htype] at hp
        cases hp
      | some type =>
        by_cases hstruct : type = .struct
        · subst hstruct
          rw [PropertyView.payload_of_struct htype] at hp
          cases hp
        · rw [PropertyView.payload_of_leaf htype hstruct] at hp
          obtain rfl := Option.some.inj hp
          exact p.prescribes_valueAs hstruct

/-! ### Filling the descriptors -/

/-- The second `switch` passes what goes with the field, or leaves `_tlgIdx` where it was. -/
lemma PropertyView.create_eq {p : PropertyView} {type : InType}
    (h : inType p.type.getType = some type) (d : Descriptors) :
    p.create d = if type = .struct then some { d with idx := d.idx - 1 }
      else d.create (p.valueAs type) := by
  rw [create]
  match hget : p.type.getType with
  | .other =>
    rw [hget] at h
    cases h
  | .struct | .int64 | .uint64 | .int32 | .uint32 | .int16 | .uint16 | .int8 | .uint8 | .bool
  | .asciiCharPtr | .wcharTPtr =>
    rw [hget] at h
    obtain rfl := Option.some.inj h
    rfl

section

variable [TlgIn]

/-- The second loop passes the values of properties whose types are known. -/
lemma createProperties_spec (n : ℕ) {ps : List PropertyView} (hn : n ≤ ps.length)
    (hknown : ∀ p ∈ ps.take n, p.field ≠ none) {values : List (List UInt8)} {d : Descriptors}
    (h : d.Holds values) (hroom : 2 + values.length + n ≤ DESCRIPTOR_COUNT) :
    ∃ d', createProperties n ps d = some d' ∧
      d'.Holds (values ++ ((ps.take n).filterMap PropertyView.payload).map Payload.bytes) := by
  induction n generalizing ps values d with
  | zero =>
    refine ⟨d, rfl, ?_⟩
    rw [List.take_zero, List.filterMap_nil, List.map_nil, List.append_nil]
    exact h
  | succ n ih =>
    match ps with
    | [] => exact absurd hn (Nat.not_succ_le_zero n)
    | p :: ps =>
      rw [List.take_succ_cons] at hknown ⊢
      have hrest : ∀ q ∈ ps.take n, q.field ≠ none :=
        fun q hq => hknown q (List.mem_cons_of_mem _ hq)
      have hn' := Nat.le_of_succ_le_succ hn
      match htype : inType p.type.getType with
      | none =>
        refine absurd ?_ (hknown p List.mem_cons_self)
        rw [PropertyView.field, htype, Option.map_none]
      | some type =>
        rw [createProperties, p.create_eq htype]
        by_cases hstruct : type = .struct
        · -- a struct has no value: the descriptor is taken back
          subst hstruct
          have hsame : Descriptors.next { d with idx := d.idx - 1 } = d := by
            rw [Descriptors.next]
            simp only
            rw [Nat.sub_add_cancel (by rw [h.idx_eq]; exact Nat.le_add_right_of_le (by decide))]
          rw [if_pos rfl, Option.bind_some, hsame,
            List.filterMap_cons_none (p.payload_of_struct htype)]
          exact ih hn' hrest h (by omega)
        · obtain ⟨d', hcreate, hholds⟩ := h.create (p.valueAs type) (by omega)
          rw [if_neg hstruct, hcreate, Option.bind_some,
            List.filterMap_cons_some (p.payload_of_leaf htype hstruct)]
          obtain ⟨d'', hrun, hall⟩ := ih hn' hrest hholds
            (by rw [List.length_append, List.length_singleton]; omega)
          rw [List.append_assoc] at hall
          exact ⟨d'', hrun, hall⟩

/-- The descriptors of an event hold its values. -/
theorem createDescriptors_spec (formattedMessage : List UInt8) (file func : Option CString)
    (line : ℤ) {pairs : List PropertyView} {count : ℕ} {emitted : Bool}
    (hcount : PairsFilled pairs count)
    (hemitted : emitted = true → count ≤ LOG_MAX_ETW_PROPERTY_VALUE_PAIR_COUNT ∧
      ∀ p ∈ pairs.take count, p.field ≠ none) :
    ∃ d, createDescriptors formattedMessage file func line emitted pairs count = some d ∧
      d.Holds ((eventPayloads (cstr formattedMessage) file func line pairs count emitted).map
        Payload.bytes) := by
  have hempty : Descriptors.Holds [] ⟨List.replicate DESCRIPTOR_COUNT none, 2⟩ :=
    ⟨List.length_replicate, rfl, by decide, fun k v hk => by cases hk⟩
  obtain ⟨d₁, h₁, hholds₁⟩ := hempty.create (cstr formattedMessage ++ [0])
    (show 2 + 0 < DESCRIPTOR_COUNT by decide)
  obtain ⟨d₂, h₂, hholds₂⟩ := hholds₁.create (sz file)
    (show 2 + 1 < DESCRIPTOR_COUNT by decide)
  obtain ⟨d₃, h₃, hholds₃⟩ := hholds₂.create (sz func)
    (show 2 + 2 < DESCRIPTOR_COUNT by decide)
  obtain ⟨d₄, h₄, hholds₄⟩ := hholds₃.create (leBytes 4 (u32 line))
    (show 2 + 3 < DESCRIPTOR_COUNT by decide)
  rw [createDescriptors, h₁, Option.bind_some, h₂, Option.bind_some, h₃, Option.bind_some, h₄, Option.bind_some]
  cases emitted with
  | false => exact ⟨d₄.next, rfl, hholds₄⟩
  | true =>
    obtain ⟨hfew, hknown⟩ := hemitted rfl
    exact createProperties_spec count (hcount hfew) hknown hholds₄ (Nat.add_le_add_left hfew _)

end

end

/-! ### Fields and values -/

section

variable [TlgIn]

/-- The fields that have values. -/
def dataFields (fs : List FieldMetadata) : List FieldMetadata :=
  fs.filter fun f => f.inType ≠ TlgIn.code .struct

/-- A value goes with a field. -/
structure Payload.Matches (f : FieldMetadata) (v : Payload) : Prop where
  name_eq    : f.name = v.name
  inType_eq  : f.inType = TlgIn.code v.type
  outType_eq : f.outType = none

lemma code_ne_struct {type : InType} (h : type ≠ .struct) :
    TlgIn.code type ≠ TlgIn.code .struct :=
  fun hcode => h (TlgIn.code_injective hcode)

lemma dataFields_cons_struct {f : FieldMetadata} (h : f.inType = TlgIn.code .struct)
    (fs : List FieldMetadata) : dataFields (f :: fs) = dataFields fs :=
  List.filter_cons_of_neg (by simpa using h)

lemma dataFields_cons_data {f : FieldMetadata} (h : f.inType ≠ TlgIn.code .struct)
    (fs : List FieldMetadata) : dataFields (f :: fs) = f :: dataFields fs :=
  List.filter_cons_of_pos (by simpa using h)

lemma matches_fixedPayloads (content : List UInt8) (file func : Option CString) (line : ℤ) :
    List.Forall₂ Payload.Matches (dataFields fixedFields)
      (fixedPayloads content file func line) := by
  have hdata : dataFields fixedFields = fixedFields := by
    rw [dataFields, List.filter_eq_self]
    intro f hf
    simp only [fixedFields, List.mem_cons, List.not_mem_nil, or_false] at hf
    rcases hf with rfl | rfl | rfl | rfl <;>
      exact decide_eq_true (code_ne_struct (by decide))
  rw [hdata]
  exact .cons ⟨rfl, rfl, rfl⟩ (.cons ⟨rfl, rfl, rfl⟩ (.cons ⟨rfl, rfl, rfl⟩
    (.cons ⟨rfl, rfl, rfl⟩ .nil)))

variable [Platform]

/-- The fields of properties that are not structs go with the values of these properties. -/
lemma matches_payloads (ps : List PropertyView) :
    List.Forall₂ Payload.Matches (dataFields (propertyFields ps))
      (ps.filterMap PropertyView.payload) := by
  induction ps with
  | nil => exact .nil
  | cons p ps ih =>
    match htype : inType p.type.getType with
    | none =>
      have hfield : p.field = none := by rw [PropertyView.field, htype, Option.map_none]
      have hpayload : p.payload = none := by rw [PropertyView.payload, htype]
      rw [propertyFields, List.filterMap_cons_none hfield, List.filterMap_cons_none hpayload]
      exact ih
    | some type =>
      have hfield : p.field = some ⟨p.name, TlgIn.code type,
          if type = .struct then some (p.memory.headD 0) else none⟩ := by
        rw [PropertyView.field, htype, Option.map_some]
      rw [propertyFields_cons hfield]
      by_cases hstruct : type = .struct
      · subst hstruct
        rw [dataFields_cons_struct rfl, List.filterMap_cons_none (p.payload_of_struct htype)]
        exact ih
      · rw [dataFields_cons_data (code_ne_struct hstruct),
          List.filterMap_cons_some (p.payload_of_leaf htype hstruct)]
        exact .cons ⟨rfl, rfl, if_neg hstruct⟩ ih

/-- The fields of an event go with its values, in the same order. -/
lemma matches_eventPayloads (content : List UInt8) (file func : Option CString) (line : ℤ)
    (pairs : List PropertyView) (count : ℕ) (emitted : Bool) :
    List.Forall₂ Payload.Matches (dataFields (eventFields pairs count emitted))
      (eventPayloads content file func line pairs count emitted) := by
  rw [dataFields, eventFields, List.filter_append, eventPayloads]
  refine List.rel_append (matches_fixedPayloads content file func line) ?_
  cases emitted with
  | false => exact .nil
  | true => exact matches_payloads _

/-! ### Written events -/

/-- What a call does: nothing if the level is disabled, no event if `vsnprintf` fails, and else one
event, which holds its metadata, the message and its values. -/
theorem internalEmit_spec (levelPlus1 : ℕ) (garbage : ℕ → UInt8) (eventName : EventName)
    (traceLevel : ℕ) {pairs : List PropertyView} {count : ℕ} (hcount : PairsFilled pairs count)
    (file func : Option CString) (line : ℤ) (message : FormattedMessage) :
    ∃ emission, internalEmitSelfDescribedEventVa levelPlus1 garbage eventName traceLevel pairs
        count file func line message = some emission ∧
      StaysBelow emission.writes MAX_METADATA_SIZE ∧
      ((emission.events = [] ∧
        ¬ (traceLevel < levelPlus1 ∧ MessagePrints eventName pairs count message)) ∨
      ∃ e emitted, emission.events = [e] ∧ traceLevel < levelPlus1 ∧
        MessagePrints eventName pairs count message ∧
        e.Written eventName pairs count message.text emitted ∧
        e.descriptors.Holds ((eventPayloads ((cstr message.text).take (MAX_METADATA_SIZE -
          (eventMetadata eventName pairs count emitted).length - 1)) file func line pairs count
            emitted).map Payload.bytes)) := by
  by_cases hlevel : traceLevel < levelPlus1
  · rcases internalEmit_cases levelPlus1 garbage eventName traceLevel hcount file func line message
        hlevel with ⟨ws, hnone, hinside, hfails⟩ | ⟨emitted, b, hprints, hiff, hprinted, hwrite⟩
    · -- the message could not be printed: no event
      exact ⟨⟨ws, []⟩, hnone, hinside, Or.inl ⟨rfl, fun h => hfails h.2⟩⟩
    · -- the message was printed, with or without the properties before it
      obtain ⟨d, hd, hholds⟩ := createDescriptors_spec
        (b.metadata.drop (eventMetadata eventName pairs count emitted).length) file func line hcount
        (fun hemitted => ⟨(hiff.mp hemitted).few, (hiff.mp hemitted).known⟩)
      obtain ⟨e, he, hwritten, rfl, -⟩ := written_of_printed hiff hprinted hd
      rw [hprinted.cstr_drop] at hholds
      rw [hwrite, he]
      exact ⟨⟨b.writes, [e]⟩, rfl, hprinted.inside,
        Or.inr ⟨e, emitted, rfl, hlevel, hprints, hwritten, hholds⟩⟩
  · refine ⟨⟨[], []⟩, ?_, staysBelow_nil _, Or.inl ⟨rfl, fun h => hlevel h.1⟩⟩
    rw [internalEmitSelfDescribedEventVa, if_neg hlevel]

/-- The events that are written. -/
lemma written_of_internalEmit {levelPlus1 : ℕ} {garbage : ℕ → UInt8} {eventName : EventName}
    {traceLevel : ℕ} {pairs : List PropertyView} {count : ℕ} (hcount : count ≤ pairs.length)
    {file func : Option CString} {line : ℤ} {message : FormattedMessage} {emission : Emission}
    (h : internalEmitSelfDescribedEventVa levelPlus1 garbage eventName traceLevel pairs count file
      func line message = some emission) {e : Event} (he : e ∈ emission.events) :
    ∃ emitted, e.Written eventName pairs count message.text emitted ∧
      e.descriptors.Holds ((eventPayloads ((cstr message.text).take (MAX_METADATA_SIZE -
        (eventMetadata eventName pairs count emitted).length - 1)) file func line pairs count
          emitted).map Payload.bytes) := by
  obtain ⟨emission', hemit, -, hevents⟩ := internalEmit_spec levelPlus1 garbage eventName
    traceLevel (fun _ => hcount) file func line message
  obtain rfl := Option.some.inj (h.symm.trans hemit)
  rcases hevents with ⟨hnil, -⟩ | ⟨e', emitted, hone, -, -, hwritten, hholds⟩
  · rw [hnil] at he
    cases he
  · rw [hone] at he
    obtain rfl := List.mem_singleton.mp he
    exact ⟨emitted, hwritten, hholds⟩

/-- Every event has one data descriptor for each field of its metadata that is not a struct, in the
order of the fields, from index 2 on: it holds the value that goes with the field, in the size that
the in-type of the field prescribes. -/
theorem etwDescriptors_match (levelPlus1 : ℕ) (garbage : ℕ → UInt8) (eventName : EventName)
    (traceLevel : ℕ) {pairs : List PropertyView} {count : ℕ} (hcount : count ≤ pairs.length)
    (file func : Option CString) (line : ℤ) (message : FormattedMessage) :
    ∃ emission, internalEmitSelfDescribedEventVa levelPlus1 garbage eventName traceLevel pairs
        count file func line message = some emission ∧ ∀ e ∈ emission.events,
      ∃ (md : EventMetadata) (emitted : Bool) (values : List Payload),
        parseEvent e.described = some md ∧
        (emitted = true ↔ EmitsProperties eventName pairs count message.text) ∧
        values = eventPayloads ((cstr message.text).take
          (MAX_METADATA_SIZE - (e.evtMetaSize - 4) - 1)) file func line pairs count emitted ∧
        List.Forall₂ Payload.Matches (dataFields md.fields) values ∧
        (∀ v ∈ values, v.type.Prescribes sizeofWchar v.bytes) ∧
        e.descriptors.idx = 2 + (dataFields md.fields).length ∧
        e.descriptors.idx ≤ DESCRIPTOR_COUNT ∧
        e.descriptors.entries.length = DESCRIPTOR_COUNT ∧
        ∀ k v, values[k]? = some v →
          e.descriptors.entries[2 + k]? = some (some v.bytes) := by
  obtain ⟨emission, hemit, -, -⟩ := internalEmit_spec levelPlus1 garbage eventName traceLevel
    (fun _ => hcount) file func line message
  refine ⟨emission, hemit, fun e he => ?_⟩
  obtain ⟨emitted, hwritten, hholds⟩ := written_of_internalEmit hcount hemit he
  have hsize : e.evtMetaSize - 4 = (eventMetadata eventName pairs count emitted).length := by
    rw [hwritten.size_eq, Nat.add_sub_cancel]
  have hmatch := matches_eventPayloads ((cstr message.text).take (MAX_METADATA_SIZE -
    (eventMetadata eventName pairs count emitted).length - 1)) file func line pairs count emitted
  have hcontent : 0 ∉ (cstr message.text).take (MAX_METADATA_SIZE -
      (eventMetadata eventName pairs count emitted).length - 1) :=
    fun hzero => zero_notMem_cstr _ (List.mem_of_mem_take hzero)
  have hidx := hholds.idx_eq
  rw [List.length_map, ← hmatch.length_eq] at hidx
  refine ⟨_, emitted, _, hwritten.parseEvent, hwritten.emitted_iff, rfl, ?_, ?_, hidx,
    hholds.idx_le, hholds.length_eq, fun k v hk => hholds.stored k _ ?_⟩
  · rw [hsize]
    exact hmatch
  · rw [hsize]
    exact prescribes_eventPayloads hcontent file func line pairs count emitted
  · rw [List.getElem?_map, ← hsize, hk, Option.map_some]

end

section

attribute [local instance] posix tlgIn

/-- A context with a number. -/
def numberContext : LogContext where
  valuesData             := [1, 42, 0, 0, 0]
  valuesDataLength       := 5
  propertyValuePairs     := [some ⟨⟨ascii "request", by decide⟩, 0, struct⟩,
    some ⟨⟨ascii "id", by decide⟩, 1, int32⟩]
  propertyValuePairCount := 2

lemma zero_notMem_logInfo : 0 ∉ ascii "LogInfo" := by decide

lemma fits_logInfo : (ascii "LogInfo").length + 28 < MAX_METADATA_SIZE := by decide

/-- The name of events of level `LOG_LEVEL_INFO`. -/
def eventNameInfo : EventName := ⟨⟨ascii "LogInfo", zero_notMem_logInfo⟩, fits_logInfo⟩

lemma emitsProperties_numberContext :
    EmitsProperties eventNameInfo numberContext.views 2 (ascii "done") := by
  refine ⟨by decide, fun p hp => ?_, by decide +kernel⟩
  simp only [LogContext.views, numberContext] at hp
  rcases List.mem_pair.mp hp with rfl | rfl <;> exact Option.some_ne_none _

lemma messagePrints_numberContext :
    MessagePrints eventNameInfo numberContext.views 2 ⟨ascii "done", none, none⟩ :=
  ⟨rfl, fun _ => rfl⟩

/-- The event for the number is written. -/
lemma internalEmit_numberContext : ∃ ws e,
    internalEmitSelfDescribedEventVa 6 (fun _ => 0) eventNameInfo 4 numberContext.views 2 none none
      7 ⟨ascii "done", none, none⟩ = some ⟨ws, [e]⟩ := by
  obtain ⟨⟨ws, events⟩, hemit, -, ⟨-, hnone⟩ | ⟨e, emitted, hone, -⟩⟩ := internalEmit_spec 6
    (fun _ => 0) eventNameInfo 4 (fun _ => show 2 ≤ numberContext.views.length by decide) none none
    7 ⟨ascii "done", none, none⟩
  · exact absurd ⟨by decide, messagePrints_numberContext⟩ hnone
  · simp only at hone
    exact ⟨ws, e, hone ▸ hemit⟩

theorem etwDescriptors_match_sample : ∃ ws e,
    internalEmitSelfDescribedEventVa 6 (fun _ => 0) eventNameInfo 4 numberContext.views 2 none none
        7 ⟨ascii "done", none, none⟩ = some ⟨ws, [e]⟩ ∧
      e.descriptors.idx = 7 ∧ e.descriptors.entries[6]? = some (some [42, 0, 0, 0]) := by
  obtain ⟨ws, e, hemit⟩ := internalEmit_numberContext
  obtain ⟨emission, hemission, hevents⟩ := etwDescriptors_match 6 (fun _ => 0) eventNameInfo 4
    (show 2 ≤ numberContext.views.length by decide) none none 7 ⟨ascii "done", none, none⟩
  obtain rfl := Option.some.inj (hemit.symm.trans hemission)
  obtain ⟨md, emitted, values, -, hiff, hvalues, hmatch, -, hidx, -, -, hstored⟩ :=
    hevents e List.mem_cons_self
  rw [hiff.mpr emitsProperties_numberContext] at hvalues
  subst hvalues
  refine ⟨ws, e, hemit, ?_, hstored 4 ⟨⟨ascii "id", by decide⟩, .int32, [42, 0, 0, 0]⟩ rfl⟩
  rw [hidx, hmatch.length_eq]
  rfl

end

end CLogging
