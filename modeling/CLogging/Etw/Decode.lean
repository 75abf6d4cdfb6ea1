import CLogging.Etw.Descriptors
import CLogging.ToString.Trees

/-!
# Reading the properties back

If the pairs of a context are complete trees, the fields of its properties group to the same trees.
-/

namespace CLogging

open C Memory Printf TraceLogging Forest

section

variable [TlgIn]

/-- The logical field for a property, if its type is known. -/
def Leaf.field (l : Leaf) : Option (CString × InType) :=
  (inType l.type.getType).map fun type => (l.name, type)

/-- The logical field for a property whose type is known. -/
def Leaf.knownField (l : Leaf) : CString × InType := l.field.getD (l.name, .struct)

/-- The field of a property is read as what the property is. -/
lemma token_of_field {p : PropertyView} {f : FieldMetadata} (h : p.field = some f) :
    f.token = some (p.token.map Leaf.knownField) ∧
      (p.token.map Leaf.knownField).map some = p.token.map Leaf.field := by
  obtain ⟨type, htype, rfl⟩ := Option.map_eq_some_iff.mp h
  by_cases hstruct : type = .struct
  · subst hstruct
    have htoken : p.token = .node p.name p.fieldCount := if_pos (inType_eq_struct.mp htype)
    rw [htoken]
    refine ⟨?_, rfl⟩
    rw [FieldMetadata.token, TlgIn.read_code]
    rfl
  · -- the code of a value type is not that of a struct, so it is read as a leaf
    have hleaf : p.type.getType ≠ .struct := by
      intro hp
      rw [inType_eq_struct.mpr hp] at htype
      exact hstruct (Option.some.inj htype).symm
    have htoken : p.token = .leaf ⟨p.name, p.type, (p.type.copy p.memory).getD []⟩ := if_neg hleaf
    have hfield : Leaf.field ⟨p.name, p.type, (p.type.copy p.memory).getD []⟩ =
        some (p.name, type) := by
      rw [Leaf.field, htype, Option.map_some]
    rw [htoken]
    simp only [Token.map, Leaf.knownField, hfield, Option.getD_some, and_true]
    rw [FieldMetadata.token, TlgIn.read_code, if_neg hstruct]
    cases type with
    | struct => exact absurd rfl hstruct
    | _ => rfl

/-- The fields of properties are read one by one. -/
lemma mapM_token_propertyFields {ps : List PropertyView} (h : ∀ p ∈ ps, p.field ≠ none) :
    (propertyFields ps).mapM FieldMetadata.token =
        some ((ps.map PropertyView.token).map (Token.map Leaf.knownField)) ∧
      ((ps.map PropertyView.token).map (Token.map Leaf.knownField)).map (Token.map some) =
        (ps.map PropertyView.token).map (Token.map Leaf.field) := by
  induction ps with
  | nil => exact ⟨rfl, rfl⟩
  | cons p ps ih =>
    obtain ⟨hread, hknown⟩ := ih fun q hq => h q (List.mem_cons_of_mem _ hq)
    obtain ⟨f, hf⟩ := Option.ne_none_iff_exists'.mp (h p List.mem_cons_self)
    obtain ⟨htoken, hsome⟩ := token_of_field hf
    constructor
    · rw [propertyFields_cons hf, List.mapM_cons, htoken, hread]
      rfl
    · simp only [List.map_cons, hsome, hknown]

/-- The fields of the properties of complete trees group to these trees. -/
theorem fieldTrees_propertyFields {ps : List PropertyView} {ts : List (RoseTree CString Leaf)}
    (htokens : ps.map PropertyView.token = encodeForest ts) (h : ∀ p ∈ ps, p.field ≠ none) :
    ∃ us, fieldTrees (propertyFields ps) = some us ∧
      mapForest some us = mapForest Leaf.field ts := by
  obtain ⟨hread, hknown⟩ := mapM_token_propertyFields h
  rw [htokens, ← encodeForest_map] at hread hknown
  refine ⟨mapForest Leaf.knownField ts, ?_, ?_⟩
  · rw [fieldTrees, hread, Option.bind_some, decodeAll_encodeForest]
  · apply encodeForest_injective
    rw [encodeForest_map, hknown, encodeForest_map]

/-- Structs of complete trees have few enough fields that their out-types are not extended. -/
lemma outType_lt {ps : List PropertyView} {ts : List (RoseTree CString Leaf)}
    (htokens : ps.map PropertyView.token = encodeForest ts)
    (hfew : ps.length ≤ LOG_MAX_ETW_PROPERTY_VALUE_PAIR_COUNT) :
    ∀ f ∈ propertyFields ps, ∀ b ∈ f.outType, b.toNat < 128 := by
  intro f hf b hb
  obtain ⟨p, hp, hfield⟩ := List.mem_filterMap.mp hf
  obtain ⟨type, htype, rfl⟩ := Option.map_eq_some_iff.mp hfield
  simp only [Option.mem_def] at hb
  split_ifs at hb with hstruct
  obtain rfl := Option.some.inj hb
  subst hstruct
  have htoken : p.token = .node p.name p.fieldCount := if_pos (inType_eq_struct.mp htype)
  have hmem : Token.node p.name p.fieldCount ∈ encodeForest ts := by
    rw [← htokens, ← htoken]
    exact List.mem_map_of_mem hp
  have hlt := lt_of_node_mem_encodeForest _ ts (le_refl _) hmem
  rw [← htokens, List.length_map] at hlt
  calc (p.memory.headD 0).toNat < ps.length := hlt
    _ ≤ LOG_MAX_ETW_PROPERTY_VALUE_PAIR_COUNT := hfew
    _ < 128 := by decide

end

/-- The pairs of a context that are complete trees, as `log_sink_etw_log` passes them. -/
lemma views_of_tokens {c : LogContext} {ts : List (RoseTree CString Leaf)}
    (htokens : c.tokens = some (encodeForest ts))
    (hcount : (encodeForest ts).length = c.propertyValuePairCount) :
    c.propertyValuePairCount ≤ c.views.length ∧
      (c.views.take c.propertyValuePairCount).map PropertyView.token = encodeForest ts := by
  obtain ⟨ps, hpairs, hps⟩ := exists_of_mapM_eq_some htokens
  have hviews : c.views = ps.map c.view ++
      ((c.propertyValuePairs.drop c.propertyValuePairCount).takeWhile Option.isSome).filterMap
        (Option.map c.view) := by
    rw [← filterMap_takeWhile_map_some, ← hpairs, List.take_append_drop]
    rfl
  have hlength : (ps.map c.view).length = c.propertyValuePairCount := by
    rw [← hcount, ← hps, List.length_map, List.length_map]
  rw [hviews]
  constructor
  · rw [List.length_append, hlength]
    exact Nat.le_add_right _ _
  · rw [← hlength, List.take_left, List.map_map, ← hps]
    rfl

section

variable [Platform] [TlgIn]

/-- The described metadata of an event decode to the name of the event, the fixed fields, and the
trees of the context, or no further fields if the properties are not emitted. The message behind
them is no part of what is described. -/
theorem etwMetadata_decodes {levelPlus1 : ℕ} {garbage : ℕ → UInt8} {eventName : EventName}
    {traceLevel : ℕ} {c : LogContext} {ts : List (RoseTree CString Leaf)}
    (htokens : c.tokens = some (encodeForest ts))
    (hcount : (encodeForest ts).length = c.propertyValuePairCount)
    (hfew : c.propertyValuePairCount ≤ 64) {file func : Option CString} {line : ℤ}
    {message : FormattedMessage} {emission : Emission}
    (hemit : internalEmitSelfDescribedEventVa levelPlus1 garbage eventName traceLevel c.views
      c.propertyValuePairCount file func line message = some emission)
    {e : Event} (he : e ∈ emission.events) :
    e.described.length = e.evtMetaSize ∧
    cstr (e.metadata.drop (e.evtMetaSize - 4)) =
      (cstr message.text).take (MAX_METADATA_SIZE - (e.evtMetaSize - 4) - 1) ∧
    ∃ fs, parseEvent e.described =
        some ⟨e.evtMetaSize, [128, 0], eventName.name, fixedFields ++ fs⟩ ∧
      (∀ f ∈ fs, ∀ b ∈ f.outType, b.toNat < 128) ∧
      (EmitsProperties eventName c.views c.propertyValuePairCount message.text →
        ∃ us, fieldTrees fs = some us ∧ mapForest some us = mapForest Leaf.field ts) ∧
      (¬ EmitsProperties eventName c.views c.propertyValuePairCount message.text → fs = []) := by
  obtain ⟨hle, hviews⟩ := views_of_tokens htokens hcount
  obtain ⟨emitted, hwritten, -⟩ := written_of_internalEmit hle hemit he
  have hsize := hwritten.size_eq
  have hsub : e.evtMetaSize - 4 =
      (eventMetadata eventName c.views c.propertyValuePairCount emitted).length := by
    rw [hsize, Nat.add_sub_cancel]
  refine ⟨?_, ?_, _, hwritten.parseEvent, ?_, ?_, ?_⟩
  · rw [hwritten.described_eq, List.length_append, List.length_append, length_leBytes,
      List.length_cons, List.length_singleton, hsize, Nat.add_comm]
  · -- the message ends at the first zero behind the fields
    obtain ⟨rest, hrest⟩ := hwritten.message
    rw [hsub, ← hrest, List.append_assoc, List.singleton_append, cstr_append_zero_cons, cstr_take]
  · -- no field of a property has a flag set, as there are at most 64 of them
    cases emitted with
    | false => exact fun f hf => absurd hf List.not_mem_nil
    | true =>
      refine outType_lt hviews ?_
      rw [List.length_take]
      exact (min_le_left _ _).trans hfew
  · -- with the properties: their fields read as the tree they were written from
    intro hemits
    rw [hwritten.emitted_iff.mpr hemits]
    exact fieldTrees_propertyFields hviews hemits.known
  · intro hemits
    cases emitted with
    | false => rfl
    | true => exact absurd (hwritten.emitted_iff.mp rfl) hemits

end

section

attribute [local instance] posix tlgIn

theorem etwMetadata_decodes_sample : ∃ ws e fs us,
    internalEmitSelfDescribedEventVa 6 (fun _ => 0) eventNameInfo 4 numberContext.views 2 none none
        7 ⟨ascii "done", none, none⟩ = some ⟨ws, [e]⟩ ∧
      parseEvent e.described =
        some ⟨e.evtMetaSize, [128, 0], eventNameInfo.name, fixedFields ++ fs⟩ ∧
      fieldTrees fs = some us ∧ mapForest some us = [.node ⟨ascii "request", by decide⟩
        [.leaf (some (⟨ascii "id", by decide⟩, .int32))]] := by
  obtain ⟨ws, e, hemit⟩ := internalEmit_numberContext
  have htokens : numberContext.tokens = some (encodeForest [.node ⟨ascii "request", by decide⟩
      [.leaf ⟨⟨ascii "id", by decide⟩, int32, [42, 0, 0, 0]⟩]]) := by
    simp only [encodeForest_cons, encodeForest_nil, encode_node, encode_leaf]
    rfl
  obtain ⟨-, -, fs, hparse, -, htrees, -⟩ := etwMetadata_decodes htokens (by simp; rfl)
    (by decide) hemit List.mem_cons_self
  obtain ⟨us, hfields, hus⟩ := htrees emitsProperties_numberContext
  refine ⟨ws, e, fs, us, hemit, hparse, hfields, ?_⟩
  rw [hus]
  simp only [mapForest, RoseTree.map]
  rfl

end

end CLogging
