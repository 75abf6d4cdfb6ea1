import CLogging.Context.Reservation
import CLogging.Etw.Algorithm

/-!
# The metadata of an event

The array `metadata` holds the name of the event and the encoded fields, and behind them the
message. Printing the message, once or twice, leaves the metadata in front of it alone.
-/

namespace CLogging

open C Memory Printf TraceLogging

/-! ### Building the metadata -/

/-- A store behind some bytes. -/
lemma apply_behind {bytes metadata : List UInt8} (hstarts : bytes <+: metadata)
    (stored : List UInt8) (hfits : bytes.length + stored.length ≤ metadata.length) :
    bytes ++ stored <+: (Write.mk (bytes.length : ℤ) stored).apply metadata := by
  rw [Write.apply_eq_append _ _ _ hfits, ← List.prefix_iff_eq_take.mp hstarts,
    ← List.append_assoc]
  exact List.prefix_append _ _

/-- The array has its size and starts with the given bytes, and no store left it. -/
structure MetadataBuffer.Keeps (bytes : List UInt8) (b : MetadataBuffer) : Prop where
  length_eq  : b.metadata.length = MAX_METADATA_SIZE
  starts     : bytes <+: b.metadata
  inside     : StaysBelow b.writes MAX_METADATA_SIZE

/-- Moreover `pos` is behind the bytes. -/
structure MetadataBuffer.Filled (bytes : List UInt8) (b : MetadataBuffer) : Prop
    extends b.Keeps bytes where
  pos_eq     : b.pos = bytes.length

lemma MetadataBuffer.Keeps.length_le {bytes : List UInt8} {b : MetadataBuffer}
    (h : b.Keeps bytes) : bytes.length ≤ MAX_METADATA_SIZE := by
  rw [← h.length_eq]
  exact h.starts.length_le

lemma MetadataBuffer.Keeps.of_append {bytes more : List UInt8} {b : MetadataBuffer}
    (h : b.Keeps (bytes ++ more)) : b.Keeps bytes :=
  ⟨h.length_eq, (List.prefix_append _ _).trans h.starts, h.inside⟩

lemma MetadataBuffer.Keeps.store {bytes : List UInt8} {b : MetadataBuffer} (h : b.Keeps bytes)
    (more : List UInt8) (hfits : bytes.length + more.length ≤ MAX_METADATA_SIZE) :
    (b.store bytes.length more).Keeps (bytes ++ more) := by
  refine ⟨?_, ?_, ?_⟩
  · rw [MetadataBuffer.store, Write.length_apply, h.length_eq]
  · exact apply_behind h.starts more (by rw [h.length_eq]; exact hfits)
  · rw [MetadataBuffer.store, staysBelow_append, staysBelow_cons]
    refine ⟨h.inside, fun _ => ⟨Int.natCast_nonneg _, ?_⟩, staysBelow_nil _⟩
    simp only [Write.stop]
    exact_mod_cast hfits

lemma MetadataBuffer.Filled.append {bytes : List UInt8} {b : MetadataBuffer} (h : b.Filled bytes)
    (more : List UInt8) (hfits : bytes.length + more.length ≤ MAX_METADATA_SIZE) :
    (b.append more).Filled (bytes ++ more) := by
  have hkeeps := h.toKeeps.store more hfits
  rw [← h.pos_eq] at hkeeps
  refine ⟨⟨hkeeps.length_eq, hkeeps.starts, hkeeps.inside⟩, ?_⟩
  rw [MetadataBuffer.append, List.length_append, h.pos_eq]

/-- Several stores one behind the other. -/
lemma MetadataBuffer.Filled.foldl_append {bytes : List UInt8} {b : MetadataBuffer}
    (h : b.Filled bytes) (pieces : List (List UInt8))
    (hfits : bytes.length + pieces.flatten.length ≤ MAX_METADATA_SIZE) :
    (pieces.foldl MetadataBuffer.append b).Filled (bytes ++ pieces.flatten) := by
  induction pieces generalizing bytes b with
  | nil => simpa using h
  | cons piece pieces ih =>
    rw [List.flatten_cons, List.length_append] at hfits
    have hnext := ih (h.append piece (by omega)) (by rw [List.length_append]; omega)
    rwa [List.append_assoc] at hnext

lemma zero_notMem_content : 0 ∉ ascii "content" := by decide

lemma zero_notMem_file : 0 ∉ ascii "file" := by decide

lemma zero_notMem_func : 0 ∉ ascii "func" := by decide

lemma zero_notMem_line : 0 ∉ ascii "line" := by decide

section

variable [TlgIn]

/-- The fields every event has. -/
def fixedFields : List FieldMetadata :=
  [⟨⟨ascii "content", zero_notMem_content⟩, TlgIn.code .ansiString, none⟩,
    ⟨⟨ascii "file", zero_notMem_file⟩, TlgIn.code .ansiString, none⟩,
    ⟨⟨ascii "func", zero_notMem_func⟩, TlgIn.code .ansiString, none⟩,
    ⟨⟨ascii "line", zero_notMem_line⟩, TlgIn.code .int32, none⟩]

/-- The field of a property, if its type is known: of a struct the out-type is the number of its
fields. -/
def PropertyView.field (p : PropertyView) : Option FieldMetadata :=
  (inType p.type.getType).map fun type =>
    ⟨p.name, TlgIn.code type, if type = .struct then some (p.memory.headD 0) else none⟩

/-- The fields of properties. -/
def propertyFields (ps : List PropertyView) : List FieldMetadata := ps.filterMap PropertyView.field

/-- The bytes of fields. -/
def encodeFields (fs : List FieldMetadata) : List UInt8 := fs.flatMap FieldMetadata.encode

/-- The metadata of an event without properties. -/
def fixedMetadata (eventName : EventName) : List UInt8 :=
  eventName.name.terminated ++ encodeFields fixedFields

omit [TlgIn] in
lemma encodeFields_append (fs gs : List FieldMetadata) :
    encodeFields (fs ++ gs) = encodeFields fs ++ encodeFields gs :=
  List.flatMap_append

lemma length_fixedMetadata (eventName : EventName) :
    (fixedMetadata eventName).length = eventName.name.bytes.length + 28 := by
  simp [fixedMetadata, encodeFields, fixedFields, FieldMetadata.encode, CString.terminated, ascii]

lemma length_fixedMetadata_lt (eventName : EventName) :
    (fixedMetadata eventName).length < MAX_METADATA_SIZE := by
  rw [length_fixedMetadata]
  exact eventName.fits

lemma fillFixedFields_filled (eventName : EventName) {metadata : List UInt8}
    (hlen : metadata.length = MAX_METADATA_SIZE) :
    (fillFixedFields eventName ⟨metadata, 0, []⟩).Filled (fixedMetadata eventName) := by
  have hempty : MetadataBuffer.Filled [] ⟨metadata, 0, []⟩ :=
    ⟨⟨hlen, List.nil_prefix, staysBelow_nil _⟩, rfl⟩
  have hpieces : [eventName.name.terminated, ascii "content" ++ [0], [TlgIn.code .ansiString],
      ascii "file" ++ [0], [TlgIn.code .ansiString], ascii "func" ++ [0],
      [TlgIn.code .ansiString], ascii "line" ++ [0], [TlgIn.code .int32]].flatten =
        fixedMetadata eventName := by
    simp [fixedMetadata, encodeFields, fixedFields, FieldMetadata.encode, CString.terminated]
  have hfits : ([] : List UInt8).length + (fixedMetadata eventName).length ≤ MAX_METADATA_SIZE := by
    rw [List.length_nil, Nat.zero_add]
    exact (length_fixedMetadata_lt eventName).le
  rw [← hpieces] at hfits ⊢
  exact hempty.foldl_append _ hfits

/-! ### Adding properties -/

/-- The bytes of the field of a property. -/
lemma length_encode_field {p : PropertyView} {type : InType}
    (h : inType p.type.getType = some type) : ∃ f, p.field = some f ∧
      f.encode = p.name.terminated ++
        (if type = .struct then [TlgIn.code .struct ||| chain, p.memory.headD 0]
          else [TlgIn.code type]) := by
  refine ⟨_, by rw [PropertyView.field, h, Option.map_some], ?_⟩
  by_cases hstruct : type = .struct
  · subst hstruct
    rfl
  · simp only [FieldMetadata.encode, if_neg hstruct]

/-- A field does not fit if there is no room for its name and its type. -/
lemma long_of_refused {used : ℕ} {p : PropertyView} {f : FieldMetadata} (hf : p.field = some f)
    (h : p.name.bytes.length > 2 ^ 16 - 1 ∨
      MAX_METADATA_SIZE - used < p.name.bytes.length + 1 + 1) :
    MAX_METADATA_SIZE < used + f.encode.length := by
  obtain ⟨type, htype, -⟩ := Option.map_eq_some_iff.mp hf
  obtain ⟨f', hf', hencode⟩ := length_encode_field htype
  obtain rfl := Option.some.inj (hf'.symm.trans hf)
  have hmin : p.name.bytes.length + 1 + 1 ≤ f'.encode.length := by
    rw [hencode, List.length_append, p.name.length_terminated]
    split_ifs <;> simp
  have hsmall : MAX_METADATA_SIZE < 2 ^ 16 := by decide
  rcases h with hlong | hshort <;> omega

omit [TlgIn] in
/-- Two bytes, the second of which is not stored if the first fills the array. -/
lemma MetadataBuffer.Filled.append_two {bytes : List UInt8} {b : MetadataBuffer}
    (h : b.Filled bytes) (hroom : bytes.length < MAX_METADATA_SIZE) (first second : UInt8) :
    (b.append [first]).Filled (bytes ++ [first]) ∧
      ((b.append [first]).pos = MAX_METADATA_SIZE ↔ MAX_METADATA_SIZE < bytes.length + 2) ∧
      ((b.append [first]).pos ≠ MAX_METADATA_SIZE →
        ((b.append [first]).append [second]).Filled (bytes ++ [first, second])) := by
  have hfirst := h.append [first] (by rw [List.length_singleton]; exact hroom)
  have hpos := hfirst.pos_eq
  rw [List.length_append, List.length_singleton] at hpos
  refine ⟨hfirst, by omega, fun hfull => ?_⟩
  have hsecond := hfirst.append [second] (by
    rw [List.length_append, List.length_singleton, List.length_singleton]
    omega)
  rwa [List.append_assoc] at hsecond

/-- Adding the field of one property: it succeeds exactly if the type is known and the field
fits. -/
lemma addProperty_spec {bytes : List UInt8} {b : MetadataBuffer} (h : b.Filled bytes)
    (p : PropertyView) :
    (∃ f b', p.field = some f ∧ bytes.length + f.encode.length ≤ MAX_METADATA_SIZE ∧
      addProperty p b = (true, b') ∧ b'.Filled (bytes ++ f.encode)) ∨
    (∃ b', (∀ f, p.field = some f → MAX_METADATA_SIZE < bytes.length + f.encode.length) ∧
      addProperty p b = (false, b') ∧ b'.Keeps bytes) := by
  have hle := h.length_le
  have hname : p.name.terminated.length = p.name.bytes.length + 1 := p.name.length_terminated
  have hroom : u16 (MAX_METADATA_SIZE - b.pos : ℤ) = MAX_METADATA_SIZE - bytes.length := by
    rw [h.pos_eq, ← Nat.cast_sub hle]
    exact u16_natCast (lt_of_le_of_lt (Nat.sub_le _ _) (by decide))
  by_cases hfits : p.name.bytes.length > 2 ^ 16 - 1 ∨
      MAX_METADATA_SIZE - bytes.length < p.name.bytes.length + 1 + 1
  · -- no room for the name and a byte of type: refused
    refine Or.inr ⟨b, fun f hf => long_of_refused hf hfits, ?_, h.toKeeps⟩
    rw [addProperty, hroom, if_pos hfits]
  rw [addProperty, hroom, if_neg hfits]
  have hnamed := h.append p.name.terminated (by omega)
  have hbehind : (bytes ++ p.name.terminated).length < MAX_METADATA_SIZE := by
    rw [List.length_append]
    omega
  match htype : inType p.type.getType with
  | none =>
    refine Or.inr ⟨_, fun f hf => ?_, rfl, hnamed.toKeeps.of_append⟩
    rw [PropertyView.field, htype] at hf
    cases hf
  | some type =>
    obtain ⟨f, hf, hencode⟩ := length_encode_field htype
    by_cases hstruct : type = .struct
    · subst hstruct
      rw [if_pos rfl] at hencode
      obtain ⟨hchained, hfull, hcounted⟩ :=
        hnamed.append_two hbehind (TlgIn.code .struct ||| chain) (p.memory.headD 0)
      simp only
      split_ifs with hpos
      · -- no room is left for the count of the struct
        refine Or.inr ⟨_, fun f' hf' => ?_, rfl, hchained.toKeeps.of_append.of_append⟩
        obtain rfl := Option.some.inj (hf.symm.trans hf')
        rw [hencode, List.length_append, ← Nat.add_assoc, ← List.length_append]
        exact hfull.mp hpos
      · have hfilled := hcounted hpos
        rw [List.append_assoc, ← hencode] at hfilled
        refine Or.inl ⟨f, _, hf, ?_, rfl, hfilled⟩
        rw [← List.length_append]
        exact hfilled.length_le
    · -- name and type: that is all of a value
      rw [if_neg hstruct] at hencode
      have htyped := hnamed.append [TlgIn.code type] hbehind
      rw [List.append_assoc, ← hencode] at htyped
      refine Or.inl ⟨f, _, hf, ?_, ?_, htyped⟩
      · rw [← List.length_append]
        exact htyped.length_le
      · cases type with
        | struct => exact absurd rfl hstruct
        | _ => rfl

/-- Fields of properties that are all known and fit behind `used` bytes. -/
structure FieldsFit (used : ℕ) (ps : List PropertyView) : Prop where
  known : ∀ p ∈ ps, p.field ≠ none
  fits  : used + (encodeFields (propertyFields ps)).length ≤ MAX_METADATA_SIZE

lemma propertyFields_cons {p : PropertyView} {f : FieldMetadata} (h : p.field = some f)
    (ps : List PropertyView) : propertyFields (p :: ps) = f :: propertyFields ps := by
  rw [propertyFields, List.filterMap_cons_some h]
  rfl

omit [TlgIn] in
lemma encodeFields_cons (f : FieldMetadata) (fs : List FieldMetadata) :
    encodeFields (f :: fs) = f.encode ++ encodeFields fs :=
  List.flatMap_cons

lemma fieldsFit_cons {used : ℕ} {p : PropertyView} {f : FieldMetadata} (h : p.field = some f)
    (ps : List PropertyView) :
    FieldsFit used (p :: ps) ↔ FieldsFit (used + f.encode.length) ps := by
  have hlength : used + (encodeFields (propertyFields (p :: ps))).length =
      used + f.encode.length + (encodeFields (propertyFields ps)).length := by
    rw [propertyFields_cons h, encodeFields_cons, List.length_append, Nat.add_assoc]
  constructor
  · intro hfit
    exact ⟨fun q hq => hfit.known q (List.mem_cons_of_mem _ hq), hlength ▸ hfit.fits⟩
  · intro hfit
    refine ⟨fun q hq => ?_, hlength ▸ hfit.fits⟩
    rcases List.mem_cons.mp hq with rfl | hrest
    · rw [h]
      exact Option.some_ne_none f
    · exact hfit.known q hrest

/-- The loop adds all fields if they are known and fit; otherwise it gives up with the metadata in
front of them as it was. -/
theorem addProperties_spec (n : ℕ) {ps : List PropertyView} (hn : n ≤ ps.length)
    {bytes : List UInt8} {b : MetadataBuffer} (h : b.Filled bytes) :
    ∃ added b', addProperties n ps b = some (added, b') ∧ b'.Keeps bytes ∧
      (added = true ↔ FieldsFit bytes.length (ps.take n)) ∧
      (added = true → b'.Filled (bytes ++ encodeFields (propertyFields (ps.take n)))) := by
  induction n generalizing ps bytes b with
  | zero =>
    refine ⟨true, b, rfl, h.toKeeps, ⟨fun _ => ?_, fun _ => rfl⟩, fun _ => ?_⟩
    · exact ⟨fun p hp => absurd hp List.not_mem_nil, h.length_le⟩
    · rw [List.take_zero, propertyFields, List.filterMap_nil, encodeFields, List.flatMap_nil,
        List.append_nil]
      exact h
  | succ n ih =>
    match ps with
    | [] => exact absurd hn (Nat.not_succ_le_zero n)
    | p :: ps =>
      rw [addProperties, List.take_succ_cons]
      rcases addProperty_spec h p with ⟨f, b', hf, hfits, hadd, hfilled⟩ |
          ⟨b', hover, hadd, hkeeps⟩
      · -- this field fits, and the ones behind it decide
        obtain ⟨added, b'', hrun, hkeeps, hiff, hall⟩ :=
          ih (Nat.le_of_succ_le_succ hn) hfilled
        rw [hadd]
        refine ⟨added, b'', hrun, hkeeps.of_append, ?_, ?_⟩
        · rw [hiff, fieldsFit_cons hf, List.length_append]
        · intro hadded
          rw [propertyFields_cons hf, encodeFields_cons, ← List.append_assoc]
          exact hall hadded
      · -- this field does not fit: the loop ends
        rw [hadd]
        refine ⟨false, b', rfl, hkeeps,
          ⟨fun hfalse => absurd hfalse Bool.false_ne_true, fun hfit => ?_⟩,
          fun hfalse => absurd hfalse Bool.false_ne_true⟩
        obtain ⟨f, hf⟩ := Option.ne_none_iff_exists'.mp (hfit.known p List.mem_cons_self)
        have hle := ((fieldsFit_cons hf _).mp hfit).fits
        have hlt := hover f hf
        omega

end

/-! ### Printing the message -/

/-- The array holds metadata and behind it the message, cut off where the array ends, and its
terminator. -/
def Printed (bytes text : List UInt8) (b : MetadataBuffer) : Prop :=
  b.Keeps (bytes ++ (text.take (MAX_METADATA_SIZE - bytes.length - 1) ++ [0]))

section

variable {bytes text : List UInt8} {b : MetadataBuffer}

lemma Printed.keeps (h : Printed bytes text b) : b.Keeps bytes := h.of_append

/-- What is behind the metadata. -/
lemma Printed.message (h : Printed bytes text b) :
    text.take (MAX_METADATA_SIZE - bytes.length - 1) ++ [0] <+: b.metadata.drop bytes.length := by
  obtain ⟨rest, hrest⟩ := h.starts
  rw [← hrest, List.append_assoc, List.drop_left]
  exact List.prefix_append _ _

lemma Printed.cstr_drop (h : Printed bytes text b) : cstr (b.metadata.drop bytes.length) =
    (cstr text).take (MAX_METADATA_SIZE - bytes.length - 1) := by
  obtain ⟨rest, hrest⟩ := h.message
  rw [← hrest, List.append_assoc, List.singleton_append, cstr_append_zero_cons, cstr_take]

/-- Printing the message behind the metadata. -/
lemma MetadataBuffer.Keeps.printed (h : b.Keeps bytes) (text : List UInt8)
    (hroom : bytes.length < MAX_METADATA_SIZE) : Printed bytes text
      (b.store bytes.length (stored text (MAX_METADATA_SIZE - bytes.length))) := by
  have hstored : stored text (MAX_METADATA_SIZE - bytes.length) =
      text.take (MAX_METADATA_SIZE - bytes.length - 1) ++ [0] :=
    if_neg (Nat.sub_ne_zero_of_lt hroom)
  have hle := stored_length_le text (MAX_METADATA_SIZE - bytes.length)
  have hkeeps := h.store (stored text (MAX_METADATA_SIZE - bytes.length)) (by omega)
  rw [Printed, ← hstored]
  exact hkeeps

/-- What `vsnprintf` stores, whether or not it fails, leaves the metadata as they are. -/
lemma MetadataBuffer.Keeps.vsnprintf (h : b.Keeps bytes) (text : List UInt8)
    (failure : Option Failure) : (b.store bytes.length
      (vsnprintf text failure (MAX_METADATA_SIZE - bytes.length)).2).Keeps bytes := by
  have hle := h.length_le
  have hstored : (CLogging.vsnprintf text failure (MAX_METADATA_SIZE - bytes.length)).2.length ≤
      MAX_METADATA_SIZE - bytes.length := by
    cases failure <;> exact stored_length_le _ _
  exact (h.store _ (by omega)).of_append

lemma take_append_of_prefix {α : Type} {xs ys : List α} {a : α} {n : ℕ} (h : xs ++ [a] <+: ys)
    (hn : xs.length ≤ n) (hys : ys.length = n + 1) : xs ++ [a] <+: ys.take n ++ [a] := by
  rcases Nat.lt_or_eq_of_le hn with hlt | rfl
  · refine (List.prefix_take_iff.mpr ⟨h, ?_⟩).trans (List.prefix_append _ _)
    rw [List.length_append]
    exact hlt
  · rw [← List.prefix_iff_eq_take.mp ((List.prefix_append _ _).trans h)]

/-- Terminating the message where the array ends changes nothing. -/
lemma Printed.terminate (h : Printed bytes text b) (hroom : bytes.length < MAX_METADATA_SIZE) :
    Printed bytes text (b.store (MAX_METADATA_SIZE - 1) [0]) := by
  have happly := Write.apply_eq_append (MAX_METADATA_SIZE - 1) [0] b.metadata
    (by rw [h.length_eq]; rfl)
  have hrest : b.metadata.drop (MAX_METADATA_SIZE - 1 + [(0 : UInt8)].length) = [] :=
    List.drop_eq_nil_of_le (by rw [h.length_eq]; rfl)
  rw [hrest, List.append_nil] at happly
  refine ⟨?_, ?_, ?_⟩
  · rw [MetadataBuffer.store, Write.length_apply, h.length_eq]
  · rw [MetadataBuffer.store, happly, ← List.append_assoc]
    refine take_append_of_prefix ?_ ?_ (by rw [h.length_eq]; rfl)
    · rw [List.append_assoc]
      exact h.starts
    · rw [List.length_append, List.length_take]
      omega
  · rw [MetadataBuffer.store, staysBelow_append, staysBelow_cons]
    exact ⟨h.inside, fun _ => by decide, staysBelow_nil _⟩

end

end CLogging
