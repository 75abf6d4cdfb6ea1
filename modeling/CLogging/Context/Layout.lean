import CLogging.Context.Reservation
import CLogging.Context.Failure
import CLogging.Lib.Tiling

/-!
# The layout of a chain of contexts

As long as formatting succeeds, a context is described by a list of entries: what was stored, and
in which region of its block. The regions tile the block, and every entry of the parent is found
again in the child, one byte further.
-/

namespace CLogging

open C Memory Tiling

/-! ### Entries -/

/-- A stored property: its region, and the bytes stored at the start of it. -/
structure Entry where
  name    : CString
  type    : LogContextPropertyTypeIf
  region  : Region
  written : List UInt8

/-- The value of the type that some bytes store. -/
def storedValue (type : LogContextPropertyTypeIf) (bytes : List UInt8) : List UInt8 :=
  (type.copy bytes).getD []

def Entry.value (e : Entry) : List UInt8 := storedValue e.type e.written

def Entry.pair (e : Entry) : LogContextPropertyValuePair := ⟨e.name, e.region.start, e.type⟩

def Entry.store (e : Entry) : Write UInt8 := ⟨e.region.start, e.written⟩

/-- The bytes of the regions of entries. -/
def totalSize (es : List Entry) : ℕ := (es.map (·.region.size)).sum

/-- The entry in a child context. -/
def Entry.inherited (e : Entry) : Entry :=
  { e with region := e.region.shift 1, written := e.value }

/-- The bytes of an entry store a value of its type and fit in its region, and only the type
`struct` says that it is a struct. -/
structure Entry.WellFormed (e : Entry) : Prop where
  stores  : e.type.Stores e.written e.value
  fits    : e.written.length ≤ e.region.size
  structs : e.type.getType = .struct → e.type = struct

lemma storedValue_eq {type : LogContextPropertyTypeIf} {bytes value : List UInt8}
    (h : type.Stores bytes value) : storedValue type bytes = value := by
  have hcopy := h.2 []
  rw [List.append_nil] at hcopy
  rw [storedValue, hcopy, Option.getD_some]

lemma stores_storedValue {type : LogContextPropertyTypeIf} {bytes : List UInt8}
    (h : ∃ value, type.Stores bytes value) : type.Stores bytes (storedValue type bytes) := by
  obtain ⟨value, hstores⟩ := h
  rw [storedValue_eq hstores]
  exact hstores

lemma Entry.WellFormed.copy_append {e : Entry} (h : e.WellFormed) (rest : List UInt8) :
    e.type.copy (e.written ++ rest) = some e.value :=
  h.stores.2 rest

lemma Entry.WellFormed.inherited {e : Entry} (h : e.WellFormed) : e.inherited.WellFormed := by
  have hcopied : e.type.Stores e.value e.value := LogContextPropertyTypeIf.stores_of_copy
    (h.copy_append [])
  exact ⟨stores_storedValue ⟨e.value, hcopied⟩, hcopied.1.trans (h.stores.1.trans h.fits),
    h.structs⟩

/-- A value is inherited unchanged. -/
lemma Entry.WellFormed.value_inherited {e : Entry} (h : e.WellFormed) :
    e.inherited.value = e.value := by
  have hcopied := LogContextPropertyTypeIf.stores_of_copy (h.copy_append [])
  exact storedValue_eq hcopied

lemma Entry.WellFormed.size_pos {e : Entry} (h : e.WellFormed) : 0 < e.region.size := by
  have hne : e.value ≠ [] := e.type.copy_ne_nil (h.copy_append [])
  have hpos := List.length_pos_iff.mpr hne
  exact lt_of_lt_of_le hpos (h.stores.1.trans h.fits)

/-- Every entry takes at least one byte. -/
lemma length_le_totalSize {es : List Entry} (h : ∀ e ∈ es, e.WellFormed) :
    es.length ≤ totalSize es := by
  have hpos : ∀ n ∈ es.map (·.region.size), 1 ≤ n := by
    intro n hn
    obtain ⟨e, he, rfl⟩ := List.mem_map.mp hn
    exact (h e he).size_pos
  simpa [totalSize] using List.length_le_sum_of_one_le _ hpos

/-- The pairs of a context, its length and its memory are those of a list of entries. -/
structure Represents (c : LogContext) (es : List Entry) : Prop where
  pairs_eq   : c.propertyValuePairs = es.map (some ·.pair)
  count_eq   : c.propertyValuePairCount = es.length
  length_eq  : c.valuesDataLength = totalSize es
  length_le  : c.valuesDataLength ≤ c.valuesData.length
  tiles      : Tiles (es.map (·.region)) c.valuesDataLength
  wellFormed : ∀ e ∈ es, e.WellFormed
  stored     : ∀ e ∈ es, ∃ rest, c.deref e.region.start = e.written ++ rest

lemma represents_empty (block : List UInt8) : Represents ⟨block, 0, [], 0⟩ [] where
  pairs_eq   := rfl
  count_eq   := rfl
  length_eq  := rfl
  length_le  := Nat.zero_le _
  tiles      := tiles_nil
  wellFormed := by simp
  stored     := by simp

/-- The value of an entry is read through its pair. -/
lemma Represents.copy_deref {c : LogContext} {es : List Entry} (h : Represents c es) {e : Entry}
    (he : e ∈ es) : e.type.copy (c.deref e.region.start) = some e.value := by
  obtain ⟨rest, hrest⟩ := h.stored e he
  rw [hrest]
  exact (h.wellFormed e he).copy_append rest

/-- The value of an entry is copied without a look behind it. -/
lemma Represents.copy_pair {c : LogContext} {es : List Entry} (h : Represents c es) {e : Entry}
    (he : e ∈ es) : c.copy e.pair = some (some e.value) := by
  obtain ⟨rest, hrest⟩ := h.stored e he
  have hwithin : c.Within e.pair := by
    refine ⟨Int.natCast_nonneg _, ?_⟩
    rw [show c.deref e.pair.value = e.written ++ rest from hrest]
    exact (h.wellFormed e he).stores.readsInside rest
  rw [LogContext.copy, if_pos hwithin]
  exact congrArg some (h.copy_deref he)

/-- No context has no entries. -/
def HandleRepresents : LogContextHandle → List Entry → Prop
  | none, es   => es = []
  | some c, es => Represents c es

lemma HandleRepresents.count_eq {parent : LogContextHandle} {es : List Entry}
    (h : HandleRepresents parent es) : logContextGetPropertyValuePairCount parent = es.length := by
  cases parent with
  | none => rw [show es = [] from h]; rfl
  | some c => exact Represents.count_eq h

lemma HandleRepresents.length_eq {parent : LogContextHandle} {es : List Entry}
    (h : HandleRepresents parent es) :
    internalLogContextGetValuesDataLengthOrZero parent = totalSize es := by
  cases parent with
  | none => rw [show es = [] from h]; rfl
  | some c => exact Represents.length_eq h

lemma HandleRepresents.tiles {parent : LogContextHandle} {es : List Entry}
    (h : HandleRepresents parent es) :
    Tiles (es.map (·.region)) (internalLogContextGetValuesDataLengthOrZero parent) := by
  cases parent with
  | none => rw [show es = [] from h]; exact tiles_nil
  | some c => exact Represents.tiles h

lemma HandleRepresents.wellFormed {parent : LogContextHandle} {es : List Entry}
    (h : HandleRepresents parent es) : ∀ e ∈ es, e.WellFormed := by
  cases parent with
  | none => rw [show es = [] from h]; simp
  | some c => exact Represents.wellFormed h

/-- The entries of a context are copied one by one. -/
lemma copyPairs_map_pair (c : LogContext) (es : List Entry)
    (h : ∀ e ∈ es, c.copy e.pair = some (some e.value)) :
    copyPairs c (es.map (some ·.pair)) =
      (es.map (·.inherited.pair), es.map (·.inherited.store), some true) := by
  induction es with
  | nil => rfl
  | cons e es ih =>
    have hcopy := h e List.mem_cons_self
    have ih' := ih fun e he => h e (List.mem_cons_of_mem _ he)
    simp only [List.map_cons, copyPairs, hcopy, ih']
    simp only [Entry.pair, Entry.inherited, Entry.store, Region.shift, Nat.cast_add, Nat.cast_one,
      add_comm (1 : ℤ)]

/-- What a child stores of its parent. -/
lemma HandleRepresents.initFromParent {parent : LogContextHandle} {es : List Entry}
    (h : HandleRepresents parent es) :
    internalLogContextInitFromParent parent =
      (es.map (·.inherited.pair), es.map (·.inherited.store), some true) := by
  cases parent with
  | none => rw [show es = [] from h]; rfl
  | some c =>
    have hc : Represents c es := h
    have hlength : c.propertyValuePairs.length = c.propertyValuePairCount := by
      rw [hc.pairs_eq, hc.count_eq, List.length_map]
    rw [internalLogContextInitFromParent, LogContext.countedPairs_eq hlength, hc.pairs_eq]
    exact copyPairs_map_pair c es fun e he => hc.copy_pair he

/-! ### New properties -/

/-- The property was counted with the bytes it takes, which hold a value of its type, and it is
not a struct. -/
structure Property.Formatted (p : Property) : Prop where
  advance_eq : p.advance = p.counted
  fits       : (p.written.length : ℤ) ≤ p.counted
  stores     : ∃ value, p.type.Stores p.written value
  not_struct : p.type.getType ≠ .struct

/-- The bytes reserved for a property. -/
def Property.size (p : Property) : ℕ := p.counted.toNat

def Property.value (p : Property) : List UInt8 := storedValue p.type p.written

/-- The entry of a property whose region starts at the given offset. -/
def Property.entry (p : Property) (start : ℕ) : Entry := ⟨p.name, p.type, ⟨start, p.size⟩, p.written⟩

/-- The entries of properties one behind the other. -/
def entriesFrom : ℕ → List Property → List Entry
  | _, []          => []
  | start, p :: ps => p.entry start :: entriesFrom (start + p.size) ps

lemma Property.Formatted.size_eq {p : Property} (h : p.Formatted) : (p.size : ℤ) = p.counted := by
  have := h.fits
  rw [Property.size]
  omega

lemma Property.Formatted.wellFormed_entry {p : Property} (h : p.Formatted) (start : ℕ) :
    (p.entry start).WellFormed := by
  have hfits := h.fits
  rw [← h.size_eq] at hfits
  exact ⟨stores_storedValue h.stores, by exact_mod_cast hfits,
    fun hstruct => absurd hstruct h.not_struct⟩

@[simp] lemma length_entriesFrom (start : ℕ) (ps : List Property) :
    (entriesFrom start ps).length = ps.length := by
  induction ps generalizing start with
  | nil => rfl
  | cons p ps ih => simp [entriesFrom, ih]

lemma entriesFrom_region (start : ℕ) (ps : List Property) :
    (entriesFrom start ps).map (·.region) = consecutive start (ps.map Property.size) := by
  induction ps generalizing start with
  | nil => rfl
  | cons p ps ih => simp [entriesFrom, consecutive, Property.entry, ih]

lemma totalSize_entriesFrom (start : ℕ) (ps : List Property) :
    ((entriesFrom start ps).map (·.region.size)).sum = (ps.map Property.size).sum := by
  induction ps generalizing start with
  | nil => rfl
  | cons p ps ih => simp [entriesFrom, Property.entry, ih]

lemma entriesFrom_getElem? (start : ℕ) (ps : List Property) {i : ℕ} {p : Property}
    (h : ps[i]? = some p) : ∃ offset, (entriesFrom start ps)[i]? = some (p.entry offset) := by
  induction ps generalizing start i with
  | nil => simp at h
  | cons q ps ih =>
    cases i with
    | zero =>
      obtain rfl := Option.some.inj h
      exact ⟨start, rfl⟩
    | succ i => exact ih (start + q.size) h

section

variable {ps : List Property} (hps : ∀ p ∈ ps, p.Formatted)

include hps

lemma wellFormed_entriesFrom (start : ℕ) : ∀ e ∈ entriesFrom start ps, e.WellFormed := by
  induction ps generalizing start with
  | nil => simp [entriesFrom]
  | cons p ps ih =>
    intro e he
    rcases List.mem_cons.mp he with rfl | hmem
    · exact (hps p List.mem_cons_self).wellFormed_entry start
    · exact ih (fun q hq => hps q (List.mem_cons_of_mem _ hq)) _ e hmem

omit hps in
/-- Where the next property is stored. -/
lemma Property.Formatted.next_eq {p : Property} (h : p.Formatted) (start : ℕ) :
    (start : ℤ) + p.advance = (start + p.size : ℕ) := by
  rw [h.advance_eq, ← h.size_eq, Nat.cast_add]

lemma pairsFrom_eq (start : ℕ) : pairsFrom start ps = (entriesFrom start ps).map (·.pair) := by
  induction ps generalizing start with
  | nil => rfl
  | cons p ps ih =>
    rw [pairsFrom, (hps p List.mem_cons_self).next_eq,
      ih fun q hq => hps q (List.mem_cons_of_mem _ hq)]
    rfl

lemma writesFrom_eq (start : ℕ) : writesFrom start ps = (entriesFrom start ps).map (·.store) := by
  induction ps generalizing start with
  | nil => rfl
  | cons p ps ih =>
    rw [writesFrom, (hps p List.mem_cons_self).next_eq,
      ih fun q hq => hps q (List.mem_cons_of_mem _ hq)]
    rfl

lemma countedBytes_eq : countedBytes ps = ((ps.map Property.size).sum : ℕ) := by
  induction ps with
  | nil => rfl
  | cons p ps ih =>
    rw [countedBytes_cons, ih fun q hq => hps q (List.mem_cons_of_mem _ hq),
      ← (hps p List.mem_cons_self).size_eq, List.map_cons, List.sum_cons, Nat.cast_add]

end

/-! ### A child context -/

variable [Platform]

/-- Formatting succeeds, and a custom value function stores a value of the property's type. -/
def FieldDesc.Formatted : FieldDesc → Prop
  | .logContextStringProperty _ (.failed _ _ _)         => False
  | .logContextWstringProperty _ (.failed _ _ _ _)      => False
  | .logContextPropertyCustomFunction type _ _ call     => ∃ value, type.Stores call.written value
  | _                                                   => True

lemma FieldDesc.Formatted.not_fails {d : FieldDesc} (h : d.Formatted) : ¬ d.Fails := by
  match d with
  | .logMessage => exact not_false
  | .logContextName _ => exact not_false
  | .logContextProperty _ _ _ => exact not_false
  | .logContextStringProperty _ (.formatted text fits) =>
    exact not_lt.mpr (Int.natCast_nonneg _)
  | .logContextWstringProperty _ (.formatted text wide fits) =>
    exact not_lt.mpr (Int.natCast_nonneg _)
  | .logContextPropertyCustomFunction type _ _ call =>
    obtain ⟨value, hvalue⟩ := h
    have hne : value ≠ [] := type.copy_ne_nil (hvalue.2 [])
    have hpos := List.length_pos_iff.mpr hne
    have hle := hvalue.1
    have hfits := call.fits
    show ¬ call.result < 0
    omega

/-- What is stored for a field holds a value of the type of its property. -/
lemma FieldDesc.Formatted.stores {d : FieldDesc} (h : d.Formatted) {p : Property}
    (hp : d.property = some p) : ∃ value, p.type.Stores p.written value := by
  match d with
  | .logMessage => cases hp
  | .logContextName _ => cases hp
  | .logContextProperty type name x =>
    cases hp
    exact ⟨x.bytes, x.stores⟩
  | .logContextStringProperty name (.formatted text fits) =>
    cases hp
    exact ⟨text.terminated, stores_terminated text⟩
  | .logContextWstringProperty name (.formatted text wide fits) =>
    cases hp
    exact ⟨wideBytes sizeofWchar text, stores_wideBytes wide⟩
  | .logContextPropertyCustomFunction type _ name call =>
    cases hp
    exact h

lemma FieldDesc.Formatted.property {d : FieldDesc} (h : d.Formatted) {p : Property}
    (hp : d.property = some p) : p.Formatted := by
  obtain ⟨hadvance, hwritten⟩ := reserved_of_not_fails h.not_fails hp
  exact ⟨hadvance, hwritten, h.stores hp, property_type_ne_struct hp⟩

lemma formatted_properties {fields : List FieldDesc} (h : ∀ d ∈ fields, d.Formatted) :
    ∀ p ∈ properties fields, p.Formatted := by
  intro p hp
  obtain ⟨d, hd, hdp⟩ := List.mem_filterMap.mp hp
  exact (h d hd).property hdp

/-- The number of direct fields of a context: the parent and the new properties. -/
def fieldCount (parent : LogContextHandle) (fields : List FieldDesc) : ℕ :=
  (if parent.isSome then 1 else 0) + propertyCount fields

/-- The entries of a context: the struct, the entries of the parent, and the new ones. -/
def childEntries (parent : LogContextHandle) (es : List Entry) (fields : List FieldDesc) :
    List Entry :=
  ⟨contextName fields, struct, ⟨0, 1⟩, [u8 (fieldCount parent fields)]⟩ ::
    (es.map (·.inherited) ++
      entriesFrom (1 + internalLogContextGetValuesDataLengthOrZero parent) (properties fields))

section

variable {parent : LogContextHandle} {es : List Entry} {fields : List FieldDesc}
  (h : HandleRepresents parent es) (hf : ∀ d ∈ fields, d.Formatted)

include h hf

lemma wellFormed_childEntries : ∀ e ∈ childEntries parent es fields, e.WellFormed := by
  intro e he
  rcases List.mem_cons.mp he with rfl | he
  · exact ⟨stores_storedValue ⟨_, struct_stores _⟩, le_refl _, fun _ => rfl⟩
  rcases List.mem_append.mp he with he | he
  · obtain ⟨e, hmem, rfl⟩ := List.mem_map.mp he
    exact (h.wellFormed e hmem).inherited
  · exact wellFormed_entriesFrom (formatted_properties hf) _ e he

omit h in
/-- The bytes both macros count, as a number. -/
lemma dataBytes_eq_sum :
    dataBytes fields = (((properties fields).map Property.size).sum : ℕ) := by
  rw [dataBytes_eq, countedBytes_eq (formatted_properties hf)]

omit h hf in
lemma childEntries_regions :
    (childEntries parent es fields).map (·.region) =
      [⟨0, 1⟩] ++ (es.map (·.region)).map (Region.shift 1) ++
        consecutive (1 + internalLogContextGetValuesDataLengthOrZero parent)
          ((properties fields).map Property.size) := by
  simp only [childEntries, List.map_cons, List.map_append, List.map_map, entriesFrom_region,
    List.cons_append]
  rfl

omit hf in
lemma totalSize_childEntries :
    totalSize (childEntries parent es fields) =
      1 + internalLogContextGetValuesDataLengthOrZero parent
        + ((properties fields).map Property.size).sum := by
  have hinherited : totalSize (es.map (·.inherited)) = totalSize es := by
    rw [totalSize, List.map_map]
    rfl
  rw [totalSize] at hinherited
  rw [h.length_eq, totalSize, childEntries, List.map_cons, List.map_append, List.sum_cons,
    List.sum_append, hinherited, totalSize_entriesFrom, add_assoc]

omit hf in
lemma tiles_childEntries :
    Tiles ((childEntries parent es fields).map (·.region))
      (totalSize (childEntries parent es fields)) := by
  rw [totalSize_childEntries h, childEntries_regions]
  exact ((tiles_singleton 1).append h.tiles).append_consecutive _

omit hf in
lemma length_childEntries : (childEntries parent es fields).length =
    logContextGetPropertyValuePairCount parent + 1 + propertyCount fields := by
  rw [h.count_eq, propertyCount_eq]
  simp only [childEntries, List.length_cons, List.length_append, List.length_map,
    length_entriesFrom]
  exact Nat.add_right_comm _ _ _

/-- There are at most as many pairs as bytes. -/
lemma length_childEntries_le :
    (childEntries parent es fields).length ≤ totalSize (childEntries parent es fields) :=
  length_le_totalSize (wellFormed_childEntries h hf)

section

variable (htotal :
  internalLogContextGetValuesDataLengthOrZero parent + 1 + dataBytes fields < 2 ^ 32)

include htotal

omit h in
/-- The new values start behind the inherited ones. -/
lemma natCast_startPos_eq :
    (startPos parent : ℤ) = (1 + internalLogContextGetValuesDataLengthOrZero parent : ℕ) := by
  have hsum := dataBytes_eq_sum hf
  rw [startPos_eq]
  omega

/-- The stores of the fill pass are those of the entries, in another order. -/
lemma setup_writes_perm :
    List.Perm (setup parent fields).writes ((childEntries parent es fields).map (·.store)) := by
  rw [setup_writes, h.initFromParent, natCast_startPos_eq hf htotal,
    writesFrom_eq (formatted_properties hf), childEntries, List.map_cons, List.map_append,
    List.map_map]
  refine List.perm_middle.trans (List.Perm.of_eq ?_)
  simp only [Entry.store, fieldCount, Function.comp_def, Nat.cast_add, Nat.cast_ite, Nat.cast_one,
    Nat.cast_zero]

lemma setup_writes_disjoint : (setup parent fields).writes.Pairwise Write.Disjoint := by
  rw [(setup_writes_perm h hf htotal).pairwise_iff Write.Disjoint.symm, List.pairwise_map]
  have hdisjoint := (@tiles_childEntries _ parent es fields h).disjoint
  rw [List.pairwise_map] at hdisjoint
  refine hdisjoint.imp_of_mem fun {e e'} he he' hd => ?_
  have hfits := (wellFormed_childEntries h hf e he).fits
  have hfits' := (wellFormed_childEntries h hf e' he').fits
  simp only [Write.Disjoint, Write.stop, Entry.store, Region.Disjoint] at hd ⊢
  omega

lemma setupPairs_eq : setupPairs parent fields = (childEntries parent es fields).map (some ·.pair) := by
  simp only [setupPairs, h.initFromParent, h.count_eq, List.length_map, Nat.sub_self,
    List.replicate_zero, List.append_nil, setup_firstName, setup_pairs]
  rw [natCast_startPos_eq hf htotal, pairsFrom_eq (formatted_properties hf)]
  simp only [childEntries, List.map_cons, List.map_append, List.map_map, List.cons_append]
  rfl

/-- The 32-bit sum of the counting pass does not wrap. -/
lemma dataLength_eq : dataLength parent fields = totalSize (childEntries parent es fields) := by
  have hsize := @totalSize_childEntries _ parent es fields h
  have hsum : (internalLogContextGetValuesDataLengthOrZero parent + 1 + dataBytes fields : ℤ) =
      totalSize (childEntries parent es fields) := by
    rw [hsize, dataBytes_eq_sum hf]
    push_cast
    ring
  rw [dataLength, hsum]
  exact u32_natCast (by omega)

lemma pairCount_eq : pairCount parent fields =
    logContextGetPropertyValuePairCount parent + 1 + propertyCount fields := by
  have hle := length_childEntries_le h hf
  have hlt : dataLength parent fields < 2 ^ 32 := u32_lt _
  rw [dataLength_eq h hf htotal] at hlt
  rw [length_childEntries h] at hle
  exact_mod_cast u32_natCast (hle.trans_lt hlt)

/-- A context stored by a macro is described by its entries. -/
theorem represents_filled {block : List UInt8} (hblock : dataLength parent fields ≤ block.length)
    {c : LogContext} (hc : (filled block parent fields).context = some c) :
    Represents c (childEntries parent es fields) := by
  obtain rfl := Option.some.inj hc
  have hlength := dataLength_eq h hf htotal
  have hcount := (pairCount_eq h hf htotal).trans (length_childEntries h).symm
  refine ⟨setupPairs_eq h hf htotal, hcount, hlength, by simpa using hblock, ?_,
    wellFormed_childEntries h hf, ?_⟩
  · rw [hlength]
    exact tiles_childEntries h
  · intro e he
    have hmem : e.store ∈ (setup parent fields).writes :=
      (setup_writes_perm h hf htotal).mem_iff.mpr (List.mem_map_of_mem he)
    have hwithin := (tiles_childEntries h).within e.region (List.mem_map_of_mem he)
    have hfits := (wellFormed_childEntries h hf e he).fits
    refine drop_applyAll_of_mem (setup_writes_disjoint h hf htotal) block hmem rfl ?_
    show e.region.start + e.written.length ≤ block.length
    omega

end

end

end CLogging
