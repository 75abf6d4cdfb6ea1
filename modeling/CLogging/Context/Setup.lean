import CLogging.Context.Basic

/-!
# The two passes over the properties

What the counting and the filling pass do is described by one record for each property: the bytes
it is counted with, the bytes it stores, and how far it moves `data_pos`.
-/

namespace CLogging

open C Memory

/-- A property as the two passes see it. -/
structure Property where
  name    : CString
  type    : LogContextPropertyTypeIf
  counted : ℤ
  written : List UInt8
  advance : ℤ

/-- The pairs of properties whose values are stored from `pos` on. -/
def pairsFrom : ℤ → List Property → List LogContextPropertyValuePair
  | _, []        => []
  | pos, p :: ps => ⟨p.name, pos, p.type⟩ :: pairsFrom (pos + p.advance) ps

/-- The stores of properties whose values are stored from `pos` on. -/
def writesFrom : ℤ → List Property → List (Write UInt8)
  | _, []        => []
  | pos, p :: ps => ⟨pos, p.written⟩ :: writesFrom (pos + p.advance) ps

/-- How far properties move `data_pos`. -/
def advances (ps : List Property) : ℤ := (ps.map Property.advance).sum

/-- The bytes that properties are counted with. -/
def countedBytes (ps : List Property) : ℤ := (ps.map Property.counted).sum

@[simp] lemma countedBytes_nil : countedBytes [] = 0 := rfl

@[simp] lemma countedBytes_cons (p : Property) (ps : List Property) :
    countedBytes (p :: ps) = p.counted + countedBytes ps := by
  simp [countedBytes]

@[simp] lemma advances_nil : advances [] = 0 := rfl

@[simp] lemma advances_cons (p : Property) (ps : List Property) :
    advances (p :: ps) = p.advance + advances ps := by
  simp [advances]

@[simp] lemma length_pairsFrom (pos : ℤ) (ps : List Property) :
    (pairsFrom pos ps).length = ps.length := by
  induction ps generalizing pos with
  | nil => rfl
  | cons p ps ih => simp [pairsFrom, ih]

lemma pairsFrom_append (pos : ℤ) (ps qs : List Property) :
    pairsFrom pos (ps ++ qs) = pairsFrom pos ps ++ pairsFrom (pos + advances ps) qs := by
  induction ps generalizing pos with
  | nil => simp [pairsFrom]
  | cons p ps ih => simp [pairsFrom, ih, add_assoc]

lemma writesFrom_append (pos : ℤ) (ps qs : List Property) :
    writesFrom pos (ps ++ qs) = writesFrom pos ps ++ writesFrom (pos + advances ps) qs := by
  induction ps generalizing pos with
  | nil => simp [writesFrom]
  | cons p ps ih => simp [writesFrom, ih, add_assoc]

/-- A copied pair has the name and the type of a pair of the parent, and points one byte further. -/
lemma exists_of_mem_copyPairs {c : LogContext} {ps : List (Option LogContextPropertyValuePair)}
    {p : LogContextPropertyValuePair} (h : p ∈ (copyPairs c ps).1) :
    ∃ q, some q ∈ ps ∧ p = { q with value := 1 + q.value } := by
  induction ps with
  | nil => cases h
  | cons q ps ih =>
    cases q with
    | none => cases h
    | some q =>
      rw [copyPairs] at h
      have hfirst : p ∈ [{ q with value := 1 + q.value }] →
          ∃ q', some q' ∈ some q :: ps ∧ p = { q' with value := 1 + q'.value } :=
        fun h => ⟨q, List.mem_cons_self, List.mem_singleton.mp h⟩
      cases hcopy : c.copy q with
      | none =>
        simp only [hcopy] at h
        exact hfirst h
      | some copied =>
        cases copied with
        | none =>
          simp only [hcopy] at h
          exact hfirst h
        | some bytes =>
          simp only [hcopy] at h
          rcases List.mem_cons.mp h with heq | hmem
          · exact hfirst (List.mem_singleton.mpr heq)
          · obtain ⟨q', hq', heq⟩ := ih hmem
            exact ⟨q', List.mem_cons_of_mem _ hq', heq⟩

variable [Platform]

/-- The property a macro argument describes, if it describes one. -/
def FieldDesc.property : FieldDesc → Option Property
  | .logMessage => none
  | .logContextName _ => none
  | .logContextProperty type name x =>
    some ⟨name, type.typeIf, type.sizeof, x.bytes, type.sizeof⟩
  | .logContextStringProperty name text =>
    some ⟨name, asciiCharPtr, asciiCharPtrGetInitDataSize text, text.written, text.result + 1⟩
  | .logContextWstringProperty name text =>
    some ⟨name, wcharTPtr, wcharTPtrGetInitDataSize text, text.written,
      text.result * sizeofWchar + sizeofWchar⟩
  | .logContextPropertyCustomFunction type _ name call =>
    some ⟨name, type, call.result, call.written, call.result⟩

/-- The name a macro argument gives to the context, if it gives one. -/
def FieldDesc.contextName : FieldDesc → Option CString
  | .logContextName name => some name
  | _                    => none

/-- The properties among the arguments of a macro. -/
def properties (fields : List FieldDesc) : List Property := fields.filterMap FieldDesc.property

/-- The name given to the context by `LOG_CONTEXT_NAME`, or the empty string. -/
def contextName (fields : List FieldDesc) : CString :=
  ((fields.filterMap FieldDesc.contextName).getLast?).getD CString.empty

lemma property_type_ne_struct {d : FieldDesc} {p : Property} (h : d.property = some p) :
    p.type.getType ≠ .struct := by
  cases d with
  | logMessage => cases h
  | logContextName _ => cases h
  | logContextProperty type name x => cases h; exact type.typeIf_getType_ne_struct
  | logContextStringProperty name text => cases h; exact fun h => nomatch h
  | logContextWstringProperty name text => cases h; exact fun h => nomatch h
  | logContextPropertyCustomFunction type notStruct name call => cases h; exact notStruct

lemma pairsFrom_type_ne_struct {pos : ℤ} {fields : List FieldDesc}
    {q : LogContextPropertyValuePair} (h : q ∈ pairsFrom pos (properties fields)) :
    q.type.getType ≠ .struct := by
  have hps : ∀ p ∈ properties fields, p.type.getType ≠ .struct := by
    intro p hp
    obtain ⟨d, -, hd⟩ := List.mem_filterMap.mp hp
    exact property_type_ne_struct hd
  generalize properties fields = ps at h hps
  induction ps generalizing pos with
  | nil => exact absurd h List.not_mem_nil
  | cons p ps ih =>
    rcases List.mem_cons.mp h with rfl | hmem
    · exact hps p List.mem_cons_self
    · exact ih hmem fun p' hp' => hps p' (List.mem_cons_of_mem _ hp')

lemma properties_cons (d : FieldDesc) (fields : List FieldDesc) :
    properties (d :: fields) = d.property.toList ++ properties fields := by
  cases h : d.property with
  | none => rw [properties, List.filterMap_cons_none h]; rfl
  | some p => rw [properties, List.filterMap_cons_some h]; rfl

lemma propertyCount_eq (fields : List FieldDesc) :
    propertyCount fields = (properties fields).length := by
  induction fields with
  | nil => rfl
  | cons d fields ih =>
    have hd : countProperty d = d.property.toList.length := by cases d <;> rfl
    rw [properties_cons, List.length_append, ← ih, ← hd, propertyCount, List.map_cons,
      List.sum_cons, propertyCount]

lemma dataBytes_eq (fields : List FieldDesc) :
    dataBytes fields = countedBytes (properties fields) := by
  induction fields with
  | nil => rfl
  | cons d fields ih =>
    have hd : countDataBytes d = countedBytes d.property.toList := by
      cases d <;> simp [countDataBytes, FieldDesc.property]
    rw [properties_cons, countedBytes, List.map_append, List.sum_append, ← countedBytes, ← hd,
      ← countedBytes, ← ih, dataBytes, List.map_cons, List.sum_cons, dataBytes]

/-- What one argument does in the fill pass. -/
lemma setupPropertyPair_eq (s : Setup) (d : FieldDesc) :
    setupPropertyPair s d =
      { dataPos   := s.dataPos + advances d.property.toList
        firstName := d.contextName.getD s.firstName
        pairs     := s.pairs ++ pairsFrom s.dataPos d.property.toList
        writes    := s.writes ++ writesFrom s.dataPos d.property.toList } := by
  cases d <;>
    simp [setupPropertyPair, Setup.addPair, FieldDesc.property, FieldDesc.contextName, pairsFrom,
      writesFrom]

/-- What a list of arguments does in the fill pass. -/
lemma foldl_setupPropertyPair (fields : List FieldDesc) (s : Setup) :
    fields.foldl setupPropertyPair s =
      { dataPos   := s.dataPos + advances (properties fields)
        firstName := ((fields.filterMap FieldDesc.contextName).getLast?).getD s.firstName
        pairs     := s.pairs ++ pairsFrom s.dataPos (properties fields)
        writes    := s.writes ++ writesFrom s.dataPos (properties fields) } := by
  induction fields generalizing s with
  | nil => simp [properties, pairsFrom, writesFrom]
  | cons d fields ih =>
    have hname : (((d :: fields).filterMap FieldDesc.contextName).getLast?).getD s.firstName
        = ((fields.filterMap FieldDesc.contextName).getLast?).getD
            (d.contextName.getD s.firstName) := by
      cases h : d.contextName with
      | none => simp [h]
      | some name =>
        rw [List.filterMap_cons_some h, List.getLast?_cons]
        rfl
    rw [List.foldl_cons, ih, setupPropertyPair_eq, properties_cons, hname, pairsFrom_append,
      writesFrom_append]
    simp [advances, add_assoc]

omit [Platform] in
lemma natCast_startPos (parent : LogContextHandle) :
    (startPos parent : ℤ) = 1 + internalLogContextGetValuesDataLengthOrZero parent
      - 2 ^ 32 * ((1 + internalLogContextGetValuesDataLengthOrZero parent) / 2 ^ 32) :=
  natCast_u32 _

omit [Platform] in
/-- The new values start behind the inherited ones, unless the length of these is the largest there
is. -/
lemma startPos_eq {parent : LogContextHandle}
    (h : 1 + internalLogContextGetValuesDataLengthOrZero parent < 2 ^ 32) :
    startPos parent = 1 + internalLogContextGetValuesDataLengthOrZero parent := by
  exact_mod_cast u32_natCast h

lemma setup_firstName (parent : LogContextHandle) (fields : List FieldDesc) :
    (setup parent fields).firstName = contextName fields := by
  simp [setup, foldl_setupPropertyPair, contextName]

/-- The new pairs point behind the struct's byte and the inherited values. -/
lemma setup_pairs (parent : LogContextHandle) (fields : List FieldDesc) :
    (setup parent fields).pairs =
      pairsFrom (startPos parent) (properties fields) := by
  simp [setup, foldl_setupPropertyPair]

/-- The inherited values are stored first, then the field count, then the new values. -/
lemma setup_writes (parent : LogContextHandle) (fields : List FieldDesc) :
    (setup parent fields).writes =
      (internalLogContextInitFromParent parent).2.1 ++
        ⟨0, [u8 ((if parent.isSome then 1 else 0) + propertyCount fields)]⟩ ::
        writesFrom (startPos parent) (properties fields) := by
  simp [setup, foldl_setupPropertyPair]

end CLogging
