import CLogging.Context.Setup

/-!
# The constructors, statement by statement

`log_context_create`, `internal_log_context_init_from_parent` and the bodies of the two macros, with
the array of pairs and the values as they are filled one store after the other. What they leave in
the end is what `setup` says.
-/

namespace CLogging

open C Memory

namespace Statements

/-! ### The statements -/

/-- A context while it is filled, and the stores into its values so far, each with the index of the
pair whose value it stores. -/
structure Construction where
  context : LogContext
  stores  : List (ℕ × Write UInt8)

/-- Assign a pair of `property_value_pairs_ptr`. -/
def Construction.setPair (c : Construction) (i : ℕ) (p : LogContextPropertyValuePair) :
    Construction :=
  { c with
    context := { c.context with
      propertyValuePairs := c.context.propertyValuePairs.set i (some p) } }

/-- Store the value of a pair in `values_data`. -/
def Construction.store (c : Construction) (i : ℕ) (w : Write UInt8) : Construction where
  context := { c.context with valuesData := w.apply c.context.valuesData }
  stores  := c.stores ++ [(i, w)]

/-- Assign the name of the first pair. -/
def Construction.setFirstName (c : Construction) (name : CString) : Construction :=
  { c with
    context := { c.context with
      propertyValuePairs :=
        c.context.propertyValuePairs.modify 0 (Option.map fun p => { p with name := name }) } }

/-- The loop of `internal_log_context_init_from_parent` from `prop_copy_index` on, with the number
of turns that are left: the index with which it ends. `none` is undefined: the loop takes the name,
the type and the value of a pair that was never filled in, or copies a value that is not in the block
of the parent. -/
def copyLoop (parent : LogContext) : ℕ → ℕ → Construction → Option (ℕ × Construction)
  | 0, propCopyIndex, dest         => some (propCopyIndex, dest)
  | turns + 1, propCopyIndex, dest =>
    match parent.propertyValuePairs[propCopyIndex]?.join with
    | none   => none
    | some p =>
      let dest := dest.setPair (propCopyIndex + 1) { p with value := 1 + p.value }
      match parent.copy p with
      | none              => none
      | some none         => some (propCopyIndex, dest)
      | some (some bytes) =>
        copyLoop parent turns (propCopyIndex + 1)
          (dest.store (propCopyIndex + 1) ⟨1 + p.value, bytes⟩)

/-- `internal_log_context_init_from_parent`: whether it succeeds, and the context. -/
def internalLogContextInitFromParent (dest : Construction) :
    LogContextHandle → Option (Bool × Construction)
  | none        => some (true, dest)
  | some parent =>
    (copyLoop parent parent.propertyValuePairCount 0 dest).map fun (propCopyIndex, dest) =>
      (decide (¬ propCopyIndex < parent.propertyValuePairCount), dest)

/-- `log_context_create`, given the memory `malloc` returns. It does not look at the result of
`internal_log_context_init_from_parent`. The outer `none` is undefined. -/
def logContextCreate (malloc : Option (ℕ → UInt8)) (parent : LogContextHandle)
    (propertiesCount dataSize : ℕ) : Option (Option Construction) :=
  match malloc with
  | none         => some none
  | some garbage =>
    let result : LogContext :=
      { valuesData             := uninitialised garbage dataSize
        valuesDataLength       := dataSize
        propertyValuePairs     := List.replicate propertiesCount none
        propertyValuePairCount := propertiesCount }
    (internalLogContextInitFromParent ⟨result, []⟩ parent).map fun (_, result) => some result

/-- The variables of a macro: the context, `property_value_pair` as an index, and `data_pos` as an
offset. -/
structure Variables where
  built             : Construction
  propertyValuePair : ℕ
  dataPos           : ℤ

/-- Fill in the pair at `property_value_pair`, store its value at `data_pos`, and move on. -/
def Variables.addPair (v : Variables) (name : CString) (type : LogContextPropertyTypeIf)
    (written : List UInt8) (advance : ℤ) : Variables where
  built             := (v.built.setPair v.propertyValuePair ⟨name, v.dataPos, type⟩).store
    v.propertyValuePair ⟨v.dataPos, written⟩
  propertyValuePair := v.propertyValuePair + 1
  dataPos           := v.dataPos + advance

section

variable [Platform]

/-- `SETUP_PROPERTY_PAIR`. -/
def setupPropertyPair (v : Variables) : FieldDesc → Variables
  | .logMessage                     => v
  | .logContextName name            => { v with built := v.built.setFirstName name }
  | .logContextProperty type name x => v.addPair name type.typeIf x.bytes type.sizeof
  | .logContextStringProperty name text =>
    v.addPair name asciiCharPtr text.written (text.result + 1)
  | .logContextWstringProperty name text =>
    v.addPair name wcharTPtr text.written (text.result * sizeofWchar + sizeofWchar)
  | .logContextPropertyCustomFunction type _ name call =>
    v.addPair name type call.written call.result

/-- The body of `LOG_CONTEXT_CREATE`: `destination_context`. The outer `none` is undefined. -/
def logContextCreateMacro (malloc : Option (ℕ → UInt8)) (parent : LogContextHandle)
    (fields : List FieldDesc) : Option (Option Construction) :=
  (logContextCreate malloc parent
      (u32 (logContextGetPropertyValuePairCount parent + 1 + propertyCount fields))
      (u32 (internalLogContextGetValuesDataLengthOrZero parent + 1 + dataBytes fields))).map fun
  | none       => none
  | some built =>
    let propertyValuePair := logContextGetPropertyValuePairCount parent + 1
    let dataPos : ℤ := 0
    let built := built.store 0 ⟨dataPos, [u8 ((if parent.isSome then 1 else 0) +
      propertyCount fields)]⟩
    let built := built.setPair 0 ⟨CString.empty, dataPos, struct⟩
    let dataPos := dataPos + u32 (1 + internalLogContextGetValuesDataLengthOrZero parent)
    some (fields.foldl setupPropertyPair ⟨built, propertyValuePair, dataPos⟩).built

/-- The body of `LOG_CONTEXT_LOCAL_DEFINE`, given what the stack holds: the context, and how often
`log_internal_error_report` is called. `none` is undefined. -/
def logContextLocalDefineMacro (garbage : ℕ → UInt8) (parent : LogContextHandle)
    (fields : List FieldDesc) : Option (Construction × ℕ) :=
  let destination : LogContext :=
    { valuesData             := uninitialised garbage LOG_MAX_STACK_DATA_SIZE
      valuesDataLength       :=
        u32 (internalLogContextGetValuesDataLengthOrZero parent + 1 + dataBytes fields)
      propertyValuePairs     := List.replicate LOG_MAX_STACK_PROPERTY_VALUE_PAIR_COUNT none
      propertyValuePairCount :=
        u32 (logContextGetPropertyValuePairCount parent + 1 + propertyCount fields) }
  if destination.propertyValuePairCount > LOG_MAX_STACK_PROPERTY_VALUE_PAIR_COUNT then
    some (⟨{ destination with propertyValuePairCount := 0, valuesDataLength := 0 }, []⟩, 1)
  else if destination.valuesDataLength > LOG_MAX_STACK_DATA_SIZE then
    some (⟨{ destination with propertyValuePairCount := 0, valuesDataLength := 0 }, []⟩, 1)
  else
    (internalLogContextInitFromParent ⟨destination, []⟩ parent).map fun (_, built) =>
    let propertyValuePair := logContextGetPropertyValuePairCount parent + 1
    let dataPos : ℤ := 0
    let built := built.store 0 ⟨dataPos, [u8 ((if parent.isSome then 1 else 0) +
      propertyCount fields)]⟩
    let built := built.setPair 0 ⟨CString.empty, dataPos, struct⟩
    let dataPos := dataPos + u32 (1 + internalLogContextGetValuesDataLengthOrZero parent)
    ((fields.foldl setupPropertyPair ⟨built, propertyValuePair, dataPos⟩).built, 0)

end

/-! ### Runs of stores -/

/-- Stores of the values of consecutive pairs. -/
def labelled : ℕ → List (Write UInt8) → List (ℕ × Write UInt8)
  | _, []      => []
  | i, w :: ws => (i, w) :: labelled (i + 1) ws

lemma mem_labelled {i k : ℕ} {w : Write UInt8} {ws : List (Write UInt8)} :
    (k, w) ∈ labelled i ws ↔ i ≤ k ∧ ws[k - i]? = some w := by
  induction ws generalizing i with
  | nil => simp [labelled]
  | cons v ws ih =>
    rw [labelled, List.mem_cons, ih, Prod.mk.injEq]
    constructor
    · rintro (⟨rfl, rfl⟩ | ⟨hle, hw⟩)
      · exact ⟨le_refl _, by simp⟩
      · have hindex : k - i = k - (i + 1) + 1 := by omega
        exact ⟨by omega, by rw [hindex, List.getElem?_cons_succ, hw]⟩
    · rintro ⟨hle, hw⟩
      rcases hle.eq_or_lt with rfl | hlt
      · rw [Nat.sub_self, List.getElem?_cons_zero, Option.some.injEq] at hw
        exact Or.inl ⟨rfl, hw.symm⟩
      · have hindex : k - i = k - (i + 1) + 1 := by omega
        rw [hindex, List.getElem?_cons_succ] at hw
        exact Or.inr ⟨hlt, hw⟩

lemma map_snd_labelled (i : ℕ) (ws : List (Write UInt8)) :
    (labelled i ws).map Prod.snd = ws := by
  induction ws generalizing i with
  | nil => rfl
  | cons w ws ih => rw [labelled, List.map_cons, ih]

/-- Consecutive pairs, and the stores of their values. -/
def Construction.fill (c : Construction) (i : ℕ) (ps : List LogContextPropertyValuePair)
    (ws : List (Write UInt8)) : Construction where
  context := { c.context with
    propertyValuePairs := (Write.mk (i : ℤ) (ps.map some)).apply c.context.propertyValuePairs
    valuesData         := applyAll ws c.context.valuesData }
  stores  := c.stores ++ labelled i ws

lemma Construction.fill_nil (c : Construction) (i : ℕ) : c.fill i [] [] = c := by
  simp [fill, labelled]

lemma Construction.fill_setPair (c : Construction) (i : ℕ) (p : LogContextPropertyValuePair) :
    c.fill i [p] [] = c.setPair i p := by
  simp [fill, setPair, labelled, Write.apply_cons]

lemma Construction.fill_cons (c : Construction) (i : ℕ) (p : LogContextPropertyValuePair)
    (ps : List LogContextPropertyValuePair) (w : Write UInt8) (ws : List (Write UInt8)) :
    c.fill i (p :: ps) (w :: ws) = ((c.setPair i p).store i w).fill (i + 1) ps ws := by
  simp only [fill, setPair, store, labelled, List.map_cons, Write.apply_cons, applyAll_cons,
    List.append_assoc, List.singleton_append]

/-- The loop copies what the recursion over the pairs copies. -/
lemma copyLoop_eq (parent : LogContext) {turns i : ℕ} {dest : Construction}
    {ps : List (Option LogContextPropertyValuePair)}
    (hps : ps = (List.range' i turns).map fun j => parent.propertyValuePairs[j]?.join) :
    (copyLoop parent turns i dest).map Prod.snd = (copyPairs parent ps).2.2.map fun _ =>
      dest.fill (i + 1) (copyPairs parent ps).1 (copyPairs parent ps).2.1 := by
  induction turns generalizing i dest ps with
  | zero =>
    obtain rfl := hps
    exact congrArg some (dest.fill_nil _).symm
  | succ turns ih =>
    rw [List.range'_succ, List.map_cons] at hps
    rw [hps, copyLoop]
    cases parent.propertyValuePairs[i]?.join with
    | none =>
      -- a pair that was never filled in: the copy is not defined, here and there
      rfl
    | some p =>
      cases hcopy : parent.copy p with
      | none =>
        simp only [copyPairs, hcopy]
        rfl
      | some copied =>
        cases copied with
        | none =>
          -- a copy that fails stores the pair and ends the loop
          simp only [copyPairs, hcopy, Option.map_some]
          rw [dest.fill_setPair]
        | some bytes =>
          simp only [copyPairs, hcopy]
          rw [ih rfl]
          simp only [dest.fill_cons]

/-- What is copied from the parent. -/
lemma initFromParent_eq (dest : Construction) (parent : LogContextHandle) :
    (internalLogContextInitFromParent dest parent).map Prod.snd =
      (CLogging.internalLogContextInitFromParent parent).2.2.map fun _ =>
        dest.fill 1 (CLogging.internalLogContextInitFromParent parent).1
          (CLogging.internalLogContextInitFromParent parent).2.1 := by
  cases parent with
  | none => exact congrArg some (dest.fill_nil 1).symm
  | some parent =>
    have hloop : (copyLoop parent parent.propertyValuePairCount 0 dest).map Prod.snd = _ :=
      copyLoop_eq parent (congrArg (List.map _) List.range_eq_range')
    rw [internalLogContextInitFromParent, Option.map_map]
    exact hloop

/-! ### The new properties -/

/-- A pair assigned behind the first does not meet the name of the first. -/
lemma apply_modify_zero {α : Type} (f : α → α) (n : ℕ) (cells block : List α) :
    (Write.mk ((n + 1 : ℕ) : ℤ) cells).apply (block.modify 0 f) =
      ((Write.mk ((n + 1 : ℕ) : ℤ) cells).apply block).modify 0 f := by
  apply List.ext_getElem?
  intro i
  have hzero : ¬ (Write.mk ((n + 1 : ℕ) : ℤ) cells).Covers (0 : ℕ) := by
    simp only [Write.Covers]
    omega
  rw [List.getElem?_modify]
  cases i with
  | zero =>
    rw [Write.apply_getElem?_of_not_covers _ _ _ hzero,
      Write.apply_getElem?_of_not_covers _ _ _ hzero, List.getElem?_modify]
  | succ i =>
    by_cases hc : (Write.mk ((n + 1 : ℕ) : ℤ) cells).Covers ((i + 1 : ℕ) : ℤ)
    · by_cases hlt : i + 1 < block.length
      · rw [Write.apply_getElem?_of_covers _ _ _ hc (by rwa [List.length_modify]),
          Write.apply_getElem?_of_covers _ _ _ hc hlt]
        simp
      · rw [List.getElem?_eq_none (by simpa using hlt), List.getElem?_eq_none (by simpa using hlt)]
        rfl
    · rw [Write.apply_getElem?_of_not_covers _ _ _ hc, Write.apply_getElem?_of_not_covers _ _ _ hc,
        List.getElem?_modify]

lemma Construction.fill_setFirstName (c : Construction) (name : CString) (i : ℕ)
    (ps : List LogContextPropertyValuePair) (ws : List (Write UInt8)) :
    (c.setFirstName name).fill (i + 1) ps ws = (c.fill (i + 1) ps ws).setFirstName name := by
  simp only [fill, setFirstName, apply_modify_zero]

lemma Construction.setFirstName_setPair (c : Construction) (p : LogContextPropertyValuePair)
    (name : CString) :
    (c.setPair 0 p).setFirstName name = c.setPair 0 { p with name := name } := by
  simp only [setFirstName, setPair]
  congr 2
  cases c.context.propertyValuePairs <;> rfl

lemma Construction.setFirstName_setFirstName (c : Construction) (name name' : CString) :
    (c.setFirstName name).setFirstName name' = c.setFirstName name' := by
  simp only [setFirstName]
  congr 2
  cases c.context.propertyValuePairs with
  | nil => rfl
  | cons p ps => cases p <;> rfl

lemma Construction.fill_fill (c : Construction) (i : ℕ) {ps ps' : List LogContextPropertyValuePair}
    {ws ws' : List (Write UInt8)} (h : ps.length = ws.length) :
    (c.fill i ps ws).fill (i + ps.length) ps' ws' = c.fill i (ps ++ ps') (ws ++ ws') := by
  induction ps generalizing c i ws with
  | nil =>
    obtain rfl := List.length_eq_zero_iff.mp h.symm
    rw [c.fill_nil]
    rfl
  | cons p ps ih =>
    match ws, h with
    | w :: ws, h =>
      have hnext : i + (p :: ps).length = i + 1 + ps.length := by
        rw [List.length_cons]
        omega
      rw [c.fill_cons, hnext, ih _ _ (Nat.succ.inj h), List.cons_append, List.cons_append,
        c.fill_cons]

lemma length_writesFrom (pos : ℤ) (ps : List Property) :
    (writesFrom pos ps).length = ps.length := by
  induction ps generalizing pos with
  | nil => rfl
  | cons p ps ih => simp [writesFrom, ih]

/-- The pairs that are assigned, in the order of the array. -/
lemma apply_pairs {α : Type} (first : α) (new : List α) {inherited : List α} {count : ℕ}
    (h : inherited.length ≤ count) (capacity : ℕ) :
    (Write.mk ((count + 1 : ℕ) : ℤ) (new.map some)).apply
      (((Write.mk ((1 : ℕ) : ℤ) (inherited.map some)).apply (List.replicate capacity none)).set 0
        (some first)) =
      (some first :: inherited.map some ++ List.replicate (count - inherited.length) none ++
        new.map some ++ List.replicate capacity none).take capacity := by
  apply List.ext_getElem?
  intro i
  by_cases hi : i < capacity
  · rw [List.getElem?_take_of_lt hi]
    by_cases hnew : (Write.mk ((count + 1 : ℕ) : ℤ) (new.map some)).Covers i
    · rw [Write.apply_getElem?_of_covers _ _ _ hnew (by simpa using hi)]
      simp only [Write.Covers, List.length_map] at hnew
      rw [List.getElem?_append_left (by simp; omega), List.getElem?_append_right (by simp; omega)]
      congr 1
      simp only [List.length_append, List.length_cons, List.length_map, List.length_replicate]
      omega
    · rw [Write.apply_getElem?_of_not_covers _ _ _ hnew]
      simp only [Write.Covers, List.length_map] at hnew
      cases i with
      | zero => simp [hi]
      | succ i =>
        rw [List.getElem?_set_ne (Nat.succ_ne_zero i).symm]
        by_cases hold : (Write.mk ((1 : ℕ) : ℤ) (inherited.map some)).Covers ((i + 1 : ℕ) : ℤ)
        · -- an inherited pair
          rw [Write.apply_getElem?_of_covers _ _ _ hold (by simpa using hi)]
          simp only [Write.Covers, List.length_map] at hold
          rw [List.getElem?_append_left (by simp; omega),
            List.getElem?_append_left (by simp; omega),
            List.getElem?_append_left (by simp; omega), List.getElem?_cons_succ]
          congr 1
          simp only
          omega
        · rw [Write.apply_getElem?_of_not_covers _ _ _ hold]
          simp only [Write.Covers, List.length_map] at hold
          by_cases hgap : i < count
          · -- a pair of the parent that was not copied: nothing was stored there
            rw [List.getElem?_append_left (by simp; omega),
              List.getElem?_append_left (by simp; omega),
              List.getElem?_append_right (by simp; omega), List.getElem?_replicate_of_lt hi,
              List.getElem?_replicate_of_lt]
            simp only [List.length_cons, List.length_map]
            omega
          · rw [List.getElem?_append_right (by simp; omega), List.getElem?_replicate_of_lt hi,
              List.getElem?_replicate_of_lt]
            simp only [List.length_append, List.length_cons, List.length_map, List.length_replicate]
            omega
  · rw [List.getElem?_eq_none (by simpa using hi), List.getElem?_eq_none (by simp; omega)]

section

variable [Platform]

/-- One argument fills in at most one pair. -/
lemma setupPropertyPair_eq (v : Variables) (d : FieldDesc) :
    setupPropertyPair v d =
      { built             := (d.contextName.elim v.built v.built.setFirstName).fill
          v.propertyValuePair (pairsFrom v.dataPos d.property.toList)
          (writesFrom v.dataPos d.property.toList)
        propertyValuePair := v.propertyValuePair + d.property.toList.length
        dataPos           := v.dataPos + advances d.property.toList } := by
  cases d <;>
    simp [setupPropertyPair, Variables.addPair, FieldDesc.property, FieldDesc.contextName,
      pairsFrom, writesFrom, Construction.fill_nil, Construction.fill_cons]

/-- What the arguments of a macro fill in. -/
lemma foldl_setupPropertyPair (fields : List FieldDesc) (v : Variables) {i : ℕ}
    (hi : v.propertyValuePair = i + 1) :
    (fields.foldl setupPropertyPair v).built =
      (((fields.filterMap FieldDesc.contextName).getLast?).elim v.built
        v.built.setFirstName).fill v.propertyValuePair (pairsFrom v.dataPos (properties fields))
          (writesFrom v.dataPos (properties fields)) := by
  induction fields generalizing v i with
  | nil => exact (v.built.fill_nil _).symm
  | cons d fields ih =>
    have hnext : (setupPropertyPair v d).propertyValuePair =
        i + d.property.toList.length + 1 := by
      rw [setupPropertyPair_eq]
      simp only [hi]
      omega
    have hname : ((d :: fields).filterMap FieldDesc.contextName).getLast?.elim v.built
        v.built.setFirstName = (fields.filterMap FieldDesc.contextName).getLast?.elim
          (d.contextName.elim v.built v.built.setFirstName)
          (d.contextName.elim v.built v.built.setFirstName).setFirstName := by
      match hd : d.contextName with
      | none => rw [List.filterMap_cons_none hd]; rfl
      | some name =>
        rw [List.filterMap_cons_some hd, List.getLast?_cons]
        match (fields.filterMap FieldDesc.contextName).getLast? with
        | none =>
          -- the last name given decides; no further one follows
          rfl
        | some name' => exact (v.built.setFirstName_setFirstName name name').symm
    rw [List.foldl_cons, ih _ hnext, hname, setupPropertyPair_eq, properties_cons,
      pairsFrom_append, writesFrom_append]
    have hlength : (pairsFrom v.dataPos d.property.toList).length =
        (writesFrom v.dataPos d.property.toList).length := by
      rw [length_pairsFrom, length_writesFrom]
    rw [← Construction.fill_fill _ _ hlength, length_pairsFrom]
    match (fields.filterMap FieldDesc.contextName).getLast? with
    | none => rfl
    | some name =>
      simp only [Option.elim_some, hi]
      rw [Construction.fill_setFirstName]

/-! ### The result -/

/-- The stores of the values of all pairs. -/
def valueStores (parent : LogContextHandle) (fields : List FieldDesc) : List (ℕ × Write UInt8) :=
  labelled 1 (CLogging.internalLogContextInitFromParent parent).2.1 ++
    (0, ⟨0, [u8 ((if parent.isSome then 1 else 0) + propertyCount fields)]⟩) ::
    labelled (logContextGetPropertyValuePairCount parent + 1)
      (writesFrom (startPos parent) (properties fields))

/-- They are the stores of `setup`, in the same order. -/
lemma map_snd_valueStores (parent : LogContextHandle) (fields : List FieldDesc) :
    (valueStores parent fields).map Prod.snd = (setup parent fields).writes := by
  rw [setup_writes, valueStores]
  simp only [List.map_append, List.map_cons, map_snd_labelled]

/-- What the macros leave, in terms of `setup`: in a block of memory, and in an array of pairs. -/
def described (block : List UInt8) (capacity : ℕ) (parent : LogContextHandle)
    (fields : List FieldDesc) : Construction where
  context :=
    { valuesData             := applyAll (setup parent fields).writes block
      valuesDataLength       := dataLength parent fields
      propertyValuePairs     :=
        (setupPairs parent fields ++ List.replicate capacity none).take capacity
      propertyValuePairCount := pairCount parent fields }
  stores := valueStores parent fields

omit [Platform] in
lemma length_copyPairs_le (parent : LogContext) (ps : List (Option LogContextPropertyValuePair)) :
    (copyPairs parent ps).1.length ≤ ps.length := by
  induction ps with
  | nil => exact le_refl _
  | cons p ps ih =>
    match p with
    | none => exact Nat.zero_le _
    | some p =>
      rw [copyPairs]
      cases parent.copy p with
      | none => exact Nat.succ_le_succ (Nat.zero_le _)
      | some copied =>
        cases copied with
        | none => exact Nat.succ_le_succ (Nat.zero_le _)
        | some bytes => exact Nat.succ_le_succ ih

omit [Platform] in
lemma length_initFromParent_le (parent : LogContextHandle) :
    (CLogging.internalLogContextInitFromParent parent).1.length ≤
      logContextGetPropertyValuePairCount parent := by
  match parent with
  | none => exact le_refl _
  | some parent =>
    refine (length_copyPairs_le parent _).trans ?_
    rw [parent.length_countedPairs]
    exact le_refl _

/-- The macro is defined: all pairs up to one that fails were filled in, with values in the block. -/
def Defined (parent : LogContextHandle) : Prop :=
  (CLogging.internalLogContextInitFromParent parent).2.2.isSome

omit [Platform] in
lemma initFromParent_of_defined {parent : LogContextHandle} (h : Defined parent)
    (dest : Construction) : ∃ copied, internalLogContextInitFromParent dest parent =
      some (copied, dest.fill 1 (CLogging.internalLogContextInitFromParent parent).1
        (CLogging.internalLogContextInitFromParent parent).2.1) := by
  obtain ⟨all, hall⟩ := Option.isSome_iff_exists.mp h
  have hdest := initFromParent_eq dest parent
  rw [hall, Option.map_some, Option.map_eq_some_iff] at hdest
  obtain ⟨⟨copied, dest'⟩, hcopied, rfl⟩ := hdest
  exact ⟨copied, hcopied⟩

omit [Platform] in
lemma initFromParent_of_not_defined {parent : LogContextHandle} (h : ¬ Defined parent)
    (dest : Construction) : internalLogContextInitFromParent dest parent = none := by
  have hdest := initFromParent_eq dest parent
  rw [Option.not_isSome_iff_eq_none.mp h, Option.map_none, Option.map_eq_none_iff] at hdest
  exact hdest

/-- The statements behind the copying of the parent's pairs, which both macros share. -/
def behindCopy (parent : LogContextHandle) (fields : List FieldDesc) (built : Construction) :
    Construction :=
  (fields.foldl setupPropertyPair
    ⟨(built.store 0 ⟨0, [u8 ((if parent.isSome then 1 else 0) + propertyCount fields)]⟩).setPair 0
        ⟨CString.empty, 0, struct⟩,
      logContextGetPropertyValuePairCount parent + 1, 0 + (startPos parent : ℤ)⟩).built

/-- A context before anything is copied into it. -/
def blank (block : List UInt8) (capacity : ℕ) (parent : LogContextHandle)
    (fields : List FieldDesc) : Construction :=
  ⟨⟨block, dataLength parent fields, List.replicate capacity none, pairCount parent fields⟩, []⟩

lemma behindCopy_eq (block : List UInt8) (capacity : ℕ) (parent : LogContextHandle)
    (fields : List FieldDesc) :
    behindCopy parent fields ((blank block capacity parent fields).fill 1
      (CLogging.internalLogContextInitFromParent parent).1
      (CLogging.internalLogContextInitFromParent parent).2.1) =
        described block capacity parent fields := by
  have hname : ∀ c : Construction, ((fields.filterMap FieldDesc.contextName).getLast?).elim
      (c.setPair 0 ⟨CString.empty, 0, struct⟩) (c.setPair 0 ⟨CString.empty, 0, struct⟩).setFirstName =
        c.setPair 0 ⟨contextName fields, 0, struct⟩ := by
    intro c
    rw [contextName]
    cases (fields.filterMap FieldDesc.contextName).getLast? with
    | none => rfl
    | some name => exact c.setFirstName_setPair _ name
  have hpairs := apply_pairs ⟨contextName fields, 0, struct⟩
    (pairsFrom (startPos parent) (properties fields)) (length_initFromParent_le parent) capacity
  rw [behindCopy, foldl_setupPropertyPair _ _ rfl]
  simp only [hname, zero_add]
  simp only [blank, Construction.fill, Construction.store, Construction.setPair, described, valueStores,
    setup_writes, setupPairs, setup_firstName, setup_pairs, applyAll_append, applyAll_cons, List.nil_append,
    List.append_assoc, List.cons_append] at hpairs ⊢
  rw [hpairs]

lemma logContextCreateMacro_some (garbage : ℕ → UInt8) (parent : LogContextHandle)
    (fields : List FieldDesc) :
    logContextCreateMacro (some garbage) parent fields =
      (internalLogContextInitFromParent (blank (uninitialised garbage (dataLength parent fields))
        (pairCount parent fields) parent fields) parent).map fun (_, built) =>
          some (behindCopy parent fields built) := by
  rw [logContextCreateMacro, logContextCreate, Option.map_map]
  rfl

/-- What `LOG_CONTEXT_CREATE` leaves, if it is defined. -/
theorem logContextCreateMacro_eq (garbage : ℕ → UInt8) {parent : LogContextHandle}
    (h : Defined parent) (fields : List FieldDesc) :
    logContextCreateMacro (some garbage) parent fields = some (some
      (described (uninitialised garbage (dataLength parent fields)) (pairCount parent fields) parent
        fields)) := by
  obtain ⟨copied, hcopied⟩ := initFromParent_of_defined h _
  rw [logContextCreateMacro_some, hcopied, Option.map_some]
  exact congrArg (some ∘ some) (behindCopy_eq _ _ parent fields)

lemma logContextCreateMacro_of_not_defined (garbage : ℕ → UInt8) {parent : LogContextHandle}
    (h : ¬ Defined parent) (fields : List FieldDesc) :
    logContextCreateMacro (some garbage) parent fields = none := by
  rw [logContextCreateMacro_some, initFromParent_of_not_defined h, Option.map_none]

/-- What `LOG_CONTEXT_LOCAL_DEFINE` does, unless it rejects the context. -/
lemma logContextLocalDefineMacro_of_fits (garbage : ℕ → UInt8) {parent : LogContextHandle}
    {fields : List FieldDesc}
    (hcount : pairCount parent fields ≤ LOG_MAX_STACK_PROPERTY_VALUE_PAIR_COUNT)
    (hlength : dataLength parent fields ≤ LOG_MAX_STACK_DATA_SIZE) :
    logContextLocalDefineMacro garbage parent fields =
      (internalLogContextInitFromParent (blank (uninitialised garbage LOG_MAX_STACK_DATA_SIZE)
        LOG_MAX_STACK_PROPERTY_VALUE_PAIR_COUNT parent fields) parent).map fun (_, built) =>
          (behindCopy parent fields built, 0) := by
  rw [pairCount] at hcount
  rw [dataLength] at hlength
  rw [logContextLocalDefineMacro]
  simp only
  rw [if_neg (not_lt.mpr hcount), if_neg (not_lt.mpr hlength)]
  rfl

/-- What `LOG_CONTEXT_LOCAL_DEFINE` leaves, unless it rejects the context. -/
theorem logContextLocalDefineMacro_eq (garbage : ℕ → UInt8) {parent : LogContextHandle}
    {fields : List FieldDesc} (h : Defined parent)
    (hcount : pairCount parent fields ≤ LOG_MAX_STACK_PROPERTY_VALUE_PAIR_COUNT)
    (hlength : dataLength parent fields ≤ LOG_MAX_STACK_DATA_SIZE) :
    logContextLocalDefineMacro garbage parent fields =
      some (described (uninitialised garbage LOG_MAX_STACK_DATA_SIZE)
        LOG_MAX_STACK_PROPERTY_VALUE_PAIR_COUNT parent fields, 0) := by
  obtain ⟨copied, hcopied⟩ := initFromParent_of_defined h _
  rw [logContextLocalDefineMacro_of_fits garbage hcount hlength, hcopied, Option.map_some]
  exact congrArg (fun built => some (built, 0)) (behindCopy_eq _ _ parent fields)

lemma length_setupPairs (parent : LogContextHandle) (fields : List FieldDesc) :
    (setupPairs parent fields).length =
      logContextGetPropertyValuePairCount parent + 1 + propertyCount fields := by
  have hle := length_initFromParent_le parent
  rw [setupPairs, setup_pairs, propertyCount_eq]
  simp only [List.length_append, List.length_cons, List.length_map, List.length_replicate,
    length_pairsFrom]
  omega

/-- As long as the pair count does not wrap around, `LOG_CONTEXT_CREATE` leaves the context of
`logContextCreate`. -/
theorem logContextCreateMacro_refines (malloc : Option (ℕ → UInt8)) {parent : LogContextHandle}
    {fields : List FieldDesc}
    (h : logContextGetPropertyValuePairCount parent + 1 + propertyCount fields < 2 ^ 32) :
    (logContextCreateMacro malloc parent fields).map (Option.map Construction.context) =
      if (CLogging.logContextCreate malloc parent fields).defined then
        some (CLogging.logContextCreate malloc parent fields).context else none := by
  cases malloc with
  | none => rfl
  | some garbage =>
    have hcount : pairCount parent fields = (setupPairs parent fields).length := by
      rw [length_setupPairs, pairCount]
      exact u32_natCast h
    have hfilled : (CLogging.logContextCreate (some garbage) parent fields).defined =
        (CLogging.internalLogContextInitFromParent parent).2.2.isSome := rfl
    by_cases hdefined : Defined parent
    · rw [logContextCreateMacro_eq garbage hdefined, if_pos (hfilled.trans hdefined)]
      simp only [Option.map_some, described, CLogging.logContextCreate, filled, hcount,
        List.take_left]
    · -- one that was not: neither has an outcome
      rw [logContextCreateMacro_of_not_defined garbage hdefined,
        if_neg (by rwa [hfilled])]
      rfl

end

end Statements

end CLogging
