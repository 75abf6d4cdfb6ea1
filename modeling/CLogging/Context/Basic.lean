import CLogging.PropertyType

/-!
# Log contexts

A context stores its properties as an array of name/value/type triples whose values point into one
block of bytes. `LOG_CONTEXT_CREATE` and `LOG_CONTEXT_LOCAL_DEFINE` first add up the sizes of all
values (`countDataBytes`) and then, in a second pass over the same properties, store them one
behind the other (`setupPropertyPair`).
-/

namespace CLogging

open C Memory

def LOG_MAX_STACK_DATA_SIZE : ℕ := 4096
def LOG_MAX_STACK_PROPERTY_VALUE_PAIR_COUNT : ℕ := 64
def LOG_MAX_WCHAR_STRING_LENGTH : ℕ := 4096

/-- `LOG_CONTEXT_PROPERTY_VALUE_PAIR`, with the value as its offset from `values_data`. -/
structure LogContextPropertyValuePair where
  name  : CString
  value : ℤ
  type  : LogContextPropertyTypeIf

/-- `LOG_CONTEXT`. A pair that was never filled in is `none`. -/
structure LogContext where
  valuesData             : List UInt8
  valuesDataLength       : ℕ
  propertyValuePairs     : List (Option LogContextPropertyValuePair)
  propertyValuePairCount : ℕ

/-- `LOG_CONTEXT_HANDLE`, with `none` for `NULL`. -/
abbrev LogContextHandle := Option LogContext

def logContextGetPropertyValuePairCount : LogContextHandle → ℕ
  | none   => 0
  | some c => c.propertyValuePairCount

def internalLogContextGetValuesDataLengthOrZero : LogContextHandle → ℕ
  | none   => 0
  | some c => c.valuesDataLength

/-- The memory from a pointer into `values_data` on, up to the end of the block. -/
def LogContext.deref (c : LogContext) (value : ℤ) : List UInt8 := c.valuesData.drop value.toNat

/-- The value of a pair can be copied without a look before or behind the block. -/
def LogContext.Within (c : LogContext) (p : LogContextPropertyValuePair) : Prop :=
  0 ≤ p.value ∧ p.type.readsInside (c.deref p.value) = true

instance (c : LogContext) (p : LogContextPropertyValuePair) : Decidable (c.Within p) :=
  inferInstanceAs (Decidable (_ ∧ _))

/-- Copy the value of a pair. The outer `none` is undefined: what the copy does depends on memory
that is not the context's. -/
def LogContext.copy (c : LogContext) (p : LogContextPropertyValuePair) :
    Option (Option (List UInt8)) :=
  if c.Within p then some (p.type.copy (c.deref p.value)) else none

/-- The pairs that `property_value_pair_count` counts. A place behind the end of the array was never
filled in. -/
def LogContext.countedPairs (c : LogContext) : List (Option LogContextPropertyValuePair) :=
  (List.range c.propertyValuePairCount).map fun i => c.propertyValuePairs[i]?.join

@[simp] lemma LogContext.length_countedPairs (c : LogContext) :
    c.countedPairs.length = c.propertyValuePairCount := by
  simp [countedPairs]

lemma LogContext.countedPairs_getElem? (c : LogContext) {i : ℕ}
    (hi : i < c.propertyValuePairCount) :
    c.countedPairs[i]? = some c.propertyValuePairs[i]?.join := by
  rw [countedPairs, List.getElem?_map, List.getElem?_range hi, Option.map_some]

/-- A pair that was filled in is in its place of the array. -/
lemma LogContext.countedPairs_eq_some_iff {c : LogContext} {i : ℕ}
    (hi : i < c.propertyValuePairCount) {p : LogContextPropertyValuePair} :
    c.countedPairs[i]? = some (some p) ↔ c.propertyValuePairs[i]? = some (some p) := by
  rw [c.countedPairs_getElem? hi, Option.some.injEq, Option.join_eq_some_iff]

lemma LogContext.mem_of_mem_countedPairs {c : LogContext} {p : LogContextPropertyValuePair}
    (h : some p ∈ c.countedPairs) : some p ∈ c.propertyValuePairs := by
  obtain ⟨i, hi⟩ := List.mem_iff_getElem?.mp h
  have hlt := (List.getElem?_eq_some_iff.mp hi).1
  rw [c.length_countedPairs] at hlt
  exact List.mem_of_getElem? ((c.countedPairs_eq_some_iff hlt).mp hi)

/-- An array of that many pairs. -/
lemma LogContext.countedPairs_eq {c : LogContext}
    (h : c.propertyValuePairs.length = c.propertyValuePairCount) :
    c.countedPairs = c.propertyValuePairs := by
  apply List.ext_getElem?
  intro i
  by_cases hi : i < c.propertyValuePairCount
  · rw [c.countedPairs_getElem? hi, List.getElem?_eq_getElem (h.symm ▸ hi)]
    rfl
  · rw [List.getElem?_eq_none (by simpa using hi), List.getElem?_eq_none (by omega)]

/-! ### The properties given to the macros -/

/-- What formatting the text of a `LOG_CONTEXT_STRING_PROPERTY` does, in both passes: the text, or
a negative result and whatever was stored before the error. -/
inductive Sprintf where
  | formatted (text : CString) (fits : text.bytes.length + 1 < 2 ^ 31)
  | failed (result : ℤ) (negative : result < 0) (written : List UInt8)

def Sprintf.result : Sprintf → ℤ
  | .formatted text _  => text.bytes.length
  | .failed result _ _ => result

def Sprintf.written : Sprintf → List UInt8
  | .formatted text _   => text.terminated
  | .failed _ _ written => written

/-- A custom value function: the number it returns, with and without a buffer, and the bytes it
stores, at most that many. -/
structure ValueFunction where
  result  : ℤ
  written : List UInt8
  fits    : written.length ≤ result.toNat

/-! ### Memory and the inherited pairs -/

/-- The variables of the fill pass: `data_pos` as an offset, the name of the first pair, the pairs
behind the inherited ones, and the stores into `values_data`, in order. -/
structure Setup where
  dataPos   : ℤ
  firstName : CString
  pairs     : List LogContextPropertyValuePair
  writes    : List (Write UInt8)

/-- Fill in the next pair with a value stored at `data_pos`, and move on. -/
def Setup.addPair (s : Setup) (name : CString) (type : LogContextPropertyTypeIf)
    (written : List UInt8) (advance : ℤ) : Setup :=
  { s with
    dataPos := s.dataPos + advance
    pairs   := s.pairs ++ [⟨name, s.dataPos, type⟩]
    writes  := s.writes ++ [⟨s.dataPos, written⟩] }

/-- The loop of `internal_log_context_init_from_parent` over the parent's pairs: the pairs filled
in, the stores, and whether all were copied. From a pair that the parent never filled in, or whose
value is not in its block, on everything is undefined. -/
def copyPairs (parent : LogContext) :
    List (Option LogContextPropertyValuePair) →
      List LogContextPropertyValuePair × List (Write UInt8) × Option Bool
  | []             => ([], [], some true)
  | none :: _      => ([], [], none)
  | some p :: rest =>
    match parent.copy p with
    | none              => ([{ p with value := 1 + p.value }], [], none)
    | some none         => ([{ p with value := 1 + p.value }], [], some false)
    | some (some bytes) =>
      ({ p with value := 1 + p.value } :: (copyPairs parent rest).1,
        ⟨1 + p.value, bytes⟩ :: (copyPairs parent rest).2.1, (copyPairs parent rest).2.2)

/-- `internal_log_context_init_from_parent`. The callers ignore whether it fails. -/
def internalLogContextInitFromParent :
    LogContextHandle → List LogContextPropertyValuePair × List (Write UInt8) × Option Bool
  | none        => ([], [], some true)
  | some parent => copyPairs parent parent.countedPairs

/-- The effect of a context macro, and whether it is defined: the macro reads nothing that was never
stored. Of what is not defined the other fields say only what it does up to there. -/
structure Definition where
  context              : LogContextHandle
  writes               : List (Write UInt8)
  internalErrorReports : ℕ
  defined              : Bool

/-- Uninitialised memory. -/
def uninitialised (garbage : ℕ → UInt8) (size : ℕ) : List UInt8 := (List.range size).map garbage

/-! ### Values for samples -/

lemma zero_notMem_s : 0 ∉ ascii "s" := by decide

lemma zero_notMem_w : 0 ∉ ascii "w" := by decide

lemma zero_notMem_x : 0 ∉ ascii "x" := by decide

lemma zero_notMem_y : 0 ∉ ascii "y" := by decide

lemma minusOne_negative : (-1 : ℤ) < 0 := by decide

lemma length_seven : ([7, 0, 0, 0] : List UInt8).length = ScalarType.sizeof .int32 := rfl

/-! ### The two passes -/

variable [Platform]

/-- What formatting the text of a `LOG_CONTEXT_WSTRING_PROPERTY` does, in both passes: the text,
if it fits in `LOG_MAX_WCHAR_STRING_LENGTH` characters, or a negative result and what was stored
before the error. -/
inductive Swprintf where
  | formatted (text : List ℕ) (wide : WideChars sizeofWchar text)
      (fits : text.length < LOG_MAX_WCHAR_STRING_LENGTH)
  | failed (result : ℤ) (negative : result < 0) (written : List UInt8)
      (bounded : written.length ≤ LOG_MAX_WCHAR_STRING_LENGTH * sizeofWchar)

def Swprintf.result : Swprintf → ℤ
  | .formatted text _ _  => text.length
  | .failed result _ _ _ => result

def Swprintf.written : Swprintf → List UInt8
  | .formatted text _ _   => wideBytes sizeofWchar text
  | .failed _ _ written _ => written

/-- One of the arguments `...` of the context macros, with its printf arguments evaluated. -/
inductive FieldDesc where
  | logMessage
  | logContextName (name : CString)
  | logContextProperty (type : ScalarType) (name : CString) (value : Scalar type)
  | logContextStringProperty (name : CString) (text : Sprintf)
  | logContextWstringProperty (name : CString) (text : Swprintf)
  | logContextPropertyCustomFunction (type : LogContextPropertyTypeIf)
      (notStruct : type.getType ≠ .struct) (name : CString) (call : ValueFunction)

/-- `COUNT_PROPERTY`. -/
def countProperty : FieldDesc → ℕ
  | .logMessage                               => 0
  | .logContextName _                         => 0
  | .logContextProperty _ _ _                 => 1
  | .logContextStringProperty _ _             => 1
  | .logContextWstringProperty _ _            => 1
  | .logContextPropertyCustomFunction _ _ _ _ => 1

/-- `ascii_char_ptr_log_context_property_type_get_init_data_size`. -/
def asciiCharPtrGetInitDataSize (text : Sprintf) : ℤ :=
  if text.result ≥ 0 then text.result + 1 else text.result

/-- `wchar_t_ptr_log_context_property_type_get_init_data_size`. -/
def wcharTPtrGetInitDataSize (text : Swprintf) : ℤ :=
  if int (text.result * sizeofWchar) ≥ 0 then int (text.result * sizeofWchar) + sizeofWchar
  else int (text.result * sizeofWchar)

/-- `COUNT_DATA_BYTES`. -/
def countDataBytes : FieldDesc → ℤ
  | .logMessage                                  => 0
  | .logContextName _                            => 0
  | .logContextProperty type _ _                 => type.sizeof
  | .logContextStringProperty _ text             => asciiCharPtrGetInitDataSize text
  | .logContextWstringProperty _ text            => wcharTPtrGetInitDataSize text
  | .logContextPropertyCustomFunction _ _ _ call => call.result

/-- The number of properties of a list of arguments. -/
def propertyCount (fields : List FieldDesc) : ℕ := (fields.map countProperty).sum

/-- The bytes all properties of a list of arguments are said to need. -/
def dataBytes (fields : List FieldDesc) : ℤ := (fields.map countDataBytes).sum

/-- `SETUP_PROPERTY_PAIR`. -/
def setupPropertyPair (s : Setup) : FieldDesc → Setup
  | .logMessage                     => s
  | .logContextName name            => { s with firstName := name }
  | .logContextProperty type name x => s.addPair name type.typeIf x.bytes type.sizeof
  | .logContextStringProperty name text =>
    s.addPair name asciiCharPtr text.written (text.result + 1)
  | .logContextWstringProperty name text =>
    s.addPair name wcharTPtr text.written (text.result * sizeofWchar + sizeofWchar)
  | .logContextPropertyCustomFunction type _ name call =>
    s.addPair name type call.written call.result

omit [Platform] in
/-- How far both macros move `data_pos` behind the field count and the inherited values. The sum of
an `int` and an `uint32_t` wraps around. -/
def startPos (parent : LogContextHandle) : ℕ :=
  u32 (1 + internalLogContextGetValuesDataLengthOrZero parent)

/-- What both macros store in the memory of a context: the inherited pairs, the field count of the
struct pair, and the new properties. -/
def setup (parent : LogContextHandle) (fields : List FieldDesc) : Setup :=
  fields.foldl setupPropertyPair
    { dataPos   := startPos parent
      firstName := CString.empty
      pairs     := []
      writes    := (internalLogContextInitFromParent parent).2.1 ++
        [⟨0, [u8 ((if parent.isSome then 1 else 0) + propertyCount fields)]⟩] }

/-- The array of pairs: the struct pair, the inherited pairs and the new ones, which start behind
the place of all inherited pairs whether or not these were all filled in. -/
def setupPairs (parent : LogContextHandle) (fields : List FieldDesc) :
    List (Option LogContextPropertyValuePair) :=
  let inherited := (internalLogContextInitFromParent parent).1
  some ⟨(setup parent fields).firstName, 0, struct⟩ :: inherited.map some
    ++ List.replicate (logContextGetPropertyValuePairCount parent - inherited.length) none
    ++ (setup parent fields).pairs.map some

/-- `property_value_pair_count` as both macros compute it. -/
def pairCount (parent : LogContextHandle) (fields : List FieldDesc) : ℕ :=
  u32 (logContextGetPropertyValuePairCount parent + 1 + propertyCount fields)

/-- `values_data_length` as both macros compute it. -/
def dataLength (parent : LogContextHandle) (fields : List FieldDesc) : ℕ :=
  u32 (internalLogContextGetValuesDataLengthOrZero parent + 1 + dataBytes fields)

/-- The context filled by the second pass, in a block of memory. -/
def filled (block : List UInt8) (parent : LogContextHandle) (fields : List FieldDesc) :
    Definition where
  context := some
    { valuesData             := applyAll (setup parent fields).writes block
      valuesDataLength       := dataLength parent fields
      propertyValuePairs     := setupPairs parent fields
      propertyValuePairCount := pairCount parent fields }
  writes               := (setup parent fields).writes
  internalErrorReports := 0
  defined              := (internalLogContextInitFromParent parent).2.2.isSome

/-- `LOG_CONTEXT_CREATE`, given the memory `malloc` returns, `none` if it fails. -/
def logContextCreate (malloc : Option (ℕ → UInt8)) (parent : LogContextHandle)
    (fields : List FieldDesc) : Definition :=
  match malloc with
  | none         => ⟨none, [], 0, true⟩
  | some garbage => filled (uninitialised garbage (dataLength parent fields)) parent fields

/-- `LOG_CONTEXT_LOCAL_DEFINE`, given what the stack holds. -/
def logContextLocalDefine (garbage : ℕ → UInt8) (parent : LogContextHandle)
    (fields : List FieldDesc) : Definition :=
  let block := uninitialised garbage LOG_MAX_STACK_DATA_SIZE
  if pairCount parent fields > LOG_MAX_STACK_PROPERTY_VALUE_PAIR_COUNT then
    ⟨some ⟨block, 0, [], 0⟩, [], 1, true⟩
  else if dataLength parent fields > LOG_MAX_STACK_DATA_SIZE then
    ⟨some ⟨block, 0, [], 0⟩, [], 1, true⟩
  else filled block parent fields

/-- One of the context macros, with what it gets from its environment. -/
inductive ContextMacro where
  | create (malloc : Option (ℕ → UInt8))
  | localDefine (garbage : ℕ → UInt8)

/-- What a context macro does. -/
def ContextMacro.run : ContextMacro → LogContextHandle → List FieldDesc → Definition
  | .create malloc       => logContextCreate malloc
  | .localDefine garbage => logContextLocalDefine garbage

end CLogging
