import CLogging.Lib.CString
import CLogging.Lib.Forest

/-!
# Event metadata

The metadata of a self-described event: its size, a tag, the name of the event, and a list of
fields. A field is its name, an in-type, and an out-type if the chain bit of the in-type is set.
-/

namespace TraceLogging

open C Forest

/-- The in-types of fields. -/
inductive InType where
  | ansiString | unicodeString | bool32
  | int8 | uint8 | int16 | uint16 | int32 | uint32 | int64 | uint64
  | struct
  deriving DecidableEq

/-- What `TraceLoggingProvider.h` fixes: the numbers that stand for the in-types, and the field
`LevelPlus1` of a provider, given whether the provider is registered and what sessions listen for.
They cannot enable any level of a provider that is not registered. -/
class TlgIn where
  code                    : InType → UInt8
  code_injective          : Function.Injective code
  code_lt                 : ∀ t, (code t).toNat < 128
  levelPlus1              : Bool → ℕ → ℕ
  levelPlus1_unregistered : ∀ sessions, levelPlus1 false sessions = 0

/-- All in-types. -/
def InType.all : List InType :=
  [.ansiString, .unicodeString, .bool32, .int8, .uint8, .int16, .uint16, .int32, .uint32, .int64,
    .uint64, .struct]

/-- The in-type a number stands for. -/
def TlgIn.read [TlgIn] (b : UInt8) : Option InType := InType.all.find? fun t => TlgIn.code t = b

lemma TlgIn.read_code [TlgIn] (t : InType) : TlgIn.read (TlgIn.code t) = some t := by
  match hread : TlgIn.read (TlgIn.code t) with
  | none =>
    have hmem : t ∈ InType.all := by cases t <;> decide
    exact absurd (decide_eq_true rfl) (List.find?_eq_none.mp hread t hmem)
  | some t' =>
    have hcode : TlgIn.code t' = TlgIn.code t := by
      rw [TlgIn.read] at hread
      simpa using List.find?_some hread
    rw [TlgIn.code_injective hcode]

/-- The numbers that `TraceLoggingProvider.h` gives the in-types, and a provider with the level of
its sessions. -/
@[reducible] def tlgIn : TlgIn where
  code
    | .unicodeString => 1
    | .ansiString    => 2
    | .int8          => 3
    | .uint8         => 4
    | .int16         => 5
    | .uint16        => 6
    | .int32         => 7
    | .uint32        => 8
    | .int64         => 9
    | .uint64        => 10
    | .bool32        => 13
    | .struct        => 24
  code_injective a b := by cases a <;> cases b <;> decide
  code_lt t := by cases t <;> decide
  levelPlus1 registered sessions := if registered then sessions else 0
  levelPlus1_unregistered _ := rfl

/-- The number of bytes of a value of an in-type that is a number. -/
def InType.width : InType → ℕ
  | .int8 | .uint8                         => 1
  | .int16 | .uint16                       => 2
  | .int32 | .uint32 | .bool32             => 4
  | .int64 | .uint64                       => 8
  | .ansiString | .unicodeString | .struct => 0

/-- The bytes are of the size the in-type prescribes, where wide characters have `w` bytes. A
struct has no value. -/
def InType.Prescribes (w : ℕ) (type : InType) (bytes : List UInt8) : Prop :=
  match type with
  | .ansiString    => ∃ s : CString, bytes = s.terminated
  | .unicodeString => ∃ chars, WideChars w chars ∧ bytes = wideBytes w chars
  | .struct        => False
  | type           => bytes.length = type.width

/-- `_TlgInChain`. -/
def chain : UInt8 := 128

/-- `FieldMetadata`: the in-type is without the chain bit, which says that there is an out-type. -/
structure FieldMetadata where
  name    : CString
  inType  : UInt8
  outType : Option UInt8
  deriving DecidableEq

/-- The bytes of a field. -/
def FieldMetadata.encode (f : FieldMetadata) : List UInt8 :=
  match f.outType with
  | none   => f.name.terminated ++ [f.inType]
  | some b => f.name.terminated ++ [f.inType ||| chain, b]

/-- Read a name up to its terminator. -/
def parseName (bytes : List UInt8) : Option (CString × List UInt8) :=
  match bytes.drop (cstr bytes).length with
  | []        => none
  | _ :: rest => some (⟨cstr bytes, zero_notMem_cstr bytes⟩, rest)

/-- Read a field. -/
def parseField (bytes : List UInt8) : Option (FieldMetadata × List UInt8) :=
  match parseName bytes with
  | none              => none
  | some (name, rest) =>
    match rest with
    | []           => none
    | type :: rest =>
      if type &&& chain = 0 then some (⟨name, type, none⟩, rest)
      else
        match rest with
        | []          => none
        | out :: rest => some (⟨name, type &&& 127, some out⟩, rest)

/-- Read fields until the end. Every field takes bytes, so that `fuel` is enough once it reaches
the number of bytes. -/
def parseFieldsWith : ℕ → List UInt8 → Option (List FieldMetadata)
  | _, []             => some []
  | 0, _ :: _         => none
  | fuel + 1, b :: bs =>
    match parseField (b :: bs) with
    | none           => none
    | some (f, rest) => (parseFieldsWith fuel rest).map (f :: ·)

/-- Read fields until the end. -/
def parseFields (bytes : List UInt8) : Option (List FieldMetadata) :=
  parseFieldsWith bytes.length bytes

/-- `EventMetadata`. -/
structure EventMetadata where
  size      : ℕ
  extension : List UInt8
  name      : CString
  fields    : List FieldMetadata
  deriving DecidableEq

/-- Read the tag: bytes up to the first with its high bit unset. -/
def parseExtension : List UInt8 → Option (List UInt8 × List UInt8)
  | []      => none
  | b :: bs =>
    if b &&& 128 = 0 then some ([b], bs)
    else (parseExtension bs).map fun (ext, rest) => (b :: ext, rest)

/-- Read the metadata of an event, which says how long it is. -/
def parseEvent : List UInt8 → Option EventMetadata
  | lo :: hi :: bytes =>
    if leNat [lo, hi] = (lo :: hi :: bytes).length then
      match parseExtension bytes with
      | none             => none
      | some (ext, rest) =>
        match parseName rest with
        | none               => none
        | some (name, rest') => (parseFields rest').map (⟨leNat [lo, hi], ext, name, ·⟩)
    else none
  | _ => none

/-! ### Reading what was written -/

lemma byte_cases {P : UInt8 → Prop} (h : ∀ n : Fin 256, P (UInt8.ofNat n)) (b : UInt8) : P b := by
  have hb := h ⟨b.toNat, b.toNat_lt⟩
  rwa [UInt8.ofNat_toNat] at hb

lemma and_chain_of_lt (b : UInt8) : b.toNat < 128 → b &&& chain = 0 :=
  byte_cases (P := fun b => b.toNat < 128 → b &&& chain = 0) (by decide +kernel) b

lemma or_chain_and_chain (b : UInt8) : (b ||| chain) &&& chain ≠ 0 :=
  byte_cases (P := fun b => (b ||| chain) &&& chain ≠ 0) (by decide +kernel) b

lemma or_chain_and_rest (b : UInt8) : b.toNat < 128 → (b ||| chain) &&& 127 = b :=
  byte_cases (P := fun b => b.toNat < 128 → (b ||| chain) &&& 127 = b) (by decide +kernel) b

lemma parseName_terminated (name : CString) (rest : List UInt8) :
    parseName (name.terminated ++ rest) = some (name, rest) := by
  have hcstr := name.cstr_terminated rest
  have hdrop : (name.terminated ++ rest).drop name.bytes.length = 0 :: rest := by
    rw [CString.terminated, List.append_assoc, List.drop_left]
    rfl
  rw [parseName]
  simp only [hcstr, hdrop]

lemma parseField_encode (f : FieldMetadata) (h : f.inType.toNat < 128) (rest : List UInt8) :
    parseField (f.encode ++ rest) = some (f, rest) := by
  obtain ⟨name, type, out⟩ := f
  match out with
  | none =>
    rw [FieldMetadata.encode]
    simp only
    rw [List.append_assoc, parseField, parseName_terminated]
    exact if_pos (and_chain_of_lt type h)
  | some b =>
    rw [FieldMetadata.encode]
    simp only
    rw [List.append_assoc, parseField, parseName_terminated]
    simp only [List.cons_append, List.nil_append]
    rw [if_neg (or_chain_and_chain type), or_chain_and_rest type h]

lemma encode_ne_nil (f : FieldMetadata) : f.encode ≠ [] := by
  rw [FieldMetadata.encode]
  split <;> simp

/-- Fields are read back one by one. -/
lemma parseFieldsWith_encode (fs : List FieldMetadata) (h : ∀ f ∈ fs, f.inType.toNat < 128)
    (fuel : ℕ) (hfuel : (fs.flatMap FieldMetadata.encode).length ≤ fuel) :
    parseFieldsWith fuel (fs.flatMap FieldMetadata.encode) = some fs := by
  induction fs generalizing fuel with
  | nil => simp [parseFieldsWith]
  | cons f fs ih =>
    rw [List.flatMap_cons, List.length_append] at hfuel
    have hpos := List.length_pos_iff.mpr (encode_ne_nil f)
    obtain ⟨fuel, rfl⟩ : ∃ n, fuel = n + 1 := ⟨fuel - 1, by omega⟩
    have hfield := parseField_encode f (h f List.mem_cons_self) (fs.flatMap FieldMetadata.encode)
    rw [List.flatMap_cons]
    match hbytes : f.encode ++ fs.flatMap FieldMetadata.encode with
    | [] => exact absurd (List.append_eq_nil_iff.mp hbytes).1 (encode_ne_nil f)
    | b :: bs =>
      rw [hbytes] at hfield
      rw [parseFieldsWith, hfield]
      simp only
      rw [ih (fun f' hf' => h f' (List.mem_cons_of_mem _ hf')) fuel (by omega), Option.map_some]

theorem parseFields_encode (fs : List FieldMetadata) (h : ∀ f ∈ fs, f.inType.toNat < 128) :
    parseFields (fs.flatMap FieldMetadata.encode) = some fs :=
  parseFieldsWith_encode fs h _ (le_refl _)

/-- The metadata of an event is read back if it says its size. -/
theorem parseEvent_encode (name : CString) (fs : List FieldMetadata)
    (h : ∀ f ∈ fs, f.inType.toNat < 128) {size : ℕ}
    (hsize : size = (name.terminated ++ fs.flatMap FieldMetadata.encode).length + 4)
    (hlt : size < 2 ^ 16) :
    parseEvent (leBytes 2 size ++ [128, 0] ++
      (name.terminated ++ fs.flatMap FieldMetadata.encode)) = some ⟨size, [128, 0], name, fs⟩ := by
  have hread : leNat (leBytes 2 size) = size := leNat_leBytes 2 size (by omega)
  have htwo : leBytes 2 size = [UInt8.ofNat size, UInt8.ofNat (size / 256)] := rfl
  rw [htwo] at hread ⊢
  simp only [List.cons_append, List.nil_append, parseEvent, hread]
  rw [if_pos (by simp only [List.length_cons]; omega)]
  have hext : ∀ rest : List UInt8, parseExtension (128 :: 0 :: rest) = some ([128, 0], rest) :=
    fun rest => rfl
  rw [hext]
  simp only
  rw [parseName_terminated]
  simp only
  rw [parseFields_encode fs h, Option.map_some]

/-! ### Fields as trees

A struct groups the logical fields that follow it, as many as its out-type says. -/

section

variable [TlgIn]

/-- A field as a struct or as a value. Only structs have an out-type. -/
def FieldMetadata.token (f : FieldMetadata) : Option (Token CString (CString × InType)) :=
  match TlgIn.read f.inType, f.outType with
  | some .struct, some n  => some (.node f.name n.toNat)
  | some .struct, none    => none
  | some type, none       => some (.leaf (f.name, type))
  | _, _                  => none

/-- The logical fields. -/
def fieldTrees (fs : List FieldMetadata) : Option (List (RoseTree CString (CString × InType))) :=
  (fs.mapM FieldMetadata.token).bind decodeAll

end

end TraceLogging
