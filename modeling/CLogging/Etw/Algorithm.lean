import CLogging.Lib.TraceLogging
import CLogging.ToString.Algorithm

/-!
# Self-described events

The ETW sink builds the metadata of an event in a buffer, prints the message behind it, and passes
the values of the fields as data descriptors.
-/

namespace CLogging

open C Memory Printf TraceLogging

def MAX_METADATA_SIZE : ℕ := 4096

def LOG_MAX_ETW_PROPERTY_VALUE_PAIR_COUNT : ℕ := 64

/-- The length of the data descriptor array. -/
def DESCRIPTOR_COUNT : ℕ := 2 + 1 + 1 + 1 + 1 + LOG_MAX_ETW_PROPERTY_VALUE_PAIR_COUNT

/-- A name of an event that leaves room for the fields every event has and for a message. The
function that takes it is static, and only the six literals of `log_sink_etw_log` and
`log_sink_etw_init` reach it, of at most 12 bytes with their terminators. -/
structure EventName where
  name : CString
  fits : name.bytes.length + 28 < MAX_METADATA_SIZE

/-- The outcome of printing the message, which may be done twice: its text, and what happens if
one of the calls of `vsnprintf` fails. -/
structure FormattedMessage where
  text   : List UInt8
  first  : Option Failure
  second : Option Failure

/-- `vsnprintf`. -/
def vsnprintf (text : List UInt8) : Option Failure → Writer
  | none         => snprintf text
  | some failure => fun room => (failure.result, stored failure.text room)

/-! ### The metadata -/

/-- The array `metadata` of the event, `pos`, and the stores into the array so far. -/
structure MetadataBuffer where
  metadata : List UInt8
  pos      : ℕ
  writes   : List (Write UInt8)

/-- Store bytes in the array. -/
def MetadataBuffer.store (b : MetadataBuffer) (offset : ℕ) (bytes : List UInt8) : MetadataBuffer :=
  { b with
    metadata := (Write.mk offset bytes).apply b.metadata
    writes   := b.writes ++ [⟨offset, bytes⟩] }

/-- Store bytes at `pos` and move behind them. -/
def MetadataBuffer.append (b : MetadataBuffer) (bytes : List UInt8) : MetadataBuffer :=
  { b.store b.pos bytes with pos := b.pos + bytes.length }

section

variable [TlgIn]

/-- The in-type for a type of properties, if there is one. -/
def inType : LogContextPropertyType → Option InType
  | .asciiCharPtr => some .ansiString
  | .wcharTPtr    => some .unicodeString
  | .bool         => some .bool32
  | .int64        => some .int64
  | .uint64       => some .uint64
  | .int32        => some .int32
  | .uint32       => some .uint32
  | .int16        => some .int16
  | .uint16       => some .uint16
  | .int8         => some .int8
  | .uint8        => some .uint8
  | .struct       => some .struct
  | .other        => none

/-- The event name and the fields every event has. -/
def fillFixedFields (eventName : EventName) (b : MetadataBuffer) : MetadataBuffer :=
  let b := b.append eventName.name.terminated
  let b := (b.append (ascii "content" ++ [0])).append [TlgIn.code .ansiString]
  let b := (b.append (ascii "file" ++ [0])).append [TlgIn.code .ansiString]
  let b := (b.append (ascii "func" ++ [0])).append [TlgIn.code .ansiString]
  (b.append (ascii "line" ++ [0])).append [TlgIn.code .int32]

/-- Add the field of a property, unless it does not fit or its type is unknown. -/
def addProperty (p : PropertyView) (b : MetadataBuffer) : Bool × MetadataBuffer :=
  if p.name.bytes.length > 2 ^ 16 - 1 ∨
      u16 (MAX_METADATA_SIZE - b.pos : ℤ) < p.name.bytes.length + 1 + 1 then (false, b)
  else
    let b := b.append p.name.terminated
    match inType p.type.getType with
    | none         => (false, b)
    | some .struct =>
      let b := b.append [TlgIn.code .struct ||| chain]
      if b.pos = MAX_METADATA_SIZE then (false, b) else (true, b.append [p.memory.headD 0])
    | some type    => (true, b.append [TlgIn.code type])

/-- The loop that adds the fields of properties: whether it added all of them. `none` where it
reads behind the array. -/
def addProperties : ℕ → List PropertyView → MetadataBuffer → Option (Bool × MetadataBuffer)
  | 0, _, b           => some (true, b)
  | _ + 1, [], _      => none
  | n + 1, p :: ps, b =>
    match addProperty p b with
    | (false, b) => some (false, b)
    | (true, b)  => addProperties n ps b

end

/-! ### The data descriptors -/

/-- The data descriptor array, as the bytes that are pointed to, and `_tlgIdx`. -/
structure Descriptors where
  entries : List (Option (List UInt8))
  idx     : ℕ

/-- `EventDataDescCreate`. `none` where it leaves the array. -/
def Descriptors.create (d : Descriptors) (bytes : List UInt8) : Option Descriptors :=
  if d.idx < d.entries.length then some { d with entries := d.entries.set d.idx (some bytes) }
  else none

/-- `_tlgIdx++`. -/
def Descriptors.next (d : Descriptors) : Descriptors := { d with idx := d.idx + 1 }

/-- What `_tlgCreate1Sz_char` points to. -/
def sz : Option CString → List UInt8
  | none   => [0]
  | some s => s.terminated

section

variable [Platform]

/-- The second `switch` over the type of a property. -/
def PropertyView.create (p : PropertyView) (d : Descriptors) : Option Descriptors :=
  match p.type.getType with
  | .other        => some d
  | .int64        => d.create (memcpy 8 p.memory)
  | .uint64       => d.create (memcpy 8 p.memory)
  | .int32        => d.create (memcpy 4 p.memory)
  | .uint32       => d.create (memcpy 4 p.memory)
  | .int16        => d.create (memcpy 2 p.memory)
  | .uint16       => d.create (memcpy 2 p.memory)
  | .int8         => d.create (memcpy 1 p.memory)
  | .uint8        => d.create (memcpy 1 p.memory)
  | .bool         => d.create (leBytes 4 (if p.memory.headD 0 = 0 then 0 else 1))
  | .asciiCharPtr => d.create (cstr p.memory ++ [0])
  | .wcharTPtr    => d.create (wideBytes sizeofWchar (wcs sizeofWchar p.memory))
  | .struct       => some { d with idx := d.idx - 1 }

/-- The loop that fills the data descriptors of properties. -/
def createProperties : ℕ → List PropertyView → Descriptors → Option Descriptors
  | 0, _, d           => some d
  | _ + 1, [], _      => none
  | n + 1, p :: ps, d => (p.create d).bind fun d => createProperties n ps d.next

/-- The data descriptors of an event, given the memory the formatted message starts. -/
def createDescriptors (formattedMessage : List UInt8) (file func : Option CString) (line : ℤ)
    (added : Bool) (pairs : List PropertyView) (count : ℕ) : Option Descriptors :=
  let d : Descriptors := ⟨List.replicate DESCRIPTOR_COUNT none, 2⟩
  (d.create (cstr formattedMessage ++ [0])).bind fun d =>
  (d.next.create (sz file)).bind fun d =>
  (d.next.create (sz func)).bind fun d =>
  (d.next.create (leBytes 4 (u32 line))).bind fun d =>
  if added then createProperties count pairs d.next else some d.next

/-! ### The event -/

/-- `SELF_DESCRIBED_EVENT`, and the data descriptors it is written with. -/
structure Event where
  channel     : ℕ
  level       : ℕ
  opcode      : ℕ
  keyword     : ℕ
  evtMetaSize : ℕ
  evtTag      : ℕ
  metadata    : List UInt8
  descriptors : Descriptors

/-- The bytes that `_tlgEvtMetaSize` describes, which start with itself. -/
def Event.described (e : Event) : List UInt8 :=
  (leBytes 2 e.evtMetaSize ++ leBytes 2 e.evtTag ++ e.metadata).take e.evtMetaSize

/-- What a call does: its stores into the array `metadata`, and the events it writes. -/
structure Emission where
  writes : List (Write UInt8)
  events : List Event

/-- Write the event whose metadata has the given size. -/
def writeEvent (traceLevel : ℕ) (b : MetadataBuffer) (metadataSize : ℕ)
    (file func : Option CString) (line : ℤ) (added : Bool) (pairs : List PropertyView)
    (count : ℕ) : Option Emission :=
  (createDescriptors (b.metadata.drop metadataSize) file func line added pairs count).map fun d =>
    { writes := b.writes
      events := [{ channel     := 11
                   level       := traceLevel
                   opcode      := 0
                   keyword     := 0
                   evtMetaSize := u16 (u16 metadataSize + 4)
                   evtTag      := 128
                   metadata    := b.metadata
                   descriptors := d }] }

/-- Print the message behind the metadata, or again behind the metadata without properties if it
does not fit, and write the event. -/
def printMessage (traceLevel : ℕ) (fixed b : MetadataBuffer) (added : Bool)
    (pairs : List PropertyView) (count : ℕ) (file func : Option CString) (line : ℤ)
    (message : FormattedMessage) : Option Emission :=
  let metadataSize := if added then b.pos else fixed.pos
  let available := MAX_METADATA_SIZE - metadataSize
  let printed := vsnprintf message.text message.first available
  let b := b.store metadataSize printed.2
  if printed.1 < 0 then some ⟨b.writes, []⟩
  else if printed.1 ≥ available ∧ added then
    -- it did not fit: print again without properties
    let available := MAX_METADATA_SIZE - fixed.pos
    let printed := vsnprintf message.text message.second available
    let b := b.store fixed.pos printed.2
    if printed.1 < 0 then some ⟨b.writes, []⟩
    else
      writeEvent traceLevel (b.store (fixed.pos + available - 1) [0]) fixed.pos file func line false
        pairs count
  else writeEvent traceLevel b metadataSize file func line added pairs count

/-- `internal_emit_self_described_event_va`. `none` where the behaviour is undefined. -/
def internalEmitSelfDescribedEventVa [TlgIn] (levelPlus1 : ℕ) (garbage : ℕ → UInt8)
    (eventName : EventName) (traceLevel : ℕ) (pairs : List PropertyView) (count : ℕ)
    (file func : Option CString) (line : ℤ) (message : FormattedMessage) : Option Emission :=
  if traceLevel < levelPlus1 then
    let fixed := fillFixedFields eventName ⟨uninitialised garbage MAX_METADATA_SIZE, 0, []⟩
    if count ≤ LOG_MAX_ETW_PROPERTY_VALUE_PAIR_COUNT then
      match addProperties count pairs fixed with
      | none            => none
      | some (added, b) =>
        printMessage traceLevel fixed b added pairs count file func line message
    else printMessage traceLevel fixed fixed false pairs count file func line message
  else some ⟨[], []⟩

end

end CLogging
