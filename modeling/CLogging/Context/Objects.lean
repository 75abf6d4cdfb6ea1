import CLogging.Lib.Objects
import CLogging.Lib.Refinement
import CLogging.ToString.Trees
import Mathlib.Data.List.ReduceOption

/-!
# Contexts in memory

A context is an object in memory, and the values of its pairs are pointers. A child takes the pairs of
its parent by copying what their pointers point to, and moving the pointers to its own memory.
-/

namespace CLogging

open C Machine Memory Objects

/-! ### Memory -/

/-- A pointer into the values of a context, as the place of the context, and the offset from its
`values_data`. -/
structure ValuePointer where
  place  : ℕ
  offset : ℤ

/-- `LOG_CONTEXT_PROPERTY_VALUE_PAIR`. -/
structure PointerPair where
  name  : CString
  value : ValuePointer
  type  : LogContextPropertyTypeIf

/-- `LOG_CONTEXT` and the memory it points to, which was allocated or is on the stack. -/
structure ContextObject where
  allocated              : Bool
  valuesData             : List UInt8
  valuesDataLength       : ℕ
  propertyValuePairs     : List (Option PointerPair)
  propertyValuePairCount : ℕ

abbrev ContextMemory := List (Option ContextObject)

/-- The memory from a pointer on, up to the end of the values it points into. `none` if the context is
gone. -/
def ContextMemory.deref (m : ContextMemory) (p : ValuePointer) : Option (List UInt8) :=
  (object m p.place).map fun o => o.valuesData.drop p.offset.toNat

/-- The difference of two pointers. `none` if they do not point into the same context. -/
def ValuePointer.sub (p q : ValuePointer) : Option ℤ :=
  if p.place = q.place then some (p.offset - q.offset) else none

/-- Copy the value of a pair. The outer `none` is undefined: the context that the value belongs to is
gone, or what the copy does depends on memory before or behind the values of that context. -/
def ContextMemory.copy (m : ContextMemory) (p : PointerPair) : Option (Option (List UInt8)) :=
  (m.deref p.value).bind fun bytes =>
    if 0 ≤ p.value.offset ∧ p.type.readsInside bytes = true then some (p.type.copy bytes) else none

/-- The pairs that `property_value_pair_count` counts. A place behind the end of the array was never
filled in. -/
def ContextObject.countedPairs (o : ContextObject) : List (Option PointerPair) :=
  (List.range o.propertyValuePairCount).map fun i => o.propertyValuePairs[i]?.join

/-- What a handle points to, with `none` for `NULL`. The outer `none` is a context that is gone. -/
def ContextMemory.handle (m : ContextMemory) : Option ℕ → Option (Option ContextObject)
  | none   => some none
  | some i => (object m i).map some

/-! ### The functions -/

/-- `log_context_get_property_value_pair_count`. -/
def ContextObject.pairCountOf : Option ContextObject → ℕ
  | none   => 0
  | some o => o.propertyValuePairCount

/-- `internal_log_context_get_values_data_length_or_zero`. -/
def ContextObject.dataLengthOf : Option ContextObject → ℕ
  | none   => 0
  | some o => o.valuesDataLength

/-- The loop of `internal_log_context_init_from_parent` for a context at `self`: the pairs filled in,
the stores into its `values_data`, and whether all were copied. `none` is undefined: the loop uses the
pointer of a pair that was never filled in, subtracts pointers into different contexts, or copies
what is not there. -/
def ContextMemory.copyPairs (m : ContextMemory) (self parent : ℕ) :
    List (Option PointerPair) → Option (List PointerPair × List (Write UInt8) × Bool)
  | []             => some ([], [], true)
  | none :: _      => none
  | some p :: rest =>
    (p.value.sub ⟨parent, 0⟩).bind fun offset =>
      (m.copy p).bind fun
        | none       => some ([⟨p.name, ⟨self, 1 + offset⟩, p.type⟩], [], false)
        | some value =>
          (m.copyPairs self parent rest).map fun (pairs, writes, copied) =>
            (⟨p.name, ⟨self, 1 + offset⟩, p.type⟩ :: pairs, ⟨1 + offset, value⟩ :: writes,
              copied)

/-- `internal_log_context_init_from_parent`. -/
def ContextMemory.internalLogContextInitFromParent (m : ContextMemory) (self : ℕ) :
    Option ℕ → Option (List PointerPair × List (Write UInt8) × Bool)
  | none        => some ([], [], true)
  | some parent =>
    (object m parent).bind fun o => m.copyPairs self parent o.countedPairs

/-- A pair of the context at `self`, whose value lies at an offset from `data_pos` in it. -/
def LogContextPropertyValuePair.at (self : ℕ) (p : LogContextPropertyValuePair) : PointerPair :=
  ⟨p.name, ⟨self, p.value⟩, p.type⟩

section

variable [Platform]

/-- The context at `self` that the second pass fills in a block of memory. -/
def ContextMemory.filled (m : ContextMemory) (self : ℕ) (allocated : Bool) (block : List UInt8)
    (parent : Option ℕ) (parentObject : Option ContextObject) (fields : List FieldDesc) :
    Option ContextObject :=
  (m.internalLogContextInitFromParent self parent).map fun (inherited, writes, _) =>
    let count := ContextObject.pairCountOf parentObject
    let length := ContextObject.dataLengthOf parentObject
    let s := fields.foldl setupPropertyPair
      { dataPos   := u32 (1 + length)
        firstName := CString.empty
        pairs     := []
        writes    := writes ++ [⟨0, [u8 ((if parent.isSome then 1 else 0) + propertyCount fields)]⟩] }
    { allocated              := allocated
      valuesData             := applyAll s.writes block
      valuesDataLength       := u32 (length + 1 + dataBytes fields)
      propertyValuePairs     := some ⟨s.firstName, ⟨self, 0⟩, struct⟩ :: inherited.map some ++
        List.replicate (count - inherited.length) none ++ s.pairs.map (some ∘ (·.at self))
      propertyValuePairCount := u32 (count + 1 + propertyCount fields) }

/-- A context of `LOG_CONTEXT_LOCAL_DEFINE` that holds nothing. -/
def ContextObject.rejected (block : List UInt8) : ContextObject := ⟨false, block, 0, [], 0⟩

/-- `LOG_CONTEXT_CREATE` and `LOG_CONTEXT_LOCAL_DEFINE`: the memory, and the handle of the context. -/
def ContextMemory.define (m : ContextMemory) (kind : ContextMacro) (parent : Option ℕ)
    (fields : List FieldDesc) : Option (ContextMemory × Option ℕ) :=
  (m.handle parent).bind fun parentObject =>
    let count := u32 (ContextObject.pairCountOf parentObject + 1 + propertyCount fields)
    let length := u32 (ContextObject.dataLengthOf parentObject + 1 + dataBytes fields)
    match kind with
    | .create none           => some (m, none)
    | .create (some garbage) =>
      (m.filled m.length true (uninitialised garbage length) parent parentObject fields).map fun o =>
        (m ++ [some o], some m.length)
    | .localDefine garbage   =>
      let block := uninitialised garbage LOG_MAX_STACK_DATA_SIZE
      if count > LOG_MAX_STACK_PROPERTY_VALUE_PAIR_COUNT then
        some (m ++ [some (.rejected block)], some m.length)
      else if length > LOG_MAX_STACK_DATA_SIZE then
        some (m ++ [some (.rejected block)], some m.length)
      else
        (m.filled m.length false block parent parentObject fields).map fun o =>
          (m ++ [some o], some m.length)

end

/-- `log_context_destroy`. `none` if the context is gone, or was not allocated. -/
def ContextMemory.destroy (m : ContextMemory) : Option ℕ → Option ContextMemory
  | none   => some m
  | some i => (object m i).bind fun o => if o.allocated = true then some (remove m i) else none

/-- The block ends that a context of `LOG_CONTEXT_LOCAL_DEFINE` was defined in. -/
def ContextMemory.leave (m : ContextMemory) (i : ℕ) : Option ContextMemory :=
  (object m i).bind fun o => if o.allocated = false then some (remove m i) else none

/-- `log_context_get_property_value_pairs`, and what is found at the pointers up to the first pair that
was never filled in; and `log_context_get_property_value_pair_count`. -/
def ContextMemory.read (m : ContextMemory) (context : Option ℕ) : Option (List PropertyView × ℕ) :=
  (m.handle context).bind fun
    | none   => some ([], 0)
    | some o =>
      ((o.propertyValuePairs.takeWhile Option.isSome).reduceOption.mapM fun p =>
        (m.deref p.value).map fun memory => ⟨p.name, p.type, memory⟩).map
          fun views => (views, o.propertyValuePairCount)

/-! ### Runs -/

section

variable [Platform]

/-- What a program does with contexts. -/
inductive ContextCall where
  | define (kind : ContextMacro) (parent : Option ℕ) (fields : List FieldDesc)
  | destroy (context : Option ℕ)
  | leave (context : ℕ)
  | read (context : Option ℕ)

end

/-- The handle of a new context, or the pairs that are read. -/
inductive ContextOutput where
  | handle (context : Option ℕ)
  | pairs (views : List PropertyView) (count : ℕ)
  | nothing

/-- One call. -/
def ContextMemory.step [Platform] (m : ContextMemory) :
    ContextCall → Option (ContextMemory × ContextOutput)
  | .define kind parent fields => (m.define kind parent fields).map fun (m, c) => (m, .handle c)
  | .destroy context           => (m.destroy context).map fun m => (m, .nothing)
  | .leave context             => (m.leave context).map fun m => (m, .nothing)
  | .read context              => (m.read context).map fun (views, count) => (m, .pairs views count)

end CLogging
