import CLogging.Context.Setup

/-!
# The fill pass and the reservation

The counting pass reserves `dataLength` bytes. Every store of the fill pass stays inside them
exactly if, behind every value that is stored, the properties that follow are counted with at
least as many bytes as are missing up to it: bytes lost when the 32-bit sum wraps, and bytes by
which a failed formatting call moves `data_pos` further, or stores more, than it was counted with.
What is inherited must lie in the block of the parent, or the copies read, and store, memory that is
not the parent's.
-/

namespace CLogging

open C Memory

/-- The values that are stored from `pos` on lie behind the start of the block, and the properties
that follow each of them reserve the bytes that are missing up to it. -/
def ReservedBehind : ℤ → ℤ → List Property → Prop
  | _, _, []              => True
  | pos, missing, p :: ps =>
    (p.written ≠ [] → 0 ≤ pos ∧ missing + (p.written.length - p.counted) ≤ countedBytes ps) ∧
      ReservedBehind (pos + p.advance) (missing + (p.advance - p.counted)) ps

/-- The pairs up to the first that cannot be copied were filled in, and their values lie in the block
of the parent and stop within `room` bytes of its data. -/
def InheritedWithin (parent : LogContext) (room : ℤ) :
    List (Option LogContextPropertyValuePair) → Prop
  | []             => True
  | none :: _      => False
  | some p :: rest =>
    parent.Within p ∧
      match p.type.copy (parent.deref p.value) with
      | none       => True
      | some value => p.value + value.length ≤ room ∧ InheritedWithin parent room rest

/-- The stores of consecutive values stay below a limit. -/
lemma staysBelow_writesFrom (ps : List Property) (pos missing : ℤ) (limit : ℕ)
    (hlimit : (limit : ℤ) = pos - missing + countedBytes ps) :
    StaysBelow (writesFrom pos ps) limit ↔ ReservedBehind pos missing ps := by
  induction ps generalizing pos missing with
  | nil =>
    simp only [writesFrom, ReservedBehind, iff_true]
    exact staysBelow_nil limit
  | cons p ps ih =>
    rw [countedBytes_cons] at hlimit
    rw [writesFrom, staysBelow_cons, ReservedBehind,
      ih (pos + p.advance) (missing + (p.advance - p.counted)) (by rw [hlimit]; ring)]
    refine and_congr_left fun _ => imp_congr_right fun _ => and_congr_right fun _ => ?_
    simp only [Write.stop, hlimit]
    constructor <;> intro h <;> linarith

/-- The inherited values are defined and their stores stay below a limit. -/
lemma staysBelow_copyPairs (parent : LogContext) (room : ℤ) (limit : ℕ)
    (hlimit : (limit : ℤ) = 1 + room) (ps : List (Option LogContextPropertyValuePair)) :
    ((copyPairs parent ps).2.2.isSome ∧ StaysBelow (copyPairs parent ps).2.1 limit) ↔
      InheritedWithin parent room ps := by
  induction ps with
  | nil =>
    simp only [copyPairs, InheritedWithin, iff_true]
    exact ⟨rfl, staysBelow_nil limit⟩
  | cons p ps ih =>
    cases p with
    | none => simp [copyPairs, InheritedWithin]
    | some p =>
      by_cases hwithin : parent.Within p
      · have hcopied : parent.copy p = some (p.type.copy (parent.deref p.value)) := if_pos hwithin
        cases hcopy : p.type.copy (parent.deref p.value) with
        | none =>
          simp only [copyPairs, InheritedWithin, hcopied, hcopy, hwithin, true_and, iff_true]
          exact ⟨rfl, staysBelow_nil limit⟩
        | some value =>
          -- the value has to end inside the room, and so do those behind it
          have hne : value ≠ [] := p.type.copy_ne_nil hcopy
          have hstart : 0 ≤ 1 + p.value := by
            have := hwithin.1
            omega
          have hroom : (1 + p.value + value.length ≤ 1 + room) ↔ p.value + value.length ≤ room := by
            constructor <;> intro h <;> linarith
          simp only [copyPairs, InheritedWithin, hcopied, hcopy, hwithin, staysBelow_cons, ← ih,
            Write.stop, hlimit, ne_eq, hne, not_false_eq_true, true_imp_iff, hstart, true_and, hroom]
          exact and_left_comm
      · have hcopied : parent.copy p = none := if_neg hwithin
        simp [copyPairs, InheritedWithin, hcopied, hwithin]

@[simp] lemma length_uninitialised (garbage : ℕ → UInt8) (size : ℕ) :
    (uninitialised garbage size).length = size := by
  simp [uninitialised]

/-- The memory for the values of a context. -/
def ContextMacro.block : ContextMacro → ℕ → List UInt8
  | .create none, _           => []
  | .create (some garbage), n => uninitialised garbage n
  | .localDefine garbage, _   => uninitialised garbage LOG_MAX_STACK_DATA_SIZE

/-- What a macro leaves when it does not store the context: `LOG_CONTEXT_CREATE` no context, and
`LOG_CONTEXT_LOCAL_DEFINE` an empty one, with one error reported. -/
def ContextMacro.refused : ContextMacro → Definition
  | .create _            => ⟨none, [], 0, true⟩
  | .localDefine garbage =>
    ⟨some ⟨uninitialised garbage LOG_MAX_STACK_DATA_SIZE, 0, [], 0⟩, [], 1, true⟩

section

variable [Platform]

/-- The bytes lost when the sum of the counting pass wraps around. -/
def lostBytes (parent : LogContextHandle) (fields : List FieldDesc) : ℤ :=
  2 ^ 32 * ((internalLogContextGetValuesDataLengthOrZero parent + 1 + dataBytes fields) / 2 ^ 32)

/-- The bytes lost when the place of the first new value wraps around. -/
def lostAtStart (parent : LogContextHandle) : ℤ :=
  2 ^ 32 * ((1 + internalLogContextGetValuesDataLengthOrZero parent) / 2 ^ 32)

/-- For the inherited values, the field count and the new values alike: what follows reserves the
bytes that are missing up to there. -/
def Reserved (parent : LogContextHandle) (fields : List FieldDesc) : Prop :=
  (∀ p ∈ parent, InheritedWithin p (p.valuesDataLength + dataBytes fields - lostBytes parent fields)
    p.countedPairs) ∧
  lostBytes parent fields
    ≤ internalLogContextGetValuesDataLengthOrZero parent + dataBytes fields ∧
  ReservedBehind (startPos parent) (lostBytes parent fields - lostAtStart parent) (properties fields)

/-- The macro gets memory for the context and accepts its size. -/
def ContextMacro.Accepts (m : ContextMacro) (parent : LogContextHandle)
    (fields : List FieldDesc) : Prop :=
  match m with
  | .create malloc => malloc.isSome
  | .localDefine _ => pairCount parent fields ≤ LOG_MAX_STACK_PROPERTY_VALUE_PAIR_COUNT ∧
      dataLength parent fields ≤ LOG_MAX_STACK_DATA_SIZE

/-- A macro reads nothing that was never stored, and every byte it stores lies below the length it
computed, and on the stack below the size of the array there. -/
def ContextMacro.FillsInside (m : ContextMacro) (parent : LogContextHandle)
    (fields : List FieldDesc) : Prop :=
  (m.run parent fields).defined = true ∧
  StaysBelow (m.run parent fields).writes (dataLength parent fields) ∧
  match m with
  | .create _      => True
  | .localDefine _ => StaysBelow (m.run parent fields).writes LOG_MAX_STACK_DATA_SIZE

lemma natCast_dataLength (parent : LogContextHandle) (fields : List FieldDesc) :
    (dataLength parent fields : ℤ) =
      1 + (internalLogContextGetValuesDataLengthOrZero parent + dataBytes fields
        - lostBytes parent fields) := by
  rw [dataLength, natCast_u32, lostBytes]
  ring

instance (m : ContextMacro) (parent : LogContextHandle) (fields : List FieldDesc) :
    Decidable (m.Accepts parent fields) :=
  match m with
  | .create malloc => inferInstanceAs (Decidable (malloc.isSome = true))
  | .localDefine _ => inferInstanceAs (Decidable (_ ∧ _))

/-- A context that is stored is filled in. -/
lemma run_of_accepts {m : ContextMacro} {parent : LogContextHandle} {fields : List FieldDesc}
    (h : m.Accepts parent fields) :
    m.run parent fields = filled (m.block (dataLength parent fields)) parent fields := by
  match m with
  | .create (some garbage) => rfl
  | .localDefine garbage =>
    obtain ⟨hcount, hlength⟩ := h
    simp only [ContextMacro.run, logContextLocalDefine, ContextMacro.block]
    rw [if_neg (not_lt.mpr hcount), if_neg (not_lt.mpr hlength)]

/-- The block of a context that is stored is large enough for its length. -/
lemma dataLength_le_block {m : ContextMacro} {parent : LogContextHandle}
    {fields : List FieldDesc} (h : m.Accepts parent fields) :
    dataLength parent fields ≤ (m.block (dataLength parent fields)).length := by
  match m with
  | .create (some garbage) => simp [ContextMacro.block]
  | .localDefine garbage => simpa [ContextMacro.block] using h.2

lemma run_of_not_accepts {m : ContextMacro} {parent : LogContextHandle} {fields : List FieldDesc}
    (h : ¬ m.Accepts parent fields) : m.run parent fields = m.refused := by
  match m with
  | .create none => rfl
  | .create (some garbage) => exact absurd rfl h
  | .localDefine garbage =>
    simp only [ContextMacro.Accepts, not_and_or, not_le] at h
    simp only [ContextMacro.run, logContextLocalDefine]
    split_ifs with hcount hlength
    · rfl
    · rfl
    · exact absurd h (not_or.mpr ⟨hcount, hlength⟩)

lemma writes_of_not_accepts {m : ContextMacro} {parent : LogContextHandle}
    {fields : List FieldDesc} (h : ¬ m.Accepts parent fields) :
    (m.run parent fields).writes = [] ∧ (m.run parent fields).defined = true := by
  rw [run_of_not_accepts h]
  cases m <;> exact ⟨rfl, rfl⟩

/-- The fill pass is defined and its stores stay inside the reservation exactly if it covers them. -/
lemma staysBelow_setup_iff (parent : LogContextHandle) (fields : List FieldDesc) :
    ((internalLogContextInitFromParent parent).2.2.isSome ∧
      StaysBelow (setup parent fields).writes (dataLength parent fields)) ↔
        Reserved parent fields := by
  have hlength := natCast_dataLength parent fields
  rw [setup_writes, staysBelow_append, staysBelow_cons, Reserved, ← and_assoc]
  refine and_congr ?_ (and_congr ?_ ?_)
  · cases parent with
    | none =>
      simp only [internalLogContextInitFromParent, Option.mem_def, reduceCtorEq, false_imp_iff,
        implies_true, iff_true]
      exact ⟨rfl, staysBelow_nil _⟩
    | some p =>
      simp only [internalLogContextInitFromParent, Option.mem_def, Option.some.injEq,
        forall_eq']
      exact staysBelow_copyPairs p _ _ hlength _
  · simp only [Write.stop, List.length_singleton, ne_eq, List.cons_ne_nil, not_false_eq_true,
      true_imp_iff, hlength]
    constructor
    · rintro ⟨-, h⟩
      push_cast at h
      linarith
    · intro h
      refine ⟨le_refl _, ?_⟩
      push_cast
      linarith
  · apply staysBelow_writesFrom
    rw [hlength, dataBytes_eq, natCast_startPos, lostAtStart]
    ring

/-- The fill pass stays inside the reservation exactly if nothing is stored or what follows every
value reserves the bytes missing up to it. -/
theorem fillsInside_iff (m : ContextMacro) (parent : LogContextHandle)
    (fields : List FieldDesc) :
    m.FillsInside parent fields ↔ ¬ m.Accepts parent fields ∨ Reserved parent fields := by
  by_cases h : m.Accepts parent fields
  · simp only [ContextMacro.FillsInside, run_of_accepts h, filled, not_true_eq_false, false_or, h]
    rw [← and_assoc, staysBelow_setup_iff]
    match m with
    | .create _ => exact and_iff_left trivial
    | .localDefine _ =>
      refine and_iff_left_of_imp fun hreserved => ?_
      exact ((staysBelow_setup_iff parent fields).mpr hreserved).2.mono h.2
  · have hnil : StaysBelow (m.run parent fields).writes 0 := by
      rw [(writes_of_not_accepts h).1]
      exact staysBelow_nil 0
    refine iff_of_true ⟨(writes_of_not_accepts h).2, hnil.mono (Nat.zero_le _), ?_⟩ (Or.inl h)
    match m with
    | .create _ => exact trivial
    | .localDefine _ => exact hnil.mono (Nat.zero_le _)

end

/-- A wide text that does not fit, of which `swprintf` stored as much as it was allowed to, and an
integer. -/
def truncatedWstring : List (@FieldDesc posix) :=
  [@FieldDesc.logContextWstringProperty posix ⟨ascii "w", zero_notMem_w⟩
      (@Swprintf.failed posix (-1) minusOne_negative (List.replicate (4096 * 4) 88)
        (by rw [List.length_replicate]; rfl)),
    @FieldDesc.logContextProperty posix .int32 ⟨ascii "x", zero_notMem_x⟩ ⟨[7, 0, 0, 0], length_seven⟩]

/-- The two properties are counted with no bytes at all, and both are stored. -/
theorem not_fillsInside_truncatedWstring :
    ¬ @ContextMacro.FillsInside posix (.localDefine fun _ => 0) none truncatedWstring := by
  rintro ⟨-, hinside, -⟩
  have haccepts : @ContextMacro.Accepts posix (.localDefine fun _ => 0) none truncatedWstring := by
    constructor <;> decide
  rw [@run_of_accepts posix _ _ _ haccepts] at hinside
  simp only [filled, @setup_writes posix] at hinside
  have hmem : (⟨1, [7, 0, 0, 0]⟩ : Write UInt8) ∈
      @writesFrom 1 (@properties posix truncatedWstring) :=
    List.mem_cons_of_mem _ List.mem_cons_self
  have hlength : @dataLength posix none truncatedWstring = 1 := by decide
  have hbound := hinside _ (List.mem_append_right _ (List.mem_cons_of_mem _ hmem)) 1
    ⟨le_refl _, by decide⟩
  rw [hlength] at hbound
  exact absurd hbound.2 (by decide)

end CLogging
