import CLogging.Context.Objects

/-!
# Who owns the values of a context

No pointer of a context leaves its own memory, so that contexts can be taken for values that do not
say where they are. A context stays what it was when it was defined, also when its parent is gone.
-/

namespace CLogging

open C Machine Memory Objects

/-! ### Contexts as values -/

/-- A context, and whether it was allocated. -/
structure OwnedContext where
  allocated : Bool
  context   : LogContext

abbrev Contexts := List (Option OwnedContext)

/-- What a handle stands for. -/
def Contexts.handle (s : Contexts) : Option ℕ → Option LogContextHandle
  | none   => some none
  | some i => (object s i).map fun c => some c.context

/-- A context is gone. `none` if it was before, or if this is not how it goes. -/
def Contexts.close (s : Contexts) (allocated : Bool) (i : ℕ) : Option Contexts :=
  (object s i).bind fun c => if c.allocated = allocated then some (remove s i) else none

/-- What is read of a context. -/
def readHandle : LogContextHandle → ContextOutput
  | none   => .pairs [] 0
  | some c => .pairs c.views c.propertyValuePairCount

section

variable [Platform]

/-- Whether a macro allocates its context. -/
def ContextMacro.allocates : ContextMacro → Bool
  | .create _      => true
  | .localDefine _ => false

/-- The contexts with a new one, and its handle. -/
def Contexts.add (s : Contexts) (allocated : Bool) : LogContextHandle → Contexts × ContextOutput
  | none   => (s, .handle none)
  | some c => (s ++ [some ⟨allocated, c⟩], .handle (some s.length))

/-- One call. `none` is undefined. -/
def Contexts.step (s : Contexts) : ContextCall → Option (Contexts × ContextOutput)
  | .define kind parent fields =>
    (s.handle parent).bind fun p =>
      if (kind.run p fields).defined = true then
        some (s.add kind.allocates (kind.run p fields).context)
      else none
  | .destroy none              => some (s, .nothing)
  | .destroy (some i)          => (s.close true i).map fun s => (s, .nothing)
  | .leave i                   => (s.close false i).map fun s => (s, .nothing)
  | .read context              => (s.handle context).map fun c => (s, readHandle c)

end

/-! ### Pointers -/

/-- The context at a place, with its pointers. -/
def OwnedContext.at (self : ℕ) (c : OwnedContext) : ContextObject where
  allocated              := c.allocated
  valuesData             := c.context.valuesData
  valuesDataLength       := c.context.valuesDataLength
  propertyValuePairs     := c.context.propertyValuePairs.map (Option.map (·.at self))
  propertyValuePairCount := c.context.propertyValuePairCount

/-- All contexts in memory. -/
def Contexts.memory (s : Contexts) : ContextMemory := relocate OwnedContext.at s

section

variable {s : Contexts} {i : ℕ} {c : OwnedContext}

lemma deref_memory (h : object s i = some c) (offset : ℤ) :
    s.memory.deref ⟨i, offset⟩ = some (c.context.deref offset) := by
  rw [ContextMemory.deref, Contexts.memory, object_relocate, h]
  rfl

lemma copy_memory (h : object s i = some c) (p : LogContextPropertyValuePair) :
    s.memory.copy (p.at i) = c.context.copy p := by
  have hderef : s.memory.deref (p.at i).value = some (c.context.deref p.value) :=
    deref_memory h p.value
  rw [ContextMemory.copy, hderef, Option.bind_some]
  rfl

lemma copyPairs_memory (h : object s i = some c) (self : ℕ)
    (pairs : List (Option LogContextPropertyValuePair)) :
    s.memory.copyPairs self i (pairs.map (Option.map (·.at i))) =
      (copyPairs c.context pairs).2.2.map fun copied =>
        ((copyPairs c.context pairs).1.map (·.at self), (copyPairs c.context pairs).2.1,
          copied) := by
  induction pairs with
  | nil => rfl
  | cons p pairs ih =>
    cases p with
    | none => rfl
    | some p =>
      have hsub : (p.at i).value.sub ⟨i, 0⟩ = some p.value := by
        rw [ValuePointer.sub, if_pos (show (p.at i).value.place = i from rfl)]
        exact congrArg some (sub_zero p.value)
      rw [List.map_cons, Option.map_some, ContextMemory.copyPairs, hsub, Option.bind_some,
        copy_memory h, copyPairs]
      cases c.context.copy p with
      | none => rfl
      | some copied =>
        cases copied with
        | none => rfl
        | some value =>
          rw [Option.bind_some]
          simp only [ih, Option.map_map]
          rfl

lemma countedPairs_at (i : ℕ) (c : OwnedContext) :
    (c.at i).countedPairs = c.context.countedPairs.map (Option.map (·.at i)) := by
  rw [ContextObject.countedPairs, LogContext.countedPairs, List.map_map]
  refine List.map_congr_left fun j _ => ?_
  simp only [OwnedContext.at, List.getElem?_map, Function.comp_apply]
  cases c.context.propertyValuePairs[j]? with
  | none => rfl
  | some p => rfl

variable [Platform]

omit [Platform] in
lemma handle_memory_eq_none {parent : Option ℕ} (h : s.handle parent = none) :
    s.memory.handle parent = none := by
  cases parent with
  | none => cases h
  | some i =>
    rw [ContextMemory.handle, Contexts.memory, object_relocate, Option.map_eq_none_iff.mp h]
    rfl

/-- In memory the functions of a context compute from its object what they compute from its value. -/
structure StandsFor (m : ContextMemory) (parent : Option ℕ) (o : Option ContextObject)
    (p : LogContextHandle) : Prop where
  isSome_eq : parent.isSome = p.isSome
  count_eq  : ContextObject.pairCountOf o = logContextGetPropertyValuePairCount p
  length_eq : ContextObject.dataLengthOf o = internalLogContextGetValuesDataLengthOrZero p
  init_eq   : ∀ self, m.internalLogContextInitFromParent self parent =
    (internalLogContextInitFromParent p).2.2.map fun copied =>
      ((internalLogContextInitFromParent p).1.map (·.at self),
        (internalLogContextInitFromParent p).2.1, copied)

omit [Platform] in
lemma exists_standsFor {parent : Option ℕ} {p : LogContextHandle} (h : s.handle parent = some p) :
    ∃ o, s.memory.handle parent = some o ∧ StandsFor s.memory parent o p := by
  cases parent with
  | none =>
    obtain rfl := Option.some.inj h
    exact ⟨none, rfl, rfl, rfl, rfl, fun _ => rfl⟩
  | some i =>
    obtain ⟨c, hc, rfl⟩ := Option.map_eq_some_iff.mp h
    have hobject : object s.memory i = some (c.at i) := by
      rw [Contexts.memory, object_relocate, hc]
      rfl
    refine ⟨some (c.at i), ?_, rfl, rfl, rfl, fun self => ?_⟩
    · rw [ContextMemory.handle, hobject]
      rfl
    · rw [ContextMemory.internalLogContextInitFromParent, hobject, Option.bind_some,
        countedPairs_at]
      exact copyPairs_memory hc self _

/-- What the second pass fills in. -/
lemma filled_eq {m : ContextMemory} {parent : Option ℕ} {o : Option ContextObject}
    {p : LogContextHandle} (h : StandsFor m parent o p) (self : ℕ) (allocated : Bool)
    (block : List UInt8) (fields : List FieldDesc) :
    ∃ c, (filled block p fields).context = some c ∧
      m.filled self allocated block parent o fields =
        if (filled block p fields).defined = true then
          some (OwnedContext.at self ⟨allocated, c⟩) else none := by
  refine ⟨_, rfl, ?_⟩
  have hdefined : (filled block p fields).defined =
    (internalLogContextInitFromParent p).2.2.isSome := rfl
  rw [ContextMemory.filled, h.init_eq, h.isSome_eq, h.count_eq, h.length_eq, hdefined]
  cases (internalLogContextInitFromParent p).2.2 with
  | none => rfl
  | some copied =>
    simp only [Option.map_some, Option.isSome_some, if_true, OwnedContext.at, setupPairs, setup,
      startPos, pairCount, dataLength, List.map_cons, List.map_append, List.map_map,
      List.map_replicate, List.length_map, Option.map_none]
    rfl

/-- `LOG_CONTEXT_CREATE` and `LOG_CONTEXT_LOCAL_DEFINE` in memory. -/
lemma define_memory (kind : ContextMacro) {parent : Option ℕ} {p : LogContextHandle}
    (h : s.handle parent = some p) (fields : List FieldDesc) :
    (s.memory.define kind parent fields).map (fun (m, c) => (m, ContextOutput.handle c)) =
      if (kind.run p fields).defined = true then
        some ((s.add kind.allocates (kind.run p fields).context).1.memory,
          (s.add kind.allocates (kind.run p fields).context).2)
      else none := by
  have hlength : s.memory.length = s.length := length_relocate _ s
  have hconcat : ∀ c : OwnedContext, s.memory ++ [some (c.at s.length)] =
      Contexts.memory (s ++ [some c]) := fun c => (relocate_concat _ s (some c)).symm
  obtain ⟨o, ho, hstands⟩ := exists_standsFor h
  rw [ContextMemory.define, ho, Option.bind_some]
  cases kind with
  | create malloc =>
    cases malloc with
    | none => rfl
    | some garbage =>
      obtain ⟨c, hc, hfilled⟩ := filled_eq hstands s.memory.length true
        (uninitialised garbage (dataLength p fields)) fields
      have hrun : (ContextMacro.create (some garbage)).run p fields =
          filled (uninitialised garbage (dataLength p fields)) p fields := rfl
      rw [hrun, hc]
      simp only [hstands.length_eq]
      rw [show u32 (internalLogContextGetValuesDataLengthOrZero p + 1 + dataBytes fields) =
        dataLength p fields from rfl, hfilled, hlength]
      split_ifs
      · simp only [Option.map_some, hconcat]
        rfl
      · rfl
  | localDefine garbage =>
    simp only [hstands.length_eq, hstands.count_eq]
    rw [show u32 (internalLogContextGetValuesDataLengthOrZero p + 1 + dataBytes fields) =
      dataLength p fields from rfl,
      show u32 (logContextGetPropertyValuePairCount p + 1 + propertyCount fields) =
        pairCount p fields from rfl]
    rw [ContextMacro.run, logContextLocalDefine]
    generalize uninitialised garbage LOG_MAX_STACK_DATA_SIZE = block
    have hrejected : ContextObject.rejected block =
        OwnedContext.at s.length ⟨false, ⟨block, 0, [], 0⟩⟩ := rfl
    by_cases hcount : pairCount p fields > LOG_MAX_STACK_PROPERTY_VALUE_PAIR_COUNT
    · -- too many pairs: rejected
      rw [if_pos hcount, if_pos hcount, hrejected, Option.map_some, hconcat, hlength]
      rfl
    · rw [if_neg hcount, if_neg hcount]
      by_cases hsize : dataLength p fields > LOG_MAX_STACK_DATA_SIZE
      · -- too many bytes: rejected
        rw [if_pos hsize, if_pos hsize, hrejected, Option.map_some, hconcat, hlength]
        rfl
      · -- filled in, if every pair that is read was
        obtain ⟨c, hc, hfilled⟩ := filled_eq hstands s.memory.length false block fields
        rw [if_neg hsize, if_neg hsize, hc, hfilled, hlength]
        split_ifs
        · simp only [Option.map_some, hconcat]
          rfl
        · rfl

omit [Platform] in
/-- What is found at the pointers of the pairs. -/
lemma mapM_deref_memory (h : object s i = some c)
    (pairs : List (Option LogContextPropertyValuePair)) :
    ((pairs.map (Option.map (·.at i))).takeWhile Option.isSome).reduceOption.mapM
        (fun p => (s.memory.deref p.value).map fun memory => PropertyView.mk p.name p.type memory) =
      some ((pairs.takeWhile Option.isSome).filterMap
        (Option.map fun p => ⟨p.name, p.type, c.context.deref p.value⟩)) := by
  induction pairs with
  | nil => rfl
  | cons p pairs ih =>
    cases p with
    | none => rfl
    | some p =>
      have hderef : s.memory.deref (p.at i).value = some (c.context.deref p.value) :=
        deref_memory h p.value
      simp only [List.map_cons, Option.map_some, List.takeWhile_cons, Option.isSome_some, if_true,
        List.reduceOption_cons_of_some, List.mapM_cons, hderef, ih, List.filterMap_cons]
      rfl

omit [Platform] in
/-- What is read of a context in memory. -/
lemma read_memory (s : Contexts) (context : Option ℕ) :
    (s.memory.read context).map (fun (views, count) => ContextOutput.pairs views count) =
      (s.handle context).map readHandle := by
  cases context with
  | none => rfl
  | some i =>
    rw [ContextMemory.read, ContextMemory.handle, Contexts.memory, object_relocate, Contexts.handle]
    cases hobject : object s i with
    | none => rfl
    | some c =>
      have hviews := mapM_deref_memory hobject c.context.propertyValuePairs
      rw [Contexts.memory] at hviews
      simp only [Option.map_some, Option.bind_some, OwnedContext.at, hviews]
      rfl

omit [Platform] in
lemma close_memory (s : Contexts) (allocated : Bool) (i : ℕ) :
    ((object s.memory i).bind fun o =>
      if o.allocated = allocated then some (remove s.memory i) else none) =
      (s.close allocated i).map Contexts.memory := by
  rw [Contexts.close, Contexts.memory, object_relocate]
  cases object s i with
  | none => rfl
  | some c =>
    have hallocated : (c.at i).allocated = c.allocated := rfl
    rw [Option.map_some, Option.bind_some, Option.bind_some, hallocated]
    split_ifs
    · rw [Option.map_some, Contexts.memory, relocate_remove]
    · rfl

/-- A call in memory does what it does with values. -/
lemma step_memory (s : Contexts) (call : ContextCall) :
    s.memory.step call = (s.step call).map fun (t, o) => (t.memory, o) := by
  cases call with
  | define kind parent fields =>
    rw [ContextMemory.step, Contexts.step]
    cases hhandle : s.handle parent with
    | none =>
      rw [ContextMemory.define, handle_memory_eq_none hhandle]
      rfl
    | some p =>
      refine (define_memory kind hhandle fields).trans ?_
      rw [Option.bind_some]
      split_ifs <;> rfl
  | destroy context =>
    cases context with
    | none => rfl
    | some i =>
      rw [ContextMemory.step, ContextMemory.destroy, Contexts.step, close_memory s true i]
      simp only [Option.map_map, Function.comp_def]
  | leave i =>
    rw [ContextMemory.step, ContextMemory.leave, Contexts.step, close_memory s false i]
    simp only [Option.map_map, Function.comp_def]
  | read context =>
    have hread := congrArg (Option.map fun o => (s.memory, o)) (read_memory s context)
    simp only [Option.map_map, Function.comp_def] at hread
    rw [ContextMemory.step, Contexts.step, Option.map_map]
    exact hread

/-! ### Runs -/

/-- Runs in memory are runs with values. -/
lemma run_memory (calls : List ContextCall) : run ContextMemory.step [] calls =
    (run Contexts.step [] calls).map fun (s, os) => (s.memory, os) :=
  run_map step_memory [] calls

/-- Which contexts are there, and whether they were allocated. -/
def ContextMemory.lifetimes (m : ContextMemory) : List (Option Bool) :=
  relocate (fun _ o => o.allocated) m

/-- A handle that may be used. -/
def Lives (l : List (Option Bool)) : Option ℕ → Prop
  | none   => True
  | some i => (object l i).isSome

instance (l : List (Option Bool)) : DecidablePred (Lives l)
  | none   => inferInstanceAs (Decidable True)
  | some i => inferInstanceAs (Decidable ((object l i).isSome = true))

/-- What a program must not do: use a context that is gone, or have one go in the wrong way. The
contexts behind a call, if it is allowed. -/
def ContextCall.next (l : List (Option Bool)) : ContextCall → Option (List (Option Bool))
  | .define (.create none) parent _ => if Lives l parent then some l else none
  | .define kind parent _           =>
    if Lives l parent then some (l ++ [some kind.allocates]) else none
  | .destroy none                   => some l
  | .destroy (some i)               => if object l i = some true then some (remove l i) else none
  | .leave i                        => if object l i = some false then some (remove l i) else none
  | .read context                   => if Lives l context then some l else none

omit [Platform] in
lemma lifetimes_memory (s : Contexts) :
    s.memory.lifetimes = relocate (fun _ c => c.allocated) s :=
  relocate_relocate _ _ s

omit [Platform] in
lemma object_lifetimes (s : Contexts) (i : ℕ) :
    object s.memory.lifetimes i = (object s i).map OwnedContext.allocated := by
  rw [lifetimes_memory, object_relocate]

omit [Platform] in
lemma lives_iff {s : Contexts} {context : Option ℕ} :
    Lives s.memory.lifetimes context ↔ ∃ p, s.handle context = some p := by
  cases context with
  | none => exact iff_of_true trivial ⟨none, rfl⟩
  | some i =>
    rw [Lives, object_lifetimes, Option.isSome_map, Contexts.handle, Option.isSome_iff_exists]
    constructor
    · rintro ⟨c, hc⟩
      exact ⟨some c.context, by rw [hc]; rfl⟩
    · rintro ⟨p, hp⟩
      obtain ⟨c, hc, -⟩ := Option.map_eq_some_iff.mp hp
      exact ⟨c, hc⟩

omit [Platform] in
lemma handle_eq_none {s : Contexts} {context : Option ℕ}
    (h : ¬ Lives s.memory.lifetimes context) : s.handle context = none := by
  cases hhandle : s.handle context with
  | none => rfl
  | some p => exact absurd (lives_iff.mpr ⟨p, hhandle⟩) h

/-- Only if there is no memory, there is no context. -/
lemma exists_context {kind : ContextMacro} (h : kind ≠ .create none) (p : LogContextHandle)
    (fields : List FieldDesc) : ∃ c, (kind.run p fields).context = some c := by
  cases kind with
  | create malloc =>
    cases malloc with
    | none => exact absurd rfl h
    | some garbage => exact ⟨_, rfl⟩
  | localDefine garbage =>
    rw [ContextMacro.run, logContextLocalDefine]
    split_ifs <;> exact ⟨_, rfl⟩

omit [Platform] in
lemma lifetimes_close (s : Contexts) (allocated : Bool) (i : ℕ) :
    (s.close allocated i).map (fun t => t.memory.lifetimes) =
      if object s.memory.lifetimes i = some allocated then some (remove s.memory.lifetimes i)
      else none := by
  rw [object_lifetimes, Contexts.close]
  cases object s i with
  | none => rfl
  | some c =>
    rw [Option.bind_some, Option.map_some]
    by_cases hallocated : c.allocated = allocated
    · rw [if_pos hallocated, if_pos (congrArg some hallocated), Option.map_some, lifetimes_memory,
        lifetimes_memory, relocate_remove]
    · rw [if_neg hallocated, if_neg fun h => hallocated (Option.some.inj h), Option.map_none]

/-! ### What can be inherited -/

omit [Platform] in
/-- Up to the first value that cannot be copied, all pairs were filled in, and their values lie in the
block of the context. -/
def Inheritable (parent : LogContextHandle) : Prop :=
  ∀ c, parent = some c → ∀ i < c.propertyValuePairCount,
    (∀ j < i, ∃ p bytes, c.propertyValuePairs[j]? = some (some p) ∧
      c.copy p = some (some bytes)) →
      ∃ p, c.propertyValuePairs[i]? = some (some p) ∧ c.Within p

omit [Platform] in
lemma copyPairs_defined_iff (c : LogContext) (ps : List (Option LogContextPropertyValuePair)) :
    (copyPairs c ps).2.2.isSome ↔ ∀ i < ps.length,
      (∀ j < i, ∃ p bytes, ps[j]? = some (some p) ∧ c.copy p = some (some bytes)) →
        ∃ p, ps[i]? = some (some p) ∧ c.Within p := by
  induction ps with
  | nil => simp [copyPairs]
  | cons q ps ih =>
    rw [List.length_cons, Nat.forall_lt_succ_left]
    simp only [Nat.forall_lt_succ_left, List.getElem?_cons_zero, List.getElem?_cons_succ]
    cases q with
    | none => simp [copyPairs]
    | some q =>
      by_cases hwithin : c.Within q
      · -- the value lies in the block: only a failed copy ends the loop
        have hcopied : c.copy q = some (q.type.copy (c.deref q.value)) := if_pos hwithin
        cases hcopy : q.type.copy (c.deref q.value) with
        | none => simp [copyPairs, hcopied, hcopy, hwithin]
        | some bytes =>
          rw [copyPairs, hcopied, hcopy]
          simp [ih, hcopied, hcopy, hwithin]
      · have hcopied : c.copy q = none := if_neg hwithin
        simp [copyPairs, hcopied, hwithin]

omit [Platform] in
/-- What is inherited is defined exactly if it can be inherited. -/
lemma defined_iff_inheritable (parent : LogContextHandle) :
    Statements.Defined parent ↔ Inheritable parent := by
  cases parent with
  | none => exact iff_of_true rfl fun c hc => nomatch hc
  | some c =>
    have hiff := copyPairs_defined_iff c c.countedPairs
    rw [c.length_countedPairs] at hiff
    simp only [Inheritable, Option.some.injEq, forall_eq']
    refine hiff.trans (forall₂_congr fun i hi => imp_congr (forall₂_congr fun j hj => ?_) ?_)
    · simp only [c.countedPairs_eq_some_iff (hj.trans hi)]
    · simp only [c.countedPairs_eq_some_iff hi]

/-- A context that is stored in a call can be inherited from. -/
def Contexts.CanInherit (s : Contexts) : ContextCall → Prop
  | .define kind parent fields =>
    ∀ p, s.handle parent = some p → kind.Accepts p fields → Inheritable p
  | _ => True

lemma run_defined_iff (kind : ContextMacro) (p : LogContextHandle) (fields : List FieldDesc) :
    (kind.run p fields).defined = true ↔ (kind.Accepts p fields → Inheritable p) := by
  by_cases haccepts : kind.Accepts p fields
  · rw [run_of_accepts haccepts, ← defined_iff_inheritable]
    exact ⟨fun hdefined _ => hdefined, fun h => h haccepts⟩
  · exact iff_of_true (writes_of_not_accepts haccepts).2 fun h => absurd h haccepts

/-- Where nothing can be inherited, no context can be defined. -/
lemma step_of_not_canInherit (s : Contexts) (call : ContextCall) (h : ¬ s.CanInherit call) :
    s.step call = none := by
  cases call with
  | define kind parent fields =>
    simp only [Contexts.CanInherit, not_forall] at h
    obtain ⟨p, hp, haccepts, hnot⟩ := h
    have hundefined : ¬ (kind.run p fields).defined = true := by
      rw [run_defined_iff]
      exact fun hdefined => hnot (hdefined haccepts)
    rw [Contexts.step, hp, Option.bind_some, if_neg hundefined]
  | destroy context => exact absurd trivial h
  | leave i => exact absurd trivial h
  | read context => exact absurd trivial h

/-- Elsewhere lifetimes say which calls are possible. -/
lemma step_lifetimes (s : Contexts) (call : ContextCall) (h : s.CanInherit call) :
    (s.step call).map (fun (t, _) => t.memory.lifetimes) = call.next s.memory.lifetimes := by
  cases call with
  | define kind parent fields =>
    rw [Contexts.step]
    by_cases hlives : Lives s.memory.lifetimes parent
    · -- the parent lives, and its pairs can be copied
      obtain ⟨p, hp⟩ := lives_iff.mp hlives
      rw [hp, Option.bind_some, if_pos ((run_defined_iff kind p fields).mpr (h p hp)),
        Option.map_some]
      by_cases hnone : kind = .create none
      · -- malloc failed: no object is added
        subst hnone
        rw [ContextCall.next, if_pos hlives]
        rfl
      · obtain ⟨c, hc⟩ := exists_context hnone p fields
        have hnext : (ContextCall.define kind parent fields).next s.memory.lifetimes =
            some (s.memory.lifetimes ++ [some kind.allocates]) := by
          rw [ContextCall.next, if_pos hlives]
          rintro rfl
          exact hnone rfl
        have hconcat := relocate_concat (fun _ c => OwnedContext.allocated c) s
          (some ⟨kind.allocates, c⟩)
        rw [hnext, hc, Contexts.add]
        simp only [lifetimes_memory, hconcat, Option.map_some]
    · rw [handle_eq_none hlives, Option.bind_none, Option.map_none]
      cases kind with
      | create malloc => cases malloc <;> exact (if_neg hlives).symm
      | localDefine garbage => exact (if_neg hlives).symm
  | destroy context =>
    cases context with
    | none => rfl
    | some i =>
      rw [Contexts.step, Option.map_map, ContextCall.next, ← lifetimes_close]
      rfl
  | leave i =>
    rw [Contexts.step, Option.map_map, ContextCall.next, ← lifetimes_close]
    rfl
  | read context =>
    rw [Contexts.step, ContextCall.next]
    by_cases hlives : Lives s.memory.lifetimes context
    · obtain ⟨p, hp⟩ := lives_iff.mp hlives
      rw [hp, if_pos hlives]
      rfl
    · rw [handle_eq_none hlives, if_neg hlives]
      rfl

lemma exists_run_memory_iff (calls : List ContextCall) (l : List (Option Bool)) :
    (∃ m os, run ContextMemory.step [] calls = some (m, os) ∧ m.lifetimes = l) ↔
      ∃ s os, run Contexts.step [] calls = some (s, os) ∧ s.memory.lifetimes = l := by
  rw [run_memory]
  constructor
  · rintro ⟨m, os, hrun, hl⟩
    obtain ⟨⟨s, os'⟩, hvalues, heq⟩ := Option.map_eq_some_iff.mp hrun
    obtain ⟨rfl, rfl⟩ := Prod.mk.inj heq
    exact ⟨s, os', hvalues, hl⟩
  · rintro ⟨s, os, hvalues, hl⟩
    exact ⟨s.memory, os, by rw [hvalues]; rfl, hl⟩

omit [Platform] in
lemma object_close {s t : Contexts} {allocated : Bool} {j : ℕ} (h : s.close allocated j = some t) :
    t.length = s.length ∧ ∀ i c, object t i = some c → object s i = some c := by
  obtain ⟨c', -, hclose⟩ := Option.bind_eq_some_iff.mp h
  split_ifs at hclose
  obtain rfl := Option.some.inj hclose
  refine ⟨List.length_set, fun i c hc => ?_⟩
  by_cases hij : j = i
  · subst hij
    rw [object_remove_self] at hc
    cases hc
  · rwa [object_remove_of_ne hij] at hc

lemma step_define {s t : Contexts} {kind : ContextMacro} {parent : Option ℕ}
    {fields : List FieldDesc} {o : ContextOutput}
    (h : s.step (.define kind parent fields) = some (t, o)) :
    ∃ p, s.handle parent = some p ∧ s.add kind.allocates (kind.run p fields).context = (t, o) := by
  obtain ⟨p, hp, hadd⟩ := Option.bind_eq_some_iff.mp h
  split_ifs at hadd
  exact ⟨p, hp, Option.some.inj hadd⟩

omit [Platform] in
lemma HandleRepresents.inheritable {parent : LogContextHandle} {es : List Entry}
    (h : HandleRepresents parent es) : Inheritable parent := by
  rw [← defined_iff_inheritable, Statements.Defined, h.initFromParent]
  rfl

omit [Platform] in
/-- Every context that is there is described by entries. -/
def Contexts.Represented (s : Contexts) : Prop :=
  ∀ i c, object s i = some c → ∃ es, Represents c.context es

omit [Platform] in
lemma Contexts.Represented.handle {s : Contexts} (h : s.Represented) {parent : Option ℕ}
    {p : LogContextHandle} (hp : s.handle parent = some p) : ∃ es, HandleRepresents p es := by
  cases parent with
  | none =>
    obtain rfl := Option.some.inj hp
    exact ⟨[], rfl⟩
  | some i =>
    obtain ⟨c, hc, rfl⟩ := Option.map_eq_some_iff.mp hp
    exact h i c hc

/-- Formatting succeeds in a call, and the bytes that its context needs fit in 32 bits. -/
def Contexts.Formats (s : Contexts) : ContextCall → Prop
  | .define _ parent fields => (∀ d ∈ fields, d.Formatted) ∧ ∀ p, s.handle parent = some p →
      internalLogContextGetValuesDataLengthOrZero p + 1 + dataBytes fields < 2 ^ 32
  | _ => True

/-- The context that a macro makes where formatting succeeds. -/
lemma exists_represents_run {p : LogContextHandle} {es : List Entry} (h : HandleRepresents p es)
    {fields : List FieldDesc} (hf : ∀ d ∈ fields, d.Formatted)
    (htotal : internalLogContextGetValuesDataLengthOrZero p + 1 + dataBytes fields < 2 ^ 32)
    {kind : ContextMacro} {c : LogContext} (hc : (kind.run p fields).context = some c) :
    ∃ es', Represents c es' := by
  by_cases haccepts : kind.Accepts p fields
  · rw [run_of_accepts haccepts] at hc
    exact ⟨_, represents_filled h hf htotal (dataLength_le_block haccepts) hc⟩
  · rw [run_of_not_accepts haccepts] at hc
    cases kind with
    | create malloc => cases hc
    | localDefine garbage =>
      obtain rfl := Option.some.inj hc
      exact ⟨[], represents_empty _⟩

/-- A call in which formatting succeeds leaves contexts that are described by entries. -/
lemma Contexts.Represented.step {s t : Contexts} (h : s.Represented) {call : ContextCall}
    (hformats : s.Formats call) {o : ContextOutput} (hstep : s.step call = some (t, o)) :
    t.Represented := by
  have hclose : ∀ {allocated i t'}, s.close allocated i = some t' → t'.Represented :=
    fun hgone i c hc => h i c ((object_close hgone).2 i c hc)
  cases call with
  | define kind parent fields =>
    obtain ⟨p, hp, hadd⟩ := step_define hstep
    obtain ⟨es, hes⟩ := h.handle hp
    cases hcontext : (kind.run p fields).context with
    | none =>
      rw [hcontext] at hadd
      obtain ⟨rfl, -⟩ := Prod.mk.inj hadd
      exact h
    | some c =>
      -- the new context represents its properties over those of the parent
      rw [hcontext] at hadd
      obtain ⟨rfl, -⟩ := Prod.mk.inj hadd
      intro i c' hc'
      rcases object_concat_eq_some hc' with hold | rfl
      · exact h i c' hold
      · exact exists_represents_run hes hformats.1 (hformats.2 p hp) hcontext
  | destroy context =>
    cases context with
    | none =>
      obtain ⟨rfl, -⟩ := Prod.mk.inj (Option.some.inj hstep)
      exact h
    | some i =>
      obtain ⟨t', hgone, heq⟩ := Option.map_eq_some_iff.mp hstep
      -- the contexts left are among those that were there
      obtain ⟨rfl, -⟩ := Prod.mk.inj heq
      exact hclose hgone
  | leave i =>
    obtain ⟨t', hgone, heq⟩ := Option.map_eq_some_iff.mp hstep
    obtain ⟨rfl, -⟩ := Prod.mk.inj heq
    exact hclose hgone
  | read context =>
    obtain ⟨c, -, heq⟩ := Option.map_eq_some_iff.mp hstep
    obtain ⟨rfl, -⟩ := Prod.mk.inj heq
    exact h

/-- A program in all of whose calls formatting succeeds has to mind the lifetimes of its contexts
only. -/
theorem contextMemory_safe_of_formats {calls : List ContextCall}
    (h : ∀ before call after, calls = before ++ call :: after →
      ∀ s os, run Contexts.step [] before = some (s, os) → s.Formats call)
    (l : List (Option Bool)) :
    (∃ m os, run ContextMemory.step [] calls = some (m, os) ∧ m.lifetimes = l) ↔
      calls.foldlM ContextCall.next [] = some l := by
  have hrepresented : ∀ before after, calls = before ++ after → ∀ s os,
      run Contexts.step [] before = some (s, os) → s.Represented := by
    intro before
    induction before using List.reverseRecOn with
    | nil =>
      intro after _ s os hrun i c hc
      obtain ⟨rfl, -⟩ := Prod.mk.inj (Option.some.inj hrun)
      cases hc
    | append_singleton before call ih =>
      intro after hcalls s os hrun
      obtain ⟨s', os', o, hbefore, hstep, -⟩ := run_concat.mp hrun
      rw [List.append_assoc, List.singleton_append] at hcalls
      exact (ih _ hcalls s' os' hbefore).step (h before call after hcalls s' os' hbefore) hstep
  rw [exists_run_memory_iff]
  refine (run_iff_foldlM step_lifetimes step_of_not_canInherit [] calls l).trans
    (and_iff_left_of_imp ?_)
  intro _ before call after hcalls s os hrun
  cases call with
  | define kind parent fields =>
    -- the parent represents its properties, so its pairs were filled in
    intro p hp _
    obtain ⟨es, hes⟩ := (hrepresented before _ hcalls s os hrun).handle hp
    exact hes.inheritable
  | destroy context => trivial
  | leave i => trivial
  | read context => trivial

/-! ### What is read -/

/-- A context that is there after a call was the same before. -/
lemma object_step {s t : Contexts} {call : ContextCall} {o : ContextOutput}
    (h : s.step call = some (t, o)) : s.length ≤ t.length ∧
      ∀ i < s.length, ∀ c, object t i = some c → object s i = some c := by
  cases call with
  | define kind parent fields =>
    obtain ⟨p, -, hadd⟩ := step_define h
    cases hcontext : (kind.run p fields).context with
    | none =>
      rw [hcontext] at hadd
      obtain ⟨rfl, -⟩ := Prod.mk.inj hadd
      exact ⟨le_refl _, fun _ _ _ hc => hc⟩
    | some c' =>
      -- the new one stands behind those there are
      rw [hcontext] at hadd
      obtain ⟨rfl, -⟩ := Prod.mk.inj hadd
      refine ⟨?_, fun i hi c hc => ?_⟩
      · rw [List.length_append]
        exact Nat.le_add_right _ _
      · rwa [object, List.getElem?_append_left hi] at hc
  | destroy context =>
    cases context with
    | none =>
      obtain ⟨rfl, -⟩ := Prod.mk.inj (Option.some.inj h)
      exact ⟨le_refl _, fun _ _ _ hc => hc⟩
    | some j =>
      -- a place is emptied, and none is filled again
      obtain ⟨t', hclose, heq⟩ := Option.map_eq_some_iff.mp h
      obtain ⟨rfl, -⟩ := Prod.mk.inj heq
      obtain ⟨hlength, hobject⟩ := object_close hclose
      exact ⟨hlength.ge, fun i _ => hobject i⟩
  | leave j =>
    obtain ⟨t', hclose, heq⟩ := Option.map_eq_some_iff.mp h
    obtain ⟨rfl, -⟩ := Prod.mk.inj heq
    obtain ⟨hlength, hobject⟩ := object_close hclose
    exact ⟨hlength.ge, fun i _ => hobject i⟩
  | read context =>
    obtain ⟨c', -, heq⟩ := Option.map_eq_some_iff.mp h
    obtain ⟨rfl, -⟩ := Prod.mk.inj heq
    exact ⟨le_refl _, fun _ _ _ hc => hc⟩

/-- A context that is there after a run was the same before. -/
lemma object_run {s t : Contexts} {calls : List ContextCall} {os : List ContextOutput}
    (h : run Contexts.step s calls = some (t, os)) : s.length ≤ t.length ∧
      ∀ i < s.length, ∀ c, object t i = some c → object s i = some c := by
  induction calls generalizing s os with
  | nil =>
    obtain ⟨rfl, -⟩ := Prod.mk.inj (Option.some.inj h)
    exact ⟨le_refl _, fun _ _ _ hc => hc⟩
  | cons call calls ih =>
    obtain ⟨s', o, os', hstep, hrest, -⟩ := run_cons h
    obtain ⟨hle, hobject⟩ := object_step hstep
    obtain ⟨hle', hobject'⟩ := ih hrest
    refine ⟨hle.trans hle', fun i hi c hc => ?_⟩
    exact hobject i hi c (hobject' i (hi.trans_le hle) c hc)

end

section

attribute [local instance] posix

/-- The context a call made. -/
def ContextOutput.newContext : ContextOutput → Option ℕ
  | .handle context => context
  | _               => none

end

end CLogging
