import CLogging.ToString.Algorithm

/-!
# The turns of the loop

A run of the loop of `log_n_properties` that returns goes turn by turn: each turn prints a property
or ends the loop with an error. What holds of all runs is shown by induction on the turns.
-/

namespace CLogging

open C Printf

/-! ### What was done -/

/-- A call that fails. -/
def PrintEvent.Fails : PrintEvent → Prop
  | .read _              => False
  | .call _ _ _ result _ => result < 0

instance : DecidablePred PrintEvent.Fails
  | .read _              => inferInstanceAs (Decidable False)
  | .call _ _ _ result _ => inferInstanceAs (Decidable (result < 0))

/-- No call that was made failed. -/
def NoFailure (log : List PrintEvent) : Prop := ∀ e ∈ log, ¬ e.Fails

instance : DecidablePred NoFailure :=
  fun log => inferInstanceAs (Decidable (∀ e ∈ log, ¬ e.Fails))

/-- Printing the name of a leaf fails. -/
def PrintEvent.NameFails : PrintEvent → Prop
  | .read _                 => False
  | .call site _ _ result _ => site = .leafName ∧ result < 0

instance : DecidablePred PrintEvent.NameFails
  | .read _                 => inferInstanceAs (Decidable False)
  | .call site _ _ result _ => inferInstanceAs (Decidable (site = .leafName ∧ result < 0))

lemma PrintEvent.NameFails.fails {e : PrintEvent} (h : e.NameFails) : e.Fails := by
  cases e with
  | read index => exact h
  | call site index room result bytes => exact h.2

/-- No call for the name of a leaf failed. -/
def NamesPrinted (log : List PrintEvent) : Prop := ∀ e ∈ log, ¬ e.NameFails

instance : DecidablePred NamesPrinted :=
  fun log => inferInstanceAs (Decidable (∀ e ∈ log, ¬ e.NameFails))

lemma NamesPrinted.mono {log log' : List PrintEvent} (h : NamesPrinted log') (hle : log <+: log') :
    NamesPrinted log := fun e he => h e (hle.subset he)

lemma NoFailure.namesPrinted {log : List PrintEvent} (h : NoFailure log) : NamesPrinted log :=
  fun e he hname => h e he hname.fails

/-- What is stored in the buffer. -/
def PrintEvent.bytes : PrintEvent → List UInt8
  | .read _             => []
  | .call _ _ _ _ bytes => bytes

/-- What is stored in the buffer one after the other. -/
def bytesStored (log : List PrintEvent) : List (List UInt8) := log.map PrintEvent.bytes

lemma bytesStored_append (log log' : List PrintEvent) :
    bytesStored (log ++ log') = bytesStored log ++ bytesStored log' := List.map_append

namespace PrintState

/-- A call and the step behind it: the call succeeds, and the pointer stays in the buffer. -/
def Succeeds (env : PrintEnv) (k : PrintCall) (s s' : PrintState) : Prop :=
  ¬ (s.call env k).1 < 0 ∧ (s.call env k).2.update (s.call env k).1 = some s'

/-- The step behind a nested call that does not fail. -/
def Returns (s inner s' : PrintState) : Prop :=
  ¬ inner.result < 0 ∧ (s.returned inner).update inner.result = some s'

/-- What is recorded of a call. -/
def event (env : PrintEnv) (k : PrintCall) (s : PrintState) : PrintEvent :=
  .call k.site k.index s.cursor.room (env.apply k s.cursor.room).1 (env.apply k s.cursor.room).2

variable {env : PrintEnv} {k : PrintCall} {s s' : PrintState}

lemma log_read_prefix (s : PrintState) (index : ℕ) : s.log <+: (s.read index).log :=
  List.prefix_append _ _

lemma log_call_prefix (env : PrintEnv) (k : PrintCall) (s : PrintState) :
    s.log <+: (s.call env k).2.log := List.prefix_append _ _

lemma update_frame {n : ℤ} (h : s.update n = some s') : s'.log = s.log ∧ s'.i = s.i := by
  rw [update] at h
  split_ifs at h
  obtain rfl := Option.some.inj h
  exact ⟨rfl, rfl⟩

lemma Succeeds.log_eq (h : s.Succeeds env k s') : s'.log = s.log ++ [event env k s] :=
  (update_frame h.2).1

lemma Succeeds.log_prefix (h : s.Succeeds env k s') : s.log <+: s'.log := by
  rw [h.log_eq]
  exact List.prefix_append _ _

lemma Returns.log_eq {inner : PrintState} (h : s.Returns inner s') : s'.log = inner.log :=
  (update_frame h.2).1

end PrintState

/-- The runs of the loop that return, with the state in which they do. -/
inductive LoopRun (env : PrintEnv) :
    ℕ → ℕ → List PropertyView → ℕ → PrintState → PrintState → Prop
  | stop {count depth : ℕ} {pairs : List PropertyView} {index : ℕ} {s : PrintState}
      (hguard : ¬ ((depth = 0 ∧ s.i < count) ∨ (depth > 0 ∧ s.added < count))) :
      LoopRun env count depth pairs index s s
  | openFails {count depth : ℕ} {p : PropertyView} {rest : List PropertyView} {index : ℕ}
      {s : PrintState} (hguard : (depth = 0 ∧ s.i < count) ∨ (depth > 0 ∧ s.added < count))
      (hstruct : p.type.getType = .struct)
      (hopen : ((s.read index).call env (p.openCall index)).1 < 0) :
      LoopRun env count depth (p :: rest) index s ((s.read index).call env (p.openCall index)).2.fail
  | fieldsFail {count depth : ℕ} {p : PropertyView} {rest : List PropertyView} {index : ℕ}
      {s s₁ inner : PrintState}
      (hguard : (depth = 0 ∧ s.i < count) ∨ (depth > 0 ∧ s.added < count))
      (hstruct : p.type.getType = .struct)
      (hopen : (s.read index).Succeeds env (p.openCall index) s₁)
      (hfields : LoopRun env p.fieldCount (depth + 1) rest (index + 1) s₁.nested inner)
      (hneg : inner.result < 0) :
      LoopRun env count depth (p :: rest) index s (s₁.returned inner).fail
  | closeFails {count depth : ℕ} {p : PropertyView} {rest : List PropertyView} {index : ℕ}
      {s s₁ inner s₂ : PrintState}
      (hguard : (depth = 0 ∧ s.i < count) ∨ (depth > 0 ∧ s.added < count))
      (hstruct : p.type.getType = .struct)
      (hopen : (s.read index).Succeeds env (p.openCall index) s₁)
      (hfields : LoopRun env p.fieldCount (depth + 1) rest (index + 1) s₁.nested inner)
      (hreturn : s₁.Returns inner s₂) (hclose : (s₂.call env (p.closeCall index)).1 < 0) :
      LoopRun env count depth (p :: rest) index s
        { (s₂.call env (p.closeCall index)).2.fail with i := s₂.i + inner.i }
  | struct {count depth : ℕ} {p : PropertyView} {rest : List PropertyView} {index : ℕ}
      {s s₁ inner s₂ s₃ s' : PrintState}
      (hguard : (depth = 0 ∧ s.i < count) ∨ (depth > 0 ∧ s.added < count))
      (hstruct : p.type.getType = .struct)
      (hopen : (s.read index).Succeeds env (p.openCall index) s₁)
      (hfields : LoopRun env p.fieldCount (depth + 1) rest (index + 1) s₁.nested inner)
      (hreturn : s₁.Returns inner s₂) (hclose : s₂.Succeeds env (p.closeCall index) s₃)
      (hbehind : LoopRun env count depth (rest.drop inner.i) (index + 1 + inner.i)
        { s₃ with i := s₃.i + inner.i + 1 } s') :
      LoopRun env count depth (p :: rest) index s s'
  | nameFails {count depth : ℕ} {p : PropertyView} {rest : List PropertyView} {index : ℕ}
      {s s' : PrintState} (hguard : (depth = 0 ∧ s.i < count) ∨ (depth > 0 ∧ s.added < count))
      (hleaf : p.type.getType ≠ .struct)
      (hname : ((s.read index).call env (p.nameCall index)).1 < 0)
      (hbehind : LoopRun env count depth rest (index + 1)
        { ((s.read index).call env (p.nameCall index)).2.fail with i := s.i + 1 } s') :
      LoopRun env count depth (p :: rest) index s s'
  | valueFails {count depth : ℕ} {p : PropertyView} {rest : List PropertyView} {index : ℕ}
      {s s₁ : PrintState} (hguard : (depth = 0 ∧ s.i < count) ∨ (depth > 0 ∧ s.added < count))
      (hleaf : p.type.getType ≠ .struct)
      (hname : (s.read index).Succeeds env (p.nameCall index) s₁)
      (hvalue : (s₁.call env (p.valueCall index)).1 < 0) :
      LoopRun env count depth (p :: rest) index s (s₁.call env (p.valueCall index)).2.fail
  | leaf {count depth : ℕ} {p : PropertyView} {rest : List PropertyView} {index : ℕ}
      {s s₁ s₂ s' : PrintState}
      (hguard : (depth = 0 ∧ s.i < count) ∨ (depth > 0 ∧ s.added < count))
      (hleaf : p.type.getType ≠ .struct)
      (hname : (s.read index).Succeeds env (p.nameCall index) s₁)
      (hvalue : s₁.Succeeds env (p.valueCall index) s₂)
      (hbehind : LoopRun env count depth rest (index + 1) { s₂ with i := s₂.i + 1 } s') :
      LoopRun env count depth (p :: rest) index s s'

/-- A run that returns goes turn by turn. -/
theorem loopRun_of_loop (env : PrintEnv) (count depth : ℕ) (pairs : List PropertyView) (index : ℕ)
    (s : PrintState) : ∀ {s' : PrintState},
    logNPropertiesLoop env count depth pairs index s = some s' →
      LoopRun env count depth pairs index s s' := by
  induction count, depth, pairs, index, s using logNPropertiesLoop.induct env
  case case1 count depth index s hguard =>
    intro s' h
    rw [logNPropertiesLoop, if_pos hguard] at h
    cases h
  case case2 count depth index s hguard p rest hstruct _ hopen =>
    intro s' h
    rw [logNPropertiesLoop, if_pos hguard] at h
    simp only [if_pos hstruct] at h
    rw [if_pos hopen] at h
    obtain rfl := Option.some.inj h
    exact .openFails hguard hstruct hopen
  case case3 count depth index s hguard p rest hstruct _ hopen ihc ih =>
    intro s' h
    rw [logNPropertiesLoop, if_pos hguard] at h
    simp only [if_pos hstruct] at h
    rw [if_neg hopen] at h
    obtain ⟨s₁, hs₁, h⟩ := Option.bind_eq_some_iff.mp h
    obtain ⟨inner, hinner, h⟩ := Option.bind_eq_some_iff.mp h
    split_ifs at h with hneg
    · -- the fields have failed: the loop is left
      obtain rfl := Option.some.inj h
      exact .fieldsFail hguard hstruct ⟨hopen, hs₁⟩ (ihc s₁ hinner) hneg
    obtain ⟨s₂, hs₂, h⟩ := Option.bind_eq_some_iff.mp h
    split_ifs at h with hclose
    · -- the closing text fails: the loop is left
      obtain rfl := Option.some.inj h
      exact .closeFails hguard hstruct ⟨hopen, hs₁⟩ (ihc s₁ hinner) ⟨hneg, hs₂⟩ hclose
    obtain ⟨s₃, hs₃, h⟩ := Option.bind_eq_some_iff.mp h
    exact .struct hguard hstruct ⟨hopen, hs₁⟩ (ihc s₁ hinner) ⟨hneg, hs₂⟩ ⟨hclose, hs₃⟩
      (ih inner s₃ s₃ h)
  case case4 count depth index s hguard p rest hleaf _ hname ih =>
    intro s' h
    rw [logNPropertiesLoop, if_pos hguard] at h
    simp only [if_neg hleaf] at h
    rw [if_pos hname] at h
    exact .nameFails hguard hleaf hname (ih h)
  case case5 count depth index s hguard p rest hleaf _ hname ih =>
    intro s' h
    rw [logNPropertiesLoop, if_pos hguard] at h
    simp only [if_neg hleaf] at h
    rw [if_neg hname] at h
    obtain ⟨s₁, hs₁, h⟩ := Option.bind_eq_some_iff.mp h
    split_ifs at h with hvalue
    · -- the value fails: the loop is left
      obtain rfl := Option.some.inj h
      exact .valueFails hguard hleaf ⟨hname, hs₁⟩ hvalue
    obtain ⟨s₂, hs₂, h⟩ := Option.bind_eq_some_iff.mp h
    exact .leaf hguard hleaf ⟨hname, hs₁⟩ ⟨hvalue, hs₂⟩ (ih s₁ s₂ h)
  case case6 count depth pairs index s hguard =>
    intro s' h
    rw [logNPropertiesLoop.eq_def, if_neg hguard] at h
    obtain rfl := Option.some.inj h
    exact .stop hguard

/-- The turns of a run determine what the loop returns. -/
theorem LoopRun.loop_eq {env : PrintEnv} {count depth : ℕ} {pairs : List PropertyView} {index : ℕ}
    {s s' : PrintState} (h : LoopRun env count depth pairs index s s') :
    logNPropertiesLoop env count depth pairs index s = some s' := by
  induction h with
  | stop hguard => rw [logNPropertiesLoop.eq_def, if_neg hguard]
  | openFails hguard hstruct hopen =>
    rw [logNPropertiesLoop, if_pos hguard]
    simp only [if_pos hstruct]
    rw [if_pos hopen]
  | fieldsFail hguard hstruct hopen _ hneg ihc =>
    rw [logNPropertiesLoop, if_pos hguard]
    simp only [if_pos hstruct]
    rw [if_neg hopen.1, hopen.2, Option.bind_some, ihc, Option.bind_some, if_pos hneg]
  | closeFails hguard hstruct hopen _ hreturn hclose ihc =>
    rw [logNPropertiesLoop, if_pos hguard]
    simp only [if_pos hstruct]
    rw [if_neg hopen.1, hopen.2, Option.bind_some, ihc, Option.bind_some, if_neg hreturn.1,
      hreturn.2, Option.bind_some, if_pos hclose]
  | struct hguard hstruct hopen _ hreturn hclose _ ihc ih =>
    rw [logNPropertiesLoop, if_pos hguard]
    simp only [if_pos hstruct]
    rw [if_neg hopen.1, hopen.2, Option.bind_some, ihc, Option.bind_some, if_neg hreturn.1,
      hreturn.2, Option.bind_some, if_neg hclose.1, hclose.2, Option.bind_some, ih]
  | nameFails hguard hleaf hname _ ih =>
    rw [logNPropertiesLoop, if_pos hguard]
    simp only [if_neg hleaf]
    rw [if_pos hname, ih]
  | valueFails hguard hleaf hname hvalue =>
    rw [logNPropertiesLoop, if_pos hguard]
    simp only [if_neg hleaf]
    rw [if_neg hname.1, hname.2, Option.bind_some, if_pos hvalue]
  | leaf hguard hleaf hname hvalue _ ih =>
    rw [logNPropertiesLoop, if_pos hguard]
    simp only [if_neg hleaf]
    rw [if_neg hname.1, hname.2, Option.bind_some, if_neg hvalue.1, hvalue.2, Option.bind_some, ih]

/-- A run adds to what was done before it. -/
lemma LoopRun.log_prefix {env : PrintEnv} {count depth : ℕ} {pairs : List PropertyView} {index : ℕ}
    {s s' : PrintState} (h : LoopRun env count depth pairs index s s') : s.log <+: s'.log := by
  induction h with
  | stop hguard => exact List.prefix_refl _
  | openFails hguard hstruct hopen =>
    exact (PrintState.log_read_prefix _ _).trans (PrintState.log_call_prefix _ _ _)
  | fieldsFail hguard hstruct hopen hfields hneg ihc =>
    exact (PrintState.log_read_prefix _ _).trans (hopen.log_prefix.trans ihc)
  | closeFails hguard hstruct hopen hfields hreturn hclose ihc =>
    have hinner := (PrintState.log_read_prefix _ _).trans (hopen.log_prefix.trans ihc)
    rw [← hreturn.log_eq] at hinner
    exact hinner.trans (PrintState.log_call_prefix _ _ _)
  | struct hguard hstruct hopen hfields hreturn hclose hbehind ihc ih =>
    have hinner := (PrintState.log_read_prefix _ _).trans (hopen.log_prefix.trans ihc)
    rw [← hreturn.log_eq] at hinner
    exact hinner.trans (hclose.log_prefix.trans ih)
  | nameFails hguard hleaf hname hbehind ih =>
    exact (PrintState.log_read_prefix _ _).trans ((PrintState.log_call_prefix _ _ _).trans ih)
  | valueFails hguard hleaf hname hvalue =>
    exact (PrintState.log_read_prefix _ _).trans
      (hname.log_prefix.trans (PrintState.log_call_prefix _ _ _))
  | leaf hguard hleaf hname hvalue hbehind ih =>
    exact (PrintState.log_read_prefix _ _).trans
      (hname.log_prefix.trans (hvalue.log_prefix.trans ih))

/-- The runs that return are those of the loop. -/
theorem loopRun_iff {env : PrintEnv} {count depth : ℕ} {pairs : List PropertyView} {index : ℕ}
    {s s' : PrintState} :
    LoopRun env count depth pairs index s s' ↔
      logNPropertiesLoop env count depth pairs index s = some s' :=
  ⟨LoopRun.loop_eq, loopRun_of_loop env count depth pairs index s⟩

end CLogging
