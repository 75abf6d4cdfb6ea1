import CLogging.Lib.CString
import CLogging.Lib.Machine
import CLogging.Lib.Pairing

/-!
# The logger

`logger_init` initialises the thread stack module and all configured sinks, `logger_deinit`
de-initialises them when it has been called as often. Both read the configured sinks at the time
of the call, as `logger_log` does.
-/

namespace CLogging

open C Pairing Machine

/-- `LOGGER_STATE`. -/
inductive LoggerState where
  | notInitialized | initialized
  deriving DecidableEq

/-- What the logger initialises. -/
inductive Resource (α : Type*) where
  | threadStack
  | sink (s : α)
  deriving DecidableEq

variable {α : Type*}

/-- The variables of the module, with the first `log_sink_count` elements of `log_sinks`. -/
structure Logger (α : Type*) where
  state     : LoggerState
  initCount : ℕ
  sinks     : List α

/-- The loop of `logger_init` over the sinks, given which calls of `init` succeed: the calls it
makes, and the index it stops at. -/
def initSinks (ok : ℕ → Bool) : ℕ → List α → List (Use (Resource α)) × ℕ
  | i, []      => ([], i)
  | i, s :: ss =>
    if ok i then
      (.acquire (.sink s) :: (initSinks ok (i + 1) ss).1, (initSinks ok (i + 1) ss).2)
    else ([.refused (.sink s)], i)

/-- The loops that call `deinit`. -/
def deinitSinks (sinks : List α) : List (Use (Resource α)) :=
  (sinks.map Resource.sink).map Use.release

/-- `logger_init`, given which calls succeed: whether it returns 0, and the calls it makes. -/
def loggerInit (threadStackOk : Bool) (ok : ℕ → Bool) (l : Logger α) :
    Logger α × Bool × List (Use (Resource α)) :=
  match l.state with
  | .initialized    => ({ l with initCount := u32 (l.initCount + 1) }, true, [])
  | .notInitialized =>
    if threadStackOk then
      let l := { l with initCount := 1 }
      let (uses, i) := initSinks ok 0 l.sinks
      if i < l.sinks.length then
        (l, false, .acquire .threadStack :: uses ++ deinitSinks (l.sinks.take i) ++
          [.release .threadStack])
      else ({ l with state := .initialized }, true, .acquire .threadStack :: uses)
    else (l, false, [.refused .threadStack])

/-- `logger_deinit`. -/
def loggerDeinit (l : Logger α) : Logger α × List (Use (Resource α)) :=
  match l.state with
  | .notInitialized => (l, [])
  | .initialized    =>
    let l := { l with initCount := u32 (l.initCount - 1) }
    if l.initCount = 0 then
      ({ l with state := .notInitialized }, deinitSinks l.sinks ++ [.release .threadStack])
    else (l, [])

/-- `logger_set_config`. -/
def loggerSetConfig (sinks : List α) (l : Logger α) : Logger α := { l with sinks := sinks }

/-- `logger_log`: the sinks whose `log` function it calls. `none` where it aborts the program. -/
def loggerLog (l : Logger α) : Option (List (Use (Resource α))) :=
  match l.state with
  | .notInitialized => none
  | .initialized    => some ((l.sinks.map Resource.sink).map Use.use)

/-- A call, with what the functions it calls return. -/
inductive LoggerCall (α : Type*) where
  | init (threadStackOk : Bool) (ok : ℕ → Bool)
  | deinit
  | setConfig (sinks : List α)
  | log

/-- What a call returns, and what it does to the sinks and the thread stack module. -/
inductive LoggerOutput (α : Type*) where
  | init (succeeded : Bool) (uses : List (Use (Resource α)))
  | deinit (uses : List (Use (Resource α)))
  | setConfig
  | log (uses : List (Use (Resource α)))

def LoggerOutput.uses : LoggerOutput α → List (Use (Resource α))
  | .init _ uses => uses
  | .deinit uses => uses
  | .setConfig   => []
  | .log uses    => uses

/-- One call. -/
def Logger.step (l : Logger α) : LoggerCall α → Option (Logger α × LoggerOutput α)
  | .init threadStackOk ok =>
    some ((loggerInit threadStackOk ok l).1, .init (loggerInit threadStackOk ok l).2.1
      (loggerInit threadStackOk ok l).2.2)
  | .deinit                => some ((loggerDeinit l).1, .deinit (loggerDeinit l).2)
  | .setConfig sinks       => some (loggerSetConfig sinks l, .setConfig)
  | .log                   => (loggerLog l).map fun uses => (l, .log uses)

/-- Everything that is done to the sinks and the thread stack module. -/
def allUses (outputs : List (LoggerOutput α)) : List (Use (Resource α)) :=
  outputs.flatMap LoggerOutput.uses

/-- The number of calls of `logger_init` that succeeded and were not undone. -/
def outstanding (outputs : List (LoggerOutput α)) : ℕ :=
  outputs.foldl (fun n output =>
    match output with
    | .init true _ => n + 1
    | .deinit _    => n - 1
    | _            => n) 0

/-- What is held while the logger is initialised with the given sinks. -/
def heldWith (sinks : List α) : Multiset (Resource α) :=
  .threadStack ::ₘ (sinks.map Resource.sink : List (Resource α))

/-! ### Single calls -/

lemma mem_heldWith {sinks : List α} {s : α} : Resource.sink s ∈ heldWith sinks ↔ s ∈ sinks := by
  simp [heldWith]

lemma allUses_concat (outputs : List (LoggerOutput α)) (o : LoggerOutput α) :
    allUses (outputs ++ [o]) = allUses outputs ++ o.uses := by
  rw [allUses, allUses, List.flatMap_append, List.flatMap_singleton]

lemma outstanding_concat (outputs : List (LoggerOutput α)) (o : LoggerOutput α) :
    outstanding (outputs ++ [o]) =
      match o with
      | .init true _ => outstanding outputs + 1
      | .deinit _    => outstanding outputs - 1
      | _            => outstanding outputs := by
  rw [outstanding, List.foldl_append]
  rfl

/-- The loop initialises all sinks, or some, and is then refused the next. -/
lemma initSinks_cases (ok : ℕ → Bool) (i : ℕ) (ss : List α) :
    initSinks ok i ss = ((ss.map Resource.sink).map Use.acquire, i + ss.length) ∨
    ∃ n s, n < ss.length ∧ initSinks ok i ss =
      (((ss.take n).map Resource.sink).map Use.acquire ++ [.refused (.sink s)], i + n) := by
  induction ss generalizing i with
  | nil => exact Or.inl rfl
  | cons s ss ih =>
    rw [initSinks]
    by_cases hok : ok i
    · rw [if_pos hok]
      rcases ih (i + 1) with hall | ⟨n, s', hn, hsome⟩
      · rw [hall]
        refine Or.inl ?_
        rw [List.length_cons, Nat.add_assoc, Nat.add_comm 1]
        rfl
      · -- this sink, and a later one that fails
        rw [hsome]
        refine Or.inr ⟨n + 1, s', Nat.succ_lt_succ hn, ?_⟩
        rw [List.take_succ_cons, Nat.add_assoc, Nat.add_comm 1]
        rfl
    · -- this sink fails: the loop ends before it takes anything
      rw [if_neg hok]
      exact Or.inr ⟨0, s, Nat.succ_pos _, rfl⟩

/-- What `logger_init` can do: count the call, fail because the thread stack module does, fail
because a sink does, and undo what it did, or initialise everything. -/
lemma loggerInit_cases (threadStackOk : Bool) (ok : ℕ → Bool) (l : Logger α) :
    (l.state = .initialized ∧ loggerInit threadStackOk ok l =
      ({ l with initCount := u32 (l.initCount + 1) }, true, [])) ∨
    (l.state = .notInitialized ∧
      loggerInit threadStackOk ok l = (l, false, [.refused .threadStack])) ∨
    (l.state = .notInitialized ∧ ∃ n s, loggerInit threadStackOk ok l =
      ({ l with initCount := 1 }, false, .acquire .threadStack ::
        (((l.sinks.take n).map Resource.sink).map Use.acquire ++ [.refused (.sink s)]) ++
          deinitSinks (l.sinks.take n) ++ [.release .threadStack])) ∨
    (l.state = .notInitialized ∧ loggerInit threadStackOk ok l =
      ({ l with state := .initialized, initCount := 1 }, true,
        .acquire .threadStack :: (l.sinks.map Resource.sink).map Use.acquire)) := by
  rw [loggerInit]
  match hstate : l.state with
  | .initialized => exact Or.inl ⟨rfl, rfl⟩
  | .notInitialized =>
    cases threadStackOk with
    | false => exact Or.inr (Or.inl ⟨rfl, rfl⟩)
    | true =>
      refine Or.inr (Or.inr ?_)
      simp only [if_true]
      rcases initSinks_cases ok 0 l.sinks with hall | ⟨n, s, hn, hsome⟩
      · rw [hall]
        simp only [Nat.zero_add, Nat.lt_irrefl, if_false]
        exact Or.inr ⟨trivial, trivial⟩
      · -- a sink failed: the ones before it and the thread stack are undone, the count stays at 1
        rw [hsome]
        simp only [Nat.zero_add, if_pos hn]
        exact Or.inl ⟨trivial, n, s, rfl⟩

/-- What `logger_deinit` can do: nothing, count the call, or de-initialise everything. -/
lemma loggerDeinit_cases (l : Logger α) :
    (l.state = .notInitialized ∧ loggerDeinit l = (l, [])) ∨
    (l.state = .initialized ∧ u32 (l.initCount - 1) ≠ 0 ∧
      loggerDeinit l = ({ l with initCount := u32 (l.initCount - 1) }, [])) ∨
    (l.state = .initialized ∧ u32 (l.initCount - 1) = 0 ∧ loggerDeinit l =
      ({ l with state := .notInitialized, initCount := 0 },
        deinitSinks l.sinks ++ [.release .threadStack])) := by
  rw [loggerDeinit]
  match hstate : l.state with
  | .notInitialized => exact Or.inl ⟨rfl, rfl⟩
  | .initialized =>
    refine Or.inr ?_
    simp only
    by_cases hzero : u32 (l.initCount - 1) = 0
    · rw [if_pos hzero, hzero]
      exact Or.inr ⟨trivial, rfl, rfl⟩
    · rw [if_neg hzero]
      exact Or.inl ⟨trivial, hzero, rfl⟩

/-! ### What the calls do to the resources -/

variable [DecidableEq α]

/-- A `logger_init` that is undone leaves everything as it was. -/
lemma exec_undone (held : Multiset (Resource α)) (ss : List α) (s : α) :
    exec held (.acquire .threadStack :: ((ss.map Resource.sink).map Use.acquire ++
      [.refused (.sink s)]) ++ deinitSinks ss ++ [.release .threadStack]) = some held := by
  rw [List.append_assoc, List.cons_append, exec, Use.exec, Option.bind_some, List.append_assoc,
    exec_append, exec_acquire, Option.bind_some, List.singleton_append, exec, Use.exec,
    Option.bind_some, exec_append, deinitSinks, exec_release_iff.mpr rfl, Option.bind_some, exec,
    Use.exec, if_pos (Multiset.mem_cons_self _ _), Multiset.erase_cons_head]
  rfl

lemma exec_initialised (sinks : List α) :
    exec 0 (.acquire .threadStack :: (sinks.map Resource.sink).map Use.acquire) =
      some (heldWith sinks) := by
  rw [exec, Use.exec, Option.bind_some, exec_acquire, Multiset.add_cons, add_zero]
  rfl

/-- De-initialising releases everything exactly if the sinks are those that are held, in any
order. -/
lemma exec_deinitialised_iff {sinks sinks' : List α} :
    exec (heldWith sinks') (deinitSinks sinks ++ [.release .threadStack]) = some 0 ↔
      sinks.Perm sinks' := by
  have huses : deinitSinks sinks ++ [.release .threadStack] =
      (sinks.map Resource.sink ++ [Resource.threadStack]).map Use.release := by
    rw [List.map_append]
    rfl
  have hinjective : Function.Injective (Resource.sink : α → Resource α) :=
    fun _ _ h => Resource.sink.inj h
  rw [huses, exec_release_iff, add_zero, heldWith, Multiset.cons_coe, Multiset.coe_eq_coe]
  constructor
  · intro h
    have hsinks := (h.trans (List.perm_append_singleton _ _)).cons_inv
    exact ((List.map_perm_map_iff hinjective).mp hsinks).symm
  · intro h
    exact ((h.symm.map Resource.sink).cons _).trans (List.perm_append_singleton _ _).symm

end CLogging
