import CLogging.Lib.Deadlock
import CLogging.Stack.Released
import CLogging.Stack.Truthful

/-!
# Calls from several threads

`get_thread_stack` and `get_thread_stack_refresh_module_list` are called from any thread. They call
the functions of the symbol handler, which are made for one thread, under the lock of the module.
-/

namespace CLogging

open C Machine Threads

/-- The functions of the symbol handler. -/
def StackEvent.isSymCall : StackEvent → Bool
  | .symInitialize _ _ _ | .symCleanup _ _ | .symRefreshModuleList _ _ => true
  | .symFromAddr _ _ | .symGetLineFromAddr64 _ _ => true
  | _ => false

/-- What a call does to the lock, and to the thread whose stack is taken. -/
def StackEvent.action (threadId : UInt32) : StackEvent → Action UInt32 StackEvent
  | .acquireSRWLockExclusive => .acquire
  | .releaseSRWLockExclusive => .release
  | .suspendThread true      => .suspend threadId
  | .resumeThread true       => .resume threadId
  | e                        => .act e

/-- The thread whose stack is taken. -/
def StackCall.threadId : StackCall → UInt32
  | .getThreadStack _ threadId _ => threadId
  | _                            => 0

/-- The steps of a call. -/
def StackCall.actions (g : SymbolHandler) (c : StackCall) :
    Option (List (Action UInt32 StackEvent)) :=
  (g.step c).map fun x => x.2.map (StackEvent.action c.threadId)

/-- The steps of some calls made one after the other. -/
def program (g : SymbolHandler) : List StackCall → Option (List (Action UInt32 StackEvent))
  | []      => some []
  | c :: cs => (c.actions g).bind fun as => (program g cs).map (as ++ ·)

/-- The thread may make the call while other threads make theirs. -/
def StackCall.MadeBy (t : UInt32) : StackCall → Prop
  | .getThreadStack env _ _ => env.currentThreadId = t
  | .refreshModuleList _    => True
  | .init _ | .deinit _ _   => False

/-- Some threads with the calls they make, all of which return, and the steps these consist of. -/
structure Concurrent (g : SymbolHandler) (calls : UInt32 → List StackCall)
    (programs : UInt32 → List (Action UInt32 StackEvent)) : Prop where
  madeBy  : ∀ t, ∀ c ∈ calls t, c.MadeBy t
  returns : ∀ t, program g (calls t) = some (programs t)

/-- The calls of the symbol handler that a call makes under the lock, if it takes the lock. -/
def StackCall.symCalls (g : SymbolHandler) (c : StackCall) : Option (List StackEvent) :=
  (g.step c).bind fun x =>
    if .acquireSRWLockExclusive ∈ x.2 then some (x.2.filter StackEvent.isSymCall) else none

/-! ### The steps of a call -/

/-- The context of the thread is read. -/
def ThreadEnv.Captures (env : ThreadEnv) (threadId : UInt32) : Prop :=
  env.currentThreadId = threadId ∨ env.suspendThread ∧ env.getThreadContext

lemma captureContext_fst (env : ThreadEnv) (threadId : UInt32) (s : WalkState) :
    (captureContext env threadId s).1 = true ↔ env.Captures threadId := by
  rw [captureContext, ThreadEnv.Captures]
  by_cases hcurrent : env.currentThreadId = threadId
  · simp [hcurrent]
  · by_cases hsuspend : env.suspendThread
    · by_cases hcontext : env.getThreadContext
      · simp [hcurrent, hsuspend, hcontext]
      · simp [hcurrent, hsuspend, hcontext]
    · simp [hcurrent, hsuspend]

/-- The critical section of a call: the lock is taken, some calls are made, and it is released. -/
def critical (events : List StackEvent) : List StackEvent :=
  .acquireSRWLockExclusive :: (events ++ [.releaseSRWLockExclusive])

/-- A call that neither takes or releases the lock, nor suspends or resumes a thread. -/
def StackEvent.IsAct (e : StackEvent) : Prop := ∀ threadId, e.action threadId = .act e

/-- What `get_thread_stack` can do: nothing, or fail to open the thread, or read its context and look
up its frames under the lock, or not. -/
lemma getThreadStack_events {g : SymbolHandler} {env : ThreadEnv} {threadId : UInt32}
    {destination : Option (List UInt8)} {r : ThreadStack}
    (h : getThreadStack g env threadId destination = some r) :
    r.events = [] ∨ r.events = [.openThread none] ∨ ∃ hThread body,
      env.openThread = some hThread ∧ r.events = .openThread (some hThread) :: captureEvents env threadId ++ body ++
        endEvents env threadId ∧
      ((env.Captures threadId ∧ ∃ lookups, body = critical lookups ∧
          ∀ e ∈ lookups, e.IsAct ∧ e.isSymCall = true) ∨
        ¬ env.Captures threadId ∧ body = []) := by
  cases destination with
  | none =>
    obtain rfl := Option.some.inj h
    exact Or.inl rfl
  | some mem =>
    rw [getThreadStack] at h
    by_cases hlength : mem.length = 0
    · simp only [if_pos hlength] at h
      obtain rfl := Option.some.inj h
      exact Or.inl rfl
    by_cases hstate : g.symbolsState ≠ .initialized
    · simp only [if_neg hlength, if_pos hstate] at h
      obtain rfl := Option.some.inj h
      exact Or.inl rfl
    cases hopen : env.openThread with
    | none =>
      simp only [if_neg hlength, if_neg hstate, hopen] at h
      obtain rfl := Option.some.inj h
      exact Or.inr (Or.inl rfl)
    | some hThread =>
      simp only [if_neg hlength, if_neg hstate, hopen] at h
      obtain ⟨s, hbody, rfl⟩ := Option.map_eq_some_iff.mp h
      refine Or.inr (Or.inr ⟨hThread, ?_⟩)
      rw [finish_events]
      by_cases hcaptures : env.Captures threadId
      · rw [if_neg (not_not.mpr ((captureContext_fst env threadId _).mpr hcaptures)),
          walkLocked] at hbody
        obtain ⟨t, ht, rfl⟩ := Option.map_eq_some_iff.mp hbody
        obtain ⟨lookups, hlookups, hall⟩ := walk_events ht
        refine ⟨critical lookups, rfl, ?_, Or.inl ⟨hcaptures, lookups, rfl, fun e he => ?_⟩⟩
        · simp only [hlookups, captureContext_events, critical, List.append_assoc,
            List.cons_append, List.nil_append]
        · rcases hall e he with ⟨pc, rfl⟩ | ⟨pc, rfl⟩
          · exact ⟨fun _ => rfl, rfl⟩
          · exact ⟨fun _ => rfl, rfl⟩
      · rw [if_pos (mt (captureContext_fst env threadId _).mp hcaptures)] at hbody
        obtain rfl := Option.some.inj hbody
        refine ⟨[], rfl, ?_, Or.inr ⟨hcaptures, rfl⟩⟩
        rw [captureContext_events, List.append_nil]
        rfl

/-! ### The shape of a call -/

/-- Nothing is called that needs the lock, and no context of a thread is read. -/
def Outside (es : List StackEvent) : Prop :=
  ∀ e ∈ es, e.isSymCall = false ∧ e ≠ .getThreadContext true

/-- A critical section, with the calls of the symbol handler in it, or nothing. -/
inductive Body : List (Action UInt32 StackEvent) → Option (List StackEvent) → Prop
  | skipped : Body [] none
  | locked {inner : List StackEvent} (hinner : .getThreadContext true ∉ inner) :
      Body (.acquire :: (inner.map .act ++ [.release])) (some (inner.filter StackEvent.isSymCall))

/-- The steps of a call from a thread: something that needs no lock, and a critical section, for which
another thread may be suspended. It may stay suspended. -/
inductive Shape (t : UInt32) :
    List (Action UInt32 StackEvent) → Option (List StackEvent) → Bool → Prop
  | alone {before after : List StackEvent} {body : List (Action UInt32 StackEvent)}
      {syms : Option (List StackEvent)} (hbefore : Outside before) (hbody : Body body syms)
      (hafter : Outside after) :
      Shape t (before.map .act ++ (body ++ after.map .act)) syms false
  | suspends {u : UInt32} (hne : u ≠ t) {before after : List StackEvent}
      {body : List (Action UInt32 StackEvent)} {syms : Option (List StackEvent)} {stays : Bool}
      (hbefore : Outside before) (hbody : Body body syms) (hafter : Outside after) :
      Shape t (before.map .act ++ .suspend u :: .act (.getThreadContext syms.isSome) ::
        (body ++ ((if stays then [] else [.resume u]) ++ after.map .act))) syms stays

/-- The thread whose stack is taken does not stay suspended. -/
def StackCall.ResumesThread : StackCall → Prop
  | .getThreadStack env threadId _ => ¬ env.StaysSuspended threadId
  | _                              => True

lemma map_action_of_isAct {es : List StackEvent} (h : ∀ e ∈ es, e.IsAct) (threadId : UInt32) :
    es.map (StackEvent.action threadId) = es.map .act :=
  List.map_congr_left fun e he => h e he threadId

lemma body_critical {es : List StackEvent} (h : ∀ e ∈ es, e.IsAct ∧ e ≠ .getThreadContext true)
    (threadId : UInt32) :
    Body ((critical es).map (StackEvent.action threadId)) (some (es.filter StackEvent.isSymCall)) := by
  rw [critical, List.map_cons, List.map_append, map_action_of_isAct fun e he => (h e he).1]
  exact .locked fun hmem => (h _ hmem).2 rfl

lemma filter_critical (es : List StackEvent) :
    (critical es).filter StackEvent.isSymCall = es.filter StackEvent.isSymCall := by
  simp [critical, StackEvent.isSymCall]

/-- The calls of the symbol handler among some events, if the lock is taken. -/
def lockedCalls (events : List StackEvent) : Option (List StackEvent) :=
  if .acquireSRWLockExclusive ∈ events then some (events.filter StackEvent.isSymCall) else none

/-- The calls before and behind a critical section do not need the lock. -/
lemma lockedCalls_critical {before after es : List StackEvent}
    (hbefore : ∀ e ∈ before, e.isSymCall = false) (hafter : ∀ e ∈ after, e.isSymCall = false) :
    lockedCalls (before ++ critical es ++ after) = some (es.filter StackEvent.isSymCall) := by
  have hmem : .acquireSRWLockExclusive ∈ before ++ critical es ++ after :=
    List.mem_append_left _ (List.mem_append_right _ List.mem_cons_self)
  have hnil : ∀ {es : List StackEvent}, (∀ e ∈ es, e.isSymCall = false) →
      es.filter StackEvent.isSymCall = [] := fun h =>
    List.filter_eq_nil_iff.mpr fun e he => by simp [h e he]
  rw [lockedCalls, if_pos hmem, List.filter_append, List.filter_append, hnil hbefore, hnil hafter,
    List.nil_append, List.append_nil, filter_critical]

/-- The steps behind opening the thread. -/
lemma shape_opened {env : ThreadEnv} {threadId : UInt32} {hThread : ℕ}
    (hopen : env.openThread = some hThread) {body : List StackEvent} {syms : Option (List StackEvent)}
    (hbody : Body (body.map (StackEvent.action threadId)) syms)
    (hcaptures : env.Captures threadId ↔ syms.isSome = true) :
    ∃ stays, Shape env.currentThreadId
        ((.openThread (some hThread) :: captureEvents env threadId ++ body ++
          endEvents env threadId).map (StackEvent.action threadId)) syms stays ∧
      (¬ env.StaysSuspended threadId → stays = false) := by
  have hopened : Outside [.openThread (some hThread)] := by simp [Outside, StackEvent.isSymCall]
  have hclose : Outside [.closeHandle env.openThread env.closeHandle] := by
    simp [Outside, StackEvent.isSymCall]
  rw [List.map_append, List.map_append, List.map_cons, captureEvents, endEvents]
  by_cases hcurrent : env.currentThreadId = threadId
  · -- the thread looks at its own stack: nothing is suspended
    rw [if_pos hcurrent, if_neg fun h => h.1 hcurrent, List.append_assoc]
    refine ⟨false, @Shape.alone _ [.openThread (some hThread), .rtlCaptureContext] _ _ _ ?_ hbody
      hclose, fun _ => rfl⟩
    simp [Outside, StackEvent.isSymCall]
  rw [if_neg hcurrent]
  by_cases hsuspend : env.suspendThread
  · have hcontext : env.getThreadContext = syms.isSome := by
      rw [Bool.eq_iff_iff, ← hcaptures, ThreadEnv.Captures, or_iff_right hcurrent,
        and_iff_right hsuspend]
    rw [if_neg (not_not.mpr hsuspend), if_pos ⟨hcurrent, hsuspend⟩, hcontext, List.append_assoc]
    by_cases hresume : env.resumeThread
    · -- suspended, and resumed at the end
      rw [if_neg (not_not.mpr hresume)]
      exact ⟨false, @Shape.suspends _ _ (Ne.symm hcurrent) _ _ _ _ false hopened hbody hclose, fun _ => rfl⟩
    · -- ResumeThread failed: the thread stays suspended, and the handle open
      rw [if_pos hresume]
      refine ⟨true, @Shape.suspends _ _ (Ne.symm hcurrent) _ [.resumeThread false] _ _ true hopened
        hbody ?_, fun hstays => (hstays ⟨?_, hcurrent, hsuspend, hresume⟩).elim⟩
      · simp [Outside, StackEvent.isSymCall]
      · rw [hopen]
        exact Option.some_ne_none hThread
  · rw [if_pos hsuspend, if_neg fun h => hsuspend h.2, List.append_assoc]
    refine ⟨false, @Shape.alone _ [.openThread (some hThread), .suspendThread false] _ _ _ ?_ hbody
      hclose, fun _ => rfl⟩
    simp [Outside, StackEvent.isSymCall]

/-- The steps of `get_thread_stack`. -/
lemma shape_getThreadStack {g : SymbolHandler} {env : ThreadEnv} {threadId : UInt32}
    {destination : Option (List UInt8)} {r : ThreadStack}
    (h : getThreadStack g env threadId destination = some r) :
    ∃ stays, Shape env.currentThreadId (r.events.map (StackEvent.action threadId))
        (lockedCalls r.events) stays ∧ (¬ env.StaysSuspended threadId → stays = false) := by
  have hnone : Outside [] := fun e he => absurd he List.not_mem_nil
  rcases getThreadStack_events h with hnil | hfailed | ⟨hThread, body, hopen, hevents, hbody⟩
  · rw [hnil]
    exact ⟨false, @Shape.alone _ [] [] _ _ hnone .skipped hnone, fun _ => rfl⟩
  · rw [hfailed]
    refine ⟨false, @Shape.alone _ [.openThread none] [] _ _ ?_ .skipped hnone,
      fun _ => rfl⟩
    simp [Outside, StackEvent.isSymCall]
  have hbefore : ∀ e ∈ StackEvent.openThread (some hThread) :: captureEvents env threadId,
      e.isSymCall = false ∧ e ≠ .acquireSRWLockExclusive := by
    rw [captureEvents]
    split_ifs <;> simp [StackEvent.isSymCall]
  have hafter : ∀ e ∈ endEvents env threadId,
      e.isSymCall = false ∧ e ≠ .acquireSRWLockExclusive := by
    rw [endEvents]
    split_ifs <;> simp [StackEvent.isSymCall]
  rcases hbody with ⟨hcaptures, lookups, rfl, hlookups⟩ | ⟨hnot, rfl⟩
  · -- the lookups stand under the lock
    rw [hevents, lockedCalls_critical (fun e he => (hbefore e he).1) fun e he => (hafter e he).1]
    refine shape_opened hopen (body_critical (fun e he => ⟨(hlookups e he).1, ?_⟩) threadId)
      (iff_of_true hcaptures rfl)
    rintro rfl
    cases (hlookups _ he).2
  · -- the lock was not taken
    have hnotMem : .acquireSRWLockExclusive ∉ r.events := by
      rw [hevents, List.append_nil, List.mem_append]
      rintro (hmem | hmem)
      · exact (hbefore _ hmem).2 rfl
      · exact (hafter _ hmem).2 rfl
    rw [lockedCalls, if_neg hnotMem, hevents]
    exact shape_opened hopen .skipped (iff_of_false hnot Bool.false_ne_true)

/-- The steps of `get_thread_stack_refresh_module_list`. -/
lemma shape_refreshModuleList {g : SymbolHandler} {env : RefreshEnv} {events : List StackEvent}
    (h : getThreadStackRefreshModuleList env g = some events) (t threadId : UInt32) :
    Shape t (events.map (StackEvent.action threadId)) (lockedCalls events) false := by
  have hnone : Outside [] := fun e he => absurd he List.not_mem_nil
  have hcritical : ∀ es : List StackEvent, (∀ e ∈ es, e.IsAct ∧ e ≠ .getThreadContext true) →
      Shape t ((critical es).map (StackEvent.action threadId)) (lockedCalls (critical es)) false := by
    intro es hes
    have hlocked := @lockedCalls_critical [] [] es (fun e he => absurd he List.not_mem_nil)
      fun e he => absurd he List.not_mem_nil
    rw [List.nil_append, List.append_nil] at hlocked
    have hshape := @Shape.alone t [] [] _ _ hnone (body_critical hes threadId) hnone
    rw [List.map_nil, List.nil_append, List.append_nil] at hshape
    rwa [hlocked]
  rw [getThreadStackRefreshModuleList] at h
  by_cases hstate : g.symbolsState ≠ .initialized
  · rw [if_pos hstate] at h
    obtain rfl := Option.some.inj h
    exact @Shape.alone _ [] [] _ _ hnone .skipped hnone
  rw [if_neg hstate] at h
  cases hsnapshot : env.createToolhelp32Snapshot with
  | none =>
    -- without a snapshot SymRefreshModuleList stands in the section
    rw [hsnapshot] at h
    obtain rfl := Option.some.inj h
    refine hcritical [.createToolhelp32Snapshot none,
      .symRefreshModuleList g.processHandle env.symRefreshModuleList] ?_
    simp [StackEvent.IsAct, StackEvent.action]
  | some snapshot =>
    rw [hsnapshot] at h
    obtain ⟨s, hs, hrest⟩ := Option.bind_eq_some_iff.mp h
    obtain ⟨inner, hinner, rfl⟩ := Option.map_eq_some_iff.mp hrest
    refine hcritical ([.createToolhelp32Snapshot (some snapshot),
      .closeHandle (some snapshot) env.closeHandle] ++ inner) ?_
    rw [reinitialization] at hinner
    split_ifs at hinner
    · -- no search path: the section ends with the handle of the snapshot
      obtain rfl := Option.some.inj hinner
      simp [StackEvent.IsAct, StackEvent.action]
    · -- the symbol handler is initialised again in the section
      obtain rfl := Option.some.inj hinner
      simp [StackEvent.IsAct, StackEvent.action]

/-- The steps of any call that a thread makes. -/
lemma shape_of_madeBy {g : SymbolHandler} {c : StackCall} {t : UInt32} (hc : c.MadeBy t)
    {as : List (Action UInt32 StackEvent)} (has : c.actions g = some as) :
    ∃ stays, Shape t as (c.symCalls g) stays ∧ (c.ResumesThread → stays = false) := by
  obtain ⟨⟨g', events⟩, hstep, rfl⟩ := Option.map_eq_some_iff.mp has
  rw [StackCall.symCalls, hstep, Option.bind_some]
  match c with
  | .init env => cases hc
  | .deinit symCleanup closeHandle => cases hc
  | .refreshModuleList env =>
    obtain ⟨inner, hinner, heq⟩ := Option.map_eq_some_iff.mp hstep
    obtain ⟨rfl, rfl⟩ := Prod.mk.inj heq
    exact ⟨false, shape_refreshModuleList hinner t 0, fun _ => rfl⟩
  | .getThreadStack env threadId destination =>
    obtain ⟨r, hr, heq⟩ := Option.map_eq_some_iff.mp hstep
    obtain ⟨rfl, rfl⟩ := Prod.mk.inj heq
    obtain rfl : env.currentThreadId = t := hc
    exact shape_getThreadStack hr

/-! ### Programs -/

lemma Outside.not_isSymCall {es : List StackEvent} (h : Outside es) {held : Bool} :
    ∀ e ∈ es, e.isSymCall → held = true := by
  intro e he hsym
  rw [(h e he).1] at hsym
  cases hsym

lemma Body.locks {body as : List (Action UInt32 StackEvent)} {syms : Option (List StackEvent)}
    (h : Body body syms) (has : Locks StackEvent.isSymCall false as) :
    Locks StackEvent.isSymCall false (body ++ as) := by
  cases h with
  | skipped => exact has
  | locked hinner =>
    rw [List.cons_append, List.append_assoc]
    exact ⟨rfl, locks_acts (fun _ _ _ => rfl) ⟨rfl, has⟩⟩

lemma Body.sections {body : List (Action UInt32 StackEvent)} {syms : Option (List StackEvent)}
    (h : Body body syms) (as : List (Action UInt32 StackEvent)) :
    sections StackEvent.isSymCall (body ++ as) =
      syms.toList ++ sections StackEvent.isSymCall as := by
  cases h with
  | skipped => rfl
  | locked hinner =>
    rw [List.cons_append, List.append_assoc, Threads.sections, inside_acts, sections_acts]
    simp [inside, Threads.sections]

lemma Body.resumes {body as : List (Action UInt32 StackEvent)} {syms : Option (List StackEvent)}
    (h : Body body syms) {t : UInt32} {held : List UInt32} (has : Resumes t held as) :
    Resumes t held (body ++ as) := by
  cases h with
  | skipped => exact has
  | locked hinner =>
    rw [List.cons_append, List.append_assoc]
    exact resumes_acts _ has

lemma Shape.locks {t : UInt32} {as : List (Action UInt32 StackEvent)}
    {syms : Option (List StackEvent)} {stays : Bool} (h : Shape t as syms stays) :
    Locks StackEvent.isSymCall false as := by
  have hacts : ∀ {es : List StackEvent}, Outside es →
      Locks StackEvent.isSymCall false (es.map (.act (τ := UInt32))) := by
    intro es hes
    rw [← List.append_nil (es.map _)]
    exact locks_acts hes.not_isSymCall rfl
  cases h with
  | alone hbefore hbody hafter =>
    exact locks_acts hbefore.not_isSymCall (hbody.locks (hacts hafter))
  | suspends hne hbefore hbody hafter =>
    refine locks_acts hbefore.not_isSymCall ⟨rfl, nofun, hbody.locks ?_⟩
    cases stays with
    | false => exact ⟨rfl, hacts hafter⟩
    | true => exact hacts hafter

lemma Shape.sections {t : UInt32} {as : List (Action UInt32 StackEvent)}
    {syms : Option (List StackEvent)} {stays : Bool} (h : Shape t as syms stays) :
    sections StackEvent.isSymCall as = syms.toList := by
  have hacts : ∀ es : List StackEvent,
      Threads.sections StackEvent.isSymCall (es.map (.act (τ := UInt32))) = [] := by
    intro es
    have hsections := sections_acts (P := StackEvent.isSymCall) (τ := UInt32) es []
    rwa [List.append_nil] at hsections
  cases h with
  | alone hbefore hbody hafter =>
    rw [sections_acts, hbody.sections, hacts, List.append_nil]
  | suspends hne hbefore hbody hafter =>
    rw [sections_acts]
    refine (hbody.sections _).trans ?_
    cases stays with
    | false => exact (congrArg _ (hacts _)).trans (List.append_nil _)
    | true => exact (congrArg _ (hacts _)).trans (List.append_nil _)

lemma Shape.resumes {t : UInt32} {as : List (Action UInt32 StackEvent)}
    {syms : Option (List StackEvent)} (h : Shape t as syms false) : Resumes t [] as := by
  have hacts : ∀ es : List StackEvent, Resumes t [] (es.map (.act (τ := UInt32))) := by
    intro es
    rw [← List.append_nil (es.map _)]
    exact resumes_acts es rfl
  cases h with
  | alone hbefore hbody hafter => exact resumes_acts _ (hbody.resumes (hacts _))
  | suspends hne hbefore hbody hafter =>
    refine resumes_acts _ ⟨hne, hbody.resumes ?_⟩
    rw [if_neg Bool.false_ne_true, List.singleton_append, Resumes, List.erase_cons_head]
    exact hacts _

/-- What the calls of a thread consist of. -/
lemma program_spec {g : SymbolHandler} {t : UInt32} {calls : List StackCall}
    (hcalls : ∀ c ∈ calls, c.MadeBy t) {as : List (Action UInt32 StackEvent)}
    (has : program g calls = some as) :
    Locks StackEvent.isSymCall false as ∧
      sections StackEvent.isSymCall as = calls.filterMap (StackCall.symCalls g) ∧
      ((∀ c ∈ calls, c.ResumesThread) → Resumes t [] as) := by
  induction calls generalizing as with
  | nil =>
    obtain rfl := Option.some.inj has
    exact ⟨rfl, rfl, fun _ => rfl⟩
  | cons c calls ih =>
    obtain ⟨bs, hbs, hrest⟩ := Option.bind_eq_some_iff.mp has
    obtain ⟨cs, hcs, rfl⟩ := Option.map_eq_some_iff.mp hrest
    rw [List.forall_mem_cons] at hcalls
    obtain ⟨hlocks, hsections, hresumes⟩ := ih hcalls.2 hcs
    obtain ⟨stays, hshape, hstays⟩ := shape_of_madeBy hcalls.1 hbs
    refine ⟨locks_append hshape.locks hlocks, ?_, fun hall => ?_⟩
    · -- the sections of this call stand before those of the ones behind it
      rw [sections_append hshape.locks, hshape.sections, hsections, List.filterMap_cons]
      match c.symCalls g with
      | none => rfl
      | some es => rfl
    · -- a call that resumes what it suspends leaves nothing open
      rw [List.forall_mem_cons] at hall
      rw [hstays hall.1] at hshape
      exact resumes_append hshape.resumes (hresumes hall.2)

end CLogging
