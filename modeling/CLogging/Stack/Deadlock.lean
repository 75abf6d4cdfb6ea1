import CLogging.Stack.Serialized

/-!
# Threads that suspend one another

`get_thread_stack` suspends the thread before it takes the lock. If that thread holds the lock, neither
of the two ever goes on.
-/

namespace CLogging

open C Machine Threads

/-! ### Two threads -/

/-- A thread that takes the stack of one that refreshes the symbol handler. -/
def suspendingThreads (t : UInt32) : List StackCall :=
  if t = 1 then [.getThreadStack walkedThread 2 (some [51])]
  else if t = 2 then [.refreshModuleList { sampleRefresh with createToolhelp32Snapshot := none }]
  else []

/-- What they do. -/
def suspendingPrograms (t : UInt32) : List (Action UInt32 StackEvent) :=
  if t = 1 then
    [.act (.openThread (some 4)), .suspend 2, .act (.getThreadContext true), .acquire,
      .act (.symFromAddr (some 8) 16), .act (.symGetLineFromAddr64 (some 8) 16),
      .act (.symFromAddr (some 8) 32), .act (.symGetLineFromAddr64 (some 8) 32), .release,
      .resume 2, .act (.closeHandle (some 4) true)]
  else if t = 2 then
    [.acquire, .act (.createToolhelp32Snapshot none), .act (.symRefreshModuleList (some 8) true),
      .release]
  else []

lemma concurrent_suspendingThreads : Concurrent x64 suspendingThreads suspendingPrograms := by
  refine ⟨fun t c hc => ?_, fun t => ?_⟩
  · rw [suspendingThreads] at hc
    split_ifs at hc with h1 h2
    · obtain rfl := List.mem_singleton.mp hc
      exact h1.symm
    · obtain rfl := List.mem_singleton.mp hc
      trivial
    · cases hc
  · rw [suspendingThreads, suspendingPrograms]
    split_ifs
    · rfl
    · rfl
    · rfl

lemma suspendingThreads_resume (t : UInt32) : ∀ c ∈ suspendingThreads t, c.ResumesThread := by
  intro c hc
  rw [suspendingThreads] at hc
  split_ifs at hc
  · obtain rfl := List.mem_singleton.mp hc
    exact fun hstays => hstays.2.2.2 rfl
  · obtain rfl := List.mem_singleton.mp hc
    trivial
  · cases hc

/-! ### Stuck threads -/

variable {g : SymbolHandler} {calls : UInt32 → List StackCall}
  {programs : UInt32 → List (Action UInt32 StackEvent)}

lemma Concurrent.resumes (h : Concurrent g calls programs)
    (hresumes : ∀ t, ∀ c ∈ calls t, c.ResumesThread) (t : UInt32) : Resumes t [] (programs t) :=
  (program_spec (h.madeBy t) (h.returns t)).2.2 (hresumes t)

/-- As long as suspended threads can be resumed, the threads are stuck before all their calls have
returned exactly if the thread that holds the lock is suspended, and every thread that is neither
suspended nor done waits for the lock. `SuspendThread` is taken to stop a thread at once, so that no
two threads suspend each other. -/
theorem stuck_iff_holder_suspended (h : Concurrent g calls programs)
    (hresumes : ∀ t, ∀ c ∈ calls t, c.ResumesThread) {schedule : List UInt32}
    {s : State UInt32 StackEvent} {trace : List (UInt32 × Action UInt32 StackEvent)}
    (hrun : run State.step (.start programs) schedule = some (s, trace)) :
    s.Stuck ∧ ¬ s.Done ↔ s.Deadlocked :=
  stuck_iff h.locks (h.resumes hresumes) hrun

/-- The second thread takes the lock, and the first one suspends it. -/
theorem stuck_iff_holder_suspended_sample : ∃ s trace,
    run State.step (.start suspendingPrograms) [2, 1, 1, 1] = some (s, trace) ∧
    s.Stuck ∧ ¬ s.Done := by
  have hrun : run State.step (.start suspendingPrograms) [2, 1, 1, 1] = some (_, _) := rfl
  refine ⟨_, _, hrun, (stuck_iff_holder_suspended concurrent_suspendingThreads
    suspendingThreads_resume hrun).mpr ⟨2, rfl, ⟨(1, 2), List.mem_cons_self, rfl⟩, fun t ht => ?_⟩⟩
  by_cases h1 : t = 1
  · subst h1
    exact Or.inr ⟨_, rfl⟩
  by_cases h2 : t = 2
  · exact absurd ⟨(1, 2), List.mem_cons_self, h2.symm⟩ ht
  · refine Or.inl ?_
    simp [State.start, suspendingPrograms, h1, h2]

/-! ### A thread that suspends the one with the lock -/

/-- Behind a context that was read the lock is taken. -/
def ReadsThenLocks : List (Action UInt32 StackEvent) → Prop
  | .act (.getThreadContext true) :: as => (∃ as', as = .acquire :: as') ∧ ReadsThenLocks as
  | _ :: as                             => ReadsThenLocks as
  | []                                  => True

lemma ReadsThenLocks.append {as bs : List (Action UInt32 StackEvent)} (has : ReadsThenLocks as)
    (hbs : ReadsThenLocks bs) : ReadsThenLocks (as ++ bs) := by
  fun_induction ReadsThenLocks as with
  | case1 as ih =>
    obtain ⟨⟨as', rfl⟩, hrest⟩ := has
    exact ⟨⟨as' ++ bs, rfl⟩, ih hrest⟩
  | case2 a as hne ih =>
    rw [List.cons_append, ReadsThenLocks]
    · exact ih has
    · exact hne
  | case3 => exact hbs

lemma readsThenLocks_acts {es : List StackEvent} (hes : .getThreadContext true ∉ es)
    {as : List (Action UInt32 StackEvent)} (has : ReadsThenLocks as) :
    ReadsThenLocks (es.map .act ++ as) := by
  induction es with
  | nil => exact has
  | cons e es ih =>
    rw [List.mem_cons, not_or] at hes
    rw [List.map_cons, List.cons_append, ReadsThenLocks]
    · exact ih hes.2
    · exact fun heq => hes.1 (Action.act.inj heq).symm

lemma Outside.notMem {es : List StackEvent} (h : Outside es) : .getThreadContext true ∉ es :=
  fun hmem => (h _ hmem).2 rfl

lemma Body.readsThenLocks {body as : List (Action UInt32 StackEvent)}
    {syms : Option (List StackEvent)} (h : Body body syms) (has : ReadsThenLocks as) :
    ReadsThenLocks (body ++ as) := by
  cases h with
  | skipped => exact has
  | locked hinner =>
    rw [List.cons_append, List.append_assoc]
    exact readsThenLocks_acts hinner has

lemma Shape.readsThenLocks {t : UInt32} {as : List (Action UInt32 StackEvent)}
    {syms : Option (List StackEvent)} {stays : Bool} (h : Shape t as syms stays) :
    ReadsThenLocks as := by
  have hacts : ∀ {es : List StackEvent}, Outside es → ReadsThenLocks (es.map .act) := by
    intro es hes
    rw [← List.append_nil (es.map _)]
    exact readsThenLocks_acts hes.notMem trivial
  cases h with
  | alone hbefore hbody hafter =>
    -- the thread's own stack: the context is not read
    exact readsThenLocks_acts hbefore.notMem (hbody.readsThenLocks (hacts hafter))
  | @suspends u hne before after body _ _ hbefore hbody hafter =>
    -- the context of another thread is read directly before the lock
    refine readsThenLocks_acts hbefore.notMem ?_
    have hrest : ReadsThenLocks ((if stays then [] else [.resume u]) ++ after.map .act) := by
      cases stays with
      | false => exact hacts hafter
      | true => exact hacts hafter
    have hbehind := hbody.readsThenLocks hrest
    cases hbody with
    | skipped => exact hbehind
    | locked hinner => exact ⟨⟨_, rfl⟩, hbehind⟩

lemma readsThenLocks_program {t : UInt32} {cs : List StackCall} (hcs : ∀ c ∈ cs, c.MadeBy t)
    {as : List (Action UInt32 StackEvent)} (has : program g cs = some as) : ReadsThenLocks as := by
  induction cs generalizing as with
  | nil =>
    obtain rfl := Option.some.inj has
    trivial
  | cons c cs ih =>
    obtain ⟨bs, hbs, hrest⟩ := Option.bind_eq_some_iff.mp has
    obtain ⟨ds, hds, rfl⟩ := Option.map_eq_some_iff.mp hrest
    rw [List.forall_mem_cons] at hcs
    obtain ⟨stays, hshape, -⟩ := shape_of_madeBy hcs.1 hbs
    exact hshape.readsThenLocks.append (ih hcs.2 hds)

lemma ReadsThenLocks.tail {a : Action UInt32 StackEvent} {as : List (Action UInt32 StackEvent)}
    (h : ReadsThenLocks (a :: as)) : ReadsThenLocks as := by
  by_cases ha : a = .act (.getThreadContext true)
  · subst ha
    exact h.2
  · rw [ReadsThenLocks] at h
    · exact h
    · exact ha

lemma ReadsThenLocks.of_suffix {as bs : List (Action UInt32 StackEvent)} (h : ReadsThenLocks bs)
    (hsuffix : as <:+ bs) : ReadsThenLocks as := by
  obtain ⟨before, rfl⟩ := hsuffix
  induction before with
  | nil => exact h
  | cons a before ih => exact ih h.tail

/-- Once `get_thread_stack` has suspended the thread that holds the lock, and can read its context,
neither of the two calls ever returns, whatever the other threads do: the one stays suspended and keeps
the lock, and the other reads the context at most, and stands before the lock. -/
theorem never_returns (h : Concurrent g calls programs) {schedule : List UInt32}
    {s : State UInt32 StackEvent} {trace : List (UInt32 × Action UInt32 StackEvent)}
    (hrun : run State.step (.start programs) schedule = some (s, trace)) {t u : UInt32}
    (hholder : s.holder = some u) (hsuspended : (t, u) ∈ s.suspensions)
    {as : List (Action UInt32 StackEvent)} (hrest : s.rest t = .act (.getThreadContext true) :: as)
    {schedule' : List UInt32} {s' : State UInt32 StackEvent}
    {trace' : List (UInt32 × Action UInt32 StackEvent)}
    (hrun' : run State.step s schedule' = some (s', trace')) :
    s'.holder = some u ∧ s'.Suspended u ∧ s'.rest u ≠ [] ∧ s'.rest t ≠ [] ∧
      (s'.rest t = .act (.getThreadContext true) :: as ∨ s'.rest t = as) ∧
      ∃ as', as = .acquire :: as' := by
  have hreads := (readsThenLocks_program (h.madeBy t) (h.returns t)).of_suffix
    ((from_of_run hrun).rest t)
  rw [hrest] at hreads
  obtain ⟨⟨as', rfl⟩, -⟩ := hreads
  have hdoomed : s.Doomed t u [.act (.getThreadContext true)] as' :=
    ⟨hholder, hsuspended, _, List.suffix_rfl, hrest⟩
  have hpasses : ∀ a ∈ [(.act (.getThreadContext true) : Action UInt32 StackEvent)], a.Passes :=
    List.forall_mem_singleton.mpr trivial
  have hdoomed' := hdoomed.of_run hpasses hrun'
  obtain ⟨left, hleft, hstands⟩ := hdoomed'.rest
  have hwhole : run State.step (.start programs) (schedule ++ schedule') =
      some (s', trace ++ trace') := by
    rw [run_append, hrun]
    simp only [Option.bind_some, hrun', Option.map_some]
  have hlock := (exists_order h.locks hwhole).1 u
  rw [decide_eq_true hdoomed'.holder] at hlock
  refine ⟨hdoomed'.holder, ⟨_, hdoomed'.suspended, rfl⟩, hlock.rest_ne_nil, ?_, ?_, as', rfl⟩
  · -- the lock stands before it, so something is left to do
    rw [hstands]
    exact List.append_ne_nil_of_right_ne_nil _ (List.cons_ne_nil _ _)
  · -- of what is before the lock only the read of the context can be left
    rcases List.suffix_cons_iff.mp hleft with rfl | hnil
    · exact Or.inl hstands
    · rw [List.suffix_nil.mp hnil] at hstands
      exact Or.inr hstands

theorem never_returns_sample : ∃ s trace s' trace',
    run State.step (.start suspendingPrograms) [2, 1, 1] = some (s, trace) ∧
    run State.step s [1] = some (s', trace') ∧ s'.rest 2 ≠ [] ∧
    ∃ as, s'.rest 1 = .acquire :: as := by
  have hrun : run State.step (.start suspendingPrograms) [2, 1, 1] = some (_, _) := rfl
  have hnever := @never_returns _ _ _ concurrent_suspendingThreads _ _ _ hrun 1 2 rfl
    List.mem_cons_self _ rfl [1]
  obtain ⟨-, -, hrest, -, -, as, has⟩ := hnever rfl
  exact ⟨_, _, _, _, hrun, rfl, hrest, as, has⟩

/-! ### Threads that make no calls -/

lemma Shape.suspend_ne {t : UInt32} {as : List (Action UInt32 StackEvent)}
    {syms : Option (List StackEvent)} {stays : Bool} (h : Shape t as syms stays) {u : UInt32}
    (hu : Action.suspend u ∈ as) : u ≠ t := by
  have hacts : ∀ es : List StackEvent, Action.suspend u ∉ es.map Action.act := by
    intro es hmem
    obtain ⟨e, -, heq⟩ := List.mem_map.mp hmem
    cases heq
  have hbody : ∀ {body}, Body body syms → Action.suspend u ∉ body := by
    intro body hbody hmem
    cases hbody with
    | skipped => cases hmem
    | locked hinner => simp at hmem
  cases h with
  | alone hbefore hskip hafter =>
    rcases List.mem_append.mp hu with hmem | hmem
    · exact absurd hmem (hacts _)
    · exact ((List.mem_append.mp hmem).elim (hbody hskip) (hacts _)).elim
  | @suspends v hne before after body _ _ hbefore hlock hafter =>
    have hend : Action.suspend u ∉ (if stays then [] else [Action.resume v]) ++ after.map .act := by
      cases stays with
      | false => simp
      | true => simp
    rcases List.mem_append.mp hu with hmem | hmem
    · exact absurd hmem (hacts _)
    · rcases List.mem_cons.mp hmem with heq | hmem
      · exact Action.suspend.inj heq ▸ hne
      · rcases List.mem_cons.mp hmem with heq | hmem
        · cases heq
        · exact ((List.mem_append.mp hmem).elim (hbody hlock) hend).elim

lemma StackEvent.action_eq_suspend {e : StackEvent} {threadId u : UInt32}
    (h : e.action threadId = .suspend u) : e = .suspendThread true ∧ threadId = u := by
  cases e with
  | suspendThread succeeded =>
    cases succeeded with
    | false => cases h
    | true => exact ⟨rfl, Action.suspend.inj h⟩
  | resumeThread succeeded => cases succeeded <;> cases h
  | _ => cases h

/-- Only `get_thread_stack` suspends a thread. -/
lemma suspend_mem_actions {c : StackCall} {t : UInt32} (hc : c.MadeBy t)
    {as : List (Action UInt32 StackEvent)} (has : c.actions g = some as) {u : UInt32}
    (hu : Action.suspend u ∈ as) : ∃ env destination, c = .getThreadStack env u destination := by
  obtain ⟨⟨g', events⟩, hstep, rfl⟩ := Option.map_eq_some_iff.mp has
  obtain ⟨e, he, heq⟩ := List.mem_map.mp hu
  obtain ⟨rfl, rfl⟩ := StackEvent.action_eq_suspend heq
  cases c with
  | init env => cases hc
  | deinit symCleanup closeHandle =>
    -- these calls are not made by a thread that runs next to others
    cases hc
  | getThreadStack env threadId destination => exact ⟨env, destination, rfl⟩
  | refreshModuleList env =>
    obtain ⟨inner, hinner, hpair⟩ := Option.map_eq_some_iff.mp hstep
    obtain ⟨-, rfl⟩ := Prod.mk.inj hpair
    exfalso
    rw [getThreadStackRefreshModuleList] at hinner
    split_ifs at hinner
    · -- a refresh suspends no thread, on none of its paths
      obtain rfl := Option.some.inj hinner
      cases he
    · cases hsnapshot : env.createToolhelp32Snapshot with
      | none =>
        rw [hsnapshot] at hinner
        obtain rfl := Option.some.inj hinner
        simp at he
      | some snapshot =>
        rw [hsnapshot] at hinner
        obtain ⟨s, -, hrest⟩ := Option.bind_eq_some_iff.mp hinner
        obtain ⟨events', hevents, rfl⟩ := Option.map_eq_some_iff.mp hrest
        rw [reinitialization] at hevents
        split_ifs at hevents
        · obtain rfl := Option.some.inj hevents
          simp at he
        · obtain rfl := Option.some.inj hevents
          simp at he

/-- The thread that is suspended is another one. -/
lemma suspend_mem_program {t : UInt32} {cs : List StackCall} (hcs : ∀ c ∈ cs, c.MadeBy t)
    {as : List (Action UInt32 StackEvent)} (has : program g cs = some as) {u : UInt32}
    (hu : Action.suspend u ∈ as) :
    u ≠ t ∧ ∃ env destination, .getThreadStack env u destination ∈ cs := by
  induction cs generalizing as with
  | nil =>
    obtain rfl := Option.some.inj has
    cases hu
  | cons c cs ih =>
    obtain ⟨bs, hbs, hrest⟩ := Option.bind_eq_some_iff.mp has
    obtain ⟨ds, hds, rfl⟩ := Option.map_eq_some_iff.mp hrest
    rw [List.forall_mem_cons] at hcs
    rcases List.mem_append.mp hu with hmem | hmem
    · obtain ⟨stays, hshape, -⟩ := shape_of_madeBy hcs.1 hbs
      obtain ⟨env, destination, rfl⟩ := suspend_mem_actions hcs.1 hbs hmem
      exact ⟨hshape.suspend_ne hmem, env, destination, List.mem_cons_self⟩
    · obtain ⟨hne, env, destination, hcall⟩ := ih hcs.2 hds hmem
      exact ⟨hne, env, destination, List.mem_cons_of_mem _ hcall⟩

/-- If no thread whose stack another takes makes such calls itself, and suspended threads can be
resumed, then from every state that is reached finitely many threads can go on until all their calls
have returned. -/
theorem exists_all_return (h : Concurrent g calls programs) {threads : Finset UInt32}
    (hthreads : ∀ t ∉ threads, calls t = []) (hresumes : ∀ t, ∀ c ∈ calls t, c.ResumesThread)
    (htargets : ∀ t env u destination, .getThreadStack env u destination ∈ calls t → u ≠ t →
      calls u = [])
    {schedule : List UInt32} {s : State UInt32 StackEvent}
    {trace : List (UInt32 × Action UInt32 StackEvent)}
    (hrun : run State.step (.start programs) schedule = some (s, trace)) :
    ∃ schedule' s' trace', run State.step s schedule' = some (s', trace') ∧ s'.Done := by
  have hnone : ∀ t, calls t = [] → programs t = [] := by
    intro t hcalls
    have hprogram := h.returns t
    rw [hcalls] at hprogram
    exact (Option.some.inj hprogram).symm
  refine exists_completion (fun t ht => hnone t (hthreads t ht)) h.locks (h.resumes hresumes) ?_ hrun
  intro t u hu hacquire
  obtain ⟨hne, env, destination, hcall⟩ := suspend_mem_program (h.madeBy t) (h.returns t) hu
  rw [hnone u (htargets t env u destination hcall hne)] at hacquire
  cases hacquire

/-- The first thread takes the stack of the second one, which makes no calls. -/
theorem exists_all_return_sample : ∃ (programs : UInt32 → List (Action UInt32 StackEvent)) (s : _)
      (trace : _), run State.step (.start programs) [1, 1] = some (s, trace) ∧ s.Suspended 2 ∧
    ∃ schedule' s' trace', run State.step s schedule' = some (s', trace') ∧ s'.Done := by
  have hconcurrent : Concurrent x64
      (fun t => if t = 1 then suspendingThreads 1 else [])
      (fun t => if t = 1 then suspendingPrograms 1 else []) := by
    refine ⟨fun t c hc => ?_, fun t => ?_⟩
    · split_ifs at hc with h1
      · exact h1 ▸ concurrent_suspendingThreads.madeBy 1 c hc
      · cases hc
    · split_ifs
      · exact concurrent_suspendingThreads.returns 1
      · rfl
  have hrun : run State.step (.start fun t => if t = 1 then suspendingPrograms 1 else []) [1, 1] =
      some (_, _) := rfl
  have hothers : ∀ t ∉ ({1} : Finset UInt32), (if t = 1 then suspendingThreads 1 else []) = [] :=
    fun t ht => if_neg fun h1 => ht (Finset.mem_singleton.mpr h1)
  refine ⟨_, _, _, hrun, ⟨(1, 2), List.mem_cons_self, rfl⟩,
    exists_all_return hconcurrent hothers ?_ ?_ hrun⟩
  · intro t c hc
    split_ifs at hc
    · exact suspendingThreads_resume 1 c hc
    · cases hc
  · intro t env u destination hcall hne
    split_ifs at hcall with h1
    · exact if_neg fun hu => hne (hu.trans h1.symm)
    · cases hcall

end CLogging
