import CLogging.Stack.Thread

/-!
# Termination of the stack text

A text that does not fit is replaced by the fallback string, whose last byte can be the last of the
buffer. The store at the end of `get_thread_stack` repairs this, but not every path gets there.
-/

namespace CLogging

open C Printf

/-! ### What is printed -/

/-- The lines the walk prints. -/
def frameCalls (g : SymbolHandler) : List Frame → UInt64 → Bool → Bool → List FallbackCall
  | [], _, _, _                            => []
  | f :: fs, pc, firstLine, skipFirstFrame =>
    if pc = 0 then []
    else if skipFirstFrame then frameCalls g fs (f.nextPc g) firstLine false
    else f.call firstLine :: frameCalls g fs (f.nextPc g) false false

/-- Everything `get_thread_stack` prints on Windows. -/
def threadCalls (g : SymbolHandler) (env : ThreadEnv) (threadId : UInt32) : List FallbackCall :=
  if g.symbolsState ≠ .initialized then [env.notInitializedCall]
  else if env.openThread = none then []
  else if env.currentThreadId = threadId then frameCalls g env.frames env.pc true true
  else if ¬ env.suspendThread then [env.suspendThreadCall true]
  else if ¬ env.getThreadContext then [env.getThreadContextCall true]
  else frameCalls g env.frames env.pc true false

/-- The walk prints its lines one after the other. -/
lemma walk_destination {g : SymbolHandler} {fs : List Frame} {pc : UInt64} {s s' : WalkState}
    (h : walk g fs pc s = some s') :
    s'.destination =
      snprintfFallbackAll (frameCalls g fs pc s.firstLine s.skipFirstFrame) s.destination := by
  induction fs generalizing pc s with
  | nil =>
    rw [walk] at h
    split_ifs at h
    obtain rfl := Option.some.inj h
    rfl
  | cons f fs ih =>
    rw [walk] at h
    rw [frameCalls]
    by_cases hpc : pc = 0
    · rw [if_pos hpc] at h ⊢
      obtain rfl := Option.some.inj h
      rfl
    · rw [if_neg hpc] at h ⊢
      have hrest := ih h
      by_cases hskip : s.skipFirstFrame
      · -- the first frame is skipped, and the ones behind it are not
        rw [if_pos hskip] at hrest ⊢
        exact hrest
      · -- a line for the frame; the next one is no first line
        rw [if_neg hskip] at hrest ⊢
        have hfalse := eq_false_of_ne_true hskip
        rw [WalkState.print] at hrest
        simp only [hfalse] at hrest
        exact hrest

lemma walkLocked_destination {g : SymbolHandler} {env : ThreadEnv} {threadId : UInt32}
    {s s' : WalkState} (h : walkLocked g env threadId s = some s') :
    s'.destination = snprintfFallbackAll (frameCalls g env.frames env.pc s.firstLine
      (decide (env.currentThreadId = threadId))) s.destination := by
  rw [walkLocked] at h
  obtain ⟨t, ht, rfl⟩ := Option.map_eq_some_iff.mp h
  exact walk_destination ht

/-- The text behind the last step before the end of the function. -/
lemma body_destination {g : SymbolHandler} {env : ThreadEnv} {threadId : UInt32} {h : ℕ}
    {s s' : WalkState} (hstate : g.symbolsState = .initialized) (hopen : env.openThread = some h)
    (hfirst : s.firstLine = true)
    (hbody : (if ¬ (captureContext env threadId s).1 then some (captureContext env threadId s).2.2
      else walkLocked g env threadId (captureContext env threadId s).2.2) = some s') :
    s'.destination = snprintfFallbackAll (threadCalls g env threadId) s.destination := by
  have hopened : env.openThread ≠ none := by
    rw [hopen]
    exact Option.some_ne_none h
  rw [threadCalls, if_neg (not_not.mpr hstate), if_neg hopened]
  rw [captureContext] at hbody
  by_cases hcurrent : env.currentThreadId = threadId
  · -- the thread looks at its own stack: RtlCaptureContext does not fail
    simp only [if_pos hcurrent, not_true_eq_false, if_false] at hbody ⊢
    have hwalk := walkLocked_destination hbody
    rw [hfirst, decide_eq_true hcurrent] at hwalk
    exact hwalk
  · simp only [if_neg hcurrent] at hbody ⊢
    by_cases hsuspend : env.suspendThread
    · simp only [if_neg (not_not.mpr hsuspend)] at hbody ⊢
      by_cases hcontext : env.getThreadContext
      · -- suspended and its context read: the frames are walked
        simp only [if_neg (not_not.mpr hcontext), not_true_eq_false, if_false] at hbody ⊢
        have hwalk := walkLocked_destination hbody
        rw [hfirst, decide_eq_false hcurrent] at hwalk
        exact hwalk
      · -- GetThreadContext failed: its text is all that is printed
        simp only [if_pos hcontext, Bool.false_eq_true, not_false_eq_true, if_true] at hbody ⊢
        obtain rfl := Option.some.inj hbody
        simp only [hfirst]
        rfl
    · -- SuspendThread failed: its text is all that is printed
      simp only [if_pos hsuspend, Bool.false_eq_true, not_false_eq_true, if_true] at hbody ⊢
      obtain rfl := Option.some.inj hbody
      simp only [hfirst]
      rfl

/-! ### The final store -/

/-- The thread was suspended, and cannot be resumed. -/
def ThreadEnv.StaysSuspended (env : ThreadEnv) (threadId : UInt32) : Prop :=
  env.openThread ≠ none ∧ env.currentThreadId ≠ threadId ∧ env.suspendThread ∧ ¬ env.resumeThread

/-- On either platform: a call of `get_thread_stack`, with all that it depends on but the buffer. -/
inductive Invocation where
  | linux (failure : Option Failure)
  | windows (g : SymbolHandler) (env : ThreadEnv) (threadId : UInt32)

/-- What is in the buffer on return, if the function returns. -/
def Invocation.result (mem : List UInt8) : Invocation → Option (List UInt8)
  | .linux failure            => getThreadStackLinux failure (some mem)
  | .windows g env threadId   =>
    (getThreadStack g env threadId (some mem)).bind ThreadStack.destination

/-- What is printed. -/
def Invocation.calls : Invocation → List FallbackCall
  | .linux failure          => [notSupportedCall failure]
  | .windows g env threadId => threadCalls g env threadId

/-- The path ends with the store of a terminator in the last byte: on Windows, if the symbol handler
is initialised, and no thread stays suspended. -/
def Invocation.StoresLast : Invocation → Prop
  | .linux _                => False
  | .windows g env threadId => g.symbolsState = .initialized ∧ ¬ env.StaysSuspended threadId

/-- The buffer before anything is printed. -/
def Invocation.start (mem : List UInt8) : Invocation → List UInt8
  | .linux _         => mem
  | .windows g _ _   => if g.symbolsState = .initialized then mem.set 0 0 else mem

@[simp] lemma Invocation.length_start (mem : List UInt8) (i : Invocation) :
    (i.start mem).length = mem.length := by
  match i with
  | .linux _ => rfl
  | .windows g _ _ =>
    rw [start]
    split_ifs
    · exact List.length_set
    · rfl

/-- The final store is to the last byte of the buffer, whatever was printed. -/
lemma storeLast_snprintfFallbackAll (ks : List FallbackCall) (mem : List UInt8) :
    storeLast (snprintfFallbackAll ks ⟨mem, 0, mem.length⟩) =
      (snprintfFallbackAll ks ⟨mem, 0, mem.length⟩).mem.set (mem.length - 1) 0 := by
  have hstart : (Cursor.mk mem 0 mem.length).Fits := Nat.zero_add _
  have hfits : (snprintfFallbackAll ks ⟨mem, 0, mem.length⟩).Fits :=
    fits_snprintfFallbackAll hstart ks
  rw [storeLast, hfits, length_mem_snprintfFallbackAll]

lemma captureContext_suspended (env : ThreadEnv) (threadId : UInt32) (s : WalkState) :
    (captureContext env threadId s).2.1 = true ↔
      env.currentThreadId ≠ threadId ∧ env.suspendThread = true := by
  rw [captureContext]
  by_cases hcurrent : env.currentThreadId = threadId
  · rw [if_pos hcurrent]
    exact iff_of_false Bool.false_ne_true fun h => h.1 hcurrent
  · rw [if_neg hcurrent]
    by_cases hsuspend : env.suspendThread
    · rw [if_neg (not_not.mpr hsuspend)]
      refine iff_of_true ?_ ⟨hcurrent, hsuspend⟩
      split_ifs
      · rfl
      · rfl
    · rw [if_pos hsuspend]
      exact iff_of_false Bool.false_ne_true fun h => hsuspend h.2

/-- The end of the function stores the terminator unless the thread stays suspended. -/
lemma finish_destination (env : ThreadEnv) (wasThreadSuspended : Bool) (s : WalkState) :
    (finish env wasThreadSuspended s).destination =
      if wasThreadSuspended ∧ ¬ env.resumeThread then some s.destination.mem
      else some (storeLast s.destination) := by
  rw [finish]
  cases wasThreadSuspended with
  | false => rfl
  | true =>
    cases env.resumeThread with
    | false => rfl
    | true => rfl

/-- With the symbol handler initialised, `destination[0]` is set before anything else. -/
lemma getThreadStack_initialized {g : SymbolHandler} {env : ThreadEnv} {threadId : UInt32}
    {mem : List UInt8} {r : ThreadStack} (hne : mem.length ≠ 0)
    (hstate : g.symbolsState = .initialized)
    (h : getThreadStack g env threadId (some mem) = some r) :
    (¬ env.StaysSuspended threadId ∧ r.destination = some (storeLast
      (snprintfFallbackAll (threadCalls g env threadId) ⟨mem.set 0 0, 0, mem.length⟩))) ∨
    (env.StaysSuspended threadId ∧ r.destination = some
      (snprintfFallbackAll (threadCalls g env threadId) ⟨mem.set 0 0, 0, mem.length⟩).mem) := by
  rw [getThreadStack] at h
  simp only [if_neg hne, if_neg (not_not.mpr hstate)] at h
  rw [ThreadEnv.StaysSuspended]
  match hopen : env.openThread with
  | none =>
    rw [hopen] at h
    obtain rfl := Option.some.inj h
    have hcalls : threadCalls g env threadId = [] := by
      rw [threadCalls, if_neg (not_not.mpr hstate), if_pos hopen]
    rw [hcalls]
    exact Or.inl ⟨fun hstays => hstays.1 rfl, rfl⟩
  | some hThread =>
    rw [hopen] at h
    obtain ⟨s, hbody, rfl⟩ := Option.map_eq_some_iff.mp h
    have hdestination := body_destination hstate hopen rfl hbody
    have hsuspended := captureContext_suspended env threadId
      ⟨⟨mem.set 0 0, 0, mem.length⟩, true, false, [.openThread (some hThread)]⟩
    rw [finish_destination, hdestination]
    simp only [hsuspended]
    by_cases hstays : (env.currentThreadId ≠ threadId ∧ env.suspendThread) ∧ ¬ env.resumeThread
    · -- ResumeThread failed: the function returns before the store at the end
      rw [if_pos hstays]
      exact Or.inr ⟨⟨Option.some_ne_none _, hstays.1.1, hstays.1.2, hstays.2⟩, rfl⟩
    · rw [if_neg hstays]
      exact Or.inl ⟨fun hnot => hstays ⟨⟨hnot.2.1, hnot.2.2.1⟩, hnot.2.2.2⟩, rfl⟩

/-- The buffer holds what is printed, and the terminator, if the path stores one. -/
lemma Invocation.result_cases {i : Invocation} {mem buffer : List UInt8} (hne : mem ≠ [])
    (h : i.result mem = some buffer) :
    (i.StoresLast ∧ buffer =
      (snprintfFallbackAll i.calls ⟨i.start mem, 0, mem.length⟩).mem.set (mem.length - 1) 0) ∨
    (¬ i.StoresLast ∧ buffer =
      (snprintfFallbackAll i.calls ⟨i.start mem, 0, mem.length⟩).mem) := by
  have hlength : mem.length ≠ 0 := fun hzero => hne (List.length_eq_zero_iff.mp hzero)
  match i with
  | .linux failure =>
    -- this platform prints one text and stores no last byte
    rw [result, getThreadStackLinux, Option.map_some, if_neg hlength] at h
    exact Or.inr ⟨not_false, (Option.some.inj h).symm⟩
  | .windows g env threadId =>
    obtain ⟨r, hr, hbuffer⟩ := Option.bind_eq_some_iff.mp h
    by_cases hstate : g.symbolsState = .initialized
    · have hstart : start mem (.windows g env threadId) = mem.set 0 0 := if_pos hstate
      have hset : (mem.set 0 0).length = mem.length := List.length_set
      have hstore := storeLast_snprintfFallbackAll (threadCalls g env threadId) (mem.set 0 0)
      rw [hset] at hstore
      rw [hstart, StoresLast, calls]
      rcases getThreadStack_initialized hlength hstate hr with ⟨hstays, heq⟩ | ⟨hstays, heq⟩
      · -- the path of the function that ends with the store
        rw [hbuffer, Option.some.injEq, hstore] at heq
        exact Or.inl ⟨⟨hstate, hstays⟩, heq⟩
      · -- the path that returns before the store
        rw [hbuffer, Option.some.injEq] at heq
        exact Or.inr ⟨fun hlast => hlast.2 hstays, heq⟩
    · -- not initialised: one text, printed over what the buffer held
      rw [getThreadStack] at hr
      simp only [if_neg hlength, if_pos hstate] at hr
      obtain rfl := Option.some.inj hr
      have hstart : start mem (.windows g env threadId) = mem := if_neg hstate
      have hcalls : threadCalls g env threadId = [env.notInitializedCall] := if_pos hstate
      rw [hstart, calls, hcalls]
      exact Or.inr ⟨fun hlast => hstate hlast.1, (Option.some.inj hbuffer).symm⟩

/-! ### When the text is terminated -/

/-- The buffer holds a terminator exactly if the path stores one in the last byte, or what is printed
leaves one. -/
theorem zero_mem_result_iff {i : Invocation} {mem buffer : List UInt8} (hne : mem ≠ [])
    (h : i.result mem = some buffer) :
    buffer.length = mem.length ∧
      (0 ∈ buffer ↔ i.StoresLast ∨ LeavesNul i.calls (i.start mem)) := by
  have hleaves := zero_mem_snprintfFallbackAll_iff i.calls (i.start mem)
  rw [Invocation.length_start] at hleaves
  have hlength : (snprintfFallbackAll i.calls ⟨i.start mem, 0, mem.length⟩).mem.length =
      mem.length := (length_mem_snprintfFallbackAll _ _).trans (i.length_start mem)
  rcases Invocation.result_cases hne h with ⟨hlast, rfl⟩ | ⟨hlast, rfl⟩
  · refine ⟨List.length_set.trans hlength, iff_of_true ?_ (Or.inl hlast)⟩
    have hlt : mem.length - 1 < mem.length :=
      Nat.sub_one_lt fun hzero => hne (List.length_eq_zero_iff.mp hzero)
    exact List.mem_set (hlength.symm ▸ hlt) 0
  · exact ⟨hlength, hleaves.trans (or_iff_right hlast).symm⟩

/-- On Linux, unless `vsnprintf` fails, 17 bytes are needed. -/
theorem zero_mem_linux_iff {mem buffer : List UInt8} (hne : mem ≠ [])
    (h : getThreadStackLinux none (some mem) = some buffer) : 0 ∈ buffer ↔ 17 ≤ mem.length := by
  have hiff := zero_mem_snprintfFallbackAll_iff [notSupportedCall none] mem
  have hbuffer : buffer = (snprintfFallbackAll [notSupportedCall none] ⟨mem, 0, mem.length⟩).mem :=
    (Invocation.result_cases (i := .linux none) hne h).elim (fun hlast => hlast.1.elim) And.right
  have htext : (notSupportedCall none).text.bytes.length = 41 := rfl
  rw [hbuffer, hiff, leavesNul_singleton_iff]
  constructor
  · rintro (hfits | ⟨hlength, -⟩)
    · have hlt := hfits.lt
      omega
    · exact hlength
  · intro hlength
    refine Or.inr ⟨hlength, Or.inl ?_⟩
    have hstored : ((notSupportedCall none).vsnprintf mem.length).2 =
        (notSupportedCall none).text.bytes.take (mem.length - 1) ++ [0] :=
      if_neg (Nat.ne_zero_of_lt hlength)
    rw [hstored, List.drop_append_of_le_length]
    · exact List.mem_append_right _ (List.mem_singleton_self 0)
    · rw [List.length_take, htext]
      omega

/-- A thread is suspended, its context cannot be read, and it cannot be resumed. -/
def sampleThread : ThreadEnv where
  stateText        := .empty
  currentThreadId  := 1
  openThread       := some 4
  suspendThread    := true
  getThreadContext := false
  lastError        := 5
  failure          := none
  pc               := 0
  frames           := []
  resumeThread     := false
  closeHandle      := true

theorem zero_mem_result_iff_sample : ∃ buffer,
    (Invocation.windows ⟨.initialized, some 8, none⟩ sampleThread 2).result
      (List.replicate 20 51) = some buffer ∧ 0 ∈ buffer := by
  have hresult : (Invocation.windows ⟨.initialized, some 8, none⟩ sampleThread 2).result
      (List.replicate 20 51) = some _ := rfl
  refine ⟨_, hresult, (zero_mem_result_iff (by decide) hresult).2.mpr (Or.inr ?_)⟩
  refine (leavesNul_singleton_iff (sampleThread.getThreadContextCall true)
    ((List.replicate 20 51).set 0 0)).mpr ?_
  exact Or.inr ⟨by decide, Or.inl (by decide +kernel)⟩

theorem not_terminated_linux : ¬ ∀ (i : Invocation) (mem buffer : List UInt8), mem ≠ [] →
    i.result mem = some buffer → 0 ∈ buffer := by
  intro h
  have hresult : (Invocation.linux none).result [51] = some [10] := by decide +kernel
  have hzero := h _ _ _ (List.cons_ne_nil 51 []) hresult
  revert hzero
  decide

end CLogging
