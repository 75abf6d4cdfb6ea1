import CLogging.Stack.Terminated

/-!
# The resources of a stack walk

`get_thread_stack` opens the thread, suspends it unless it is the calling one, and walks over its
frames under the lock. Everything is undone in the end, unless the thread cannot be resumed: then the
function returns at once, and the handle stays open.
-/

namespace CLogging

open C Printf

/-! ### Traces -/

/-- The handles of threads that are opened. -/
def openedHandles (events : List StackEvent) : List (Option ℕ) :=
  events.filterMap fun
    | .openThread (some h) => some (some h)
    | _                    => none

/-- The handles `CloseHandle` is called with. -/
def closedHandles (events : List StackEvent) : List (Option ℕ) :=
  events.filterMap fun
    | .closeHandle h _ => some h
    | _                => none

def StackEvent.isClose : StackEvent → Bool
  | .closeHandle _ _ => true
  | _                => false

def StackEvent.isResume : StackEvent → Bool
  | .resumeThread _ => true
  | _               => false

/-- The opened handles are closed once each and no others are, a thread is resumed once if it was
suspended, the lock is released as often as it is acquired, and no thread is resumed once its handle
is closed. -/
structure Released (events : List StackEvent) : Prop where
  closed   : closedHandles events = openedHandles events
  resumed  : events.countP StackEvent.isResume = if .suspendThread true ∈ events then 1 else 0
  unlocked : events.count .acquireSRWLockExclusive = events.count .releaseSRWLockExclusive
  inOrder  : events.Pairwise fun e e' => e.isClose → ¬ e'.isResume

/-- The call neither opens nor closes a handle, and neither suspends nor resumes a thread. -/
def StackEvent.IsNeutral : StackEvent → Prop
  | .openThread _ | .suspendThread _ | .resumeThread _ | .closeHandle _ _ => False
  | _ => True

lemma StackEvent.IsNeutral.not_isClose {e : StackEvent} (h : e.IsNeutral) : ¬ e.isClose := by
  cases e with
  | closeHandle handle succeeded => cases h
  | _ => exact Bool.false_ne_true

lemma StackEvent.IsNeutral.not_isResume {e : StackEvent} (h : e.IsNeutral) : ¬ e.isResume := by
  cases e with
  | resumeThread succeeded => cases h
  | _ => exact Bool.false_ne_true

lemma closedHandles_of_neutral {events : List StackEvent} (h : ∀ e ∈ events, e.IsNeutral) :
    closedHandles events = [] := by
  refine List.filterMap_eq_nil_iff.mpr fun e he => ?_
  have hneutral := h e he
  cases e with
  | closeHandle handle succeeded => cases hneutral
  | _ => rfl

lemma openedHandles_of_neutral {events : List StackEvent} (h : ∀ e ∈ events, e.IsNeutral) :
    openedHandles events = [] := by
  refine List.filterMap_eq_nil_iff.mpr fun e he => ?_
  have hneutral := h e he
  cases e with
  | openThread thread => cases hneutral
  | _ => rfl

/-- The order of the other calls is what matters. -/
lemma inOrder_insert_iff {before events after : List StackEvent}
    (h : ∀ e ∈ events, e.IsNeutral) :
    (before ++ (events ++ after)).Pairwise (fun e e' => e.isClose → ¬ e'.isResume) ↔
      (before ++ after).Pairwise fun e e' => e.isClose → ¬ e'.isResume := by
  have hevents : events.Pairwise fun e e' => e.isClose → ¬ e'.isResume := by
    rw [List.pairwise_iff_forall_sublist]
    intro e e' hsub hclose
    exact absurd hclose (h e (hsub.subset List.mem_cons_self)).not_isClose
  rw [List.pairwise_append, List.pairwise_append, List.pairwise_append]
  constructor
  · rintro ⟨hbefore, ⟨-, hafter, -⟩, hall⟩
    exact ⟨hbefore, hafter, fun e he e' he' => hall e he e' (List.mem_append_right _ he')⟩
  · rintro ⟨hbefore, hafter, hall⟩
    refine ⟨hbefore, ⟨hevents, hafter, ?_⟩, ?_⟩
    · exact fun e he _ _ hclose => absurd hclose (h e he).not_isClose
    · intro e he e' he'
      rcases List.mem_append.mp he' with hin | hin
      · exact fun _ => (h e' hin).not_isResume
      · exact hall e he e' hin

/-- Neutral calls change nothing, if the lock is released as often as it is acquired. -/
lemma released_insert_iff {before events after : List StackEvent}
    (hneutral : ∀ e ∈ events, e.IsNeutral)
    (hlock : events.count .acquireSRWLockExclusive = events.count .releaseSRWLockExclusive) :
    Released (before ++ (events ++ after)) ↔ Released (before ++ after) := by
  have hclosed : closedHandles (before ++ (events ++ after)) = closedHandles (before ++ after) := by
    have hnil := closedHandles_of_neutral hneutral
    rw [closedHandles] at hnil
    rw [closedHandles, List.filterMap_append, List.filterMap_append, hnil, List.nil_append,
      ← List.filterMap_append, closedHandles]
  have hopened : openedHandles (before ++ (events ++ after)) = openedHandles (before ++ after) := by
    have hnil := openedHandles_of_neutral hneutral
    rw [openedHandles] at hnil
    rw [openedHandles, List.filterMap_append, List.filterMap_append, hnil, List.nil_append,
      ← List.filterMap_append, openedHandles]
  have hresume : (before ++ (events ++ after)).countP StackEvent.isResume =
      (before ++ after).countP StackEvent.isResume := by
    have hzero := List.countP_eq_zero.mpr fun e he => (hneutral e he).not_isResume
    rw [List.countP_append, List.countP_append, hzero, Nat.zero_add, List.countP_append]
  have hsuspend : .suspendThread true ∈ before ++ (events ++ after) ↔
      .suspendThread true ∈ before ++ after := by
    have hnot : StackEvent.suspendThread true ∉ events := fun hmem => hneutral _ hmem
    rw [List.mem_append, List.mem_append, List.mem_append, or_iff_right hnot]
  have horder := @inOrder_insert_iff before events after hneutral
  constructor
  · -- the events take the lock as often as they release it
    rintro ⟨hc, hr, hu, ho⟩
    rw [List.count_append, List.count_append, List.count_append, List.count_append] at hu
    refine ⟨by rwa [hclosed, hopened] at hc, by simpa only [hresume, hsuspend] using hr, ?_,
      horder.mp ho⟩
    rw [List.count_append, List.count_append]
    omega
  · rintro ⟨hc, hr, hu, ho⟩
    rw [List.count_append, List.count_append] at hu
    refine ⟨by rwa [hclosed, hopened], by simpa only [hresume, hsuspend] using hr, ?_,
      horder.mpr ho⟩
    rw [List.count_append, List.count_append, List.count_append, List.count_append]
    omega

/-! ### The calls of `get_thread_stack` -/

/-- The calls of step 3. -/
def captureEvents (env : ThreadEnv) (threadId : UInt32) : List StackEvent :=
  if env.currentThreadId = threadId then [.rtlCaptureContext]
  else if ¬ env.suspendThread then [.suspendThread false]
  else [.suspendThread true, .getThreadContext env.getThreadContext]

/-- The calls behind the walk. -/
def endEvents (env : ThreadEnv) (threadId : UInt32) : List StackEvent :=
  if env.currentThreadId ≠ threadId ∧ env.suspendThread then
    if ¬ env.resumeThread then [.resumeThread false]
    else [.resumeThread true, .closeHandle env.openThread env.closeHandle]
  else [.closeHandle env.openThread env.closeHandle]

lemma captureContext_events (env : ThreadEnv) (threadId : UInt32) (s : WalkState) :
    (captureContext env threadId s).2.2.events = s.events ++ captureEvents env threadId := by
  rw [captureContext, captureEvents]
  by_cases hcurrent : env.currentThreadId = threadId
  · rw [if_pos hcurrent, if_pos hcurrent]
  · rw [if_neg hcurrent, if_neg hcurrent]
    by_cases hsuspend : env.suspendThread
    · rw [if_neg (not_not.mpr hsuspend), if_neg (not_not.mpr hsuspend)]
      by_cases hcontext : env.getThreadContext
      · rw [if_neg (not_not.mpr hcontext), hcontext]
      · rw [if_pos hcontext, eq_false_of_ne_true hcontext]
    · rw [if_pos hsuspend, if_pos hsuspend]

/-- The walk only looks up symbols. -/
lemma walk_events {g : SymbolHandler} {fs : List Frame} {pc : UInt64} {s s' : WalkState}
    (h : walk g fs pc s = some s') :
    ∃ lookups, s'.events = s.events ++ lookups ∧ ∀ e ∈ lookups,
      (∃ pc, e = .symFromAddr g.processHandle pc) ∨
        ∃ pc, e = .symGetLineFromAddr64 g.processHandle pc := by
  induction fs generalizing pc s with
  | nil =>
    rw [walk] at h
    split_ifs at h
    obtain rfl := Option.some.inj h
    exact ⟨[], (List.append_nil _).symm, fun e he => absurd he List.not_mem_nil⟩
  | cons f fs ih =>
    rw [walk] at h
    split_ifs at h
    · -- a frame with pc 0 ends the walk
      obtain rfl := Option.some.inj h
      exact ⟨[], (List.append_nil _).symm, fun e he => absurd he List.not_mem_nil⟩
    · -- the frame of the function itself is skipped: no lookup
      obtain ⟨lookups, hlookups, hall⟩ := ih h
      exact ⟨lookups, hlookups, hall⟩
    · obtain ⟨lookups, hlookups, hall⟩ := ih h
      refine ⟨_, hlookups.trans (List.append_assoc _ _ _), ?_⟩
      rw [List.forall_mem_append, List.forall_mem_cons, List.forall_mem_singleton]
      exact ⟨⟨Or.inl ⟨pc, rfl⟩, Or.inr ⟨pc, rfl⟩⟩, hall⟩

/-- Between step 3 and the end there are only neutral calls, and the lock is released. -/
lemma body_events {g : SymbolHandler} {env : ThreadEnv} {threadId : UInt32} {s s' : WalkState}
    (hbody : (if ¬ (captureContext env threadId s).1 then some (captureContext env threadId s).2.2
      else walkLocked g env threadId (captureContext env threadId s).2.2) = some s') :
    ∃ events, s'.events = s.events ++ captureEvents env threadId ++ events ∧
      (∀ e ∈ events, e.IsNeutral) ∧
      events.count .acquireSRWLockExclusive = events.count .releaseSRWLockExclusive := by
  by_cases hacquired : (captureContext env threadId s).1
  · -- the lock stands around the lookups, which are neutral
    rw [if_neg (not_not.mpr hacquired), walkLocked] at hbody
    obtain ⟨t, ht, rfl⟩ := Option.map_eq_some_iff.mp hbody
    obtain ⟨lookups, hlookups, hall⟩ := walk_events ht
    have hneutral : ∀ e ∈ lookups, e.IsNeutral := by
      intro e he
      rcases hall e he with ⟨pc, rfl⟩ | ⟨pc, rfl⟩
      · trivial
      · trivial
    have hacquire : lookups.count .acquireSRWLockExclusive = 0 := by
      refine List.count_eq_zero.mpr fun hmem => ?_
      rcases hall _ hmem with ⟨pc, heq⟩ | ⟨pc, heq⟩
      · cases heq
      · cases heq
    have hrelease : lookups.count .releaseSRWLockExclusive = 0 := by
      refine List.count_eq_zero.mpr fun hmem => ?_
      rcases hall _ hmem with ⟨pc, heq⟩ | ⟨pc, heq⟩
      · cases heq
      · cases heq
    refine ⟨.acquireSRWLockExclusive :: lookups ++ [.releaseSRWLockExclusive], ?_, ?_, ?_⟩
    · simp only [hlookups, captureContext_events, List.append_assoc, List.cons_append,
        List.nil_append]
    · rw [List.forall_mem_append, List.forall_mem_cons, List.forall_mem_singleton]
      exact ⟨⟨trivial, hneutral⟩, trivial⟩
    · simp [List.count_append, hacquire, hrelease]
  · rw [if_pos hacquired] at hbody
    obtain rfl := Option.some.inj hbody
    refine ⟨[], ?_, fun e he => absurd he List.not_mem_nil, rfl⟩
    rw [captureContext_events, List.append_nil]

lemma finish_events (env : ThreadEnv) (threadId : UInt32) (s s' : WalkState) :
    (finish env (captureContext env threadId s).2.1 s').events =
      s'.events ++ endEvents env threadId := by
  have hsuspended := captureContext_suspended env threadId s
  rw [finish, endEvents]
  simp only [hsuspended]
  split_ifs
  all_goals rfl

/-- Without the neutral calls. -/
lemma released_iff_of_opened {g : SymbolHandler} {env : ThreadEnv} {threadId : UInt32} {h : ℕ}
    {mem : List UInt8} {r : ThreadStack} (hne : mem.length ≠ 0)
    (hstate : g.symbolsState = .initialized) (hopen : env.openThread = some h)
    (hr : getThreadStack g env threadId (some mem) = some r) :
    Released r.events ↔
      Released (.openThread (some h) :: captureEvents env threadId ++ endEvents env threadId) := by
  rw [getThreadStack] at hr
  simp only [if_neg hne, if_neg (not_not.mpr hstate), hopen] at hr
  obtain ⟨s, hbody, rfl⟩ := Option.map_eq_some_iff.mp hr
  obtain ⟨events, hevents, hneutral, hlock⟩ := body_events hbody
  rw [finish_events, hevents, List.append_assoc _ events]
  exact released_insert_iff hneutral hlock

/-- A thread that cannot be resumed is not closed. -/
lemma released_opened_iff {env : ThreadEnv} {threadId : UInt32} {h : ℕ}
    (hopen : env.openThread = some h) :
    Released (.openThread (some h) :: captureEvents env threadId ++ endEvents env threadId) ↔
      ¬ env.StaysSuspended threadId := by
  have hopened : env.openThread ≠ none := by
    rw [hopen]
    exact Option.some_ne_none h
  rw [captureEvents, endEvents, hopen]
  by_cases hcurrent : env.currentThreadId = threadId
  · -- the thread itself: nothing is suspended
    rw [if_pos hcurrent, if_neg fun hother => hother.1 hcurrent]
    refine iff_of_true ⟨rfl, rfl, rfl, ?_⟩ fun hstays => hstays.2.1 hcurrent
    simp [StackEvent.isResume]
  rw [if_neg hcurrent]
  by_cases hsuspend : env.suspendThread
  · rw [if_neg (not_not.mpr hsuspend), if_pos ⟨hcurrent, hsuspend⟩]
    by_cases hresume : env.resumeThread
    · -- suspended and resumed, then closed
      rw [if_neg (not_not.mpr hresume)]
      refine iff_of_true ⟨rfl, rfl, rfl, ?_⟩ fun hstays => hstays.2.2.2 hresume
      simp [StackEvent.isResume, StackEvent.isClose]
    · -- the function returns at once: the handle stays open
      rw [if_pos hresume]
      refine iff_of_false (fun hreleased => ?_) fun hnot =>
        hnot ⟨hopened, hcurrent, hsuspend, hresume⟩
      cases hreleased.closed
  · -- SuspendThread failed: only the handle is to be closed
    rw [if_pos hsuspend, if_neg fun hother => hsuspend hother.2]
    refine iff_of_true ⟨rfl, rfl, rfl, ?_⟩ fun hstays => hsuspend hstays.2.2.1
    simp [StackEvent.isResume]

/-- Everything is released unless the thread stays suspended. -/
theorem released_iff {g : SymbolHandler} {env : ThreadEnv} {threadId : UInt32} {mem : List UInt8}
    {r : ThreadStack} (hne : mem ≠ [])
    (h : getThreadStack g env threadId (some mem) = some r) :
    Released r.events ↔ ¬ (g.symbolsState = .initialized ∧ env.StaysSuspended threadId) := by
  have hlength : mem.length ≠ 0 := fun hzero => hne (List.length_eq_zero_iff.mp hzero)
  by_cases hstate : g.symbolsState = .initialized
  · rw [and_iff_right hstate]
    match hopen : env.openThread with
    | none =>
      rw [getThreadStack] at h
      simp only [if_neg hlength, if_neg (not_not.mpr hstate), hopen] at h
      obtain rfl := Option.some.inj h
      exact iff_of_true ⟨rfl, rfl, rfl, List.pairwise_singleton _ _⟩ fun hstays => hstays.1 hopen
    | some hThread =>
      rw [released_iff_of_opened hlength hstate hopen h]
      exact released_opened_iff hopen
  · rw [getThreadStack] at h
    simp only [if_neg hlength, if_pos hstate] at h
    obtain rfl := Option.some.inj h
    exact iff_of_true ⟨rfl, rfl, rfl, List.Pairwise.nil⟩ fun hboth => hstate hboth.1

theorem released_iff_sample : ∃ r,
    getThreadStack ⟨.initialized, some 8, none⟩ { sampleThread with resumeThread := true } 2
      (some [51]) = some r ∧ Released r.events := by
  have hresult : getThreadStack ⟨.initialized, some 8, none⟩
    { sampleThread with resumeThread := true } 2 (some [51]) = some _ := rfl
  refine ⟨_, hresult, (released_iff (List.cons_ne_nil 51 []) hresult).mpr fun hboth => ?_⟩
  exact hboth.2.2.2.2 rfl

theorem not_released_suspended : ¬ ∀ (g : SymbolHandler) (env : ThreadEnv) (threadId : UInt32)
    (mem : List UInt8) (r : ThreadStack), mem ≠ [] →
    getThreadStack g env threadId (some mem) = some r → Released r.events := by
  intro h
  have hresult : getThreadStack ⟨.initialized, some 8, none⟩ sampleThread 2 (some [51]) = some _ := rfl
  have hreleased := h _ _ _ _ _ (List.cons_ne_nil 51 []) hresult
  cases hreleased.closed

end CLogging
