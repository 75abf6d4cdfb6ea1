import CLogging.Stack.Released

/-!
# The stack as a string

`getStackAsString` asks for the stack of the calling thread. That thread is neither suspended nor
resumed, so the path on which `get_thread_stack` keeps what it took is out of reach.
-/

namespace CLogging

open C Printf

/-- The platform, with what the calls of `getStackAsString` return there. -/
inductive StackPlatform where
  | windows (g : SymbolHandler) (env : ThreadEnv)
  | other

/-- `getStackAsString`. The destination is a block of `destinationSize` bytes. -/
def getStackAsString (destination : Option (List UInt8)) (platform : StackPlatform) :
    Option ThreadStack :=
  match destination with
  | none     => some ⟨none, []⟩
  | some mem =>
    if mem.length = 0 then some ⟨some mem, []⟩
    else
      match platform with
      | .windows g env => getThreadStack g env env.currentThreadId (some mem)
      | .other         => some ⟨some (mem.set 0 0), []⟩

/-- The symbol handler is initialised, where one is needed. -/
def StackPlatform.Prepared : StackPlatform → Prop
  | .windows g _ => g.symbolsState = .initialized
  | .other       => True

/-- What is printed. -/
def StackPlatform.calls : StackPlatform → List FallbackCall
  | .windows g env => threadCalls g env env.currentThreadId
  | .other         => []

/-- A thread is suspended or resumed. -/
def StackEvent.Stops : StackEvent → Prop
  | .suspendThread _ | .resumeThread _ => True
  | _ => False

lemma StackEvent.IsNeutral.not_stops {e : StackEvent} (h : e.IsNeutral) : ¬ e.Stops := by
  cases e with
  | suspendThread succeeded => exact fun _ => h
  | resumeThread succeeded => exact fun _ => h
  | _ => exact not_false

/-! ### The calling thread -/

/-- The calling thread is not suspended, so it does not stay so. -/
lemma not_staysSuspended_current (env : ThreadEnv) :
    ¬ env.StaysSuspended env.currentThreadId :=
  fun hstays => hstays.2.1 rfl

/-- Between opening and closing the thread, nothing is opened, closed, suspended or resumed. -/
lemma events_of_opened_current {g : SymbolHandler} {env : ThreadEnv} {h : ℕ} {mem : List UInt8}
    {r : ThreadStack} (hne : mem.length ≠ 0) (hstate : g.symbolsState = .initialized)
    (hopen : env.openThread = some h)
    (hr : getThreadStack g env env.currentThreadId (some mem) = some r) :
    ∃ events, r.events =
        .openThread (some h) :: events ++ [.closeHandle (some h) env.closeHandle] ∧
      ∀ e ∈ events, e.IsNeutral := by
  rw [getThreadStack] at hr
  simp only [if_neg hne, if_neg (not_not.mpr hstate), hopen] at hr
  obtain ⟨s, hbody, rfl⟩ := Option.map_eq_some_iff.mp hr
  obtain ⟨events, hevents, hneutral, -⟩ := body_events hbody
  have hcapture : captureEvents env env.currentThreadId = [.rtlCaptureContext] := if_pos rfl
  have hend : endEvents env env.currentThreadId = [.closeHandle (some h) env.closeHandle] := by
    rw [endEvents, if_neg fun hother => hother.1 rfl, hopen]
  refine ⟨.rtlCaptureContext :: events, ?_, List.forall_mem_cons.mpr ⟨trivial, hneutral⟩⟩
  rw [finish_events, hevents, hcapture, hend]
  rfl

/-- Nothing is called before the symbol handler is initialised. -/
lemma events_of_not_initialized {g : SymbolHandler} {env : ThreadEnv} {threadId : UInt32}
    {mem : List UInt8} {r : ThreadStack} (hne : mem.length ≠ 0)
    (hstate : g.symbolsState ≠ .initialized)
    (hr : getThreadStack g env threadId (some mem) = some r) : r.events = [] := by
  rw [getThreadStack] at hr
  simp only [if_neg hne, if_pos hstate] at hr
  obtain rfl := Option.some.inj hr
  rfl

/-- Nothing but the attempt is made if the thread cannot be opened. -/
lemma events_of_not_opened {g : SymbolHandler} {env : ThreadEnv} {threadId : UInt32}
    {mem : List UInt8} {r : ThreadStack} (hne : mem.length ≠ 0)
    (hstate : g.symbolsState = .initialized) (hopen : env.openThread = none)
    (hr : getThreadStack g env threadId (some mem) = some r) :
    r.events = [.openThread none] := by
  rw [getThreadStack] at hr
  simp only [if_neg hne, if_neg (not_not.mpr hstate), hopen] at hr
  obtain rfl := Option.some.inj hr
  rfl

/-- What is taken is released, and no thread is stopped. -/
lemma released_current {g : SymbolHandler} {env : ThreadEnv} {mem : List UInt8} {r : ThreadStack}
    (hne : mem.length ≠ 0)
    (hr : getThreadStack g env env.currentThreadId (some mem) = some r) :
    Released r.events ∧ ∀ e ∈ r.events, ¬ e.Stops := by
  by_cases hstate : g.symbolsState = .initialized
  · cases hopen : env.openThread with
    | none =>
      rw [events_of_not_opened hne hstate hopen hr]
      refine ⟨⟨rfl, rfl, rfl, List.pairwise_singleton _ _⟩, ?_⟩
      rw [List.forall_mem_singleton]
      exact not_false
    | some h =>
      refine ⟨(released_iff_of_opened hne hstate hopen hr).mpr
        ((released_opened_iff hopen).mpr (not_staysSuspended_current env)), ?_⟩
      obtain ⟨events, hevents, hneutral⟩ := events_of_opened_current hne hstate hopen hr
      rw [hevents, List.forall_mem_append, List.forall_mem_cons, List.forall_mem_singleton]
      exact ⟨⟨not_false, fun e he => (hneutral e he).not_stops⟩, not_false⟩
  · rw [events_of_not_initialized hne hstate hr]
    exact ⟨⟨rfl, rfl, rfl, List.Pairwise.nil⟩, fun e he => absurd he List.not_mem_nil⟩

/-- The buffer keeps its length, and holds a terminator once the symbol handler is initialised. -/
lemma terminated_current {g : SymbolHandler} {env : ThreadEnv} {mem : List UInt8}
    {r : ThreadStack} (hne : mem ≠ [])
    (hr : getThreadStack g env env.currentThreadId (some mem) = some r) :
    ∃ buffer, r.destination = some buffer ∧ buffer.length = mem.length ∧
      (0 ∈ buffer ↔ g.symbolsState = .initialized ∨
        LeavesNul (threadCalls g env env.currentThreadId) mem) := by
  have hlength : mem.length ≠ 0 := fun hzero => hne (List.length_eq_zero_iff.mp hzero)
  have hset : (mem.set 0 0).length = mem.length := List.length_set
  by_cases hstate : g.symbolsState = .initialized
  · rcases getThreadStack_initialized hlength hstate hr with ⟨-, heq⟩ | ⟨hstays, -⟩
    · -- the store at the end terminates whatever was printed
      have hstore := storeLast_snprintfFallbackAll (threadCalls g env env.currentThreadId)
        (mem.set 0 0)
      have hprinted := length_mem_snprintfFallbackAll (threadCalls g env env.currentThreadId)
        ⟨mem.set 0 0, 0, mem.length⟩
      rw [hset] at hstore
      rw [hstore] at heq
      refine ⟨_, heq, List.length_set.trans (hprinted.trans hset), iff_of_true ?_ (Or.inl hstate)⟩
      refine List.mem_set ?_ 0
      rw [hprinted, hset]
      exact Nat.sub_one_lt hlength
    · exact absurd hstays (not_staysSuspended_current env)
  · -- one text over what the buffer held; nothing is stored behind it
    have hcalls : threadCalls g env env.currentThreadId = [env.notInitializedCall] := if_pos hstate
    rw [getThreadStack] at hr
    simp only [if_neg hlength, if_pos hstate] at hr
    obtain rfl := Option.some.inj hr
    refine ⟨_, rfl, length_mem_snprintfFallbackAll [env.notInitializedCall] ⟨mem, 0, mem.length⟩, ?_⟩
    rw [hcalls, or_iff_right hstate]
    exact zero_mem_snprintfFallbackAll_iff [env.notInitializedCall] mem

/-! ### `getStackAsString` -/

/-- `getStackAsString` stops no thread and gives back what it takes. The text is terminated exactly
if the platform has no symbol handler, the symbol handler is initialised, or the message that it is
not leaves a terminator. -/
theorem getStackAsString_released {platform : StackPlatform} {mem : List UInt8} {r : ThreadStack}
    (hne : mem ≠ []) (h : getStackAsString (some mem) platform = some r) :
    Released r.events ∧ (∀ e ∈ r.events, ¬ e.Stops) ∧
      ∃ buffer, r.destination = some buffer ∧ buffer.length = mem.length ∧
        (0 ∈ buffer ↔ platform.Prepared ∨ LeavesNul platform.calls mem) := by
  have hlength : mem.length ≠ 0 := fun hzero => hne (List.length_eq_zero_iff.mp hzero)
  cases platform with
  | windows g env =>
    rw [getStackAsString] at h
    simp only [if_neg hlength] at h
    obtain ⟨hreleased, hstops⟩ := released_current hlength h
    exact ⟨hreleased, hstops, terminated_current hne h⟩
  | other =>
    rw [getStackAsString] at h
    simp only [if_neg hlength] at h
    obtain rfl := Option.some.inj h
    refine ⟨⟨rfl, rfl, rfl, List.Pairwise.nil⟩, fun e he => absurd he List.not_mem_nil, _, rfl,
      List.length_set, iff_of_true ?_ (Or.inl trivial)⟩
    exact List.mem_set (Nat.pos_of_ne_zero hlength) 0

theorem getStackAsString_released_sample : ∃ r,
    getStackAsString (some [51, 51]) (.windows ⟨.initialized, some 8, none⟩ sampleThread) = some r ∧
      Released r.events ∧ ∃ buffer, r.destination = some buffer ∧ 0 ∈ buffer := by
  have hresult : getStackAsString (some [51, 51])
    (.windows ⟨.initialized, some 8, none⟩ sampleThread) = some _ := rfl
  obtain ⟨hreleased, -, buffer, hbuffer, -, hiff⟩ :=
    getStackAsString_released (List.cons_ne_nil 51 [51]) hresult
  exact ⟨_, hresult, hreleased, buffer, hbuffer, hiff.mpr (Or.inl rfl)⟩

end CLogging
