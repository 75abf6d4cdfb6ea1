import CLogging.Stack.Concurrent
import CLogging.Stack.Frames

/-!
# The symbol handler under the lock

The lock makes calls from several threads look as if they had been made one after the other. So the
symbol handler is found initialised in any order of the threads, although a refresh cleans it up and
initialises it again.
-/

namespace CLogging

open C Machine Threads

/-! ### Two threads -/

/-- A thread that takes its own stack, and one that refreshes the symbol handler. -/
def twoThreads (t : UInt32) : List StackCall :=
  if t = 1 then [.getThreadStack walkedThread 1 (some [51])]
  else if t = 2 then [.refreshModuleList { sampleRefresh with createToolhelp32Snapshot := none }]
  else []

/-- What they do. -/
def twoPrograms (t : UInt32) : List (Action UInt32 StackEvent) :=
  if t = 1 then
    [.act (.openThread (some 4)), .act .rtlCaptureContext, .acquire,
      .act (.symFromAddr (some 8) 32), .act (.symGetLineFromAddr64 (some 8) 32), .release,
      .act (.closeHandle (some 4) true)]
  else if t = 2 then
    [.acquire, .act (.createToolhelp32Snapshot none), .act (.symRefreshModuleList (some 8) true),
      .release]
  else []

lemma concurrent_twoThreads : Concurrent x64 twoThreads twoPrograms := by
  refine ⟨fun t c hc => ?_, fun t => ?_⟩
  · rw [twoThreads] at hc
    split_ifs at hc with h1 h2
    · obtain rfl := List.mem_singleton.mp hc
      exact h1.symm
    · obtain rfl := List.mem_singleton.mp hc
      trivial
    · cases hc
  · rw [twoThreads, twoPrograms]
    split_ifs
    · rfl
    · rfl
    · rfl

/-! ### Critical sections -/

variable {g : SymbolHandler} {calls : UInt32 → List StackCall}
  {programs : UInt32 → List (Action UInt32 StackEvent)}

lemma Concurrent.locks (h : Concurrent g calls programs) (t : UInt32) :
    Locks StackEvent.isSymCall false (programs t) :=
  (program_spec (h.madeBy t) (h.returns t)).1

/-- The symbol handler is called as if the calls of `get_thread_stack` and of the refresh that take the
lock were made one after the other, those of each thread in their order: there is an order of their
critical sections such that what all threads have called, and what the thread that holds the lock
has yet to call, are the calls of these sections. -/
theorem symCalls_serialized (h : Concurrent g calls programs) {schedule : List UInt32}
    {s : State UInt32 StackEvent} {trace : List (UInt32 × Action UInt32 StackEvent)}
    (hrun : run State.step (.start programs) schedule = some (s, trace)) :
    ∃ order : List (UInt32 × List StackEvent),
      expand order = guarded StackEvent.isSymCall trace ++ s.pending StackEvent.isSymCall ∧
      ∀ t, sectionsOf order t ++ sections StackEvent.isSymCall (s.rest t) =
        (calls t).filterMap (StackCall.symCalls g) := by
  obtain ⟨-, order, horder⟩ := exists_order h.locks hrun
  refine ⟨order, horder.expand_eq, fun t => ?_⟩
  rw [horder.sections_eq, (program_spec (h.madeBy t) (h.returns t)).2.1]

/-- The second thread takes the lock between two steps of the first, which then takes it in turn, and
has yet to make one of its calls. -/
theorem symCalls_serialized_sample : ∃ s trace,
    run State.step (.start twoPrograms) [1, 2, 2, 1, 2, 2, 1, 1] = some (s, trace) ∧
    ∃ order : List (UInt32 × List StackEvent),
      expand order = guarded StackEvent.isSymCall trace ++ s.pending StackEvent.isSymCall ∧
      ∀ t, sectionsOf order t ++ sections StackEvent.isSymCall (s.rest t) =
        (twoThreads t).filterMap (StackCall.symCalls x64) := by
  have hrun : run State.step (.start twoPrograms) [1, 2, 2, 1, 2, 2, 1, 1] = some (_, _) := rfl
  exact ⟨_, _, hrun, symCalls_serialized concurrent_twoThreads hrun⟩

/-! ### The calls of all threads -/

/-- The calls that all threads have made. -/
def madeCalls (trace : List (UInt32 × Action UInt32 StackEvent)) : List StackEvent :=
  trace.filterMap fun
    | (_, .act e) => some e
    | _           => none

lemma guarded_map_snd (trace : List (UInt32 × Action UInt32 StackEvent)) :
    (guarded StackEvent.isSymCall trace).map Prod.snd =
      (madeCalls trace).filter StackEvent.isSymCall := by
  rw [guarded, madeCalls, List.map_filterMap, List.filter_filterMap]
  refine List.filterMap_congr fun o _ => ?_
  obtain ⟨t, a⟩ := o
  cases a with
  | act e =>
    by_cases he : e.isSymCall
    · simp [he, Option.filter]
    · simp [he, Option.filter]
  | _ => rfl

lemma expand_map_snd (order : List (UInt32 × List StackEvent)) :
    (expand order).map Prod.snd = order.flatMap Prod.snd := by
  rw [expand, List.map_flatMap]
  simp [Function.comp_def]

/-- Only calls of the symbol handler matter. -/
lemma live_filter_iff {past events : List StackEvent} {process : Option ℕ} :
    Live (past ++ events.filter StackEvent.isSymCall) process ↔ Live (past ++ events) process := by
  have hclean : ∀ {es : List StackEvent} {succeeded : Bool},
      .symCleanup process succeeded ∈ es.filter StackEvent.isSymCall ↔
        .symCleanup process succeeded ∈ es := by
    intro es succeeded
    exact List.mem_filter.trans (and_iff_left rfl)
  have hlive : Live (events.filter StackEvent.isSymCall) process ↔ Live events process := by
    induction events with
    | nil => rfl
    | cons e es ih =>
      by_cases he : e.isSymCall
      · rw [List.filter_cons_of_pos he, live_cons_iff, live_cons_iff, ih]
        simp only [hclean]
      · rw [List.filter_cons_of_neg he, ih, live_cons_iff, or_iff_left]
        rintro ⟨⟨path, rfl⟩, -⟩
        exact he rfl
  rw [live_append_iff, live_append_iff, hlive]
  simp only [hclean]

lemma StackEvent.UsesSymbols.isSymCall {e : StackEvent} {process : Option ℕ}
    (h : e.UsesSymbols process) : e.isSymCall = true := by
  cases e <;> first | rfl | cases h

lemma UsesLive.of_append {trace events : List StackEvent} (h : UsesLive (trace ++ events)) :
    UsesLive trace := by
  rintro before e after process rfl huse
  exact h before e (after ++ events) process (List.append_assoc _ _ _) huse

/-- Calls of other functions between those of the symbol handler do not matter. -/
lemma UsesLive.of_filter {past events : List StackEvent}
    (h : UsesLive (past ++ events.filter StackEvent.isSymCall)) : UsesLive (past ++ events) := by
  intro before e after process heq huse
  rcases List.append_eq_append_iff.mp heq with ⟨middle, rfl, hmiddle⟩ | ⟨middle, rfl, hmiddle⟩
  · rw [← live_filter_iff]
    refine h _ e (after.filter StackEvent.isSymCall) process ?_ huse
    rw [hmiddle, List.filter_append, List.filter_cons_of_pos huse.isSymCall, List.append_assoc]
  · match middle with
    | [] =>
      rw [List.append_nil] at h
      refine h before e (after.filter StackEvent.isSymCall) process ?_ huse
      rw [← List.nil_append events, ← hmiddle, List.filter_cons_of_pos huse.isSymCall]
    | e' :: middle =>
      obtain ⟨rfl, -⟩ := List.cons.inj hmiddle
      refine h before _ (middle ++ events.filter StackEvent.isSymCall) process ?_ huse
      rw [List.append_assoc]
      rfl

/-! ### The symbol handler -/

/-- The critical section of a call keeps the symbol handler initialised, unless it is a refresh that
fails to initialise it again. -/
lemma Truthful.symCalls {past es : List StackEvent} (h : Truthful g past) {c : StackCall}
    {t : UInt32} (hc : c.MadeBy t) (hfails : ¬ c.LosesHandler g) (hes : c.symCalls g = some es) :
    Truthful g (past ++ es) := by
  obtain ⟨⟨g', events⟩, hstep, hlocked⟩ := Option.bind_eq_some_iff.mp hes
  split_ifs at hlocked
  obtain rfl := Option.some.inj hlocked
  have hkeeps : (∀ e ∈ events, e.Keeps g) →
      Truthful g (past ++ events.filter StackEvent.isSymCall) := fun hevents =>
    h.keeps fun e he => hevents e (List.mem_filter.mp he).1
  match c with
  | .init env =>
    -- these calls are not made by a thread that runs next to others
    cases hc
  | .deinit symCleanup closeHandle => cases hc
  | .getThreadStack env threadId destination =>
    obtain ⟨r, hr, heq⟩ := Option.map_eq_some_iff.mp hstep
    obtain ⟨rfl, rfl⟩ := Prod.mk.inj heq
    exact hkeeps (getThreadStack_keeps hr)
  | .refreshModuleList env =>
    obtain ⟨inner, hinner, heq⟩ := Option.map_eq_some_iff.mp hstep
    obtain ⟨rfl, rfl⟩ := Prod.mk.inj heq
    rcases refreshModuleList_cases hinner with hevents |
      ⟨hstate, snapshot, path, closed, cleaned, rfl, hfailed⟩
    · -- no clean-up: what was live stays live
      exact hkeeps hevents
    · -- SymInitialize directly behind SymCleanup in the same section
      obtain ⟨handle, hsome, -⟩ := h.state.mp hstate
      have hsucceeded : env.symInitialize = true := by
        by_contra hnot
        exact hfails (hfailed (eq_false_of_ne_true hnot))
      rw [hsucceeded, hsome]
      refine h.opened hstate hsome ?_ ?_
      · simp [List.filter_cons, StackEvent.isSymCall, live_cons_iff]
      · simp [List.filter_cons, StackEvent.isSymCall, StackEvent.UsesSymbols]

lemma Truthful.order {order : List (UInt32 × List StackEvent)}
    (horder : ∀ x ∈ order, ∃ c : StackCall, c.MadeBy x.1 ∧ ¬ c.LosesHandler g ∧ c.symCalls g = some x.2)
    {past : List StackEvent} (h : Truthful g past) : Truthful g (past ++ order.flatMap Prod.snd) := by
  induction order generalizing past with
  | nil => rwa [List.flatMap_nil, List.append_nil]
  | cons x order ih =>
    rw [List.forall_mem_cons] at horder
    obtain ⟨c, hc, hfails, hes⟩ := horder.1
    rw [List.flatMap_cons, ← List.append_assoc]
    exact ih horder.2 (h.symCalls hc hfails hes)

/-- If no refresh fails to initialise the symbol handler again, every call that needs it finds it
initialised, in any order of the threads, and whenever no thread holds the lock, the variables of the
module say what is the case. -/
theorem usesLive_of_concurrent (h : Concurrent g calls programs)
    (hfails : ∀ t, ∀ c ∈ calls t, ¬ c.LosesHandler g) {past : List StackEvent}
    (hpast : Truthful g past) {schedule : List UInt32} {s : State UInt32 StackEvent}
    {trace : List (UInt32 × Action UInt32 StackEvent)}
    (hrun : run State.step (.start programs) schedule = some (s, trace)) :
    UsesLive (past ++ madeCalls trace) ∧
      (s.holder = none → Truthful g (past ++ madeCalls trace)) := by
  obtain ⟨-, order, horder⟩ := exists_order h.locks hrun
  have hcalls : ∀ x ∈ order, ∃ c : StackCall, c.MadeBy x.1 ∧ ¬ c.LosesHandler g ∧ c.symCalls g = some x.2 := by
    intro x hx
    have hmem : x.2 ∈ sectionsOf order x.1 := by
      refine List.mem_map.mpr ⟨x, List.mem_filter.mpr ⟨hx, ?_⟩, rfl⟩
      exact decide_eq_true rfl
    have hsections := horder.sections_eq x.1
    rw [(program_spec (h.madeBy x.1) (h.returns x.1)).2.1] at hsections
    have hall := hsections ▸ List.mem_append_left _ hmem
    obtain ⟨c, hc, hes⟩ := List.mem_filterMap.mp hall
    exact ⟨c, h.madeBy x.1 c hc, hfails x.1 c hc, hes⟩
  have htruthful := hpast.order hcalls
  have hexpand := congrArg (List.map Prod.snd) horder.expand_eq
  rw [expand_map_snd, List.map_append, guarded_map_snd] at hexpand
  rw [hexpand, ← List.append_assoc] at htruthful
  have huses : UsesLive (past ++ madeCalls trace) := htruthful.uses.of_append.of_filter
  refine ⟨huses, fun hfree => .mk' ?_ hpast.handle huses⟩
  rw [pending_of_free hfree, List.map_nil, List.append_nil] at htruthful
  rw [htruthful.state, HandlerLive, HandlerLive]
  simp only [live_filter_iff]

lemma twoThreads_keep (t : UInt32) : ∀ c ∈ twoThreads t, ¬ c.LosesHandler x64 := by
  intro c hc hloses
  rw [twoThreads] at hc
  split_ifs at hc
  · obtain rfl := List.mem_singleton.mp hc
    exact hloses
  · obtain rfl := List.mem_singleton.mp hc
    exact hloses.2.1 rfl
  · cases hc

/-- The symbol handler is refreshed between two steps of the thread that looks up its frames. -/
theorem usesLive_of_concurrent_sample : ∃ s trace past,
    run State.step (.start twoPrograms) [1, 2, 2, 1, 2, 2, 1, 1, 1, 1, 1] = some (s, trace) ∧
    UsesLive (past ++ madeCalls trace) := by
  have hrun : run State.step (.start twoPrograms) [1, 2, 2, 1, 2, 2, 1, 1, 1, 1, 1] =
    some (_, _) := rfl
  have hinit : (SymbolHandler.start none).step (.init sampleInit) = some (x64, _) := rfl
  have hpast := (truthful_start none).step hinit fun hloses => hloses
  exact ⟨_, _, _, hrun, (usesLive_of_concurrent concurrent_twoThreads twoThreads_keep hpast hrun).1⟩

end CLogging
