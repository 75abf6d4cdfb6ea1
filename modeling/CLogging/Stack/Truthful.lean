import CLogging.Lib.Machine
import CLogging.Stack.Thread

/-!
# The state of the symbol handler

Whatever the operating system does, the variables of the module say whether the symbol handler of the
process is initialised, as long as no refresh fails to re-initialise it.
-/

namespace CLogging

open C Machine

/-- A call of the module, with what the calls it makes return. -/
inductive StackCall where
  | init (env : InitEnv)
  | refreshModuleList (env : RefreshEnv)
  | deinit (symCleanup closeHandle : Bool)
  | getThreadStack (env : ThreadEnv) (threadId : UInt32) (destination : Option (List UInt8))

/-- One call, and the calls it makes. -/
def SymbolHandler.step (g : SymbolHandler) : StackCall → Option (SymbolHandler × List StackEvent)
  | .init env                => some ((getThreadStackInit env g).1, (getThreadStackInit env g).2.2)
  | .refreshModuleList env   =>
    (getThreadStackRefreshModuleList env g).map fun events => (g, events)
  | .deinit symCleanup closeHandle => some (getThreadStackDeinit symCleanup closeHandle g)
  | .getThreadStack env threadId destination =>
    (getThreadStack g env threadId destination).map fun r => (g, r.events)

/-- The module before the first call. -/
def SymbolHandler.start (addressMask : Option UInt64) : SymbolHandler :=
  ⟨.notInitialized, none, addressMask⟩

/-! ### Traces -/

/-- The symbol handler of a process is initialised: the last successful `SymInitialize` is not
followed by a `SymCleanup`. -/
def Live (trace : List StackEvent) (process : Option ℕ) : Prop :=
  ∃ before path after, trace = before ++ .symInitialize process path true :: after ∧
    ∀ succeeded, .symCleanup process succeeded ∉ after

/-- The call needs the symbol handler of the process. -/
def StackEvent.UsesSymbols (process : Option ℕ) : StackEvent → Prop
  | .symFromAddr p _ | .symGetLineFromAddr64 p _ | .symRefreshModuleList p _ => p = process
  | _ => False

/-- The call neither initialises nor cleans up a symbol handler. -/
def StackEvent.Quiet : StackEvent → Prop
  | .symInitialize _ _ _ | .symCleanup _ _ => False
  | _ => True

/-- Every call that needs a symbol handler finds it initialised. -/
def UsesLive (trace : List StackEvent) : Prop :=
  ∀ before e after process, trace = before ++ e :: after → e.UsesSymbols process →
    Live before process

lemma live_append_iff {trace events : List StackEvent} {process : Option ℕ} :
    Live (trace ++ events) process ↔
      Live events process ∨ Live trace process ∧ ∀ succeeded, .symCleanup process succeeded ∉ events := by
  constructor
  · rintro ⟨before, path, after, heq, hclean⟩
    rcases List.append_eq_append_iff.mp heq with ⟨middle, rfl, rfl⟩ | ⟨middle, rfl, hmiddle⟩
    · -- the initialisation is among the events, with what follows it there
      exact Or.inl ⟨middle, path, after, rfl, hclean⟩
    · -- the initialisation is in the trace: no clean-up behind it, there or among the events
      match middle with
      | [] => exact Or.inl ⟨[], path, after, hmiddle.symm, hclean⟩
      | e :: middle =>
        obtain ⟨rfl, rfl⟩ := List.cons.inj hmiddle
        exact Or.inr ⟨⟨before, path, middle, rfl,
          fun succeeded h => hclean succeeded (List.mem_append_left _ h)⟩,
          fun succeeded h => hclean succeeded (List.mem_append_right _ h)⟩
  · rintro (⟨before, path, after, rfl, hclean⟩ | ⟨⟨before, path, after, rfl, hclean⟩, hevents⟩)
    · exact ⟨trace ++ before, path, after, (List.append_assoc _ _ _).symm, hclean⟩
    · refine ⟨before, path, after ++ events, List.append_assoc _ _ _, fun succeeded h => ?_⟩
      rcases List.mem_append.mp h with hafter | hmem
      · exact hclean succeeded hafter
      · exact hevents succeeded hmem

lemma not_live_nil (process : Option ℕ) : ¬ Live [] process := by
  rintro ⟨before, path, after, heq, -⟩
  exact List.append_ne_nil_of_right_ne_nil before (List.cons_ne_nil _ _) heq.symm

lemma live_cons_iff {e : StackEvent} {events : List StackEvent} {process : Option ℕ} :
    Live (e :: events) process ↔ Live events process ∨
      (∃ path, e = .symInitialize process path true) ∧
        ∀ succeeded, .symCleanup process succeeded ∉ events := by
  have hone : Live [e] process ↔ ∃ path, e = .symInitialize process path true := by
    constructor
    · rintro ⟨before, path, after, heq, -⟩
      have hmem : StackEvent.symInitialize process path true ∈ [e] := by
        rw [heq]
        exact List.mem_append_right _ List.mem_cons_self
      exact ⟨path, (List.mem_singleton.mp hmem).symm⟩
    · rintro ⟨path, rfl⟩
      exact ⟨[], path, [], rfl, fun _ => List.not_mem_nil⟩
  rw [← List.singleton_append, live_append_iff, hone]

/-- Calls that neither initialise nor clean up a symbol handler change nothing. -/
lemma live_append_of_quiet {trace events : List StackEvent} {process : Option ℕ}
    (h : ∀ e ∈ events, e.Quiet) : Live (trace ++ events) process ↔ Live trace process := by
  rw [live_append_iff]
  constructor
  · rintro (⟨before, path, after, rfl, -⟩ | ⟨hlive, -⟩)
    · exact (h _ (List.mem_append_right _ List.mem_cons_self)).elim
    · exact hlive
  · exact fun hlive => Or.inr ⟨hlive, fun _ hmem => h _ hmem⟩

lemma UsesLive.append {trace events : List StackEvent} (h : UsesLive trace)
    (hevents : ∀ e ∈ events, ∀ process, e.UsesSymbols process →
      Live trace process ∧ ∀ e' ∈ events, e'.Quiet) : UsesLive (trace ++ events) := by
  intro before e after process heq huse
  rcases List.append_eq_append_iff.mp heq with ⟨middle, rfl, hmiddle⟩ | ⟨middle, hbefore, hmiddle⟩
  · -- one of the events uses symbols: the trace is live and the events before it change nothing
    have hmem : e ∈ events := hmiddle ▸ List.mem_append_right _ List.mem_cons_self
    obtain ⟨hlive, hquiet⟩ := hevents e hmem process huse
    have hbefore : ∀ e' ∈ middle, e'.Quiet := fun e' he' =>
      hquiet e' (hmiddle ▸ List.mem_append_left _ he')
    exact (live_append_of_quiet hbefore).mpr hlive
  · -- a step of the trace uses symbols: what stood before it is the same
    match middle with
    | [] =>
      rw [List.append_nil] at hbefore
      have hmem : e ∈ events := by
        rw [← List.nil_append events, ← hmiddle]
        exact List.mem_cons_self
      exact hbefore ▸ (hevents e hmem process huse).1
    | e' :: middle =>
      obtain ⟨rfl, -⟩ := List.cons.inj hmiddle
      exact h before _ middle process hbefore huse

/-! ### What holds after every call -/

/-- The symbol handler of the process the module has a handle of is initialised. -/
def HandlerLive (g : SymbolHandler) (trace : List StackEvent) : Prop :=
  ∃ h, g.processHandle = some h ∧ Live trace (some h)

/-- The variables of the module say what is the case. Whatever needs the symbol handler has found it
initialised, and `get_thread_stack_init` initialises it if it is not. -/
structure Truthful (g : SymbolHandler) (trace : List StackEvent) : Prop where
  state  : g.symbolsState = .initialized ↔ HandlerLive g trace
  handle : g.processHandle ≠ none ↔ g.symbolsState = .initialized
  uses   : UsesLive trace
  init   : ∀ env, .duplicateHandle env.duplicateHandle ∈ (getThreadStackInit env g).2.2 ↔
    ¬ HandlerLive g trace

/-- The call is a refresh while the module is initialised. Some loaded module has a directory, and
`SymInitialize` fails. -/
def StackCall.LosesHandler (g : SymbolHandler) : StackCall → Prop
  | .refreshModuleList env =>
    g.symbolsState = .initialized ∧ env.createToolhelp32Snapshot ≠ none ∧
      (∃ m ∈ env.modules, HasDir m) ∧ env.symInitialize = false
  | _ => False

/-! ### Single calls -/

/-- What `get_thread_stack_init` can do. -/
lemma getThreadStackInit_cases (env : InitEnv) (g : SymbolHandler) :
    (g.symbolsState = .initialized ∧ getThreadStackInit env g = (g, true, [])) ∨
    (g.symbolsState = .notInitialized ∧ env.duplicateHandle = none ∧
      getThreadStackInit env g = (g, false, [.duplicateHandle none])) ∨
    (g.symbolsState = .notInitialized ∧ ∃ h path mask, env.duplicateHandle = some h ∧
      getThreadStackInit env g = (⟨.initialized, some h, mask⟩, true,
        [.duplicateHandle (some h), .symInitialize (some h) path true])) ∨
    (g.symbolsState = .notInitialized ∧ ∃ h path closed, env.duplicateHandle = some h ∧
      getThreadStackInit env g = ({ g with processHandle := none }, false,
        [.duplicateHandle (some h), .symInitialize (some h) path false,
          .closeHandle (some h) closed])) := by
  rw [getThreadStackInit]
  match hstate : g.symbolsState with
  | .initialized => exact Or.inl ⟨rfl, rfl⟩
  | .notInitialized =>
    rw [if_pos rfl]
    match env.duplicateHandle with
    | none => exact Or.inr (Or.inl ⟨rfl, rfl, rfl⟩)
    | some h =>
      refine Or.inr (Or.inr ?_)
      by_cases hsucceeded : env.symInitialize
      · -- no call failed: the handle and the process mask are stored
        exact Or.inl ⟨rfl, h, _, _, rfl, if_pos hsucceeded⟩
      · -- SymInitialize failed: the handle is closed again
        exact Or.inr ⟨rfl, h, _, _, rfl, if_neg hsucceeded⟩

/-- `get_thread_stack_init` does something exactly if the module is not initialised. -/
lemma duplicateHandle_mem_init_iff (env : InitEnv) (g : SymbolHandler) :
    .duplicateHandle env.duplicateHandle ∈ (getThreadStackInit env g).2.2 ↔
      ¬ g.symbolsState = .initialized := by
  rcases getThreadStackInit_cases env g with ⟨hstate, heq⟩ | ⟨hstate, hnone, heq⟩ |
    ⟨hstate, h, path, mask, hsome, heq⟩ | ⟨hstate, h, path, closed, hsome, heq⟩
  · rw [heq, hstate]
    exact iff_of_false List.not_mem_nil (not_not.mpr rfl)
  · rw [heq, hstate, hnone]
    exact iff_of_true List.mem_cons_self SymInit.noConfusion
  · rw [heq, hstate, hsome]
    exact iff_of_true List.mem_cons_self SymInit.noConfusion
  · rw [heq, hstate, hsome]
    exact iff_of_true List.mem_cons_self SymInit.noConfusion

lemma Truthful.mk' {g : SymbolHandler} {trace : List StackEvent}
    (state : g.symbolsState = .initialized ↔ HandlerLive g trace)
    (handle : g.processHandle ≠ none ↔ g.symbolsState = .initialized) (uses : UsesLive trace) :
    Truthful g trace :=
  ⟨state, handle, uses, fun env => by rw [duplicateHandle_mem_init_iff, state]⟩

/-- The call leaves all symbol handlers as they are, and needs none unless the module is initialised,
and then only its own. -/
def StackEvent.Keeps (g : SymbolHandler) (e : StackEvent) : Prop :=
  e.Quiet ∧ ∀ process, e.UsesSymbols process →
    g.processHandle = process ∧ g.symbolsState = .initialized

/-- What `get_thread_stack_refresh_module_list` can do: keep the symbol handler, or clean it up and
try to initialise it again. -/
lemma refreshModuleList_cases {env : RefreshEnv} {g : SymbolHandler} {events : List StackEvent}
    (h : getThreadStackRefreshModuleList env g = some events) :
    (∀ e ∈ events, e.Keeps g) ∨
    g.symbolsState = .initialized ∧ ∃ snapshot path closed cleaned,
      events = [.acquireSRWLockExclusive, .createToolhelp32Snapshot (some snapshot),
        .closeHandle (some snapshot) closed, .symCleanup g.processHandle cleaned,
        .symInitialize g.processHandle path env.symInitialize, .releaseSRWLockExclusive] ∧
      (env.symInitialize = false → (StackCall.refreshModuleList env).LosesHandler g) := by
  rw [getThreadStackRefreshModuleList] at h
  by_cases hstate : g.symbolsState = .initialized
  · rw [if_neg (not_not.mpr hstate)] at h
    match hsnapshot : env.createToolhelp32Snapshot with
    | none =>
      rw [hsnapshot] at h
      obtain rfl := Option.some.inj h
      refine Or.inl ?_
      simp only [List.forall_mem_cons, StackEvent.Keeps, StackEvent.Quiet, StackEvent.UsesSymbols]
      simp [hstate]
    | some snapshot =>
      rw [hsnapshot] at h
      obtain ⟨s, hs, hrest⟩ := Option.bind_eq_some_iff.mp h
      obtain ⟨inner, hinner, rfl⟩ := Option.map_eq_some_iff.mp hrest
      rw [reinitialization] at hinner
      split_ifs at hinner with hlength hzero
      · -- nothing to search: SymCleanup is not called
        obtain rfl := Option.some.inj hinner
        refine Or.inl ?_
        simp [StackEvent.Keeps, StackEvent.Quiet, StackEvent.UsesSymbols]
      · -- SymCleanup and SymInitialize, whose result only the trace shows
        obtain rfl := Option.some.inj hinner
        refine Or.inr ⟨hstate, snapshot, _, _, _, rfl, fun hfails => ?_⟩
        refine ⟨hstate, ?_, (SearchPath.length_ne_zero_iff hs).mp hlength, hfails⟩
        rw [hsnapshot]
        exact Option.some_ne_none snapshot
  · rw [if_pos hstate] at h
    obtain rfl := Option.some.inj h
    exact Or.inl fun e he => absurd he List.not_mem_nil

/-- Such a refresh cleans up the symbol handler last. -/
lemma refreshModuleList_of_fails {env : RefreshEnv} {g : SymbolHandler} {events : List StackEvent}
    (hfails : (StackCall.refreshModuleList env).LosesHandler g)
    (h : getThreadStackRefreshModuleList env g = some events) :
    ∃ before path cleaned, events = before ++ [.symCleanup g.processHandle cleaned,
      .symInitialize g.processHandle path false, .releaseSRWLockExclusive] := by
  obtain ⟨hstate, hsnapshot, hmodules, hfailed⟩ := hfails
  obtain ⟨snapshot, hsome⟩ := Option.ne_none_iff_exists'.mp hsnapshot
  rw [getThreadStackRefreshModuleList, if_neg (not_not.mpr hstate), hsome] at h
  obtain ⟨s, hs, hrest⟩ := Option.bind_eq_some_iff.mp h
  obtain ⟨inner, hinner, rfl⟩ := Option.map_eq_some_iff.mp hrest
  rw [reinitialization, if_neg ((SearchPath.length_ne_zero_iff hs).mpr hmodules), hfailed] at hinner
  split_ifs at hinner
  obtain rfl := Option.some.inj hinner
  exact ⟨_, _, _, List.append_assoc _ _ _⟩

lemma captureContext_keeps {g : SymbolHandler} (env : ThreadEnv) (threadId : UInt32) {s : WalkState}
    (h : ∀ e ∈ s.events, e.Keeps g) :
    ∀ e ∈ (captureContext env threadId s).2.2.events, e.Keeps g := by
  rw [captureContext]
  split_ifs
  all_goals
    simp only [List.forall_mem_append]
    refine ⟨h, ?_⟩
    simp [StackEvent.Keeps, StackEvent.Quiet, StackEvent.UsesSymbols]

lemma walk_keeps {g : SymbolHandler} (hstate : g.symbolsState = .initialized) {fs : List Frame}
    {pc : UInt64} {s s' : WalkState} (hwalk : walk g fs pc s = some s')
    (h : ∀ e ∈ s.events, e.Keeps g) : ∀ e ∈ s'.events, e.Keeps g := by
  induction fs generalizing pc s with
  | nil =>
    rw [walk] at hwalk
    split_ifs at hwalk
    obtain rfl := Option.some.inj hwalk
    exact h
  | cons f fs ih =>
    rw [walk] at hwalk
    split_ifs at hwalk
    · obtain rfl := Option.some.inj hwalk
      exact h
    · exact ih hwalk h
    · refine ih hwalk ?_
      simp only [WalkState.print, List.forall_mem_append]
      refine ⟨h, ?_⟩
      simp [StackEvent.Keeps, StackEvent.Quiet, StackEvent.UsesSymbols, hstate]

lemma walkLocked_keeps {g : SymbolHandler} (hstate : g.symbolsState = .initialized)
    {env : ThreadEnv} {threadId : UInt32} {s s' : WalkState}
    (hwalk : walkLocked g env threadId s = some s') (h : ∀ e ∈ s.events, e.Keeps g) :
    ∀ e ∈ s'.events, e.Keeps g := by
  obtain ⟨t, ht, rfl⟩ := Option.map_eq_some_iff.mp hwalk
  have hlocked : ∀ e ∈ s.events ++ [.acquireSRWLockExclusive], e.Keeps g := by
    rw [List.forall_mem_append]
    refine ⟨h, ?_⟩
    simp [StackEvent.Keeps, StackEvent.Quiet, StackEvent.UsesSymbols]
  rw [List.forall_mem_append]
  refine ⟨walk_keeps hstate ht hlocked, ?_⟩
  simp [StackEvent.Keeps, StackEvent.Quiet, StackEvent.UsesSymbols]

lemma body_keeps {g : SymbolHandler} (hstate : g.symbolsState = .initialized)
    {env : ThreadEnv} {threadId : UInt32} {s s' : WalkState} (h : ∀ e ∈ s.events, e.Keeps g)
    (hbody : (if ¬ (captureContext env threadId s).1 then some (captureContext env threadId s).2.2
      else walkLocked g env threadId (captureContext env threadId s).2.2) = some s') :
    ∀ e ∈ s'.events, e.Keeps g := by
  have hcaptured := captureContext_keeps env threadId h
  by_cases hacquired : (captureContext env threadId s).1
  · rw [if_neg (not_not.mpr hacquired)] at hbody
    exact walkLocked_keeps hstate hbody hcaptured
  · rw [if_pos hacquired] at hbody
    obtain rfl := Option.some.inj hbody
    exact hcaptured

lemma finish_keeps {g : SymbolHandler} (env : ThreadEnv) (wasThreadSuspended : Bool) {s : WalkState}
    (h : ∀ e ∈ s.events, e.Keeps g) : ∀ e ∈ (finish env wasThreadSuspended s).events, e.Keeps g := by
  rw [finish]
  split_ifs
  all_goals
    rw [List.forall_mem_append]
    refine ⟨h, ?_⟩
    simp [StackEvent.Keeps, StackEvent.Quiet, StackEvent.UsesSymbols]

/-- `get_thread_stack` uses the symbol handler of the module only if it is initialised. -/
lemma getThreadStack_keeps {g : SymbolHandler} {env : ThreadEnv} {threadId : UInt32}
    {destination : Option (List UInt8)} {r : ThreadStack}
    (h : getThreadStack g env threadId destination = some r) : ∀ e ∈ r.events, e.Keeps g := by
  match destination with
  | none =>
    obtain rfl := Option.some.inj h
    exact fun e he => absurd he List.not_mem_nil
  | some mem =>
    rw [getThreadStack] at h
    split_ifs at h with hlength hstate
    · obtain rfl := Option.some.inj h
      exact fun e he => absurd he List.not_mem_nil
    · obtain rfl := Option.some.inj h
      exact fun e he => absurd he List.not_mem_nil
    · rw [not_not] at hstate
      have hopened : ∀ hThread, ∀ e ∈ [StackEvent.openThread hThread], e.Keeps g := by
        simp [StackEvent.Keeps, StackEvent.Quiet, StackEvent.UsesSymbols]
      match hopen : env.openThread with
      | none =>
        rw [hopen] at h
        obtain rfl := Option.some.inj h
        exact hopened none
      | some hThread =>
        rw [hopen] at h
        obtain ⟨s, hbody, rfl⟩ := Option.map_eq_some_iff.mp h
        exact finish_keeps env _ (body_keeps hstate (hopened (some hThread)) hbody)

/-! ### Runs -/

lemma truthful_start (addressMask : Option UInt64) :
    Truthful (SymbolHandler.start addressMask) [] := by
  refine .mk' ?_ ?_ ?_
  · refine iff_of_false SymInit.noConfusion ?_
    rintro ⟨h, hsome, -⟩
    cases hsome
  · exact iff_of_false (not_not.mpr rfl) SymInit.noConfusion
  · intro before e after process heq
    exact absurd heq.symm (List.append_ne_nil_of_right_ne_nil before (List.cons_ne_nil e after))

/-- Calls that keep the symbol handlers. -/
lemma Truthful.keeps {g : SymbolHandler} {trace events : List StackEvent} (h : Truthful g trace)
    (hevents : ∀ e ∈ events, e.Keeps g) : Truthful g (trace ++ events) := by
  have hquiet : ∀ e ∈ events, e.Quiet := fun e he => (hevents e he).1
  refine .mk' ?_ h.handle (h.uses.append fun e he process huse => ⟨?_, hquiet⟩)
  · rw [h.state, HandlerLive, HandlerLive]
    simp only [live_append_of_quiet hquiet]
  · obtain ⟨rfl, hstate⟩ := (hevents e he).2 process huse
    obtain ⟨handle, hsome, hlive⟩ := h.state.mp hstate
    rwa [hsome]

/-- A module without a handle. -/
lemma Truthful.closed {g g' : SymbolHandler} {trace events : List StackEvent} (h : Truthful g trace)
    (hstate : g'.symbolsState = .notInitialized) (hhandle : g'.processHandle = none)
    (hevents : ∀ e ∈ events, ∀ process, ¬ e.UsesSymbols process) :
    Truthful g' (trace ++ events) := by
  have hnot : ¬ g'.symbolsState = .initialized := by
    rw [hstate]
    exact SymInit.noConfusion
  refine .mk' (iff_of_false hnot ?_) (iff_of_false (not_not.mpr hhandle) hnot)
    (h.uses.append fun e he process huse => absurd huse (hevents e he process))
  rintro ⟨handle, hsome, -⟩
  cases hhandle.symm.trans hsome

/-- A module whose symbol handler has just been initialised. -/
lemma Truthful.opened {g g' : SymbolHandler} {trace events : List StackEvent} {handle : ℕ}
    (h : Truthful g trace) (hstate : g'.symbolsState = .initialized)
    (hhandle : g'.processHandle = some handle) (hlive : Live events (some handle))
    (hevents : ∀ e ∈ events, ∀ process, ¬ e.UsesSymbols process) :
    Truthful g' (trace ++ events) := by
  refine .mk' (iff_of_true hstate ⟨handle, hhandle, live_append_iff.mpr (Or.inl hlive)⟩) ?_
    (h.uses.append fun e he process huse => absurd huse (hevents e he process))
  refine iff_of_true ?_ hstate
  rw [hhandle]
  exact Option.some_ne_none handle

/-- The variables of the module stay truthful unless a refresh fails to re-initialise the symbol
handler. -/
lemma Truthful.step {g g' : SymbolHandler} {trace events : List StackEvent} {c : StackCall}
    (h : Truthful g trace) (hstep : g.step c = some (g', events))
    (hfails : ¬ c.LosesHandler g) : Truthful g' (trace ++ events) := by
  match c with
  | .init env =>
    obtain ⟨rfl, rfl⟩ := Prod.mk.inj (Option.some.inj hstep)
    rcases getThreadStackInit_cases env g with ⟨-, heq⟩ | ⟨-, -, heq⟩ |
      ⟨-, handle, path, mask, -, heq⟩ | ⟨hstate, handle, path, closed, -, heq⟩
    · rw [heq]
      exact h.keeps fun e he => absurd he List.not_mem_nil
    · rw [heq]
      refine h.keeps ?_
      simp [StackEvent.Keeps, StackEvent.Quiet, StackEvent.UsesSymbols]
    · -- SymInitialize succeeded: the handler is live from here on
      rw [heq]
      refine h.opened rfl rfl ?_ ?_
      · simp [live_cons_iff]
      · simp [StackEvent.UsesSymbols]
    · -- SymInitialize failed: the state stays, and the handle is closed
      rw [heq]
      refine h.closed hstate rfl ?_
      simp [StackEvent.UsesSymbols]
  | .refreshModuleList env =>
    obtain ⟨inner, hinner, heq⟩ := Option.map_eq_some_iff.mp hstep
    obtain ⟨rfl, rfl⟩ := Prod.mk.inj heq
    rcases refreshModuleList_cases hinner with hkeeps |
      ⟨hstate, snapshot, path, closed, cleaned, rfl, hfailed⟩
    · -- no clean-up: what was live stays live
      exact h.keeps hkeeps
    · -- cleaned up and initialised again: live only because that call did not fail
      obtain ⟨handle, hsome, -⟩ := h.state.mp hstate
      have hsucceeded : env.symInitialize = true := by
        by_contra hnot
        exact hfails (hfailed (eq_false_of_ne_true hnot))
      rw [hsucceeded, hsome]
      refine h.opened hstate hsome ?_ ?_
      · simp [live_cons_iff]
      · simp [StackEvent.UsesSymbols]
  | .deinit symCleanup closeHandle =>
    have heq := Option.some.inj hstep
    rw [getThreadStackDeinit] at heq
    split_ifs at heq
    · -- SymCleanup: nothing is live any more, and the state says so
      obtain ⟨rfl, rfl⟩ := Prod.mk.inj heq
      refine h.closed rfl rfl ?_
      simp [StackEvent.UsesSymbols]
    · obtain ⟨rfl, rfl⟩ := Prod.mk.inj heq
      exact h.keeps fun e he => absurd he List.not_mem_nil
  | .getThreadStack env threadId destination =>
    obtain ⟨r, hr, heq⟩ := Option.map_eq_some_iff.mp hstep
    obtain ⟨rfl, rfl⟩ := Prod.mk.inj heq
    exact h.keeps (getThreadStack_keeps hr)

/-- A refresh that fails to re-initialise the symbol handler leaves the variables as they were. -/
lemma not_truthful_of_fails {g g' : SymbolHandler} {c : StackCall} {events : List StackEvent}
    (hfails : c.LosesHandler g) (hstep : g.step c = some (g', events))
    (trace : List StackEvent) : ¬ Truthful g' (trace ++ events) := by
  match c with
  | .refreshModuleList env =>
    obtain ⟨inner, hinner, heq⟩ := Option.map_eq_some_iff.mp hstep
    obtain ⟨rfl, rfl⟩ := Prod.mk.inj heq
    obtain ⟨before, path, cleaned, rfl⟩ := refreshModuleList_of_fails hfails hinner
    intro htruthful
    obtain ⟨handle, hsome, hlive⟩ := htruthful.state.mp hfails.1
    rw [hsome, ← List.append_assoc, live_append_iff] at hlive
    rcases hlive with hlive | ⟨-, hclean⟩
    · simp [live_cons_iff, not_live_nil] at hlive
    · exact hclean cleaned List.mem_cons_self

/-- After every call of a run the variables of the module are truthful, exactly if no call of the run
is a refresh that fails to re-initialise the symbol handler. -/
theorem truthful_iff (addressMask : Option UInt64) (calls : List StackCall) :
    (∀ past, past <+: calls → ∀ g outputs,
      run SymbolHandler.step (.start addressMask) past = some (g, outputs) →
        Truthful g outputs.flatten) ↔
    ∀ past c, past ++ [c] <+: calls → ∀ g outputs g' events,
      run SymbolHandler.step (.start addressMask) past = some (g, outputs) →
        g.step c = some (g', events) → ¬ c.LosesHandler g := by
  constructor
  · -- a refresh that loses the handler leaves a state that says initialised
    intro htruthful past c hprefix g outputs g' events hrun hstep hfails
    have hnext := run_concat.mpr ⟨g, outputs, events, hrun, hstep, rfl⟩
    have hafter := htruthful (past ++ [c]) hprefix g' (outputs ++ [events]) hnext
    rw [List.flatten_append, List.flatten_singleton] at hafter
    exact not_truthful_of_fails hfails hstep outputs.flatten hafter
  · -- induction over the run, a call at its end at a time
    intro hfails past
    induction past using List.reverseRecOn with
    | nil =>
      intro _ g outputs hrun
      obtain ⟨rfl, rfl⟩ := Prod.mk.inj (Option.some.inj hrun)
      exact truthful_start addressMask
    | append_singleton past c ih =>
      intro hprefix g outputs hrun
      obtain ⟨g', outputs', events, hbefore, hstep, rfl⟩ := run_concat.mp hrun
      have hpast := (List.prefix_append past [c]).trans hprefix
      have htruthful := ih hpast g' outputs' hbefore
      rw [List.flatten_append, List.flatten_singleton]
      exact htruthful.step hstep (hfails past c hprefix g' outputs' g events hbefore hstep)

/-! ### A refresh that fails -/

def sampleInit : InitEnv where
  duplicateHandle           := some 8
  moduleFileName            := ⟨ascii "C:\\e\\x.exe", by decide⟩
  symInitialize             := true
  closeHandle               := true
  maximumApplicationAddress := 0

/-- There is one module, and the symbol handler cannot be initialised again. -/
def sampleRefresh : RefreshEnv where
  createToolhelp32Snapshot := some 12
  symRefreshModuleList     := true
  garbage                  := fun _ => 0
  modules                  := [⟨ascii "C:\\d\\m.dll", by decide⟩]
  closeHandle              := true
  symCleanup               := true
  symInitialize            := false

lemma sampleRefresh_fails : (StackCall.refreshModuleList sampleRefresh).LosesHandler
    ⟨.initialized, some 8, none⟩ :=
  ⟨rfl, Option.some_ne_none _, ⟨_, List.mem_singleton_self _, 4, by decide⟩, rfl⟩

lemma sampleRefresh_returns (g : SymbolHandler) :
    ∃ events, getThreadStackRefreshModuleList sampleRefresh g = some events := by
  have hslash : strrchr backslash (ascii "C:\\d\\m.dll") = some 4 := by decide
  have hmodules : (SearchPath.start sampleRefresh.garbage).addModules sampleRefresh.modules =
      some ((SearchPath.start sampleRefresh.garbage).addDir ((ascii "C:\\d\\m.dll").take 4)) :=
    SearchPath.addModules_singleton _ hslash (by decide) (by decide)
  have hzero : 0 ∈ ((SearchPath.start sampleRefresh.garbage).addDir
      ((ascii "C:\\d\\m.dll").take 4)).buffer :=
    SearchPath.zero_mem_addDir (SearchPath.start_buffer _).1 (by decide)
  have hsnapshot : sampleRefresh.createToolhelp32Snapshot = some 12 := rfl
  rw [getThreadStackRefreshModuleList, hsnapshot]
  split_ifs
  · exact ⟨_, rfl⟩
  · simp only [hmodules, Option.bind_some, reinitialization, if_pos hzero]
    split_ifs
    · exact ⟨_, rfl⟩
    · exact ⟨_, rfl⟩

theorem not_truthful_refresh : ¬ ∀ addressMask calls g outputs,
    run SymbolHandler.step (.start addressMask) calls = some (g, outputs) →
      Truthful g outputs.flatten := by
  intro h
  have hinit : run SymbolHandler.step (.start none) [.init sampleInit] =
      some (⟨.initialized, some 8, none⟩, [(getThreadStackInit sampleInit (.start none)).2.2]) := rfl
  obtain ⟨events, hevents⟩ := sampleRefresh_returns ⟨.initialized, some 8, none⟩
  have hstep : SymbolHandler.step ⟨.initialized, some 8, none⟩ (.refreshModuleList sampleRefresh) =
      some (⟨.initialized, some 8, none⟩, events) := by
    rw [SymbolHandler.step, hevents, Option.map_some]
  have htruthful := h none _ _ _ (run_concat.mpr ⟨_, _, events, hinit, hstep, rfl⟩)
  rw [List.flatten_append, List.flatten_singleton, List.flatten_singleton] at htruthful
  exact not_truthful_of_fails sampleRefresh_fails hstep _ htruthful

end CLogging
