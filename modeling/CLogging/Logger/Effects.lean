import CLogging.Logger.Library

/-!
# What the loops of the logger do

Each loop is described by the calls it makes through the interfaces, the calls of TraceLogging, and
those of the thread stack module. TraceLogging may register a provider only while it is not
registered, and unregister it and write events only while it is.
-/

namespace CLogging

open C Pairing Machine TraceLogging

variable {β κ : Type*}

/-! ### Views of what happens -/

def LibraryEvent.toUse : LibraryEvent β κ → Option (Use (Resource (Sink β)))
  | .call u => some u
  | _       => none

def LibraryEvent.toProvider : LibraryEvent β κ → Option ProviderEvent
  | .provider e => some e
  | _           => none

def LibraryEvent.toStack : LibraryEvent β κ → Option StackEvent
  | .stack e => some e
  | _        => none

/-- The calls through the interfaces. -/
def uses (es : List (LibraryEvent β κ)) : List (Use (Resource (Sink β))) :=
  es.filterMap LibraryEvent.toUse

/-- The calls of TraceLogging. -/
def providerEvents (es : List (LibraryEvent β κ)) : List ProviderEvent :=
  es.filterMap LibraryEvent.toProvider

/-- The calls of the thread stack module. -/
def stackEvents (es : List (LibraryEvent β κ)) : List StackEvent :=
  es.filterMap LibraryEvent.toStack

section

variable (es es' : List (LibraryEvent β κ)) (u : Use (Resource (Sink β)))
  (ps : List ProviderEvent) (ts : List StackEvent)

@[simp] lemma uses_nil : uses ([] : List (LibraryEvent β κ)) = [] := rfl

@[simp] lemma uses_append : uses (es ++ es') = uses es ++ uses es' := List.filterMap_append

@[simp] lemma uses_call : uses (.call u :: es) = u :: uses es := rfl

@[simp] lemma uses_map_provider : uses (ps.map .provider : List (LibraryEvent β κ)) = [] := by
  simp [uses, LibraryEvent.toUse, Function.comp_def]

@[simp] lemma uses_map_stack : uses (ts.map .stack : List (LibraryEvent β κ)) = [] := by
  simp [uses, LibraryEvent.toUse, Function.comp_def]

@[simp] lemma providerEvents_nil : providerEvents ([] : List (LibraryEvent β κ)) = [] := rfl

@[simp] lemma providerEvents_append :
    providerEvents (es ++ es') = providerEvents es ++ providerEvents es' := List.filterMap_append

@[simp] lemma providerEvents_call : providerEvents (.call u :: es) = providerEvents es := rfl

@[simp] lemma providerEvents_map_provider :
    providerEvents (ps.map .provider : List (LibraryEvent β κ)) = ps := by
  simp [providerEvents, LibraryEvent.toProvider, Function.comp_def]

@[simp] lemma providerEvents_map_stack :
    providerEvents (ts.map .stack : List (LibraryEvent β κ)) = [] := by
  simp [providerEvents, LibraryEvent.toProvider, Function.comp_def]

@[simp] lemma stackEvents_nil : stackEvents ([] : List (LibraryEvent β κ)) = [] := rfl

@[simp] lemma stackEvents_append :
    stackEvents (es ++ es') = stackEvents es ++ stackEvents es' := List.filterMap_append

@[simp] lemma stackEvents_call : stackEvents (.call u :: es) = stackEvents es := rfl

@[simp] lemma stackEvents_map_provider :
    stackEvents (ps.map .provider : List (LibraryEvent β κ)) = [] := by
  simp [stackEvents, LibraryEvent.toStack, Function.comp_def]

@[simp] lemma stackEvents_map_stack :
    stackEvents (ts.map .stack : List (LibraryEvent β κ)) = ts := by
  simp [stackEvents, LibraryEvent.toStack, Function.comp_def]

end

/-! ### The provider -/

/-- Whether the provider is registered after a call of TraceLogging. `none` if the call is not
allowed. -/
def ProviderEvent.next (registered : Bool) : ProviderEvent → Option Bool
  | .register succeeded => if registered then none else some succeeded
  | .unregister         => if registered then some false else none
  | .write _            => if registered then some true else none

/-- The sink knows whether its provider is registered. -/
def LogSinkEtw.Sound (s : LogSinkEtw) : Prop :=
  s.registered = decide (s.state = .initialized)

lemma LogSinkEtw.Sound.eq {s : LogSinkEtw} (h : s.Sound) :
    s = ⟨.notInitialized, false⟩ ∨ s = ⟨.initialized, true⟩ := by
  obtain ⟨state, registered⟩ := s
  obtain rfl : registered = decide (state = .initialized) := h
  cases state with
  | notInitialized => exact Or.inl rfl
  | initialized    => exact Or.inr rfl

lemma foldlM_write (es : List Event) :
    (es.map ProviderEvent.write).foldlM ProviderEvent.next true = some true := by
  induction es with
  | nil => rfl
  | cons e es ih => exact ih

/-- The sink after its initialisation, or that of another sink. -/
def Sink.afterInit (etw : LogSinkEtw) : Sink β → LogSinkEtw
  | .etw => ⟨.initialized, true⟩
  | _    => etw

/-- The functions that `init` of a sink calls succeed. -/
def Sink.CanInit (env : SinkInitEnv) : Sink β → Prop
  | .etw     => env.etw.traceLoggingRegister
  | .other _ => env.other
  | _        => True

section

variable [Platform] [TlgIn]

/-- The self test is always emitted. -/
lemma exists_selfTest (env : EtwInitEnv) : ∃ emission, selfTest env = some emission := by
  obtain ⟨emission, hemit, -⟩ := internalEmit_spec (TlgIn.levelPlus1 true env.sessions)
    env.garbage (eventName (some .info)) (traceLevel (some .info))
    (fun _ => le_refl ([] : List PropertyView).length) (some env.file)
    (some ⟨ascii "log_sink_etw_init", by decide⟩) 603 (selfTestMessage env)
  exact ⟨emission, hemit⟩

/-- What `init` of a sink does. -/
lemma Sink.init_cases (env : SinkInitEnv) {etw : LogSinkEtw} (h : etw.Sound) (s : Sink β) :
    (s.CanInit env ∧ (s = .etw → etw.state = .notInitialized) ∧ ∃ events,
      s.init env etw = some (s.afterInit etw, true, events) ∧
      events.foldlM ProviderEvent.next etw.registered = some (s.afterInit etw).registered) ∨
    (¬ (s.CanInit env ∧ (s = .etw → etw.state = .notInitialized)) ∧ ∃ events,
      s.init env etw = some (etw, false, events) ∧
      events.foldlM ProviderEvent.next etw.registered = some etw.registered) := by
  cases s with
  | console  => exact Or.inl ⟨trivial, nofun, [], rfl, rfl⟩
  | callback => exact Or.inl ⟨trivial, nofun, [], rfl, rfl⟩
  | other b  =>
    -- a sink that is not modelled: its init may fail
    by_cases hother : env.other = true
    · refine Or.inl ⟨hother, nofun, [], ?_, rfl⟩
      rw [init, hother]
      rfl
    · refine Or.inr ⟨fun hcan => hother hcan.1, [], ?_, rfl⟩
      rw [init, Bool.eq_false_iff.mpr hother]
  | etw =>
    rcases h.eq with rfl | rfl
    · -- not registered before: the outcome is that of TraceLoggingRegister
      by_cases hregister : env.etw.traceLoggingRegister = true
      · obtain ⟨emission, hemission⟩ := exists_selfTest env.etw
        refine Or.inl ⟨hregister, fun _ => rfl, .register true :: emission.events.map .write, ?_, ?_⟩
        · simp only [init, logSinkEtwInit, if_pos hregister, hemission, Option.map_some, afterInit]
        · exact foldlM_write emission.events
      · refine Or.inr ⟨fun hcan => hregister hcan.1, [.register false], ?_, rfl⟩
        simp only [init, logSinkEtwInit, if_neg hregister]
    · -- registered before: the sink refuses to be initialised twice
      refine Or.inr ⟨fun hcan => ?_, [], rfl, rfl⟩
      cases hcan.2 rfl

end

lemma Sink.afterInit_sound {etw : LogSinkEtw} (h : etw.Sound) (s : Sink β) :
    (s.afterInit etw).Sound := by
  cases s with
  | etw => rfl
  | console | callback | other b => exact h

/-! ### All sinks -/

/-- What has to hold for all sinks to be initialised: their functions succeed, and the ETW sink is
configured at most once, and not if it is initialised already. -/
structure CanInitAll (env : ℕ → SinkInitEnv) (i : ℕ) (ss : List (Sink β)) (etw : LogSinkEtw) :
    Prop where
  canInit : ∀ (j : ℕ) (s : Sink β), ss[j]? = some s → s.CanInit (env (i + j))
  fresh   : Sink.etw ∈ ss → etw.state = .notInitialized
  once    : ∀ j k : ℕ, ss[j]? = some Sink.etw → ss[k]? = some Sink.etw → j = k

lemma canInitAll_cons {env : ℕ → SinkInitEnv} {i : ℕ} {s : Sink β} {ss : List (Sink β)}
    {etw : LogSinkEtw} : CanInitAll env i (s :: ss) etw ↔
      (s.CanInit (env i) ∧ (s = .etw → etw.state = .notInitialized)) ∧
        CanInitAll env (i + 1) ss (s.afterInit etw) := by
  constructor
  · intro h
    refine ⟨⟨h.canInit 0 s rfl, fun hs => h.fresh (hs ▸ List.mem_cons_self)⟩, ?_, ?_, ?_⟩
    · intro j s' hj
      have hcan := h.canInit (j + 1) s' hj
      rwa [Nat.add_comm j 1, ← Nat.add_assoc] at hcan
    · intro hmem
      cases s with
      | etw =>
        obtain ⟨k, hk⟩ := List.getElem?_of_mem hmem
        exact absurd (h.once 0 (k + 1) rfl hk) (Nat.succ_ne_zero k).symm
      | console | callback | other b => exact h.fresh (List.mem_cons_of_mem _ hmem)
    · intro j k hj hk
      exact Nat.succ.inj (h.once (j + 1) (k + 1) hj hk)
  · rintro ⟨⟨hcan, hfresh⟩, h⟩
    have hrest : s = .etw → .etw ∉ ss := by
      rintro rfl hmem
      cases h.fresh hmem
    refine ⟨fun j s' hj => ?_, fun hmem => ?_, fun j k hj hk => ?_⟩
    · cases j with
      | zero =>
        obtain rfl := Option.some.inj hj
        exact hcan
      | succ j =>
        rw [Nat.add_comm j 1, ← Nat.add_assoc]
        exact h.canInit j s' hj
    · rcases List.mem_cons.mp hmem with hs | hmem
      · exact hfresh hs.symm
      · have hne : s ≠ .etw := fun hs => hrest hs hmem
        have hsame := h.fresh hmem
        cases s with
        | etw => exact absurd rfl hne
        | console | callback | other b => exact hsame
    · cases j with
      | zero =>
        cases k with
        | zero => rfl
        | succ k =>
          have hmem : .etw ∈ ss := List.mem_of_getElem? (i := k) hk
          exact absurd hmem (hrest (Option.some.inj hj))
      | succ j =>
        cases k with
        | zero =>
          have hmem : .etw ∈ ss := List.mem_of_getElem? (i := j) hj
          exact absurd hmem (hrest (Option.some.inj hk))
        | succ k => exact congrArg Nat.succ (h.once j k hj hk)

/-- The ETW sink after some sinks were initialised. -/
structure LogSinkEtw.Initialises (etw etw' : LogSinkEtw) (ss : List (Sink β)) : Prop where
  configured : Sink.etw ∈ ss → etw.state = .notInitialized ∧ etw' = ⟨.initialized, true⟩
  unchanged  : Sink.etw ∉ ss → etw' = etw

lemma LogSinkEtw.initialises_nil (etw : LogSinkEtw) : etw.Initialises etw ([] : List (Sink β)) :=
  ⟨fun h => absurd h List.not_mem_nil, fun _ => rfl⟩

lemma LogSinkEtw.Initialises.cons {etw etw' : LogSinkEtw} {s : Sink β} {ss : List (Sink β)}
    (hs : s = .etw → etw.state = .notInitialized) (h : (s.afterInit etw).Initialises etw' ss) :
    etw.Initialises etw' (s :: ss) := by
  cases s with
  | etw =>
    have hnot : .etw ∉ ss := fun hmem => nomatch (h.configured hmem).1
    exact ⟨fun _ => ⟨hs rfl, h.unchanged hnot⟩, fun hmem => absurd List.mem_cons_self hmem⟩
  | console | callback | other b =>
    refine ⟨fun hmem => h.configured ?_, fun hmem => h.unchanged fun hss => hmem (List.mem_cons_of_mem _ hss)⟩
    exact (List.mem_cons.mp hmem).resolve_left nofun

lemma initSinks_congr {α : Type*} {ok ok' : ℕ → Bool} {i : ℕ} (h : ∀ j, i ≤ j → ok j = ok' j)
    (ss : List α) : initSinks ok i ss = initSinks ok' i ss := by
  induction ss generalizing i with
  | nil => rfl
  | cons s ss ih =>
    rw [initSinks, initSinks, h i (le_refl i), ih fun j hj => h j (Nat.le_of_succ_le hj)]

section

variable [Platform] [TlgIn]

/-- What the loop over the sinks does. -/
lemma initAll_spec (env : ℕ → SinkInitEnv) (i : ℕ) (ss : List (Sink β)) {etw : LogSinkEtw}
    (h : etw.Sound) : ∃ etw' n, ∃ events : List (LibraryEvent β κ), ∃ ok,
      initAll env i ss etw = some (etw', events, i + n) ∧ n ≤ ss.length ∧
      (n = ss.length ↔ CanInitAll env i ss etw) ∧ etw.Initialises etw' (ss.take n) ∧
      initSinks ok i ss = (uses events, i + n) ∧ stackEvents events = [] ∧
      (providerEvents events).foldlM ProviderEvent.next etw.registered = some etw'.registered := by
  induction ss generalizing i etw with
  | nil =>
    refine ⟨etw, 0, [], fun _ => true, rfl, le_refl 0, iff_of_true rfl ?_, etw.initialises_nil,
      rfl, rfl, rfl⟩
    exact ⟨nofun, fun hmem => absurd hmem List.not_mem_nil, nofun⟩
  | cons s ss ih =>
    rw [canInitAll_cons]
    rcases s.init_cases (env i) h with ⟨hcan, hfresh, es, hinit, hfollows⟩ |
        ⟨hnot, es, hinit, hfollows⟩
    · obtain ⟨etw', n, events, ok, hrest, hle, hiff, hinitialises, hok, hstack, hprovider⟩ :=
        ih (i + 1) (s.afterInit_sound h)
      refine ⟨etw', n + 1, es.map .provider ++ .call (.acquire (.sink s)) :: events,
        Function.update ok i true, ?_, Nat.succ_le_succ hle, ?_, hinitialises.cons hfresh, ?_, ?_, ?_⟩
      · simp only [initAll, hinit, hrest, Option.map_some, Nat.add_assoc, Nat.add_comm 1]
      · rw [List.length_cons, Nat.succ_inj, hiff, and_iff_right ⟨hcan, hfresh⟩]
      · have hsame : initSinks (Function.update ok i true) (i + 1) ss = initSinks ok (i + 1) ss :=
          initSinks_congr (fun j hj => Function.update_of_ne (Nat.ne_of_gt hj) _ _) ss
        rw [initSinks, Function.update_self, if_pos rfl, hsame, hok, uses_append,
          uses_map_provider, uses_call, Nat.add_assoc, Nat.add_comm 1]
        rfl
      · -- the sinks make no call of the symbol handler
        rw [stackEvents_append, stackEvents_map_provider, stackEvents_call, hstack]
        rfl
      · -- the provider follows its protocol through the head and the rest
        rw [providerEvents_append, providerEvents_map_provider, providerEvents_call,
          List.foldlM_append, hfollows]
        exact hprovider
    · refine ⟨etw, 0, es.map .provider ++ [.call (.refused (.sink s))], fun _ => false, ?_,
        Nat.zero_le _, ?_, etw.initialises_nil, ?_, ?_, ?_⟩
      · simp only [initAll, hinit, Nat.add_zero]
      · exact iff_of_false (Nat.succ_ne_zero _).symm fun hall => hnot hall.1
      · rw [initSinks, if_neg Bool.false_ne_true, uses_append, uses_map_provider, uses_call]
        rfl
      · rw [stackEvents_append, stackEvents_map_provider, stackEvents_call]
        rfl
      · rw [providerEvents_append, providerEvents_map_provider, providerEvents_call,
          List.foldlM_append, hfollows]
        rfl

end

/-- What the loops that call `deinit` do. -/
lemma deinitAll_spec (ss : List (Sink β)) {etw : LogSinkEtw} (h : etw.Sound) :
    ∃ etw', ∃ events : List (LibraryEvent β κ), deinitAll ss etw = (etw', events) ∧
      (.etw ∈ ss → etw' = ⟨.notInitialized, false⟩) ∧ (.etw ∉ ss → etw' = etw) ∧
      uses events = deinitSinks ss ∧ stackEvents events = [] ∧
      (providerEvents events).foldlM ProviderEvent.next etw.registered = some etw'.registered := by
  induction ss generalizing etw with
  | nil =>
    exact ⟨etw, [], rfl, fun hmem => absurd hmem List.not_mem_nil, fun _ => rfl, rfl, rfl, rfl⟩
  | cons s ss ih =>
    obtain ⟨etw₁, es, hdeinit, hsound, hfollows, hetw, hother⟩ : ∃ etw₁ es,
        s.deinit etw = (etw₁, es) ∧ etw₁.Sound ∧
        es.foldlM ProviderEvent.next etw.registered = some etw₁.registered ∧
        (s = .etw → etw₁ = ⟨.notInitialized, false⟩) ∧ (s ≠ .etw → etw₁ = etw) := by
      cases s with
      | etw =>
        rcases h.eq with rfl | rfl
        · exact ⟨_, [], rfl, rfl, rfl, fun _ => rfl, fun hne => absurd rfl hne⟩
        · exact ⟨_, [.unregister], rfl, rfl, rfl, fun _ => rfl, fun hne => absurd rfl hne⟩
      | console | callback | other b => exact ⟨etw, [], rfl, h, rfl, nofun, fun _ => rfl⟩
    obtain ⟨etw', events, hrest, hmem, hnot, huses, hstack, hprovider⟩ := ih hsound
    refine ⟨etw', es.map .provider ++ .call (.release (.sink s)) :: events, ?_, ?_, ?_, ?_, ?_, ?_⟩
    · simp only [deinitAll, hdeinit, hrest]
    · -- deinitialised by the head or by the rest
      intro hcons
      by_cases hss : .etw ∈ ss
      · exact hmem hss
      · rw [hnot hss]
        exact hetw ((List.mem_cons.mp hcons).resolve_right hss).symm
    · -- neither the head nor the rest touches it
      intro hcons
      rw [hnot fun hss => hcons (List.mem_cons_of_mem _ hss)]
      exact hother fun hs => hcons (hs ▸ List.mem_cons_self)
    · rw [uses_append, uses_map_provider, uses_call, huses]
      rfl
    · rw [stackEvents_append, stackEvents_map_provider, stackEvents_call, hstack]
      rfl
    · rw [providerEvents_append, providerEvents_map_provider, providerEvents_call,
        List.foldlM_append, hfollows]
      exact hprovider

/-! ### The symbol handler -/

/-- How far the symbol handler is set up, and for which handle of the process. -/
inductive HandlerPhase where
  | closed
  | opened (process : ℕ)
  | initialized (process : ℕ)
  deriving DecidableEq

/-- The phase after a call. `none` if the call is not allowed. -/
def StackEvent.next : HandlerPhase → StackEvent → Option HandlerPhase
  | .closed, .duplicateHandle none        => some .closed
  | .closed, .duplicateHandle (some h)    => some (.opened h)
  | .opened h, .symInitialize process _ succeeded =>
    if process = some h then some (if succeeded then .initialized h else .opened h) else none
  | .initialized h, .symCleanup process _ => if process = some h then some (.opened h) else none
  | .opened h, .closeHandle process _     => if process = some h then some .closed else none
  | _, _                                  => none

/-- The phase the variables of the module stand for. -/
def SymbolHandler.phase (g : SymbolHandler) : HandlerPhase :=
  match g.processHandle with
  | none   => .closed
  | some h => .initialized h

@[simp] lemma SymbolHandler.phase_none (state : SymInit) (mask : Option UInt64) :
    phase ⟨state, none, mask⟩ = .closed := rfl

@[simp] lemma SymbolHandler.phase_some (state : SymInit) (h : ℕ) (mask : Option UInt64) :
    phase ⟨state, some h, mask⟩ = .initialized h := rfl

/-- What `get_thread_stack_init` does while the module is not initialised. -/
lemma getThreadStackInit_follows (env : InitEnv) (mask : Option UInt64) :
    (¬ (env.duplicateHandle ≠ none ∧ env.symInitialize = true) ∧ ∃ es,
      getThreadStackInit env ⟨.notInitialized, none, mask⟩ =
        (⟨.notInitialized, none, mask⟩, false, es) ∧
      es.foldlM StackEvent.next .closed = some .closed) ∨
    (env.duplicateHandle ≠ none ∧ env.symInitialize = true) ∧ ∃ h es,
      getThreadStackInit env ⟨.notInitialized, none, mask⟩ =
        (⟨.initialized, some h, mask.map fun _ => fillBits env.maximumApplicationAddress⟩, true, es) ∧
      es.foldlM StackEvent.next .closed = some (.initialized h) := by
  rw [getThreadStackInit, if_pos rfl]
  match hhandle : env.duplicateHandle with
  | none => exact Or.inl ⟨fun hcan => hcan.1 rfl, _, rfl, rfl⟩
  | some h =>
    simp only
    by_cases hinit : env.symInitialize = true
    · rw [if_pos hinit]
      exact Or.inr ⟨⟨Option.some_ne_none h, hinit⟩, h, _, rfl, by simp [StackEvent.next]⟩
    · rw [if_neg hinit]
      exact Or.inl ⟨fun hcan => hinit hcan.2, _, rfl, by simp [StackEvent.next]⟩

end CLogging
