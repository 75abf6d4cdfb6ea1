import CLogging.ToString.LevelTurns

/-!
# What the result tells

The result of `log_n_properties` is negative exactly if the last call that was made failed, or one
that had no room left: an error behind which something is printed is hidden. This holds of every
array of pairs, whether its field counts are right or not.
-/

namespace CLogging

open C Printf

/-- A call that fails with no room left that a later call could use. -/
def PrintEvent.FailsFull : PrintEvent → Prop
  | .read _                 => False
  | .call _ _ room result _ => result < 0 ∧ int room = 0

instance : DecidablePred PrintEvent.FailsFull
  | .read _                 => inferInstanceAs (Decidable False)
  | .call _ _ room result _ => inferInstanceAs (Decidable (result < 0 ∧ int room = 0))

/-- Some call failed with no room left. -/
def SomeFailsFull (events : List PrintEvent) : Prop := ∃ e ∈ events, e.FailsFull

/-- The last call that was made failed. -/
def LastFails (events : List PrintEvent) : Prop := ∃ e, events.getLast? = some e ∧ e.Fails

/-- An error is reported: no later result has hidden it. -/
def ErrorReported (events : List PrintEvent) : Prop := LastFails events ∨ SomeFailsFull events

instance : DecidablePred ErrorReported := fun events =>
  inferInstanceAs (Decidable ((∃ e ∈ events.getLast?, e.Fails) ∨ ∃ e ∈ events, e.FailsFull))

lemma lastFails_concat {events : List PrintEvent} {e : PrintEvent} :
    LastFails (events ++ [e]) ↔ e.Fails := by
  simp only [LastFails, List.getLast?_concat, Option.some.injEq, exists_eq_left']

lemma someFailsFull_append {events events' : List PrintEvent} :
    SomeFailsFull (events ++ events') ↔ SomeFailsFull events ∨ SomeFailsFull events' := by
  simp only [SomeFailsFull, List.mem_append, or_and_right, exists_or]

/-- What is reported of the last calls is reported of all. -/
lemma ErrorReported.append {events' : List PrintEvent} (h : ErrorReported events')
    (events : List PrintEvent) : ErrorReported (events ++ events') := by
  rcases h with ⟨e, hlast, hfails⟩ | hfull
  · refine Or.inl ⟨e, ?_, hfails⟩
    rw [List.getLast?_append, hlast]
    rfl
  · exact Or.inr (someFailsFull_append.mpr (Or.inr hfull))

namespace PrintState

variable {env : PrintEnv} {k : PrintCall} {s s' inner : PrintState} {events : List PrintEvent}

/-- While a level is printed, the result tells of its calls whether an error is reported, and no
call failed with no room left unless there still is none. -/
structure Tells (s : PrintState) (events : List PrintEvent) : Prop where
  result_ge : -1 ≤ s.result
  neg_iff   : s.result < 0 ↔ ErrorReported events
  full      : SomeFailsFull events → int s.cursor.room = 0
  last      : LastFails events → int s.cursor.room = 0 → SomeFailsFull events

/-- At the start of a level. -/
lemma tells_nil (h : s.result = 0) : s.Tells [] where
  result_ge := by rw [h]; decide
  neg_iff   := by
    refine iff_of_false (by rw [h]; decide) ?_
    rintro (⟨e, hlast, -⟩ | ⟨e, he, -⟩)
    · cases hlast
    · cases he
  full      := fun ⟨e, he, _⟩ => absurd he List.not_mem_nil
  last      := fun ⟨e, hlast, _⟩ => by cases hlast

/-- Reading a pair tells nothing. -/
lemma Tells.read (h : s.Tells events) (index : ℕ) : (s.read index).Tells events :=
  ⟨h.result_ge, h.neg_iff, h.full, h.last⟩

/-- Behind a turn that prints a property an error is reported only if there was no room. -/
lemma Tells.moves {s₁ s₂ : PrintState} (h : s.Tells events) {printed : List PrintEvent}
    {e : PrintEvent} (hfirst : s.Moves s₁) (hsecond : s₁.Moves s₂)
    (hstrict : int s₁.cursor.room = int s.cursor.room → int s.cursor.room = 0)
    (hprinted : ¬ SomeFailsFull (printed ++ [e])) (he : ¬ e.Fails) {n : ℕ} :
    Tells { s₂ with i := n } (events ++ (printed ++ [e])) := by
  have hlast : ¬ LastFails (events ++ (printed ++ [e])) := by
    rw [← List.append_assoc, lastFails_concat]
    exact he
  have hfull : SomeFailsFull (events ++ (printed ++ [e])) ↔ SomeFailsFull events := by
    rw [someFailsFull_append, or_iff_left hprinted]
  have hroom : s₂.result < 0 ↔ s.result < 0 ∧ int s.cursor.room = 0 := by
    rw [← hfirst.negative_iff hsecond h.result_ge hstrict (P := True), true_or, and_true]
  refine ⟨h.result_ge.trans (hfirst.trans hsecond).result_le, ?_, fun hany => ?_,
    fun habsurd => absurd habsurd hlast⟩
  · rw [hroom, h.neg_iff, ErrorReported, ErrorReported, or_iff_right hlast, hfull]
    constructor
    · rintro ⟨hlast | hany, hzero⟩
      · exact h.last hlast hzero
      · exact hany
    · exact fun hany => ⟨Or.inr hany, h.full hany⟩
  · -- a room that was used up stays so
    have hzero := h.full (hfull.mp hany)
    have hle := (hfirst.trans hsecond).le
    have hnonneg := hsecond.nonneg
    show int s₂.cursor.room = 0
    omega

/-- Behind an error in printing the name of a leaf the loop goes on with a negative result. -/
lemma Tells.nameFails (h : s.Tells events) {p : PropertyView} {index n : ℕ}
    (hname : ((s.read index).call env (p.nameCall index)).1 < 0) :
    Tells { ((s.read index).call env (p.nameCall index)).2.fail with i := n }
      (events ++ [.read index, event env (p.nameCall index) (s.read index)]) := by
  have hlast : LastFails
      (events ++ [.read index, event env (p.nameCall index) (s.read index)]) := by
    rw [List.append_cons, lastFails_concat]
    exact hname
  refine ⟨le_refl _, iff_of_true (Int.negSucc_lt_zero 0) (Or.inl hlast), fun hany => ?_,
    fun _ hzero => ?_⟩
  · -- the one that had no room is this one, or was made before
    rcases someFailsFull_append.mp hany with hany | ⟨e, he, hfull⟩
    · exact h.full hany
    · rcases List.mem_pair.mp he with rfl | rfl
      · exact absurd hfull id
      · exact hfull.2
  · exact ⟨_, List.mem_append_right _ (List.mem_cons_of_mem _ (List.mem_singleton_self _)),
      hname, hzero⟩

lemma Succeeds.log_read {index : ℕ} (h : (s.read index).Succeeds env k s') :
    s'.log = s.log ++ [.read index, event env k (s.read index)] := by
  rw [h.log_eq]
  exact List.append_assoc _ _ _

/-- A call that succeeds leaves nothing to report. -/
lemma Succeeds.not_someFailsFull {index : ℕ} (h : (s.read index).Succeeds env k s') :
    ¬ SomeFailsFull [.read index, event env k (s.read index)] := by
  rintro ⟨e, he, hfull⟩
  rcases List.mem_pair.mp he with rfl | rfl
  · exact hfull
  · exact h.1 hfull.1

lemma Succeeds.not_someFailsFull_concat (h : s.Succeeds env k s') {events : List PrintEvent}
    (hevents : ¬ SomeFailsFull events) : ¬ SomeFailsFull (events ++ [event env k s]) := by
  rw [someFailsFull_append]
  rintro (hany | ⟨e, he, hfull⟩)
  · exact hevents hany
  · obtain rfl := List.mem_singleton.mp he
    exact h.1 hfull.1

end PrintState

/-- The error with which a level ends is its last call. -/
lemma errorReported_concat {events : List PrintEvent} {e : PrintEvent} (h : e.Fails) :
    ErrorReported (events ++ [e]) := Or.inl (lastFails_concat.mpr h)

/-- A run of a level returns a negative result exactly if an error is reported. -/
theorem LoopRun.tells {env : PrintEnv} {count depth : ℕ} {pairs : List PropertyView} {index : ℕ}
    {s s' : PrintState} (h : LoopRun env count depth pairs index s s') :
    ∀ {before events : List PrintEvent}, s.log = before ++ events → s.Tells events →
      ∃ events', s'.log = before ++ events' ∧ (s'.result < 0 ↔ ErrorReported events') := by
  induction h with
  | stop hguard => exact fun hlog htells => ⟨_, hlog, htells.neg_iff⟩
  | @openFails count depth p rest index s hguard hstruct hopen =>
    intro before events hlog htells
    refine ⟨events ++ [.read index] ++ [PrintState.event env (p.openCall index) (s.read index)],
      ?_, iff_of_true (Int.negSucc_lt_zero 0) (errorReported_concat hopen)⟩
    rw [← List.append_assoc, ← List.append_assoc, ← hlog]
    rfl
  | @fieldsFail count depth p rest index s s₁ inner hguard hstruct hopen hfields hneg ihc =>
    intro before events hlog htells
    -- the fields are a level of their own
    obtain ⟨fields, hinner, hiff⟩ := ihc (List.append_nil s₁.log).symm (PrintState.tells_nil rfl)
    refine ⟨events ++ [.read index, PrintState.event env (p.openCall index) (s.read index)] ++
      fields, ?_, iff_of_true (Int.negSucc_lt_zero 0) ((hiff.mp hneg).append _)⟩
    show inner.log = _
    rw [hinner, hopen.log_read, hlog, List.append_assoc, List.append_assoc, List.append_assoc]
  | @closeFails count depth p rest index s s₁ inner s₂ hguard hstruct hopen hfields hreturn hclose
      ihc =>
    intro before events hlog htells
    obtain ⟨fields, hinner, -⟩ := ihc (List.append_nil s₁.log).symm (PrintState.tells_nil rfl)
    refine ⟨events ++ [.read index, PrintState.event env (p.openCall index) (s.read index)] ++
      fields ++ [PrintState.event env (p.closeCall index) s₂], ?_,
      iff_of_true (Int.negSucc_lt_zero 0) (errorReported_concat hclose)⟩
    show s₂.log ++ [_] = _
    rw [hreturn.log_eq, hinner, hopen.log_read, hlog]
    simp only [List.append_assoc]
    rfl
  | @struct count depth p rest index s s₁ inner s₂ s₃ s' hguard hstruct hopen hfields hreturn hclose
      hbehind ihc ih =>
    intro before events hlog htells
    obtain ⟨fields, hinner, hiff⟩ := ihc (List.append_nil s₁.log).symm (PrintState.tells_nil rfl)
    have hreported : ¬ ErrorReported fields := fun h => hreturn.1 (hiff.mpr h)
    have hprinted : ¬ SomeFailsFull
        ([.read index, PrintState.event env (p.openCall index) (s.read index)] ++ fields) := by
      rw [someFailsFull_append, not_or]
      exact ⟨hopen.not_someFailsFull, fun hany => hreported (Or.inr hany)⟩
    refine ih ?_ ((htells.read index).moves hopen.prints.toMoves
      (hreturn.moves.trans hclose.prints.toMoves)
      (hopen.room_eq_zero rfl (structOpenText_ne_nil p.name))
      (hclose.not_someFailsFull_concat hprinted) hclose.1)
    show s₃.log = _
    rw [hclose.log_eq, hreturn.log_eq, hinner, hopen.log_read, hlog]
    simp only [List.append_assoc]
  | @nameFails count depth p rest index s s' hguard hleaf hname hbehind ih =>
    intro before events hlog htells
    refine ih ?_ (htells.nameFails hname)
    rw [← List.append_assoc, ← hlog]
    exact List.append_assoc _ _ _
  | @valueFails count depth p rest index s s₁ hguard hleaf hname hvalue =>
    intro before events hlog htells
    refine ⟨events ++ [.read index, PrintState.event env (p.nameCall index) (s.read index)] ++
      [PrintState.event env (p.valueCall index) s₁], ?_,
      iff_of_true (Int.negSucc_lt_zero 0) (errorReported_concat hvalue)⟩
    show s₁.log ++ [_] = _
    rw [hname.log_read, hlog]
    simp only [List.append_assoc]
    rfl
  | @leaf count depth p rest index s s₁ s₂ s' hguard hleaf hname hvalue hbehind ih =>
    intro before events hlog htells
    refine ih ?_ ((htells.read index).moves hname.prints.toMoves hvalue.prints.toMoves
      (hname.room_eq_zero rfl (leafNameText_ne_nil p.name))
      (hvalue.not_someFailsFull_concat hname.not_someFailsFull) hvalue.1)
    show s₂.log = _
    rw [hvalue.log_eq, hname.log_read, hlog]
    simp only [List.append_assoc]

/-- `log_n_properties` reports an error exactly if the last call it made failed, or one failed with
no room left. -/
theorem logNProperties_neg_iff {env : PrintEnv} {buffer : Cursor} {pairs : List PropertyView}
    {count depth : ℕ} {s : PrintState} (h : logNProperties env buffer pairs count depth = some s) :
    s.result < 0 ↔ ErrorReported s.log := by
  obtain ⟨events, hlog, hiff⟩ :=
    (loopRun_iff.mpr h).tells (List.append_nil []).symm (PrintState.tells_nil rfl)
  rw [hlog]
  exact hiff

end CLogging
