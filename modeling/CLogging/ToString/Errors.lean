import CLogging.ToString.Rendering

/-!
# Which errors are reported

`log_n_properties` goes on behind an error in printing the name of a leaf. The result of the level
is then negative only if nothing is printed behind it.
-/

namespace CLogging

open C Printf Forest

variable {env : PrintEnv}

/-- If some call fails, the result is negative. -/
def Propagates (env : PrintEnv) (buffer : Cursor) (pairs : List PropertyView) : Prop :=
  ∃ n mem, logContextPropertyToString env buffer pairs pairs.length = some (n, mem) ∧
    ((∃ e ∈ toStringLog env buffer pairs pairs.length, e.Fails) → n < 0)

/-! ### Sizes that are not an `int` -/

/-- A call that succeeds moves the pointer before the buffer. -/
lemma not_succeeds {s s' : PrintState} {k : PrintCall} (h : int s.cursor.room < 0) :
    ¬ s.Succeeds env k s' :=
  fun hk => absurd (PrintState.update_inv hk.2).1 (not_le.mpr h)

/-- With such a size the loop returns only if no call succeeds: it ends with an error. -/
lemma LoopRun.levelRun_of_int_neg {count depth : ℕ} {ts : List PropertyTree}
    {pairs : List PropertyView} {index : ℕ} {s s' : PrintState} (hlists : Lists pairs ts)
    (hflat : depth = 0 → count = s.i + (encodeForest ts).length)
    (hnested : depth > 0 → count = s.added + ts.length) (hint : int s.cursor.room < 0)
    (hresult : -1 ≤ s.result) (h : LoopRun env count depth pairs index s s') :
    ∃ events, LevelRun ts index s s' events ∧ (ts ≠ [] → s'.result < 0) := by
  induction ts generalizing pairs index s with
  | nil =>
    rw [encodeForest_nil, List.length_nil, Nat.add_zero] at hflat
    rw [List.length_nil, Nat.add_zero] at hnested
    obtain rfl := Option.some.inj (h.loop_eq.symm.trans (loop_nil hflat hnested))
    exact ⟨[], levelRun_nil hresult, fun hne => absurd rfl hne⟩
  | cons t ts ih =>
    have hguard := guard_of_cons hflat hnested
    match t with
    | .leaf p =>
      obtain ⟨behind, rfl, hleaf, hbehind⟩ := lists_leaf hlists
      obtain ⟨hflat, hnested⟩ := count_of_cons hflat hnested (length_encode_leaf p)
      cases h with
      | stop hstop => exact absurd hguard hstop
      | openFails _ hstruct | fieldsFail _ hstruct | closeFails _ hstruct | struct _ hstruct =>
        exact absurd hstruct hleaf
      | nameFails _ _ hname hrest =>
        obtain ⟨events, hrun, hneg⟩ := ih
          (s := { ((s.read index).call env (p.nameCall index)).2.fail with i := s.i + 1 })
          hbehind hflat hnested hint (le_refl _) hrest
        refine ⟨_, hrun.prepend_nameFails hname, fun _ => ?_⟩
        by_cases hts : ts = []
        · -- no property is left to hide the error
          exact hrun.fails_iff.mpr (Or.inr ⟨Int.negSucc_lt_zero 0, Or.inl hts⟩)
        · -- the ones behind it fail in turn, since the size is negative
          exact hneg hts
      | valueFails _ _ hname | leaf _ _ hname => exact absurd hname (not_succeeds hint)
    | .node p cs =>
      obtain ⟨inside, behind, rfl, hstruct, -⟩ := lists_node hlists
      cases h with
      | stop hstop => exact absurd hguard hstop
      | openFails _ _ hopen => exact ⟨_, levelRun_openFails hopen, fun _ => Int.negSucc_lt_zero 0⟩
      | fieldsFail _ _ hopen | closeFails _ _ hopen | struct _ _ hopen =>
        exact absurd hopen (not_succeeds hint)
      | nameFails _ hleaf | valueFails _ hleaf | leaf _ hleaf => exact absurd hstruct hleaf

/-! ### Errors -/

/-- The result tells that a call failed exactly if none did, or one of those whose error is
reported. -/
theorem propagates_iff (env : PrintEnv) {ts : List PropertyTree} (hne : ts ≠ [])
    {pairs : List PropertyView} (hlists : Lists pairs ts) (mem : List UInt8) {bufferSize : ℕ}
    (hpos : 0 < bufferSize) :
    Propagates env ⟨mem, 0, bufferSize⟩ pairs ↔
      (0 ≤ int (bufferSize : ℤ) ∧
        ∀ e ∈ toStringLog env ⟨mem, 0, bufferSize⟩ pairs pairs.length, ¬ e.Fails) ∨
      ∃ e ∈ toStringLog env ⟨mem, 0, bufferSize⟩ pairs pairs.length,
        e.Reported (lastLeaves 0 ts) := by
  obtain ⟨hout, hlog⟩ := toString_eq env ⟨mem, 0, bufferSize⟩ pairs
    (hlists.not_refused hne hpos)
  rw [Propagates, hout, hlog]
  by_cases hint : 0 ≤ int (bufferSize : ℤ)
  · -- the size fits into int: the loop runs through the forest
    obtain ⟨s, hrun, hlevel⟩ := exists_run env hlists [] ⟨mem, 0, bufferSize⟩ hint
    rw [List.append_nil] at hrun
    have hfails : s.result < 0 ↔ ∃ e ∈ s.log, e.Reported (lastLeaves 0 ts) := by
      rw [hlevel.fails_iff, or_iff_left]
      exact fun h => absurd h.1 (lt_irrefl 0)
    rw [hrun, Option.map_some, Option.map_some, Option.getD_some, ← hfails]
    constructor
    · rintro ⟨n, mem', heq, hprop⟩
      obtain ⟨rfl, -⟩ := Prod.mk.inj (Option.some.inj heq)
      by_cases hany : ∃ e ∈ s.log, e.Fails
      · -- a call failed, so the function says so
        exact Or.inr (hprop hany)
      · exact Or.inl ⟨hint, fun e he hf => hany ⟨e, he, hf⟩⟩
    · rintro (⟨-, hnone⟩ | hneg)
      · exact ⟨_, _, rfl, fun ⟨e, he, hf⟩ => absurd hf (hnone e he)⟩
      · -- the error of the last property or of a struct is the result
        exact ⟨_, _, rfl, fun _ => hneg⟩
  · -- the size is negative as an int: the first update already fails
    match hrun : logNProperties env ⟨mem, 0, bufferSize⟩ pairs pairs.length 0 with
    | none =>
      refine iff_of_false ?_ ?_
      · rintro ⟨n, mem', heq, -⟩
        cases heq
      · rintro (⟨h, -⟩ | ⟨e, he, -⟩)
        · exact hint h
        · cases he
    | some s =>
      have hcount : pairs.length = 0 + (encodeForest ts).length := by
        rw [hlists.length_eq, Nat.zero_add]
      obtain ⟨events, hlevel, hneg⟩ := LoopRun.levelRun_of_int_neg
        (s := ⟨⟨mem, 0, bufferSize⟩, 0, 0, 0, []⟩) hlists (fun _ => hcount)
        (fun h => absurd h (Nat.lt_irrefl 0)) (not_le.mp hint) (by simp) (loopRun_iff.mpr hrun)
      obtain rfl : s.log = events := hlevel.log_eq
      rcases hlevel.fails_iff.mp (hneg hne) with hreported | ⟨hstart, -⟩
      · -- the first property reports it
        exact iff_of_true ⟨_, _, rfl, fun _ => hneg hne⟩ (Or.inr hreported)
      · exact absurd hstart (lt_irrefl 0)

/-- Printing the name of one leaf fails. -/
def nameFailsAt (i : ℕ) : PrintEnv := fun site index =>
  if site = .leafName ∧ index = i then some ⟨-1, minusOne_negative, []⟩ else none

lemma lastLeaves_numberTrees : lastLeaves 0 numberTrees = [1, 2] := by
  simp [numberTrees, lastLeaves]

theorem propagates_iff_sample : Propagates (nameFailsAt 2) ⟨List.replicate 32 1, 0, 32⟩
    numberPairs := by
  refine (propagates_iff (nameFailsAt 2) (by decide) lists_numberPairs (List.replicate 32 1)
    (by decide : 0 < 32)).mpr (Or.inr ?_)
  rw [lastLeaves_numberTrees]
  decide +kernel

/-- Two numbers. -/
def twoNumbers : List PropertyView :=
  [⟨⟨ascii "x", zero_notMem_x⟩, int8, [5]⟩, ⟨⟨ascii "y", zero_notMem_y⟩, int8, [6]⟩]

/-- An error in printing the first name is hidden by what is printed behind it. -/
theorem not_propagates_firstName :
    Lists twoNumbers (twoNumbers.map .leaf) ∧ twoNumbers.map .leaf ≠ ([] : List PropertyTree) ∧
      ¬ Propagates (nameFailsAt 0) ⟨List.replicate 32 1, 0, 32⟩ twoNumbers := by
  refine ⟨rfl, by decide, ?_⟩
  have hresult : (logContextPropertyToString (nameFailsAt 0) ⟨List.replicate 32 1, 0, 32⟩
      twoNumbers twoNumbers.length).map Prod.fst = some 3 := by
    decide +kernel
  have hfails : ∃ e ∈ toStringLog (nameFailsAt 0) ⟨List.replicate 32 1, 0, 32⟩ twoNumbers
      twoNumbers.length, e.Fails := by
    decide +kernel
  rintro ⟨n, mem, heq, hprop⟩
  rw [heq] at hresult
  obtain rfl := Option.some.inj hresult
  exact absurd (hprop hfails) (by decide)

end CLogging
