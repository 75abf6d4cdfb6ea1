import CLogging.ToString.LevelTurns
import CLogging.ToString.Types

/-!
# Whether the buffer is terminated

`log_n_properties` leaves a terminator in the buffer if the last call that stored anything stored
one, whichever calls fail. Where the buffer is used up, it leaves none otherwise.
-/

namespace CLogging

open C Printf Forest

lemma bounded_apply {k : PrintCall} (h : Bounded k.writer) (env : PrintEnv) :
    Bounded (env.apply k) := by
  unfold PrintEnv.apply
  cases env k.site k.index with
  | none => exact h
  | some failure => exact stored_length_le failure.text

lemma terminating_apply {k : PrintCall} (h : Terminating k.writer) (env : PrintEnv) :
    Terminating (env.apply k) := by
  unfold PrintEnv.apply
  cases env k.site k.index with
  | none => exact h
  | some failure => exact terminating_stored failure.result failure.text

/-- A type whose values are stored in the buffer as a text is. -/
def StoresValues (type : LogContextPropertyTypeIf) : Prop :=
  ∀ mem, StoresText (type.toString mem) ∧ Bounded (type.toString mem)

lemma PrintCall.Prints.storesText {k : PrintCall} {pairs : List PropertyView} (h : k.Prints pairs)
    (hpairs : ∀ p ∈ pairs, StoresValues p.type) : StoresText k.writer ∧ Bounded k.writer := by
  rcases h with ⟨text, hzero, htext⟩ | ⟨p, hp, hvalue⟩
  · rw [htext]
    exact ⟨storesText_snprintf hzero, bounded_snprintf text⟩
  · rw [hvalue]
    exact hpairs p hp p.memory

namespace PrintState

variable {env : PrintEnv} {k : PrintCall} {s s' s₁ inner : PrintState}

/-! ### How much is used -/

/-- From one state to another: the buffer stays as long as it was, its room becomes no larger, and
the result grows by no more than was used of it. -/
structure Uses (s s' : PrintState) : Prop where
  length_eq : s'.cursor.mem.length = s.cursor.mem.length
  room_le   : s'.cursor.room ≤ s.cursor.room
  result_ge : -1 ≤ s'.result
  result_le : s'.result + s'.cursor.room ≤ s.result + s.cursor.room

lemma Uses.trans (h : s.Uses s₁) (h' : s₁.Uses s') : s.Uses s' :=
  ⟨h'.length_eq.trans h.length_eq, h'.room_le.trans h.room_le, h'.result_ge,
    h'.result_le.trans h.result_le⟩

lemma uses_read (h : -1 ≤ s.result) (index : ℕ) : s.Uses (s.read index) :=
  ⟨rfl, le_refl _, h, le_refl _⟩

lemma nested_result_ge : -1 ≤ s.nested.result := Int.neg_nonpos_of_nonneg Int.one_nonneg

/-- A call that fails, and what else is set then. -/
lemma uses_fail (h : -1 ≤ s.result) (env : PrintEnv) (k : PrintCall) (n : ℕ) :
    s.Uses { (s.call env k).2.fail with i := n } :=
  ⟨s.cursor.length_put _, le_refl _, le_refl _, Int.add_le_add_right h _⟩

lemma uses_read_fail (h : -1 ≤ s.result) (index : ℕ) (env : PrintEnv) (k : PrintCall) (n : ℕ) :
    s.Uses { ((s.read index).call env k).2.fail with i := n } :=
  (uses_read h index).trans (uses_fail (uses_read h index).result_ge env k n)

/-- How far the pointer moves. -/
lemma toNat_moved_le {n : ℤ} (hint : 0 ≤ int s.cursor.room) :
    (s.moved n).toNat ≤ s.cursor.room ∧ (s.moved n).toNat ≤ n.toNat := by
  have hmoved : s.moved n ≤ int s.cursor.room := min_le_right _ _
  refine ⟨?_, Int.toNat_le_toNat (min_le_left _ _)⟩
  simp only [int, Int.bmod_def] at hmoved hint
  split_ifs at hmoved hint <;> omega

lemma uses_update (h : -1 ≤ s.result) {n : ℤ} (hn : ¬ n < 0) (hs' : s.update n = some s') :
    s.Uses s' := by
  have hint := (update_inv hs').1
  obtain ⟨t, ht, hresult, hcursor, -⟩ := update_spec (not_lt.mp hn) hint
  obtain rfl := Option.some.inj (hs'.symm.trans ht)
  have hnonneg : 0 ≤ s.moved n := le_min (not_lt.mp hn) hint
  obtain ⟨hle, -⟩ := toNat_moved_le (n := n) hint
  refine ⟨by rw [hcursor, Cursor.advance_mem], ?_, ?_, ?_⟩
  · rw [hcursor, Cursor.advance_room]
    exact Nat.sub_le _ _
  · rw [hresult]
    omega
  · rw [hresult, hcursor, Cursor.advance_room]
    omega

lemma Succeeds.uses (h : s.Succeeds env k s') (hresult : -1 ≤ s.result) : s.Uses s' := by
  have hmoves := uses_update (s := (s.call env k).2) hresult h.1 h.2
  exact ⟨hmoves.length_eq.trans (s.cursor.length_put _), hmoves.room_le, hmoves.result_ge,
    hmoves.result_le⟩

lemma Returns.uses (h : s.Returns inner s') (hfields : s.nested.Uses inner)
    (hresult : -1 ≤ s.result) : s.Uses s' := by
  have hmoves := uses_update (s := s.returned inner) hresult h.1 h.2
  exact ⟨hmoves.length_eq.trans hfields.length_eq, hmoves.room_le, hmoves.result_ge,
    hmoves.result_le⟩

end PrintState

/-- A run uses no more of the buffer than it says. -/
lemma LoopRun.uses {env : PrintEnv} {count depth : ℕ} {pairs : List PropertyView} {index : ℕ}
    {s s' : PrintState} (hrun : LoopRun env count depth pairs index s s')
    (hresult : -1 ≤ s.result) : s.Uses s' := by
  induction hrun with
  | stop hguard => exact ⟨rfl, le_refl _, hresult, le_refl _⟩
  | openFails hguard hstruct hopen =>
    exact PrintState.uses_read_fail hresult _ _ _ _
  | fieldsFail hguard hstruct hopen hfields hneg ihc =>
    have hopened := (PrintState.uses_read hresult _).trans (hopen.uses hresult)
    have hinner := ihc PrintState.nested_result_ge
    exact ⟨hinner.length_eq.trans hopened.length_eq, hopened.room_le, le_refl _,
      (Int.add_le_add_right hopened.result_ge _).trans hopened.result_le⟩
  | closeFails hguard hstruct hopen hfields hreturn hclose ihc =>
    have hopened := (PrintState.uses_read hresult _).trans (hopen.uses hresult)
    have hreturned := hopened.trans (hreturn.uses (ihc PrintState.nested_result_ge) hopened.result_ge)
    exact hreturned.trans (PrintState.uses_fail hreturned.result_ge _ _ _)
  | struct hguard hstruct hopen hfields hreturn hclose hbehind ihc ih =>
    have hopened := (PrintState.uses_read hresult _).trans (hopen.uses hresult)
    have hreturned := hopened.trans (hreturn.uses (ihc PrintState.nested_result_ge) hopened.result_ge)
    have hclosed := hreturned.trans (hclose.uses hreturned.result_ge)
    have hrest := ih hclosed.result_ge
    exact hclosed.trans ⟨hrest.length_eq, hrest.room_le, hrest.result_ge, hrest.result_le⟩
  | nameFails hguard hleaf hname hbehind ih =>
    exact (PrintState.uses_read_fail hresult _ _ _ _).trans (ih (le_refl _))
  | valueFails hguard hleaf hname hvalue =>
    have hnamed := (PrintState.uses_read hresult _).trans (hname.uses hresult)
    exact hnamed.trans (PrintState.uses_fail hnamed.result_ge _ _ _)
  | leaf hguard hleaf hname hvalue hbehind ih =>
    have hnamed := (PrintState.uses_read hresult _).trans (hname.uses hresult)
    have hprinted := hnamed.trans (hvalue.uses hnamed.result_ge)
    have hrest := ih hprinted.result_ge
    exact hprinted.trans ⟨hrest.length_eq, hrest.room_le, hrest.result_ge, hrest.result_le⟩

/-! ### What is in the buffer -/

namespace PrintState

variable {env : PrintEnv} {k : PrintCall} {before : List (List UInt8)} {s s' inner : PrintState}

/-- What was stored last, before and in a run, decides whether the buffer is terminated. -/
def Tracks (before : List (List UInt8)) (s : PrintState) : Prop :=
  s.cursor.Tracks (before ++ bytesStored s.log)

lemma Tracks.read (h : s.Tracks before) (index : ℕ) : (s.read index).Tracks before :=
  Cursor.Tracks.congr h (by rw [effective_append, effective_append, effective_read])

/-- What is stored by a call is stored last. -/
lemma stores_call (before : List (List UInt8)) (env : PrintEnv) (k : PrintCall) (s : PrintState) :
    before ++ bytesStored (s.log ++ [event env k s]) =
      before ++ bytesStored s.log ++ [(env.apply k s.cursor.room).2] := by
  rw [bytesStored_append, ← List.append_assoc]
  rfl

lemma Tracks.call (h : s.Tracks before) (hk : Bounded k.writer) (env : PrintEnv) :
    (s.call env k).2.Tracks before := by
  have hput := Cursor.Tracks.put h (bounded_apply hk env)
  rw [← stores_call] at hput
  exact hput

lemma Succeeds.tracks (hsucceeds : s.Succeeds env k s') (h : s.Tracks before)
    (hk : StoresText k.writer) : s'.Tracks before := by
  obtain ⟨hint, hcursor⟩ := update_inv hsucceeds.2
  obtain ⟨hle, hmoved⟩ := toNat_moved_le (n := (s.call env k).1) hint
  have hnonneg : 0 ≤ (env.apply k s.cursor.room).1 := not_lt.mp hsucceeds.1
  have hstores : StoresText (env.apply k) := by rwa [PrintEnv.apply_of_nonneg hnonneg]
  have hadvance := Cursor.Tracks.advance h hstores hnonneg hmoved hle
  rw [← stores_call, ← hsucceeds.log_eq] at hadvance
  rw [Tracks, hcursor]
  exact hadvance

/-- Behind a nested call the pointer may lag behind what was printed. -/
lemma Returns.tracks (hreturns : s.Returns inner s') (h : s.Tracks before)
    (hinner : inner.Tracks before) (huses : s.nested.Uses inner) : s'.Tracks before := by
  obtain ⟨hint, hcursor⟩ := update_inv hreturns.2
  obtain ⟨-, hmoved⟩ := toNat_moved_le (s := s.returned inner) (n := inner.result) hint
  have hnonneg := not_lt.mp hreturns.1
  have hused : inner.result + inner.cursor.room ≤ 0 + s.cursor.room := huses.result_le
  rw [Tracks, hcursor, hreturns.log_eq]
  exact Cursor.Tracks.lag hinner h.fits huses.length_eq (by omega)

/-- Where a nested call fails, the pointer stays where it is. -/
lemma Tracks.returned (h : s.Tracks before) (hinner : inner.Tracks before)
    (huses : s.nested.Uses inner) : (s.returned inner).Tracks before :=
  Cursor.Tracks.lag (m := 0) hinner h.fits huses.length_eq huses.room_le

end PrintState

/-- In every run, whichever calls fail, what was stored last decides whether the buffer is
terminated. -/
theorem LoopRun.tracks {env : PrintEnv} {count depth : ℕ} {pairs : List PropertyView} {index : ℕ}
    {s s' : PrintState} (hrun : LoopRun env count depth pairs index s s')
    {before : List (List UInt8)} (hpairs : ∀ p ∈ pairs, StoresValues p.type) (h : s.Tracks before) :
    s'.Tracks before := by
  have hcalls : ∀ k : PrintCall, k.Prints pairs → StoresText k.writer ∧ Bounded k.writer :=
    fun k hk => hk.storesText hpairs
  clear hpairs
  induction hrun with
  | stop hguard => exact h
  | openFails hguard hstruct hopen =>
    exact (h.read _).call (hcalls _ (prints_openCall _ _ _)).2 _
  | fieldsFail hguard hstruct hopen hfields hneg ihc =>
    have hopened := hopen.tracks (h.read _) (hcalls _ (prints_openCall _ _ _)).1
    have hinner := ihc hopened (forall_prints_of_subset hcalls (List.subset_cons_self _ _))
    have hreturned := hopened.returned hinner (hfields.uses PrintState.nested_result_ge)
    exact hreturned
  | closeFails hguard hstruct hopen hfields hreturn hclose ihc =>
    have hopened := hopen.tracks (h.read _) (hcalls _ (prints_openCall _ _ _)).1
    have hinner := ihc hopened (forall_prints_of_subset hcalls (List.subset_cons_self _ _))
    have hreturned := hreturn.tracks hopened hinner (hfields.uses PrintState.nested_result_ge)
    exact hreturned.call (hcalls _ (prints_closeCall _ _ _)).2 _
  | struct hguard hstruct hopen hfields hreturn hclose hbehind ihc ih =>
    have hopened := hopen.tracks (h.read _) (hcalls _ (prints_openCall _ _ _)).1
    have hinner := ihc hopened (forall_prints_of_subset hcalls (List.subset_cons_self _ _))
    have hreturned := hreturn.tracks hopened hinner (hfields.uses PrintState.nested_result_ge)
    have hclosed := hclose.tracks hreturned (hcalls _ (prints_closeCall _ _ _)).1
    exact ih hclosed (forall_prints_of_subset hcalls fun q hq =>
      List.mem_cons_of_mem _ (List.mem_of_mem_drop hq))
  | nameFails hguard hleaf hname hbehind ih =>
    refine ih ?_ (forall_prints_of_subset hcalls (List.subset_cons_self _ _))
    exact (h.read _).call (hcalls _ (prints_nameCall _ _ _)).2 _
  | valueFails hguard hleaf hname hvalue =>
    have hnamed := hname.tracks (h.read _) (hcalls _ (prints_nameCall _ _ _)).1
    exact hnamed.call (hcalls _ (prints_valueCall _ _ _)).2 _
  | leaf hguard hleaf hname hvalue hbehind ih =>
    have hnamed := hname.tracks (h.read _) (hcalls _ (prints_nameCall _ _ _)).1
    have hprinted := hvalue.tracks hnamed (hcalls _ (prints_valueCall _ _ _)).1
    exact ih hprinted (forall_prints_of_subset hcalls (List.subset_cons_self _ _))

/-- Where every property prints a text, a terminator is stored last whatever fails. -/
lemma ends_of_printsText {env : PrintEnv} {pairs : List PropertyView}
    (htext : ∀ p ∈ pairs, PrintsText p.type) (buffer : Cursor) (count : ℕ)
    {before : List (List UInt8)} (h : EndsTerminated before) :
    EndsTerminated (before ++ bytesStored (toStringLog env buffer pairs count)) := by
  refine h.append fun bytes hbytes => ?_
  obtain ⟨e, he, rfl⟩ := List.mem_map.mp hbytes
  refine forall_toStringLog (P := fun e => e.bytes = [] ∨ 0 ∈ e.bytes) (fun _ => Or.inl rfl)
    (fun k hk s => ?_) buffer count e he
  have hwriter : Terminating (env.apply k) := by
    refine terminating_apply ?_ env
    rcases hk with ⟨text, -, heq⟩ | ⟨p, hp, heq⟩
    · exact heq ▸ terminating_snprintf text
    · obtain ⟨text, -, hvalue⟩ := htext p hp p.memory
      rw [heq, hvalue]
      exact terminating_snprintf text
  show (env.apply k s.cursor.room).2 = [] ∨ 0 ∈ (env.apply k s.cursor.room).2
  by_cases hroom : s.cursor.room = 0
  · exact Or.inl (List.length_eq_zero_iff.mp (Nat.le_zero.mp (hroom ▸ (hwriter _).1)))
  · exact Or.inr ((hwriter _).2 hroom)

/-! ### Arrays of one struct -/

/-- Text that was printed with room left behind it ends with a terminator. -/
lemma PrintState.Succeeds.ends_of_room {env : PrintEnv} {k : PrintCall} {s s' : PrintState}
    (h : s.Succeeds env k s') {text : List UInt8} (hk : k.writer = snprintf text)
    (hroom : s'.cursor.room ≠ 0) (before : List (List UInt8)) :
    EndsTerminated (before ++ bytesStored s'.log) := by
  obtain ⟨-, hcursor⟩ := PrintState.update_inv h.2
  have hleft : s.cursor.room ≠ 0 := by
    intro hzero
    rw [hcursor, Cursor.advance_room, PrintState.call_room, hzero, Nat.zero_sub] at hroom
    exact hroom rfl
  have hzero : 0 ∈ (snprintf text s.cursor.room).2 := zero_mem_stored text hleft
  rw [h.log_eq, PrintState.stores_call, endsTerminated_concat,
    PrintEnv.apply_of_nonneg (not_lt.mp h.1), hk]
  rw [if_neg (List.ne_nil_of_mem hzero)]
  exact hzero

/-- Behind an array that lists one struct its brace was printed last: with a terminator, unless
the room was used up. -/
lemma room_eq_zero_or_ends {env : PrintEnv} {p : PropertyView} {cs : List PropertyTree}
    {pairs rest : List PropertyView} (hlists : Lists pairs [.node p cs]) {buffer : Cursor}
    {s : PrintState} (hrun : logNProperties env buffer (pairs ++ rest) pairs.length 0 = some s)
    (hnonneg : 0 ≤ s.result) (before : List (List UInt8)) :
    s.cursor.room = 0 ∨ EndsTerminated (before ++ bytesStored s.log) := by
  obtain ⟨inside, behind, rfl, hstruct, hfields, hinside, hbehind⟩ := lists_node hlists
  obtain rfl := lists_nil hbehind
  rw [List.append_nil] at hrun
  cases loopRun_of_loop _ _ _ _ _ _ hrun with
  | stop hguard => exact absurd (Or.inl ⟨rfl, Nat.succ_pos _⟩) hguard
  | openFails | fieldsFail | closeFails =>
    exact absurd hnonneg (not_le.mpr (Int.negSucc_lt_zero 0))
  | @struct _ _ _ _ _ _ s₁ inner s₂ s₃ _ _ _ hopen hrunFields hreturn hclose hrest =>
    have hopened := hopen.prints
    obtain ⟨inner', events, hinner', hlevel⟩ := runsLevel env cs inside rest p.fieldCount 1 1
      s₁.nested hinside (fun h => absurd h Nat.one_ne_zero)
      (fun _ => by rw [hfields]; exact (Nat.zero_add _).symm) hopened.nonneg
      PrintState.nested_result_ge
    obtain rfl := Option.some.inj (hrunFields.loop_eq.symm.trans hinner')
    -- the loop stops behind the struct
    have hi : s₃.i + inner.i + 1 = inside.length + 1 := by
      have hstart : s₃.i = 0 := hclose.prints.i_eq.trans
        ((PrintState.update_frame hreturn.2).2.trans hopened.i_eq)
      have hinner : inner.i = 0 + (encodeForest cs).length := hlevel.i_eq (not_lt.mp hreturn.1)
      rw [hstart, hinner, hinside.length_eq]
      omega
    have hstop := hrest.loop_eq
    rw [loop_nil (fun _ => by rw [hi]; simp) (fun h => absurd h (Nat.lt_irrefl 0))] at hstop
    obtain rfl := Option.some.inj hstop
    exact or_iff_not_imp_left.mpr fun hroom => hclose.ends_of_room rfl hroom before
  | nameFails _ hleaf | valueFails _ hleaf | leaf _ hleaf => exact absurd hstruct hleaf

end CLogging
