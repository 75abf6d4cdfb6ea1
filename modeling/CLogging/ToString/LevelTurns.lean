import CLogging.ToString.Levels
import CLogging.ToString.Turns

/-!
# The turns of a level

Each turn of the loop prints a tree, or ends with an error: what it adds to the run of a level is
shown for each way a turn can end. By induction on the trees the loop does what a run of a level
does, and never leaves the array.
-/

namespace CLogging

open C Printf Forest

/-! ### Calls that succeed -/

namespace PrintState

variable {env : PrintEnv} {k : PrintCall} {s s' inner : PrintState}

lemma exists_succeeds (h : ¬ (s.call env k).1 < 0) (hint : 0 ≤ int s.cursor.room) :
    ∃ s', s.Succeeds env k s' := by
  obtain ⟨s', hs', -⟩ := update_spec (s := (s.call env k).2) (not_lt.mp h) hint
  exact ⟨s', h, hs'⟩

lemma exists_returns (h : ¬ inner.result < 0) (hint : 0 ≤ int s.cursor.room) :
    ∃ s', s.Returns inner s' := by
  obtain ⟨s', hs', -⟩ := update_spec (s := s.returned inner) (not_lt.mp h) hint
  exact ⟨s', h, hs'⟩

/-- A call that succeeds, and the step behind it, print what the call writes. -/
lemma Succeeds.prints (h : s.Succeeds env k s') : s.Prints [k.writer] [event env k s] s' := by
  obtain ⟨hsucceeds, hupdate⟩ := h
  have hnonneg : 0 ≤ (env.apply k s.cursor.room).1 := not_lt.mp hsucceeds
  obtain ⟨t, ht, hresult, -, hroom, hi, hadded, hlog⟩ :=
    update_spec (s := (s.call env k).2) hnonneg (update_inv hupdate).1
  obtain rfl := Option.some.inj (hupdate.symm.trans ht)
  have hint : 0 ≤ int s.cursor.room := (update_inv hupdate).1
  rw [moved, call_room] at hresult hroom
  rw [call_result] at hresult
  refine ⟨⟨?_, ?_, ?_⟩, hlog, hi, hadded, fun hlt _ => ?_⟩
  · omega
  · omega
  · omega
  · obtain ⟨t, ht, hcursor, hresult', -⟩ := exists_update_call hnonneg hlt
    obtain rfl := Option.some.inj (hupdate.symm.trans ht)
    rw [PrintEnv.apply_of_nonneg hnonneg] at hcursor
    exact ⟨hcursor, hresult'⟩

/-- A text that is not empty uses up some of the room. -/
lemma Succeeds.room_eq_zero (h : s.Succeeds env k s') {text : List UInt8}
    (hk : k.writer = snprintf text) (htext : text ≠ [])
    (hsame : int s'.cursor.room = int s.cursor.room) : int s.cursor.room = 0 := by
  obtain ⟨hsucceeds, hupdate⟩ := h
  have hnonneg : 0 ≤ (env.apply k s.cursor.room).1 := not_lt.mp hsucceeds
  have hne : (env.apply k s.cursor.room).1 ≠ 0 := by
    rw [PrintEnv.apply_of_nonneg hnonneg, hk]
    simpa [snprintf] using htext
  obtain ⟨t, ht, -, -, hroom, -⟩ :=
    update_spec (s := (s.call env k).2) hnonneg (update_inv hupdate).1
  obtain rfl := Option.some.inj (hupdate.symm.trans ht)
  rw [moved, call_room] at hroom
  omega

/-- The step behind a nested call moves by what its result says. -/
lemma Returns.moves (h : s.Returns inner s') : s.Moves s' := by
  obtain ⟨hsucceeds, hupdate⟩ := h
  have hint : 0 ≤ int s.cursor.room := (update_inv hupdate).1
  obtain ⟨t, ht, hresult, -, hroom, -⟩ :=
    update_spec (s := s.returned inner) (not_lt.mp hsucceeds) (update_inv hupdate).1
  obtain rfl := Option.some.inj (hupdate.symm.trans ht)
  rw [moved, show (s.returned inner).cursor.room = s.cursor.room from rfl] at hresult hroom
  rw [show (s.returned inner).result = s.result from rfl] at hresult
  refine ⟨?_, ?_, ?_⟩ <;> omega

/-- The step behind a nested call that does not fail: the nested call printed. -/
lemma Returns.prints {cs : List PropertyTree} {index : ℕ} {events : List PrintEvent}
    (h : s.Returns inner s') (hfields : LevelRun cs index s.nested inner events) :
    s.Prints (writers cs) events s' := by
  have hmoves := h.moves
  obtain ⟨hsucceeds, hupdate⟩ := h
  obtain ⟨t, ht, -, -, -, hi, hadded, hlog⟩ :=
    update_spec (s := s.returned inner) (not_lt.mp hsucceeds) (update_inv hupdate).1
  obtain rfl := Option.some.inj (hupdate.symm.trans ht)
  refine ⟨hmoves, hlog.trans hfields.log_eq, hi, hadded, fun hlt hnone => ?_⟩
  -- what the loop over the fields has used up is what the update moves by
  obtain ⟨hcursor, hinner, -⟩ := hfields.prints hlt hnone
  have hinner' : inner.result = s.cursor.room - inner.cursor.room := by
    rw [hinner]
    exact zero_add _
  obtain ⟨t, ht, hcursor', hresult', -⟩ := exists_update_returned
    (show inner.cursor = s.cursor.emitAll (writers cs) from hcursor) hinner' hlt
  obtain rfl := Option.some.inj (hupdate.symm.trans ht)
  rw [hcursor']
  exact ⟨hcursor, hresult'⟩

end PrintState

lemma leafNameText_ne_nil (name : CString) : leafNameText name ≠ [] := by
  simp [leafNameText, ascii]

lemma structOpenText_ne_nil (name : CString) : structOpenText name ≠ [] := by
  simp [structOpenText, ascii]

/-! ### The turns for a leaf -/

/-- What is recorded of the first pair of a tree. -/
lemma within_tree {t : PropertyTree} {index n : ℕ} (hn : t.encode.length = n) {e : PrintEvent}
    (h : e.index = index) : index ≤ e.index ∧ e.index < index + n := by
  have hpos := encode_length_pos t
  omega

section

variable {env : PrintEnv} {p : PropertyView} {ts : List PropertyTree} {index : ℕ}
  {s s₁ s₂ s' : PrintState} {events : List PrintEvent}

/-- An error in printing the name of a leaf is hidden unless the level ends here or there is no room
left. -/
lemma LevelRun.prepend_nameFails (hname : ((s.read index).call env (p.nameCall index)).1 < 0)
    (hrest : LevelRun ts (index + 1)
      { ((s.read index).call env (p.nameCall index)).2.fail with i := s.i + 1 } s' events) :
    LevelRun (.leaf p :: ts) index s s'
      ([.read index, PrintState.event env (p.nameCall index) (s.read index)] ++ events) := by
  set named := PrintState.event env (p.nameCall index) (s.read index)
  have hreported : (∃ e ∈ [.read index, named], e.Reported (lastLeaves index (.leaf p :: ts))) ↔
      ts = [] ∨ int s.cursor.room = 0 := by
    constructor
    · rintro ⟨e, he, hreported⟩
      rcases List.mem_pair.mp he with rfl | rfl
      · exact absurd hreported id
      · -- the name is reported only by the last leaf, or when no room is left
        obtain ⟨-, hsite | hlast | hroom⟩ := hreported
        · exact absurd rfl hsite
        · exact Or.inl (mem_lastLeaves_leaf.mp hlast)
        · exact Or.inr hroom
    · intro h
      exact ⟨named, List.mem_cons_of_mem _ (List.mem_singleton_self _), hname,
        Or.inr (h.imp_left mem_lastLeaves_leaf.mpr)⟩
  refine hrest.prepend (length_encode_leaf p) (List.append_assoc _ _ _) ?_ rfl ?_ ?_
  · intro e he
    rcases List.mem_pair.mp he with rfl | rfl <;> exact within_tree (length_encode_leaf p) rfl
  · -- the error stays in the result as long as no property overwrites it
    rw [hreported]
    constructor
    · rintro ⟨-, h⟩
      exact Or.inl h
    · rintro (h | ⟨-, h⟩)
      · exact ⟨Int.negSucc_lt_zero 0, h⟩
      · exact ⟨Int.negSucc_lt_zero 0, Or.inr h⟩
  · -- the name did fail
    intro _ hnone
    exact absurd hname (hnone named (List.mem_cons_of_mem _ (List.mem_singleton_self _)))

/-- The level ends with an error in printing the value of a leaf. -/
lemma levelRun_valueFails (hname : (s.read index).Succeeds env (p.nameCall index) s₁)
    (hvalue : (s₁.call env (p.valueCall index)).1 < 0) :
    LevelRun (.leaf p :: ts) index s (s₁.call env (p.valueCall index)).2.fail
      [.read index, PrintState.event env (p.nameCall index) (s.read index),
        PrintState.event env (p.valueCall index) s₁] := by
  refine levelRun_of_break (length_encode_leaf p) ?_ ?_ rfl ?_
  · show s₁.log ++ [PrintState.event env (p.valueCall index) s₁] = _
    rw [hname.prints.log_eq]
    simp [PrintState.read]
  · intro e he
    simp only [List.mem_cons, List.not_mem_nil, or_false] at he
    rcases he with rfl | rfl | rfl <;> exact within_tree (length_encode_leaf p) rfl
  · refine ⟨PrintState.event env (p.valueCall index) s₁, by simp, hvalue, Or.inl ?_⟩
    exact fun h => PrintSite.noConfusion h

/-- A leaf that is printed, and then the rest of the level. -/
lemma LevelRun.prepend_leaf (hname : (s.read index).Succeeds env (p.nameCall index) s₁)
    (hvalue : s₁.Succeeds env (p.valueCall index) s₂)
    (hrest : LevelRun ts (index + 1) { s₂ with i := s₂.i + 1 } s' events)
    (hresult : -1 ≤ s.result) :
    LevelRun (.leaf p :: ts) index s s'
      (.read index :: ([PrintState.event env (p.nameCall index) (s.read index)] ++
        [PrintState.event env (p.valueCall index) s₁]) ++ events) := by
  have hi : s₂.i = s.i := (hname.prints.trans hvalue.prints).i_eq
  rw [hi] at hrest
  have hwriters : writers [.leaf p] = [(p.nameCall index).writer] ++
      [(p.valueCall index).writer] := by
    simp only [writers]
    rfl
  refine LevelRun.prepend_of_prints (n := 0) (length_encode_leaf p) hname.prints
    (hname.room_eq_zero rfl (leafNameText_ne_nil p.name)) hvalue.prints hwriters hrest hresult ?_ ?_
    fun _ _ => rfl
  · intro e he
    rcases List.mem_pair.mp he with rfl | rfl <;> exact within_tree (length_encode_leaf p) rfl
  · rintro ⟨e, he, hreported⟩
    rcases List.mem_pair.mp he with rfl | rfl
    · exact hname.1 hreported.1
    · exact hvalue.1 hreported.1

end

/-! ### The turns for a struct -/

section

variable {env : PrintEnv} {p : PropertyView} {cs ts : List PropertyTree} {index : ℕ}
  {s s₁ inner s₂ s₃ s' : PrintState} {fields events : List PrintEvent}

/-- What is recorded of the fields of a struct is about one of their pairs. -/
lemma LevelRun.within_node (hfields : LevelRun cs (index + 1) s inner fields) :
    ∀ e ∈ fields, index ≤ e.index ∧ e.index < index + (1 + (encodeForest cs).length) := by
  intro e he
  have := hfields.within e he
  omega

/-- The fields fail with an error that is reported for the whole level. -/
lemma LevelRun.negative_iff (hfields : LevelRun cs (index + 1) s₁.nested inner fields) :
    inner.result < 0 ↔ ∃ e ∈ fields, e.Reported (lastLeaves index (.node p cs :: ts)) := by
  have hzero : ¬ (s₁.nested.result < 0 ∧ (cs = [] ∨ int s₁.nested.cursor.room = 0)) :=
    fun h => absurd h.1 (lt_irrefl 0)
  rw [hfields.fails_iff, or_iff_left hzero]
  refine exists_congr fun e => and_congr_right fun he => ?_
  exact (PrintEvent.reported_congr (mem_lastLeaves_node (hfields.within e he).2)).symm

/-- The level ends with an error in opening a struct. -/
lemma levelRun_openFails (hopen : ((s.read index).call env (p.openCall index)).1 < 0) :
    LevelRun (.node p cs :: ts) index s ((s.read index).call env (p.openCall index)).2.fail
      [.read index, PrintState.event env (p.openCall index) (s.read index)] := by
  refine levelRun_of_break (length_encode_node p cs) (List.append_assoc _ _ _) ?_ rfl ?_
  · intro e he
    rcases List.mem_pair.mp he with rfl | rfl <;> exact within_tree (length_encode_node p cs) rfl
  · refine ⟨_, List.mem_cons_of_mem _ (List.mem_singleton_self _), hopen, Or.inl ?_⟩
    exact fun h => PrintSite.noConfusion h

/-- The level ends with an error in printing the fields of a struct. -/
lemma levelRun_fieldsFail (hopen : (s.read index).Succeeds env (p.openCall index) s₁)
    (hfields : LevelRun cs (index + 1) s₁.nested inner fields) (hneg : inner.result < 0) :
    LevelRun (.node p cs :: ts) index s (s₁.returned inner).fail
      ([.read index, PrintState.event env (p.openCall index) (s.read index)] ++ fields) := by
  refine levelRun_of_break (length_encode_node p cs) ?_ ?_ rfl ?_
  · show inner.log = _
    rw [hfields.log_eq, show s₁.nested.log = s₁.log from rfl, hopen.prints.log_eq]
    simp [PrintState.read]
  · intro e he
    rcases List.mem_append.mp he with he | he
    · rcases List.mem_pair.mp he with rfl | rfl <;> exact within_tree (length_encode_node p cs) rfl
    · exact hfields.within_node e he
  · obtain ⟨e, he, hreported⟩ := hfields.negative_iff.mp hneg
    exact ⟨e, List.mem_append_right _ he, hreported⟩

/-- The level ends with an error in closing a struct. -/
lemma levelRun_closeFails (hopen : (s.read index).Succeeds env (p.openCall index) s₁)
    (hfields : LevelRun cs (index + 1) s₁.nested inner fields) (hreturn : s₁.Returns inner s₂)
    (hclose : (s₂.call env (p.closeCall index)).1 < 0) :
    LevelRun (.node p cs :: ts) index s
      { (s₂.call env (p.closeCall index)).2.fail with i := s₂.i + inner.i }
      ([.read index, PrintState.event env (p.openCall index) (s.read index)] ++ fields ++
        [PrintState.event env (p.closeCall index) s₂]) := by
  refine levelRun_of_break (length_encode_node p cs) ?_ ?_ rfl ?_
  · show s₂.log ++ [PrintState.event env (p.closeCall index) s₂] = _
    rw [(hopen.prints.trans (hreturn.prints hfields)).log_eq]
    simp [PrintState.read]
  · intro e he
    rcases List.mem_append.mp he with he | he
    · rcases List.mem_append.mp he with he | he
      · rcases List.mem_pair.mp he with rfl | rfl <;> exact within_tree (length_encode_node p cs) rfl
      · exact hfields.within_node e he
    · obtain rfl := List.mem_singleton.mp he
      exact within_tree (length_encode_node p cs) rfl
  · refine ⟨_, List.mem_append_right _ (List.mem_singleton_self _), hclose, Or.inl ?_⟩
    exact fun h => PrintSite.noConfusion h

/-- A struct that is printed, and then the rest of the level. -/
lemma LevelRun.prepend_node (hopen : (s.read index).Succeeds env (p.openCall index) s₁)
    (hfields : LevelRun cs (index + 1) s₁.nested inner fields) (hreturn : s₁.Returns inner s₂)
    (hclose : s₂.Succeeds env (p.closeCall index) s₃)
    (hrest : LevelRun ts (index + (1 + (encodeForest cs).length))
      { s₃ with i := s.i + (1 + (encodeForest cs).length) } s' events) (hresult : -1 ≤ s.result) :
    LevelRun (.node p cs :: ts) index s s'
      (.read index :: ([PrintState.event env (p.openCall index) (s.read index)] ++
        (fields ++ [PrintState.event env (p.closeCall index) s₂])) ++ events) := by
  have hbody := (hreturn.prints hfields).trans hclose.prints
  have hwriters : writers [.node p cs] = [(p.openCall index).writer] ++
      (writers cs ++ [(p.closeCall index).writer]) := by
    simp only [writers]
    rfl
  refine LevelRun.prepend_of_prints (length_encode_node p cs) hopen.prints
    (hopen.room_eq_zero rfl (structOpenText_ne_nil p.name)) hbody hwriters hrest hresult ?_ ?_
    fun hroom hnone => ?_
  · -- every event is about a pair of the struct
    intro e he
    rcases List.mem_append.mp he with he | he
    · obtain rfl := List.mem_singleton.mp he
      exact within_tree (length_encode_node p cs) rfl
    · rcases List.mem_append.mp he with he | he
      · exact hfields.within_node e he
      · obtain rfl := List.mem_singleton.mp he
        exact within_tree (length_encode_node p cs) rfl
  · -- an event that reported would have made its call, or the fields, fail
    rintro ⟨e, he, hreported⟩
    rcases List.mem_append.mp he with he | he
    · obtain rfl := List.mem_singleton.mp he
      exact hopen.1 hreported.1
    · rcases List.mem_append.mp he with he | he
      · exact hreturn.1 (hfields.negative_iff.mpr ⟨e, he, hreported⟩)
      · obtain rfl := List.mem_singleton.mp he
        exact hclose.1 hreported.1
  · -- the pairs read are those of the fields
    obtain ⟨-, -, hreads⟩ := hfields.prints hroom fun e he => hnone e (List.mem_append_left _ he)
    rw [← hreads]
    simp [readIndices, PrintState.event]

end

/-! ### The loop over a level -/

section

variable {env : PrintEnv}

/-- The loop, started with some trees in front of it that it is meant to print, prints them or
fails. -/
def RunsLevel (env : PrintEnv) (ts : List PropertyTree) : Prop :=
  ∀ (pairs rest : List PropertyView) (count depth index : ℕ) (s : PrintState), Lists pairs ts →
    (depth = 0 → count = s.i + (encodeForest ts).length) →
    (depth > 0 → count = s.added + ts.length) → 0 ≤ int s.cursor.room → -1 ≤ s.result →
      ∃ s' events, logNPropertiesLoop env count depth (pairs ++ rest) index s = some s' ∧
        LevelRun ts index s s' events

/-- The loop stops behind the last tree. -/
lemma loop_nil {count depth index : ℕ} {rest : List PropertyView} {s : PrintState}
    (hflat : depth = 0 → count = s.i) (hnested : depth > 0 → count = s.added) :
    logNPropertiesLoop env count depth rest index s = some s := by
  rw [logNPropertiesLoop.eq_def, if_neg (not_guard_of_eq hflat hnested)]

lemma runsLevel_nil : RunsLevel env [] := by
  intro pairs rest count depth index s hlists hflat hnested _ hresult
  obtain rfl := lists_nil hlists
  rw [encodeForest_nil, List.length_nil, Nat.add_zero] at hflat
  rw [List.length_nil, Nat.add_zero] at hnested
  exact ⟨s, [], loop_nil hflat hnested, levelRun_nil hresult⟩

/-- One turn of the loop for a property that is not a struct. -/
lemma runsLevel_leaf {p : PropertyView} {ts : List PropertyTree} (ih : RunsLevel env ts) :
    RunsLevel env (.leaf p :: ts) := by
  intro pairs rest count depth index s hlists hflat hnested hint hresult
  have hguard := guard_of_cons hflat hnested
  obtain ⟨hflat, hnested⟩ := count_of_cons hflat hnested (length_encode_leaf p)
  obtain ⟨behind, rfl, hleaf, hbehind⟩ := lists_leaf hlists
  by_cases hname : ((s.read index).call env (p.nameCall index)).1 < 0
  · obtain ⟨s', events, hloop, hrun⟩ := ih behind rest count depth (index + 1)
      { ((s.read index).call env (p.nameCall index)).2.fail with i := s.i + 1 } hbehind hflat
      hnested hint (le_refl _)
    exact ⟨s', _, (LoopRun.nameFails hguard hleaf hname (loopRun_iff.mpr hloop)).loop_eq,
      hrun.prepend_nameFails hname⟩
  obtain ⟨s₁, hname⟩ := PrintState.exists_succeeds hname hint
  by_cases hvalue : (s₁.call env (p.valueCall index)).1 < 0
  · exact ⟨_, _, (LoopRun.valueFails hguard hleaf hname hvalue).loop_eq,
      levelRun_valueFails hname hvalue⟩
  obtain ⟨s₂, hvalue⟩ := PrintState.exists_succeeds hvalue hname.prints.nonneg
  have hprints := hname.prints.trans hvalue.prints
  have hi : s₂.i = s.i := hprints.i_eq
  have hadded : s₂.added = s.added + 1 := hprints.added_eq
  obtain ⟨s', events, hloop, hrun⟩ := ih behind rest count depth (index + 1)
    { s₂ with i := s₂.i + 1 } hbehind (by rwa [hi]) (by rwa [hadded]) hprints.nonneg
    (hresult.trans hprints.result_le)
  exact ⟨s', _, (LoopRun.leaf hguard hleaf hname hvalue (loopRun_iff.mpr hloop)).loop_eq,
    hrun.prepend_leaf hname hvalue hresult⟩

/-- One turn of the loop for a struct. -/
lemma runsLevel_node {p : PropertyView} {cs ts : List PropertyTree} (ihc : RunsLevel env cs)
    (ih : RunsLevel env ts) : RunsLevel env (.node p cs :: ts) := by
  intro pairs rest count depth index s hlists hflat hnested hint hresult
  have hguard := guard_of_cons hflat hnested
  obtain ⟨hflat, hnested⟩ := count_of_cons hflat hnested (length_encode_node p cs)
  obtain ⟨inside, behind, rfl, hstruct, hcount, hinside, hbehind⟩ := lists_node hlists
  rw [List.cons_append, List.append_assoc]
  by_cases hopen : ((s.read index).call env (p.openCall index)).1 < 0
  · exact ⟨_, _, (LoopRun.openFails hguard hstruct hopen).loop_eq, levelRun_openFails hopen⟩
  obtain ⟨s₁, hopen⟩ := PrintState.exists_succeeds hopen hint
  obtain ⟨inner, fields, hloop, hfields⟩ := ihc inside (behind ++ rest) p.fieldCount (depth + 1)
    (index + 1) s₁.nested hinside (fun h => absurd h (Nat.succ_ne_zero _))
    (fun _ => by rw [hcount]; exact (Nat.zero_add _).symm) hopen.prints.nonneg
    (by simp [PrintState.nested])
  rw [← loopRun_iff] at hloop
  by_cases hneg : inner.result < 0
  · exact ⟨_, _, (LoopRun.fieldsFail hguard hstruct hopen hloop hneg).loop_eq,
      levelRun_fieldsFail hopen hfields hneg⟩
  obtain ⟨s₂, hreturn⟩ := PrintState.exists_returns hneg hopen.prints.nonneg
  have hreturned := hreturn.prints hfields
  by_cases hclose : (s₂.call env (p.closeCall index)).1 < 0
  · exact ⟨_, _, (LoopRun.closeFails hguard hstruct hopen hloop hreturn hclose).loop_eq,
      levelRun_closeFails hopen hfields hreturn hclose⟩
  obtain ⟨s₃, hclose⟩ := PrintState.exists_succeeds hclose hreturned.nonneg
  have hprints := hopen.prints.trans (hreturned.trans hclose.prints)
  have hskip : inner.i = inside.length := by
    rw [hfields.i_eq (not_lt.mp hneg), hinside.length_eq]
    exact Nat.zero_add _
  have hi : s₃.i + inner.i + 1 = s.i + (1 + (encodeForest cs).length) := by
    rw [hprints.i_eq, hskip, hinside.length_eq]
    simp only [PrintState.read]
    omega
  have hadded : s₃.added = s.added + 1 := hprints.added_eq
  have hnext : index + 1 + inner.i = index + (1 + (encodeForest cs).length) := by
    rw [hskip, hinside.length_eq, Nat.add_assoc]
  obtain ⟨s', events, hloop', hrun⟩ := ih behind rest count depth
    (index + (1 + (encodeForest cs).length)) { s₃ with i := s₃.i + inner.i + 1 } hbehind
    (by rw [hi]; exact hflat) (by rw [hadded]; exact hnested)
    hprints.nonneg (hresult.trans hprints.result_le)
  have hdrop : (inside ++ (behind ++ rest)).drop inner.i = behind ++ rest := by
    rw [hskip, List.drop_left]
  rw [← loopRun_iff, ← hnext, ← hdrop] at hloop'
  rw [hi] at hrun
  exact ⟨s', _, (LoopRun.struct hguard hstruct hopen hloop hreturn hclose hloop').loop_eq,
    LevelRun.prepend_node hopen hfields hreturn hclose hrun hresult⟩

/-- The loop prints trees or fails. -/
theorem runsLevel (env : PrintEnv) : ∀ ts : List PropertyTree, RunsLevel env ts
  | []               => runsLevel_nil
  | .leaf _ :: ts    => runsLevel_leaf (runsLevel env ts)
  | .node _ cs :: ts => runsLevel_node (runsLevel env cs) (runsLevel env ts)

end

end CLogging
