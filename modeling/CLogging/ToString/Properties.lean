import CLogging.Lib.Forest
import CLogging.Lib.Terminator
import CLogging.ToString.Turns

/-!
# What `log_n_properties` prints

Unless printing the name of a leaf fails, `log_n_properties` either fails or has printed one text
behind the other: a sequence of calls that depends only on the array of pairs.
-/

namespace CLogging

open C Printf Forest

/-! ### Counting

At the top the loop counts the pairs, and in a struct the fields. -/

lemma not_guard_of_eq {count depth i added : ℕ} (hflat : depth = 0 → count = i)
    (hnested : depth > 0 → count = added) :
    ¬ ((depth = 0 ∧ i < count) ∨ (depth > 0 ∧ added < count)) := by
  rintro (⟨h, hlt⟩ | ⟨h, hlt⟩)
  · exact absurd (hflat h) (ne_of_gt hlt)
  · exact absurd (hnested h) (ne_of_gt hlt)

section

variable {σ ℓ : Type*} {t : RoseTree σ ℓ} {ts : List (RoseTree σ ℓ)} {count depth i added : ℕ}
  (hflat : depth = 0 → count = i + (encodeForest (t :: ts)).length)
  (hnested : depth > 0 → count = added + (t :: ts).length)

include hflat hnested

/-- The loop goes on in front of a tree. -/
lemma guard_of_cons : (depth = 0 ∧ i < count) ∨ (depth > 0 ∧ added < count) := by
  have hpos := encode_length_pos t
  rw [encodeForest_cons, List.length_append] at hflat
  rw [List.length_cons] at hnested
  omega

/-- What is left to count behind a tree. -/
lemma count_of_cons {n : ℕ} (hn : t.encode.length = n) :
    (depth = 0 → count = i + n + (encodeForest ts).length) ∧
      (depth > 0 → count = added + 1 + ts.length) := by
  rw [encodeForest_cons, List.length_append, hn, ← Nat.add_assoc] at hflat
  rw [List.length_cons, Nat.add_comm ts.length, ← Nat.add_assoc] at hnested
  exact ⟨hflat, hnested⟩

end

/-! ### The script -/

/-- The calls with which the rest of the array is printed, and the index at which the loop stops.
`none` where the loop reads behind the pairs that were filled in. -/
def printScript (count depth : ℕ) (pairs : List PropertyView) (index i added : ℕ) :
    Option (List PrintCall × ℕ) :=
  if (depth = 0 ∧ i < count) ∨ (depth > 0 ∧ added < count) then
    match pairs with
    | []        => none
    | p :: rest =>
      if p.type.getType = .struct then
        match printScript p.fieldCount (depth + 1) rest (index + 1) 0 0 with
        | none            => none
        | some (inner, n) =>
          (printScript count depth (rest.drop n) (index + 1 + n) (i + n + 1) (added + 1)).map
            fun (after, m) => (p.openCall index :: inner ++ [p.closeCall index] ++ after, m)
      else
        (printScript count depth rest (index + 1) (i + 1) (added + 1)).map
          fun (after, m) => ([p.nameCall index, p.valueCall index] ++ after, m)
  else some ([], i)
termination_by pairs.length
decreasing_by all_goals simp_wf; try omega

/-- A call that prints a text, or the value of one of the pairs. -/
def PrintCall.Prints (k : PrintCall) (pairs : List PropertyView) : Prop :=
  (∃ text, 0 ∉ text ∧ k.writer = snprintf text) ∨
    ∃ p ∈ pairs, k.writer = p.type.toString p.memory

lemma zero_notMem_structOpenText (name : CString) : 0 ∉ structOpenText name := by
  simp only [structOpenText, List.mem_append, not_or]
  refine ⟨⟨⟨by decide, name.noNul⟩, ?_⟩, by decide⟩
  split_ifs <;> decide

lemma zero_notMem_leafNameText (name : CString) : 0 ∉ leafNameText name := by
  simp only [leafNameText, List.mem_append, not_or]
  exact ⟨⟨by decide, name.noNul⟩, by decide⟩

lemma PrintCall.Prints.mono {k : PrintCall} {pairs pairs' : List PropertyView}
    (h : k.Prints pairs) (hsub : pairs ⊆ pairs') : k.Prints pairs' := by
  rcases h with htext | ⟨p, hp, hvalue⟩
  · exact Or.inl htext
  · exact Or.inr ⟨p, hsub hp, hvalue⟩

/-- The calls of a script print texts of their own and values of the pairs. -/
lemma printScript_prints (count depth : ℕ) (pairs : List PropertyView) (index i added : ℕ) :
    ∀ {calls : List PrintCall} {n : ℕ},
      printScript count depth pairs index i added = some (calls, n) →
        ∀ k ∈ calls, k.Prints pairs := by
  induction count, depth, pairs, index, i, added using printScript.induct with
  | case1 count depth index i added hguard =>
    intro calls n h
    rw [printScript, if_pos hguard] at h
    cases h
  | case2 count depth index i added hguard p rest hstruct hinner ihc =>
    intro calls n h
    rw [printScript, if_pos hguard] at h
    simp only [if_pos hstruct, hinner] at h
    cases h
  | case3 count depth index i added hguard p rest hstruct inner m hinner ihc ih =>
    intro calls n h k hk
    rw [printScript, if_pos hguard] at h
    simp only [if_pos hstruct, hinner] at h
    obtain ⟨⟨after, n'⟩, hafter, heq⟩ := Option.map_eq_some_iff.mp h
    obtain ⟨rfl, -⟩ := Prod.mk.inj heq
    have hsub : rest ⊆ p :: rest := List.subset_cons_self p rest
    simp only [List.cons_append, List.append_assoc, List.nil_append, List.mem_cons,
      List.mem_append] at hk
    rcases hk with rfl | hk | rfl | hk
    · exact Or.inl ⟨_, zero_notMem_structOpenText p.name, rfl⟩
    · -- a call of a field, which is one of the pairs behind
      exact (ihc hinner k hk).mono hsub
    · exact Or.inl ⟨structCloseText, by decide, rfl⟩
    · -- a call of what stands behind the fields
      exact (ih hafter k hk).mono fun q hq => hsub (List.mem_of_mem_drop hq)
  | case4 count depth index i added hguard p rest hleaf ih =>
    intro calls n h k hk
    rw [printScript, if_pos hguard] at h
    simp only [if_neg hleaf] at h
    obtain ⟨⟨after, n'⟩, hafter, heq⟩ := Option.map_eq_some_iff.mp h
    obtain ⟨rfl, -⟩ := Prod.mk.inj heq
    simp only [List.cons_append, List.nil_append, List.mem_cons] at hk
    rcases hk with rfl | rfl | hk
    · exact Or.inl ⟨_, zero_notMem_leafNameText p.name, rfl⟩
    · exact Or.inr ⟨p, List.mem_cons_self, rfl⟩
    · exact (ih hafter k hk).mono (List.subset_cons_self p rest)
  | case5 count depth pairs index i added hguard =>
    intro calls n h k hk
    rw [printScript.eq_def, if_neg hguard] at h
    obtain ⟨rfl, -⟩ := Prod.mk.inj (Option.some.inj h)
    cases hk

/-! ### Single calls -/

/-- A call that succeeds did what it does without failures. -/
lemma PrintEnv.apply_of_nonneg {env : PrintEnv} {k : PrintCall} {room : ℕ}
    (h : 0 ≤ (env.apply k room).1) : env.apply k = k.writer := by
  rw [PrintEnv.apply] at h ⊢
  match henv : env k.site k.index with
  | none => rfl
  | some failure =>
    rw [henv] at h
    exact absurd failure.negative (not_lt.mpr h)

namespace PrintState

variable {env : PrintEnv} {k : PrintCall} {s : PrintState}

@[simp] lemma call_fst : (s.call env k).1 = (env.apply k s.cursor.room).1 := rfl

@[simp] lemma call_result : (s.call env k).2.result = s.result := rfl

@[simp] lemma call_room : (s.call env k).2.cursor.room = s.cursor.room := rfl

/-- How far `UPDATE_BUFFER_AND_SIZE` moves. -/
def moved (s : PrintState) (n : ℤ) : ℤ := min n (int s.cursor.room)

lemma int_room_sub {room : ℕ} {m : ℤ} (hm : 0 ≤ m) (hle : m ≤ int room) :
    int ((room - m.toNat : ℕ) : ℤ) = int room - m := by
  simp only [int, Int.bmod_def] at hle ⊢
  split_ifs at hle ⊢ <;> omega

lemma update_spec {n : ℤ} (hn : 0 ≤ n) (hroom : 0 ≤ int s.cursor.room) :
    ∃ s', s.update n = some s' ∧ s'.result = s.result + s.moved n ∧
      s'.cursor = s.cursor.advance (s.moved n).toNat ∧
      int s'.cursor.room = int s.cursor.room - s.moved n ∧ s'.i = s.i ∧ s'.added = s.added ∧
      s'.log = s.log := by
  have hint := int_room_sub (le_min hn hroom) (min_le_right n _)
  exact ⟨_, if_neg (not_lt.mpr hroom), rfl, rfl, hint, rfl, rfl, rfl⟩

lemma update_inv {s' : PrintState} {n : ℤ} (h : s.update n = some s') :
    0 ≤ int s.cursor.room ∧ s'.cursor = s.cursor.advance (s.moved n).toNat := by
  rw [update] at h
  split_ifs at h with hint
  obtain rfl := Option.some.inj h
  exact ⟨not_lt.mp hint, rfl⟩

lemma moved_of_lt {s : PrintState} (hroom : s.cursor.room < 2 ^ 31) (n : ℤ) :
    s.moved n = min n s.cursor.room := by
  rw [moved, int_natCast hroom]

/-- A call that succeeds moves the cursor as a printing call does. -/
lemma exists_update_call (h : 0 ≤ (env.apply k s.cursor.room).1)
    (hroom : s.cursor.room < 2 ^ 31) :
    ∃ s', (s.call env k).2.update (env.apply k s.cursor.room).1 = some s' ∧
      s'.cursor = s.cursor.emit (env.apply k) ∧
      s'.result = s.result + (s.cursor.room - s'.cursor.room) ∧ s'.i = s.i ∧
      s'.added = s.added ∧ s'.log = s.log ++ [event env k s] := by
  have hint : 0 ≤ int (s.call env k).2.cursor.room := by
    rw [call_room, int_natCast hroom]
    exact Int.natCast_nonneg _
  obtain ⟨s', hs', hresult, hcursor, -, hi, hadded, hlog⟩ := update_spec h hint
  rw [moved_of_lt (s := (s.call env k).2) hroom, call_room] at hresult hcursor
  have hmin : (min (env.apply k s.cursor.room).1 s.cursor.room).toNat =
      min (env.apply k s.cursor.room).1.toNat s.cursor.room := by
    omega
  refine ⟨s', hs', ?_, ?_, hi, hadded, hlog⟩
  · rw [hcursor, hmin]
    rfl
  · rw [hresult, hcursor, call_result, Cursor.advance_room, call_room]
    omega

/-- The cursor behind a nested call that printed something is where that call stopped. -/
lemma exists_update_returned {inner : PrintState} {ws : List Writer}
    (hcursor : inner.cursor = s.cursor.emitAll ws)
    (hresult : inner.result = s.cursor.room - inner.cursor.room) (hroom : s.cursor.room < 2 ^ 31) :
    ∃ s', (s.returned inner).update inner.result = some s' ∧ s'.cursor = inner.cursor ∧
      s'.result = s.result + (s.cursor.room - inner.cursor.room) ∧ s'.i = s.i ∧
      s'.added = s.added ∧ s'.log = inner.log := by
  have hle := Cursor.emitAll_room_le ws s.cursor
  have hpos := Cursor.emitAll_pos ws s.cursor
  rw [← hcursor] at hle hpos
  have hint : 0 ≤ int (s.returned inner).cursor.room := by
    rw [show (s.returned inner).cursor.room = s.cursor.room from rfl, int_natCast hroom]
    exact Int.natCast_nonneg _
  have hmoved : (s.returned inner).moved inner.result = s.cursor.room - inner.cursor.room := by
    rw [moved_of_lt (s := s.returned inner) hroom, hresult]
    simp only [returned]
    omega
  obtain ⟨s', hs', hresult', hcursor', -, hi, hadded, hlog⟩ :=
    update_spec (n := inner.result) (by omega) hint
  rw [hmoved] at hresult' hcursor'
  refine ⟨s', hs', ?_, hresult', hi, hadded, hlog⟩
  rw [hcursor']
  refine Cursor.ext rfl ?_ ?_
  · -- the position moves by what the fields have used
    rw [Cursor.advance_pos, hpos]
    simp only [returned]
    omega
  · -- and the room shrinks by as much
    rw [Cursor.advance_room]
    simp only [returned]
    omega

/-- Calls that succeeded one after the other: what they printed was added to the result. -/
structure Emits (env : PrintEnv) (calls : List PrintCall) (s s' : PrintState) : Prop where
  try_eq    : s.cursor.tryAll (calls.map env.apply) = some s'.cursor
  result_eq : s'.result = s.result + (s.cursor.room - s'.cursor.room)
  i_eq      : s'.i = s.i
  added_eq  : s'.added = s.added
  stores_eq : effective (bytesStored s'.log) =
    effective (bytesStored s.log) ++ effective (storedBy (calls.map env.apply) s.cursor.room)

variable {calls calls' : List PrintCall} {s₁ s₂ : PrintState}

lemma emits_nil (env : PrintEnv) (s : PrintState) : s.Emits env [] s :=
  ⟨rfl, by rw [sub_self, add_zero], rfl, rfl, (List.append_nil _).symm⟩

lemma effective_read (s : PrintState) (index : ℕ) :
    effective (bytesStored (s.read index).log) = effective (bytesStored s.log) := by
  rw [read, bytesStored_append, effective_append]
  exact List.append_nil _

/-- What is stored by calls, and then by others. -/
lemma effective_storedBy_append {c d : Cursor} {ws : List Writer} (h : c.tryAll ws = some d)
    (ws' : List Writer) :
    effective (storedBy (ws ++ ws') c.room) =
      effective (storedBy ws c.room) ++ effective (storedBy ws' d.room) := by
  rw [storedBy_append, effective_append, ← room_emitAll, ← Cursor.tryAll_eq_some h]

lemma Emits.trans (h : s.Emits env calls s₁) (h' : s₁.Emits env calls' s₂) :
    s.Emits env (calls ++ calls') s₂ where
  try_eq    := by
    rw [List.map_append, Cursor.tryAll_append, h.try_eq, Option.bind_some, h'.try_eq]
  result_eq := by
    rw [h'.result_eq, h.result_eq]
    ring
  i_eq      := h'.i_eq.trans h.i_eq
  added_eq  := h'.added_eq.trans h.added_eq
  stores_eq := by
    rw [h'.stores_eq, h.stores_eq, List.append_assoc, List.map_append,
      effective_storedBy_append h.try_eq]

lemma Emits.room_lt (h : s.Emits env calls s₁) (hroom : s.cursor.room < 2 ^ 31) :
    s₁.cursor.room < 2 ^ 31 := by
  rw [Cursor.tryAll_eq_some h.try_eq]
  exact (Cursor.emitAll_room_le _ _).trans_lt hroom

/-- A call that succeeds. -/
lemma Succeeds.emits (h : s.Succeeds env k s₁) (hroom : s.cursor.room < 2 ^ 31) :
    s.Emits env [k] s₁ := by
  obtain ⟨s', hs', hcursor, hresult, hi, hadded, hlog⟩ := exists_update_call (not_lt.mp h.1) hroom
  obtain rfl := Option.some.inj (h.2.symm.trans hs')
  have hsucceeds : ¬ (env.apply k s.cursor.room).1 < 0 := h.1
  refine ⟨?_, hresult, hi, hadded, ?_⟩
  · rw [List.map_singleton, Cursor.tryAll_cons, Cursor.tryEmit, if_neg hsucceeds, hcursor]
    rfl
  · rw [hlog, bytesStored_append, effective_append]
    rfl

/-- A nested call over fields whose calls succeed. -/
lemma Returns.emits {inner : PrintState} (h : s.Returns inner s₁)
    (htry : s.cursor.tryAll (calls.map env.apply) = some inner.cursor)
    (hresult : inner.result = s.cursor.room - inner.cursor.room)
    (hstores : effective (bytesStored inner.log) = effective (bytesStored s.log) ++
      effective (storedBy (calls.map env.apply) s.cursor.room))
    (hroom : s.cursor.room < 2 ^ 31) : s.Emits env calls s₁ := by
  obtain ⟨s', hs', hcursor, hresult', hi, hadded, hlog⟩ :=
    exists_update_returned (Cursor.tryAll_eq_some htry) hresult hroom
  obtain rfl := Option.some.inj (h.2.symm.trans hs')
  rw [← hcursor] at htry hresult'
  rw [← hlog] at hstores
  exact ⟨htry, hresult', hi, hadded, hstores⟩

/-- A step of the pointer that stays in the buffer. -/
lemma exists_update {n : ℤ} (hn : ¬ n < 0) (hroom : s.cursor.room < 2 ^ 31) :
    ∃ s', s.update n = some s' ∧ s'.cursor.room < 2 ^ 31 ∧ s'.i = s.i ∧ s'.added = s.added := by
  have hint : 0 ≤ int s.cursor.room := by
    rw [int_natCast hroom]
    exact Int.natCast_nonneg _
  obtain ⟨s', hs', -, hcursor, -, hi, hadded, -⟩ := update_spec (not_lt.mp hn) hint
  refine ⟨s', hs', ?_, hi, hadded⟩
  rw [hcursor, Cursor.advance_room]
  exact (Nat.sub_le _ _).trans_lt hroom

end PrintState

/-! ### The loop -/

section

variable {count depth : ℕ} {p : PropertyView} {rest : List PropertyView} {index : ℕ} {s : PrintState}
  (hguard : (depth = 0 ∧ s.i < count) ∨ (depth > 0 ∧ s.added < count))

include hguard

/-- The calls of a turn for a struct are a part of its script. -/
lemma printScript_struct (hstruct : p.type.getType = .struct)
    {inner : List PrintCall} {m : ℕ}
    (hinner : printScript p.fieldCount (depth + 1) rest (index + 1) 0 0 = some (inner, m)) :
    printScript count depth (p :: rest) index s.i s.added =
      (printScript count depth (rest.drop m) (index + 1 + m) (s.i + m + 1) (s.added + 1)).map
        fun (after, n) => (p.openCall index :: inner ++ [p.closeCall index] ++ after, n) := by
  rw [printScript, if_pos hguard]
  simp only [if_pos hstruct, hinner]

lemma printScript_struct_none (hstruct : p.type.getType = .struct)
    (hinner : printScript p.fieldCount (depth + 1) rest (index + 1) 0 0 = none) :
    printScript count depth (p :: rest) index s.i s.added = none := by
  rw [printScript, if_pos hguard]
  simp only [if_pos hstruct, hinner]

lemma printScript_leaf (hleaf : p.type.getType ≠ .struct) :
    printScript count depth (p :: rest) index s.i s.added =
      (printScript count depth rest (index + 1) (s.i + 1) (s.added + 1)).map
        fun (after, n) => ([p.nameCall index, p.valueCall index] ++ after, n) := by
  rw [printScript, if_pos hguard]
  simp only [if_neg hleaf]

/-- A struct with a script: its fields have one, and so has what is behind them. -/
lemma exists_of_printScript_struct (hstruct : p.type.getType = .struct) {calls : List PrintCall}
    {n : ℕ} (h : printScript count depth (p :: rest) index s.i s.added = some (calls, n)) :
    ∃ inner m after, printScript p.fieldCount (depth + 1) rest (index + 1) 0 0 = some (inner, m) ∧
      printScript count depth (rest.drop m) (index + 1 + m) (s.i + m + 1) (s.added + 1) =
        some (after, n) ∧
      calls = p.openCall index :: inner ++ [p.closeCall index] ++ after := by
  cases hinner : printScript p.fieldCount (depth + 1) rest (index + 1) 0 0 with
  | none =>
    rw [printScript_struct_none hguard hstruct hinner] at h
    cases h
  | some out =>
    rw [printScript_struct hguard hstruct hinner] at h
    obtain ⟨⟨after, m⟩, hafter, heq⟩ := Option.map_eq_some_iff.mp h
    obtain ⟨rfl, rfl⟩ := Prod.mk.inj heq
    exact ⟨out.1, out.2, after, rfl, hafter, rfl⟩

/-- What a struct prints starts with its opening, its fields and its closing. -/
lemma prefix_of_printScript_fields (hstruct : p.type.getType = .struct)
    {inner calls : List PrintCall} {m n : ℕ}
    (hinner : printScript p.fieldCount (depth + 1) rest (index + 1) 0 0 = some (inner, m))
    (h : printScript count depth (p :: rest) index s.i s.added = some (calls, n)) :
    p.openCall index :: inner ++ [p.closeCall index] <+: calls := by
  obtain ⟨inner', m', after, hinner', -, rfl⟩ := exists_of_printScript_struct hguard hstruct h
  obtain ⟨rfl, -⟩ := Prod.mk.inj (Option.some.inj (hinner.symm.trans hinner'))
  exact List.prefix_append _ after

/-- What a struct prints starts with its opening. -/
lemma prefix_of_printScript_struct (hstruct : p.type.getType = .struct) {calls : List PrintCall}
    {n : ℕ} (h : printScript count depth (p :: rest) index s.i s.added = some (calls, n)) :
    [p.openCall index] <+: calls := by
  obtain ⟨inner, m, after, -, -, rfl⟩ := exists_of_printScript_struct hguard hstruct h
  exact List.prefix_append [p.openCall index] _

end

/-- Where the loop has a script it returns: it leaves the array only where the script does. -/
lemma exists_loopRun (env : PrintEnv) (count depth : ℕ) (pairs : List PropertyView) (index : ℕ)
    (s : PrintState) : ∀ {calls : List PrintCall} {n : ℕ}, s.cursor.room < 2 ^ 31 →
    printScript count depth pairs index s.i s.added = some (calls, n) →
      ∃ s', LoopRun env count depth pairs index s s' ∧ (¬ s'.result < 0 → s'.i = n) := by
  have hfailed : ∀ {s' : PrintState} {n : ℕ}, s'.result = -1 → ¬ s'.result < 0 → s'.i = n :=
    fun hresult hnonneg => absurd (hresult ▸ Int.negSucc_lt_zero 0) hnonneg
  induction count, depth, pairs, index, s using logNPropertiesLoop.induct env
  case case1 count depth index s hguard =>
    intro calls n hroom hscript
    rw [printScript, if_pos hguard] at hscript
    cases hscript
  case case2 count depth index s hguard p rest hstruct _ hopen =>
    intro calls n hroom hscript
    exact ⟨_, .openFails hguard hstruct hopen, hfailed rfl⟩
  case case3 count depth index s hguard p rest hstruct _ hopen ihc ih =>
    intro calls n hroom hscript
    obtain ⟨fields, m, after, hinner, hafter, -⟩ :=
      exists_of_printScript_struct hguard hstruct hscript
    obtain ⟨s₁, hs₁, hroom₁, hi₁, hadded₁⟩ := PrintState.exists_update
      (s := ((s.read index).call env (p.openCall index)).2) hopen hroom
    obtain ⟨inner, hfields, hi⟩ := ihc s₁ hroom₁ hinner
    by_cases hneg : inner.result < 0
    · -- the fields have failed: so does the struct
      exact ⟨_, .fieldsFail hguard hstruct ⟨hopen, hs₁⟩ hfields hneg, hfailed rfl⟩
    obtain ⟨s₂, hs₂, hroom₂, hi₂, hadded₂⟩ := PrintState.exists_update
      (s := s₁.returned inner) hneg hroom₁
    by_cases hclose : (s₂.call env (p.closeCall index)).1 < 0
    · exact ⟨_, .closeFails hguard hstruct ⟨hopen, hs₁⟩ hfields ⟨hneg, hs₂⟩ hclose, hfailed rfl⟩
    obtain ⟨s₃, hs₃, hroom₃, hi₃, hadded₃⟩ := PrintState.exists_update
      (s := (s₂.call env (p.closeCall index)).2) hclose hroom₂
    -- the pairs behind the struct are those behind the fields that were printed
    have hi₃' : s₃.i + inner.i + 1 = s.i + inner.i + 1 :=
      congrArg (· + inner.i + 1) (hi₃.trans (hi₂.trans hi₁))
    have hadded₃' : s₃.added = s.added + 1 := hadded₃.trans (hadded₂.trans hadded₁)
    rw [← hi hneg, ← hi₃', ← hadded₃'] at hafter
    obtain ⟨s', hbehind, hn⟩ := ih inner s₃ s₃ hroom₃ hafter
    exact ⟨s', .struct hguard hstruct ⟨hopen, hs₁⟩ hfields ⟨hneg, hs₂⟩ ⟨hclose, hs₃⟩ hbehind, hn⟩
  case case4 count depth index s hguard p rest hleaf _ hname ih =>
    intro calls n hroom hscript
    rw [printScript_leaf hguard hleaf] at hscript
    obtain ⟨⟨after, m⟩, hafter, heq⟩ := Option.map_eq_some_iff.mp hscript
    obtain ⟨-, rfl⟩ := Prod.mk.inj heq
    obtain ⟨s', hbehind, hn⟩ := ih hroom hafter
    exact ⟨s', .nameFails hguard hleaf hname hbehind, hn⟩
  case case5 count depth index s hguard p rest hleaf _ hname ih =>
    intro calls n hroom hscript
    rw [printScript_leaf hguard hleaf] at hscript
    obtain ⟨⟨after, m⟩, hafter, heq⟩ := Option.map_eq_some_iff.mp hscript
    obtain ⟨-, rfl⟩ := Prod.mk.inj heq
    obtain ⟨s₁, hs₁, hroom₁, hi₁, hadded₁⟩ := PrintState.exists_update
      (s := ((s.read index).call env (p.nameCall index)).2) hname hroom
    by_cases hvalue : (s₁.call env (p.valueCall index)).1 < 0
    · exact ⟨_, .valueFails hguard hleaf ⟨hname, hs₁⟩ hvalue, hfailed rfl⟩
    obtain ⟨s₂, hs₂, hroom₂, hi₂, hadded₂⟩ := PrintState.exists_update
      (s := (s₁.call env (p.valueCall index)).2) hvalue hroom₁
    have hi₂' : s₂.i + 1 = s.i + 1 := congrArg (· + 1) (hi₂.trans hi₁)
    have hadded₂' : s₂.added = s.added + 1 := hadded₂.trans hadded₁
    rw [← hi₂', ← hadded₂'] at hafter
    obtain ⟨s', hbehind, hn⟩ := ih s₁ s₂ hroom₂ hafter
    exact ⟨s', .leaf hguard hleaf ⟨hname, hs₁⟩ ⟨hvalue, hs₂⟩ hbehind, hn⟩
  case case6 count depth pairs index s hguard =>
    intro calls n hroom hscript
    rw [printScript.eq_def, if_neg hguard] at hscript
    obtain ⟨-, rfl⟩ := Prod.mk.inj (Option.some.inj hscript)
    exact ⟨s, .stop hguard, fun _ => rfl⟩

/-- How the loop ends when started in `s`, in terms of the calls it is meant to make: where all of
them succeed, behind their texts, and with a negative result where one of them fails. -/
def LoopAgrees (env : PrintEnv) (s : PrintState) (out : Option PrintState)
    (script : Option (List PrintCall × ℕ)) : Prop :=
  match script with
  | none            => out = none ∨ ∃ s', out = some s' ∧ s'.result < 0
  | some (calls, i) =>
    match s.cursor.tryAll (calls.map env.apply) with
    | none   => ∃ s', out = some s' ∧ s'.result < 0
    | some c => ∃ s', out = some s' ∧ s'.cursor = c ∧ s'.i = i ∧
        s'.result = s.result + (s.cursor.room - c.room) ∧
        effective (bytesStored s'.log) = effective (bytesStored s.log) ++
          effective (storedBy (calls.map env.apply) s.cursor.room)

/-- Calls that succeed, and then one that fails. -/
lemma LoopAgrees.of_failed {env : PrintEnv} {s s₁ s' : PrintState}
    {script : Option (List PrintCall × ℕ)} {pre : List PrintCall} (failed : List PrintCall)
    (hpre : s.Emits env pre s₁) (hfailed : s₁.cursor.tryAll (failed.map env.apply) = none)
    (hneg : s'.result < 0)
    (hcalls : ∀ calls i, script = some (calls, i) → pre ++ failed <+: calls) :
    LoopAgrees env s (some s') script := by
  match script with
  | none => exact Or.inr ⟨s', rfl, hneg⟩
  | some (calls, i) =>
    obtain ⟨post, rfl⟩ := hcalls calls i rfl
    have hnone : s.cursor.tryAll ((pre ++ failed ++ post).map env.apply) = none := by
      rw [List.map_append, List.map_append, Cursor.tryAll_append, Cursor.tryAll_append,
        hpre.try_eq, Option.bind_some, hfailed]
      rfl
    rw [LoopAgrees, hnone]
    exact ⟨s', rfl, hneg⟩

/-- The start of a turn prints nothing. -/
lemma LoopAgrees.of_read {env : PrintEnv} {s : PrintState} {out : Option PrintState}
    {script : Option (List PrintCall × ℕ)} (index : ℕ)
    (h : LoopAgrees env (s.read index) out script) : LoopAgrees env s out script := by
  unfold LoopAgrees at h ⊢
  rw [PrintState.effective_read] at h
  exact h

/-- Calls that succeed, and then the rest of the loop. -/
lemma LoopAgrees.prepend {env : PrintEnv} {s s₁ : PrintState} {out : Option PrintState}
    {script : Option (List PrintCall × ℕ)} {pre : List PrintCall} (hpre : s.Emits env pre s₁) {n : ℕ}
    (h : LoopAgrees env { s₁ with i := n } out script) :
    LoopAgrees env s out (script.map fun (after, m) => (pre ++ after, m)) := by
  match script with
  | none => exact h
  | some (after, m) =>
    simp only [Option.map_some, LoopAgrees, List.map_append, Cursor.tryAll_append, hpre.try_eq,
      Option.bind_some] at h ⊢
    cases hafter : s₁.cursor.tryAll (after.map env.apply) with
    | none =>
      rw [hafter] at h
      exact h
    | some c =>
      rw [hafter] at h
      obtain ⟨s', hout, hcursor, hi, hres, hstores⟩ := h
      refine ⟨s', hout, hcursor, hi, ?_, ?_⟩
      · rw [hres, hpre.result_eq]
        ring
      · rw [hstores, hpre.stores_eq, List.append_assoc,
          PrintState.effective_storedBy_append hpre.try_eq]

/-- How a nested call that returns ends: its calls leave the array, one of them fails, or all
succeed. -/
lemma LoopAgrees.nested_cases {env : PrintEnv} {s inner : PrintState}
    {script : Option (List PrintCall × ℕ)} (h : LoopAgrees env s.nested (some inner) script) :
    (script = none ∧ inner.result < 0) ∨
    (∃ calls n, script = some (calls, n) ∧ s.cursor.tryAll (calls.map env.apply) = none ∧
      inner.result < 0) ∨
    ∃ calls, script = some (calls, inner.i) ∧
      s.cursor.tryAll (calls.map env.apply) = some inner.cursor ∧
      inner.result = s.cursor.room - inner.cursor.room ∧
      effective (bytesStored inner.log) = effective (bytesStored s.log) ++
        effective (storedBy (calls.map env.apply) s.cursor.room) := by
  match script with
  | none =>
    rcases h with h | ⟨s', hout, hneg⟩
    · cases h
    · -- the pairs are no forest, and the loop failed at one of its calls
      obtain rfl := Option.some.inj hout
      exact Or.inl ⟨rfl, hneg⟩
  | some (calls, n) =>
    rw [LoopAgrees, show s.nested.cursor = s.cursor from rfl] at h
    cases htry : s.cursor.tryAll (calls.map env.apply) with
    | none =>
      rw [htry] at h
      obtain ⟨s', hout, hneg⟩ := h
      obtain rfl := Option.some.inj hout
      exact Or.inr (Or.inl ⟨calls, n, rfl, htry, hneg⟩)
    | some c =>
      rw [htry] at h
      obtain ⟨s', hout, rfl, rfl, hresult, hstores⟩ := h
      obtain rfl := Option.some.inj hout
      rw [show s.nested.result = 0 from rfl, zero_add] at hresult
      exact Or.inr (Or.inr ⟨calls, rfl, htry, hresult, hstores⟩)

lemma tryAll_cons_of_neg {w : Writer} {ws : List Writer} {c : Cursor} (h : (w c.room).1 < 0) :
    c.tryAll (w :: ws) = none := by
  rw [Cursor.tryAll_cons, Cursor.tryEmit, if_pos h]
  rfl

lemma tryEmit_of_nonneg {w : Writer} {c : Cursor} (h : ¬ (w c.room).1 < 0) :
    c.tryEmit w = some (c.emit w) := if_neg h

/-- A call for the name of a leaf that fails is recorded. -/
lemma not_namesPrinted {env : PrintEnv} {p : PropertyView} {index : ℕ} {s : PrintState}
    {log : List PrintEvent} (h : (s.call env (p.nameCall index)).1 < 0)
    (hlog : (s.call env (p.nameCall index)).2.log <+: log) : ¬ NamesPrinted log := by
  intro hnames
  have hmem : PrintState.event env (p.nameCall index) s ∈ log :=
    hlog.subset (List.mem_append_right _ (List.mem_singleton_self _))
  exact hnames _ hmem ⟨rfl, h⟩

/-- As long as every name of a leaf is printed, the loop makes the calls of its script, up to the
first that fails. -/
theorem LoopRun.agrees {env : PrintEnv} {count depth : ℕ} {pairs : List PropertyView} {index : ℕ}
    {s s' : PrintState} (h : LoopRun env count depth pairs index s s')
    (hroom : s.cursor.room < 2 ^ 31) (hnames : NamesPrinted s'.log) :
    LoopAgrees env s (some s') (printScript count depth pairs index s.i s.added) := by
  induction h with
  | @stop count depth pairs index s hguard =>
    rw [printScript.eq_def, if_neg hguard]
    exact ⟨s, rfl, rfl, rfl, by simp, (List.append_nil _).symm⟩
  | @openFails count depth p rest index s hguard hstruct hopen =>
    refine LoopAgrees.of_read index (LoopAgrees.of_failed [p.openCall index]
      (PrintState.emits_nil env _) (tryAll_cons_of_neg hopen) (Int.negSucc_lt_zero 0) ?_)
    exact fun calls n hscript => prefix_of_printScript_struct hguard hstruct hscript
  | @fieldsFail count depth p rest index s s₁ inner hguard hstruct hopen hfields hneg ihc =>
    have hemits := hopen.emits hroom
    have hinner := ihc (hemits.room_lt hroom) hnames
    refine LoopAgrees.of_read index ?_
    rcases hinner.nested_cases with ⟨hscript, -⟩ | ⟨calls, m, hscript, htry, -⟩ |
      ⟨calls, -, htry, hresult, -⟩
    · -- the pairs are no forest: the loop fails either way
      rw [printScript_struct_none hguard hstruct hscript]
      exact Or.inr ⟨_, rfl, Int.negSucc_lt_zero 0⟩
    · -- a call of the fields failed, and it is one of the calls of the struct
      refine LoopAgrees.of_failed calls hemits htry (Int.negSucc_lt_zero 0) fun calls' n h => ?_
      exact (List.prefix_append (p.openCall index :: calls) _).trans
        (prefix_of_printScript_fields hguard hstruct hscript h)
    · -- calls that succeed use up some of the room
      have hle := Cursor.emitAll_room_le (calls.map env.apply) s₁.cursor
      rw [← Cursor.tryAll_eq_some htry] at hle
      omega
  | @closeFails count depth p rest index s s₁ inner s₂ hguard hstruct hopen hfields hreturn hclose
      ihc =>
    have hlog : inner.log <+: s₂.log ++ [PrintState.event env (p.closeCall index) s₂] := by
      rw [hreturn.log_eq]
      exact List.prefix_append _ _
    have hemits := hopen.emits hroom
    have hinner := ihc (hemits.room_lt hroom) (hnames.mono hlog)
    refine LoopAgrees.of_read index ?_
    rcases hinner.nested_cases with ⟨-, hneg⟩ | ⟨calls, m, -, -, hneg⟩ |
      ⟨calls, hscript, htry, hresult, hstores⟩
    · -- the fields were printed, so the loop did not fail
      exact absurd hneg hreturn.1
    · exact absurd hneg hreturn.1
    · -- opening text and fields are printed, and the closing text fails
      have hreturned := hreturn.emits htry hresult hstores (hemits.room_lt hroom)
      refine LoopAgrees.of_failed [p.closeCall index] (hemits.trans hreturned)
        (tryAll_cons_of_neg hclose) (Int.negSucc_lt_zero 0) fun calls' n h => ?_
      exact prefix_of_printScript_fields hguard hstruct hscript h
  | @struct count depth p rest index s s₁ inner s₂ s₃ s' hguard hstruct hopen hfields hreturn hclose
      hbehind ihc ih =>
    have hlog : inner.log <+: s'.log := by
      rw [← hreturn.log_eq]
      exact hclose.log_prefix.trans hbehind.log_prefix
    have hemits := hopen.emits hroom
    have hinner := ihc (hemits.room_lt hroom) (hnames.mono hlog)
    refine LoopAgrees.of_read index ?_
    rcases hinner.nested_cases with ⟨-, hneg⟩ | ⟨calls, m, -, -, hneg⟩ |
      ⟨calls, hscript, htry, hresult, hstores⟩
    · exact absurd hneg hreturn.1
    · exact absurd hneg hreturn.1
    · -- the struct is printed as a whole, and the calls behind it follow
      have hreturned := hreturn.emits htry hresult hstores (hemits.room_lt hroom)
      have hbody := hemits.trans hreturned
      have hall := hbody.trans (hclose.emits (hbody.room_lt hroom))
      have hi : s₃.i + inner.i + 1 = s.i + inner.i + 1 := congrArg (· + inner.i + 1) hall.i_eq
      have hadded : s₃.added = s.added + 1 := hall.added_eq
      rw [printScript_struct hguard hstruct hscript, ← hi, ← hadded]
      exact (ih (hall.room_lt hroom) hnames).prepend hall
  | @nameFails count depth p rest index s s' hguard hleaf hname hbehind ih =>
    exact absurd hnames (not_namesPrinted hname hbehind.log_prefix)
  | @valueFails count depth p rest index s s₁ hguard hleaf hname hvalue =>
    have hemits := hname.emits hroom
    refine LoopAgrees.of_read index (LoopAgrees.of_failed [p.valueCall index] hemits
      (tryAll_cons_of_neg hvalue) (Int.negSucc_lt_zero 0) fun calls n h => ?_)
    rw [printScript_leaf hguard hleaf] at h
    obtain ⟨⟨after, k⟩, -, heq⟩ := Option.map_eq_some_iff.mp h
    obtain ⟨rfl, -⟩ := Prod.mk.inj heq
    exact List.prefix_append _ _
  | @leaf count depth p rest index s s₁ s₂ s' hguard hleaf hname hvalue hbehind ih =>
    have hemits := hname.emits hroom
    have hall := hemits.trans (hvalue.emits (hemits.room_lt hroom))
    have hi : s₂.i + 1 = s.i + 1 := congrArg (· + 1) hall.i_eq
    have hadded : s₂.added = s.added + 1 := hall.added_eq
    rw [printScript_leaf hguard hleaf, ← hi, ← hadded]
    exact LoopAgrees.of_read index ((ih (hall.room_lt hroom) hnames).prepend hall)

/-! ### What holds of all that is done -/

section

variable (p : PropertyView) (index : ℕ) (pairs : List PropertyView)

lemma prints_openCall : (p.openCall index).Prints pairs :=
  Or.inl ⟨_, zero_notMem_structOpenText p.name, rfl⟩

lemma prints_closeCall : (p.closeCall index).Prints pairs :=
  Or.inl ⟨structCloseText, by decide, rfl⟩

lemma prints_nameCall : (p.nameCall index).Prints pairs :=
  Or.inl ⟨_, zero_notMem_leafNameText p.name, rfl⟩

lemma prints_valueCall : (p.valueCall index).Prints (p :: pairs) :=
  Or.inr ⟨p, List.mem_cons_self, rfl⟩

end

/-- What holds of all calls that print a pair holds of those that print another. -/
lemma forall_prints_of_subset {Q : PrintCall → Prop} {pairs pairs' : List PropertyView}
    (h : ∀ k, k.Prints pairs → Q k) (hsub : pairs' ⊆ pairs) : ∀ k, k.Prints pairs' → Q k :=
  fun k hk => h k (hk.mono hsub)

namespace PrintState

variable {env : PrintEnv} {k : PrintCall} {s s' inner : PrintState} {P : PrintEvent → Prop}

lemma forall_read (hread : ∀ index, P (.read index)) (h : ∀ e ∈ s.log, P e) (index : ℕ) :
    ∀ e ∈ (s.read index).log, P e := by
  intro e he
  rcases List.mem_append.mp he with he | he
  · exact h e he
  · obtain rfl := List.mem_singleton.mp he
    exact hread index

lemma forall_call (h : ∀ e ∈ s.log, P e) (hk : ∀ s, P (event env k s)) :
    ∀ e ∈ (s.call env k).2.log, P e := by
  intro e he
  rcases List.mem_append.mp he with he | he
  · exact h e he
  · obtain rfl := List.mem_singleton.mp he
    exact hk s

lemma Succeeds.forall_log (hsucceeds : s.Succeeds env k s') (h : ∀ e ∈ s.log, P e)
    (hk : ∀ s, P (event env k s)) : ∀ e ∈ s'.log, P e := by
  rw [(update_frame hsucceeds.2).1]
  exact forall_call h hk

lemma Returns.forall_log (hreturns : s.Returns inner s') (h : ∀ e ∈ inner.log, P e) :
    ∀ e ∈ s'.log, P e := by
  rw [hreturns.log_eq]
  exact h

/-- A call that failed is recorded. -/
lemma not_noFailure {log : List PrintEvent} (h : (s.call env k).1 < 0)
    (hlog : (s.call env k).2.log <+: log) : ¬ NoFailure log :=
  fun hnone => hnone (event env k s) (hlog.subset (List.mem_append_right _
    (List.mem_singleton_self _))) h

/-- A step of the pointer never makes the result smaller. -/
lemma result_le_update {n : ℤ} (hn : ¬ n < 0) (h : s.update n = some s') : s.result ≤ s'.result := by
  obtain ⟨t, ht, hresult, -⟩ := update_spec (not_lt.mp hn) (update_inv h).1
  obtain rfl := Option.some.inj (h.symm.trans ht)
  rw [hresult]
  exact le_add_of_nonneg_right (le_min (not_lt.mp hn) (update_inv h).1)

end PrintState

section

variable {env : PrintEnv} {count depth : ℕ} {pairs : List PropertyView} {index : ℕ}
  {s s' : PrintState}

/-- What holds of reading a pair and of all calls that print one holds of all that a run does. -/
lemma LoopRun.forall_log (hrun : LoopRun env count depth pairs index s s') {P : PrintEvent → Prop}
    (hread : ∀ index, P (.read index))
    (hcall : ∀ k : PrintCall, k.Prints pairs → ∀ s, P (PrintState.event env k s))
    (h : ∀ e ∈ s.log, P e) : ∀ e ∈ s'.log, P e := by
  induction hrun with
  | stop hguard => exact h
  | openFails hguard hstruct hopen =>
    exact PrintState.forall_call (PrintState.forall_read hread h _)
      (hcall _ (prints_openCall _ _ _))
  | fieldsFail hguard hstruct hopen hfields hneg ihc =>
    have hopened := hopen.forall_log (PrintState.forall_read hread h _)
      (hcall _ (prints_openCall _ _ _))
    exact ihc (forall_prints_of_subset hcall (List.subset_cons_self _ _)) hopened
  | closeFails hguard hstruct hopen hfields hreturn hclose ihc =>
    have hopened := hopen.forall_log (PrintState.forall_read hread h _)
      (hcall _ (prints_openCall _ _ _))
    have hinner := ihc (forall_prints_of_subset hcall (List.subset_cons_self _ _)) hopened
    exact PrintState.forall_call (hreturn.forall_log hinner) (hcall _ (prints_closeCall _ _ _))
  | struct hguard hstruct hopen hfields hreturn hclose hbehind ihc ih =>
    have hopened := hopen.forall_log (PrintState.forall_read hread h _)
      (hcall _ (prints_openCall _ _ _))
    have hinner := ihc (forall_prints_of_subset hcall (List.subset_cons_self _ _)) hopened
    have hclosed := hclose.forall_log (hreturn.forall_log hinner) (hcall _ (prints_closeCall _ _ _))
    exact ih (forall_prints_of_subset hcall fun q hq =>
      List.mem_cons_of_mem _ (List.mem_of_mem_drop hq)) hclosed
  | nameFails hguard hleaf hname hbehind ih =>
    refine ih (forall_prints_of_subset hcall (List.subset_cons_self _ _)) ?_
    exact PrintState.forall_call (PrintState.forall_read hread h _)
      (hcall _ (prints_nameCall _ _ _))
  | valueFails hguard hleaf hname hvalue =>
    have hnamed := hname.forall_log (PrintState.forall_read hread h _)
      (hcall _ (prints_nameCall _ _ _))
    exact PrintState.forall_call hnamed (hcall _ (prints_valueCall _ _ _))
  | leaf hguard hleaf hname hvalue hbehind ih =>
    have hnamed := hname.forall_log (PrintState.forall_read hread h _)
      (hcall _ (prints_nameCall _ _ _))
    have hprinted := hvalue.forall_log hnamed (hcall _ (prints_valueCall _ _ _))
    exact ih (forall_prints_of_subset hcall (List.subset_cons_self _ _)) hprinted

/-- If no call fails, the result is not negative. -/
lemma LoopRun.result_nonneg (hrun : LoopRun env count depth pairs index s s')
    (hnone : NoFailure s'.log) (h : 0 ≤ s.result) : 0 ≤ s'.result := by
  induction hrun with
  | stop hguard => exact h
  | openFails hguard hstruct hopen =>
    exact absurd hnone (PrintState.not_noFailure hopen (List.prefix_refl _))
  | fieldsFail hguard hstruct hopen hfields hneg ihc =>
    exact absurd hneg (not_lt.mpr (ihc hnone (le_refl 0)))
  | closeFails hguard hstruct hopen hfields hreturn hclose ihc =>
    exact absurd hnone (PrintState.not_noFailure hclose (List.prefix_refl _))
  | struct hguard hstruct hopen hfields hreturn hclose hbehind ihc ih =>
    have hopened := PrintState.result_le_update hopen.1 hopen.2
    have hreturned := PrintState.result_le_update hreturn.1 hreturn.2
    have hclosed := PrintState.result_le_update hclose.1 hclose.2
    exact ih hnone (h.trans (hopened.trans (hreturned.trans hclosed)))
  | nameFails hguard hleaf hname hbehind ih =>
    exact absurd hnone (PrintState.not_noFailure hname hbehind.log_prefix)
  | valueFails hguard hleaf hname hvalue =>
    exact absurd hnone (PrintState.not_noFailure hvalue (List.prefix_refl _))
  | leaf hguard hleaf hname hvalue hbehind ih =>
    have hnamed := PrintState.result_le_update hname.1 hname.2
    have hprinted := PrintState.result_le_update hvalue.1 hvalue.2
    exact ih hnone (h.trans (hnamed.trans hprinted))

end

/-- The loop makes the calls of its script, unless printing the name of a leaf fails. -/
theorem loop_agrees (env : PrintEnv) (count depth : ℕ) (pairs : List PropertyView) (index : ℕ)
    (s : PrintState) (hroom : s.cursor.room < 2 ^ 31)
    (hnames : ∀ s', logNPropertiesLoop env count depth pairs index s = some s' →
      NamesPrinted s'.log) :
    LoopAgrees env s (logNPropertiesLoop env count depth pairs index s)
      (printScript count depth pairs index s.i s.added) := by
  cases hout : logNPropertiesLoop env count depth pairs index s with
  | some s' => exact (loopRun_iff.mpr hout).agrees hroom (hnames s' hout)
  | none =>
    cases hscript : printScript count depth pairs index s.i s.added with
    | none => exact Or.inl rfl
    | some out =>
      obtain ⟨s', hrun, -⟩ := exists_loopRun env count depth pairs index s hroom hscript
      cases hout.symm.trans hrun.loop_eq

/-- The calls for the properties of a context. -/
def contextScript (pairs : List PropertyView) (count : ℕ) : Option (List PrintCall) :=
  (printScript count 0 pairs 0 0 0).map Prod.fst

lemma contextScript_prints {pairs : List PropertyView} {count : ℕ} {calls : List PrintCall}
    (h : contextScript pairs count = some calls) : ∀ k ∈ calls, k.Prints pairs := by
  obtain ⟨⟨calls, n⟩, hscript, rfl⟩ := Option.map_eq_some_iff.mp h
  exact printScript_prints _ _ _ _ _ _ hscript

/-- What `log_context_property_to_string` does one after the other, as long as it is defined. -/
def toStringLog (env : PrintEnv) (buffer : Cursor) (pairs : List PropertyView) (count : ℕ) :
    List PrintEvent :=
  if buffer.room = 0 ∨ count = 0 then []
  else ((logNProperties env buffer pairs count 0).map PrintState.log).getD []

/-- There are pairs and there is room for them: `log_context_property_to_string` is the run of
`log_n_properties`. -/
lemma toString_eq (env : PrintEnv) (buffer : Cursor) (pairs : List PropertyView) {count : ℕ}
    (h : ¬ (buffer.room = 0 ∨ count = 0)) :
    logContextPropertyToString env buffer pairs count =
        (logNProperties env buffer pairs count 0).map (fun s => (s.result, s.cursor.mem)) ∧
      toStringLog env buffer pairs count =
        ((logNProperties env buffer pairs count 0).map PrintState.log).getD [] :=
  ⟨if_neg h, if_neg h⟩

/-- Printing the properties of a context, for a buffer with room in it: where the array is left
the code is undefined or fails; otherwise the result is negative if a call failed, and the bytes
that were printed if all succeeded. -/
theorem logContextPropertyToString_spec {env : PrintEnv} {buffer : Cursor}
    {pairs : List PropertyView} {count : ℕ} (hnames : NamesPrinted (toStringLog env buffer pairs count))
    (hroom : buffer.room ≠ 0) (hint : buffer.room < 2 ^ 31) (hcount : count ≠ 0) :
    match contextScript pairs count with
    | none       => ∀ n mem, logContextPropertyToString env buffer pairs count = some (n, mem) → n < 0
    | some calls =>
      match buffer.tryAll (calls.map env.apply) with
      | none   => ∃ n mem, logContextPropertyToString env buffer pairs count = some (n, mem) ∧ n < 0
      | some c => logContextPropertyToString env buffer pairs count =
          some ((buffer.room : ℤ) - c.room, c.mem) ∧
        effective (bytesStored (toStringLog env buffer pairs count)) =
          effective (storedBy (calls.map env.apply) buffer.room) := by
  obtain ⟨hout, hlog⟩ := toString_eq env buffer pairs (not_or.mpr ⟨hroom, hcount⟩)
  rw [hlog] at hnames
  have hagrees := loop_agrees env count 0 pairs 0 ⟨buffer, 0, 0, 0, []⟩ hint fun s' hs' => by
    rw [logNProperties, hs'] at hnames
    exact hnames
  rw [hout, hlog]
  simp only [contextScript, logNProperties] at hagrees ⊢
  generalize logNPropertiesLoop env count 0 pairs 0 ⟨buffer, 0, 0, 0, []⟩ = out at hagrees ⊢
  match hscript : printScript count 0 pairs 0 0 0 with
  | none =>
    rw [hscript] at hagrees
    rintro n mem hout
    rcases hagrees with rfl | ⟨s, rfl, hneg⟩
    · cases hout
    · cases hout
      exact hneg
  | some (calls, i) =>
    rw [hscript, LoopAgrees] at hagrees
    simp only [Option.map_some]
    match htry : buffer.tryAll (calls.map env.apply) with
    | none =>
      rw [htry] at hagrees
      obtain ⟨s, rfl, hneg⟩ := hagrees
      exact ⟨_, _, rfl, hneg⟩
    | some c =>
      rw [htry] at hagrees
      obtain ⟨s, rfl, rfl, -, hresult, hstores⟩ := hagrees
      rw [zero_add] at hresult
      rw [Option.map_some, hresult]
      exact ⟨rfl, hstores⟩

/-- If no call that is made fails, none of those that are meant to be made does. -/
lemma exists_tryAll_of_noFailure {env : PrintEnv} {buffer : Cursor} {pairs : List PropertyView}
    {count : ℕ} (hnone : NoFailure (toStringLog env buffer pairs count)) (hroom : buffer.room ≠ 0)
    (hint : buffer.room < 2 ^ 31) (hcount : count ≠ 0) {calls : List PrintCall}
    (hscript : contextScript pairs count = some calls) :
    ∃ d, buffer.tryAll (calls.map env.apply) = some d := by
  have hspec := logContextPropertyToString_spec hnone.namesPrinted hroom hint hcount
  rw [hscript] at hspec
  simp only at hspec
  cases htry : buffer.tryAll (calls.map env.apply) with
  | some d => exact ⟨d, rfl⟩
  | none =>
    rw [htry] at hspec
    obtain ⟨n, mem, hout, hneg⟩ := hspec
    obtain ⟨hrun, hlog⟩ := toString_eq env buffer pairs (not_or.mpr ⟨hroom, hcount⟩)
    rw [hrun] at hout
    obtain ⟨s, hs, heq⟩ := Option.map_eq_some_iff.mp hout
    obtain ⟨rfl, -⟩ := Prod.mk.inj heq
    rw [hlog, hs] at hnone
    exact absurd hneg (not_lt.mpr ((loopRun_iff.mpr hs).result_nonneg hnone (le_refl 0)))

/-- What holds of reading a pair and of all calls that print one holds of all that is done. -/
lemma forall_toStringLog {env : PrintEnv} {pairs : List PropertyView} {P : PrintEvent → Prop}
    (hread : ∀ index, P (.read index))
    (hcall : ∀ k : PrintCall, k.Prints pairs → ∀ s, P (PrintState.event env k s))
    (buffer : Cursor) (count : ℕ) : ∀ e ∈ toStringLog env buffer pairs count, P e := by
  rw [toStringLog]
  split_ifs
  · exact List.forall_mem_nil _
  · cases hrun : logNProperties env buffer pairs count 0 with
    | none => exact List.forall_mem_nil _
    | some s => exact (loopRun_iff.mpr hrun).forall_log hread hcall (List.forall_mem_nil _)

/-- If nothing can fail, no call that is made does. -/
lemma noFailure_toStringLog {env : PrintEnv} (henv : ∀ site index, env site index = none)
    (buffer : Cursor) {pairs : List PropertyView}
    (hvalues : ∀ p ∈ pairs, ∀ room, 0 ≤ (p.type.toString p.memory room).1) (count : ℕ) :
    NoFailure (toStringLog env buffer pairs count) := by
  refine forall_toStringLog (fun _ => not_false) (fun k hk s => not_lt.mpr ?_) buffer count
  have happly : env.apply k = k.writer := by rw [PrintEnv.apply, henv]
  rw [happly]
  rcases hk with ⟨text, -, htext⟩ | ⟨p, hp, hvalue⟩
  · rw [htext]
    exact Int.natCast_nonneg _
  · rw [hvalue]
    exact hvalues p hp _

end CLogging
