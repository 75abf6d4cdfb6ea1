import CLogging.ToString.LevelTurns
import CLogging.ToString.Trees

/-!
# Where the brace of a struct is closed

The loop closes the brace of a struct behind as many trees as its field count announces. For the
first pair of an array this is behind the last pair exactly if the pairs are one complete tree.
-/

namespace CLogging

open C Printf Forest

/-! ### Order -/

section

variable {α : Type} {P Q : α → Prop} {xs : List α}

/-- In front of every entry with the second property there is one with the first. -/
def Precedes (Q P : α → Prop) (xs : List α) : Prop :=
  ∀ before x behind, xs = before ++ x :: behind → P x → ∃ y ∈ before, Q y

lemma precedes_of_not (h : ∀ x ∈ xs, ¬ P x) : Precedes Q P xs := by
  intro before x behind hxs hx
  exact absurd hx (h x (hxs ▸ List.mem_append_right before List.mem_cons_self))

/-- Only the last entry needs another one in front of it. -/
lemma precedes_concat (h : ∀ x ∈ xs, ¬ P x) {y : α} (hy : y ∈ xs) (hQ : Q y) (z : α) :
    Precedes Q P (xs ++ [z]) := by
  intro before x behind hxs hx
  rcases List.eq_nil_or_concat behind with rfl | ⟨behind, z', rfl⟩
  · obtain ⟨rfl, -⟩ := List.append_inj' hxs rfl
    exact ⟨y, hy, hQ⟩
  · rw [List.concat_eq_append, ← List.cons_append, ← List.append_assoc] at hxs
    obtain ⟨rfl, -⟩ := List.append_inj' hxs rfl
    exact absurd hx (h x (List.mem_append_right before List.mem_cons_self))

end

/-! ### Shapes -/

/-- A pair has the same number of fields for every reader. -/
lemma arity_token (p : PropertyView) : p.token.arity = p.flat.arity := by
  rw [PropertyView.token, PropertyView.flat]
  split_ifs <;> rfl

lemma exists_lists_of_tokens {pairs : List PropertyView} {ts : List (RoseTree CString Leaf)}
    (h : pairs.map PropertyView.token = encodeForest ts) :
    ∃ cs : List PropertyTree, Lists pairs cs ∧ cs.length = ts.length := by
  refine exists_encodeForest_of_arity ?_
  rw [← h, List.map_map, List.map_map]
  exact List.map_congr_left fun p _ => (arity_token p).symm

/-! ### What is read -/

/-- From one state to another, the pairs from some index on are read one after the other. -/
def PrintState.Reads (index n : ℕ) (s s' : PrintState) : Prop :=
  ∃ events, s'.log = s.log ++ events ∧ readIndices events = List.range' index n

namespace PrintState

variable {s s₁ s₂ : PrintState} {index n m : ℕ}

lemma Reads.trans (h : s.Reads index n s₁) (h' : s₁.Reads (index + n) m s₂) :
    s.Reads index (n + m) s₂ := by
  obtain ⟨first, hlog, hreads⟩ := h
  obtain ⟨second, hlog', hreads'⟩ := h'
  refine ⟨first ++ second, by rw [hlog', hlog, List.append_assoc], ?_⟩
  rw [readIndices, List.filterMap_append, ← readIndices, ← readIndices, hreads, hreads',
    List.range'_append_1]

lemma Reads.mem (h : s.Reads index n s₁) {j : ℕ} (hj : index ≤ j ∧ j < index + n) :
    .read j ∈ s₁.log := by
  obtain ⟨events, hlog, hreads⟩ := h
  have hmem : j ∈ readIndices events := by
    rw [hreads]
    exact List.mem_range'_1.mpr hj
  obtain ⟨e, he, heq⟩ := List.mem_filterMap.mp hmem
  rw [hlog]
  cases e with
  | read j' =>
    obtain rfl := Option.some.inj heq
    exact List.mem_append_right _ he
  | call => cases heq

lemma reads_read (s : PrintState) (index : ℕ) : s.Reads index 1 (s.read index) :=
  ⟨[.read index], rfl, rfl⟩

lemma reads_call (env : PrintEnv) (k : PrintCall) (s : PrintState) (index : ℕ) :
    s.Reads index 0 (s.call env k).2 :=
  ⟨[event env k s], rfl, rfl⟩

lemma reads_update {s' : PrintState} {n : ℤ} (h : s.update n = some s') (index : ℕ) :
    s.Reads index 0 s' ∧ s'.i = s.i := by
  obtain ⟨hlog, hi⟩ := update_frame h
  exact ⟨⟨[], by rw [hlog, List.append_nil], rfl⟩, hi⟩

lemma reads_update_call {env : PrintEnv} {k : PrintCall} {s' : PrintState} {n : ℤ}
    (h : (s.call env k).2.update n = some s') (index : ℕ) : s.Reads index 0 s' ∧ s'.i = s.i := by
  obtain ⟨hreads, hi⟩ := reads_update h index
  exact ⟨(reads_call env k s index).trans hreads, hi⟩

end PrintState

/-- Unless the loop ends with an error, it reads as many pairs as it moves on in the array, one
after the other. -/
lemma LoopRun.reads {env : PrintEnv} {count depth : ℕ} {pairs : List PropertyView} {index : ℕ}
    {s s' : PrintState} (h : LoopRun env count depth pairs index s s') (hnonneg : 0 ≤ s'.result) :
    ∃ n, s'.i = s.i + n ∧ s.Reads index n s' := by
  induction h with
  | stop hguard => exact ⟨0, rfl, [], (List.append_nil _).symm, rfl⟩
  | openFails | fieldsFail | closeFails | valueFails =>
    exact absurd hnonneg (not_le.mpr (Int.negSucc_lt_zero 0))
  | @struct _ _ p rest index s s₁ inner s₂ s₃ s' hguard hstruct hopen hfields hreturn hclose hbehind
      ihc ih =>
    obtain ⟨n, hn, hinside⟩ := ihc (not_lt.mp hreturn.1)
    obtain ⟨m, hm, hrest⟩ := ih hnonneg
    rw [show inner.i = n from hn.trans (Nat.zero_add n)] at hm hrest
    obtain ⟨hopened, hi₁⟩ := PrintState.reads_update_call hopen.2 (index + 1)
    obtain ⟨hreturned, hi₂⟩ := PrintState.reads_update hreturn.2 (index + 1 + n)
    obtain ⟨hclosed, hi₃⟩ := PrintState.reads_update_call hclose.2 (index + 1 + n)
    have hstart := ((PrintState.reads_read s index).trans hopened).trans hinside
    have hend : inner.Reads (index + 1 + n) 0 s₃ := PrintState.Reads.trans hreturned hclosed
    have hi : s₃.i = s.i := hi₃.trans (hi₂.trans hi₁)
    refine ⟨1 + n + m, ?_, ?_⟩
    · -- a struct uses up its own pair and those of its fields
      rw [hm]
      simp only [hi]
      omega
    · -- they are read in the order in which they stand
      rw [Nat.add_assoc index] at hend hrest
      exact (hstart.trans hend).trans hrest
  | @nameFails _ _ p rest index s s' hguard hleaf hname hbehind ih =>
    obtain ⟨n, hn, hrest⟩ := ih hnonneg
    have hnamed := PrintState.reads_call env (p.nameCall index) (s.read index) (index + 1)
    refine ⟨1 + n, ?_, ?_⟩
    · rw [hn]
      exact Nat.add_assoc _ _ _
    · exact ((PrintState.reads_read s index).trans hnamed).trans hrest
  | @leaf _ _ p rest index s s₁ s₂ s' hguard hleaf hname hvalue hbehind ih =>
    obtain ⟨n, hn, hrest⟩ := ih hnonneg
    obtain ⟨hnamed, hi₁⟩ := PrintState.reads_update_call hname.2 (index + 1)
    obtain ⟨hprinted, hi₂⟩ := PrintState.reads_update_call hvalue.2 (index + 1)
    refine ⟨1 + n, ?_, ?_⟩
    · rw [hn, hi₂, hi₁]
      exact Nat.add_assoc _ _ _
    · exact (((PrintState.reads_read s index).trans hnamed).trans hprinted).trans hrest

/-! ### The first pair -/

/-- The brace of the pair with some index is closed. -/
def PrintCall.Closes (index : ℕ) (k : PrintCall) : Prop := k.site = .structClose ∧ k.index = index

/-- The brace of the pair with some index is closed. -/
def PrintEvent.Closes (index : ℕ) (e : PrintEvent) : Prop :=
  ∃ room result bytes, e = .call .structClose index room result bytes

variable {p : PropertyView} {rest : List PropertyView}

section

variable (hstruct : p.type.getType = .struct)

include hstruct

omit hstruct in
/-- A nested call over all other pairs, behind the opening of the brace: it closes no brace of the
first pair, and unless it fails, all pairs have been read. -/
lemma nested_reads {cs : List PropertyTree} (hlists : Lists rest cs)
    (hcount : p.fieldCount = cs.length) {env : PrintEnv} {s s₁ inner : PrintState}
    (hlog : s.log = []) (hopen : (s.read 0).Succeeds env (p.openCall 0) s₁)
    (hfields : LoopRun env p.fieldCount 1 rest 1 s₁.nested inner) :
    (∀ e ∈ inner.log, ¬ e.Closes 0) ∧ (¬ inner.result < 0 →
      inner.i = rest.length ∧ ∀ j < rest.length + 1, .read j ∈ inner.log) := by
  have hprints := hopen.prints
  obtain ⟨inner', events, hinner', hrun⟩ := runsLevel env cs rest [] p.fieldCount 1 1 s₁.nested
    hlists (fun h => absurd h Nat.one_ne_zero)
    (fun _ => by rw [hcount]; exact (Nat.zero_add _).symm) hprints.nonneg
    (Int.neg_nonpos_of_nonneg Int.one_nonneg)
  rw [List.append_nil] at hinner'
  obtain rfl := Option.some.inj (hfields.loop_eq.symm.trans hinner')
  have hinner : inner.log = .read 0 :: PrintState.event env (p.openCall 0) (s.read 0) :: events := by
    rw [hrun.log_eq, show s₁.nested.log = s₁.log from rfl, hprints.log_eq,
      show (s.read 0).log = s.log ++ [.read 0] from rfl, hlog]
    rfl
  refine ⟨fun e he => ?_, fun hnonneg => ?_⟩
  · -- no event before is the closing text: it is the struct's own, and that comes last
    rw [hinner] at he
    rintro ⟨room, result, bytes, rfl⟩
    rcases List.mem_cons.mp he with heq | he
    · cases heq
    · rcases List.mem_cons.mp he with heq | he
      · cases heq
      · exact absurd (hrun.within _ he).1 (Nat.not_succ_le_zero 0)
  · -- the fields were printed, so that all pairs were read
    have hi : inner.i = rest.length := by
      rw [hrun.i_eq (not_lt.mp hnonneg), ← hlists.length_eq]
      exact Nat.zero_add _
    refine ⟨hi, fun j hj => ?_⟩
    rcases Nat.eq_zero_or_pos j with rfl | hpos
    · rw [hinner]
      exact List.mem_cons_self
    · -- a pair behind the struct: one of its fields
      obtain ⟨n, hn, hreads⟩ := hfields.reads (not_lt.mp hnonneg)
      refine hreads.mem ⟨hpos, ?_⟩
      rw [show n = inner.i from (Nat.zero_add n).symm.trans hn.symm, hi]
      omega

/-- A run over an array whose first pair is a struct with all other pairs in it. -/
lemma closes_behind_reads {cs : List PropertyTree} (hlists : Lists rest cs)
    (hcount : p.fieldCount = cs.length) {env : PrintEnv} {buffer : Cursor} {s : PrintState}
    (h : logNProperties env buffer (p :: rest) (rest.length + 1) 0 = some s) {j : ℕ}
    (hj : j < rest.length + 1) : Precedes (· = .read j) (PrintEvent.Closes 0) s.log := by
  cases loopRun_of_loop _ _ _ _ _ _ h with
  | stop hguard => exact absurd (Or.inl ⟨rfl, Nat.succ_pos _⟩) hguard
  | openFails _ _ hopen =>
    refine precedes_of_not fun e he => ?_
    rintro ⟨room, result, bytes, rfl⟩
    rcases List.mem_pair.mp he with heq | heq <;> cases heq
  | fieldsFail _ _ hopen hfields hneg =>
    exact precedes_of_not (nested_reads hlists hcount rfl hopen hfields).1
  | @closeFails _ _ _ _ _ _ s₁ inner s₂ _ _ hopen hfields hreturn hclose =>
    obtain ⟨hnot, hreads⟩ := nested_reads hlists hcount rfl hopen hfields
    obtain ⟨-, hread⟩ := hreads hreturn.1
    have hlog : s₂.log = inner.log := (PrintState.update_frame hreturn.2).1
    rw [← hlog] at hnot hread
    exact precedes_concat (Q := (· = .read j)) hnot (hread j hj) rfl _
  | @struct _ _ _ _ _ _ s₁ inner s₂ s₃ _ _ _ hopen hfields hreturn hclose hbehind =>
    obtain ⟨hnot, hreads⟩ := nested_reads hlists hcount rfl hopen hfields
    obtain ⟨hi, hread⟩ := hreads hreturn.1
    have hlog : s₂.log = inner.log := (PrintState.update_frame hreturn.2).1
    rw [← hlog] at hnot hread
    -- no pair is left behind the struct
    rw [hi, List.drop_length] at hbehind
    cases hbehind with
    | stop hguard =>
      show Precedes _ _ s₃.log
      rw [(PrintState.update_frame hclose.2).1]
      exact precedes_concat (Q := (· = .read j)) hnot (hread j hj) rfl _
  | nameFails _ hleaf | valueFails _ hleaf | leaf _ hleaf => exact absurd hstruct hleaf

/-- The calls for an array whose first pair is a struct: those for its fields, between the two for
its braces, and behind them the others. -/
lemma contextScript_struct {count : ℕ} (hcount : 0 < count) {inner : List PrintCall} {n : ℕ}
    (hinner : printScript p.fieldCount 1 rest 1 0 0 = some (inner, n)) :
    contextScript (p :: rest) count =
      (printScript count 0 (rest.drop n) (1 + n) (n + 1) 1).map fun behind =>
        p.openCall 0 :: inner ++ p.closeCall 0 :: behind.1 := by
  rw [contextScript, printScript, if_pos (Or.inl ⟨rfl, hcount⟩)]
  simp only [if_pos hstruct, Nat.zero_add, hinner, Option.map_map]
  refine congrArg (Option.map · _) (funext fun behind => ?_)
  simp

lemma exists_inner_of_contextScript {count : ℕ} (hcount : 0 < count) {calls : List PrintCall}
    (h : contextScript (p :: rest) count = some calls) :
    ∃ inner n, printScript p.fieldCount 1 rest 1 0 0 = some (inner, n) := by
  rw [contextScript, printScript, if_pos (Or.inl ⟨rfl, hcount⟩)] at h
  simp only [if_pos hstruct, Nat.zero_add] at h
  cases hinner : printScript p.fieldCount 1 rest 1 0 0 with
  | none =>
    rw [hinner] at h
    cases h
  | some out => exact ⟨out.1, out.2, rfl⟩

/-- If the first struct has all other pairs in it, its brace is closed behind all their calls. -/
lemma closes_behind_calls {ts : List (RoseTree CString Leaf)}
    (hts : rest.map PropertyView.token = encodeForest ts) (hcount : p.fieldCount = ts.length) :
    ∃ calls, contextScript (p :: rest) (rest.length + 1) = some calls ∧
      ∀ j < rest.length + 1, Precedes (·.index = j) (PrintCall.Closes 0) calls := by
  have hlength : (encodeForest ts).length = rest.length := by rw [← hts, List.length_map]
  obtain ⟨inner, hinner⟩ := printScript_of_encodeForest ts rest [] p.fieldCount 1 1 0 0
    hts (fun h => absurd h Nat.one_ne_zero) (fun _ => by rw [hcount, Nat.zero_add])
  rw [List.append_nil, Nat.zero_add, hlength] at hinner
  have hguard : ¬ ((0 = 0 ∧ rest.length + 1 < rest.length + 1) ∨
      (0 > 0 ∧ 1 < rest.length + 1)) := by
    rintro (⟨-, h⟩ | ⟨h, -⟩)
    · exact absurd h (Nat.lt_irrefl _)
    · exact absurd h (Nat.lt_irrefl 0)
  have hscript := contextScript_struct hstruct (Nat.succ_pos rest.length) hinner
  rw [List.drop_length, printScript.eq_def, if_neg hguard, Option.map_some] at hscript
  obtain ⟨-, inside, -, -, -, -, hn, hindices⟩ :=
    exists_trees_of_printScript _ _ _ _ _ _ Nat.one_pos (Nat.zero_le _) hinner
  have hnot : ∀ k ∈ p.openCall 0 :: inner, ¬ k.Closes 0 := by
    rintro k hk ⟨hsite, hindex⟩
    rcases List.mem_cons.mp hk with rfl | hk
    · cases hsite
    · have := (hindices k.index).mp (List.mem_map_of_mem hk)
      omega
  refine ⟨_, hscript, fun j hj => ?_⟩
  have hmem : ∃ k ∈ p.openCall 0 :: inner, k.index = j := by
    rcases Nat.eq_zero_or_pos j with rfl | hpos
    · exact ⟨_, List.mem_cons_self, rfl⟩
    · obtain ⟨k, hk, hindex⟩ := List.mem_map.mp ((hindices j).mpr ⟨hpos, by omega⟩)
      exact ⟨k, List.mem_cons_of_mem _ hk, hindex⟩
  obtain ⟨k, hk, hindex⟩ := hmem
  exact precedes_concat (Q := (·.index = j)) hnot hk hindex _

/-- The pairs that a call precedes the closing of the first struct for are in that struct. -/
lemma exists_inside_of_closes {count : ℕ} (hcount : 0 < count) {calls : List PrintCall}
    (hcalls : contextScript (p :: rest) count = some calls) {j : ℕ}
    (hlast : Precedes (·.index = j) (PrintCall.Closes 0) calls) :
    ∃ (ts : List (RoseTree CString Leaf)) (inside others : List PropertyView),
      rest = inside ++ others ∧ inside.map PropertyView.token = encodeForest ts ∧
        p.fieldCount = ts.length ∧ j ≤ inside.length := by
  obtain ⟨inner, n, hinner⟩ := exists_inner_of_contextScript hstruct hcount hcalls
  obtain ⟨ts, inside, others, hrest, hts, hfields, rfl, hindices⟩ :=
    exists_trees_of_printScript _ _ _ _ _ _ Nat.one_pos (Nat.zero_le _) hinner
  rw [contextScript_struct hstruct hcount hinner] at hcalls
  obtain ⟨behind, -, rfl⟩ := Option.map_eq_some_iff.mp hcalls
  obtain ⟨k, hk, hindex⟩ := hlast (p.openCall 0 :: inner) (p.closeCall 0) behind.1 rfl ⟨rfl, rfl⟩
  refine ⟨ts, inside, others, hrest, hts, by rw [← hfields, Nat.zero_add], ?_⟩
  rcases List.mem_cons.mp hk with rfl | hk
  · rw [← hindex]
    exact Nat.zero_le _
  · have := (hindices k.index).mp (List.mem_map_of_mem hk)
    omega

/-- If the brace of the first struct is closed behind the calls for the last pair, all other pairs
are in it. -/
lemma exists_trees_of_closes {count : ℕ} (hcount : 0 < count) {calls : List PrintCall}
    (hcalls : contextScript (p :: rest) count = some calls)
    (hlast : Precedes (·.index = rest.length) (PrintCall.Closes 0) calls) :
    ∃ ts : List (RoseTree CString Leaf),
      rest.map PropertyView.token = encodeForest ts ∧ p.fieldCount = ts.length := by
  obtain ⟨ts, inside, others, rfl, hts, hfields, hle⟩ :=
    exists_inside_of_closes hstruct hcount hcalls hlast
  rw [List.length_append] at hle
  obtain rfl : others = [] := List.length_eq_zero_iff.mp (by omega)
  rw [List.append_nil]
  exact ⟨ts, hts, hfields⟩

/-- The brace of the first struct is not closed behind a call for a pair that is not there. -/
lemma le_length_of_closes {count : ℕ} (hcount : 0 < count) {calls : List PrintCall}
    (hcalls : contextScript (p :: rest) count = some calls) {j : ℕ}
    (hlast : Precedes (·.index = j) (PrintCall.Closes 0) calls) : j ≤ rest.length := by
  obtain ⟨ts, inside, others, rfl, -, -, hle⟩ := exists_inside_of_closes hstruct hcount hcalls hlast
  rw [List.length_append]
  omega

end

end CLogging
