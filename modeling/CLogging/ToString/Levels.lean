import CLogging.Lib.Forest
import CLogging.ToString.Properties

/-!
# Levels of complete trees

If the pairs of an array are complete trees, what `log_n_properties` did is described level by
level: the calls that it made, whether its result tells that one of them failed, and what it printed
if none did.
-/

namespace CLogging

open C Printf Forest

/-! ### Arrays of trees -/

/-- A tree of pairs: structs with their fields, and other properties. -/
abbrev PropertyTree := RoseTree PropertyView PropertyView

/-- A pair as it stands in the flat form of a tree. -/
def PropertyView.flat (p : PropertyView) : Token PropertyView PropertyView :=
  if p.type.getType = .struct then .node p p.fieldCount else .leaf p

/-- The array lists the trees. -/
def Lists (pairs : List PropertyView) (ts : List PropertyTree) : Prop :=
  pairs.map PropertyView.flat = encodeForest ts

lemma Lists.length_eq {pairs : List PropertyView} {ts : List PropertyTree} (h : Lists pairs ts) :
    pairs.length = (encodeForest ts).length := by
  rw [← h, List.length_map]

lemma lists_nil {pairs : List PropertyView} (h : Lists pairs []) : pairs = [] := by
  rw [Lists, encodeForest_nil] at h
  exact List.map_eq_nil_iff.mp h

lemma lists_leaf {pairs : List PropertyView} {p : PropertyView} {ts : List PropertyTree}
    (h : Lists pairs (.leaf p :: ts)) :
    ∃ rest, pairs = p :: rest ∧ p.type.getType ≠ .struct ∧ Lists rest ts := by
  rw [Lists, encodeForest_cons, encode_leaf, List.singleton_append] at h
  obtain ⟨q, rest, rfl, hq, hrest⟩ := List.map_eq_cons_iff.mp h
  rw [PropertyView.flat] at hq
  split_ifs at hq with hstruct
  obtain rfl := Token.leaf.inj hq
  exact ⟨rest, rfl, hstruct, hrest⟩

lemma lists_node {pairs : List PropertyView} {p : PropertyView} {cs ts : List PropertyTree}
    (h : Lists pairs (.node p cs :: ts)) :
    ∃ inside behind, pairs = p :: (inside ++ behind) ∧ p.type.getType = .struct ∧
      p.fieldCount = cs.length ∧ Lists inside cs ∧ Lists behind ts := by
  rw [Lists, encodeForest_cons, encode_node, List.cons_append] at h
  obtain ⟨q, rest, rfl, hq, hrest⟩ := List.map_eq_cons_iff.mp h
  rw [PropertyView.flat] at hq
  split_ifs at hq with hstruct
  obtain ⟨rfl, hcount⟩ := Token.node.inj hq
  obtain ⟨inside, behind, rfl, hinside, hbehind⟩ := List.map_eq_append_iff.mp hrest
  exact ⟨inside, behind, rfl, hstruct, hcount, hinside, hbehind⟩

/-- The calls for some trees, as they behave unless they fail. -/
def writers : List PropertyTree → List Writer
  | []               => []
  | .leaf p :: ts    =>
    snprintf (leafNameText p.name) :: p.type.toString p.memory :: writers ts
  | .node p cs :: ts =>
    snprintf (structOpenText p.name) :: (writers cs ++ snprintf structCloseText :: writers ts)

lemma writers_cons (t : PropertyTree) (ts : List PropertyTree) :
    writers (t :: ts) = writers [t] ++ writers ts := by
  cases t <;> simp [writers]

/-! ### Errors -/

/-- The pair that is read or printed. -/
def PrintEvent.index : PrintEvent → ℕ
  | .read index         => index
  | .call _ index _ _ _ => index

/-- An error that no later result of the same level can hide: of any call but the one for the name
of a leaf, or behind which the level ends, or with no room left that a later call could use. -/
def PrintEvent.Reported (last : List ℕ) : PrintEvent → Prop
  | .read _                        => False
  | .call site index room result _ =>
    result < 0 ∧ (site ≠ .leafName ∨ index ∈ last ∨ int room = 0)

instance (last : List ℕ) : DecidablePred (PrintEvent.Reported last)
  | .read _                        => inferInstanceAs (Decidable False)
  | .call site index room result _ =>
    inferInstanceAs (Decidable (result < 0 ∧ (site ≠ .leafName ∨ index ∈ last ∨ int room = 0)))

/-- The pairs that are read. -/
def readIndices (log : List PrintEvent) : List ℕ :=
  log.filterMap fun
    | .read index       => some index
    | .call _ _ _ _ _ => none

lemma PrintEvent.Reported.fails {last : List ℕ} {e : PrintEvent} (h : e.Reported last) :
    e.Fails := by
  cases e with
  | read index => exact h
  | call site index room result bytes => exact h.1

/-- Only whether its own leaf is a last one matters for an error. -/
lemma PrintEvent.reported_congr {last last' : List ℕ} {e : PrintEvent}
    (h : e.index ∈ last ↔ e.index ∈ last') : e.Reported last ↔ e.Reported last' := by
  cases e with
  | read index => exact Iff.rfl
  | call site index room result bytes =>
    exact and_congr_right fun _ => or_congr_right (or_congr_left h)

/-! ### One level -/

/-- The run of the loop over some trees of a level, the first of which starts at a given index. -/
structure LevelRun (ts : List PropertyTree) (index : ℕ) (s s' : PrintState)
    (events : List PrintEvent) : Prop where
  log_eq    : s'.log = s.log ++ events
  within    : ∀ e ∈ events, index ≤ e.index ∧ e.index < index + (encodeForest ts).length
  result_ge : -1 ≤ s'.result
  fails_iff : s'.result < 0 ↔ (∃ e ∈ events, e.Reported (lastLeaves index ts)) ∨
    (s.result < 0 ∧ (ts = [] ∨ int s.cursor.room = 0))
  i_eq      : 0 ≤ s'.result → s'.i = s.i + (encodeForest ts).length
  prints    : s.cursor.room < 2 ^ 31 → (∀ e ∈ events, ¬ e.Fails) →
    s'.cursor = s.cursor.emitAll (writers ts) ∧
      s'.result = s.result + (s.cursor.room - s'.cursor.room) ∧
      readIndices events = List.range' index (encodeForest ts).length

lemma levelRun_nil {index : ℕ} {s : PrintState} (h : -1 ≤ s.result) : LevelRun [] index s s [] where
  log_eq    := (List.append_nil _).symm
  within    := by simp
  result_ge := h
  fails_iff := by simp
  i_eq _    := by simp
  prints    := by simp [writers, readIndices]

/-- A level that ends with an error. -/
lemma levelRun_of_break {t : PropertyTree} {ts : List PropertyTree} {index n : ℕ}
    (hn : t.encode.length = n) {s s' : PrintState} {events : List PrintEvent}
    (hlog : s'.log = s.log ++ events)
    (hwithin : ∀ e ∈ events, index ≤ e.index ∧ e.index < index + n)
    (hresult : s'.result = -1) (h : ∃ e ∈ events, e.Reported (lastLeaves index (t :: ts))) :
    LevelRun (t :: ts) index s s' events where
  log_eq    := hlog
  within e he := by
    have := hwithin e he
    rw [encodeForest_cons, List.length_append, hn]
    omega
  result_ge := hresult.ge
  fails_iff := iff_of_true (by rw [hresult]; decide) (Or.inl h)
  i_eq hnonneg := by
    rw [hresult] at hnonneg
    exact absurd hnonneg (by decide)
  prints _ hnone := by
    obtain ⟨e, he, hreported⟩ := h
    exact absurd hreported.fails (hnone e he)

/-- A tree, and then the rest of the level. -/
lemma LevelRun.prepend {t : PropertyTree} {ts : List PropertyTree} {index n : ℕ}
    (hn : t.encode.length = n) {s s₁ s' : PrintState} {first events : List PrintEvent}
    (hrest : LevelRun ts (index + n) s₁ s' events) (hlog : s₁.log = s.log ++ first)
    (hwithin : ∀ e ∈ first, index ≤ e.index ∧ e.index < index + n) (hi : s₁.i = s.i + n)
    (hfails : (s₁.result < 0 ∧ (ts = [] ∨ int s₁.cursor.room = 0)) ↔
      (∃ e ∈ first, e.Reported (lastLeaves index (t :: ts))) ∨
        (s.result < 0 ∧ int s.cursor.room = 0))
    (hprints : s.cursor.room < 2 ^ 31 → (∀ e ∈ first, ¬ e.Fails) →
      s₁.cursor = s.cursor.emitAll (writers [t]) ∧
        s₁.result = s.result + (s.cursor.room - s₁.cursor.room) ∧
        readIndices first = List.range' index n) :
    LevelRun (t :: ts) index s s' (first ++ events) where
  log_eq := by rw [hrest.log_eq, hlog, List.append_assoc]
  within e he := by
    rw [encodeForest_cons, List.length_append, hn]
    rcases List.mem_append.mp he with he | he
    · have := hwithin e he
      omega
    · have := hrest.within e he
      omega
  result_ge := hrest.result_ge
  fails_iff := by
    have hbehind : (∃ e ∈ events, e.Reported (lastLeaves (index + n) ts)) ↔
        ∃ e ∈ events, e.Reported (lastLeaves index (t :: ts)) := by
      refine exists_congr fun e => and_congr_right fun he => ?_
      have hlast : e.index ∈ lastLeaves index (t :: ts) ↔
          e.index ∈ lastLeaves (index + t.encode.length) ts :=
        mem_lastLeaves_cons (hn.symm ▸ (hrest.within e he).1)
      rw [hn] at hlast
      exact (PrintEvent.reported_congr hlast).symm
    have happend : (∃ e ∈ first ++ events, e.Reported (lastLeaves index (t :: ts))) ↔
        (∃ e ∈ first, e.Reported (lastLeaves index (t :: ts))) ∨
          ∃ e ∈ events, e.Reported (lastLeaves index (t :: ts)) := by
      simp only [List.mem_append, or_and_right, exists_or]
    rw [hrest.fails_iff, hbehind, hfails, happend, or_left_comm, or_assoc]
    simp only [reduceCtorEq, false_or]
  i_eq hnonneg := by
    rw [hrest.i_eq hnonneg, hi, encodeForest_cons, List.length_append, hn, Nat.add_assoc]
  prints hroom hnone := by
    obtain ⟨hcursor, hresult, hreads⟩ := hprints hroom fun e he => hnone e
      (List.mem_append_left _ he)
    have hroom₁ : s₁.cursor.room < 2 ^ 31 := by
      rw [hcursor]
      exact (Cursor.emitAll_room_le _ _).trans_lt hroom
    obtain ⟨hcursor', hresult', hreads'⟩ := hrest.prints hroom₁ fun e he => hnone e
      (List.mem_append_right _ he)
    refine ⟨?_, ?_, ?_⟩
    · -- the cursor is moved by this property and then by those behind it
      rw [hcursor', hcursor, ← Cursor.emitAll_append, ← writers_cons]
    · rw [hresult', hresult]
      ring
    · -- the pairs read are those of this property, then those behind it
      rw [readIndices, List.filterMap_append, ← readIndices, ← readIndices, hreads, hreads',
        encodeForest_cons, List.length_append, hn, List.range'_append_1]

/-! ### The loop -/

/-- Text was printed: the result grew by what was used up of the room. -/
structure PrintState.Moves (s s' : PrintState) : Prop where
  result_eq : s'.result = s.result + (int s.cursor.room - int s'.cursor.room)
  nonneg    : 0 ≤ int s'.cursor.room
  le        : int s'.cursor.room ≤ int s.cursor.room

lemma PrintState.Moves.trans {s s₁ s₂ : PrintState} (h : s.Moves s₁) (h' : s₁.Moves s₂) :
    s.Moves s₂ := by
  refine ⟨?_, h'.nonneg, h'.le.trans h.le⟩
  rw [h'.result_eq, h.result_eq]
  ring

lemma PrintState.Moves.result_le {s s' : PrintState} (h : s.Moves s') : s.result ≤ s'.result := by
  rw [h.result_eq]
  exact le_add_of_nonneg_right (Int.sub_nonneg_of_le h.le)

/-- An earlier error is hidden, unless there was no room at all for what was printed. -/
lemma PrintState.Moves.negative_iff {s s₁ s₂ : PrintState} (h : s.Moves s₁) (h' : s₁.Moves s₂)
    (hresult : -1 ≤ s.result)
    (hstrict : int s₁.cursor.room = int s.cursor.room → int s.cursor.room = 0) {P : Prop} :
    (s₂.result < 0 ∧ (P ∨ int s₂.cursor.room = 0)) ↔
      s.result < 0 ∧ int s.cursor.room = 0 := by
  have heq := (h.trans h').result_eq
  have hle := h.le
  have hle' := h'.le
  have hnonneg := h'.nonneg
  constructor
  · rintro ⟨hneg, -⟩
    have hsame : int s₁.cursor.room = int s.cursor.room := by omega
    have hzero := hstrict hsame
    exact ⟨by omega, hzero⟩
  · rintro ⟨hneg, hzero⟩
    exact ⟨by omega, Or.inr (by omega)⟩

/-- Steps that print, with what they did; if nothing failed, some writers were called one after the
other. -/
structure PrintState.Prints (ws : List Writer) (events : List PrintEvent) (s s' : PrintState) :
    Prop extends s.Moves s' where
  log_eq   : s'.log = s.log ++ events
  i_eq     : s'.i = s.i
  added_eq : s'.added = s.added
  emits    : s.cursor.room < 2 ^ 31 → (∀ e ∈ events, ¬ e.Fails) →
    s'.cursor = s.cursor.emitAll ws ∧ s'.result = s.result + (s.cursor.room - s'.cursor.room)

lemma PrintState.Prints.room_lt {ws : List Writer} {events : List PrintEvent} {s s' : PrintState}
    (h : s.Prints ws events s') (hroom : s.cursor.room < 2 ^ 31)
    (hnone : ∀ e ∈ events, ¬ e.Fails) : s'.cursor.room < 2 ^ 31 := by
  rw [(h.emits hroom hnone).1]
  exact (Cursor.emitAll_room_le _ _).trans_lt hroom

lemma PrintState.Prints.trans {ws ws' : List Writer} {first second : List PrintEvent}
    {s s₁ s₂ : PrintState} (h : s.Prints ws first s₁) (h' : s₁.Prints ws' second s₂) :
    s.Prints (ws ++ ws') (first ++ second) s₂ where
  toMoves  := h.toMoves.trans h'.toMoves
  log_eq   := by rw [h'.log_eq, h.log_eq, List.append_assoc]
  i_eq     := h'.i_eq.trans h.i_eq
  added_eq := h'.added_eq.trans h.added_eq
  emits hroom hnone := by
    have hfirst : ∀ e ∈ first, ¬ e.Fails := fun e he => hnone e (List.mem_append_left _ he)
    obtain ⟨hcursor, hresult⟩ := h.emits hroom hfirst
    obtain ⟨hcursor', hresult'⟩ := h'.emits (h.room_lt hroom hfirst) fun e he =>
      hnone e (List.mem_append_right _ he)
    refine ⟨?_, ?_⟩
    · rw [hcursor', hcursor, Cursor.emitAll_append]
    · rw [hresult', hresult]
      ring

/-- A tree that is printed, and then the rest of the level. -/
lemma LevelRun.prepend_of_prints {t : PropertyTree} {ts : List PropertyTree} {index n : ℕ}
    (hn : t.encode.length = 1 + n) {ws ws' : List Writer} {first second events : List PrintEvent}
    {s s₁ s₂ s' : PrintState} (hfirst : (s.read index).Prints ws first s₁)
    (hstrict : int s₁.cursor.room = int s.cursor.room → int s.cursor.room = 0)
    (hsecond : s₁.Prints ws' second s₂) (hwriters : writers [t] = ws ++ ws')
    (hrest : LevelRun ts (index + (1 + n)) { s₂ with i := s.i + (1 + n) } s' events)
    (hresult : -1 ≤ s.result)
    (hwithin : ∀ e ∈ first ++ second, index ≤ e.index ∧ e.index < index + (1 + n))
    (hnone : ¬ ∃ e ∈ first ++ second, e.Reported (lastLeaves index (t :: ts)))
    (hreads : s₁.cursor.room < 2 ^ 31 → (∀ e ∈ second, ¬ e.Fails) →
      readIndices (first ++ second) = List.range' (index + 1) n) :
    LevelRun (t :: ts) index s s' (.read index :: (first ++ second) ++ events) := by
  have hprints := hfirst.trans hsecond
  refine hrest.prepend hn ?_ ?_ rfl ?_ fun hroom hfails => ?_
  · show s₂.log = s.log ++ .read index :: (first ++ second)
    rw [hprints.log_eq, show (s.read index).log = s.log ++ [.read index] from rfl,
      List.append_assoc, List.singleton_append]
  · intro e he
    rcases List.mem_cons.mp he with rfl | he
    · exact ⟨le_refl _, by simp only [PrintEvent.index]; omega⟩
    · exact hwithin e he
  · -- the read itself reports nothing: the sign is that of the calls
    have hread : ¬ ∃ e ∈ PrintEvent.read index :: (first ++ second),
        e.Reported (lastLeaves index (t :: ts)) := by
      rintro ⟨e, he, hreported⟩
      rcases List.mem_cons.mp he with rfl | he
      · exact hreported
      · exact hnone ⟨e, he, hreported⟩
    rw [or_iff_right hread]
    exact hfirst.toMoves.negative_iff hsecond.toMoves hresult hstrict
  · -- without a failure the texts stand one behind the other
    have hfails' : ∀ e ∈ first ++ second, ¬ e.Fails := fun e he =>
      hfails e (List.mem_cons_of_mem _ he)
    obtain ⟨hcursor, hresult'⟩ := hprints.emits hroom hfails'
    have hlt := hfirst.room_lt hroom fun e he => hfails' e (List.mem_append_left _ he)
    refine ⟨by rw [hcursor, hwriters]; rfl, hresult', ?_⟩
    rw [Nat.add_comm 1, List.range'_succ,
      ← hreads hlt fun e he => hfails' e (List.mem_append_right _ he)]
    rfl

end CLogging
