import Mathlib.Data.List.Basic
import Mathlib.Tactic

/-!
# Stores into a block of memory

A store puts a run of cells at an offset of a block. Offsets are integers, counted from the start
of the block: a store that leaves the block is still recorded with the offsets it touches, but
only its cells inside the block are visible afterwards.
-/

namespace Memory

variable {α : Type*}

/-- A store of consecutive cells. -/
structure Write (α : Type*) where
  offset : ℤ
  cells  : List α

namespace Write

/-- The store touches the offset `i`. -/
def Covers (w : Write α) (i : ℤ) : Prop := w.offset ≤ i ∧ i < w.offset + w.cells.length

/-- The first offset behind the store. -/
def stop (w : Write α) : ℤ := w.offset + w.cells.length

/-- Two stores that touch no common offset. -/
def Disjoint (w w' : Write α) : Prop := w.stop ≤ w'.offset ∨ w'.stop ≤ w.offset

/-- The block after the store. -/
def apply (w : Write α) (block : List α) : List α :=
  block.zipIdx.map fun (b, i) =>
    if w.offset ≤ i then (w.cells[(i - w.offset).toNat]?).getD b else b

@[simp] lemma length_apply (w : Write α) (block : List α) :
    (w.apply block).length = block.length := by
  simp [apply]

lemma apply_getElem?_of_not_covers (w : Write α) (block : List α) (i : ℕ) (h : ¬ w.Covers i) :
    (w.apply block)[i]? = block[i]? := by
  simp only [apply, List.getElem?_map, List.getElem?_zipIdx, Nat.zero_add]
  cases hb : block[i]? with
  | none => rfl
  | some b =>
    simp only [Option.map_some, Option.some.injEq]
    split_ifs with hle
    · have hlen : w.cells.length ≤ (i - w.offset).toNat := by
        simp only [Covers, not_and, not_lt] at h
        have := h hle
        omega
      rw [List.getElem?_eq_none hlen, Option.getD_none]
    · rfl

lemma apply_getElem?_of_covers (w : Write α) (block : List α) (i : ℕ) (h : w.Covers i)
    (hi : i < block.length) :
    (w.apply block)[i]? = w.cells[(i - w.offset).toNat]? := by
  obtain ⟨hle, hlt⟩ := h
  have hlen : (i - w.offset).toNat < w.cells.length := by omega
  simp only [apply, List.getElem?_map, List.getElem?_zipIdx, Nat.zero_add,
    List.getElem?_eq_getElem hi, Option.map_some, if_pos hle, List.getElem?_eq_getElem hlen,
    Option.getD_some]

/-- A store that lies in the block replaces exactly its cells. -/
lemma apply_eq_append (n : ℕ) (cells block : List α) (h : n + cells.length ≤ block.length) :
    (Write.mk (n : ℤ) cells).apply block
      = block.take n ++ (cells ++ block.drop (n + cells.length)) := by
  apply List.ext_getElem?
  intro i
  have hlen : (block.take n).length = n := by
    rw [List.length_take]
    omega
  by_cases hc : (Write.mk (n : ℤ) cells).Covers i
  · have hi : n ≤ i ∧ i < n + cells.length := by
      simp only [Covers] at hc
      omega
    rw [apply_getElem?_of_covers _ _ _ hc (by omega), List.getElem?_append_right (by omega), hlen,
      List.getElem?_append_left (by omega)]
    congr 1
    simp only
    omega
  · rw [apply_getElem?_of_not_covers _ _ _ hc]
    simp only [Covers, not_and, not_lt] at hc
    by_cases hi : i < n
    · rw [List.getElem?_append_left (by omega), List.getElem?_take_of_lt hi]
    · have hge : n + cells.length ≤ i := by
        have := hc (by omega)
        omega
      rw [List.getElem?_append_right (by omega), hlen, List.getElem?_append_right (by omega),
        List.getElem?_drop]
      congr 1
      omega

@[simp] lemma apply_nil (offset : ℤ) (block : List α) : (Write.mk offset []).apply block = block := by
  apply List.ext_getElem?
  intro i
  refine apply_getElem?_of_not_covers _ _ _ ?_
  simp only [Covers, List.length_nil]
  omega

/-- Storing the first cell by itself. -/
lemma apply_cons (n : ℕ) (a : α) (cells block : List α) :
    (Write.mk (n : ℤ) (a :: cells)).apply block =
      (Write.mk ((n + 1 : ℕ) : ℤ) cells).apply (block.set n a) := by
  apply List.ext_getElem?
  intro i
  by_cases hlt : i < block.length
  · rcases lt_trichotomy i n with hi | rfl | hi
    · rw [apply_getElem?_of_not_covers, apply_getElem?_of_not_covers,
        List.getElem?_set_ne hi.ne']
      · simp only [Covers]
        omega
      · simp only [Covers]
        omega
    · have hc : (Write.mk (i : ℤ) (a :: cells)).Covers i := by
        simp only [Covers, List.length_cons]
        omega
      rw [apply_getElem?_of_covers _ _ _ hc hlt, apply_getElem?_of_not_covers,
        List.getElem?_set_self hlt]
      · simp
      · simp only [Covers]
        omega
    · by_cases hc : (Write.mk ((n + 1 : ℕ) : ℤ) cells).Covers i
      · have hc' : (Write.mk (n : ℤ) (a :: cells)).Covers i := by
          simp only [Covers, List.length_cons] at hc ⊢
          omega
        rw [apply_getElem?_of_covers _ _ _ hc' hlt,
          apply_getElem?_of_covers _ _ _ hc (by rwa [List.length_set])]
        have hindex : ((i : ℤ) - n).toNat = ((i : ℤ) - (n + 1 : ℕ)).toNat + 1 := by omega
        simp only [hindex, List.getElem?_cons_succ]
      · have hc' : ¬ (Write.mk (n : ℤ) (a :: cells)).Covers i := by
          simp only [Covers, List.length_cons] at hc ⊢
          omega
        rw [apply_getElem?_of_not_covers _ _ _ hc', apply_getElem?_of_not_covers _ _ _ hc,
          List.getElem?_set_ne hi.ne]
  · rw [List.getElem?_eq_none (by simpa using hlt), List.getElem?_eq_none (by simpa using hlt)]

lemma Disjoint.symm {w w' : Write α} (h : w.Disjoint w') : w'.Disjoint w := Or.symm h

lemma not_covers_of_disjoint {w w' : Write α} (h : w.Disjoint w') {i : ℤ} (hi : w.Covers i) :
    ¬ w'.Covers i := by
  simp only [Disjoint, Covers, stop] at *
  omega

end Write

/-- `n` cells of a block, from an offset on. -/
def slice (block : List α) (offset n : ℕ) : List α := (block.drop offset).take n

/-- The stores of a list, made one after the other. -/
def applyAll (ws : List (Write α)) (block : List α) : List α :=
  ws.foldl (fun b w => w.apply b) block

@[simp] lemma applyAll_nil (block : List α) : applyAll [] block = block := rfl

@[simp] lemma applyAll_cons (w : Write α) (ws : List (Write α)) (block : List α) :
    applyAll (w :: ws) block = applyAll ws (w.apply block) := rfl

lemma applyAll_append (ws ws' : List (Write α)) (block : List α) :
    applyAll (ws ++ ws') block = applyAll ws' (applyAll ws block) := by
  simp [applyAll]

@[simp] lemma length_applyAll (ws : List (Write α)) (block : List α) :
    (applyAll ws block).length = block.length := by
  induction ws generalizing block with
  | nil => rfl
  | cons w ws ih => simp [ih]

/-- An offset that no store touches keeps its cell. -/
lemma applyAll_getElem?_of_not_covers (ws : List (Write α)) (block : List α) (i : ℕ)
    (h : ∀ w ∈ ws, ¬ w.Covers i) : (applyAll ws block)[i]? = block[i]? := by
  induction ws generalizing block with
  | nil => rfl
  | cons w ws ih =>
    rw [applyAll_cons, ih _ fun w' hw' => h w' (List.mem_cons_of_mem _ hw'),
      w.apply_getElem?_of_not_covers _ _ (h w List.mem_cons_self)]

/-- Of some stores, the last that touches the offset `i` stores the cell `a` there. -/
def LastStored (ws : List (Write α)) (i : ℕ) (a : α) : Prop :=
  ∃ before w behind, ws = before ++ w :: behind ∧ w.Covers i ∧ (∀ v ∈ behind, ¬ v.Covers i) ∧
    w.cells[((i : ℤ) - w.offset).toNat]? = some a

lemma exists_lastStored {ws : List (Write α)} {i : ℕ} (h : ∃ w ∈ ws, w.Covers i) :
    ∃ a, LastStored ws i a := by
  induction ws with
  | nil =>
    obtain ⟨w, hw, -⟩ := h
    cases hw
  | cons w ws ih =>
    by_cases hrest : ∃ v ∈ ws, v.Covers i
    · obtain ⟨a, before, v, behind, rfl, hv, hbehind, hcell⟩ := ih hrest
      exact ⟨a, w :: before, v, behind, rfl, hv, hbehind, hcell⟩
    · have hnone : ∀ v ∈ ws, ¬ v.Covers i := fun v hv hc => hrest ⟨v, hv, hc⟩
      obtain ⟨v, hv, hcovers⟩ := h
      have hw : w.Covers i := by
        rcases List.mem_cons.mp hv with rfl | hmem
        · exact hcovers
        · exact absurd hcovers (hnone v hmem)
      have hlt : ((i : ℤ) - w.offset).toNat < w.cells.length := by
        obtain ⟨hle, hlt⟩ := hw
        omega
      exact ⟨_, [], w, ws, rfl, hw, hnone, List.getElem?_eq_getElem hlt⟩

/-- The last store is what is found. -/
lemma LastStored.getElem? {ws : List (Write α)} {i : ℕ} {a : α} (h : LastStored ws i a)
    {block : List α} (hi : i < block.length) : (applyAll ws block)[i]? = some a := by
  obtain ⟨before, w, behind, rfl, hw, hbehind, hcell⟩ := h
  rw [applyAll_append, applyAll_cons, applyAll_getElem?_of_not_covers _ _ i hbehind,
    Write.apply_getElem?_of_covers _ _ i hw (by rwa [length_applyAll]), hcell]

/-- What is found in the end is what was stored there last, or what was there before. -/
lemma applyAll_getElem?_eq_some_iff {ws : List (Write α)} {i : ℕ} {a : α} {block : List α}
    (hi : i < block.length) : (applyAll ws block)[i]? = some a ↔
      LastStored ws i a ∨ (∀ w ∈ ws, ¬ w.Covers i) ∧ block[i]? = some a := by
  by_cases hcovers : ∃ w ∈ ws, w.Covers i
  · obtain ⟨b, hb⟩ := exists_lastStored hcovers
    obtain ⟨w, hw, hc⟩ := hcovers
    rw [hb.getElem? hi, Option.some.injEq]
    constructor
    · rintro rfl
      exact Or.inl hb
    · rintro (ha | ⟨hnone, -⟩)
      · exact Option.some.inj ((hb.getElem? hi).symm.trans (ha.getElem? hi))
      · exact absurd hc (hnone w hw)
  · have hnone : ∀ w ∈ ws, ¬ w.Covers i := fun w hw hc => hcovers ⟨w, hw, hc⟩
    rw [applyAll_getElem?_of_not_covers ws block i hnone]
    constructor
    · exact fun ha => Or.inr ⟨hnone, ha⟩
    · rintro (⟨before, w, behind, rfl, hw, -⟩ | ⟨-, ha⟩)
      · exact absurd hw (hnone w (List.mem_append_right _ List.mem_cons_self))
      · exact ha

/-- Blocks that agree at an offset agree there after the same stores. -/
lemma applyAll_getElem?_congr {ws : List (Write α)} {i : ℕ} {block block' : List α}
    (hlength : block.length = block'.length) (h : block[i]? = block'[i]?) :
    (applyAll ws block)[i]? = (applyAll ws block')[i]? := by
  by_cases hi : i < block.length
  · apply Option.ext
    intro a
    rw [applyAll_getElem?_eq_some_iff hi, applyAll_getElem?_eq_some_iff (hlength ▸ hi), h]
  · rw [List.getElem?_eq_none (by simpa using hi), List.getElem?_eq_none]
    simpa [← hlength] using hi

/-- Where the stores are pairwise disjoint, each of them can be read back in the end. -/
lemma applyAll_getElem?_of_mem {ws : List (Write α)} (hd : ws.Pairwise Write.Disjoint)
    (block : List α) {w : Write α} (hw : w ∈ ws) {i : ℕ} (hi : w.Covers i)
    (hlt : i < block.length) :
    (applyAll ws block)[i]? = w.cells[(i - w.offset).toNat]? := by
  induction ws generalizing block with
  | nil => exact absurd hw List.not_mem_nil
  | cons v ws ih =>
    rw [List.pairwise_cons] at hd
    rw [applyAll_cons]
    rcases List.mem_cons.mp hw with rfl | hmem
    · rw [applyAll_getElem?_of_not_covers, w.apply_getElem?_of_covers _ _ hi hlt]
      exact fun w' hw' => Write.not_covers_of_disjoint (hd.1 w' hw') hi
    · exact ih hd.2 _ hmem (by simpa using hlt)

/-- The cells of a store that lies in the block, read back as a slice. -/
lemma slice_applyAll_of_mem {ws : List (Write α)} (hd : ws.Pairwise Write.Disjoint)
    (block : List α) {w : Write α} (hw : w ∈ ws) {offset : ℕ} (ho : w.offset = offset)
    (hstop : offset + w.cells.length ≤ block.length) :
    slice (applyAll ws block) offset w.cells.length = w.cells := by
  apply List.ext_getElem?
  intro k
  by_cases hk : k < w.cells.length
  · have hc : w.Covers (offset + k : ℕ) := by
      simp only [Write.Covers, ho]
      omega
    rw [slice, List.getElem?_take_of_lt hk, List.getElem?_drop,
      applyAll_getElem?_of_mem hd block hw hc (by omega), ho]
    congr 1
    omega
  · rw [List.getElem?_eq_none (by simp only [slice, List.length_take]; omega),
      List.getElem?_eq_none (by omega)]

/-- Where a store lies, two blocks are alike after the same stores. -/
lemma slice_applyAll_congr {ws : List (Write α)} {w : Write α} (hw : w ∈ ws) {offset : ℕ}
    (ho : w.offset = offset) {block block' : List α}
    (hstop : offset + w.cells.length ≤ block.length)
    (hstop' : offset + w.cells.length ≤ block'.length) :
    slice (applyAll ws block) offset w.cells.length =
      slice (applyAll ws block') offset w.cells.length := by
  apply List.ext_getElem?
  intro k
  simp only [slice]
  by_cases hk : k < w.cells.length
  · have hc : w.Covers (offset + k : ℕ) := by
      simp only [Write.Covers, ho]
      omega
    obtain ⟨a, ha⟩ := exists_lastStored ⟨w, hw, hc⟩
    rw [List.getElem?_take_of_lt hk, List.getElem?_take_of_lt hk, List.getElem?_drop,
      List.getElem?_drop, ha.getElem? (by omega), ha.getElem? (by omega)]
  · rw [List.getElem?_take_eq_none (by omega), List.getElem?_take_eq_none (by omega)]

/-- A store that lies in the block is found at its offset. -/
lemma drop_applyAll_of_mem {ws : List (Write α)} (hd : ws.Pairwise Write.Disjoint)
    (block : List α) {w : Write α} (hw : w ∈ ws) {offset : ℕ} (ho : w.offset = offset)
    (hstop : offset + w.cells.length ≤ block.length) :
    ∃ rest, (applyAll ws block).drop offset = w.cells ++ rest := by
  have hslice := slice_applyAll_of_mem hd block hw ho hstop
  refine ⟨((applyAll ws block).drop offset).drop w.cells.length, ?_⟩
  conv_lhs => rw [← List.take_append_drop w.cells.length ((applyAll ws block).drop offset)]
  rw [← slice, hslice]

/-- Every offset a store of the list touches lies in `[0, limit)`. -/
def StaysBelow (ws : List (Write α)) (limit : ℕ) : Prop :=
  ∀ w ∈ ws, ∀ i : ℤ, w.Covers i → 0 ≤ i ∧ i < limit

lemma staysBelow_nil (limit : ℕ) : StaysBelow ([] : List (Write α)) limit := by
  simp [StaysBelow]

@[simp] lemma staysBelow_cons (w : Write α) (ws : List (Write α)) (limit : ℕ) :
    StaysBelow (w :: ws) limit ↔
      (w.cells ≠ [] → 0 ≤ w.offset ∧ w.stop ≤ limit) ∧ StaysBelow ws limit := by
  simp only [StaysBelow, List.mem_cons, forall_eq_or_imp]
  refine and_congr_left fun _ => ⟨fun h hne => ?_, fun h i hi => ?_⟩
  · have hpos : 0 < w.cells.length := List.length_pos_iff.mpr hne
    have hfirst := h w.offset ⟨le_refl _, by omega⟩
    have hlast := h (w.offset + w.cells.length - 1) ⟨by omega, by omega⟩
    exact ⟨hfirst.1, by simp only [Write.stop]; omega⟩
  · obtain ⟨hle, hlt⟩ := hi
    have hne : w.cells ≠ [] := by
      rintro hnil
      rw [hnil, List.length_nil] at hlt
      omega
    have := h hne
    simp only [Write.stop] at this
    omega

lemma staysBelow_append (ws ws' : List (Write α)) (limit : ℕ) :
    StaysBelow (ws ++ ws') limit ↔ StaysBelow ws limit ∧ StaysBelow ws' limit := by
  simp only [StaysBelow, List.mem_append]
  exact ⟨fun h => ⟨fun w hw => h w (.inl hw), fun w hw => h w (.inr hw)⟩,
    fun h w hw => hw.elim (h.1 w) (h.2 w)⟩

lemma StaysBelow.mono {ws : List (Write α)} {m n : ℕ} (h : StaysBelow ws m) (hle : m ≤ n) :
    StaysBelow ws n := by
  intro w hw i hi
  have := h w hw i hi
  omega

end Memory
