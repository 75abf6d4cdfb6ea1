import Mathlib.Data.List.Basic
import Mathlib.Tactic

/-!
# Tilings

Regions of a block of memory that are pairwise disjoint and together cover it.
-/

namespace Tiling

/-- The offsets `[start, start + size)`. -/
structure Region where
  start : ℕ
  size  : ℕ
  deriving DecidableEq

namespace Region

def Contains (r : Region) (i : ℕ) : Prop := r.start ≤ i ∧ i < r.start + r.size

def Disjoint (r s : Region) : Prop := r.start + r.size ≤ s.start ∨ s.start + s.size ≤ r.start

/-- The region moved up by `k`. -/
def shift (k : ℕ) (r : Region) : Region := ⟨r.start + k, r.size⟩

lemma Disjoint.symm {r s : Region} (h : r.Disjoint s) : s.Disjoint r := Or.symm h

lemma shift_disjoint_shift (k : ℕ) {r s : Region} (h : r.Disjoint s) :
    (r.shift k).Disjoint (s.shift k) := by
  simp only [Disjoint, shift] at *
  omega

lemma shift_contains {k i : ℕ} {r : Region} (h : r.Contains i) :
    (r.shift k).Contains (i + k) := by
  simp only [Contains, shift] at *
  omega

end Region

/-- The regions are pairwise disjoint, lie in `[0, n)` and cover it. -/
structure Tiles (rs : List Region) (n : ℕ) : Prop where
  disjoint : rs.Pairwise Region.Disjoint
  within   : ∀ r ∈ rs, r.start + r.size ≤ n
  covered  : ∀ i < n, ∃ r ∈ rs, r.Contains i

lemma tiles_nil : Tiles [] 0 where
  disjoint := List.Pairwise.nil
  within _ hr := absurd hr List.not_mem_nil
  covered i hi := absurd hi (Nat.not_lt_zero i)

lemma tiles_singleton (n : ℕ) : Tiles [⟨0, n⟩] n where
  disjoint := List.pairwise_singleton _ _
  within r hr := by
    obtain rfl := List.mem_singleton.mp hr
    exact (Nat.zero_add n).le
  covered i hi := ⟨⟨0, n⟩, List.mem_singleton_self _, Nat.zero_le i, by simpa using hi⟩

/-- A tiling moved up behind another. -/
theorem Tiles.append {rs ss : List Region} {m n : ℕ} (hr : Tiles rs m) (hs : Tiles ss n) :
    Tiles (rs ++ ss.map (Region.shift m)) (m + n) where
  disjoint := by
    refine List.pairwise_append.mpr ⟨hr.disjoint, ?_, ?_⟩
    · exact List.pairwise_map.mpr (hs.disjoint.imp (Region.shift_disjoint_shift m))
    · intro r hmem s hs'
      obtain ⟨s, -, rfl⟩ := List.mem_map.mp hs'
      exact Or.inl ((hr.within r hmem).trans (Nat.le_add_left m s.start))
  within r hmem := by
    rcases List.mem_append.mp hmem with h | h
    · exact (hr.within r h).trans (Nat.le_add_right m n)
    · obtain ⟨s, hmem', rfl⟩ := List.mem_map.mp h
      have hwithin := hs.within s hmem'
      simp only [Region.shift]
      omega
  covered i hi := by
    rcases Nat.lt_or_ge i m with hlt | hge
    · obtain ⟨r, hmem, hc⟩ := hr.covered i hlt
      exact ⟨r, List.mem_append_left _ hmem, hc⟩
    · obtain ⟨s, hmem, hc⟩ := hs.covered (i - m) (by omega)
      refine ⟨s.shift m, List.mem_append_right _ (List.mem_map_of_mem hmem), ?_⟩
      have := Region.shift_contains (k := m) hc
      rwa [Nat.sub_add_cancel hge] at this

/-- Regions of the given sizes, one behind the other. -/
def consecutive : ℕ → List ℕ → List Region
  | _, []          => []
  | start, n :: ns => ⟨start, n⟩ :: consecutive (start + n) ns

lemma consecutive_eq_map_shift (start : ℕ) (ns : List ℕ) :
    consecutive start ns = (consecutive 0 ns).map (Region.shift start) := by
  induction ns generalizing start with
  | nil => rfl
  | cons n ns ih =>
    rw [consecutive, consecutive, ih (start + n), ih (0 + n), List.map_cons, List.map_map]
    refine congrArg₂ List.cons ?_ (List.map_congr_left fun r _ => ?_)
    · simp only [Region.shift, Nat.zero_add]
    · simp only [Function.comp_apply, Region.shift, Region.mk.injEq, and_true]
      omega

lemma tiles_consecutive (ns : List ℕ) : Tiles (consecutive 0 ns) ns.sum := by
  induction ns with
  | nil => exact tiles_nil
  | cons n ns ih =>
    have h := (tiles_singleton n).append ih
    rw [← consecutive_eq_map_shift] at h
    rw [consecutive, Nat.zero_add, List.sum_cons]
    exact h

/-- A tiling extended by consecutive regions. -/
theorem Tiles.append_consecutive {rs : List Region} {m : ℕ} (h : Tiles rs m) (ns : List ℕ) :
    Tiles (rs ++ consecutive m ns) (m + ns.sum) := by
  rw [consecutive_eq_map_shift]
  exact h.append (tiles_consecutive ns)

end Tiling
