import Mathlib.Data.Nat.Bitwise
import Mathlib.Data.Nat.Size
import Mathlib.Tactic

/-!
# Filling the bits below the highest

A number or-ed with its own shifts by 1, 2, 4 and so on has all bits set below its highest one. What
is left of a number under such a mask is its remainder.
-/

namespace Bits

/-- The or with the shifts by `2 ^ 0`, …, `2 ^ (k - 1)`, one after the other. -/
def fill : ℕ → ℕ → ℕ
  | 0, x     => x
  | k + 1, x => fill k x ||| fill k x >>> 2 ^ k

/-- A bit is set if it was set there or less than `2 ^ k` places above. -/
lemma testBit_fill (k x i : ℕ) :
    (fill k x).testBit i = true ↔ ∃ d < 2 ^ k, x.testBit (i + d) = true := by
  induction k generalizing i with
  | zero =>
    rw [fill, pow_zero]
    constructor
    · exact fun h => ⟨0, Nat.zero_lt_one, h⟩
    · rintro ⟨d, hd, h⟩
      rwa [Nat.lt_one_iff.mp hd] at h
  | succ k ih =>
    rw [fill, Nat.testBit_or, Nat.testBit_shiftRight, Bool.or_eq_true, ih, ih, pow_succ]
    constructor
    · rintro (⟨d, hd, h⟩ | ⟨d, hd, h⟩)
      · exact ⟨d, by omega, h⟩
      · refine ⟨2 ^ k + d, by omega, ?_⟩
        rwa [← Nat.add_assoc, Nat.add_comm i]
    · rintro ⟨d, hd, h⟩
      rcases Nat.lt_or_ge d (2 ^ k) with hlt | hge
      · exact Or.inl ⟨d, hlt, h⟩
      · refine Or.inr ⟨d - 2 ^ k, by omega, ?_⟩
        have hsum : 2 ^ k + i + (d - 2 ^ k) = i + d := by omega
        rwa [hsum]

lemma lt_size_of_testBit {x i : ℕ} (h : x.testBit i = true) : i < x.size :=
  Nat.lt_size.mpr (Nat.ge_two_pow_of_testBit h)

/-- The shifts fill all bits below the highest, if they reach that far. -/
theorem fill_eq {k x : ℕ} (h : x < 2 ^ 2 ^ k) : fill k x = 2 ^ x.size - 1 := by
  apply Nat.eq_of_testBit_eq
  intro i
  rw [Nat.testBit_two_pow_sub_one, Bool.eq_iff_iff, testBit_fill, decide_eq_true_eq]
  constructor
  · rintro ⟨d, -, hbit⟩
    exact (Nat.le_add_right i d).trans_lt (lt_size_of_testBit hbit)
  · intro hi
    obtain ⟨j, hj, hbit⟩ := Nat.exists_ge_and_testBit_of_ge_two_pow (Nat.lt_size.mp hi)
    have hlt : j < 2 ^ k := (lt_size_of_testBit hbit).trans_le (Nat.size_le.mpr h)
    refine ⟨j - i, by omega, ?_⟩
    rwa [Nat.add_sub_cancel' hj]

/-- Numbers with the same lowest bits have the same remainder. -/
lemma mod_two_pow_eq_of_testBit {n x y : ℕ} (h : ∀ i < n, x.testBit i = y.testBit i) :
    x % 2 ^ n = y % 2 ^ n := by
  apply Nat.eq_of_testBit_eq
  intro i
  rw [Nat.testBit_mod_two_pow, Nat.testBit_mod_two_pow]
  by_cases hi : i < n
  · rw [h i hi]
  · simp only [hi, decide_false, Bool.false_and]

end Bits
