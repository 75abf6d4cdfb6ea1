import CLogging.Lib.Printf

/-!
# Reading back what was printed

Numbers are read back from the characters that `%u` and `%d` print, bytes from the number that they
stand for, and a text from what `snprintf` stores of it.
-/

namespace C

/-! ### Numbers -/

/-- Read what `%u` prints. -/
def readUnsigned (s : List UInt8) : ℕ := Nat.ofDigitChars 10 (s.map fun b => Char.ofNat b.toNat) 0

/-- Read what `%d` prints. -/
def readDecimal (s : List UInt8) : ℤ :=
  if s.head? = some 45 then -(readUnsigned s.tail) else readUnsigned s

lemma toNat_of_mem_toDigits {n : ℕ} {c : Char} (h : c ∈ Nat.toDigits 10 n) :
    48 ≤ c.toNat ∧ c.toNat ≤ 57 := by
  have hdigit := Nat.isDigit_of_mem_toDigits (by decide) (by decide) h
  simp only [Char.isDigit, Bool.and_eq_true, decide_eq_true_eq, UInt32.le_iff_toNat_le] at hdigit
  exact hdigit

lemma readUnsigned_unsignedDecimal (n : ℕ) : readUnsigned (unsignedDecimal n) = n := by
  have hchars : (unsignedDecimal n).map (fun b => Char.ofNat b.toNat) = Nat.toDigits 10 n := by
    rw [unsignedDecimal, List.map_map]
    conv_rhs => rw [← List.map_id (Nat.toDigits 10 n)]
    refine List.map_congr_left fun c hc => ?_
    have hrange := toNat_of_mem_toDigits hc
    rw [Function.comp_apply, UInt8.toNat_ofNat', Nat.mod_eq_of_lt (by omega), Char.ofNat_toNat,
      id_eq]
  rw [readUnsigned, hchars, Nat.ofDigitChars_ten_toDigits]

lemma readDecimal_decimal (z : ℤ) : readDecimal (decimal z) = z := by
  rw [decimal]
  split_ifs with hneg
  · rw [readDecimal, if_pos List.head?_cons, List.tail_cons, readUnsigned_unsignedDecimal]
    omega
  · have hhead : (unsignedDecimal z.natAbs).head? ≠ some 45 := by
      intro hhead
      obtain ⟨c, hc, hminus⟩ := List.mem_map.mp (List.mem_of_mem_head? hhead)
      have hrange := toNat_of_mem_toDigits hc
      have hnat := congrArg UInt8.toNat hminus
      rw [UInt8.toNat_ofNat', Nat.mod_eq_of_lt (by omega)] at hnat
      simp only [UInt8.reduceToNat] at hnat
      omega
    rw [readDecimal, if_neg hhead, readUnsigned_unsignedDecimal]
    omega

/-! ### Bytes -/

lemma leBytes_leNat (bytes : List UInt8) : leBytes bytes.length (leNat bytes) = bytes := by
  induction bytes with
  | nil => rfl
  | cons b bytes ih =>
    have hb := b.toNat_lt
    have hmod : UInt8.ofNat (b.toNat + 256 * leNat bytes) = b := by
      rw [← UInt8.toNat_inj, UInt8.toNat_ofNat']
      omega
    have hdiv : (b.toNat + 256 * leNat bytes) / 256 = leNat bytes := by omega
    rw [List.length_cons, leNat, leBytes, hmod, hdiv, ih]

end C

namespace Printf

/-- The text that a writer prints if it is given enough room. -/
def Writer.text (w : Writer) : List UInt8 := (w ((w 0).1.toNat + 1)).2.take (w 0).1.toNat

lemma text_snprintf (t : List UInt8) : Writer.text (snprintf t) = t := by
  simp [Writer.text, snprintf, stored]

end Printf
