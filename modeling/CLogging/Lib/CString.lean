import Mathlib.Data.List.TakeWhile
import Mathlib.Tactic

/-!
# C integers and strings

Conversions to the fixed-width integer types, little-endian bytes, and NUL-terminated strings.
-/

namespace C

/-- Conversion to `uint8_t`. -/
def u8 (x : ℤ) : UInt8 := UInt8.ofNat (x % 2 ^ 8).toNat

/-- Conversion to `uint16_t`. -/
def u16 (x : ℤ) : ℕ := (x % 2 ^ 16).toNat

/-- Conversion to `uint32_t`. -/
def u32 (x : ℤ) : ℕ := (x % 2 ^ 32).toNat

/-- Conversion to a 32-bit `int`. -/
def int (x : ℤ) : ℤ := Int.bmod x (2 ^ 32)

lemma u32_lt (x : ℤ) : u32 x < 2 ^ 32 := by
  simp only [u32]
  omega

lemma u32_natCast {n : ℕ} (h : n < 2 ^ 32) : u32 n = n := by
  simp only [u32]
  omega

lemma natCast_u32 (x : ℤ) : (u32 x : ℤ) = x - 2 ^ 32 * (x / 2 ^ 32) := by
  simp only [u32]
  omega

lemma u16_natCast {n : ℕ} (h : n < 2 ^ 16) : u16 n = n := by
  simp only [u16]
  omega

lemma int_natCast_le (n : ℕ) : int n ≤ n := by
  simp only [int, Int.bmod_def]
  split_ifs <;> omega

lemma int_natCast {n : ℕ} (h : n < 2 ^ 31) : int n = n := by
  simp only [int, Int.bmod_def]
  split_ifs <;> omega

lemma toNat_u8_natCast {n : ℕ} (h : n < 2 ^ 8) : (u8 n).toNat = n := by
  have : ((n : ℤ) % 2 ^ 8).toNat = n := by omega
  simp only [u8, this, UInt8.toNat_ofNat']
  omega

/-- The number whose little-endian bytes are given. -/
def leNat : List UInt8 → ℕ
  | []      => 0
  | b :: bs => b.toNat + 256 * leNat bs

/-- The `n` little-endian bytes of a number. -/
def leBytes : ℕ → ℕ → List UInt8
  | 0, _     => []
  | n + 1, x => UInt8.ofNat x :: leBytes n (x / 256)

@[simp] lemma length_leBytes (n x : ℕ) : (leBytes n x).length = n := by
  induction n generalizing x with
  | zero => rfl
  | succ n ih => simp [leBytes, ih]

lemma leNat_leBytes (n x : ℕ) (h : x < 256 ^ n) : leNat (leBytes n x) = x := by
  induction n generalizing x with
  | zero =>
    rw [pow_zero] at h
    simp only [leBytes, leNat]
    omega
  | succ n ih =>
    have hdiv : x / 256 < 256 ^ n := by
      rw [pow_succ] at h
      omega
    simp only [leBytes, leNat, ih _ hdiv, UInt8.toNat_ofNat']
    omega

lemma leNat_lt {bytes : List UInt8} {n : ℕ} (h : bytes.length ≤ n) : leNat bytes < 256 ^ n := by
  induction bytes generalizing n with
  | nil => exact Nat.pow_pos (by decide)
  | cons b bytes ih =>
    obtain ⟨m, rfl⟩ : ∃ m, n = m + 1 := ⟨n - 1, by simp at h; omega⟩
    have hlt := ih (n := m) (by simpa using h)
    have hb := b.toNat_lt
    rw [leNat, pow_succ]
    omega

/-- The bytes of an ASCII literal. -/
def ascii (s : String) : List UInt8 := s.toList.map fun c => UInt8.ofNat c.toNat

/-- The characters `%u` prints. -/
def unsignedDecimal (n : ℕ) : List UInt8 := (Nat.toDigits 10 n).map fun c => UInt8.ofNat c.toNat

/-- The characters `%d` prints. -/
def decimal (z : ℤ) : List UInt8 :=
  if z < 0 then 45 :: unsignedDecimal z.natAbs else unsignedDecimal z.natAbs

lemma zero_notMem_unsignedDecimal (n : ℕ) : 0 ∉ unsignedDecimal n := by
  intro h
  obtain ⟨c, hc, hzero⟩ := List.mem_map.mp h
  have hdigit := Nat.isDigit_of_mem_toDigits (by decide) (by decide) hc
  have hrange : 48 ≤ c.toNat ∧ c.toNat ≤ 57 := by
    simp only [Char.isDigit, Bool.and_eq_true, decide_eq_true_eq, UInt32.le_iff_toNat_le] at hdigit
    exact hdigit
  have := congrArg UInt8.toNat hzero
  simp only [UInt8.toNat_ofNat', UInt8.toNat_zero] at this
  omega

lemma zero_notMem_decimal (z : ℤ) : 0 ∉ decimal z := by
  simp only [decimal]
  split_ifs
  · simpa using zero_notMem_unsignedDecimal z.natAbs
  · exact zero_notMem_unsignedDecimal z.natAbs

/-- The characters of the C string that starts a block of memory. -/
def cstr (mem : List UInt8) : List UInt8 := mem.takeWhile (· ≠ 0)

lemma zero_notMem_cstr (mem : List UInt8) : 0 ∉ cstr mem := by
  intro h
  simpa using List.mem_takeWhile_imp h

lemma cstr_append_zero_cons (s rest : List UInt8) : cstr (s ++ 0 :: rest) = cstr s := by
  induction s with
  | nil => rfl
  | cons b s ih =>
    by_cases hb : b = 0
    · simp [cstr, hb]
    · simpa [cstr, hb] using ih

lemma cstr_take (n : ℕ) (s : List UInt8) : cstr (s.take n) = (cstr s).take n :=
  List.take_takeWhile.symm

lemma cstr_append_of_notMem {s : List UInt8} (h : 0 ∉ s) (rest : List UInt8) :
    cstr (s ++ rest) = s ++ cstr rest := by
  refine List.takeWhile_append_of_pos fun b hb => ?_
  simp only [ne_eq, decide_eq_true_eq]
  rintro rfl
  exact h hb

lemma cstr_append_zero (s rest : List UInt8) (h : 0 ∉ s) : cstr (s ++ 0 :: rest) = s := by
  rw [cstr_append_of_notMem h]
  exact List.append_nil s

lemma cstr_eq_self {s : List UInt8} (h : 0 ∉ s) : cstr s = s := by
  have hnil : cstr [] = [] := rfl
  have happend := cstr_append_of_notMem h []
  rwa [hnil, List.append_nil] at happend

/-- What lies behind a block does not matter to the string in it exactly if it ends there. -/
lemma zero_mem_iff_cstr {mem : List UInt8} :
    0 ∈ mem ↔ ∀ rest, cstr (mem ++ rest) = cstr mem := by
  constructor
  · intro h rest
    obtain ⟨s, t, rfl⟩ := List.append_of_mem h
    rw [List.append_assoc, List.cons_append, cstr_append_zero_cons, cstr_append_zero_cons]
  · intro h
    by_contra hzero
    have hone := congrArg List.length (h [1])
    rw [cstr_append_of_notMem hzero, cstr_eq_self hzero] at hone
    simp [cstr] at hone

lemma cstr_take_append {s rest : List UInt8} (h : 0 ∉ s) {n : ℕ}
    (hends : n ≤ s.length ∨ rest.head? = some 0) : cstr ((s ++ rest).take n) = s.take n := by
  by_cases hn : n ≤ s.length
  · rw [List.take_append_of_le_length hn]
    exact cstr_eq_self fun hmem => h (List.mem_of_mem_take hmem)
  · obtain ⟨rest, rfl⟩ := List.head?_eq_some_iff.mp (hends.resolve_left hn)
    obtain ⟨m, hm⟩ := Nat.exists_eq_add_of_lt (not_le.mp hn)
    rw [hm, Nat.add_assoc, List.take_length_add_append, List.take_succ_cons, cstr_append_zero _ _ h,
      List.take_of_length_le (Nat.le_add_right _ _)]

/-- The text that starts a block ends with some bytes exactly if the block does, or a terminator is
behind them. -/
lemma cstr_take_prefix_iff {s rest : List UInt8} (h : 0 ∉ s) {n : ℕ}
    (hn : n < (s ++ rest).length) :
    cstr ((s ++ rest).take n) <+: s ↔ n ≤ s.length ∨ rest.head? = some 0 := by
  constructor
  · -- a byte that is no terminator behind the text would be read too
    intro hprefix
    by_contra hends
    rw [not_or, not_le] at hends
    obtain ⟨hlt, hhead⟩ := hends
    match rest with
    | [] =>
      rw [List.append_nil] at hn
      exact absurd hlt hn.not_gt
    | b :: rest =>
      obtain ⟨m, hm⟩ := Nat.exists_eq_add_of_lt hlt
      have hb : b ≠ 0 := fun hzero => hhead (congrArg some hzero)
      have hcstr : cstr (b :: rest.take m) = b :: cstr (rest.take m) :=
        List.takeWhile_cons_of_pos (by simpa using hb)
      rw [hm, Nat.add_assoc, List.take_length_add_append, List.take_succ_cons,
        cstr_append_of_notMem h, hcstr] at hprefix
      have hlength := hprefix.length_le
      rw [List.length_append, List.length_cons] at hlength
      omega
  · intro hends
    rw [cstr_take_append h hends]
    exact List.take_prefix n s

/-- `strrchr`: the index of the last occurrence of a character. -/
def strrchr (b : UInt8) : List UInt8 → Option ℕ
  | []     => none
  | a :: s =>
    match strrchr b s with
    | some i => some (i + 1)
    | none   => if a = b then some 0 else none

lemma strrchr_lt {b : UInt8} {s : List UInt8} {i : ℕ} (h : strrchr b s = some i) :
    i < s.length := by
  induction s generalizing i with
  | nil => cases h
  | cons a s ih =>
    rw [strrchr] at h
    match hrest : strrchr b s with
    | some j =>
      rw [hrest] at h
      obtain rfl := Option.some.inj h
      exact Nat.succ_lt_succ (ih hrest)
    | none =>
      rw [hrest] at h
      simp only at h
      split_ifs at h
      obtain rfl := Option.some.inj h
      exact Nat.succ_pos _

lemma strrchr_eq_none {b : UInt8} {s : List UInt8} (h : b ∉ s) : strrchr b s = none := by
  induction s with
  | nil => rfl
  | cons a s ih =>
    rw [List.mem_cons, not_or] at h
    rw [strrchr, ih h.2]
    exact if_neg fun heq => h.1 heq.symm

lemma strrchr_append_cons {b : UInt8} {t : List UInt8} (s : List UInt8) (h : b ∉ t) :
    strrchr b (s ++ b :: t) = some s.length := by
  induction s with
  | nil =>
    rw [List.nil_append, strrchr, strrchr_eq_none h]
    exact if_pos rfl
  | cons a s ih => rw [List.cons_append, strrchr, ih, List.length_cons]

/-- A string without its terminator: a C string literal or a stringized token. -/
structure CString where
  bytes : List UInt8
  noNul : 0 ∉ bytes
  deriving DecidableEq

/-- The string as it lies in memory. -/
def CString.terminated (s : CString) : List UInt8 := s.bytes ++ [0]

@[simp] lemma CString.length_terminated (s : CString) :
    s.terminated.length = s.bytes.length + 1 := by
  simp [CString.terminated]

lemma CString.cstr_terminated (s : CString) (rest : List UInt8) :
    cstr (s.terminated ++ rest) = s.bytes := by
  simpa [CString.terminated] using cstr_append_zero s.bytes rest s.noNul

/-- The empty string. -/
def CString.empty : CString := ⟨[], by simp⟩

/-- Strings one behind the other. -/
def CString.concat (parts : List CString) : CString :=
  ⟨(parts.map CString.bytes).flatten, by
    intro h
    obtain ⟨bytes, hbytes, hzero⟩ := List.mem_flatten.mp h
    obtain ⟨s, -, rfl⟩ := List.mem_map.mp hbytes
    exact s.noNul hzero⟩

/-- The string `%u` prints. -/
def CString.unsigned (n : ℕ) : CString := ⟨unsignedDecimal n, zero_notMem_unsignedDecimal n⟩

/-- The character of a digit below 16. -/
def hexadecimalDigit (d : ℕ) : UInt8 := UInt8.ofNat (if d < 10 then 48 + d else 87 + d)

/-- The characters `%x` prints. -/
def hexadecimalDigits (n : ℕ) : List UInt8 :=
  if n = 0 then [48] else (Nat.digits 16 n).reverse.map hexadecimalDigit

lemma zero_notMem_hexadecimalDigits (n : ℕ) : 0 ∉ hexadecimalDigits n := by
  rw [hexadecimalDigits]
  split_ifs
  · decide
  · intro h
    obtain ⟨d, hd, hzero⟩ := List.mem_map.mp h
    have hlt : d < 16 := Nat.digits_lt_base (by decide) (List.mem_reverse.mp hd)
    have htoNat := congrArg UInt8.toNat hzero
    simp only [hexadecimalDigit, UInt8.toNat_ofNat', UInt8.toNat_zero] at htoNat
    split_ifs at htoNat
    · omega
    · omega

lemma length_hexadecimalDigits_le {n k : ℕ} (hk : k ≠ 0) (h : n < 16 ^ k) :
    (hexadecimalDigits n).length ≤ k := by
  rw [hexadecimalDigits]
  split_ifs
  · exact Nat.one_le_iff_ne_zero.mpr hk
  · rw [List.length_map, List.length_reverse]
    exact (Nat.digits_length_le_iff (by decide) n).mpr h

/-- The string `%x` prints. -/
def CString.hexadecimal (n : ℕ) : CString := ⟨hexadecimalDigits n, zero_notMem_hexadecimalDigits n⟩

/-! ### Wide strings

Characters of `w` bytes, ended by a zero character. -/

/-- The bytes of a sequence of wide characters and its terminator. -/
def wideBytes (w : ℕ) (chars : List ℕ) : List UInt8 := (chars ++ [0]).flatMap (leBytes w)

/-- Read wide characters up to a zero character; memory behind the block reads as zero. -/
def wcsWith (w : ℕ) : ℕ → List UInt8 → List ℕ
  | 0, _          => []
  | fuel + 1, mem =>
    if leNat (mem.take w) = 0 then [] else leNat (mem.take w) :: wcsWith w fuel (mem.drop w)

/-- The characters of the wide string that starts a block of memory. -/
def wcs (w : ℕ) (mem : List UInt8) : List ℕ := wcsWith w mem.length mem

/-- Characters that fit in `w` bytes and do not end a string. -/
def WideChars (w : ℕ) (chars : List ℕ) : Prop := ∀ c ∈ chars, c ≠ 0 ∧ c < 256 ^ w

lemma length_wideBytes (w : ℕ) (chars : List ℕ) :
    (wideBytes w chars).length = (chars.length + 1) * w := by
  induction chars with
  | nil => simp [wideBytes]
  | cons c chars ih =>
    have hcons : wideBytes w (c :: chars) = leBytes w c ++ wideBytes w chars := by
      simp [wideBytes]
    rw [hcons, List.length_append, ih, length_leBytes, List.length_cons]
    ring

lemma wideChars_wcsWith (w fuel : ℕ) (mem : List UInt8) : WideChars w (wcsWith w fuel mem) := by
  induction fuel generalizing mem with
  | zero => simp [wcsWith, WideChars]
  | succ fuel ih =>
    rw [wcsWith]
    split_ifs with h
    · simp [WideChars]
    · intro c hc
      rcases List.mem_cons.mp hc with rfl | hmem
      · exact ⟨h, leNat_lt (List.length_take_le w mem)⟩
      · exact ih _ c hmem

lemma wcsWith_wideBytes {w : ℕ} {chars : List ℕ} (h : WideChars w chars) (rest : List UInt8)
    {fuel : ℕ} (hfuel : chars.length < fuel) :
    wcsWith w fuel (wideBytes w chars ++ rest) = chars := by
  induction chars generalizing fuel with
  | nil =>
    obtain ⟨fuel, rfl⟩ := Nat.exists_eq_succ_of_ne_zero (Nat.pos_iff_ne_zero.mp hfuel)
    have hzero : leNat (leBytes w 0) = 0 := leNat_leBytes w 0 (Nat.pow_pos (by decide))
    simp [wcsWith, wideBytes, hzero]
  | cons c chars ih =>
    obtain ⟨fuel, rfl⟩ := Nat.exists_eq_succ_of_ne_zero (Nat.ne_zero_of_lt hfuel)
    obtain ⟨hne, hlt⟩ := h c List.mem_cons_self
    have hmem : wideBytes w (c :: chars) ++ rest
        = leBytes w c ++ (wideBytes w chars ++ rest) := by
      simp [wideBytes]
    rw [hmem, wcsWith, List.take_left' (length_leBytes w c), List.drop_left' (length_leBytes w c),
      leNat_leBytes w c hlt, if_neg hne,
      ih (fun d hd => h d (List.mem_cons_of_mem _ hd)) (Nat.lt_of_succ_lt_succ hfuel)]

/-- A wide string in memory reads back, whatever follows it. -/
lemma wcs_wideBytes {w : ℕ} (hw : 0 < w) {chars : List ℕ} (h : WideChars w chars)
    (rest : List UInt8) : wcs w (wideBytes w chars ++ rest) = chars := by
  apply wcsWith_wideBytes h
  rw [List.length_append, length_wideBytes]
  have : (chars.length + 1) * 1 ≤ (chars.length + 1) * w := Nat.mul_le_mul_left _ hw
  omega

lemma wideBytes_wcs_append {w : ℕ} (hw : 0 < w) (mem rest : List UInt8) :
    wcs w (wideBytes w (wcs w mem) ++ rest) = wcs w mem :=
  wcs_wideBytes hw (wideChars_wcsWith w _ mem) rest

/-- The block holds a whole zero character, at a multiple of `w` bytes. -/
def wcsEndsWith (w : ℕ) : ℕ → List UInt8 → Bool
  | 0, _          => false
  | fuel + 1, mem =>
    if mem.length < w then false
    else if leNat (mem.take w) = 0 then true
    else wcsEndsWith w fuel (mem.drop w)

/-- The wide string that starts a block of memory ends in it. -/
def wcsEnds (w : ℕ) (mem : List UInt8) : Bool := wcsEndsWith w mem.length mem

/-- A string that ends in the block is the same whatever lies behind the block. -/
lemma wcsWith_append_of_ends {w fuel fuel' : ℕ} {mem : List UInt8}
    (h : wcsEndsWith w fuel mem = true) (hfuel : fuel ≤ fuel') (rest : List UInt8) :
    wcsWith w fuel' (mem ++ rest) = wcsWith w fuel mem := by
  induction fuel generalizing mem fuel' with
  | zero => cases h
  | succ fuel ih =>
    obtain ⟨fuel', rfl⟩ := Nat.exists_eq_succ_of_ne_zero (Nat.ne_zero_of_lt hfuel)
    rw [wcsEndsWith] at h
    split_ifs at h with hlength hzero
    · have hle : w ≤ mem.length := not_lt.mp hlength
      rw [wcsWith, wcsWith, List.take_append_of_le_length hle, if_pos hzero, if_pos hzero]
    · have hle : w ≤ mem.length := not_lt.mp hlength
      rw [wcsWith, wcsWith, List.take_append_of_le_length hle, if_neg hzero, if_neg hzero,
        List.drop_append_of_le_length hle, ih h (Nat.le_of_succ_le_succ hfuel)]

lemma leNat_ne_zero {bytes : List UInt8} {b : UInt8} (hb : b ∈ bytes) (hne : b ≠ 0) :
    leNat bytes ≠ 0 := by
  induction bytes with
  | nil => cases hb
  | cons a bytes ih =>
    rw [leNat]
    rcases List.mem_cons.mp hb with rfl | hmem
    · have hpos : b.toNat ≠ 0 := fun h => hne (UInt8.toNat_inj.mp h)
      omega
    · have := ih hmem
      omega

/-- The character that a block with too few bytes for it and the ones behind them make. -/
lemma leNat_take_append_ones {w : ℕ} {mem : List UInt8} (h : mem.length < w) (n : ℕ) :
    leNat ((mem ++ List.replicate (n + w) 1).take w) ≠ 0 := by
  have hget : (mem ++ List.replicate (n + w) (1 : UInt8))[w - 1]? = some 1 := by
    rw [List.getElem?_append_right (by omega), List.getElem?_replicate, if_pos (by omega)]
  refine leNat_ne_zero (b := 1) (List.mem_of_getElem? (i := w - 1) ?_) (by decide)
  rw [List.getElem?_take_of_lt (by omega), hget]

/-- Behind a string that does not end in the block more characters can follow. -/
lemma length_wcsWith_lt {w fuel fuel' : ℕ} (hw : 0 < w) {mem : List UInt8}
    (h : wcsEndsWith w fuel mem = false) (hmem : mem.length ≤ fuel)
    (hfuel : (mem ++ List.replicate (w + w) 1).length ≤ fuel') :
    (wcsWith w fuel mem).length < (wcsWith w fuel' (mem ++ List.replicate (w + w) 1)).length := by
  induction fuel generalizing mem fuel' with
  | zero =>
    obtain rfl := List.length_eq_zero_iff.mp (Nat.le_zero.mp hmem)
    obtain ⟨fuel', rfl⟩ : ∃ n, fuel' = n + 1 := ⟨fuel' - 1, by simp at hfuel; omega⟩
    rw [wcsWith, wcsWith, if_neg (leNat_take_append_ones hw w)]
    exact Nat.succ_pos _
  | succ fuel ih =>
    rw [List.length_append, List.length_replicate] at hfuel
    obtain ⟨fuel', rfl⟩ : ∃ n, fuel' = n + 1 := ⟨fuel' - 1, by omega⟩
    rw [wcsEndsWith] at h
    split_ifs at h with hlength hzero
    · -- at most one character is made of the bytes that are left, and there are two with the ones
      obtain ⟨fuel', rfl⟩ : ∃ n, fuel' = n + 1 := ⟨fuel' - 1, by omega⟩
      have hsecond : leNat (((mem ++ List.replicate (w + w) 1).drop w).take w) ≠ 0 := by
        refine leNat_ne_zero (b := 1) (List.mem_of_getElem? (i := 0) ?_) (by decide)
        rw [List.getElem?_take_of_lt hw, List.getElem?_drop,
          List.getElem?_append_right (by omega), List.getElem?_replicate, if_pos (by omega)]
      have hfirst : (wcsWith w (fuel + 1) mem).length ≤ 1 := by
        rw [wcsWith, List.drop_eq_nil_of_le hlength.le]
        split_ifs
        · exact Nat.zero_le _
        · cases fuel <;> simp [wcsWith, leNat]
      refine hfirst.trans_lt ?_
      rw [wcsWith, wcsWith, if_neg (leNat_take_append_ones hlength w), if_neg hsecond,
        List.length_cons, List.length_cons]
      omega
    · have hle : w ≤ mem.length := not_lt.mp hlength
      rw [wcsWith, wcsWith, List.take_append_of_le_length hle, if_neg hzero, if_neg hzero,
        List.drop_append_of_le_length hle, List.length_cons, List.length_cons]
      refine Nat.succ_lt_succ (ih h ?_ ?_)
      · rw [List.length_drop]
        omega
      · rw [List.length_append, List.length_drop, List.length_replicate]
        omega

/-- What lies behind a block does not matter to the wide string in it exactly if it ends there. -/
theorem wcsEnds_iff {w : ℕ} (hw : 0 < w) {mem : List UInt8} :
    wcsEnds w mem = true ↔ ∀ rest, wcs w (mem ++ rest) = wcs w mem := by
  constructor
  · intro h rest
    refine wcsWith_append_of_ends h ?_ rest
    rw [List.length_append]
    exact Nat.le_add_right _ _
  · intro h
    by_contra hends
    have hlt := length_wcsWith_lt hw (Bool.eq_false_iff.mpr hends) (le_refl _) (le_refl _)
    exact absurd (congrArg List.length (h _)) hlt.ne'

/-- The bytes of two wide strings in memory are the same only if the strings are. -/
lemma wideBytes_wcs_inj {w : ℕ} (hw : 0 < w) {mem mem' : List UInt8}
    (h : wideBytes w (wcs w mem) = wideBytes w (wcs w mem')) : wcs w mem = wcs w mem' := by
  rw [← wideBytes_wcs_append hw mem [], ← wideBytes_wcs_append hw mem' [], h]

/-- The first `n` bytes of a block of memory; behind the block memory reads as zero. -/
def memcpy (n : ℕ) (mem : List UInt8) : List UInt8 := (mem ++ List.replicate n 0).take n

@[simp] lemma length_memcpy (n : ℕ) (mem : List UInt8) : (memcpy n mem).length = n := by
  simp [memcpy]

lemma memcpy_append {n : ℕ} {bytes : List UInt8} (h : bytes.length = n) (rest : List UInt8) :
    memcpy n (bytes ++ rest) = bytes := by
  rw [memcpy, List.append_assoc, List.take_left' h]

/-- What lies behind a block does not matter to its first `n` bytes exactly if it has as many. -/
lemma le_length_iff_memcpy {n : ℕ} {mem : List UInt8} :
    n ≤ mem.length ↔ ∀ rest, memcpy n (mem ++ rest) = memcpy n mem := by
  constructor
  · intro h rest
    rw [memcpy, memcpy, List.append_assoc, List.take_append_of_le_length h,
      List.take_append_of_le_length h]
  · intro h
    by_contra hlt
    rw [not_le] at hlt
    have hone := congrArg (·[mem.length]?) (h [1])
    simp only [memcpy, List.getElem?_take_of_lt hlt] at hone
    rw [List.append_assoc, List.getElem?_append_right (le_refl _), Nat.sub_self,
      List.getElem?_append_right (le_refl _), Nat.sub_self, List.getElem?_replicate,
      if_pos (Nat.zero_lt_of_lt hlt)] at hone
    cases hone

end C
