import CLogging.Lib.Terminator
import CLogging.ToString.Algorithm

/-!
# Printing with a fallback

`snprintf_fallback` prints a text behind what is in a buffer already. Where the text does not fit,
it copies a fallback string there instead, without a terminator and possibly up to the last byte.
-/

namespace CLogging

open C Printf Memory

/-- `snprintfFailed`. -/
def snprintfFailed : CString := ⟨ascii "\nsnprintf failed", by decide⟩

/-- The text that the format and the arguments of a call give, and how `vsnprintf` fails, if it
does. The second copy of the arguments in the macro stands behind `0 &&` and is not evaluated. -/
structure FallbackCall where
  text    : CString
  failure : Option Failure

/-- `vsnprintf`. If it fails, it has stored anything that fits. -/
def FallbackCall.vsnprintf (k : FallbackCall) : Writer :=
  match k.failure with
  | none         => snprintf k.text.bytes
  | some failure => fun room => (failure.result, failure.text.take room)

/-- `snprintf_fallback_impl`. -/
def snprintfFallbackImpl (fallbackString : List UInt8) (fallbackStringSize : ℕ) (k : FallbackCall)
    (destination : Cursor) : Cursor :=
  let printed := k.vsnprintf destination.room
  let destination := { destination with mem := destination.put printed.2 }
  if ¬ (0 ≤ printed.1 ∧ printed.1 < int destination.room) then
    let sizeToCopy :=
      if destination.room < fallbackStringSize then destination.room else fallbackStringSize - 1
    let copied := { destination with mem := destination.put (fallbackString.take sizeToCopy) }
    copied.advance sizeToCopy
  else destination.advance printed.1.toNat

/-- `snprintf_fallback` as `get_thread_stack` calls it. -/
def snprintfFallback (k : FallbackCall) (destination : Cursor) : Cursor :=
  snprintfFallbackImpl snprintfFailed.terminated snprintfFailed.terminated.length k destination

/-! ### One call -/

/-- `vsnprintf` succeeds, and its result is below the space left. -/
def FallbackCall.Fits (k : FallbackCall) (room : ℕ) : Prop :=
  k.failure = none ∧ (k.text.bytes.length : ℤ) < int room

instance (k : FallbackCall) (room : ℕ) : Decidable (k.Fits room) :=
  decidable_of_iff (k.failure.isNone ∧ (k.text.bytes.length : ℤ) < int room)
    (and_congr_left' Option.isNone_iff_eq_none)

/-- The number of bytes of the fallback string that are copied. -/
def fallbackLength (room : ℕ) : ℕ := if room < 17 then room else 16

/-- What a call prints, given the space left: its text, or as much of the fallback string as
fits. -/
def FallbackCall.piece (k : FallbackCall) (room : ℕ) : List UInt8 :=
  if k.Fits room then k.text.bytes else snprintfFailed.bytes.take (fallbackLength room)

lemma FallbackCall.Fits.lt {k : FallbackCall} {room : ℕ} (h : k.Fits room) :
    k.text.bytes.length < room := by
  exact_mod_cast h.2.trans_le (int_natCast_le room)

lemma fits_iff (k : FallbackCall) (room : ℕ) :
    k.Fits room ↔ 0 ≤ (k.vsnprintf room).1 ∧ (k.vsnprintf room).1 < int room := by
  rw [FallbackCall.Fits, FallbackCall.vsnprintf]
  match k.failure with
  | none =>
    simp only [snprintf]
    exact and_congr_left fun _ => iff_of_true trivial (Int.natCast_nonneg _)
  | some failure =>
    refine iff_of_false (fun h => ?_) fun h => ?_
    · cases h.1
    · exact absurd failure.negative (not_lt.mpr h.1)

lemma FallbackCall.Fits.vsnprintf_eq {k : FallbackCall} {room : ℕ} (h : k.Fits room) :
    k.vsnprintf room = ((k.text.bytes.length : ℤ), k.text.bytes ++ [0]) := by
  have hlt := h.lt
  simp only [FallbackCall.vsnprintf, h.1, snprintf, stored]
  rw [if_neg (Nat.ne_zero_of_lt hlt), List.take_of_length_le (Nat.le_sub_one_of_lt hlt)]

lemma bounded_vsnprintf (k : FallbackCall) : Bounded k.vsnprintf := by
  intro room
  rw [FallbackCall.vsnprintf]
  match k.failure with
  | none => exact stored_length_le k.text.bytes room
  | some failure => exact List.length_take_le room failure.text

lemma fallbackLength_le (room : ℕ) : fallbackLength room ≤ room := by
  rw [fallbackLength]
  split_ifs with h
  · exact le_refl room
  · exact (Nat.le_succ 16).trans (not_lt.mp h)

/-- All of the fallback string is copied, or all of the space is used up. -/
lemma fallbackLength_le_length (room : ℕ) : fallbackLength room ≤ snprintfFailed.bytes.length := by
  have hlength : snprintfFailed.bytes.length = 16 := rfl
  rw [fallbackLength, hlength]
  split_ifs with h
  · exact Nat.le_of_lt_succ h
  · exact le_refl 16

lemma piece_of_fits {k : FallbackCall} {room : ℕ} (h : k.Fits room) :
    k.piece room = k.text.bytes := if_pos h

lemma length_piece_of_not_fits {k : FallbackCall} {room : ℕ} (h : ¬ k.Fits room) :
    (k.piece room).length = fallbackLength room := by
  rw [FallbackCall.piece, if_neg h, List.length_take]
  exact Nat.min_eq_left (fallbackLength_le_length room)

lemma length_piece_le (k : FallbackCall) (room : ℕ) : (k.piece room).length ≤ room := by
  by_cases h : k.Fits room
  · rw [piece_of_fits h]
    exact h.lt.le
  · rw [length_piece_of_not_fits h]
    exact fallbackLength_le room

lemma zero_notMem_piece (k : FallbackCall) (room : ℕ) : 0 ∉ k.piece room := by
  rw [FallbackCall.piece]
  split_ifs
  · exact k.text.noNul
  · exact fun h => snprintfFailed.noNul (List.mem_of_mem_take h)

/-- What a call does: `vsnprintf` stores its bytes, and if the text does not fit, the fallback
string is stored over them. The cursor moves behind what was printed. -/
lemma snprintfFallback_eq (k : FallbackCall) (c : Cursor) :
    snprintfFallback k c =
      (if k.Fits c.room then ⟨c.put (k.vsnprintf c.room).2, c.pos, c.room⟩
        else ⟨(Cursor.mk (c.put (k.vsnprintf c.room).2) c.pos c.room).put (k.piece c.room), c.pos,
          c.room⟩ : Cursor).advance (k.piece c.room).length := by
  rw [snprintfFallback, snprintfFallbackImpl]
  by_cases h : k.Fits c.room
  · have hresult := (fits_iff k c.room).mp h
    have htoNat : (k.vsnprintf c.room).1.toNat = k.text.bytes.length := by
      rw [h.vsnprintf_eq, Int.toNat_natCast]
    simp only [if_neg (not_not.mpr hresult), if_pos h, piece_of_fits h, htoNat]
  · have hresult := (not_congr (fits_iff k c.room)).mp h
    have hlength := length_piece_of_not_fits h
    have hsize : (if c.room < snprintfFailed.terminated.length then c.room
        else snprintfFailed.terminated.length - 1) = fallbackLength c.room := rfl
    have htake : snprintfFailed.terminated.take (fallbackLength c.room) = k.piece c.room := by
      rw [FallbackCall.piece, if_neg h, CString.terminated]
      exact List.take_append_of_le_length (fallbackLength_le_length c.room)
    simp only [if_pos hresult, if_neg h, hsize, htake, hlength]

lemma snprintfFallback_pos (k : FallbackCall) (c : Cursor) :
    (snprintfFallback k c).pos = c.pos + (k.piece c.room).length := by
  rw [snprintfFallback_eq, Cursor.advance_pos]
  split_ifs
  · rfl
  · rfl

lemma snprintfFallback_room (k : FallbackCall) (c : Cursor) :
    (snprintfFallback k c).room = c.room - (k.piece c.room).length := by
  rw [snprintfFallback_eq, Cursor.advance_room]
  split_ifs
  · rfl
  · rfl

lemma snprintfFallback_mem (k : FallbackCall) (c : Cursor) :
    (snprintfFallback k c).mem =
      if k.Fits c.room then c.put (k.vsnprintf c.room).2
      else (Cursor.mk (c.put (k.vsnprintf c.room).2) c.pos c.room).put (k.piece c.room) := by
  rw [snprintfFallback_eq, Cursor.advance_mem]
  split_ifs
  · rfl
  · rfl

@[simp] lemma length_mem_snprintfFallback (k : FallbackCall) (c : Cursor) :
    (snprintfFallback k c).mem.length = c.mem.length := by
  rw [snprintfFallback_mem]
  split_ifs
  · rw [Cursor.length_put]
  · rw [Cursor.length_put, Cursor.length_put]

/-- The cursor and the space behind it always make up the buffer. -/
lemma fits_snprintfFallback {c : Cursor} (h : c.Fits) (k : FallbackCall) :
    (snprintfFallback k c).Fits := by
  have hle := length_piece_le k c.room
  rw [Cursor.Fits, length_mem_snprintfFallback, snprintfFallback_pos, snprintfFallback_room, ← h]
  omega

/-- Up to the cursor the buffer ends with what was printed. -/
lemma take_snprintfFallback {c : Cursor} (h : c.Fits) (k : FallbackCall) :
    (snprintfFallback k c).mem.take (snprintfFallback k c).pos =
      c.mem.take c.pos ++ k.piece c.room := by
  have hpos : (c.mem.take c.pos).length = c.pos := by
    rw [List.length_take, ← h]
    omega
  have hstored := h.put_eq (bounded_vsnprintf k c.room)
  rw [snprintfFallback_mem, snprintfFallback_pos]
  by_cases hfits : k.Fits c.room
  · rw [if_pos hfits, hstored, hfits.vsnprintf_eq, piece_of_fits hfits, List.take_append, hpos,
      List.take_of_length_le (by omega), Nat.add_sub_cancel_left, List.append_assoc, List.take_left]
  · have hput : (Cursor.mk (c.put (k.vsnprintf c.room).2) c.pos c.room).Fits := by
      rw [Cursor.Fits, Cursor.length_put]
      exact h
    have htake : (c.put (k.vsnprintf c.room).2).take c.pos = c.mem.take c.pos := by
      rw [hstored, List.take_append_of_le_length hpos.ge, List.take_take, Nat.min_self]
    rw [if_neg hfits, hput.put_eq (length_piece_le k c.room), htake, List.take_append, hpos,
      List.take_of_length_le (by omega), Nat.add_sub_cancel_left, List.take_left]

/-- Behind the cursor only `vsnprintf` has stored anything. -/
lemma getElem?_snprintfFallback {c : Cursor} (k : FallbackCall) {i : ℕ}
    (hi : (snprintfFallback k c).pos ≤ i) :
    (snprintfFallback k c).mem[i]? = (c.put (k.vsnprintf c.room).2)[i]? := by
  rw [snprintfFallback_pos] at hi
  rw [snprintfFallback_mem]
  split_ifs with hfits
  · rfl
  · refine Write.apply_getElem?_of_not_covers _ _ _ ?_
    simp only [Write.Covers]
    omega

/-! ### A sequence of calls -/

def snprintfFallbackAll (ks : List FallbackCall) (c : Cursor) : Cursor :=
  ks.foldl (fun c k => snprintfFallback k c) c

@[simp] lemma snprintfFallbackAll_nil (c : Cursor) : snprintfFallbackAll [] c = c := rfl

@[simp] lemma snprintfFallbackAll_cons (k : FallbackCall) (ks : List FallbackCall) (c : Cursor) :
    snprintfFallbackAll (k :: ks) c = snprintfFallbackAll ks (snprintfFallback k c) := rfl

lemma snprintfFallbackAll_append (ks ks' : List FallbackCall) (c : Cursor) :
    snprintfFallbackAll (ks ++ ks') c = snprintfFallbackAll ks' (snprintfFallbackAll ks c) :=
  List.foldl_append

/-- What the calls print one behind the other, given the space left before the first. -/
def printedPieces : List FallbackCall → ℕ → List UInt8
  | [], _         => []
  | k :: ks, room => k.piece room ++ printedPieces ks (room - (k.piece room).length)

/-- The stores of `vsnprintf`, given where the first call prints, and the space left there. -/
def vsnprintfStores : List FallbackCall → ℕ → ℕ → List (Write UInt8)
  | [], _, _           => []
  | k :: ks, pos, room =>
    ⟨pos, (k.vsnprintf room).2⟩ ::
      vsnprintfStores ks (pos + (k.piece room).length) (room - (k.piece room).length)

@[simp] lemma length_mem_snprintfFallbackAll (ks : List FallbackCall) (c : Cursor) :
    (snprintfFallbackAll ks c).mem.length = c.mem.length := by
  induction ks generalizing c with
  | nil => rfl
  | cons k ks ih => rw [snprintfFallbackAll_cons, ih, length_mem_snprintfFallback]

lemma fits_snprintfFallbackAll {c : Cursor} (h : c.Fits) (ks : List FallbackCall) :
    (snprintfFallbackAll ks c).Fits := by
  induction ks generalizing c with
  | nil => exact h
  | cons k ks ih => exact ih (fits_snprintfFallback h k)

lemma snprintfFallbackAll_pos (ks : List FallbackCall) (c : Cursor) :
    (snprintfFallbackAll ks c).pos = c.pos + (printedPieces ks c.room).length := by
  induction ks generalizing c with
  | nil => rfl
  | cons k ks ih =>
    rw [snprintfFallbackAll_cons, ih, snprintfFallback_pos, snprintfFallback_room, printedPieces,
      List.length_append, Nat.add_assoc]

lemma snprintfFallbackAll_room (ks : List FallbackCall) (c : Cursor) :
    (snprintfFallbackAll ks c).room = c.room - (printedPieces ks c.room).length := by
  induction ks generalizing c with
  | nil => rfl
  | cons k ks ih =>
    rw [snprintfFallbackAll_cons, ih, snprintfFallback_room, printedPieces, List.length_append,
      Nat.sub_sub]

lemma zero_notMem_printedPieces (ks : List FallbackCall) (room : ℕ) :
    0 ∉ printedPieces ks room := by
  induction ks generalizing room with
  | nil => exact List.not_mem_nil
  | cons k ks ih =>
    rw [printedPieces, List.mem_append, not_or]
    exact ⟨zero_notMem_piece k room, ih _⟩

/-- Up to the cursor the buffer ends with everything that was printed. -/
theorem take_snprintfFallbackAll {c : Cursor} (h : c.Fits) (ks : List FallbackCall) :
    (snprintfFallbackAll ks c).mem.take (snprintfFallbackAll ks c).pos =
      c.mem.take c.pos ++ printedPieces ks c.room := by
  induction ks generalizing c with
  | nil => exact (List.append_nil _).symm
  | cons k ks ih =>
    rw [snprintfFallbackAll_cons, ih (fits_snprintfFallback h k), take_snprintfFallback h,
      snprintfFallback_room, printedPieces, List.append_assoc]

/-- Behind the cursor the buffer is as the calls of `vsnprintf` alone would leave it. -/
theorem getElem?_snprintfFallbackAll {c : Cursor} (ks : List FallbackCall) {i : ℕ}
    (hi : (snprintfFallbackAll ks c).pos ≤ i) :
    (snprintfFallbackAll ks c).mem[i]? =
      (applyAll (vsnprintfStores ks c.pos c.room) c.mem)[i]? := by
  induction ks generalizing c with
  | nil => rfl
  | cons k ks ih =>
    have hone : (snprintfFallback k c).pos ≤ i := by
      rw [snprintfFallbackAll_cons, snprintfFallbackAll_pos] at hi
      omega
    rw [snprintfFallbackAll_cons, ih hi, vsnprintfStores, applyAll_cons, snprintfFallback_pos,
      snprintfFallback_room]
    refine applyAll_getElem?_congr ?_ (getElem?_snprintfFallback k hone)
    rw [length_mem_snprintfFallback, Write.length_apply]

/-! ### Terminators -/

/-- There is a terminator behind everything that is printed: the last `vsnprintf` that stored
anything there stored one, or none did, and one was there before. -/
def LeavesNul (ks : List FallbackCall) (mem : List UInt8) : Prop :=
  ∃ i, (printedPieces ks mem.length).length ≤ i ∧ i < mem.length ∧
    (LastStored (vsnprintfStores ks 0 mem.length) i 0 ∨
      (∀ w ∈ vsnprintfStores ks 0 mem.length, ¬ w.Covers i) ∧ mem[i]? = some 0)

/-- The terminator is one that the calls of `vsnprintf` alone would leave there. -/
lemma leavesNul_iff (ks : List FallbackCall) (mem : List UInt8) :
    LeavesNul ks mem ↔ 0 ∈ (applyAll (vsnprintfStores ks 0 mem.length) mem).drop
      (printedPieces ks mem.length).length := by
  rw [List.mem_iff_getElem?]
  constructor
  · rintro ⟨i, hle, hlt, hzero⟩
    refine ⟨i - (printedPieces ks mem.length).length, ?_⟩
    rw [List.getElem?_drop, Nat.add_sub_cancel' hle]
    exact (applyAll_getElem?_eq_some_iff hlt).mpr hzero
  · rintro ⟨n, hn⟩
    rw [List.getElem?_drop] at hn
    have hlt := (List.getElem?_eq_some_iff.mp hn).1
    rw [length_applyAll] at hlt
    exact ⟨_, Nat.le_add_right _ n, hlt, (applyAll_getElem?_eq_some_iff hlt).mp hn⟩

/-- Only there can a terminator be. -/
theorem zero_mem_snprintfFallbackAll_iff (ks : List FallbackCall) (mem : List UInt8) :
    0 ∈ (snprintfFallbackAll ks ⟨mem, 0, mem.length⟩).mem ↔ LeavesNul ks mem := by
  have hfits : (Cursor.mk mem 0 mem.length).Fits := Nat.zero_add _
  have hpos := (snprintfFallbackAll_pos ks ⟨mem, 0, mem.length⟩).trans (Nat.zero_add _)
  have htake := take_snprintfFallbackAll hfits ks
  have hdrop : (snprintfFallbackAll ks ⟨mem, 0, mem.length⟩).mem.drop
      (snprintfFallbackAll ks ⟨mem, 0, mem.length⟩).pos =
        (applyAll (vsnprintfStores ks 0 mem.length) mem).drop
          (printedPieces ks mem.length).length := by
    apply List.ext_getElem?
    intro n
    rw [List.getElem?_drop, List.getElem?_drop, getElem?_snprintfFallbackAll ks (Nat.le_add_right _ n),
      hpos]
  have hmem : 0 ∈ (snprintfFallbackAll ks ⟨mem, 0, mem.length⟩).mem ↔
      0 ∈ (snprintfFallbackAll ks ⟨mem, 0, mem.length⟩).mem.take
        (snprintfFallbackAll ks ⟨mem, 0, mem.length⟩).pos ∨
      0 ∈ (snprintfFallbackAll ks ⟨mem, 0, mem.length⟩).mem.drop
        (snprintfFallbackAll ks ⟨mem, 0, mem.length⟩).pos := by
    rw [← List.mem_append, List.take_append_drop]
  rw [hmem, leavesNul_iff, ← hdrop, htake, List.take_zero, List.nil_append]
  exact or_iff_right (zero_notMem_printedPieces ks mem.length)

/-- Where the last text fits, it is terminated. -/
lemma leavesNul_of_fits {ks : List FallbackCall} {k : FallbackCall} {mem : List UInt8}
    (h : k.Fits (mem.length - (printedPieces ks mem.length).length)) : LeavesNul (ks ++ [k]) mem := by
  have hstart : (Cursor.mk mem 0 mem.length).Fits := Nat.zero_add _
  have hfits := fits_snprintfFallbackAll hstart ks
  have hroom := snprintfFallbackAll_room ks ⟨mem, 0, mem.length⟩
  rw [← hroom] at h
  rw [← zero_mem_snprintfFallbackAll_iff, snprintfFallbackAll_append, snprintfFallbackAll_cons,
    snprintfFallbackAll_nil, snprintfFallback_mem, if_pos h]
  refine hfits.mem_put (bounded_vsnprintf k _) ?_
  rw [h.vsnprintf_eq]
  exact List.mem_append_right _ (List.mem_singleton_self 0)

/-- One call leaves a terminator if its text fits. If not, at least 17 bytes of space are needed,
and a terminator behind the fallback string, from `vsnprintf` or from before. -/
theorem leavesNul_singleton_iff (k : FallbackCall) (mem : List UInt8) :
    LeavesNul [k] mem ↔ k.Fits mem.length ∨ 17 ≤ mem.length ∧
      (0 ∈ (k.vsnprintf mem.length).2.drop 16 ∨
        0 ∈ mem.drop (max 16 (k.vsnprintf mem.length).2.length)) := by
  by_cases hfits : k.Fits mem.length
  · have hlast : LeavesNul ([] ++ [k]) mem := leavesNul_of_fits hfits
    exact iff_of_true hlast (Or.inl hfits)
  rw [or_iff_right hfits]
  have hput : applyAll (vsnprintfStores [k] 0 mem.length) mem =
      (k.vsnprintf mem.length).2 ++ mem.drop (k.vsnprintf mem.length).2.length := by
    have hbound := bounded_vsnprintf k mem.length
    have heq := Cursor.Fits.put_eq (c := ⟨mem, 0, mem.length⟩) (Nat.zero_add _) hbound
    rwa [List.take_zero, List.nil_append, Nat.zero_add] at heq
  have hpiece : (printedPieces [k] mem.length).length = fallbackLength mem.length := by
    rw [printedPieces, printedPieces, List.append_nil, length_piece_of_not_fits hfits]
  rw [leavesNul_iff, hput, hpiece, fallbackLength]
  by_cases hsize : mem.length < 17
  · -- no room for the fallback text: nothing is left behind the cursor
    rw [if_pos hsize]
    refine iff_of_false ?_ fun h => not_le.mpr hsize h.1
    rw [List.drop_of_length_le]
    · exact List.not_mem_nil
    · rw [List.length_append, List.length_drop, Nat.add_sub_cancel' (bounded_vsnprintf k _)]
  · -- the fallback text covers the first 16 bytes; what is behind them decides
    have hsub : (k.vsnprintf mem.length).2.length + (16 - (k.vsnprintf mem.length).2.length) =
        max 16 (k.vsnprintf mem.length).2.length := by
      omega
    rw [if_neg hsize, List.drop_append, List.drop_drop, hsub, List.mem_append,
      and_iff_right (not_lt.mp hsize)]

end CLogging
