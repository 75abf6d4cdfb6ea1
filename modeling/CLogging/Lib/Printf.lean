import CLogging.Lib.CString
import CLogging.Lib.Memory

/-!
# Printing into a buffer

The printing functions of the C library as functions of the room that is left in the buffer, and
a cursor that a sequence of such calls moves through one buffer. As long as every call keeps the
contract of `snprintf`, the buffer holds the concatenation of the texts, cut off where it ends.
-/

namespace Printf

open C Memory

/-- What a printing call does when `room` bytes are left: the value it returns and the bytes it
    stores. -/
abbrev Writer := ℕ → ℤ × List UInt8

/-- The bytes `snprintf` stores: what fits of the text, and a terminator if there is any room. -/
def stored (text : List UInt8) (room : ℕ) : List UInt8 :=
  if room = 0 then [] else text.take (room - 1) ++ [0]

/-- `snprintf`, for a text that formats without an error. -/
def snprintf (text : List UInt8) : Writer := fun room => (text.length, stored text room)

lemma stored_length_le (text : List UInt8) (room : ℕ) : (stored text room).length ≤ room := by
  simp only [stored]
  split_ifs
  · simp
  · simp only [List.length_append, List.length_take, List.length_singleton]
    omega

/-- How a multibyte conversion ends. -/
inductive Conversion where
  | finished
  | full
  | invalid
  deriving DecidableEq

/-- Convert character by character while whole characters fit. A character is given by its
    multibyte form, `none` where it has no such form. -/
def convert : List (Option (List UInt8)) → ℕ → List UInt8 × Conversion
  | [], _            => ([], .finished)
  | none :: _, room  => if room = 0 then ([], .full) else ([], .invalid)
  | some c :: cs, room =>
    if c.length ≤ room then
      (c ++ (convert cs (room - c.length)).1, (convert cs (room - c.length)).2)
    else ([], .full)

/-- `wcstombs`. The terminator is stored only if the conversion finishes with room to spare. -/
def wcstombs (chars : List (Option (List UInt8))) : Writer := fun room =>
  match convert chars room with
  | (bytes, .invalid)  => (-1, bytes)
  | (bytes, .full)     => (bytes.length, bytes)
  | (bytes, .finished) => (bytes.length, if bytes.length < room then bytes ++ [0] else bytes)

lemma convert_length_le (chars : List (Option (List UInt8))) (room : ℕ) :
    (convert chars room).1.length ≤ room := by
  induction chars generalizing room with
  | nil => simp [convert]
  | cons c cs ih =>
    cases c with
    | none => simp only [convert]; split_ifs <;> simp
    | some c =>
      simp only [convert]
      split_ifs with h
      · have := ih (room - c.length)
        simp only [List.length_append]
        omega
      · simp

/-- A position in a buffer and the room left behind it. -/
@[ext]
structure Cursor where
  mem  : List UInt8
  pos  : ℕ
  room : ℕ

/-- The buffer after bytes were stored at the cursor. -/
def Cursor.put (c : Cursor) (bytes : List UInt8) : List UInt8 :=
  (Write.mk (c.pos : ℤ) bytes).apply c.mem

/-- The cursor some bytes further on. -/
def Cursor.advance (c : Cursor) (n : ℕ) : Cursor := ⟨c.mem, c.pos + n, c.room - n⟩

/-- A printing call at the cursor, which then moves on by what was printed or to the end of the
    buffer. -/
def Cursor.emit (w : Writer) (c : Cursor) : Cursor :=
  { mem  := c.put (w c.room).2
    pos  := c.pos + min (w c.room).1.toNat c.room
    room := c.room - min (w c.room).1.toNat c.room }

@[simp] lemma Cursor.advance_mem (c : Cursor) (n : ℕ) : (c.advance n).mem = c.mem := rfl

@[simp] lemma Cursor.advance_pos (c : Cursor) (n : ℕ) : (c.advance n).pos = c.pos + n := rfl

@[simp] lemma Cursor.advance_room (c : Cursor) (n : ℕ) : (c.advance n).room = c.room - n := rfl

/-- A sequence of printing calls. -/
def Cursor.emitAll (ws : List Writer) (c : Cursor) : Cursor := ws.foldl (fun c w => c.emit w) c

@[simp] lemma Cursor.emitAll_nil (c : Cursor) : c.emitAll [] = c := rfl

@[simp] lemma Cursor.emitAll_cons (w : Writer) (ws : List Writer) (c : Cursor) :
    c.emitAll (w :: ws) = (c.emit w).emitAll ws := rfl

lemma Cursor.emitAll_append (ws ws' : List Writer) (c : Cursor) :
    c.emitAll (ws ++ ws') = (c.emitAll ws).emitAll ws' := by
  simp [emitAll]

@[simp] lemma Cursor.length_put (c : Cursor) (bytes : List UInt8) :
    (c.put bytes).length = c.mem.length := by
  simp [put]

@[simp] lemma Cursor.put_nil (c : Cursor) : c.put [] = c.mem := Write.apply_nil _ _

lemma Cursor.emit_room_le (c : Cursor) (w : Writer) : (c.emit w).room ≤ c.room := by
  simp only [emit]
  omega

lemma Cursor.emit_pos (c : Cursor) (w : Writer) :
    (c.emit w).pos = c.pos + (c.room - (c.emit w).room) := by
  simp only [emit]
  omega

@[simp] lemma Cursor.emit_mem_length (c : Cursor) (w : Writer) :
    (c.emit w).mem.length = c.mem.length := by
  simp [emit]

lemma Cursor.emitAll_room_le (ws : List Writer) (c : Cursor) :
    (c.emitAll ws).room ≤ c.room := by
  induction ws generalizing c with
  | nil => simp
  | cons w ws ih => exact (ih (c.emit w)).trans (c.emit_room_le w)

lemma Cursor.emitAll_pos (ws : List Writer) (c : Cursor) :
    (c.emitAll ws).pos = c.pos + (c.room - (c.emitAll ws).room) := by
  induction ws generalizing c with
  | nil => simp
  | cons w ws ih =>
    have h₁ := ih (c.emit w)
    have h₂ := c.emit_pos w
    have h₃ := c.emit_room_le w
    have h₄ := emitAll_room_le ws (c.emit w)
    simp only [emitAll_cons]
    omega

@[simp] lemma Cursor.emitAll_mem_length (ws : List Writer) (c : Cursor) :
    (c.emitAll ws).mem.length = c.mem.length := by
  induction ws generalizing c with
  | nil => rfl
  | cons w ws ih => simp [ih]

/-- A printing call that may fail. -/
def Cursor.tryEmit (w : Writer) (c : Cursor) : Option Cursor :=
  if (w c.room).1 < 0 then none else some (c.emit w)

/-- A sequence of printing calls, up to the first that fails. -/
def Cursor.tryAll : List Writer → Cursor → Option Cursor
  | [], c      => some c
  | w :: ws, c => (c.tryEmit w).bind (tryAll ws)

@[simp] lemma Cursor.tryAll_nil (c : Cursor) : c.tryAll [] = some c := rfl

@[simp] lemma Cursor.tryAll_cons (w : Writer) (ws : List Writer) (c : Cursor) :
    c.tryAll (w :: ws) = (c.tryEmit w).bind (tryAll ws) := rfl

lemma Cursor.tryAll_append (ws ws' : List Writer) (c : Cursor) :
    c.tryAll (ws ++ ws') = (c.tryAll ws).bind (tryAll ws') := by
  induction ws generalizing c with
  | nil => rfl
  | cons w ws ih =>
    rw [List.cons_append, tryAll_cons, tryAll_cons]
    cases c.tryEmit w with
    | none => rfl
    | some c' => exact ih c'

lemma Cursor.tryEmit_eq_some {w : Writer} {c c' : Cursor} (h : c.tryEmit w = some c') :
    0 ≤ (w c.room).1 ∧ c' = c.emit w := by
  rw [tryEmit] at h
  split_ifs at h with hneg
  exact ⟨not_lt.mp hneg, (Option.some.inj h).symm⟩

/-- Calls that all succeed print one behind the other. -/
lemma Cursor.tryAll_eq_some {ws : List Writer} {c c' : Cursor} (h : c.tryAll ws = some c') :
    c' = c.emitAll ws := by
  induction ws generalizing c with
  | nil => exact (Option.some.inj h).symm
  | cons w ws ih =>
    obtain ⟨d, hd, hrest⟩ := Option.bind_eq_some_iff.mp h
    obtain ⟨-, rfl⟩ := tryEmit_eq_some hd
    exact ih hrest

/-- The first `size` bytes of the buffer hold the string `s`, cut off to leave a terminator, and
    the cursor stands behind it. -/
structure Holds (size : ℕ) (s : List UInt8) (c : Cursor) : Prop where
  size_pos : 0 < size
  size_le  : size ≤ c.mem.length
  pos_eq   : c.pos = min s.length size
  room_eq  : c.room = size - s.length
  mem_eq   : ∃ rest, c.mem = s.take (size - 1) ++ 0 :: rest

/-- Printing behind a string that has not filled the buffer. -/
lemma holds_emit_of_prefix {size : ℕ} {s : List UInt8} {c : Cursor} (t : List UInt8)
    (hpos : c.pos = s.length) (hroom : c.room = size - s.length) (hlt : s.length < size)
    (hsize : size ≤ c.mem.length) (htake : c.mem.take s.length = s) :
    Holds size (s ++ t) (c.emit (snprintf t)) := by
  have hstored : stored t c.room = t.take (size - 1 - s.length) ++ [0] := by
    rw [stored, if_neg (by omega), hroom]
    congr 2
    omega
  have hlen : s.length + (stored t c.room).length ≤ c.mem.length := by
    have := stored_length_le t c.room
    omega
  refine ⟨by omega, by simpa using hsize, ?_, ?_, ?_⟩
  · simp only [Cursor.emit, snprintf, Int.toNat_natCast, List.length_append]
    omega
  · simp only [Cursor.emit, snprintf, Int.toNat_natCast, List.length_append]
    omega
  · refine ⟨c.mem.drop (s.length + (stored t c.room).length), ?_⟩
    simp only [Cursor.emit, snprintf, Cursor.put]
    rw [hpos, Write.apply_eq_append _ _ _ hlen, htake, hstored, List.take_append,
      List.take_of_length_le (by omega : s.length ≤ size - 1)]
    simp

/-- Printing with the contract of `snprintf` appends to the string the buffer holds. -/
theorem Holds.emit {size : ℕ} {s : List UInt8} {c : Cursor} (h : Holds size s c)
    (t : List UInt8) : Holds size (s ++ t) (c.emit (snprintf t)) := by
  obtain ⟨rest, hmem⟩ := h.mem_eq
  by_cases hlt : s.length < size
  · have hs : s.take (size - 1) = s := List.take_of_length_le (by omega)
    have hpos := h.pos_eq
    refine holds_emit_of_prefix t (by omega) h.room_eq hlt h.size_le ?_
    rw [hmem, hs, List.take_left]
  · have hroom : c.room = 0 := by
      have := h.room_eq
      omega
    have hpos := h.pos_eq
    refine ⟨h.size_pos, by simpa using h.size_le, ?_, ?_, rest, ?_⟩
    · simp only [Cursor.emit, hroom, List.length_append]
      omega
    · simp only [Cursor.emit, hroom, List.length_append]
      omega
    · simp only [Cursor.emit, snprintf, stored, hroom, if_pos, Cursor.put_nil]
      rw [hmem, List.take_append_of_le_length (by omega)]

theorem Holds.emitAll {size : ℕ} {s : List UInt8} {c : Cursor} (h : Holds size s c)
    (ts : List (List UInt8)) :
    Holds size (s ++ ts.flatten) (c.emitAll (ts.map snprintf)) := by
  induction ts generalizing s c with
  | nil => simpa using h
  | cons t ts ih => simpa using ih (h.emit t)

/-- The first call on an empty buffer. -/
lemma holds_first (mem t : List UInt8) {size : ℕ} (hpos : 0 < size) (hsize : size ≤ mem.length) :
    Holds size t ((Cursor.mk mem 0 size).emit (snprintf t)) := by
  have h : Holds size ([] ++ t) ((Cursor.mk mem 0 size).emit (snprintf t)) :=
    holds_emit_of_prefix t rfl rfl hpos hsize rfl
  simpa using h

/-- One byte stored by hand and a text printed behind it. -/
lemma Holds.emit_cons {size : ℕ} {s : List UInt8} {c : Cursor} (h : Holds size s c) (b : UInt8)
    (t : List UInt8) (hroom : 1 < c.room) :
    Holds size (s ++ b :: t)
      ((Cursor.mk (c.put [b]) (c.pos + 1) (c.room - 1)).emit (snprintf t)) := by
  obtain ⟨rest, hmem⟩ := h.mem_eq
  have hr := h.room_eq
  have hp := h.pos_eq
  have hsize := h.size_le
  have hpos : c.pos = s.length := by omega
  have hs : s.take (size - 1) = s := List.take_of_length_le (by omega)
  have hput : (c.put [b]).take (s ++ [b]).length = s ++ [b] := by
    have hfit : s.length + [b].length ≤ c.mem.length := by
      simp only [List.length_singleton]
      omega
    rw [Cursor.put, hpos, Write.apply_eq_append _ _ _ hfit, hmem, hs, List.take_left,
      ← List.append_assoc, List.take_left]
  have hlen : (s ++ [b]).length = s.length + 1 := by simp
  have hnext : Holds size ((s ++ [b]) ++ t)
      ((Cursor.mk (c.put [b]) (c.pos + 1) (c.room - 1)).emit (snprintf t)) := by
    refine holds_emit_of_prefix t ?_ ?_ ?_ (by simpa using hsize) hput
    · rw [hlen, hpos]
    · show c.room - 1 = size - (s ++ [b]).length
      omega
    · omega
  simpa using hnext

/-- The C string in the buffer is what fits of the string it holds. -/
theorem Holds.cstr_mem {size : ℕ} {s : List UInt8} {c : Cursor} (h : Holds size s c) :
    cstr c.mem = (cstr s).take (size - 1) := by
  obtain ⟨rest, hmem⟩ := h.mem_eq
  rw [hmem, cstr_append_zero_cons, cstr_take]

lemma Holds.zero_mem {size : ℕ} {s : List UInt8} {c : Cursor} (h : Holds size s c) :
    0 ∈ c.mem := by
  obtain ⟨rest, hmem⟩ := h.mem_eq
  rw [hmem]
  exact List.mem_append_right _ List.mem_cons_self

end Printf
