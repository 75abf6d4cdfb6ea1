import CLogging.Lib.Printf

/-!
# Terminators

A printing call with room left normally stores a terminator, but `wcstombs` does so only if its
conversion finishes early. Whether the buffer holds a terminator in the end is up to the last call
that stored anything.
-/

namespace Printf

open C Memory

/-! ### The effect of calls on the room -/

/-- The room left after some calls. -/
def roomAfter : List Writer → ℕ → ℕ
  | [], room      => room
  | w :: ws, room => roomAfter ws (room - min (w room).1.toNat room)

lemma room_emitAll (ws : List Writer) (c : Cursor) :
    (c.emitAll ws).room = roomAfter ws c.room := by
  induction ws generalizing c with
  | nil => rfl
  | cons w ws ih => exact ih (c.emit w)

/-- All calls succeed, given the room before the first. -/
def AllSucceed : List Writer → ℕ → Prop
  | [], _         => True
  | w :: ws, room => 0 ≤ (w room).1 ∧ AllSucceed ws (room - min (w room).1.toNat room)

lemma exists_tryAll_iff (ws : List Writer) (c : Cursor) :
    (∃ c', c.tryAll ws = some c') ↔ AllSucceed ws c.room := by
  induction ws generalizing c with
  | nil => exact iff_of_true ⟨c, rfl⟩ trivial
  | cons w ws ih =>
    rw [AllSucceed, Cursor.tryAll_cons, Cursor.tryEmit]
    by_cases hneg : (w c.room).1 < 0
    · rw [if_pos hneg]
      constructor
      · rintro ⟨c', hc'⟩
        cases hc'
      · rintro ⟨hnonneg, -⟩
        exact absurd hneg (not_lt.mpr hnonneg)
    · rw [if_neg hneg, Option.bind_some, ih (c.emit w)]
      exact (and_iff_right (not_lt.mp hneg)).symm

/-! ### Terminated buffers -/

/-- What some calls store one after the other, given the room before the first. -/
def storedBy : List Writer → ℕ → List (List UInt8)
  | [], _         => []
  | w :: ws, room => (w room).2 :: storedBy ws (room - min (w room).1.toNat room)

lemma storedBy_append (ws ws' : List Writer) (room : ℕ) :
    storedBy (ws ++ ws') room = storedBy ws room ++ storedBy ws' (roomAfter ws room) := by
  induction ws generalizing room with
  | nil => rfl
  | cons w ws ih => exact congrArg ((w room).2 :: ·) (ih _)

lemma roomAfter_snprintf (text : List UInt8) (ws : List Writer) (room : ℕ) :
    roomAfter (snprintf text :: ws) room = roomAfter ws (room - text.length) := by
  rw [roomAfter, snprintf, Int.toNat_natCast, Nat.min_comm, ← Nat.sub_eq_sub_min]

lemma storedBy_snprintf (text : List UInt8) (ws : List Writer) (room : ℕ) :
    storedBy (snprintf text :: ws) room = stored text room :: storedBy ws (room - text.length) := by
  rw [storedBy, snprintf, Int.toNat_natCast, Nat.min_comm, ← Nat.sub_eq_sub_min]

/-- Of some stores one after the other, those that stored any bytes. -/
def effective (stores : List (List UInt8)) : List (List UInt8) := stores.filter (· ≠ [])

@[simp] lemma effective_append (stores stores' : List (List UInt8)) :
    effective (stores ++ stores') = effective stores ++ effective stores' := List.filter_append _ _

@[simp] lemma effective_nothing : effective [[]] = [] := rfl

/-- Of some stores one after the other, the last that stored any bytes stored a terminator. -/
def EndsTerminated (stores : List (List UInt8)) : Prop := 0 ∈ (effective stores).getLastD []

instance : DecidablePred EndsTerminated := fun stores =>
  inferInstanceAs (Decidable (0 ∈ (effective stores).getLastD []))

lemma endsTerminated_congr {stores stores' : List (List UInt8)}
    (h : effective stores = effective stores') : EndsTerminated stores ↔ EndsTerminated stores' := by
  rw [EndsTerminated, EndsTerminated, h]

lemma endsTerminated_concat (stores : List (List UInt8)) (bytes : List UInt8) :
    EndsTerminated (stores ++ [bytes]) ↔ if bytes = [] then EndsTerminated stores else 0 ∈ bytes := by
  by_cases hnil : bytes = []
  · rw [if_pos hnil, hnil]
    exact endsTerminated_congr (by simp)
  · rw [if_neg hnil, EndsTerminated, effective_append, show effective [bytes] = [bytes] from
      List.filter_eq_self.mpr (by simpa using hnil), List.getLastD_concat]

/-- The call never stores more bytes than there is room for. -/
def Bounded (w : Writer) : Prop := ∀ room, (w room).2.length ≤ room

lemma bounded_snprintf (text : List UInt8) : Bounded (snprintf text) := stored_length_le text

lemma bounded_wcstombs (chars : List (Option (List UInt8))) : Bounded (wcstombs chars) := by
  intro room
  have hle := convert_length_le chars room
  simp only [wcstombs]
  match h : convert chars room with
  | (bytes, .invalid) => rwa [h] at hle
  | (bytes, .full) => rwa [h] at hle
  | (bytes, .finished) =>
    rw [h] at hle
    simp only
    split_ifs with hlt
    · rwa [List.length_append]
    · exact hle

/-- A call stores nothing behind the room it was given. -/
lemma Bounded.drop_mem_emit {w : Writer} (h : Bounded w) {c : Cursor} {n : ℕ}
    (hn : c.pos + c.room ≤ n) : (c.emit w).mem.drop n = c.mem.drop n := by
  apply List.ext_getElem?
  intro i
  rw [List.getElem?_drop, List.getElem?_drop]
  refine Write.apply_getElem?_of_not_covers _ _ _ ?_
  have hle := h c.room
  simp only [Write.Covers]
  omega

lemma drop_mem_emitAll {ws : List Writer} (h : ∀ w ∈ ws, Bounded w) {c : Cursor} {n : ℕ}
    (hn : c.pos + c.room ≤ n) : (c.emitAll ws).mem.drop n = c.mem.drop n := by
  induction ws generalizing c with
  | nil => rfl
  | cons w ws ih =>
    have hpos := c.emit_pos w
    have hroom := c.emit_room_le w
    rw [Cursor.emitAll_cons, ih (fun w' hw' => h w' (List.mem_cons_of_mem _ hw')) (by omega),
      (h w List.mem_cons_self).drop_mem_emit hn]

/-- The room of the cursor is all that is left of the buffer. -/
def Cursor.Fits (c : Cursor) : Prop := c.pos + c.room = c.mem.length

lemma Cursor.Fits.emit {c : Cursor} (h : c.Fits) (w : Writer) : (c.emit w).Fits := by
  rw [Fits] at h ⊢
  rw [emit_mem_length, ← h]
  simp only [Cursor.emit]
  omega

lemma Cursor.Fits.emitAll {c : Cursor} (h : c.Fits) (ws : List Writer) : (c.emitAll ws).Fits := by
  induction ws generalizing c with
  | nil => exact h
  | cons w ws ih => exact ih (h.emit w)

/-- Bytes stored at the cursor within its room. -/
lemma Cursor.Fits.put_eq {c : Cursor} (h : c.Fits) {bytes : List UInt8}
    (hle : bytes.length ≤ c.room) :
    c.put bytes = c.mem.take c.pos ++ (bytes ++ c.mem.drop (c.pos + bytes.length)) := by
  have hfit : c.pos + bytes.length ≤ c.mem.length := by
    rw [← h]
    exact Nat.add_le_add_left hle _
  exact Write.apply_eq_append _ _ _ hfit

lemma Cursor.Fits.getElem?_put {c : Cursor} (h : c.Fits) {bytes : List UInt8}
    (hle : bytes.length ≤ c.room) {i : ℕ} (hi : i < bytes.length) :
    (c.put bytes)[c.pos + i]? = bytes[i]? := by
  have hpos : (c.mem.take c.pos).length = c.pos := by
    rw [List.length_take, ← h]
    exact Nat.min_eq_left (Nat.le_add_right _ _)
  rw [h.put_eq hle, List.getElem?_append_right (hpos.le.trans (Nat.le_add_right _ _)), hpos,
    Nat.add_sub_cancel_left, List.getElem?_append_left hi]

lemma Cursor.Fits.mem_put {c : Cursor} (h : c.Fits) {bytes : List UInt8}
    (hle : bytes.length ≤ c.room) {b : UInt8} (hb : b ∈ bytes) : b ∈ c.put bytes := by
  rw [h.put_eq hle]
  exact List.mem_append_right _ (List.mem_append_left _ hb)

/-- A buffer that holds a terminator if the last bytes stored in it end with one keeps doing so. -/
lemma Cursor.Fits.zero_mem_put {c : Cursor} (h : c.Fits) {stores : List (List UInt8)}
    (hstores : EndsTerminated stores → 0 ∈ c.mem) {bytes : List UInt8} (hle : bytes.length ≤ c.room)
    (hends : EndsTerminated (stores ++ [bytes])) : 0 ∈ c.put bytes := by
  rw [endsTerminated_concat] at hends
  by_cases hnil : bytes = []
  · rw [if_pos hnil] at hends
    rw [hnil, Cursor.put_nil]
    exact hstores hends
  · rw [if_neg hnil] at hends
    exact h.mem_put hle hends

/-- The call stores a terminator whenever there is room. -/
def Terminating (w : Writer) : Prop :=
  ∀ room, (w room).2.length ≤ room ∧ (room ≠ 0 → 0 ∈ (w room).2)

lemma zero_mem_stored (text : List UInt8) {room : ℕ} (h : room ≠ 0) : 0 ∈ stored text room := by
  rw [stored, if_neg h]
  exact List.mem_append_right _ (List.mem_singleton_self 0)

lemma terminating_stored (result : ℤ) (text : List UInt8) :
    Terminating fun room => (result, stored text room) :=
  fun room => ⟨stored_length_le text room, zero_mem_stored text⟩

lemma terminating_snprintf (text : List UInt8) : Terminating (snprintf text) :=
  terminating_stored text.length text

/-- Such a call keeps a terminator in the buffer. -/
lemma Terminating.zero_mem_put {w : Writer} (hw : Terminating w) {c : Cursor} (h : c.Fits)
    (hzero : 0 ∈ c.mem ∨ c.room ≠ 0) : 0 ∈ c.put (w c.room).2 := by
  by_cases hroom : c.room = 0
  · have hnil : (w c.room).2 = [] :=
      List.length_eq_zero_iff.mp (Nat.le_zero.mp (hroom ▸ (hw c.room).1))
    rw [hnil, Cursor.put_nil]
    exact hzero.resolve_right (not_not.mpr hroom)
  · exact h.mem_put (hw c.room).1 ((hw c.room).2 hroom)

lemma Terminating.zero_mem_emit {w : Writer} (hw : Terminating w) {c : Cursor} (h : c.Fits)
    (hzero : 0 ∈ c.mem ∨ c.room ≠ 0) : 0 ∈ (c.emit w).mem :=
  hw.zero_mem_put h hzero

/-- The call stores a text without a zero byte, and then possibly a terminator; it moves behind the
text, or to the end of the room that it has filled. -/
def StoresText (w : Writer) : Prop :=
  ∀ room, 0 ≤ (w room).1 → ∃ text, 0 ∉ text ∧ ((w room).2 = text ∨ (w room).2 = text ++ [0]) ∧
    (w room).2.length ≤ room ∧
    ((w room).1.toNat = text.length ∨ room ≤ (w room).1.toNat ∧ (w room).2.length = room)

lemma storesText_snprintf {text : List UInt8} (h : 0 ∉ text) : StoresText (snprintf text) := by
  intro room _
  have hle := stored_length_le text room
  simp only [snprintf, stored, Int.toNat_natCast] at hle ⊢
  by_cases hroom : room = 0
  · simp only [if_pos hroom]
    exact ⟨[], List.not_mem_nil, Or.inl rfl, Nat.zero_le _, Or.inr ⟨hroom ▸ Nat.zero_le _, hroom.symm⟩⟩
  · rw [if_neg hroom] at hle ⊢
    refine ⟨text.take (room - 1), fun h0 => h (List.mem_of_mem_take h0), Or.inr rfl, hle, ?_⟩
    rw [List.length_append, List.length_take, List.length_singleton]
    omega

lemma zero_notMem_convert {chars : List (Option (List UInt8))}
    (h : ∀ bytes, some bytes ∈ chars → 0 ∉ bytes) (room : ℕ) : 0 ∉ (convert chars room).1 := by
  induction chars generalizing room with
  | nil => exact List.not_mem_nil
  | cons c chars ih =>
    match c with
    | none =>
      rw [convert]
      split_ifs
      · exact List.not_mem_nil
      · exact List.not_mem_nil
    | some c =>
      rw [convert]
      split_ifs
      · rw [List.mem_append, not_or]
        exact ⟨h c List.mem_cons_self, ih (fun b hb => h b (List.mem_cons_of_mem _ hb)) _⟩
      · exact List.not_mem_nil

lemma storesText_wcstombs {chars : List (Option (List UInt8))}
    (h : ∀ bytes, some bytes ∈ chars → 0 ∉ bytes) : StoresText (wcstombs chars) := by
  intro room hnonneg
  have hle := bounded_wcstombs chars room
  have hzero := zero_notMem_convert h room
  simp only [wcstombs] at hnonneg hle ⊢
  match hconvert : convert chars room with
  | (bytes, .invalid) =>
    rw [hconvert] at hnonneg
    exact absurd hnonneg (not_le.mpr (Int.negSucc_lt_zero 0))
  | (bytes, .full) =>
    rw [hconvert] at hzero hle
    exact ⟨bytes, hzero, Or.inl rfl, hle, Or.inl (Int.toNat_natCast _)⟩
  | (bytes, .finished) =>
    rw [hconvert] at hzero hle
    refine ⟨bytes, hzero, ?_, hle, Or.inl (Int.toNat_natCast _)⟩
    simp only
    split_ifs
    · exact Or.inr rfl
    · exact Or.inl rfl

/-- A terminator stored last is followed by others. -/
lemma EndsTerminated.append {stores stores' : List (List UInt8)} (h : EndsTerminated stores)
    (h' : ∀ bytes ∈ stores', bytes = [] ∨ 0 ∈ bytes) : EndsTerminated (stores ++ stores') := by
  induction stores' generalizing stores with
  | nil => rwa [List.append_nil]
  | cons bytes stores' ih =>
    rw [List.forall_mem_cons] at h'
    rw [List.append_cons]
    refine ih ?_ h'.2
    rw [endsTerminated_concat]
    split_ifs with hnil
    · exact h
    · exact h'.1.resolve_left hnil

/-- What was stored last decides whether the buffer is terminated: a terminator stored last is still
there, and otherwise there is none once the room is used up. In front of the cursor there is never
one, except in the last byte of the buffer. -/
structure Cursor.Tracks (stores : List (List UInt8)) (c : Cursor) : Prop where
  fits     : c.Fits
  zero_mem : EndsTerminated stores → 0 ∈ c.mem
  front    : 0 ∉ c.mem.take (min c.pos (c.mem.length - 1))
  full     : c.room = 0 → ¬ EndsTerminated stores → 0 ∉ c.mem

lemma Cursor.Tracks.congr {c : Cursor} {stores stores' : List (List UInt8)} (h : c.Tracks stores)
    (heq : effective stores = effective stores') : c.Tracks stores' where
  fits            := h.fits
  zero_mem hends  := h.zero_mem ((endsTerminated_congr heq).mpr hends)
  front           := h.front
  full hroom hnot := h.full hroom fun hends => hnot ((endsTerminated_congr heq).mp hends)

/-- A call behind which the cursor stays where it is. -/
lemma Cursor.Tracks.put {c : Cursor} {stores : List (List UInt8)} (h : c.Tracks stores) {w : Writer}
    (hw : Bounded w) :
    ({ c with mem := c.put (w c.room).2 } : Cursor).Tracks (stores ++ [(w c.room).2]) := by
  have hle := hw c.room
  have hfits : c.pos + c.room = c.mem.length := h.fits
  refine ⟨hfits.trans (c.length_put _).symm, fun hends => h.fits.zero_mem_put h.zero_mem hle hends,
    ?_, fun hroom hnot => ?_⟩
  · have hpos : min c.pos (c.mem.length - 1) ≤ (c.mem.take c.pos).length := by
      rw [List.length_take]
      omega
    simp only [length_put]
    rw [h.fits.put_eq hle, List.take_append_of_le_length hpos, List.take_take,
      Nat.min_eq_left (Nat.min_le_left _ _)]
    exact h.front
  · have hnil : (w c.room).2 = [] :=
      List.length_eq_zero_iff.mp (Nat.le_zero.mp (hle.trans_eq hroom))
    rw [hnil, endsTerminated_concat, if_pos rfl] at hnot
    simp only [hnil, put_nil]
    exact h.full hroom hnot

/-- A call that stored a text, behind which the cursor moves within the text. -/
lemma Cursor.Tracks.advance {c : Cursor} {stores : List (List UInt8)} (h : c.Tracks stores)
    {w : Writer} (hw : StoresText w) (hnonneg : 0 ≤ (w c.room).1) {m : ℕ}
    (hm : m ≤ (w c.room).1.toNat) (hroom : m ≤ c.room) :
    (({ c with mem := c.put (w c.room).2 } : Cursor).advance m).Tracks
      (stores ++ [(w c.room).2]) := by
  obtain ⟨text, hzero, hstored, hle, hmoved⟩ := hw c.room hnonneg
  have hfits : c.pos + c.room = c.mem.length := h.fits
  have hput := h.fits.put_eq hle
  have htext : text.length ≤ (w c.room).2.length := by
    rcases hstored with heq | heq
    · rw [heq]
    · rw [heq, List.length_append]
      exact Nat.le_add_right _ _
  have hpos : (c.mem.take c.pos).length = c.pos := by
    rw [List.length_take]
    omega
  refine ⟨?_, fun hends => h.fits.zero_mem_put h.zero_mem hle hends, ?_, fun hused hnot => ?_⟩
  · simp only [Fits, advance_mem, advance_pos, advance_room, length_put]
    omega
  · simp only [advance_mem, advance_pos, length_put]
    rw [hput, List.take_append, hpos, List.mem_append, not_or]
    constructor
    · -- where the cursor is in the last byte, it stays there
      intro h0
      refine h.front (List.mem_of_mem_take (i := min (c.pos + m) (c.mem.length - 1)) ?_)
      rw [List.take_take] at h0 ⊢
      rwa [show min (min (c.pos + m) (c.mem.length - 1)) (min c.pos (c.mem.length - 1)) =
        min (min (c.pos + m) (c.mem.length - 1)) c.pos by omega]
    · -- what is looked at of the bytes ends in the text
      have hlength : min (c.pos + m) (c.mem.length - 1) - c.pos ≤ text.length := by
        rcases hstored with heq | heq
        · rw [heq] at hmoved hle
          omega
        · rw [heq, List.length_append, List.length_singleton] at hmoved hle
          omega
      rw [List.take_append_of_le_length (hlength.trans htext)]
      rcases hstored with heq | heq
      · rw [heq]
        exact fun h0 => hzero (List.mem_of_mem_take h0)
      · rw [heq, List.take_append_of_le_length hlength]
        exact fun h0 => hzero (List.mem_of_mem_take h0)
  · simp only [advance_mem, advance_room] at hused ⊢
    rw [endsTerminated_concat] at hnot
    by_cases hnil : (w c.room).2 = []
    · rw [if_pos hnil] at hnot
      rw [hnil, put_nil]
      have hlength : (w c.room).2.length = 0 := List.length_eq_zero_iff.mpr hnil
      exact h.full (by omega) hnot
    · rw [if_neg hnil] at hnot
      have hlength : 0 < (w c.room).2.length := List.length_pos_iff.mpr hnil
      have hfront : 0 ∉ c.mem.take c.pos := by
        have hmin : min c.pos (c.mem.length - 1) = c.pos := by omega
        rw [← hmin]
        exact h.front
      rw [hput, List.drop_of_length_le (by omega), List.append_nil, List.mem_append, not_or]
      exact ⟨hfront, hnot⟩

lemma Cursor.Tracks.emit {c : Cursor} {stores : List (List UInt8)} (h : c.Tracks stores)
    {w : Writer} (hw : StoresText w) (hnonneg : 0 ≤ (w c.room).1) :
    (c.emit w).Tracks (stores ++ [(w c.room).2]) :=
  h.advance hw hnonneg (Nat.min_le_left _ _) (Nat.min_le_right _ _)

/-- A cursor that lags behind another one in the same buffer. -/
lemma Cursor.Tracks.lag {c d : Cursor} {stores : List (List UInt8)} (hd : d.Tracks stores)
    (hc : c.Fits) (hlength : d.mem.length = c.mem.length) {m : ℕ} (hm : d.room + m ≤ c.room) :
    (⟨d.mem, c.pos + m, c.room - m⟩ : Cursor).Tracks stores := by
  have hfits : d.pos + d.room = d.mem.length := hd.fits
  have hfits' : c.pos + c.room = c.mem.length := hc
  refine ⟨?_, hd.zero_mem, fun h0 => ?_, fun hroom hnot => hd.full ?_ hnot⟩
  · simp only [Fits]
    omega
  · refine hd.front (List.mem_of_mem_take (i := min (c.pos + m) (d.mem.length - 1)) ?_)
    rw [List.take_take]
    rwa [Nat.min_eq_left (by omega)]
  · simp only at hroom
    omega

/-- Nothing but the byte at the cursor can be a terminator, and not even that one unless `t`. -/
structure Cursor.Unterminated (t : Prop) (c : Cursor) : Prop where
  fits   : c.Fits
  clean  : ¬ t → 0 ∉ c.mem
  before : 0 < c.room → 0 ∉ c.mem.take c.pos
  behind : 0 < c.room → 0 ∉ c.mem.drop (c.pos + 1)

/-- The bytes behind the cursor stay clean. -/
lemma Cursor.Unterminated.zero_notMem_drop {c : Cursor} {t : Prop} (h : c.Unterminated t)
    (hroom : 0 < c.room) {n : ℕ} (hn : c.pos + 1 ≤ n) : 0 ∉ c.mem.drop n := by
  intro h0
  exact h.behind hroom (List.drop_subset_drop_left c.mem hn h0)

lemma Cursor.Unterminated.emit {c : Cursor} {t : Prop} (h : c.Unterminated t) {w : Writer}
    (hw : StoresText w) (hnonneg : 0 ≤ (w c.room).1) :
    (c.emit w).Unterminated (if (w c.room).2 = [] then t else 0 ∈ (w c.room).2) := by
  obtain ⟨text, hzero, hstored, hle, hmoved⟩ := hw c.room hnonneg
  have hput := h.fits.put_eq hle
  have hpos : (c.mem.take c.pos).length = c.pos := by
    rw [List.length_take, ← h.fits]
    omega
  have hmem : (c.emit w).mem = c.put (w c.room).2 := rfl
  -- where there is room left, the cursor has moved behind the text
  have hbehind : 0 < (c.emit w).room → 0 < c.room ∧ (c.emit w).pos = c.pos + text.length := by
    simp only [Cursor.emit]
    omega
  refine ⟨h.fits.emit w, ?_, ?_, ?_⟩
  · intro hclean
    by_cases hnil : (w c.room).2 = []
    · rw [if_pos hnil] at hclean
      rw [hmem, hnil, put_nil]
      exact h.clean hclean
    · rw [if_neg hnil] at hclean
      have hlength := List.length_pos_iff.mpr hnil
      have hroom : 0 < c.room := hlength.trans_le hle
      rw [hmem, hput, List.mem_append, List.mem_append, not_or, not_or]
      exact ⟨h.before hroom, hclean, h.zero_notMem_drop hroom (by omega)⟩
  · intro hleft
    obtain ⟨hroom, hpos'⟩ := hbehind hleft
    rw [hmem, hput, hpos', List.take_append, hpos, List.take_of_length_le (by omega),
      List.mem_append, not_or]
    refine ⟨h.before hroom, ?_⟩
    rw [Nat.add_sub_cancel_left]
    rcases hstored with heq | heq
    · rwa [heq, List.take_left]
    · rwa [heq, List.append_assoc, List.take_left]
  · intro hleft
    obtain ⟨hroom, hpos'⟩ := hbehind hleft
    rw [hmem, hput, hpos', List.drop_append, hpos, List.drop_of_length_le (by omega),
      List.nil_append, Nat.add_assoc, Nat.add_sub_cancel_left]
    rcases hstored with heq | heq
    · rw [heq, List.drop_append, List.drop_of_length_le (by omega), List.nil_append,
        Nat.add_sub_cancel_left, List.drop_drop]
      exact h.zero_notMem_drop hroom (by omega)
    · have hlen : text.length + 1 = (text ++ [0]).length := by simp
      rw [heq, hlen, List.drop_left]
      exact h.zero_notMem_drop hroom (by omega)

/-- Calls that leave no terminator. -/
theorem zero_notMem_emitAll {ws : List Writer} (hws : ∀ w ∈ ws, StoresText w) {c : Cursor}
    {stores : List (List UInt8)} (h : c.Unterminated (EndsTerminated stores))
    (hsucceed : AllSucceed ws c.room) (hnot : ¬ EndsTerminated (stores ++ storedBy ws c.room)) :
    0 ∉ (c.emitAll ws).mem := by
  induction ws generalizing c stores with
  | nil =>
    rw [storedBy, List.append_nil] at hnot
    exact h.clean hnot
  | cons w ws ih =>
    obtain ⟨hnonneg, hrest⟩ := hsucceed
    have hemit := h.emit (hws w List.mem_cons_self) hnonneg
    rw [← endsTerminated_concat] at hemit
    rw [storedBy, List.append_cons] at hnot
    exact ih (fun w' hw' => hws w' (List.mem_cons_of_mem _ hw')) hemit hrest hnot

end Printf
