import CLogging.Stack.Terminated

/-!
# What the stack text contains

A text that does not fit has been stored as far as there is space before the fallback string is
copied over its beginning. What is left of it behind the fallback string shows up in the text, unless
a later call stores something over it.
-/

namespace CLogging

open C Printf Memory

/-! ### What the calls should append -/

/-- What a call should append, given the space left: its text if it is shorter than that, and the
fallback string otherwise. -/
def FallbackCall.wanted (k : FallbackCall) (room : ℕ) : List UInt8 :=
  if k.failure = none ∧ k.text.bytes.length < room then k.text.bytes else snprintfFailed.bytes

/-- What the calls should append one behind the other, with the space left as it is at each. -/
def wantedPieces : List FallbackCall → ℕ → List UInt8
  | [], _         => []
  | k :: ks, room => k.wanted room ++ wantedPieces ks (room - (k.piece room).length)

/-- Some text is shorter than the space left at its call, but not than this as an `int`. -/
def Misjudges : List FallbackCall → ℕ → Prop
  | [], _         => False
  | k :: ks, room =>
    (k.failure = none ∧ k.text.bytes.length < room ∧ ¬ k.Fits room) ∨
      Misjudges ks (room - (k.piece room).length)

/-- This takes a buffer of more than two gigabytes. -/
lemma not_misjudges_of_lt (ks : List FallbackCall) {room : ℕ} (h : room < 2 ^ 31) :
    ¬ Misjudges ks room := by
  induction ks generalizing room with
  | nil => exact not_false
  | cons k ks ih =>
    rintro (⟨hfailure, hlt, hfits⟩ | hrest)
    · refine hfits ⟨hfailure, ?_⟩
      rw [int_natCast h]
      exact_mod_cast hlt
    · exact ih ((Nat.sub_le _ _).trans_lt h) hrest

/-- With no space left nothing is printed. -/
lemma printedPieces_zero (ks : List FallbackCall) : printedPieces ks 0 = [] := by
  induction ks with
  | nil => rfl
  | cons k ks ih =>
    have hpiece : k.piece 0 = [] := List.length_eq_zero_iff.mp (Nat.le_zero.mp (length_piece_le k 0))
    rw [printedPieces, hpiece, List.nil_append, Nat.zero_sub, ih]

/-- What is printed is what should be, up to the end of the buffer. -/
lemma prefix_wantedPieces {ks : List FallbackCall} {room : ℕ} (h : ¬ Misjudges ks room) :
    printedPieces ks room <+: wantedPieces ks room := by
  induction ks generalizing room with
  | nil => exact List.prefix_rfl
  | cons k ks ih =>
    rw [Misjudges, not_or] at h
    obtain ⟨hjudged, hrest⟩ := h
    rw [printedPieces, wantedPieces]
    by_cases hfits : k.Fits room
    · have hwanted : k.wanted room = k.piece room := by
        rw [FallbackCall.wanted, if_pos ⟨hfits.1, hfits.lt⟩, piece_of_fits hfits]
      rw [hwanted, List.prefix_append_right_inj]
      exact ih hrest
    · have hwanted : k.wanted room = snprintfFailed.bytes :=
        if_neg fun hshort => hjudged ⟨hshort.1, hshort.2, hfits⟩
      have hpiece : k.piece room = snprintfFailed.bytes.take (fallbackLength room) := if_neg hfits
      have hlength := length_piece_of_not_fits hfits
      by_cases hroom : room < 17
      · -- the fallback string uses up the space
        have hfull : fallbackLength room = room := if_pos hroom
        rw [hlength, hfull, Nat.sub_self, printedPieces_zero, List.append_nil, hwanted, hpiece]
        exact (List.take_prefix _ _).trans (List.prefix_append _ _)
      · -- the fallback string stands as a whole, and the calls behind it go on from there
        have hwhole : fallbackLength room = snprintfFailed.bytes.length := if_neg hroom
        rw [hwhole, List.take_length] at hpiece
        rw [hwanted, ← hpiece, List.prefix_append_right_inj]
        exact ih hrest

/-! ### What the text contains -/

/-- The text is a beginning of what the calls should append, and ends before the last byte. All of it
was appended: no byte is left from a text that did not fit, or from before. -/
structure OnlyAppended (ks : List FallbackCall) (mem buffer : List UInt8) : Prop where
  wanted   : cstr buffer <+: wantedPieces ks mem.length
  length   : (cstr buffer).length ≤ mem.length - 1
  appended : cstr buffer <+: printedPieces ks mem.length

/-- What was printed ends the text: it reaches the last byte, or a terminator is behind it. That one
was stored by the last `vsnprintf` that stored anything there, or was there before. -/
def EndsText (ks : List FallbackCall) (mem : List UInt8) : Prop :=
  mem.length - 1 ≤ (printedPieces ks mem.length).length ∨
    LastStored (vsnprintfStores ks 0 mem.length) (printedPieces ks mem.length).length 0 ∨
    (∀ w ∈ vsnprintfStores ks 0 mem.length, ¬ w.Covers (printedPieces ks mem.length).length) ∧
      mem[(printedPieces ks mem.length).length]? = some 0

/-- The buffer of `get_thread_stack` on return: the last byte is a terminator. -/
lemma cstr_storeLast (ks : List FallbackCall) {mem : List UInt8} (hne : mem ≠ []) :
    cstr (storeLast (snprintfFallbackAll ks ⟨mem, 0, mem.length⟩)) =
      cstr ((snprintfFallbackAll ks ⟨mem, 0, mem.length⟩).mem.take (mem.length - 1)) := by
  have hlt : mem.length - 1 < (snprintfFallbackAll ks ⟨mem, 0, mem.length⟩).mem.length := by
    rw [length_mem_snprintfFallbackAll]
    exact Nat.sub_one_lt fun hzero => hne (List.length_eq_zero_iff.mp hzero)
  rw [storeLast_snprintfFallbackAll, List.set_eq_take_append_cons_drop, if_pos hlt,
    cstr_append_zero_cons]

/-- The buffer begins with what was printed, and behind that a terminator is one that the calls of
`vsnprintf` alone would leave there. -/
lemma exists_mem_eq_append (ks : List FallbackCall) (mem : List UInt8) :
    ∃ rest, (snprintfFallbackAll ks ⟨mem, 0, mem.length⟩).mem =
      printedPieces ks mem.length ++ rest ∧
      (mem.length - 1 ≤ (printedPieces ks mem.length).length ∨ rest.head? = some 0 ↔
        EndsText ks mem) := by
  have hstart : (Cursor.mk mem 0 mem.length).Fits := Nat.zero_add _
  have hpos := (snprintfFallbackAll_pos ks ⟨mem, 0, mem.length⟩).trans (Nat.zero_add _)
  have htake := take_snprintfFallbackAll hstart ks
  rw [hpos, List.take_zero, List.nil_append] at htake
  refine ⟨_, (List.take_append_drop (printedPieces ks mem.length).length _).symm.trans
    (congrArg (· ++ _) htake), or_congr_right' fun hends => ?_⟩
  have hlt : (printedPieces ks mem.length).length < mem.length := by omega
  rw [List.head?_drop, getElem?_snprintfFallbackAll ks hpos.le]
  exact applyAll_getElem?_eq_some_iff hlt

/-- Only what was appended is in the text exactly if what was printed ends it, and no text that is
short enough was replaced by something else. -/
theorem onlyAppended_iff (ks : List FallbackCall) {mem : List UInt8} (hne : mem ≠ []) :
    OnlyAppended ks mem (storeLast (snprintfFallbackAll ks ⟨mem, 0, mem.length⟩)) ↔
      EndsText ks mem ∧ (Misjudges ks mem.length →
        (printedPieces ks mem.length).take (mem.length - 1) <+: wantedPieces ks mem.length) := by
  obtain ⟨rest, hmem, hends⟩ := exists_mem_eq_append ks mem
  have hzero := zero_notMem_printedPieces ks mem.length
  have hlt : mem.length - 1 < (printedPieces ks mem.length ++ rest).length := by
    rw [← hmem, length_mem_snprintfFallbackAll]
    exact Nat.sub_one_lt fun hzero => hne (List.length_eq_zero_iff.mp hzero)
  have htext := cstr_storeLast ks hne
  rw [hmem] at htext
  rw [← hends]
  constructor
  · -- what is read ends where the text ends, so the text is what was printed
    rintro ⟨hwanted, -, happended⟩
    rw [htext] at hwanted happended
    have hprinted := (cstr_take_prefix_iff hzero hlt).mp happended
    rw [cstr_take_append hzero hprinted] at hwanted
    exact ⟨hprinted, fun _ => hwanted⟩
  · rintro ⟨hprinted, hwanted⟩
    have heq := htext.trans (cstr_take_append hzero hprinted)
    refine ⟨?_, ?_, ?_⟩
    · rw [heq]
      by_cases hjudges : Misjudges ks mem.length
      · exact hwanted hjudges
      · exact (List.take_prefix _ _).trans (prefix_wantedPieces hjudges)
    · rw [heq]
      exact List.length_take_le _ _
    · rw [heq]
      exact List.take_prefix _ _

/-! ### The last call -/

lemma printedPieces_concat (ks : List FallbackCall) (k : FallbackCall) (room : ℕ) :
    printedPieces (ks ++ [k]) room =
      printedPieces ks room ++ k.piece (room - (printedPieces ks room).length) := by
  induction ks generalizing room with
  | nil => exact List.append_nil _
  | cons k' ks ih =>
    rw [List.cons_append, printedPieces, ih, printedPieces, List.length_append, Nat.sub_sub,
      List.append_assoc]

/-- What the last call leaves behind what was printed. -/
lemma endsText_concat_iff (ks : List FallbackCall) (k : FallbackCall) (mem : List UInt8) :
    EndsText (ks ++ [k]) mem ↔
      mem.length - 1 ≤ (printedPieces (ks ++ [k]) mem.length).length ∨
        ((snprintfFallbackAll ks ⟨mem, 0, mem.length⟩).put (k.vsnprintf
          (snprintfFallbackAll ks ⟨mem, 0, mem.length⟩).room).2)[
            (printedPieces (ks ++ [k]) mem.length).length]? = some 0 := by
  have hpos := (snprintfFallbackAll_pos (ks ++ [k]) ⟨mem, 0, mem.length⟩).trans (Nat.zero_add _)
  obtain ⟨rest, hmem, hends⟩ := exists_mem_eq_append (ks ++ [k]) mem
  rw [snprintfFallbackAll_append, snprintfFallbackAll_cons, snprintfFallbackAll_nil] at hpos hmem
  have hhead : rest.head? = (snprintfFallback k
      (snprintfFallbackAll ks ⟨mem, 0, mem.length⟩)).mem[
        (printedPieces (ks ++ [k]) mem.length).length]? := by
    rw [hmem, List.getElem?_append_right (le_refl _), Nat.sub_self, List.head?_eq_getElem?]
  rw [← hends, hhead, getElem?_snprintfFallback k hpos.le]

/-- A text that fits ends what was printed. -/
theorem endsText_of_fits {ks : List FallbackCall} {k : FallbackCall} {mem : List UInt8}
    (h : k.Fits (mem.length - (printedPieces ks mem.length).length)) : EndsText (ks ++ [k]) mem := by
  have hstart : (Cursor.mk mem 0 mem.length).Fits := Nat.zero_add _
  have hfits := fits_snprintfFallbackAll hstart ks
  have hpos := (snprintfFallbackAll_pos ks ⟨mem, 0, mem.length⟩).trans (Nat.zero_add _)
  have hroom := snprintfFallbackAll_room ks ⟨mem, 0, mem.length⟩
  have hstored := bounded_vsnprintf k (snprintfFallbackAll ks ⟨mem, 0, mem.length⟩).room
  have hlast := h.vsnprintf_eq
  rw [← hroom] at hlast
  rw [hlast] at hstored
  rw [endsText_concat_iff, printedPieces_concat, piece_of_fits h, List.length_append, ← hpos, hlast,
    hfits.getElem?_put hstored (by simp)]
  refine Or.inr ?_
  rw [List.getElem?_append_right (le_refl _), Nat.sub_self]
  rfl

/-- A text that does not fit leaves something behind the fallback string, if there is space for
that. -/
theorem not_endsText_of_truncated {ks : List FallbackCall} {k : FallbackCall} {mem : List UInt8}
    (hfailure : k.failure = none)
    (hroom : 18 ≤ mem.length - (printedPieces ks mem.length).length)
    (htext : mem.length - (printedPieces ks mem.length).length ≤ k.text.bytes.length) :
    ¬ EndsText (ks ++ [k]) mem := by
  have hstart : (Cursor.mk mem 0 mem.length).Fits := Nat.zero_add _
  have hfits := fits_snprintfFallbackAll hstart ks
  have hpos := (snprintfFallbackAll_pos ks ⟨mem, 0, mem.length⟩).trans (Nat.zero_add _)
  have hleft := snprintfFallbackAll_room ks ⟨mem, 0, mem.length⟩
  have hlong : ¬ k.Fits (mem.length - (printedPieces ks mem.length).length) :=
    fun hfit => absurd hfit.lt (not_lt.mpr htext)
  have hpiece : (k.piece (mem.length - (printedPieces ks mem.length).length)).length = 16 := by
    rw [length_piece_of_not_fits hlong, fallbackLength, if_neg (by omega)]
  simp only at hleft
  rw [endsText_concat_iff, printedPieces_concat, List.length_append, hpiece, not_or]
  constructor
  · -- the fallback string does not reach the last byte
    omega
  · -- the byte behind it is one of the text that was cut off, which has no zero
    have hstored : (k.vsnprintf (snprintfFallbackAll ks ⟨mem, 0, mem.length⟩).room).2 =
        k.text.bytes.take ((snprintfFallbackAll ks ⟨mem, 0, mem.length⟩).room - 1) ++ [0] := by
      rw [FallbackCall.vsnprintf, hfailure, hleft]
      exact if_neg (by omega)
    have hlength : 16 < (k.text.bytes.take
        ((snprintfFallbackAll ks ⟨mem, 0, mem.length⟩).room - 1)).length := by
      rw [List.length_take, hleft]
      omega
    have hbound := bounded_vsnprintf k (snprintfFallbackAll ks ⟨mem, 0, mem.length⟩).room
    rw [hstored] at hbound
    rw [hstored, ← hpos, hfits.getElem?_put hbound (by rw [List.length_append]; omega),
      List.getElem?_append_left hlength]
    intro hzero
    exact k.text.noNul (List.mem_of_mem_take (List.mem_of_getElem? hzero))

/-- A text of two bytes, in a buffer with room for it. -/
theorem onlyAppended_iff_sample :
    OnlyAppended [⟨⟨[97, 98], by decide⟩, none⟩] (List.replicate 5 51)
      (storeLast (snprintfFallbackAll [⟨⟨[97, 98], by decide⟩, none⟩]
        ⟨List.replicate 5 51, 0, 5⟩)) := by
  have hne : List.replicate 5 (51 : UInt8) ≠ [] := by decide
  have hends : EndsText ([] ++ [⟨⟨[97, 98], by decide⟩, none⟩]) (List.replicate 5 51) :=
    endsText_of_fits (by decide)
  exact (onlyAppended_iff [⟨⟨[97, 98], by decide⟩, none⟩] hne).mpr
    ⟨hends, fun hjudges => absurd hjudges (not_misjudges_of_lt _ (by decide))⟩

theorem not_onlyAppended_truncated : ¬ ∀ (ks : List FallbackCall) (mem : List UInt8), mem ≠ [] →
    OnlyAppended ks mem (storeLast (snprintfFallbackAll ks ⟨mem, 0, mem.length⟩)) := by
  intro h
  have hwanted := (h [⟨⟨List.replicate 20 97, by decide⟩, none⟩] (List.replicate 20 0)
    (by decide)).wanted
  have hlength := hwanted.length_le
  revert hlength
  decide +kernel

end CLogging
