import CLogging.Lib.CString
import CLogging.Lib.Memory
import Mathlib.Data.List.DropRight

/-!
# Messages without newlines

`FormatMessageA` ends its messages with a newline. `FormatMessageA_no_newline` goes backwards from
the last character, past all carriage returns and line feeds, and ends the string there.
-/

namespace CLogging

open C Memory

/-- What `FormatMessageA` returns, and the buffer behind the call. -/
structure FormatMessageA where
  result : UInt32
  buffer : List UInt8

/-- `'\r'` or `'\n'`. -/
def isNewline (b : UInt8) : Bool := b = 13 ∨ b = 10

/-- The loop over the characters from the last one on. `where_is_last_char` is given as its offset
plus one, which is 0 before the start of the buffer. It is returned, and the offsets that were read;
`none` where one of them is not in the buffer. -/
def skipNewlines (buffer : List UInt8) : ℕ → Option (ℕ × List ℕ)
  | 0     => some (0, [])
  | k + 1 =>
    match buffer[k]? with
    | none   => none
    | some b =>
      if b ≠ 13 ∧ b ≠ 10 then some (k + 1, [k])
      else (skipNewlines buffer k).map fun (n, reads) => (n, k :: reads)

/-- What `FormatMessageA_no_newline` returns, the buffer, the offsets it reads and its stores. -/
structure Trimmed where
  result : UInt32
  buffer : List UInt8
  reads  : List ℕ
  writes : List (Write UInt8)

/-- `FormatMessageA_no_newline`, given what `FormatMessageA` does. The pointer that is one behind
`where_is_last_char` is that offset plus one. `none` where it reads or stores outside the buffer. -/
def formatMessageANoNewline (m : FormatMessageA) : Option Trimmed :=
  if m.result = 0 then some ⟨0, m.buffer, [], []⟩
  else
    (skipNewlines m.buffer m.result.toNat).bind fun (n, reads) =>
      if n < m.buffer.length then
        some ⟨UInt32.ofNat n, (Write.mk (n : ℤ) [0]).apply m.buffer, reads, [⟨n, [0]⟩]⟩
      else none

/-- The characters of the message, without the newlines at its end. -/
def FormatMessageA.message (m : FormatMessageA) : List UInt8 :=
  (m.buffer.take m.result.toNat).rdropWhile isNewline

/-- The loop ends behind the last character that is kept. -/
lemma skipNewlines_eq {buffer : List UInt8} {k : ℕ} (h : k ≤ buffer.length) :
    ∃ reads, skipNewlines buffer k = some (((buffer.take k).rdropWhile isNewline).length, reads) ∧
      ∀ i ∈ reads, i < k := by
  induction k with
  | zero => exact ⟨[], by simp [skipNewlines], fun i hi => absurd hi List.not_mem_nil⟩
  | succ k ih =>
    obtain ⟨reads, hreads, hlt⟩ := ih (Nat.le_of_succ_le h)
    have hk : buffer[k]? = some buffer[k] := List.getElem?_eq_getElem h
    rw [skipNewlines, hk, List.take_add_one, hk, Option.toList_some]
    simp only
    by_cases hkept : buffer[k] ≠ 13 ∧ buffer[k] ≠ 10
    · -- a character that stays: the loop ends here
      have hnot : ¬ isNewline buffer[k] := by
        simp only [isNewline, decide_eq_true_eq, not_or]
        exact hkept
      rw [if_pos hkept, List.rdropWhile_concat_neg _ _ _ hnot]
      refine ⟨[k], ?_, fun i hi => ?_⟩
      · rw [List.length_append, List.length_singleton, List.length_take,
          Nat.min_eq_left (Nat.le_of_succ_le h)]
      · obtain rfl := List.mem_singleton.mp hi
        exact Nat.lt_succ_self _
    · -- a newline: the loop goes on before it
      have hnewline : isNewline buffer[k] := by
        simp only [isNewline, decide_eq_true_eq]
        by_contra hnot
        exact hkept (not_or.mp hnot)
      rw [if_neg hkept, List.rdropWhile_concat_pos _ _ _ hnewline, hreads]
      refine ⟨k :: reads, rfl, fun i hi => ?_⟩
      rcases List.mem_cons.mp hi with rfl | hmem
      · exact Nat.lt_succ_self _
      · exact (hlt i hmem).trans (Nat.lt_succ_self _)

/-- The message is a prefix of what was formatted. -/
lemma FormatMessageA.message_prefix (m : FormatMessageA) :
    m.message <+: m.buffer.take m.result.toNat :=
  List.rdropWhile_prefix _ _

lemma FormatMessageA.length_message_le (m : FormatMessageA) :
    m.message.length ≤ m.result.toNat :=
  m.message_prefix.length_le.trans (List.length_take_le _ _)

lemma FormatMessageA.take_buffer (m : FormatMessageA) :
    m.buffer.take m.message.length = m.message :=
  (List.prefix_iff_eq_take.mp (m.message_prefix.trans (List.take_prefix _ _))).symm

/-- What is reported and in the buffer behind the call. -/
def FormatMessageA.trimmed (m : FormatMessageA) : FormatMessageA :=
  ⟨UInt32.ofNat m.message.length, (Write.mk (m.message.length : ℤ) [0]).apply m.buffer⟩

/-- What the function does where there is a byte behind the characters that were formatted. -/
lemma formatMessageANoNewline_eq {m : FormatMessageA} (hne : m.result ≠ 0)
    (hfit : m.result.toNat < m.buffer.length) : ∃ reads, (∀ i ∈ reads, i < m.result.toNat) ∧
      formatMessageANoNewline m =
        some ⟨m.trimmed.result, m.trimmed.buffer, reads, [⟨m.message.length, [0]⟩]⟩ := by
  obtain ⟨reads, hreads, hlt⟩ := skipNewlines_eq hfit.le
  have hin : m.message.length < m.buffer.length := m.length_message_le.trans_lt hfit
  rw [formatMessageANoNewline, if_neg hne, hreads, Option.bind_some]
  exact ⟨reads, hlt, if_pos hin⟩

lemma FormatMessageA.toNat_trimmed_result (m : FormatMessageA) :
    m.trimmed.result.toNat = m.message.length := by
  rw [trimmed, UInt32.toNat_ofNat']
  exact Nat.mod_eq_of_lt (m.length_message_le.trans_lt m.result.toNat_lt)

/-! ### What is trimmed -/

/-- The buffer keeps its bytes up to the last that is no newline, a terminator is stored behind it,
and nothing else is stored. A second call finds nothing to trim. -/
structure Trims (m : FormatMessageA) (t : Trimmed) : Prop where
  result_le  : t.result ≤ m.result
  newlines   : ∀ i, t.result.toNat ≤ i → i < m.result.toNat →
    ∃ b, m.buffer[i]? = some b ∧ isNewline b = true
  last       : t.result = 0 ∨ ∃ b, m.buffer[t.result.toNat - 1]? = some b ∧ isNewline b = false
  kept       : t.buffer.take t.result.toNat = m.buffer.take t.result.toNat
  terminated : t.buffer[t.result.toNat]? = some 0
  writes_eq  : t.writes = [⟨t.result.toNat, [0]⟩]
  buffer_eq  : t.buffer = applyAll t.writes m.buffer
  reads_lt   : ∀ i ∈ t.reads, i < m.result.toNat
  again      : ∃ t', formatMessageANoNewline ⟨t.result, t.buffer⟩ = some t' ∧
    t'.result = t.result ∧ t'.buffer = t.buffer

lemma FormatMessageA.isNewline_of_length_le {m : FormatMessageA} {i : ℕ}
    (hfit : m.result.toNat ≤ m.buffer.length) (hle : m.message.length ≤ i)
    (hlt : i < m.result.toNat) : ∃ b, m.buffer[i]? = some b ∧ isNewline b = true := by
  have hsplit : m.message ++ (m.buffer.take m.result.toNat).rtakeWhile isNewline =
      m.buffer.take m.result.toNat := List.rdropWhile_append_rtakeWhile
  have hget : m.buffer[i]? =
      ((m.buffer.take m.result.toNat).rtakeWhile isNewline)[i - m.message.length]? := by
    rw [← List.getElem?_take_of_lt hlt]
    conv_lhs => rw [← hsplit]
    exact List.getElem?_append_right hle
  have hin : i < m.buffer.length := hlt.trans_le hfit
  have hsome := List.getElem?_eq_getElem hin
  refine ⟨_, hsome, ?_⟩
  rw [hsome] at hget
  exact List.mem_rtakeWhile_imp (List.mem_of_getElem? hget.symm)

lemma FormatMessageA.not_isNewline_last {m : FormatMessageA} (hne : m.message ≠ []) :
    ∃ b, m.buffer[m.message.length - 1]? = some b ∧ isNewline b = false := by
  have hlast := List.rdropWhile_last_not isNewline (m.buffer.take m.result.toNat) hne
  refine ⟨_, ?_, Bool.eq_false_of_not_eq_true hlast⟩
  have hpos := List.length_pos_iff.mpr hne
  rw [← List.getElem?_take_of_lt (Nat.sub_one_lt hpos.ne'), m.take_buffer,
    List.getElem?_eq_getElem (Nat.sub_one_lt hpos.ne'), ← List.getLast_eq_getElem hne]
  rfl

/-- The buffer behind the call: the message and a terminator. -/
lemma FormatMessageA.trimmed_buffer {m : FormatMessageA}
    (hin : m.message.length < m.buffer.length) :
    m.trimmed.buffer = m.message ++ 0 :: m.buffer.drop (m.message.length + 1) := by
  rw [trimmed]
  simp only
  rw [Write.apply_eq_append _ _ _ hin, m.take_buffer]
  rfl

/-- The message without newlines, trimmed again, is the message. -/
lemma FormatMessageA.trimmed_message {m : FormatMessageA}
    (hin : m.message.length < m.buffer.length) : m.trimmed.message = m.message := by
  have htake : (m.message ++ 0 :: m.buffer.drop (m.message.length + 1)).take m.message.length =
      m.message := List.take_left
  rw [message, m.toNat_trimmed_result, trimmed_buffer hin, htake]
  exact List.rdropWhile_idempotent _ _

/-- A second call stores a terminator over the first. -/
lemma FormatMessageA.trimmed_trimmed {m : FormatMessageA}
    (hin : m.message.length < m.buffer.length) : m.trimmed.trimmed = m.trimmed := by
  have hfit : m.message.length + [(0 : UInt8)].length ≤
      (m.message ++ 0 :: m.buffer.drop (m.message.length + 1)).length := by
    rw [List.length_append, List.length_cons]
    exact Nat.add_le_add_left (Nat.le_add_left 1 _) _
  have htwice : (Write.mk (m.message.length : ℤ) [0]).apply
      (m.message ++ 0 :: m.buffer.drop (m.message.length + 1)) =
        m.message ++ 0 :: m.buffer.drop (m.message.length + 1) := by
    rw [Write.apply_eq_append _ _ _ hfit, List.take_left]
    simp
  rw [trimmed, trimmed_message hin, trimmed_buffer hin, htwice, ← trimmed_buffer hin]
  rfl

lemma FormatMessageA.exists_trimmed_again {m : FormatMessageA}
    (hin : m.message.length < m.buffer.length) : ∃ t,
      formatMessageANoNewline m.trimmed = some t ∧
        t.result = m.trimmed.result ∧ t.buffer = m.trimmed.buffer := by
  by_cases hnil : m.trimmed.result = 0
  · exact ⟨_, if_pos hnil, hnil.symm, rfl⟩
  · have hfit : m.trimmed.result.toNat < m.trimmed.buffer.length := by
      rw [m.toNat_trimmed_result, trimmed, Write.length_apply]
      exact hin
    obtain ⟨reads, -, heq⟩ := formatMessageANoNewline_eq hnil hfit
    rw [trimmed_trimmed hin] at heq
    exact ⟨_, heq, rfl, rfl⟩

/-- `FormatMessageA_no_newline` trims all newlines at the end of the message, and nothing else. -/
theorem formatMessageANoNewline_trims (m : FormatMessageA) (hne : m.result ≠ 0)
    (hfit : m.result.toNat < m.buffer.length) :
    ∃ t, formatMessageANoNewline m = some t ∧ Trims m t := by
  obtain ⟨reads, hreads, heq⟩ := formatMessageANoNewline_eq hne hfit
  have hin : m.message.length < m.buffer.length := m.length_message_le.trans_lt hfit
  have hresult := m.toNat_trimmed_result
  have hbuffer := FormatMessageA.trimmed_buffer hin
  refine ⟨_, heq, ?_⟩
  constructor
  · rw [UInt32.le_iff_toNat_le, hresult]
    exact m.length_message_le
  · -- what was cut off is newlines
    intro i hle hlt
    rw [hresult] at hle
    exact m.isNewline_of_length_le hfit.le hle hlt
  · -- the last character that stays is none
    by_cases hnil : m.message = []
    · refine Or.inl ?_
      rw [FormatMessageA.trimmed, hnil]
      rfl
    · rw [hresult]
      exact Or.inr (m.not_isNewline_last hnil)
  · simp only [hresult, hbuffer, m.take_buffer, List.take_left]
  · simp only [hresult, hbuffer]
    rw [List.getElem?_append_right (le_refl _), Nat.sub_self]
    rfl
  · simp only [hresult]
  · rfl
  · exact hreads
  · exact m.exists_trimmed_again hin

/-- The message `ab` with three newlines. -/
theorem formatMessageANoNewline_trims_sample :
    ∃ t, formatMessageANoNewline ⟨5, [97, 98, 10, 13, 10, 0]⟩ = some t ∧
      Trims ⟨5, [97, 98, 10, 13, 10, 0]⟩ t :=
  formatMessageANoNewline_trims ⟨5, [97, 98, 10, 13, 10, 0]⟩ (by decide) (by decide)

end CLogging
