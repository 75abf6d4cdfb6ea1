import CLogging.Lib.Machine
import CLogging.Stack.Fallback

/-!
# Conservation of the cursor

`snprintf_fallback_impl` compares a result of type `int` with a size of type `size_t`, and subtracts
from that size modulo `2 ^ 64`. Here it is modelled with these types. However long the texts, and
whatever `vsnprintf` returns, the cursor and the space behind it make up the buffer.
-/

namespace CLogging

open C Printf Memory Machine

/-- `vsnprintf`, given the format and the arguments. It stores no more bytes than there is space for,
and can return anything. -/
abbrev BoundedWriter := {w : Writer // Bounded w}

/-- `*destination`, as its distance from the beginning of the buffer, and `*destination_size`. -/
structure SizedCursor where
  destination : ℕ
  size        : UInt64

/-- What a call does: what it subtracts from the size, and the bytes it stores. -/
structure SizedCall where
  size       : UInt64
  subtracted : UInt64
  stores     : List (Write UInt8)

/-- `snprintf_fallback_impl`, with the arithmetic of `size_t`. -/
def SizedCursor.snprintfFallbackImpl (fallbackString : List UInt8) (fallbackStringSize : UInt64)
    (c : SizedCursor) (vsnprintf : BoundedWriter) : SizedCursor × SizedCall :=
  let (snprintfResult, bytes) := vsnprintf.1 c.size.toNat
  if ¬ (0 ≤ snprintfResult ∧ snprintfResult < int c.size.toNat) then
    let sizeToCopy := if c.size < fallbackStringSize then c.size else fallbackStringSize - 1
    (⟨c.destination + sizeToCopy.toNat, c.size - sizeToCopy⟩,
      ⟨c.size, sizeToCopy,
        [⟨c.destination, bytes⟩, ⟨c.destination, fallbackString.take sizeToCopy.toNat⟩]⟩)
  else
    (⟨c.destination + snprintfResult.toNat, c.size - .ofInt snprintfResult⟩,
      ⟨c.size, .ofInt snprintfResult, [⟨c.destination, bytes⟩]⟩)

/-- `snprintf_fallback` as `get_thread_stack` calls it. It always returns. -/
def SizedCursor.snprintfFallback (c : SizedCursor) (vsnprintf : BoundedWriter) :
    Option (SizedCursor × SizedCall) :=
  some (c.snprintfFallbackImpl snprintfFailed.terminated (.ofNat snprintfFailed.terminated.length)
    vsnprintf)

/-! ### One call -/

lemma toNat_ofInt {x : ℤ} (hnonneg : 0 ≤ x) (hlt : x < 2 ^ 64) :
    (UInt64.ofInt x).toNat = x.toNat := by
  rw [UInt64.ofInt, Int.emod_eq_of_lt hnonneg hlt, UInt64.toNat_ofNat']
  exact Nat.mod_eq_of_lt (by omega)

/-- All of the fallback string is copied but its terminator, or all of the space is used up. -/
lemma sizeToCopy_le (size : UInt64) :
    (if size < .ofNat snprintfFailed.terminated.length then size
      else .ofNat snprintfFailed.terminated.length - 1) ≤ size := by
  have hlength : UInt64.ofNat snprintfFailed.terminated.length = 17 := rfl
  rw [hlength]
  split_ifs with h
  · exact UInt64.le_refl size
  · have hle := UInt64.le_iff_toNat_le.mp (UInt64.not_lt.mp h)
    exact UInt64.le_iff_toNat_le.mpr ((Nat.le_succ 16).trans hle)

/-- What is subtracted from the size is added to the destination, and everything is stored in the
space there was. -/
structure SizedCall.Conserves (o : SizedCall) (c c' : SizedCursor) : Prop where
  subtracted_le : o.subtracted ≤ o.size
  destination   : c'.destination = c.destination + o.subtracted.toNat
  size          : o.size = c.size ∧ c'.size = c.size - o.subtracted
  inside        : StaysBelow o.stores (c.destination + c.size.toNat)

lemma staysBelow_stores {c : SizedCursor} {bytes : List UInt8} (h : bytes.length ≤ c.size.toNat) :
    StaysBelow [⟨c.destination, bytes⟩] (c.destination + c.size.toNat) := by
  rw [staysBelow_cons]
  refine ⟨fun _ => ⟨Int.natCast_nonneg _, ?_⟩, staysBelow_nil _⟩
  simp only [Write.stop]
  exact_mod_cast Nat.add_le_add_left h c.destination

lemma conserves_snprintfFallback {c c' : SizedCursor} {vsnprintf : BoundedWriter} {o : SizedCall}
    (h : c.snprintfFallback vsnprintf = some (c', o)) : o.Conserves c c' := by
  have hprinted := staysBelow_stores (c := c) (vsnprintf.2 c.size.toNat)
  rw [SizedCursor.snprintfFallback, SizedCursor.snprintfFallbackImpl] at h
  by_cases hfits : 0 ≤ (vsnprintf.1 c.size.toNat).1 ∧
      (vsnprintf.1 c.size.toNat).1 < int c.size.toNat
  · -- the text fits: the cursor goes behind it
    simp only [if_neg (not_not.mpr hfits)] at h
    obtain ⟨rfl, rfl⟩ := Prod.mk.inj (Option.some.inj h)
    have hsize := hfits.2.trans_le (int_natCast_le c.size.toNat)
    have htoNat := toNat_ofInt hfits.1 (hsize.trans (by exact_mod_cast c.size.toNat_lt))
    refine ⟨?_, ?_, ⟨rfl, rfl⟩, hprinted⟩
    · simp only [UInt64.le_iff_toNat_le, htoNat]
      omega
    · rw [htoNat]
  · -- the call failed or was cut off: the fallback text is copied as far as the size goes
    simp only [if_pos hfits] at h
    obtain ⟨rfl, rfl⟩ := Prod.mk.inj (Option.some.inj h)
    have hle := sizeToCopy_le c.size
    refine ⟨hle, rfl, ⟨rfl, rfl⟩, ?_⟩
    rw [← List.singleton_append, staysBelow_append]
    refine ⟨hprinted, staysBelow_stores ?_⟩
    exact (List.length_take_le _ _).trans (UInt64.le_iff_toNat_le.mp hle)

/-- On a buffer that has a size of type `size_t`, this is the call as `get_thread_stack` makes it. -/
theorem snprintfFallback_sized (k : FallbackCall) {c : Cursor} (h : c.room < 2 ^ 64) :
    ∃ o, SizedCursor.snprintfFallback ⟨c.pos, .ofNat c.room⟩ ⟨k.vsnprintf, bounded_vsnprintf k⟩ =
        some (⟨(snprintfFallback k c).pos, .ofNat (snprintfFallback k c).room⟩, o) ∧
      applyAll o.stores c.mem = (snprintfFallback k c).mem := by
  have hroom : (UInt64.ofNat c.room).toNat = c.room := by
    rw [UInt64.toNat_ofNat']
    exact Nat.mod_eq_of_lt h
  rw [SizedCursor.snprintfFallback, SizedCursor.snprintfFallbackImpl, snprintfFallback,
    snprintfFallbackImpl]
  simp only [hroom]
  by_cases hfits : 0 ≤ (k.vsnprintf c.room).1 ∧ (k.vsnprintf c.room).1 < int c.room
  · -- the text fits: both cursors go behind it, and the size does not wrap
    simp only [if_neg (not_not.mpr hfits)]
    have hsize := hfits.2.trans_le (int_natCast_le c.room)
    have hle : (k.vsnprintf c.room).1.toNat ≤ c.room := by omega
    have hofInt : UInt64.ofInt (k.vsnprintf c.room).1 = .ofNat (k.vsnprintf c.room).1.toNat := by
      apply UInt64.toNat_inj.mp
      rw [toNat_ofInt hfits.1 (hsize.trans (by exact_mod_cast h)), UInt64.toNat_ofNat']
      exact (Nat.mod_eq_of_lt (hle.trans_lt h)).symm
    rw [hofInt, ← UInt64.ofNat_sub hle]
    exact ⟨_, rfl, rfl⟩
  · simp only [if_pos hfits]
    have hlt : UInt64.ofNat c.room < .ofNat snprintfFailed.terminated.length ↔
        c.room < snprintfFailed.terminated.length := by
      rw [UInt64.lt_iff_toNat_lt, hroom]
      exact Iff.rfl
    simp only [hlt]
    by_cases hshort : c.room < snprintfFailed.terminated.length
    · -- shorter than the fallback text: the size becomes 0
      simp only [if_pos hshort, hroom, UInt64.sub_self, Nat.sub_self, Cursor.advance]
      exact ⟨_, rfl, rfl⟩
    · simp only [if_neg hshort]
      have hle : snprintfFailed.terminated.length - 1 ≤ c.room :=
        (Nat.sub_le _ 1).trans (not_lt.mp hshort)
      have hone : UInt64.ofNat snprintfFailed.terminated.length - 1 =
          .ofNat (snprintfFailed.terminated.length - 1) := rfl
      rw [hone, ← UInt64.ofNat_sub hle]
      exact ⟨_, rfl, rfl⟩

/-! ### A sequence of calls -/

/-- The cursor and the space behind it make up the buffer, no subtraction ever wrapped around, and
every byte was stored in the buffer. -/
structure Conserved (s : UInt64) (c : SizedCursor) (outcomes : List SizedCall) : Prop where
  distance      : c.destination + c.size.toNat = s.toNat
  subtracted_le : ∀ o ∈ outcomes, o.subtracted ≤ o.size
  inside        : ∀ o ∈ outcomes, StaysBelow o.stores s.toNat

lemma Conserved.snprintfFallback {s : UInt64} {c c' : SizedCursor} {outcomes : List SizedCall}
    {vsnprintf : BoundedWriter} {o : SizedCall} (h : Conserved s c outcomes)
    (hstep : c.snprintfFallback vsnprintf = some (c', o)) : Conserved s c' (outcomes ++ [o]) := by
  have hcall := conserves_snprintfFallback hstep
  have hle := hcall.subtracted_le
  rw [hcall.size.1] at hle
  have hdistance := h.distance
  refine ⟨?_, ?_, ?_⟩
  · rw [hcall.destination, hcall.size.2, UInt64.toNat_sub_of_le _ _ hle]
    have hle' := UInt64.le_iff_toNat_le.mp hle
    omega
  · rw [List.forall_mem_append, List.forall_mem_singleton]
    exact ⟨h.subtracted_le, hcall.subtracted_le⟩
  · rw [List.forall_mem_append, List.forall_mem_singleton]
    refine ⟨h.inside, ?_⟩
    rw [← hdistance]
    exact hcall.inside

/-- The final store of `get_thread_stack`, at `destination[destinationSize - 1]`, is to the last byte
of a buffer at any address, even with no space left. -/
lemma Conserved.last {s : UInt64} {c : SizedCursor} {outcomes : List SizedCall}
    (h : Conserved s c outcomes) (address : UInt64) :
    address + .ofNat c.destination + (c.size - 1) = address + (s - 1) := by
  have hsize : UInt64.ofNat c.destination + c.size = s := by
    rw [← UInt64.ofNat_toNat (x := s), ← h.distance, UInt64.ofNat_add, UInt64.ofNat_toNat]
  rw [← hsize, UInt64.sub_eq_add_neg, UInt64.sub_eq_add_neg, UInt64.add_assoc, UInt64.add_assoc]

/-- Whatever the calls return, the cursor and the space behind it make up the buffer. -/
theorem cursor_conserved (s : UInt64) (calls : List BoundedWriter) :
    ∃ c outcomes, run SizedCursor.snprintfFallback ⟨0, s⟩ calls = some (c, outcomes) ∧
      Conserved s c outcomes ∧ (c.destination + c.size.toNat : ℤ) - 1 = s.toNat - 1 ∧
      ∀ address : UInt64, address + .ofNat c.destination + (c.size - 1) = address + (s - 1) := by
  have htotal : ∀ (c : SizedCursor) (vsnprintf : BoundedWriter),
      ∃ c' o, c.snprintfFallback vsnprintf = some (c', o) := fun c vsnprintf => ⟨_, _, rfl⟩
  obtain ⟨c, outcomes, hrun⟩ := exists_run htotal ⟨0, s⟩ calls
  have hstart : Conserved s ⟨0, s⟩ [] :=
    ⟨Nat.zero_add _, fun o ho => absurd ho List.not_mem_nil, fun o ho => absurd ho List.not_mem_nil⟩
  have hall := run_invariant (P := Conserved s)
    (fun c outcomes vsnprintf c' o _ h hstep => h.snprintfFallback hstep) hstart hrun
  refine ⟨c, outcomes, hrun, hall, ?_, hall.last⟩
  have hdistance := hall.distance
  omega

end CLogging
