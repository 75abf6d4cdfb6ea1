import CLogging.Lib.Bits
import CLogging.Stack.Symbols

/-!
# The address mask

On ARM64 the upper bits of a return address hold an authentication code. The mask keeps as many bits
as the highest address of a user program has.
-/

namespace CLogging

open Bits

/-- The shifts and ors give all bits below the highest. -/
lemma toNat_fillBits (x : UInt64) : (fillBits x).toNat = 2 ^ x.toNat.size - 1 := by
  have hfill : (fillBits x).toNat = fill 6 x.toNat := by
    simp [fillBits, fill, UInt64.toNat_or, UInt64.toNat_shiftRight]
  rw [hfill]
  exact fill_eq x.toNat_lt

/-- On ARM64 `get_thread_stack_init` sets the mask, if it initialises the module. -/
lemma getThreadStackInit_addressMask {env : InitEnv} {g : SymbolHandler} {mask : UInt64}
    (hstate : g.symbolsState = .notInitialized) (harm : g.addressMask = some mask)
    (h : (getThreadStackInit env g).2.1 = true) :
    (getThreadStackInit env g).1.addressMask = some (fillBits env.maximumApplicationAddress) := by
  rw [getThreadStackInit, if_pos hstate] at h ⊢
  cases hduplicate : env.duplicateHandle with
  | none =>
    rw [hduplicate] at h
    cases h
  | some handle =>
    rw [hduplicate] at h
    by_cases hsym : env.symInitialize
    · simp only [if_pos hsym, harm, Option.map_some]
    · simp only [if_neg hsym] at h
      cases h

/-- What the mask is for: an address that is not above the highest is kept, and found again
whatever the bits above it are. -/
structure StripsPac (g : SymbolHandler) (maxAddr : UInt64) : Prop where
  unchanged  : ∀ address ≤ maxAddr, stripPac g address = address
  idempotent : ∀ address, stripPac g (stripPac g address) = stripPac g address
  recovers   : ∀ address ≤ maxAddr, ∀ signed : UInt64,
    (∀ i < maxAddr.toNat.size, signed.toNat.testBit i = address.toNat.testBit i) →
      stripPac g signed = address
  size_le    : ∀ address, (stripPac g address).toNat.size ≤ maxAddr.toNat.size

/-- Under the mask an address leaves its remainder. -/
lemma toNat_stripPac {g : SymbolHandler} {maxAddr : UInt64}
    (h : g.addressMask = some (fillBits maxAddr)) (address : UInt64) :
    (stripPac g address).toNat = address.toNat % 2 ^ maxAddr.toNat.size := by
  rw [stripPac, h]
  simp only
  rw [UInt64.toNat_and, toNat_fillBits, Nat.and_two_pow_sub_one_eq_mod]

lemma mod_two_pow_size {address maxAddr : UInt64} (h : address ≤ maxAddr) :
    address.toNat % 2 ^ maxAddr.toNat.size = address.toNat := by
  have hle : address.toNat ≤ maxAddr.toNat := UInt64.le_iff_toNat_le.mp h
  exact Nat.mod_eq_of_lt (hle.trans_lt (Nat.lt_size_self _))

lemma stripsPac_of_mask {g : SymbolHandler} {maxAddr : UInt64}
    (h : g.addressMask = some (fillBits maxAddr)) : StripsPac g maxAddr where
  unchanged address hle := by
    apply UInt64.toNat_inj.mp
    rw [toNat_stripPac h, mod_two_pow_size hle]
  idempotent address := by
    apply UInt64.toNat_inj.mp
    rw [toNat_stripPac h, toNat_stripPac h, Nat.mod_mod]
  recovers address hle signed hbits := by
    apply UInt64.toNat_inj.mp
    rw [toNat_stripPac h, mod_two_pow_eq_of_testBit hbits, mod_two_pow_size hle]
  size_le address := by
    rw [toNat_stripPac h, Nat.size_le]
    exact Nat.mod_lt _ (Nat.two_pow_pos _)

/-- The mask that `get_thread_stack_init` computes covers exactly the bits of the highest address,
and strips everything above. -/
theorem addressMask_strips (env : InitEnv) (g : SymbolHandler) {mask : UInt64}
    (hstate : g.symbolsState = .notInitialized) (harm : g.addressMask = some mask)
    (hinit : (getThreadStackInit env g).2.1 = true) :
    (∃ mask, (getThreadStackInit env g).1.addressMask = some mask ∧
      mask.toNat = 2 ^ env.maximumApplicationAddress.toNat.size - 1) ∧
    StripsPac (getThreadStackInit env g).1 env.maximumApplicationAddress := by
  have hmask := getThreadStackInit_addressMask hstate harm hinit
  exact ⟨⟨_, hmask, toNat_fillBits _⟩, stripsPac_of_mask hmask⟩

/-- A process with addresses of 47 bits, on ARM64. -/
def armInit : InitEnv where
  duplicateHandle           := some 8
  moduleFileName            := .empty
  symInitialize             := true
  closeHandle               := true
  maximumApplicationAddress := 0x00007FFFFFFEFFFF

theorem addressMask_strips_sample :
    StripsPac (getThreadStackInit armInit (⟨.notInitialized, none, some (-1)⟩)).1
      0x00007FFFFFFEFFFF :=
  (addressMask_strips armInit ⟨.notInitialized, none, some (-1)⟩ rfl rfl rfl).2

end CLogging
