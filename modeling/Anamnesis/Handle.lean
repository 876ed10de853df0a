import Mathlib.Data.Nat.Bitwise

/-!
# Handles

An `AnamHandle` is one 64-bit word with three fields: the generation in bits 63..48, the
slot address in bits 47..3 and the lifecycle state in bits 2..0. The definitions below are
the source's bit operations, on `Nat`. Everything later goes through two arithmetic forms,
`decodeAddr_eq` and `encodeHandle_eq`, which say that the three fields are disjoint digit
ranges of one number; after that the handle laws are linear arithmetic.

An address survives the trip through its field exactly when it is a multiple of 8 below
`2^48` (`AddrFits`). The header states this as a platform assumption; nothing in the code
checks it.
-/

namespace Anamnesis

/-- `ANAM_ADDR_MASK`: bits 47..3. -/
def addrMask : Nat := 0x0000FFFFFFFFFFF8

/-- `ANAM_STATE_MASK`: bits 2..0. -/
def stateMask : Nat := 0x0000000000000007

/-- `ANAM_NULL`. -/
def anamNull : Nat := 0

/-- `ANAM_STATE_FREE`. -/
def stateFree : Nat := 0x0

/-- `ANAM_STATE_LIVE`. -/
def stateLive : Nat := 0x1

/-- `encode_handle`. The generation arrives as a `uint16_t`, hence the `% 2^16`. -/
def encodeHandle (gen addr state : Nat) : Nat :=
  ((gen % 2 ^ 16) <<< 48) ||| (addr &&& addrMask) ||| (state &&& stateMask)

/-- `decode_addr`. -/
def decodeAddr (handle : Nat) : Nat := handle &&& addrMask

/-- `decode_gen`; `anam_generation` in the header has the same body. -/
def decodeGen (handle : Nat) : Nat := (handle >>> 48) % 2 ^ 16

/-- `anam_state`. -/
def anamState (handle : Nat) : Nat := handle &&& 0x7

/-- `anam_is_null`. -/
def anamIsNull (handle : Nat) : Bool := handle == anamNull

/-- The address survives the 45-bit field of a handle. -/
def AddrFits (addr : Nat) : Prop := addr % 8 = 0 ∧ addr < 2 ^ 48

instance (addr : Nat) : Decidable (AddrFits addr) := inferInstanceAs (Decidable (_ ∧ _))

/-! ## Arithmetic forms -/

/-- A run of ones shifted left keeps the same digit range of `x`. -/
theorem and_shifted_ones (x n k : Nat) :
    x &&& ((2 ^ n - 1) <<< k) = ((x >>> k) % 2 ^ n) <<< k := by
  apply Nat.eq_of_testBit_eq
  intro i
  simp only [Nat.testBit_and, Nat.testBit_shiftLeft, Nat.testBit_two_pow_sub_one,
    Nat.testBit_mod_two_pow, Nat.testBit_shiftRight]
  by_cases h : k ≤ i
  · have : k + (i - k) = i := by omega
    simp [h, this, Bool.and_comm]
  · simp [h]

/-- Or-ing a small value into the zero low digits of an aligned value is addition. -/
theorem or_of_aligned {n p k : Nat} (hn : n % 2 ^ k = 0) (hp : p < 2 ^ k) :
    n ||| p = n + p := by
  have h : n = 2 ^ k * (n / 2 ^ k) := (Nat.mul_div_cancel' (Nat.dvd_of_mod_eq_zero hn)).symm
  rw [h, ← Nat.mul_add_lt_is_or hp]

theorem decodeAddr_eq (handle : Nat) : decodeAddr handle = handle / 8 % 2 ^ 45 * 8 := by
  rw [decodeAddr, show addrMask = (2 ^ 45 - 1) <<< 3 by decide, and_shifted_ones,
    Nat.shiftLeft_eq, Nat.shiftRight_eq_div_pow]

theorem decodeGen_eq (handle : Nat) : decodeGen handle = handle / 2 ^ 48 % 2 ^ 16 := by
  rw [decodeGen, Nat.shiftRight_eq_div_pow]

theorem anamState_eq (handle : Nat) : anamState handle = handle % 8 :=
  Nat.and_pow_two_sub_one_eq_mod handle 3

/-- The three fields occupy disjoint digit ranges. -/
theorem encodeHandle_eq (gen addr state : Nat) :
    encodeHandle gen addr state = gen % 2 ^ 16 * 2 ^ 48 + addr / 8 % 2 ^ 45 * 8 + state % 8 := by
  have ha : addr &&& addrMask = addr / 8 % 2 ^ 45 * 8 := decodeAddr_eq addr
  have hs : state &&& stateMask = state % 8 := Nat.and_pow_two_sub_one_eq_mod state 3
  rw [encodeHandle, ha, hs, Nat.shiftLeft_eq, Nat.mul_comm (gen % 2 ^ 16),
    ← Nat.mul_add_lt_is_or (by omega), or_of_aligned (k := 3) (by omega) (by omega)]

/-- Only the generation modulo `2^16` reaches the handle. -/
@[simp] theorem encodeHandle_mod (gen addr state : Nat) :
    encodeHandle (gen % 2 ^ 16) addr state = encodeHandle gen addr state := by
  simp [encodeHandle, Nat.mod_mod]

@[simp] theorem anamIsNull_iff (handle : Nat) : anamIsNull handle = true ↔ handle = 0 := by
  simp [anamIsNull, anamNull]

/-! ## Round trip -/

theorem encodeHandle_lt (gen addr state : Nat) : encodeHandle gen addr state < 2 ^ 64 := by
  rw [encodeHandle_eq]; omega

@[simp] theorem decodeGen_encodeHandle (gen addr state : Nat) :
    decodeGen (encodeHandle gen addr state) = gen % 2 ^ 16 := by
  rw [decodeGen_eq, encodeHandle_eq]; omega

@[simp] theorem anamState_encodeHandle (gen addr state : Nat) :
    anamState (encodeHandle gen addr state) = state % 8 := by
  rw [anamState_eq, encodeHandle_eq]; omega

theorem decodeAddr_encodeHandle (gen addr state : Nat) :
    decodeAddr (encodeHandle gen addr state) = addr / 8 % 2 ^ 45 * 8 := by
  rw [decodeAddr_eq, encodeHandle_eq]; omega

@[simp] theorem decodeAddr_encodeHandle_of_fits {addr : Nat} (h : AddrFits addr)
    (gen state : Nat) : decodeAddr (encodeHandle gen addr state) = addr := by
  rw [decodeAddr_encodeHandle]; obtain ⟨h8, h48⟩ := h; omega

/-- A handle is null only when all three fields are zero. -/
theorem encodeHandle_eq_null_iff (gen addr state : Nat) :
    encodeHandle gen addr state = anamNull ↔
      gen % 2 ^ 16 = 0 ∧ addr / 8 % 2 ^ 45 = 0 ∧ state % 8 = 0 := by
  rw [encodeHandle_eq, anamNull]; omega

theorem encodeHandle_ne_null {addr : Nat} (h : AddrFits addr) (hpos : 0 < addr)
    (gen state : Nat) : encodeHandle gen addr state ≠ anamNull := by
  rw [Ne, encodeHandle_eq_null_iff]; obtain ⟨h8, h48⟩ := h; omega

/-- Handles of fitting addresses are equal only when all three fields are. -/
theorem encodeHandle_inj {g g' a a' s s' : Nat} (ha : AddrFits a) (ha' : AddrFits a')
    (h : encodeHandle g a s = encodeHandle g' a' s') :
    g % 2 ^ 16 = g' % 2 ^ 16 ∧ a = a' ∧ s % 8 = s' % 8 := by
  rw [encodeHandle_eq, encodeHandle_eq] at h
  obtain ⟨h8, h48⟩ := ha; obtain ⟨h8', h48'⟩ := ha'
  omega

end Anamnesis
