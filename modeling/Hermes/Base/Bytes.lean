import Mathlib.Tactic.Ring
import Mathlib.Data.Nat.Basic

/-!
# Little-endian bytes

Numbers of a fixed width as byte lists, least significant byte first, and the
round trip between the two.
-/

namespace Hermes

/-- The `width` low bytes of `value`, least significant first. -/
def toBytes : ℕ → ℕ → List UInt8
  | 0, _ => []
  | width + 1, value => UInt8.ofNat value :: toBytes width (value / 256)

/-- The number the bytes spell, least significant first. -/
def ofBytes : List UInt8 → ℕ
  | [] => 0
  | byte :: bytes => byte.toNat + 256 * ofBytes bytes

@[simp]
theorem length_toBytes (width value : ℕ) : (toBytes width value).length = width := by
  induction width generalizing value with
  | zero => rfl
  | succ width ih => simp [toBytes, ih]

theorem ofBytes_toBytes (width value : ℕ) :
    ofBytes (toBytes width value) = value % 256 ^ width := by
  induction width generalizing value with
  | zero => simp [toBytes, ofBytes, Nat.mod_one]
  | succ width ih =>
      have low : (UInt8.ofNat value).toNat = value % 256 := by simp
      rw [toBytes, ofBytes, low, ih, pow_succ', Nat.mod_mul]

theorem ofBytes_toBytes_of_lt {width value : ℕ} (fits : value < 256 ^ width) :
    ofBytes (toBytes width value) = value := by
  rw [ofBytes_toBytes, Nat.mod_eq_of_lt fits]

/-- A bit of the number is a bit of one of its bytes. -/
theorem testBit_ofBytes (bytes : List UInt8) (place : ℕ) :
    (ofBytes bytes).testBit place = (bytes[place / 8]?.getD 0).toNat.testBit (place % 8) := by
  induction bytes generalizing place with
  | nil => simp [ofBytes]
  | cons byte bytes ih =>
      have shape : ofBytes (byte :: bytes) = 2 ^ 8 * ofBytes bytes + byte.toNat := by
        rw [ofBytes]
        omega
      rw [shape, Nat.testBit_two_pow_mul_add _ byte.toNat_lt]
      by_cases first : place < 8
      · simp [first, Nat.div_eq_of_lt first, Nat.mod_eq_of_lt first]
      · have index : place / 8 = (place - 8) / 8 + 1 := by omega
        have bit : (place - 8) % 8 = place % 8 := by omega
        rw [if_neg first, ih, index, List.getElem?_cons_succ, bit]

/-- Bytes agree when their bits do. -/
theorem byte_eq {left right : UInt8}
    (bits : ∀ bit, left.toNat.testBit bit = right.toNat.testBit bit) : left = right :=
  UInt8.toNat_inj.mp (Nat.eq_of_testBit_eq bits)

theorem testBit_byte_of_le (byte : UInt8) {bit : ℕ} (high : 8 ≤ bit) :
    byte.toNat.testBit bit = false := by
  apply Nat.testBit_lt_two_pow
  have small : byte.toNat < 2 ^ 8 := byte.toNat_lt
  have large : 2 ^ 8 ≤ 2 ^ bit := Nat.pow_le_pow_right (by decide) high
  omega

theorem exists_bit {left right : UInt8} (differ : left ≠ right) :
    ∃ bit < 8, left.toNat.testBit bit ≠ right.toNat.testBit bit := by
  by_contra none
  apply differ
  apply byte_eq
  intro bit
  by_cases small : bit < 8
  · by_contra changed
    exact none ⟨bit, small, changed⟩
  · rw [testBit_byte_of_le left (by omega), testBit_byte_of_le right (by omega)]

end Hermes
