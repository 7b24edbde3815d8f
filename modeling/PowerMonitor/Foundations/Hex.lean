import PowerMonitor.Foundations.CText

/-!
# Hexadecimal bytes

The conversion `%02x` of a byte, and the byte of two digits. `join_div_mod` and `printByte_join` are
the round trips between them.
-/

namespace PowerMonitor.Hex

open CText

/-- The lower-case digit of a number below 16. -/
def digit (n : ℕ) : UInt8 := UInt8.ofNat (if n < 10 then 0x30 + n else 0x57 + n)

/-- `%02x`. -/
def printByte (b : UInt8) : List UInt8 := [digit (b.toNat / 16), digit (b.toNat % 16)]

/-- The byte of two digits. -/
def join (high low : ℕ) : UInt8 := UInt8.ofNat (high <<< 4 ||| low)

theorem isxdigit_digit : ∀ n < 16, isxdigit (digit n) = true := by decide

/-- Digits are printed in lower case. -/
theorem lower_digit : ∀ n < 16, (0x30 ≤ digit n ∧ digit n ≤ 0x39) ∨
    (0x61 ≤ digit n ∧ digit n ≤ 0x66) := by
  decide

theorem div_lt (b : UInt8) : b.toNat / 16 < 16 := by
  have hb := b.toNat_lt
  omega

theorem mod_lt (b : UInt8) : b.toNat % 16 < 16 := Nat.mod_lt _ (by decide)

/-- A byte is joined again. -/
@[simp] theorem join_div_mod (b : UInt8) : join (b.toNat / 16) (b.toNat % 16) = b :=
  forall_byte (P := fun b => join (b.toNat / 16) (b.toNat % 16) = b) (by decide) b

theorem toNat_join : ∀ high < 16, ∀ low < 16, (join high low).toNat = 16 * high + low := by
  decide

/-- The digits of a byte that was joined. -/
theorem printByte_join {high low : ℕ} (hhigh : high < 16) (hlow : low < 16) :
    printByte (join high low) = [digit high, digit low] := by
  rw [printByte, toNat_join high hhigh low hlow, Nat.mul_add_div (by decide),
    Nat.div_eq_of_lt hlow, Nat.mul_add_mod, Nat.mod_eq_of_lt hlow, Nat.add_zero]

end PowerMonitor.Hex
