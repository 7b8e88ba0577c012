import Oac.Proto.Codec

/-!
# Floats on the wire

A float is written as its significand less 1/2, scaled to 32 bits, and its exponent.
For positive numbers both directions are exact. For others the significand is below 1/2,
so that the conversion to `std::uint32_t` is given a negative number.
-/
namespace Oac.Proto
open Base Oac.Stream

/-- A finite normal `float`, or zero. -/
structure NormalSingle where
  value : Single
  normal : value = 0 ∨ ∃ (m : ℕ) (e : ℤ), 2 ^ 23 ≤ m ∧ m < 2 ^ 24 ∧ -149 ≤ e ∧ e ≤ 104 ∧ |value| = m * 2 ^ e

/-- What `write_float_value` converts to `std::uint32_t`. -/
def scaledSignificand (value : Single) : Single :=
  Single.round (Single.round ((Single.frexp value).1 - 1 / 2) * Single.uint32Max)

theorem floatFields_eq (value : Single) : floatFields value =
    (2 * Single.toUInt32 (scaledSignificand value), UInt32.ofInt (Single.frexp value).2) := rfl

/-- The float is written without an undefined conversion, and its eight bytes are read as
    the same number again. -/
structure FloatKept (value : Single) : Prop where
  defined : 0 ≤ scaledSignificand value ∧ scaledSignificand value < 2 ^ 32
  kept : ∃ bytes : List UInt8, bytes.length = 8 ∧ BinaryMessageDeserializer.readFloatValue.Reads bytes value ∧
    ∀ {τ : Type} [OutputStream τ] {W : τ → List UInt8 → Prop} {limit : ℕ∞}, Takes W limit →
      Emits W limit (BinaryMessageSerializer.writeFloatValue value) bytes

/-! ## Positive numbers -/

theorem scaledSignificand_positive {v : Single} {m : ℕ} {e : ℤ} (least : 2 ^ 23 ≤ m) (few : m < 2 ^ 24)
    (magnitude : |v| = m * 2 ^ e) (positive : 0 < v) : scaledSignificand v = (((m - 2 ^ 23) * 2 ^ 8 : ℤ) : ℚ) := by
  have small : |(m : ℤ) - 2 ^ 23| < 2 ^ 24 := by
    rw [abs_of_nonneg (by omega)]
    omega
  have scale : (2 : ℚ) ^ e ≠ 0 := zpow_ne_zero _ two_ne_zero
  have significand : (Single.frexp v).1 - 1 / 2 = (((m : ℤ) - 2 ^ 23 : ℤ) : ℚ) * 2 ^ (-24 : ℤ) := by
    rw [Single.frexp_significand e least few magnitude, ← abs_of_pos positive, magnitude, zpow_add₀ two_ne_zero]
    push_cast
    field_simp
    norm_num
    ring
  have product : (((m : ℤ) - 2 ^ 23 : ℤ) : ℚ) * 2 ^ (-24 : ℤ) * Single.uint32Max =
      (((m : ℤ) - 2 ^ 23 : ℤ) : ℚ) * 2 ^ (8 : ℤ) := by
    rw [Single.uint32Max, mul_assoc]
    norm_num
  rw [scaledSignificand, significand, Single.round_exact small, product, Single.round_exact small]
  push_cast
  norm_num

theorem ofInt_toNat (n : ℤ) : ((UInt32.ofInt n).toNat : ℤ) = n % 2 ^ 32 := by
  have small := Int.emod_lt_of_pos n (b := 2 ^ 32) (by omega)
  have natural := Int.emod_nonneg n (b := 2 ^ 32) (by omega)
  rw [UInt32.ofInt, UInt32.toNat_ofNat', Nat.mod_eq_of_lt (by omega), Int.toNat_of_nonneg natural]

/-- The exponent of a float survives its trip as an unsigned word. -/
theorem exponent_kept {exp : ℤ} (least : -(2 ^ 31) ≤ exp) (most : exp < 2 ^ 31) :
    (UInt32.ofInt exp).toInt32.toInt = exp := by
  show (UInt32.ofInt exp).toBitVec.toInt = exp
  rw [BitVec.toInt_eq_toNat_bmod, UInt32.toNat_toBitVec, ofInt_toNat,
    show (2 ^ 32 : ℤ) = ((2 ^ 32 : ℕ) : ℤ) from rfl, Int.emod_bmod]
  exact Int.bmod_eq_of_le (by omega) (by omega)

theorem floatOfFields_positive {v : Single} {m : ℕ} {e : ℤ} (least : 2 ^ 23 ≤ m) (few : m < 2 ^ 24) (low : -149 ≤ e)
    (high : e ≤ 104) (magnitude : |v| = m * 2 ^ e) (positive : 0 < v) :
    floatOfFields (floatFields v).1 (floatFields v).2 = v := by
  have nsig : (2 * Single.toUInt32 (scaledSignificand v)).toNat = (m - 2 ^ 23) * 2 ^ 9 := by
    have number := ofInt_toNat (((m : ℤ) - 2 ^ 23) * 2 ^ 8)
    rw [scaledSignificand_positive least few magnitude positive, Single.toUInt32_intCast, UInt32.toNat_mul,
      show (2 : UInt32).toNat = 2 from rfl]
    omega
  have small : |((m - 2 ^ 23 : ℕ) : ℤ)| < 2 ^ 24 := by
    rw [abs_of_nonneg (by omega)]
    omega
  have whole : |(m : ℤ)| < 2 ^ 24 := by
    rw [abs_of_nonneg (by omega)]
    omega
  have half : (((m - 2 ^ 23) * 2 ^ 9 : ℕ) : ℚ) * (1 / 2) = (((m - 2 ^ 23 : ℕ) : ℤ) : ℚ) * 2 ^ (8 : ℤ) := by
    rw [Nat.cast_mul, Int.cast_natCast, show ((2 ^ 9 : ℕ) : ℚ) = 512 by norm_num, show (2 : ℚ) ^ (8 : ℤ) = 256 by norm_num]
    ring
  have significand : (((m - 2 ^ 23 : ℕ) : ℤ) : ℚ) * 2 ^ (8 : ℤ) / Single.uint32Max + 1 / 2 =
      ((m : ℤ) : ℚ) * 2 ^ (-24 : ℤ) := by
    rw [Int.cast_natCast, Nat.cast_sub least, Single.uint32Max]
    push_cast
    norm_num
    ring
  rw [floatFields_eq, floatOfFields]
  simp only [nsig]
  rw [half, Single.round_exact small, significand, Single.round_exact whole, Single.frexp_significand e least few magnitude,
    exponent_kept (by omega) (by omega), Single.ldexp, mul_assoc, ← zpow_add₀ two_ne_zero, Int.cast_natCast,
    ← abs_of_pos positive, magnitude]
  congr 2
  omega

/-! ## Other numbers -/

theorem scaledSignificand_negative {v : Single} (negative : (Single.frexp v).1 - 1 / 2 < 0) : scaledSignificand v < 0 := by
  have product : Single.round ((Single.frexp v).1 - 1 / 2) * Single.uint32Max < 0 := by
    rw [Single.uint32Max]
    exact mul_neg_of_neg_of_pos (Single.round_neg negative) (by norm_num)
  exact Single.round_neg product

/-- What is left of the significand of a number that is not positive is negative. -/
theorem scaledSignificand_of_not_positive (v : NormalSingle) (other : v.value ≤ 0) : scaledSignificand v.value < 0 := by
  rcases v.normal with zero | ⟨m, e, least, few, -, -, magnitude⟩
  · rw [zero]
    exact scaledSignificand_negative (by norm_num [Single.frexp])
  · have scale : (0 : ℚ) < 2 ^ (24 + e) := zpow_pos two_pos _
    have below : v.value / 2 ^ (24 + e) ≤ 0 := div_nonpos_of_nonpos_of_nonneg other scale.le
    apply scaledSignificand_negative
    rw [Single.frexp_significand e least few magnitude]
    linarith

theorem not_kept_of_not_positive (v : NormalSingle) (other : v.value ≤ 0) : ¬ FloatKept v.value := fun kept =>
  absurd kept.defined.1 (not_le.mpr (scaledSignificand_of_not_positive v other))

/-- A float is kept by the codec if and only if it is positive. -/
theorem float_kept_iff (v : NormalSingle) : FloatKept v.value ↔ 0 < v.value := by
  constructor
  · intro kept
    by_contra other
    exact not_kept_of_not_positive v (not_lt.mp other) kept
  · obtain ⟨value, zero | ⟨m, e, least, few, low, high, magnitude⟩⟩ := v
    · exact fun positive => absurd zero positive.ne'
    · intro positive
      have back := floatOfFields_positive least few low high magnitude positive
      have read := readFloatValue_reads (floatFields value).1 (floatFields value).2
      rw [back] at read
      refine ⟨?_, _, rfl, read, fun takes => emits_bind (writeAll_emits takes _) (writeAll_emits takes _)⟩
      rw [scaledSignificand_positive least few magnitude positive]
      constructor
      · exact_mod_cast (by omega : (0 : ℤ) ≤ (m - 2 ^ 23) * 2 ^ 8)
      · exact_mod_cast (by omega : ((m : ℤ) - 2 ^ 23) * 2 ^ 8 < 2 ^ 32)

/-- Minus one is not kept. -/
theorem float_not_kept : ¬ ∀ v : NormalSingle, FloatKept v.value := by
  intro kept
  exact not_kept_of_not_positive ⟨-1, .inr ⟨2 ^ 23, -23, le_rfl, by norm_num, by norm_num, by norm_num, by norm_num⟩⟩
    (by norm_num) (kept _)

end Oac.Proto
