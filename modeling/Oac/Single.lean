import Mathlib.Data.Int.Log
import Mathlib.Data.Rat.Floor
import Mathlib.Tactic.Linarith

/-!
# Single precision numbers

A finite `float` is the rational number it denotes; the exponent has no bound. The
operations round to the nearest number with a significand of 24 bits, ties to even.
-/
namespace Oac

/-- A finite `float`. -/
abbrev Single := ℚ

namespace Single

/-- The nearest integer, ties to even. -/
def nearest (q : ℚ) : ℤ :=
  let below := ⌊q⌋
  if q - below < 1 / 2 then below
  else if 1 / 2 < q - below then below + 1
  else if below % 2 = 0 then below else below + 1

/-- The nearest number with a significand of 24 bits. -/
def round (q : ℚ) : Single :=
  if q = 0 then 0
  else
    let unit : ℚ := 2 ^ (Int.log 2 |q| - 23)
    nearest (q / unit) * unit

/-- `UINT32_MAX` in single precision. -/
def uint32Max : Single := 2 ^ 32

/-- `std::frexp`: a significand of magnitude in [1/2, 1) and an exponent. -/
def frexp (v : Single) : Single × ℤ :=
  if v = 0 then (0, 0)
  else
    let exp := Int.log 2 |v| + 1
    (v / 2 ^ exp, exp)

/-- `std::ldexp`. -/
def ldexp (sig : Single) (exp : ℤ) : Single := sig * 2 ^ exp

/-- The conversion to `std::uint32_t`: the integer part, as the target's conversion
    leaves it in 32 bits. The language leaves it undefined outside [0, 2^32). -/
def toUInt32 (v : Single) : UInt32 := UInt32.ofInt (v.num.tdiv v.den)

/-! ## Exact results -/

theorem nearest_intCast (n : ℤ) : nearest n = n := by
  simp [nearest]

/-- An integer of at most 24 bits, scaled by a power of two, is not rounded. -/
theorem round_exact {n : ℤ} (few : |n| < 2 ^ 24) (k : ℤ) : round ((n : ℚ) * 2 ^ k) = (n : ℚ) * 2 ^ k := by
  by_cases zero : n = 0
  · simp [round, zero]
  have scale : (0 : ℚ) < 2 ^ k := zpow_pos two_pos k
  have some : (n : ℚ) * 2 ^ k ≠ 0 := mul_ne_zero (Int.cast_ne_zero.mpr zero) scale.ne'
  have bound : |(n : ℚ) * 2 ^ k| < ((2 : ℕ) : ℚ) ^ (24 + k) := by
    rw [abs_mul, abs_of_pos scale, Nat.cast_ofNat, zpow_add₀ two_ne_zero]
    apply mul_lt_mul_of_pos_right _ scale
    exact_mod_cast few
  have log := (Int.lt_zpow_iff_log_lt Nat.one_lt_two (abs_pos.mpr some)).mp bound
  obtain ⟨j, shift⟩ : ∃ j : ℕ, k = (Int.log 2 |(n : ℚ) * 2 ^ k| - 23) + j :=
    ⟨(k - (Int.log 2 |(n : ℚ) * 2 ^ k| - 23)).toNat, by omega⟩
  obtain ⟨l, named⟩ : ∃ l, l = Int.log 2 |(n : ℚ) * 2 ^ k| - 23 := ⟨_, rfl⟩
  rw [← named] at shift
  have unit : (2 : ℚ) ^ l ≠ 0 := zpow_ne_zero _ two_ne_zero
  have quotient : (n : ℚ) * 2 ^ k / 2 ^ l = ((n * 2 ^ j : ℤ) : ℚ) := by
    rw [shift, zpow_add₀ two_ne_zero, zpow_natCast, div_eq_iff unit]
    push_cast
    ring
  rw [round, if_neg some]
  simp only [← named, quotient, nearest_intCast]
  rw [← quotient, div_mul_cancel₀ _ unit]

/-- What is negative is rounded to something negative. -/
theorem round_neg {q : ℚ} (negative : q < 0) : round q < 0 := by
  obtain ⟨l, named⟩ : ∃ l, l = Int.log 2 |q| - 23 := ⟨_, rfl⟩
  have unit : (0 : ℚ) < 2 ^ l := zpow_pos two_pos l
  have large : (2 : ℚ) ^ (23 : ℤ) * 2 ^ l ≤ |q| := by
    rw [← zpow_add₀ two_ne_zero, named, add_sub_cancel]
    have below := Int.zpow_log_le_self Nat.one_lt_two (abs_pos.mpr negative.ne)
    rwa [Nat.cast_ofNat] at below
  have quotient : q / 2 ^ l ≤ -(2 ^ (23 : ℤ)) := by
    rw [abs_of_neg negative] at large
    rw [div_le_iff₀ unit]
    linarith
  have floor : ⌊q / 2 ^ l⌋ ≤ -(2 ^ 23) := by
    have := (Int.floor_le (q / 2 ^ l)).trans quotient
    exact_mod_cast this
  have rounded : nearest (q / 2 ^ l) < 0 := by
    unfold nearest
    dsimp only
    split_ifs <;> omega
  rw [round, if_neg negative.ne, ← named]
  exact mul_neg_of_neg_of_pos (Int.cast_lt_zero.mpr rounded) unit

/-- A significand of 24 bits is divided by 2^24. -/
theorem frexp_significand {v : Single} {m : ℕ} (e : ℤ) (least : 2 ^ 23 ≤ m) (few : m < 2 ^ 24)
    (magnitude : |v| = m * 2 ^ e) : frexp v = (v / 2 ^ (24 + e), 24 + e) := by
  have scale : (0 : ℚ) < 2 ^ e := zpow_pos two_pos e
  have positive : 0 < |v| := by
    rw [magnitude]
    have : (0 : ℚ) < m := by exact_mod_cast (by omega : 0 < m)
    exact mul_pos this scale
  have below : ((2 : ℕ) : ℚ) ^ (23 + e) ≤ |v| := by
    rw [magnitude, Nat.cast_ofNat, zpow_add₀ two_ne_zero]
    apply mul_le_mul_of_nonneg_right _ scale.le
    exact_mod_cast least
  have above : |v| < ((2 : ℕ) : ℚ) ^ (24 + e) := by
    rw [magnitude, Nat.cast_ofNat, zpow_add₀ two_ne_zero]
    apply mul_lt_mul_of_pos_right _ scale
    exact_mod_cast few
  have log : Int.log 2 |v| = 23 + e := by
    have := (Int.zpow_le_iff_le_log Nat.one_lt_two positive).mp below
    have := (Int.lt_zpow_iff_log_lt Nat.one_lt_two positive).mp above
    omega
  rw [frexp, if_neg (abs_pos.mp positive), log]
  rw [show 23 + e + 1 = 24 + e by ring]

/-- An integer is converted to its value modulo 2^32. -/
theorem toUInt32_intCast (n : ℤ) : toUInt32 n = UInt32.ofInt n := by
  simp [toUInt32]

end Single
end Oac
