import Mathlib.Data.Nat.Digits.Lemmas

/-!
# Numerals

The numerals of a base, with a letter for each digit, and the number that a numeral
denotes. Both directions agree where every letter has the value of its digit.
-/
namespace Oac.Base
variable {α : Type*} {base : Nat} {letter : Nat → α} {value : α → Nat}

def numeral (base : Nat) (letter : Nat → α) (n : Nat) : List α :=
  if n = 0 then [letter 0] else (base.digits n).reverse.map letter

/-- The number that a numeral denotes. -/
def denoted (base : Nat) (value : α → Nat) (s : List α) : Nat := s.foldl (fun n c => base * n + value c) 0

theorem numeral_ne_nil (n : Nat) : numeral base letter n ≠ [] := by
  unfold numeral
  by_cases zero : n = 0
  · simp [zero]
  · simp [zero, Nat.digits_ne_nil_iff_ne_zero]

/-- A numeral has letters of digits only. -/
theorem mem_numeral (proper : 1 < base) {n : Nat} {c : α} (among : c ∈ numeral base letter n) :
    ∃ d, d < base ∧ c = letter d := by
  unfold numeral at among
  by_cases zero : n = 0
  · simp only [zero, ↓reduceIte, List.mem_singleton] at among
    exact ⟨0, by omega, among⟩
  · simp only [zero, ↓reduceIte, List.mem_map, List.mem_reverse] at among
    obtain ⟨d, digit, rfl⟩ := among
    exact ⟨d, Nat.digits_lt_base proper digit, rfl⟩

/-- A numeral denotes its number. -/
theorem denoted_numeral (proper : 1 < base) (valued : ∀ d < base, value (letter d) = d) (n : Nat) :
    denoted base value (numeral base letter n) = n := by
  unfold denoted numeral
  by_cases zero : n = 0
  · simp [zero, valued 0 (by omega)]
  · have same : (base.digits n).foldr (fun d m => base * m + value (letter d)) 0 =
        (base.digits n).foldr (fun d m => d + base * m) 0 := by
      apply List.foldr_ext
      intro d digit m
      rw [valued d (Nat.digits_lt_base proper digit), Nat.add_comm]
    simp only [zero, ↓reduceIte]
    rw [List.foldl_map, List.foldl_reverse, same]
    have digits := Nat.ofDigits_digits base n
    rw [Nat.ofDigits_eq_foldr] at digits
    exact digits

theorem numeral_length_le (proper : 1 < base) {n k : Nat} (below : n < base ^ (k + 1)) :
    (numeral base letter n).length ≤ k + 1 := by
  unfold numeral
  by_cases zero : n = 0
  · simp [zero]
  · simp only [zero, ↓reduceIte, List.length_map, List.length_reverse]
    exact (Nat.digits_length_le_iff proper n).mpr below

end Oac.Base
