import Mathlib.Data.Nat.Bitwise
import Mathlib.Tactic.Common

/-!
# Inputs of the expansion cards

A card shifts eight levels in and remembers the byte before, so that it tells which inputs
have changed. An analog input tells of readings that have gone away from the last one that
it has told of.
-/
namespace Oac.Arduino

/-- The levels at the data pin, one after each pulse of the clock. -/
abbrev Levels := Nat → Bool

namespace Shift4021

/-- `shiftBitsIn`, with the number of bits to go. -/
def shiftBitsIn (levels : Levels) : Nat → Nat → Nat → Nat
  | 0, _, data => data
  | nbits + 1, pulse, data => shiftBitsIn levels nbits (pulse + 1) (data ||| (levels pulse).toNat <<< nbits)

def shiftByteIn (levels : Levels) : UInt8 := UInt8.ofNat (shiftBitsIn levels 8 0 0)

end Shift4021

/-- `ExpansionCard`, its pins apart. -/
structure ExpansionCard where
  prevInput : UInt8
  currentInput : UInt8
  deriving DecidableEq

namespace ExpansionCard

def start : ExpansionCard := ⟨0, 0⟩

def readInput (levels : Levels) (card : ExpansionCard) : ExpansionCard := ⟨card.currentInput, Shift4021.shiftByteIn levels⟩

def inputActivated (card : ExpansionCard) : UInt8 := (card.prevInput ^^^ card.currentInput) &&& card.currentInput

def inputDeactivated (card : ExpansionCard) : UInt8 := (card.prevInput ^^^ card.currentInput) &&& card.prevInput

end ExpansionCard

/-! ## Bits -/

theorem toNat_testBit (level : Bool) (i : Nat) : level.toNat.testBit i = (decide (i = 0) && level) := by
  cases level with
  | false => simp
  | true =>
    cases i with
    | zero => rfl
    | succ i => simp [Nat.testBit_succ]

/-- The level that comes first is the highest bit. -/
theorem shiftBitsIn_testBit (levels : Levels) (nbits pulse data i : Nat) :
    (Shift4021.shiftBitsIn levels nbits pulse data).testBit i =
      (data.testBit i || (decide (i < nbits) && levels (pulse + (nbits - 1 - i)))) := by
  induction nbits generalizing pulse data with
  | zero => simp [Shift4021.shiftBitsIn]
  | succ nbits ih =>
    rw [Shift4021.shiftBitsIn, ih, Nat.testBit_or, Nat.testBit_shiftLeft, toNat_testBit, Bool.or_assoc]
    congr 1
    rcases lt_trichotomy i nbits with below | rfl | above
    · have place : pulse + 1 + (nbits - 1 - i) = pulse + (nbits + 1 - 1 - i) := by omega
      simp [below, below.trans (Nat.lt_succ_self nbits), Nat.not_le.mpr below, place]
    · simp
    · have first : ¬ i < nbits := by omega
      have second : ¬ i < nbits + 1 := by omega
      have third : ¬ i - nbits = 0 := by omega
      simp [first, second, third]

theorem shiftByteIn_testBit (levels : Levels) (i : Nat) :
    (Shift4021.shiftByteIn levels).toNat.testBit i = (decide (i < 8) && levels (7 - i)) := by
  have mod : (256 : Nat) = 2 ^ 8 := rfl
  rw [Shift4021.shiftByteIn, UInt8.toNat_ofNat', Nat.testBit_mod_two_pow, shiftBitsIn_testBit]
  by_cases inside : i < 8
  · simp [inside]
  · simp [inside]

/-- The word of two bytes, as the sketch puts them together. -/
def wordOf (low high : UInt8) : UInt16 := low.toUInt16 ||| (high.toUInt16 <<< 8)

theorem wordOf_testBit (low high : UInt8) (i : Nat) :
    (wordOf low high).toNat.testBit i = if i < 8 then low.toNat.testBit i else high.toNat.testBit (i - 8) := by
  have bound := high.toNat_lt
  have shifted : (high.toUInt16 <<< 8 : UInt16).toNat = high.toNat <<< 8 := by
    rw [UInt16.toNat_shiftLeft, UInt8.toNat_toUInt16]
    exact Nat.mod_eq_of_lt (by rw [Nat.shiftLeft_eq]; show high.toNat * 2 ^ 8 < 2 ^ 16; omega)
  rw [wordOf, UInt16.toNat_or, shifted, UInt8.toNat_toUInt16, Nat.testBit_or, Nat.testBit_shiftLeft]
  by_cases low' : i < 8
  · simp [low', Nat.not_le.mpr low']
  · have none : low.toNat.testBit i = false := Nat.testBit_lt_two_pow (low.toNat_lt.trans_le (Nat.pow_le_pow_right (by decide) (Nat.not_lt.mp low')))
    simp [low', none, Nat.not_lt.mp low']

/-- What has changed in the words of two cards has changed in the cards. -/
theorem wordOf_activated (card0 card1 : ExpansionCard) :
    wordOf card0.inputActivated card1.inputActivated =
      (wordOf card0.prevInput card1.prevInput ^^^ wordOf card0.currentInput card1.currentInput) &&&
        wordOf card0.currentInput card1.currentInput := by
  apply UInt16.toNat_inj.mp
  apply Nat.eq_of_testBit_eq
  intro i
  simp only [UInt16.toNat_and, UInt16.toNat_xor, Nat.testBit_and, Nat.testBit_xor, wordOf_testBit, ExpansionCard.inputActivated,
    UInt8.toNat_and, UInt8.toNat_xor]
  split <;> rfl

theorem wordOf_deactivated (card0 card1 : ExpansionCard) :
    wordOf card0.inputDeactivated card1.inputDeactivated =
      (wordOf card0.prevInput card1.prevInput ^^^ wordOf card0.currentInput card1.currentInput) &&&
        wordOf card0.prevInput card1.prevInput := by
  apply UInt16.toNat_inj.mp
  apply Nat.eq_of_testBit_eq
  intro i
  simp only [UInt16.toNat_and, UInt16.toNat_xor, Nat.testBit_and, Nat.testBit_xor, wordOf_testBit, ExpansionCard.inputDeactivated,
    UInt8.toNat_and, UInt8.toNat_xor]
  split <;> rfl

/-! ## Analog inputs -/

/-- `AnalogInput`, its pin apart. -/
structure AnalogInput where
  state : Int32
  deriving DecidableEq

namespace AnalogInput

def start : AnalogInput := ⟨0⟩

/-- `isChanged`, with what `analogRead` returns: at most 1023. -/
def isChanged (reading : Fin 1024) (tolerance : Int32) (input : AnalogInput) : Bool × AnalogInput :=
  let newState := Int32.ofNat reading.val
  if (input.state ≤ newState ∧ newState - input.state > tolerance) ∨ (input.state > newState ∧ input.state - newState > tolerance) then
    (true, ⟨newState⟩)
  else (false, input)

/-- `::map`. -/
def mapRange (x inMin inMax outMin outMax : Int32) : Int32 := (x - inMin) * (outMax - outMin) / (inMax - inMin) + outMin

/-- `map`, which reads again. -/
def map (reading : Fin 1024) (lowest highest : Int32) (_ : AnalogInput) : Int32 × AnalogInput :=
  (mapRange (Int32.ofNat reading.val) 0 1023 lowest highest, ⟨Int32.ofNat reading.val⟩)

end AnalogInput
end Oac.Arduino
