import Mathlib.Algebra.Ring.Nat
import Oac.Endian

/-!
# Byte swaps

`endian_swap` and the conversions to network order that are made of it. The expression is
the same for signed and unsigned types, but a signed value is shifted right with its sign,
which stays in the upper bytes of the result (`endian_swap_iff`).
-/
namespace Oac
open Memory

/-! ## The types -/

instance : Memory Int16 where
  size := 2
  toMemory v := toMemory16 v.toUInt16
  ofMemory block := (ofMemory16 block).toInt16
  toMemory_length _ := rfl
  ofMemory_toMemory v := congrArg UInt16.toInt16 (ofMemory16_toMemory16 v.toUInt16)
instance : Memory Int32 where
  size := 4
  toMemory v := toMemory32 v.toUInt32
  ofMemory block := (ofMemory32 block).toInt32
  toMemory_length _ := rfl
  ofMemory_toMemory v := congrArg UInt32.toInt32 (ofMemory32_toMemory32 v.toUInt32)

/-- `endian_swap<std::int16_t>`. The operands of the shifts are promoted to `int`. -/
def endianSwapInt16 (v : Int16) : Int16 := ((v.toInt32 >>> 8) ||| (v.toInt32 <<< 8)).toInt16
/-- `endian_swap<std::int32_t>`. -/
def endianSwapInt32 (v : Int32) : Int32 :=
  (v >>> 24) ||| ((v <<< 8) &&& (0x00ff0000 : Int32)) ||| ((v >>> 8) &&& (0x0000ff00 : Int32)) ||| (v <<< 24)

/-- A type that `endian_swap` is specialised for. -/
class EndianSwap (α : Type) where
  endianSwap : α → α
open EndianSwap

instance : EndianSwap UInt16 where endianSwap := endianSwap16
instance : EndianSwap UInt32 where endianSwap := endianSwap32
instance : EndianSwap Int16 where endianSwap := endianSwapInt16
instance : EndianSwap Int32 where endianSwap := endianSwapInt32

section
variable {α : Type} [EndianSwap α] [Memory α]

/-- `native_to_big`, on a little-endian host. -/
def nativeToBig (v : α) : α := endianSwap v
/-- `big_to_native`, on a little-endian host. -/
def bigToNative (v : α) : α := endianSwap v

/-- The bytes are reversed, and the way to network order and back gives the value again. -/
structure Swaps (v : α) : Prop where
  reversed : toMemory (endianSwap v) = (toMemory v).reverse
  involutive : endianSwap (endianSwap v) = v
  restored : bigToNative (nativeToBig v) = v

/-- Neither byte that gets a sign bit has one itself, or all bits are set. -/
def SignNeutral (v : α) : Prop :=
  ((∀ b ∈ (toMemory v).head?, b < 0x80) ∧ ∀ b ∈ (toMemory v).getLast?, b < 0x80) ∨ ∀ b ∈ toMemory v, b = 0xff

end

/-! ## Bits and bytes -/

/-- A byte of a word, the lowest one being the first. -/
def byteAt {w : Nat} (x : BitVec w) (k : Nat) : UInt8 := ⟨x.extractLsb' (8 * k) 8⟩

theorem byteAt_eq {w : Nat} (x : BitVec w) (k : Nat) : byteAt x k = UInt8.ofNat (x.toNat / 2 ^ (8 * k)) := by
  apply UInt8.toBitVec_inj.mp
  apply BitVec.eq_of_toNat_eq
  simp [byteAt, Nat.shiftRight_eq_div_pow]

theorem toMemory16_bytes (v : UInt16) : toMemory16 v = [byteAt v.toBitVec 0, byteAt v.toBitVec 1] := by
  simp [byteAt_eq, toMemory16]
theorem toMemory32_bytes (v : UInt32) :
    toMemory32 v = [byteAt v.toBitVec 0, byteAt v.toBitVec 1, byteAt v.toBitVec 2, byteAt v.toBitVec 3] := by
  simp [byteAt_eq, toMemory32]

theorem byteAt_bit {w : Nat} (x : BitVec w) (k : Nat) {i : Nat} (inside : i < 8) :
    (byteAt x k).toBitVec.getLsbD i = x.getLsbD (8 * k + i) := by
  simp [byteAt, inside]

/-- A byte is known by its bits. -/
theorem byteAt_of_bits {w : Nat} {x : BitVec w} {k : Nat} {b : UInt8}
    (same : ∀ i < 8, x.getLsbD (8 * k + i) = b.toBitVec.getLsbD i) : byteAt x k = b := by
  apply UInt8.toBitVec_inj.mp
  refine BitVec.eq_of_getLsbD_eq fun i inside => ?_
  rw [byteAt_bit x k inside, same i inside]

/-- What a signed word is extended with when it is shifted to the right, by its last byte. -/
def extension (b : UInt8) : UInt8 := if b < 0x80 then 0 else 0xff

theorem extension_bit (b : UInt8) {i : Nat} (inside : i < 8) : (extension b).toBitVec.getLsbD i = b.toBitVec.getLsbD 7 := by
  have sign : b.toBitVec.getLsbD 7 = decide (0x80 ≤ b.toNat) := by
    rw [← BitVec.msb_eq_getLsbD_last (x := b.toBitVec), BitVec.msb_eq_decide]
    rfl
  have ones : ∀ i < 8, (0xff : UInt8).toBitVec.getLsbD i = true := by decide
  unfold extension
  by_cases small : b < 0x80
  · have below : ¬ 0x80 ≤ b.toNat := by simpa [UInt8.lt_iff_toNat_lt] using small
    rw [if_pos small, sign, decide_eq_false below]
    simp
  · have above : 0x80 ≤ b.toNat := by simpa [UInt8.lt_iff_toNat_lt] using small
    rw [if_neg small, sign, decide_eq_true above, ones i inside]

theorem endianSwapInt16_bit (v : Int16) {j : Nat} (inside : j < 16) : (endianSwapInt16 v).toBitVec.getLsbD j =
    if j < 8 then v.toBitVec.getLsbD (8 + j) else v.toBitVec.getLsbD (j - 8) || v.toBitVec.getLsbD 15 := by
  simp only [endianSwapInt16, Int32.toBitVec_toInt16, Int32.toBitVec_or, Int32.toBitVec_shiftLeft,
    Int32.toBitVec_shiftRight, Int16.toBitVec_toInt32]
  by_cases low : j < 8
  · have shifted : 8 + j < 16 := by omega
    simp [inside, low, shifted]
    grind
  · simp [inside, low]
    grind

theorem endianSwapInt32_bit (v : Int32) {j : Nat} (inside : j < 32) : (endianSwapInt32 v).toBitVec.getLsbD j =
    if j < 8 then v.toBitVec.getLsbD (24 + j)
    else if j < 16 then v.toBitVec.getLsbD (8 + j) || v.toBitVec.getLsbD 31
    else if j < 24 then v.toBitVec.getLsbD (j - 8) || v.toBitVec.getLsbD 31
    else v.toBitVec.getLsbD (j - 24) || v.toBitVec.getLsbD 31 := by
  have upper : (0x00ff0000#32).getLsbD j = decide (16 ≤ j ∧ j < 24) :=
    (BitVec.getLsbD_eq_getElem inside).trans (upper_mask ⟨j, inside⟩)
  have lower : (0x0000ff00#32).getLsbD j = decide (8 ≤ j ∧ j < 16) :=
    (BitVec.getLsbD_eq_getElem inside).trans (lower_mask ⟨j, inside⟩)
  simp [endianSwapInt32, inside]
  grind

theorem endianSwap16_bit (v : UInt16) {j : Nat} (inside : j < 16) : (endianSwap16 v).toBitVec.getLsbD j =
    if j < 8 then v.toBitVec.getLsbD (8 + j) else v.toBitVec.getLsbD (j - 8) := by
  simp [endianSwap16, inside]
  grind

theorem endianSwap32_bit (v : UInt32) {j : Nat} (inside : j < 32) : (endianSwap32 v).toBitVec.getLsbD j =
    if j < 8 then v.toBitVec.getLsbD (24 + j)
    else if j < 16 then v.toBitVec.getLsbD (8 + j)
    else if j < 24 then v.toBitVec.getLsbD (j - 8)
    else v.toBitVec.getLsbD (j - 24) := by
  have upper : (0x00ff0000#32).getLsbD j = decide (16 ≤ j ∧ j < 24) :=
    (BitVec.getLsbD_eq_getElem inside).trans (upper_mask ⟨j, inside⟩)
  have lower : (0x0000ff00#32).getLsbD j = decide (8 ≤ j ∧ j < 16) :=
    (BitVec.getLsbD_eq_getElem inside).trans (lower_mask ⟨j, inside⟩)
  simp [endianSwap32, inside]
  grind

/-- The promotion of its operands changes nothing for an unsigned type. -/
theorem endianSwap16_promoted (v : UInt16) :
    endianSwap16 v = ((v.toUInt32.toInt32 >>> 8) ||| (v.toUInt32.toInt32 <<< 8)).toUInt32.toUInt16 := by
  apply UInt16.toBitVec_inj.mp
  refine BitVec.eq_of_getLsbD_eq fun j inside => ?_
  rw [endianSwap16_bit v inside]
  simp [inside]
  grind

/-! ## Swapped bytes -/

theorem toMemory_endianSwap16 (v : UInt16) : toMemory (endianSwap v) = (toMemory v).reverse := by
  show toMemory16 (endianSwap16 v) = (toMemory16 v).reverse
  rw [toMemory16_bytes, toMemory16_bytes]
  have first : byteAt (endianSwap16 v).toBitVec 0 = byteAt v.toBitVec 1 := byteAt_of_bits fun i inside => by
    rw [endianSwap16_bit v (by omega), byteAt_bit _ _ inside, if_pos (by omega)]
    congr 1
    omega
  have second : byteAt (endianSwap16 v).toBitVec 1 = byteAt v.toBitVec 0 := byteAt_of_bits fun i inside => by
    rw [endianSwap16_bit v (by omega), byteAt_bit _ _ inside, if_neg (by omega)]
    congr 1
    omega
  rw [first, second]
  rfl

theorem toMemory_endianSwap32 (v : UInt32) : toMemory (endianSwap v) = (toMemory v).reverse := by
  show toMemory32 (endianSwap32 v) = (toMemory32 v).reverse
  rw [toMemory32_bytes, toMemory32_bytes]
  have each : ∀ k < 4, byteAt (endianSwap32 v).toBitVec k = byteAt v.toBitVec (3 - k) := fun k few => byteAt_of_bits fun i inside => by
    rw [endianSwap32_bit v (by omega), byteAt_bit _ _ inside]
    grind
  rw [each 0 (by decide), each 1 (by decide), each 2 (by decide), each 3 (by decide)]
  rfl

/-- The bytes of a signed value after `endian_swap`: all but the first get the sign. -/
def swapped (bytes : List UInt8) : List UInt8 :=
  match bytes.reverse with
  | [] => []
  | high :: low => high :: low.map (· ||| extension high)

theorem toMemory_endianSwapInt16 (v : Int16) : toMemory (endianSwap v) = swapped (toMemory v) := by
  show toMemory16 (endianSwapInt16 v).toUInt16 = swapped (toMemory16 v.toUInt16)
  rw [toMemory16_bytes, toMemory16_bytes]
  have first : byteAt (endianSwapInt16 v).toBitVec 0 = byteAt v.toBitVec 1 := byteAt_of_bits fun i inside => by
    rw [endianSwapInt16_bit v (by omega), byteAt_bit _ _ inside]
    grind
  have second : byteAt (endianSwapInt16 v).toBitVec 1 = byteAt v.toBitVec 0 ||| extension (byteAt v.toBitVec 1) :=
    byteAt_of_bits fun i inside => by
      rw [endianSwapInt16_bit v (by omega), UInt8.toBitVec_or, BitVec.getLsbD_or, extension_bit _ inside,
        byteAt_bit _ _ inside, byteAt_bit _ _ (by decide)]
      grind
  show [byteAt (endianSwapInt16 v).toBitVec 0, byteAt (endianSwapInt16 v).toBitVec 1] = _
  rw [first, second]
  rfl

theorem toMemory_endianSwapInt32 (v : Int32) : toMemory (endianSwap v) = swapped (toMemory v) := by
  show toMemory32 (endianSwapInt32 v).toUInt32 = swapped (toMemory32 v.toUInt32)
  rw [toMemory32_bytes, toMemory32_bytes]
  have first : byteAt (endianSwapInt32 v).toBitVec 0 = byteAt v.toBitVec 3 := byteAt_of_bits fun i inside => by
    rw [endianSwapInt32_bit v (by omega), byteAt_bit _ _ inside]
    grind
  have others : ∀ k < 3, byteAt (endianSwapInt32 v).toBitVec (k + 1) =
      byteAt v.toBitVec (2 - k) ||| extension (byteAt v.toBitVec 3) := fun k few => byteAt_of_bits fun i inside => by
    rw [endianSwapInt32_bit v (by omega), UInt8.toBitVec_or, BitVec.getLsbD_or, extension_bit _ inside,
      byteAt_bit _ _ inside, byteAt_bit _ _ (by decide)]
    grind
  show [byteAt (endianSwapInt32 v).toBitVec 0, byteAt (endianSwapInt32 v).toBitVec (0 + 1),
    byteAt (endianSwapInt32 v).toBitVec (1 + 1), byteAt (endianSwapInt32 v).toBitVec (2 + 1)] = _
  rw [first, others 0 (by decide), others 1 (by decide), others 2 (by decide)]
  rfl

theorem or_ones (b : UInt8) : b ||| 0xff = 0xff := by
  apply UInt8.toBitVec_inj.mp
  exact BitVec.or_allOnes

theorem extension_small {b : UInt8} (small : b < 0x80) : extension b = 0 := if_pos small
theorem extension_large {b : UInt8} (large : ¬ b < 0x80) : extension b = 0xff := if_neg large

/-- Bytes get no sign from a small byte, and none that changes them if they are all set. -/
theorem map_extension_iff (high : UInt8) (low : List UInt8) :
    low.map (· ||| extension high) = low ↔ high < 0x80 ∨ ∀ b ∈ low, b = 0xff := by
  by_cases small : high < 0x80
  · simp [extension_small small, small]
  · rw [extension_large small, or_iff_right small]
    have fixed : low.map (· ||| 0xff) = low ↔ low.map (· ||| 0xff) = low.map id := by rw [List.map_id]
    rw [fixed, List.map_eq_map_iff]
    simp only [or_ones, id_eq, eq_comm]

theorem swapped_concat (low : List UInt8) (high : UInt8) :
    swapped (low ++ [high]) = high :: low.reverse.map (· ||| extension high) := by
  rw [swapped, List.reverse_concat]

theorem reversed_iff (low : List UInt8) (high : UInt8) :
    swapped (low ++ [high]) = (low ++ [high]).reverse ↔ high < 0x80 ∨ ∀ b ∈ low, b = 0xff := by
  rw [swapped_concat, List.reverse_concat, List.cons.injEq, and_iff_right rfl, map_extension_iff]
  simp only [List.mem_reverse]

/-- Both ways of two or more bytes are right exactly if the bytes are neutral. -/
theorem swapped_iff (a high : UInt8) (mid : List UInt8) :
    (swapped (a :: mid ++ [high]) = (a :: mid ++ [high]).reverse ∧
      swapped (swapped (a :: mid ++ [high])) = a :: mid ++ [high]) ↔
    (a < 0x80 ∧ high < 0x80) ∨ ∀ b ∈ a :: mid ++ [high], b = 0xff := by
  have back : (a :: mid ++ [high]).reverse = high :: mid.reverse ++ [a] := by simp
  have there : a :: mid ++ [high] = (high :: mid.reverse ++ [a]).reverse := by simp
  have ways : (swapped (a :: mid ++ [high]) = (a :: mid ++ [high]).reverse ∧
        swapped (swapped (a :: mid ++ [high])) = a :: mid ++ [high]) ↔
      (high < 0x80 ∨ ∀ b ∈ a :: mid, b = 0xff) ∧ (a < 0x80 ∨ ∀ b ∈ high :: mid.reverse, b = 0xff) := by
    rw [reversed_iff, and_congr_right_iff]
    intro first
    rw [(reversed_iff _ _).mpr first, back, ← reversed_iff, ← there]
  rw [ways]
  simp only [List.cons_append, List.forall_mem_cons, List.forall_mem_append, List.mem_reverse, List.mem_singleton, forall_eq]
  constructor
  · rintro ⟨small | ⟨rfl, mid⟩, small' | ⟨rfl, mid'⟩⟩
    · exact .inl ⟨small', small⟩
    · exact absurd small (by decide)
    · exact absurd small' (by decide)
    · exact .inr ⟨rfl, mid, rfl⟩
  · rintro (⟨small, small'⟩ | ⟨rfl, mid, rfl⟩)
    · exact ⟨.inl small', .inl small⟩
    · exact ⟨.inr ⟨rfl, mid⟩, .inr ⟨rfl, mid⟩⟩

/-! ## Values -/

theorem toMemory_inj {α : Type} [Memory α] {v w : α} : toMemory v = toMemory w ↔ v = w := by
  refine ⟨fun same => ?_, congrArg toMemory⟩
  rw [← ofMemory_toMemory v, same, ofMemory_toMemory]

section
variable {α : Type} [EndianSwap α] [Memory α] {v : α}

/-- The way there and back is two swaps. -/
theorem swaps_iff : Swaps v ↔ toMemory (endianSwap v) = (toMemory v).reverse ∧ endianSwap (endianSwap v) = v :=
  ⟨fun swaps => ⟨swaps.reversed, swaps.involutive⟩, fun both => ⟨both.1, both.2, both.2⟩⟩

/-- Where every value is reversed, all is right. -/
theorem swaps_of_reversed (reversed : ∀ v : α, toMemory (endianSwap v) = (toMemory v).reverse) (v : α) : Swaps v := by
  refine swaps_iff.mpr ⟨reversed v, toMemory_inj.mp ?_⟩
  rw [reversed, reversed, List.reverse_reverse]

theorem swaps_iff_of_swapped (extended : ∀ v : α, toMemory (endianSwap v) = swapped (toMemory v)) (mid : List UInt8)
    {a high : UInt8} (bytes : toMemory v = a :: mid ++ [high]) : Swaps v ↔ SignNeutral v := by
  have twice : endianSwap (endianSwap v) = v ↔ swapped (swapped (toMemory v)) = toMemory v := by
    rw [← toMemory_inj, extended, extended]
  have last : (a :: mid ++ [high]).getLast? = some high := List.getLast?_concat
  rw [swaps_iff, twice, extended, SignNeutral, bytes, swapped_iff, last]
  simp

end

/-- `endian_swap` and the conversions made of it are right for all unsigned values, and for
    the signed values that no sign can change. -/
theorem endian_swap_iff (u16 : UInt16) (u32 : UInt32) (v16 : Int16) (v32 : Int32) :
    Swaps u16 ∧ Swaps u32 ∧ (Swaps v16 ↔ SignNeutral v16) ∧ (Swaps v32 ↔ SignNeutral v32) := by
  refine ⟨swaps_of_reversed toMemory_endianSwap16 u16, swaps_of_reversed toMemory_endianSwap32 u32, ?_, ?_⟩
  · exact swaps_iff_of_swapped toMemory_endianSwapInt16 [] (toMemory16_bytes v16.toUInt16)
  · exact swaps_iff_of_swapped toMemory_endianSwapInt32 [_, _] (toMemory32_bytes v32.toUInt32)

/-- The bytes of -2 are not reversed, in either width. -/
theorem minus_two_not_swapped : ¬ Swaps (-2 : Int16) ∧ ¬ Swaps (-2 : Int32) := by
  constructor
  · exact fun swaps => absurd swaps.reversed (by decide)
  · exact fun swaps => absurd swaps.reversed (by decide)

end Oac
