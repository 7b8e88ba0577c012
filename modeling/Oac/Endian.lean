import Mathlib.Tactic.Common

/-!
# Byte order

Integers in the memory of the host, which is little-endian, and in network order.
-/
namespace Oac

/-- A type of fixed size, and its values as they lie in memory. Only blocks of its size
    are ever taken for a value. -/
class Memory (α : Type) where
  size : Nat
  toMemory : α → List UInt8
  ofMemory : List UInt8 → α
  toMemory_length : ∀ v, (toMemory v).length = size
  ofMemory_toMemory : ∀ v, ofMemory (toMemory v) = v
open Memory

attribute [simp] toMemory_length ofMemory_toMemory

def toMemory16 (v : UInt16) : List UInt8 := [UInt8.ofNat v.toNat, UInt8.ofNat (v.toNat / 0x100)]
def toMemory32 (v : UInt32) : List UInt8 :=
  [UInt8.ofNat v.toNat, UInt8.ofNat (v.toNat / 0x100), UInt8.ofNat (v.toNat / 0x10000),
    UInt8.ofNat (v.toNat / 0x1000000)]
def ofMemory16 : List UInt8 → UInt16
  | [a, b] => UInt16.ofNat (a.toNat + 0x100 * b.toNat)
  | _ => 0
def ofMemory32 : List UInt8 → UInt32
  | [a, b, c, d] => UInt32.ofNat (a.toNat + 0x100 * b.toNat + 0x10000 * c.toNat + 0x1000000 * d.toNat)
  | _ => 0

theorem ofMemory16_toMemory16 (v : UInt16) : ofMemory16 (toMemory16 v) = v := by
  have bound := v.toNat_lt
  apply UInt16.toNat_inj.mp
  simp only [ofMemory16, toMemory16, UInt8.toNat_ofNat', UInt16.toNat_ofNat']
  omega
theorem ofMemory32_toMemory32 (v : UInt32) : ofMemory32 (toMemory32 v) = v := by
  have bound := v.toNat_lt
  apply UInt32.toNat_inj.mp
  simp only [ofMemory32, toMemory32, UInt8.toNat_ofNat', UInt32.toNat_ofNat']
  omega

theorem toMemory16_ofMemory16 {block : List UInt8} (size : block.length = 2) : toMemory16 (ofMemory16 block) = block := by
  obtain ⟨a, b, rfl⟩ : ∃ a b, block = [a, b] := by
    match block, size with
    | [a, b], _ => exact ⟨a, b, rfl⟩
  have aBound := a.toNat_lt
  have bBound := b.toNat_lt
  simp only [ofMemory16, toMemory16, UInt16.toNat_ofNat', List.cons.injEq, and_true, ← UInt8.toNat_inj, UInt8.toNat_ofNat']
  omega
theorem toMemory32_ofMemory32 {block : List UInt8} (size : block.length = 4) : toMemory32 (ofMemory32 block) = block := by
  obtain ⟨a, b, c, d, rfl⟩ : ∃ a b c d, block = [a, b, c, d] := by
    match block, size with
    | [a, b, c, d], _ => exact ⟨a, b, c, d, rfl⟩
  have aBound := a.toNat_lt
  have bBound := b.toNat_lt
  have cBound := c.toNat_lt
  have dBound := d.toNat_lt
  simp only [ofMemory32, toMemory32, UInt32.toNat_ofNat', List.cons.injEq, and_true, ← UInt8.toNat_inj, UInt8.toNat_ofNat']
  omega

instance : Memory UInt8 where
  size := 1
  toMemory v := [v]
  ofMemory block := block.headD 0
  toMemory_length _ := rfl
  ofMemory_toMemory _ := rfl
instance : Memory UInt16 where
  size := 2
  toMemory := toMemory16
  ofMemory := ofMemory16
  toMemory_length _ := rfl
  ofMemory_toMemory := ofMemory16_toMemory16
instance : Memory UInt32 where
  size := 4
  toMemory := toMemory32
  ofMemory := ofMemory32
  toMemory_length _ := rfl
  ofMemory_toMemory := ofMemory32_toMemory32

/-- `endian_swap<std::uint16_t>`. -/
def endianSwap16 (v : UInt16) : UInt16 := (v >>> 8) ||| (v <<< 8)
/-- `endian_swap<std::uint32_t>`. -/
def endianSwap32 (v : UInt32) : UInt32 :=
  (v >>> 24) ||| ((v <<< 8) &&& (0x00ff0000 : UInt32)) ||| ((v >>> 8) &&& (0x0000ff00 : UInt32)) ||| (v <<< 24)

theorem upper_mask (i : Fin 32) : (0x00ff0000#32)[i.val] = decide (16 ≤ i.val ∧ i.val < 24) := by
  revert i; decide
theorem lower_mask (i : Fin 32) : (0x0000ff00#32)[i.val] = decide (8 ≤ i.val ∧ i.val < 16) := by
  revert i; decide

theorem endianSwap16_involutive (v : UInt16) : endianSwap16 (endianSwap16 v) = v := by
  apply UInt16.toBitVec_inj.mp
  refine BitVec.eq_of_getLsbD_eq fun i inside => ?_
  simp only [endianSwap16, UInt16.toBitVec_or, UInt16.toBitVec_shiftLeft, UInt16.toBitVec_shiftRight]
  simp
  grind
theorem endianSwap32_involutive (v : UInt32) : endianSwap32 (endianSwap32 v) = v := by
  have upper : ∀ i < 32, (0x00ff0000#32).getLsbD i = decide (16 ≤ i ∧ i < 24) := fun i inside =>
    (BitVec.getLsbD_eq_getElem inside).trans (upper_mask ⟨i, inside⟩)
  have lower : ∀ i < 32, (0x0000ff00#32).getLsbD i = decide (8 ≤ i ∧ i < 16) := fun i inside =>
    (BitVec.getLsbD_eq_getElem inside).trans (lower_mask ⟨i, inside⟩)
  apply UInt32.toBitVec_inj.mp
  refine BitVec.eq_of_getLsbD_eq fun i inside => ?_
  simp [endianSwap32]
  grind

/-- `native_to_big` and `big_to_native` on a little-endian host. -/
def nativeToBig16 (v : UInt16) : UInt16 := endianSwap16 v
def nativeToBig32 (v : UInt32) : UInt32 := endianSwap32 v
def bigToNative16 (v : UInt16) : UInt16 := endianSwap16 v
def bigToNative32 (v : UInt32) : UInt32 := endianSwap32 v

@[simp] theorem bigToNative16_nativeToBig16 (v : UInt16) : bigToNative16 (nativeToBig16 v) = v :=
  endianSwap16_involutive v
@[simp] theorem bigToNative32_nativeToBig32 (v : UInt32) : bigToNative32 (nativeToBig32 v) = v :=
  endianSwap32_involutive v

end Oac
