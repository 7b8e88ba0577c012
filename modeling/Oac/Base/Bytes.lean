import Oac.Base.Region
import Mathlib.Tactic.Ring

/-!
# Numbers in a memory

A number as bytes, the lowest first, and what is in a memory after it was stored there. A
number is loaded as it was stored, as far as the bytes have room for it (`load_store`).
-/
namespace Oac.Base

def bytesOf : Nat → Nat → List UInt8
  | 0, _ => []
  | width + 1, n => .ofNat n :: bytesOf width (n / 256)

def valueOf : List UInt8 → Nat
  | [] => 0
  | byte :: bytes => byte.toNat + 256 * valueOf bytes

@[simp] theorem bytesOf_length (width n : Nat) : (bytesOf width n).length = width := by
  induction width generalizing n with
  | zero => rfl
  | succ width ih => rw [bytesOf, List.length_cons, ih]

theorem valueOf_bytesOf (width n : Nat) : valueOf (bytesOf width n) = n % 256 ^ width := by
  induction width generalizing n with
  | zero => rw [pow_zero, Nat.mod_one, bytesOf, valueOf]
  | succ width ih =>
    have whole : n % 256 ^ (width + 1) = n % 256 + 256 * (n / 256 % 256 ^ width) := by rw [pow_succ', Nat.mod_mul]
    rw [bytesOf, valueOf, ih, whole]
    rfl

theorem valueOf_lt (bytes : List UInt8) : valueOf bytes < 256 ^ bytes.length := by
  induction bytes with
  | nil => exact Nat.one_pos
  | cons byte bytes ih =>
    have bound := byte.toNat_lt
    rw [valueOf, List.length_cons, pow_succ']
    omega

theorem bytesOf_valueOf (bytes : List UInt8) : bytesOf bytes.length (valueOf bytes) = bytes := by
  induction bytes with
  | nil => rfl
  | cons byte bytes ih =>
    have bound := byte.toNat_lt
    have low : UInt8.ofNat (byte.toNat + 256 * valueOf bytes) = byte := by
      apply UInt8.toNat_inj.mp
      rw [UInt8.toNat_ofNat']
      omega
    rw [List.length_cons, valueOf, bytesOf, low, show (byte.toNat + 256 * valueOf bytes) / 256 = valueOf bytes by omega, ih]

def store (m : Nat → UInt8) (addr width n : Nat) : Nat → UInt8 := patch m addr (bytesOf width n)

def load (m : Nat → UInt8) (addr width : Nat) : Nat := valueOf (region m addr width)

theorem load_store (m : Nat → UInt8) (addr width n : Nat) : load (store m addr width n) addr width = n % 256 ^ width := by
  have stored := region_patch m addr (bytesOf width n)
  rw [bytesOf_length] at stored
  rw [load, store, stored, valueOf_bytesOf]

/-- Bytes outside of the number stay. -/
theorem store_outside {m : Nat → UInt8} {addr width n a : Nat} (outside : a < addr ∨ addr + width ≤ a) :
    store m addr width n a = m a := by
  rw [← bytesOf_length width n] at outside
  exact patch_outside outside

theorem store_succ (m : Nat → UInt8) (addr width n : Nat) :
    store m addr (width + 1) n = Function.update (store m (addr + 1) width (n / 256)) addr (.ofNat n) :=
  patch_cons m addr _ _

theorem load_succ (m : Nat → UInt8) (addr width : Nat) :
    load m addr (width + 1) = (m addr).toNat + 256 * load m (addr + 1) width := by
  rw [load, region_succ, valueOf, load]

end Oac.Base
