import Oac.Base.Cyclic
import Oac.Base.Program
import Oac.Errors

/-!
# Fixed buffers

A block of memory of a fixed capacity. `std::size_t` has 32 bits.
-/
namespace Oac
open Base

structure FixedBuffer where
  data : List UInt8
  deriving DecidableEq

namespace FixedBuffer

def create (capacity : Nat) : FixedBuffer := ⟨List.replicate capacity 0⟩

def capacity (b : FixedBuffer) : Nat := b.data.length

/-- `check_bounds` finds the range outside of the buffer. -/
def OutOfBounds (b : FixedBuffer) (offset length : Nat) : Prop := b.capacity < (offset + length) % 2 ^ 32
instance (b : FixedBuffer) (offset length : Nat) : Decidable (b.OutOfBounds offset length) :=
  inferInstanceAs (Decidable (_ < _))

def outOfBounds (b : FixedBuffer) (offset length : Nat) : Exception :=
  .indexOutOfBounds ((offset + length) % 2 ^ 32 : Nat) 0 (b.capacity - 1)

def read (b : FixedBuffer) (offset length : Nat) : Except Exception (List UInt8) :=
  if b.OutOfBounds offset length then .error (b.outOfBounds offset length)
  else .ok ((b.data.drop offset).take length)

def write (b : FixedBuffer) (src : List UInt8) (offset : Nat) : Except Exception FixedBuffer :=
  if b.OutOfBounds offset src.length then .error (b.outOfBounds offset src.length)
  else .ok ⟨overwrite b.data offset src⟩

/-- `read` is that of the source, which may fail. -/
def copy {σ : Type} (read : Nat → Nat → EStateM Exception σ (List UInt8)) (srcOffset dstOffset length : Nat)
    (b : FixedBuffer) : EStateM Exception σ FixedBuffer :=
  if b.OutOfBounds dstOffset length then throw (b.outOfBounds dstOffset length)
  else do
    let block ← read srcOffset length
    pure ⟨overwrite b.data dstOffset block⟩

@[simp] theorem create_capacity (n : Nat) : (create n).capacity = n := by
  simp [create, capacity]

theorem not_outOfBounds {b : FixedBuffer} {offset length : Nat} (inside : offset + length ≤ b.capacity) :
    ¬ b.OutOfBounds offset length :=
  not_lt.mpr ((Nat.mod_le _ _).trans inside)

theorem read_inside {b : FixedBuffer} {offset length : Nat} (inside : offset + length ≤ b.capacity) :
    b.read offset length = .ok (window b.data offset length) := by
  rw [read, if_neg (not_outOfBounds inside), window_piece inside]

theorem write_inside {b : FixedBuffer} {src : List UInt8} {offset : Nat} (inside : offset + src.length ≤ b.capacity) :
    b.write src offset = .ok ⟨overwrite b.data offset src⟩ := by
  rw [write, if_neg (not_outOfBounds inside)]

theorem copy_inside {σ : Type} {read : Nat → Nat → EStateM Exception σ (List UInt8)} {b : FixedBuffer}
    {srcOffset dstOffset length : Nat} {block : List UInt8} {s s' : σ} (inside : dstOffset + length ≤ b.capacity)
    (executed : read srcOffset length s = .ok block s') :
    b.copy read srcOffset dstOffset length s = .ok ⟨overwrite b.data dstOffset block⟩ s' := by
  rw [copy, if_neg (not_outOfBounds inside)]
  exact ok_bind executed

end FixedBuffer
end Oac
