import Oac.Buffer.Shifted

/-!
# Double buffers

Two buffers of which one is current. `is_modified` compares a range of the two.
-/
namespace Oac
open Base

/-- `_backed_buffer[0]` is that of `false`. -/
structure DoubleBuffer (β : Type) where
  backedBuffer : Bool → β
  currentBuffer : Bool

namespace DoubleBuffer
variable {β : Type} [RandomAccess β]

def create (backedBuffer0 backedBuffer1 : β) : DoubleBuffer β :=
  ⟨fun i => if i then backedBuffer1 else backedBuffer0, false⟩

def current (b : DoubleBuffer β) : β := b.backedBuffer b.currentBuffer
def other (b : DoubleBuffer β) : β := b.backedBuffer !b.currentBuffer

def setCurrent (b : DoubleBuffer β) (buffer : β) : DoubleBuffer β :=
  { b with backedBuffer := Function.update b.backedBuffer b.currentBuffer buffer }

instance : RandomAccess (DoubleBuffer β) where
  capacity b := RandomAccess.capacity b.current
  read b offset length := RandomAccess.read b.current offset length
  write src offset b := (RandomAccess.write src offset b.current).map b.setCurrent
  copy read srcOffset dstOffset length b := do
    let buffer ← RandomAccess.copy read srcOffset dstOffset length b.current
    pure (b.setCurrent buffer)

def swap (b : DoubleBuffer β) : DoubleBuffer β := { b with currentBuffer := !b.currentBuffer }

def isModified (length : Nat) (b : DoubleBuffer β) (offset : Nat) : Except Exception Bool := do
  let data0 ← RandomAccess.read (b.backedBuffer false) offset length
  let data1 ← RandomAccess.read (b.backedBuffer true) offset length
  pure (data0 ≠ data1)

def isModifiedAs (α : Type) [Memory α] (b : DoubleBuffer β) (offset : Nat) : Except Exception Bool :=
  b.isModified (Memory.size α) offset

omit [RandomAccess β] in
@[simp] theorem current_setCurrent (b : DoubleBuffer β) (buffer : β) : (b.setCurrent buffer).current = buffer :=
  Function.update_self ..

omit [RandomAccess β] in
@[simp] theorem other_setCurrent (b : DoubleBuffer β) (buffer : β) : (b.setCurrent buffer).other = b.other :=
  Function.update_of_ne (by simp [setCurrent]) ..

omit [RandomAccess β] in
@[simp] theorem current_swap (b : DoubleBuffer β) : b.swap.current = b.other := rfl

omit [RandomAccess β] in
@[simp] theorem other_swap (b : DoubleBuffer β) : b.swap.other = b.current := by
  simp [other, current, swap]

/-- The buffers hold two memories, the current one the first. -/
structure Holds (R : β → (Nat → UInt8) → Prop) (b : DoubleBuffer β) (m m' : Nat → UInt8) : Prop where
  current : R b.current m
  other : R b.other m'

variable {R : β → (Nat → UInt8) → Prop} {base size : Nat} {b : DoubleBuffer β} {m m' : Nat → UInt8} {offset len : Nat}

omit [RandomAccess β] in
theorem Holds.swap (holds : Holds R b m m') : Holds R b.swap m' m := ⟨by simpa using holds.other, by simpa using holds.current⟩

/-- The other buffer stays as it is. -/
theorem holding (holding : Holding base size R) (m' : Nat → UInt8) : Holding base size fun b m => Holds R b m m' where
  read := fun holds after before => holding.read holds.current after before
  write := by
    intro b m src offset holds after before
    obtain ⟨buffer, written, holds'⟩ := holding.write holds.current after before
    refine ⟨b.setCurrent buffer, ?_, by simpa using holds', by simpa using holds.other⟩
    show (RandomAccess.write src offset b.current).map _ = _
    rw [written]
    rfl
  copy := by
    intro b m σ read srcOffset dstOffset len block s s' holds after before executed size'
    obtain ⟨buffer, copied, holds'⟩ := holding.copy holds.current after before executed size'
    exact ⟨b.setCurrent buffer, ok_bind copied, by simpa using holds', by simpa using holds.other⟩

/-- A range is modified where the memories differ. -/
theorem isModified_eq (holding : Holding base size R) (holds : Holds R b m m') (after : base ≤ offset)
    (before : offset + len ≤ base + size) :
    b.isModified len offset = .ok (decide (region m offset len ≠ region m' offset len)) := by
  have first := holding.read holds.current after before
  have second := holding.read holds.other after before
  unfold isModified
  unfold current at first
  unfold other at second
  cases index : b.currentBuffer with
  | false =>
    rw [index] at first second
    rw [first, show b.backedBuffer true = b.backedBuffer (!false) from rfl, second]
    rfl
  | true =>
    rw [index] at first second
    rw [first, show b.backedBuffer false = b.backedBuffer (!true) from rfl, second]
    simp [pure, Except.pure, bind, Except.bind, eq_comm]

end DoubleBuffer
end Oac
