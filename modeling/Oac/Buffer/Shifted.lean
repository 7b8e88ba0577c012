import Oac.Base.Region
import Oac.Buffer.Linear

/-!
# Buffers at any offset

Linear buffers, and the decorator that shifts offsets. A buffer that holds a part of a
memory is accessed there as the memory is (`Holding`).
-/
namespace Oac
open Base

/-- The buffers that are read, written and copied to at an offset. A copy takes the `read`
    of its source, which may fail. -/
class RandomAccess (β : Type) where
  capacity : β → Nat
  read : β → Nat → Nat → Except Exception (List UInt8)
  write : List UInt8 → Nat → β → Except Exception β
  copy : {σ : Type} → (Nat → Nat → EStateM Exception σ (List UInt8)) → Nat → Nat → Nat → β → EStateM Exception σ β

variable {α β : Type}

/-- `buffer::read_as`. -/
def RandomAccess.readAs (α : Type) [Memory α] [RandomAccess β] (b : β) (offset : Nat) : Except Exception α :=
  (read b offset (Memory.size α)).map Memory.ofMemory

/-- `buffer::write_as`. -/
def RandomAccess.writeAs [Memory α] [RandomAccess β] (t : α) (offset : Nat) (b : β) : Except Exception β :=
  write (Memory.toMemory t) offset b

/-- In the range from `base` on, a buffer that is related to a memory is accessed as the
    memory is. -/
structure Holding [RandomAccess β] (base size : Nat) (R : β → (Nat → UInt8) → Prop) : Prop where
  read : ∀ {b m offset len}, R b m → base ≤ offset → offset + len ≤ base + size →
    RandomAccess.read b offset len = .ok (region m offset len)
  write : ∀ {b m src offset}, R b m → base ≤ offset → offset + src.length ≤ base + size →
    ∃ b', RandomAccess.write src offset b = .ok b' ∧ R b' (patch m offset src)
  copy : ∀ {b m} {σ : Type} {read : Nat → Nat → EStateM Exception σ (List UInt8)} {srcOffset dstOffset len block s s'},
    R b m → base ≤ dstOffset → dstOffset + len ≤ base + size → read srcOffset len s = .ok block s' → block.length = len →
      ∃ b', RandomAccess.copy read srcOffset dstOffset len b s = .ok b' s' ∧ R b' (patch m dstOffset block)

section
variable [RandomAccess β] {base size : Nat} {R : β → (Nat → UInt8) → Prop}

theorem Holding.readAs [Memory α] (holding : Holding base size R) {b : β} {m : Nat → UInt8} {offset : Nat} (holds : R b m)
    (after : base ≤ offset) (before : offset + Memory.size α ≤ base + size) :
    RandomAccess.readAs α b offset = .ok (Memory.ofMemory (region m offset (Memory.size α))) := by
  rw [RandomAccess.readAs, holding.read holds after before]
  rfl

theorem Holding.writeAs [Memory α] (holding : Holding base size R) {b : β} {m : Nat → UInt8} {offset : Nat} (t : α)
    (holds : R b m) (after : base ≤ offset) (before : offset + Memory.size α ≤ base + size) :
    ∃ b', RandomAccess.writeAs t offset b = .ok b' ∧ R b' (patch m offset (Memory.toMemory t)) :=
  holding.write holds after (by rwa [Memory.toMemory_length])

end

/-! ## Linear buffers -/

namespace LinearBuffer

/-- A linear buffer leaves the access at an offset to its fixed buffer. -/
instance : RandomAccess LinearBuffer where
  capacity := capacity
  read b offset length := b.fixedBuffer.read offset length
  write src offset b := (b.fixedBuffer.write src offset).map fun fixedBuffer => { b with fixedBuffer }
  copy read srcOffset dstOffset length b := do
    let fixedBuffer ← b.fixedBuffer.copy read srcOffset dstOffset length
    pure { b with fixedBuffer }

/-- The buffer holds the first bytes of a memory. -/
def Holds (size : Nat) (b : LinearBuffer) (m : Nat → UInt8) : Prop := b.fixedBuffer.data = region m 0 size

theorem create_capacity (size : Nat) : RandomAccess.capacity (create size) = size := FixedBuffer.create_capacity size

theorem create_holds (size : Nat) : Holds size (create size) fun _ => 0 := by
  apply List.ext_getElem
  · simp [create, FixedBuffer.create]
  · intro i _ _
    simp [create, FixedBuffer.create]

theorem holding (size : Nat) : Holding 0 size (Holds size) where
  read := by
    intro b m offset len holds _ before
    have inside : offset + len ≤ b.fixedBuffer.capacity := by
      rw [FixedBuffer.capacity, holds, region_length]
      omega
    show b.fixedBuffer.read offset len = _
    rw [FixedBuffer.read, if_neg (FixedBuffer.not_outOfBounds inside), holds, region_piece m (by omega), Nat.zero_add]
  write := by
    intro b m src offset holds _ before
    have inside : offset + src.length ≤ b.fixedBuffer.capacity := by
      rw [FixedBuffer.capacity, holds, region_length]
      omega
    refine ⟨{ b with fixedBuffer := ⟨overwrite b.fixedBuffer.data offset src⟩ }, ?_, ?_⟩
    · show (b.fixedBuffer.write src offset).map _ = _
      rw [FixedBuffer.write_inside inside]
      rfl
    · show overwrite b.fixedBuffer.data offset src = _
      rw [holds, overwrite_region m (by omega), Nat.zero_add]
  copy := by
    intro b m σ read srcOffset dstOffset len block s s' holds _ before executed size'
    have inside : dstOffset + len ≤ b.fixedBuffer.capacity := by
      rw [FixedBuffer.capacity, holds, region_length]
      omega
    refine ⟨{ b with fixedBuffer := ⟨overwrite b.fixedBuffer.data dstOffset block⟩ }, ?_, ?_⟩
    · exact ok_bind (FixedBuffer.copy_inside inside executed)
    · show overwrite b.fixedBuffer.data dstOffset block = _
      rw [holds, overwrite_region m (by omega), Nat.zero_add]

end LinearBuffer

/-! ## Shifted buffers -/

/-- A decorated buffer whose first byte has the offset `offsetShift`. -/
structure ShiftedBuffer (β : Type) where
  backedBuffer : β
  backedCapacity : Nat
  offsetShift : Nat

namespace ShiftedBuffer
variable [RandomAccess β]

def create (backedBuffer : β) (offsetShift : Nat) : ShiftedBuffer β :=
  ⟨backedBuffer, RandomAccess.capacity backedBuffer, offsetShift⟩

/-- A difference of two `std::uint32_t`. -/
def shift (b : ShiftedBuffer β) (offset : Nat) : Nat := (offset + 2 ^ 32 - b.offsetShift) % 2 ^ 32

/-- `check_bounds` finds the range outside of the buffer. -/
def OutOfBounds (b : ShiftedBuffer β) (offset length : Nat) : Prop :=
  offset < b.offsetShift ∨ b.backedCapacity < (b.shift offset + length) % 2 ^ 32
instance (b : ShiftedBuffer β) (offset length : Nat) : Decidable (b.OutOfBounds offset length) :=
  inferInstanceAs (Decidable (_ ∨ _))

def outOfBounds (b : ShiftedBuffer β) (offset length : Nat) : Exception :=
  .indexOutOfBounds ((offset + length) % 2 ^ 32 : Nat) 0 (b.backedCapacity - 1)

instance : RandomAccess (ShiftedBuffer β) where
  capacity b := RandomAccess.capacity b.backedBuffer
  read b offset length :=
    if b.OutOfBounds offset length then .error (b.outOfBounds offset length)
    else RandomAccess.read b.backedBuffer (b.shift offset) length
  write src offset b :=
    if b.OutOfBounds offset src.length then .error (b.outOfBounds offset src.length)
    else (RandomAccess.write src (b.shift offset) b.backedBuffer).map fun backedBuffer => { b with backedBuffer }
  copy read srcOffset dstOffset length b :=
    if b.OutOfBounds dstOffset length then throw (b.outOfBounds dstOffset length)
    else do
      let backedBuffer ← RandomAccess.copy read srcOffset (b.shift dstOffset) length b.backedBuffer
      pure { b with backedBuffer }

/-- The decorated buffer holds the bytes of a memory from `base` on. -/
structure Holds (R : β → (Nat → UInt8) → Prop) (base size : Nat) (b : ShiftedBuffer β) (m : Nat → UInt8) : Prop where
  backed : R b.backedBuffer fun a => m (base + a)
  capacity : b.backedCapacity = size
  offsetShift : b.offsetShift = base

variable {R : β → (Nat → UInt8) → Prop} {base size : Nat} {b : ShiftedBuffer β} {m : Nat → UInt8} {offset len : Nat}

omit [RandomAccess β] in
theorem Holds.shift_eq (holds : Holds R base size b m) (addressable : base + size < 2 ^ 32) (after : base ≤ offset)
    (before : offset + len ≤ base + size) : b.shift offset = offset - base := by
  rw [shift, holds.offsetShift]
  omega

omit [RandomAccess β] in
theorem Holds.not_outOfBounds (holds : Holds R base size b m) (addressable : base + size < 2 ^ 32) (after : base ≤ offset)
    (before : offset + len ≤ base + size) : ¬ b.OutOfBounds offset len := by
  rw [OutOfBounds, holds.shift_eq addressable after before, holds.capacity, holds.offsetShift]
  omega

theorem holding (addressable : base + size < 2 ^ 32) (holding : Holding 0 size R) : Holding base size (Holds R base size) where
  read := by
    intro b m offset len holds after before
    show (if _ then _ else _) = _
    rw [if_neg (holds.not_outOfBounds addressable after before), holds.shift_eq addressable after before,
      holding.read holds.backed (Nat.zero_le _) (by omega), region_shift, Nat.add_sub_cancel' after]
  write := by
    intro b m src offset holds after before
    obtain ⟨backed, written, holds'⟩ := holding.write holds.backed (Nat.zero_le _) (show offset - base + src.length ≤ 0 + size by omega)
    refine ⟨{ b with backedBuffer := backed }, ?_, ?_, holds.capacity, holds.offsetShift⟩
    · show (if _ then _ else _) = _
      rw [if_neg (holds.not_outOfBounds addressable after before), holds.shift_eq addressable after before, written]
      rfl
    · rwa [← patch_shift, Nat.add_sub_cancel' after] at holds'
  copy := by
    intro b m σ read srcOffset dstOffset len block s s' holds after before executed size'
    obtain ⟨backed, copied, holds'⟩ := holding.copy holds.backed (Nat.zero_le _)
      (show dstOffset - base + len ≤ 0 + size by omega) executed size'
    refine ⟨{ b with backedBuffer := backed }, ?_, ?_, holds.capacity, holds.offsetShift⟩
    · show (ite _ _ _ : EStateM Exception σ (ShiftedBuffer β)) s = _
      rw [if_neg (holds.not_outOfBounds addressable after before), holds.shift_eq addressable after before]
      exact ok_bind copied
    · rwa [← patch_shift, Nat.add_sub_cancel' after] at holds'

end ShiftedBuffer
end Oac
