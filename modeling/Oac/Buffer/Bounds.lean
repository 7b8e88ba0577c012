import Oac.Buffer.Shifted

/-!
# Bounds of buffers

Fixed and shifted buffers check the end of a range that they are asked for. The end is a
number of 32 bits, so that a range that goes past the end of the address space may be taken
for one at the beginning of the buffer (`bounds_iff`).
-/
namespace Oac
open Base

def Exception.IsOutOfBounds : Exception → Prop
  | .indexOutOfBounds _ _ _ => True
  | _ => False

/-- A range is in a buffer whose first byte has the offset `base`. An empty range is in it
    where its place is. -/
def Within (capacity base offset length : Nat) : Prop := base ≤ offset ∧ offset - base + length ≤ capacity

/-- The end of a range is past the end of the address space, and the number that is left
    of it is in the buffer. -/
def Wraps (capacity base offset length : Nat) : Prop :=
  base ≤ offset ∧ 2 ^ 32 ≤ offset - base + length ∧ offset - base + length - 2 ^ 32 ≤ capacity

instance (capacity base offset length : Nat) : Decidable (Within capacity base offset length) :=
  inferInstanceAs (Decidable (_ ∧ _))
instance (capacity base offset length : Nat) : Decidable (Wraps capacity base offset length) :=
  inferInstanceAs (Decidable (_ ∧ _ ∧ _))

/-- Where accesses to a range are allowed they concern exactly the bytes from a place on.
    Elsewhere they throw. -/
structure Access {β : Type} [RandomAccess β] (data : β → List UInt8) (b : β) (offset length : Nat) (allowed : Prop)
    (place : Nat) : Prop where
  read : allowed → RandomAccess.read b offset length = .ok (((data b).drop place).take length)
  readRefused : ¬ allowed → ∃ e, RandomAccess.read b offset length = .error e ∧ e.IsOutOfBounds
  write : ∀ {src}, src.length = length → allowed →
    ∃ b', RandomAccess.write src offset b = .ok b' ∧ data b' = overwrite (data b) place src
  writeRefused : ∀ {src}, src.length = length → ¬ allowed →
    ∃ e, RandomAccess.write src offset b = .error e ∧ e.IsOutOfBounds
  copy : ∀ {σ : Type} {read : Nat → Nat → EStateM Exception σ (List UInt8)} {srcOffset block s s'},
    allowed → read srcOffset length s = .ok block s' →
      ∃ b', RandomAccess.copy read srcOffset offset length b s = .ok b' s' ∧ data b' = overwrite (data b) place block
  copyFailed : ∀ {σ : Type} {read : Nat → Nat → EStateM Exception σ (List UInt8)} {srcOffset e s s'},
    allowed → read srcOffset length s = .error e s' →
      RandomAccess.copy read srcOffset offset length b s = .error e s'
  copyRefused : ∀ {σ : Type} (read : Nat → Nat → EStateM Exception σ (List UInt8)) (srcOffset : Nat) (s : σ),
    ¬ allowed → ∃ e, RandomAccess.copy read srcOffset offset length b s = .error e s ∧ e.IsOutOfBounds

/-- The accesses are allowed exactly to what is in the buffer. -/
def Bounded {β : Type} [RandomAccess β] (data : β → List UInt8) (base : Nat) (b : β) (offset length : Nat) : Prop :=
  Access data b offset length (Within (data b).length base offset length) (offset - base)

section
variable {β : Type} [RandomAccess β] {data : β → List UInt8} {b : β} {offset length base place : Nat} {allowed : Prop}

theorem Access.congr {allowed' : Prop} (access : Access data b offset length allowed place) (same : allowed ↔ allowed') :
    Access data b offset length allowed' place :=
  propext same ▸ access

/-- The place matters only where accesses are allowed. -/
theorem Access.moved {place' : Nat} (access : Access data b offset length allowed place)
    (moved : allowed → place = place') : Access data b offset length allowed place' := by
  by_cases allows : allowed
  · exact moved allows ▸ access
  · exact ⟨fun never => absurd never allows, access.readRefused, fun _ never => absurd never allows, access.writeRefused,
      fun never => absurd never allows, fun never => absurd never allows, access.copyRefused⟩

/-- What wraps is allowed as well. -/
theorem Access.bounded_iff (access : Access data b offset length allowed (offset - base))
    (allows : allowed ↔ Within (data b).length base offset length ∨ Wraps (data b).length base offset length)
    (small : (data b).length < 2 ^ 32) :
    Bounded data base b offset length ↔ ¬ Wraps (data b).length base offset length := by
  constructor
  · intro bounded wraps
    have outside : ¬ Within (data b).length base offset length := by
      rintro ⟨-, before⟩
      exact absurd (wraps.2.1.trans before) (not_le.mpr small)
    obtain ⟨e, refused, -⟩ := Access.readRefused bounded outside
    have executed := access.read (allows.mpr (.inr wraps))
    exact absurd (executed.symm.trans refused) nofun
  · intro straight
    exact access.congr (allows.trans (or_iff_left straight))

end

/-! ## Fixed and linear buffers -/

instance : RandomAccess FixedBuffer where
  capacity := FixedBuffer.capacity
  read := FixedBuffer.read
  write src offset b := b.write src offset
  copy := FixedBuffer.copy

theorem FixedBuffer.access (b : FixedBuffer) (offset length : Nat) :
    Access FixedBuffer.data b offset length (¬ b.OutOfBounds offset length) offset where
  read allowed := if_neg allowed
  readRefused refused := ⟨_, if_pos (not_not.mp refused), trivial⟩
  write := by
    rintro src rfl allowed
    exact ⟨_, if_neg allowed, rfl⟩
  writeRefused := by
    rintro src rfl refused
    exact ⟨_, if_pos (not_not.mp refused), trivial⟩
  copy := by
    intro σ read srcOffset block s s' allowed executed
    refine ⟨⟨overwrite b.data offset block⟩, ?_, rfl⟩
    show b.copy read srcOffset offset length s = _
    rw [FixedBuffer.copy, if_neg allowed]
    exact ok_bind executed
  copyFailed := by
    intro σ read srcOffset e s s' allowed raised
    show b.copy read srcOffset offset length s = _
    rw [FixedBuffer.copy, if_neg allowed]
    exact error_bind raised
  copyRefused := by
    intro σ read srcOffset s refused
    refine ⟨b.outOfBounds offset length, ?_, trivial⟩
    show b.copy read srcOffset offset length s = _
    rw [FixedBuffer.copy, if_pos (not_not.mp refused)]
    rfl

theorem LinearBuffer.access (b : LinearBuffer) (offset length : Nat) :
    Access (fun b : LinearBuffer => b.fixedBuffer.data) b offset length (¬ b.fixedBuffer.OutOfBounds offset length)
      offset := by
  have fixed := b.fixedBuffer.access offset length
  refine ⟨fixed.read, fixed.readRefused, ?_, ?_, ?_, fun allowed raised => error_bind (fixed.copyFailed allowed raised), ?_⟩
  · intro src size allowed
    obtain ⟨buffer, written, bytes⟩ := fixed.write size allowed
    exact ⟨{ b with fixedBuffer := buffer }, congrArg (Except.map _) written, bytes⟩
  · intro src size refused
    obtain ⟨e, raised, isOut⟩ := fixed.writeRefused size refused
    exact ⟨e, congrArg (Except.map _) raised, isOut⟩
  · intro σ read srcOffset block s s' allowed executed
    obtain ⟨buffer, copied, bytes⟩ := fixed.copy allowed executed
    exact ⟨{ b with fixedBuffer := buffer }, ok_bind copied, bytes⟩
  · intro σ read srcOffset s refused
    obtain ⟨e, raised, isOut⟩ := fixed.copyRefused read srcOffset s refused
    exact ⟨e, error_bind raised, isOut⟩

/-- The check lets pass what is inside, and what wraps. -/
theorem FixedBuffer.allows_iff {b : FixedBuffer} (small : b.capacity < 2 ^ 32) (offset length : UInt32) :
    ¬ b.OutOfBounds offset.toNat length.toNat ↔
      Within b.capacity 0 offset.toNat length.toNat ∨ Wraps b.capacity 0 offset.toNat length.toNat := by
  have bound := offset.toNat_lt
  have bound' := length.toNat_lt
  unfold OutOfBounds Within Wraps
  omega

/-! ## Shifted buffers -/

namespace ShiftedBuffer
variable {β : Type} [RandomAccess β] {data : β → List UInt8} {offset length place : Nat} {allowed : Prop}

/-- Both buffers check. -/
theorem access (b : ShiftedBuffer β) (backed : Access data b.backedBuffer (b.shift offset) length allowed place) :
    Access (fun b => data b.backedBuffer) b offset length (¬ b.OutOfBounds offset length ∧ allowed) place := by
  by_cases outside : b.OutOfBounds offset length
  · have never : ¬ (¬ b.OutOfBounds offset length ∧ allowed) := fun both => both.1 outside
    refine ⟨fun both => absurd both never, fun _ => ⟨_, if_pos outside, trivial⟩, fun _ both => absurd both never, ?_,
      fun both => absurd both never, fun both => absurd both never, ?_⟩
    · rintro src rfl -
      exact ⟨_, if_pos outside, trivial⟩
    · intro σ read srcOffset s _
      refine ⟨b.outOfBounds offset length, ?_, trivial⟩
      show (ite _ _ _ : EStateM Exception σ (ShiftedBuffer β)) s = _
      rw [if_pos outside]
      rfl
  · have only : (¬ b.OutOfBounds offset length ∧ allowed) ↔ allowed := and_iff_right outside
    refine Access.congr ?_ only.symm
    refine ⟨fun both => (if_neg outside).trans (backed.read both), ?_, ?_, ?_, ?_, ?_, ?_⟩
    · intro refused
      obtain ⟨e, raised, isOut⟩ := backed.readRefused refused
      exact ⟨e, (if_neg outside).trans raised, isOut⟩
    · rintro src rfl allows
      obtain ⟨buffer, written, bytes⟩ := backed.write rfl allows
      exact ⟨{ b with backedBuffer := buffer }, (if_neg outside).trans (congrArg (Except.map _) written), bytes⟩
    · rintro src rfl refused
      obtain ⟨e, raised, isOut⟩ := backed.writeRefused rfl refused
      exact ⟨e, (if_neg outside).trans (congrArg (Except.map _) raised), isOut⟩
    · intro σ read srcOffset block s s' allows executed
      obtain ⟨buffer, copied, bytes⟩ := backed.copy allows executed
      refine ⟨{ b with backedBuffer := buffer }, ?_, bytes⟩
      show (ite _ _ _ : EStateM Exception σ (ShiftedBuffer β)) s = _
      rw [if_neg outside]
      exact ok_bind copied
    · intro σ read srcOffset e s s' allows raised
      show (ite _ _ _ : EStateM Exception σ (ShiftedBuffer β)) s = _
      rw [if_neg outside]
      exact error_bind (backed.copyFailed allows raised)
    · intro σ read srcOffset s refused
      obtain ⟨e, raised, isOut⟩ := backed.copyRefused read srcOffset s refused
      refine ⟨e, ?_, isOut⟩
      show (ite _ _ _ : EStateM Exception σ (ShiftedBuffer β)) s = _
      rw [if_neg outside]
      exact error_bind raised

/-- A shifted buffer over one that checks as a fixed buffer does. -/
theorem bounded_iff {fixed : β → FixedBuffer} {backed : β}
    (access : ∀ offset length, Access (fun b => (fixed b).data) backed offset length
      (¬ (fixed backed).OutOfBounds offset length) offset)
    (same : RandomAccess.capacity backed = (fixed backed).capacity) (small : (fixed backed).capacity < 2 ^ 32)
    (shift offset length : UInt32) :
    Bounded (fun b => (fixed b.backedBuffer).data) shift.toNat (create backed shift.toNat) offset.toNat length.toNat ↔
      ¬ Wraps (fixed backed).capacity shift.toNat offset.toNat length.toNat := by
  obtain ⟨b, named⟩ : ∃ b, b = create backed shift.toNat := ⟨_, rfl⟩
  have backing : b.backedBuffer = backed := by rw [named, create]
  have shifts : b.shift offset.toNat = (offset.toNat + 2 ^ 32 - shift.toNat) % 2 ^ 32 := by rw [named, create, ShiftedBuffer.shift]
  have checks : b.OutOfBounds offset.toNat length.toNat ↔
      offset.toNat < shift.toNat ∨ (fixed backed).capacity < (b.shift offset.toNat + length.toNat) % 2 ^ 32 := by
    rw [OutOfBounds, named, create, same]
  have bound := offset.toNat_lt
  have bound' := shift.toNat_lt
  have bound'' := length.toNat_lt
  rw [← named]
  rw [← backing] at access small checks ⊢
  have both := ShiftedBuffer.access b (access (b.shift offset.toNat) length.toNat)
  have place : ¬ b.OutOfBounds offset.toNat length.toNat ∧
      ¬ (fixed b.backedBuffer).OutOfBounds (b.shift offset.toNat) length.toNat →
      b.shift offset.toNat = offset.toNat - shift.toNat := by
    rintro ⟨allowed, -⟩
    rw [checks] at allowed
    omega
  refine (both.moved place).bounded_iff ?_ small
  show _ ↔ Within (fixed b.backedBuffer).capacity _ _ _ ∨ Wraps (fixed b.backedBuffer).capacity _ _ _
  unfold FixedBuffer.OutOfBounds Within Wraps
  rw [checks, shifts]
  omega

end ShiftedBuffer

/-- The accesses concern exactly the ranges in the buffer, unless the range wraps. -/
theorem bounds_iff (shift offset length : UInt32) :
    (∀ b : FixedBuffer, b.capacity < 2 ^ 32 →
      (Bounded FixedBuffer.data 0 b offset.toNat length.toNat ↔ ¬ Wraps b.capacity 0 offset.toNat length.toNat)) ∧
    (∀ b : FixedBuffer, b.capacity < 2 ^ 32 →
      (Bounded (fun b => b.backedBuffer.data) shift.toNat (ShiftedBuffer.create b shift.toNat) offset.toNat length.toNat ↔
        ¬ Wraps b.capacity shift.toNat offset.toNat length.toNat)) ∧
    ∀ b : LinearBuffer, b.capacity < 2 ^ 32 →
      (Bounded (fun b => b.backedBuffer.fixedBuffer.data) shift.toNat (ShiftedBuffer.create b shift.toNat) offset.toNat
        length.toNat ↔ ¬ Wraps b.capacity shift.toNat offset.toNat length.toNat) := by
  refine ⟨fun b small => ?_, fun b small => ?_, fun b small => ?_⟩
  · exact (b.access offset.toNat length.toNat).bounded_iff (FixedBuffer.allows_iff small offset length) small
  · exact ShiftedBuffer.bounded_iff b.access rfl small shift offset length
  · exact @ShiftedBuffer.bounded_iff _ _ LinearBuffer.fixedBuffer b b.access rfl small shift offset length

/-- A range in the middle of a buffer. -/
theorem bounds_middle : Bounded FixedBuffer.data 0 (FixedBuffer.create 16) 4 8 ∧
    Bounded (fun b => b.backedBuffer.fixedBuffer.data) 0x5600 (ShiftedBuffer.create (LinearBuffer.create 16) 0x5600) 0x5604 8 := by
  obtain ⟨fixed, -, -⟩ := bounds_iff 0 4 8
  obtain ⟨-, -, linear⟩ := bounds_iff 0x5600 0x5604 8
  exact ⟨(fixed (FixedBuffer.create 16) (by decide)).mpr (by decide),
    (linear (LinearBuffer.create 16) (by decide)).mpr (by decide)⟩

/-- A range of 32 bytes that ends 16 bytes past the end of the address space. -/
theorem bounds_passed : ¬ Bounded FixedBuffer.data 0 (FixedBuffer.create 16) 0xfffffff0 0x20 := by
  intro bounded
  obtain ⟨e, refused, -⟩ := Access.readRefused bounded (by decide)
  exact absurd refused nofun

end Oac
