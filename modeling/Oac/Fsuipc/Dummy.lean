import Oac.Base.Bytes
import Oac.Fsuipc.Fidelity
import Oac.Fsuipc.Local

/-!
# The dummy adapter as a memory

The dummy adapter stores and loads numbers, the lowest byte first. Its buffer lacks the
byte of the last address, so that it is a memory for the offsets in front of that only
(`byteMemory_iff`).
-/
namespace Oac.Fsuipc
open Base

namespace DummyUserAdapter

/-- The size of `_buffer`. -/
def bufferSize : Nat := 0xffff

/-- A memory after a write, in terms of numbers. -/
def storing (m : Nat → UInt8) (val : ValuedOffset) : Nat → UInt8 :=
  store m val.address.toNat val.length.toNat val.value.toNat

def loading (m : Nat → UInt8) (offset : Offset) : Nat := load m offset.address.toNat offset.length.toNat

theorem write_storing (buffer : Nat → UInt8) (val : ValuedOffset) : writeValueToBuffer buffer val = storing buffer val := by
  obtain ⟨⟨address, length⟩, value⟩ := val
  have none (addr n : Nat) : store buffer addr 0 n = buffer := patch_nil buffer addr
  have shifts : (value >>> 8).toNat = value.toNat / 256 ∧ (value >>> 16).toNat = value.toNat / 256 / 256 ∧
      (value >>> 24).toNat = value.toNat / 256 / 256 / 256 := by
    simp [Nat.shiftRight_eq_div_pow, Nat.div_div_eq_div_mul]
  obtain ⟨second, third, fourth⟩ := shifts
  cases length with
  | byte => simp only [storing, OffsetLength.toNat, store_succ, none, writeValueToBuffer]
  | word => simp only [storing, OffsetLength.toNat, store_succ, none, writeValueToBuffer, second]
  | dword => simp only [storing, OffsetLength.toNat, store_succ, none, writeValueToBuffer, second, third, fourth]

theorem read_loading (buffer : Nat → UInt8) (offset : Offset) :
    readValueFromBuffer buffer offset = .ofNat (loading buffer offset) := by
  obtain ⟨address, length⟩ := offset
  have none (addr : Nat) : load buffer addr 0 = 0 := rfl
  have bound (addr : Nat) : (buffer addr).toNat < 256 := (buffer addr).toNat_lt
  have first := bound address.toNat
  have second := bound (address.toNat + 1)
  have third := bound (address.toNat + 2)
  have fourth := bound (address.toNat + 3)
  apply UInt32.toNat_inj.mp
  cases length with
  | byte =>
    simp only [loading, OffsetLength.toNat, load_succ, none, readValueFromBuffer]
    simp
  | word =>
    simp only [loading, OffsetLength.toNat, load_succ, none, readValueFromBuffer]
    simp [Nat.shiftLeft_eq]
    omega
  | dword =>
    simp only [loading, OffsetLength.toNat, load_succ, none, readValueFromBuffer, Nat.add_assoc, Nat.reduceAdd]
    simp [Nat.shiftLeft_eq]
    omega

/-- A byte that a read of the offset depends on, or that a write to it changes. -/
def Accesses (offset : Offset) (addr : Nat) : Prop :=
  (∃ buffer byte, readValueFromBuffer (Function.update buffer addr byte) offset ≠ readValueFromBuffer buffer offset) ∨
    ∃ buffer value, writeValueToBuffer buffer ⟨offset, value⟩ addr ≠ buffer addr

theorem bytesOf_ones : ∀ width ≤ 4, bytesOf width 0xffffffff = List.replicate width 0xff := by decide

theorem accesses_iff (offset : Offset) (addr : Nat) : Accesses offset addr ↔ offset.Covers addr := by
  constructor
  · rintro (⟨buffer, byte, differs⟩ | ⟨buffer, value, differs⟩)
    · by_contra outside
      apply differs
      have same : region (Function.update buffer addr byte) offset.address.toNat offset.length.toNat =
          region buffer offset.address.toNat offset.length.toNat := by
        apply region_congr
        intro a after before
        rw [Function.update_of_ne]
        rintro rfl
        exact outside ⟨after, before⟩
      rw [read_loading, read_loading, loading, loading, load, load, same]
    · by_contra outside
      exact differs (write_other outside)
  · rintro ⟨after, before⟩
    right
    obtain ⟨i, rfl⟩ := Nat.exists_eq_add_of_le after
    have short : offset.length.toNat ≤ 4 := by
      cases offset.length <;> decide
    have within : i < (bytesOf offset.length.toNat 0xffffffff).length := by
      rw [bytesOf_length]
      omega
    have written : writeValueToBuffer (fun _ => 0) ⟨offset, 0xffffffff⟩ (offset.address.toNat + i) = 0xff := by
      rw [write_storing]
      refine (patch_inside (fun _ => 0) offset.address.toNat i within).trans ?_
      simp only [bytesOf_ones _ short, List.getElem_replicate]
    refine ⟨fun _ => 0, 0xffffffff, ?_⟩
    rw [written]
    exact (by decide : (0xff : UInt8) ≠ 0)

/-- Nothing is pending for bytes that the buffer does not have. -/
structure Inside (a : DummyUserAdapter) : Prop where
  writes : ∀ val ∈ a.writeRequests, val.address.toNat + val.length.toNat ≤ bufferSize
  reads : ∀ req ∈ a.readRequests, req.1.address.toNat + req.1.length.toNat ≤ bufferSize

/-- For this offset the adapter is a memory of bytes. -/
structure ByteMemory (offset : Offset) : Prop where
  written : ∀ (a : DummyUserAdapter) (value : UInt32), a.Inside → ∃ stores a',
    Request.commit [.write ⟨offset, value⟩] a = .ok stores a' ∧
      a'.buffer = storing (a.writeRequests.foldl storing a.buffer) ⟨offset, value⟩ ∧
      (∀ addr, ¬ offset.Covers addr → a'.buffer addr = a.writeRequests.foldl storing a.buffer addr) ∧
      stores = a.readRequests.map (fun req => (req.2, .ofNat (loading a'.buffer req.1))) ∧
      ∀ pointer, ∃ a'', Request.commit [.read offset pointer] a' =
        .ok [(pointer, .ofNat (value.toNat % 2 ^ (8 * offset.length.toNat)))] a'' ∧ a''.buffer = a'.buffer
  accessed : ∀ addr, Accesses offset addr → addr < bufferSize

/-- All that an offset needs of the buffer is that it has its bytes. -/
theorem byteMemory_iff (offset : Offset) :
    ByteMemory offset ↔ offset.address.toNat + offset.length.toNat ≤ bufferSize := by
  have positive : 0 < offset.length.toNat := by
    cases offset.length <;> decide
  constructor
  · intro memory
    have last := memory.accessed (offset.address.toNat + (offset.length.toNat - 1))
      ((accesses_iff _ _).mpr ⟨Nat.le_add_right _ _, by omega⟩)
    omega
  · intro inside
    constructor
    · intro a value _
      obtain ⟨m, named⟩ : ∃ m, m = storing (a.writeRequests.foldl storing a.buffer) ⟨offset, value⟩ := ⟨_, rfl⟩
      have stored : writeValueToBuffer = storing := funext fun buffer => funext fun val => write_storing buffer val
      have memory : (a.writeRequests ++ [(⟨offset, value⟩ : ValuedOffset)]).foldl writeValueToBuffer a.buffer = m := by
        rw [stored, List.foldl_append, named]
        rfl
      have executed : Request.commit [.write ⟨offset, value⟩] a =
          .ok (a.readRequests.map fun req => (req.2, readValueFromBuffer m req.1)) ⟨m, [], []⟩ := by
        rw [← memory]
        rfl
      have back : readValueFromBuffer m offset = .ofNat (value.toNat % 2 ^ (8 * offset.length.toNat)) := by
        rw [read_loading, named, pow_mul]
        exact congrArg UInt32.ofNat (load_store _ _ _ _)
      refine ⟨_, _, executed, named, fun addr outside => ?_, ?_, ?_⟩
      · have beside : addr < offset.address.toNat ∨ offset.address.toNat + offset.length.toNat ≤ addr := by
          unfold Offset.Covers at outside
          omega
        rw [named]
        exact store_outside beside
      · exact List.map_congr_left fun req _ => congrArg (Prod.mk req.2) (read_loading m req.1)
      · intro pointer
        rw [← back]
        exact ⟨⟨m, [], []⟩, rfl, rfl⟩
    · intro addr accesses
      obtain ⟨-, before⟩ := (accesses_iff offset addr).mp accesses
      omega

/-- The byte of the last address. -/
theorem last_byte_outside : toFsuipcOffset (variableId (text "fsuipc/offset") (text "0xffff")) = .ok ⟨0xffff, .byte⟩ ∧
    ¬ ByteMemory ⟨0xffff, .byte⟩ := by
  refine ⟨by decide, ?_⟩
  intro memory
  exact absurd (memory.accessed 0xffff ((accesses_iff _ _).mpr ⟨by decide, by decide⟩)) (by decide)

end DummyUserAdapter
end Oac.Fsuipc
