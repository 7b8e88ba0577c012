import Oac.Buffer.Fixed
import Oac.Stream

/-!
# Linear buffers

A stream buffer that is written once from its beginning to its end.
-/
namespace Oac
open Base

structure LinearBuffer where
  fixedBuffer : FixedBuffer
  readIndex : Nat
  writeIndex : Nat
  deriving DecidableEq

namespace LinearBuffer

def create (capacity : Nat) : LinearBuffer := ⟨.create capacity, 0, 0⟩

def capacity (b : LinearBuffer) : Nat := b.fixedBuffer.capacity

def read (count : Nat) : EStateM Exception LinearBuffer (List UInt8) := fun b =>
  let remain := b.writeIndex - b.readIndex
  let nread := if count < remain then count else remain
  match b.fixedBuffer.read b.readIndex nread with
  | .ok block => .ok block { b with readIndex := b.readIndex + nread }
  | .error e => .error e b

instance : InputStream LinearBuffer where
  read := read

def write (src : List UInt8) : EStateM Exception LinearBuffer Nat := fun b =>
  let remain := b.capacity - b.writeIndex
  let nwrite := if src.length < remain then src.length else remain
  match b.fixedBuffer.write (src.take nwrite) b.writeIndex with
  | .ok fixedBuffer => .ok nwrite { b with fixedBuffer, writeIndex := b.writeIndex + nwrite }
  | .error e => .error e b

instance : OutputStream LinearBuffer where
  write := write

/-- The update of the index by `async_read_some_to` when the socket has taken bytes. -/
def asyncReadSomeTo (bytesWritten : Nat) (b : LinearBuffer) : LinearBuffer :=
  { b with readIndex := b.readIndex + bytesWritten }

/-- The bytes that can be read. `asio_const_buffers` offers them to the socket. -/
def content (b : LinearBuffer) : List UInt8 := (b.fixedBuffer.data.take b.writeIndex).drop b.readIndex

/-- The buffer has these bytes for reading. -/
structure Offers (b : LinearBuffer) (held : List UInt8) : Prop where
  ordered : b.readIndex ≤ b.writeIndex
  within : b.writeIndex ≤ b.capacity
  content : b.content = held

/-- A linear buffer serves its content. -/
theorem serves : Stream.Serves Offers := by
  rintro b held count ⟨ordered, within, rfl⟩ positive
  have length : b.content.length = b.writeIndex - b.readIndex := by
    have size : b.capacity = b.fixedBuffer.data.length := rfl
    rw [LinearBuffer.content, List.length_drop, List.length_take]
    omega
  obtain ⟨n, least⟩ : ∃ n, n = min count (b.writeIndex - b.readIndex) := ⟨_, rfl⟩
  have nread : (if count < b.writeIndex - b.readIndex then count else b.writeIndex - b.readIndex) = n := by
    split <;> omega
  have inside : b.readIndex + n ≤ b.fixedBuffer.capacity := by
    show _ ≤ b.capacity
    omega
  have block : (b.fixedBuffer.data.drop b.readIndex).take n = b.content.take n := by
    rw [LinearBuffer.content, List.drop_take, List.take_take, Nat.min_eq_left (by omega)]
  have executed : b.fixedBuffer.read b.readIndex n = .ok (b.content.take n) := by
    rw [FixedBuffer.read, if_neg (FixedBuffer.not_outOfBounds inside), block]
  refine ⟨b.content.take n, b.content.drop n, { b with readIndex := b.readIndex + n }, ?_, ?_, ?_, ?_, ?_⟩
  · show LinearBuffer.read count b = _
    simp only [LinearBuffer.read, nread, executed]
  · exact (List.take_append_drop n b.content).symm
  · rw [List.length_take]
    omega
  · intro none
    rcases List.take_eq_nil_iff.mp none with zero | nil
    · exact List.length_eq_zero_iff.mp (by omega)
    · exact nil
  · refine ⟨show b.readIndex + n ≤ b.writeIndex by omega, within, ?_⟩
    rw [LinearBuffer.content, LinearBuffer.content, List.drop_drop]

/-- Nothing has been read of a buffer with this capacity, and `taken` has been written. -/
structure Wrote (capacity : Nat) (b : LinearBuffer) (taken : List UInt8) : Prop where
  size : b.capacity = capacity
  addressable : capacity < 2 ^ 32
  unread : b.readIndex = 0
  written : b.writeIndex = taken.length
  within : taken.length ≤ capacity
  held : b.fixedBuffer.data.take taken.length = taken

theorem create_wrote {capacity : Nat} (addressable : capacity < 2 ^ 32) : Wrote capacity (create capacity) [] :=
  ⟨FixedBuffer.create_capacity capacity, addressable, rfl, rfl, Nat.zero_le _, by simp⟩

theorem Wrote.content {capacity : Nat} {b : LinearBuffer} {taken : List UInt8} (wrote : Wrote capacity b taken) :
    b.content = taken := by
  rw [LinearBuffer.content, wrote.written, wrote.held, wrote.unread, List.drop_zero]

/-- A linear buffer takes bytes until it is full. -/
theorem takes (capacity : Nat) : Stream.Takes (Wrote capacity) capacity := by
  intro b taken src wrote some
  obtain ⟨size, addressable, unread, written, within, held⟩ := wrote
  have positive : 0 < src.length := List.length_pos_iff.mpr some
  obtain ⟨n, least⟩ : ∃ n, n = min src.length (capacity - taken.length) := ⟨_, rfl⟩
  have count : (if src.length < b.capacity - taken.length then src.length else b.capacity - taken.length) = n := by
    rw [size]
    split <;> omega
  have taking : (src.take n).length = n := by simp; omega
  have room : taken.length + (src.take n).length ≤ b.fixedBuffer.capacity := by
    show _ ≤ b.capacity
    omega
  have executed := FixedBuffer.write_inside room
  refine ⟨n, ⟨⟨overwrite b.fixedBuffer.data taken.length (src.take n)⟩, b.readIndex, b.writeIndex + n⟩,
    ?_, by omega, ?_, ?_, ?_⟩
  · show LinearBuffer.write src b = _
    simp only [LinearBuffer.write, written, count, executed]
  · refine ⟨?_, addressable, unread, ?_, ?_, ?_⟩
    · exact (overwrite_length room).trans size
    · simp only [List.length_append, taking, written]
    · rw [List.length_append, taking]
      omega
    · have filled : taken ++ src.take n = b.fixedBuffer.data.take taken.length ++ src.take n := by rw [held]
      have front : (b.fixedBuffer.data.take taken.length ++ src.take n).length = (taken ++ src.take n).length := by
        rw [held]
      rw [overwrite, ← front, List.take_left', ← filled]
      rfl
  · rw [Nat.cast_lt]
    omega
  · rw [Nat.cast_le]
    omega

end LinearBuffer
end Oac
