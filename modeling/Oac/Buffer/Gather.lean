import Oac.Buffer.Scatter

/-!
# What a socket is given to write

`asio_const_buffers` bounds the bytes that it offers by the number of the free ones
instead of the stored ones. What a socket has written is taken off the content all the
same, but what it is given is the whole content only while at least as much is free.
-/
namespace Oac.RingBuffer
open Base

/-- The bytes in the pieces that a socket is given to write. -/
def gathered (s : RingBuffer) : List UInt8 := gather s.fixedBuffer.data s.asioConstBuffers

/-- What the gather list of a ring buffer has to be. -/
structure GatherFits (s : RingBuffer) : Prop where
  whole : s.gathered = s.content
  completes : ∀ n ≤ s.availableForRead, (s.asyncReadSomeTo n).content = s.content.drop n ∧
    (s.asyncReadSomeTo n).fixedBuffer = s.fixedBuffer ∧ (s.asyncReadSomeTo n).writeIndex = s.writeIndex ∧
    (s.asyncReadSomeTo n).mark = s.mark

/-- A socket is given the first bytes of the content, as many as there are free ones. -/
theorem Placed.gathered {s : RingBuffer} (placed : s.Placed) : s.gathered = s.content.take s.availableForWrite := by
  have sum := placed.layout.writeIndex_cases
  have readBound := placed.layout.readBound
  have writeBound := placed.layout.writeBound
  have room := placed.layout.room
  have wrapped := placed.wrapped
  unfold Wrapped at wrapped
  have free : s.availableForWrite = s.capacity - s.bytesWritten - s.distFromMark := rfl
  have size : s.fixedBuffer.data.length = s.capacity := rfl
  have taken : s.content.take s.availableForWrite =
      window s.fixedBuffer.data s.readIndex (min s.availableForWrite s.bytesWritten) := by
    rw [content, window, window, List.take_take]
  rw [taken]
  by_cases broken : s.isBroken
  · have order : s.writeIndex < s.readIndex := broken
    simp only [RingBuffer.gathered, asioConstBuffers, if_pos broken, gather, List.flatMap_cons, List.flatMap_nil,
      List.append_nil, List.drop_zero]
    by_cases one : s.availableForWrite ≤ s.capacity - s.readIndex
    · have first : min s.availableForWrite (s.capacity - s.readIndex) = s.availableForWrite := by omega
      have count : min s.availableForWrite s.bytesWritten = s.availableForWrite := by omega
      rw [first, count, Nat.sub_self, Nat.zero_min, List.take_zero, List.append_nil, window_piece (by omega)]
    · -- the content goes on at the beginning of the memory
      have first : min s.availableForWrite (s.capacity - s.readIndex) = s.capacity - s.readIndex := by omega
      have count : min s.availableForWrite s.bytesWritten = s.fixedBuffer.data.length - s.readIndex +
          min (s.availableForWrite - (s.capacity - s.readIndex)) s.writeIndex := by omega
      rw [first, count, window_pieces (by omega) (by omega), List.take_of_length_le (by rw [List.length_drop, size])]
  · have order : s.readIndex ≤ s.writeIndex := not_lt.mp broken
    have count : min s.availableForWrite (s.writeIndex - s.readIndex) = min s.availableForWrite s.bytesWritten := by omega
    simp only [RingBuffer.gathered, asioConstBuffers, if_neg broken, gather, List.flatMap_cons, List.flatMap_nil,
      List.append_nil, count]
    rw [window_piece (by omega)]

theorem Placed.completes {s : RingBuffer} {n : Nat} (placed : s.Placed) (fewer : n ≤ s.bytesWritten) :
    (s.asyncReadSomeTo n).content = s.content.drop n ∧ (s.asyncReadSomeTo n).fixedBuffer = s.fixedBuffer ∧
      (s.asyncReadSomeTo n).writeIndex = s.writeIndex ∧ (s.asyncReadSomeTo n).mark = s.mark := by
  have advanced := asyncReadSomeTo_advanced placed.layout.positive fewer
  exact ⟨advanced.content placed.layout, advanced.memory, advanced.behind, advanced.markKept⟩

theorem Placed.gatherFits_iff {s : RingBuffer} (placed : s.Placed) :
    s.GatherFits ↔ s.availableForRead ≤ s.availableForWrite := by
  have size := content_length placed.layout
  constructor
  · intro fits
    have whole := congrArg List.length (placed.gathered.symm.trans fits.whole)
    rw [List.length_take, size] at whole
    exact min_eq_right_iff.mp whole
  · intro few
    refine ⟨?_, fun n fewer => placed.completes fewer⟩
    rw [placed.gathered]
    exact List.take_of_length_le (size.trans_le few)

/-- In every run of safe operations a socket is given the whole content if and only if at
    least as many bytes are free as are stored. -/
theorem gather_fits_iff (capacity : Nat) (positive : 0 < capacity) (s : RingBuffer)
    (run : Run (Meeting Performs Safe) (create capacity) s) :
    s.GatherFits ↔ s.availableForRead ≤ s.availableForWrite := by
  have placed : s.Placed := run.invariant (create_placed positive) fun before last => before.performs last.1 last.2
  exact placed.gatherFits_iff

/-- A byte in a buffer with room for two. -/
theorem half_run : Run (Meeting Performs Safe) (create 2) ⟨⟨[7, 0]⟩, 0, 1, 1, none, 0⟩ := by
  have written : transfer (.write [7]) (create 2) = .ok (.stored 1) ⟨⟨[7, 0]⟩, 0, 1, 1, none, 0⟩ := by
    apply transfer_write
    simp [write, create, FixedBuffer.create, availableForWrite, capacity, FixedBuffer.capacity, isBroken,
      FixedBuffer.write, FixedBuffer.OutOfBounds, overwrite, List.replicate]
  exact (Run.refl _).next (e := .call (.transfer _)) ⟨⟨_, written⟩, id⟩

theorem gather_fits_half : (⟨⟨[7, 0]⟩, 0, 1, 1, none, 0⟩ : RingBuffer).GatherFits :=
  (gather_fits_iff 2 Nat.two_pos _ half_run).mpr (by decide)

/-- A full buffer offers nothing. -/
theorem full_not_gathered : ¬ ∀ s, Run Performs (create 1) s → s.GatherFits := by
  intro fits
  have full := fits ⟨⟨[7]⟩, 0, 0, 1, none, 0⟩ ((Run.refl _).next (e := .call (.transfer _)) ⟨_, write_one⟩)
  exact absurd full.whole (by decide)

end Oac.RingBuffer
