import Oac.Buffer.Fixed
import Oac.Stream

/-!
# Ring buffers

A stream buffer whose content goes round in a block of memory. A mark remembers a
position to come back to; the bytes read since then stay reserved. `read` fails exactly
when it `Straddles` the end of the memory: only a full buffer does.
-/
namespace Oac
open Base

structure RingBuffer where
  fixedBuffer : FixedBuffer
  readIndex : Nat
  writeIndex : Nat
  bytesWritten : Nat
  mark : Option Nat
  distFromMark : Nat
  deriving DecidableEq

namespace RingBuffer

def create (capacity : Nat) : RingBuffer := ⟨.create capacity, 0, 0, 0, none, 0⟩

def capacity (s : RingBuffer) : Nat := s.fixedBuffer.capacity
def availableForRead (s : RingBuffer) : Nat := s.bytesWritten
def availableForWrite (s : RingBuffer) : Nat := s.capacity - s.bytesWritten - s.distFromMark
def isBroken (s : RingBuffer) : Prop := s.writeIndex < s.readIndex
instance (s : RingBuffer) : Decidable s.isBroken := inferInstanceAs (Decidable (_ < _))

def incDistFromMark (amount : Nat) (s : RingBuffer) : RingBuffer :=
  if s.mark.isSome then { s with distFromMark := s.distFromMark + amount } else s

def read (s : RingBuffer) (count : Nat) : EStateM.Result Exception RingBuffer (List UInt8) :=
  let count := min count s.availableForRead
  if _ : s.isBroken then
    let rem := s.capacity - s.readIndex
    let finalCount := min count rem
    match s.fixedBuffer.read s.readIndex finalCount with
    | .error e => .error e s
    | .ok block =>
      let s' := incDistFromMark finalCount { s with bytesWritten := s.bytesWritten - finalCount }
      if count < rem then .ok block { s' with readIndex := s'.readIndex + count }
      else
        match read { s' with readIndex := 0 } (count - rem) with
        | .error e s'' => .error e s''
        | .ok rest s'' => .ok (block ++ rest) s''
  else
    match s.fixedBuffer.read s.readIndex count with
    | .error e => .error e s
    | .ok block =>
      .ok block (incDistFromMark count
        { s with readIndex := s.readIndex + count, bytesWritten := s.bytesWritten - count })
termination_by s.readIndex
decreasing_by exact Nat.zero_lt_of_lt ‹s.isBroken›

instance : InputStream RingBuffer where
  read count := fun s => s.read count

/-- The source's recursion has no end in a buffer without memory. -/
def write (s : RingBuffer) (src : List UInt8) : EStateM.Result Exception RingBuffer Nat :=
  let count := min src.length s.availableForWrite
  if s.isBroken then
    match s.fixedBuffer.write (src.take count) s.writeIndex with
    | .error e => .error e s
    | .ok fixedBuffer =>
      .ok count { s with fixedBuffer, writeIndex := s.writeIndex + count, bytesWritten := s.bytesWritten + count }
  else if _ : s.capacity = 0 then .ok 0 s
  else
    let rem := s.capacity - s.writeIndex
    let finalCount := min count rem
    match s.fixedBuffer.write (src.take finalCount) s.writeIndex with
    | .error e => .error e s
    | .ok fixedBuffer =>
      let s' := { s with fixedBuffer, bytesWritten := s.bytesWritten + finalCount }
      if _ : count < rem then .ok count { s' with writeIndex := s'.writeIndex + count }
      else
        match write { s' with writeIndex := 0 } ((src.drop rem).take (count - rem)) with
        | .error e s'' => .error e s''
        | .ok n s'' => .ok (rem + n) s''
termination_by (s.writeIndex, src.length)
decreasing_by
  simp_wf
  simp only [Prod.lex_def]
  simp
  omega

instance : OutputStream RingBuffer where
  write src := fun s => s.write src

def setMark (s : RingBuffer) : RingBuffer := { s with mark := some s.readIndex }
def unsetMark (s : RingBuffer) : RingBuffer := { s with mark := none, distFromMark := 0 }
def reset (s : RingBuffer) : RingBuffer :=
  match s.mark with
  | some m => { s with bytesWritten := s.bytesWritten + s.distFromMark, distFromMark := 0, readIndex := m }
  | none => s

/-- `asio_mutable_buffers`: offset and length of each piece of free memory. -/
def asioMutableBuffers (s : RingBuffer) : List (Nat × Nat) :=
  let nbytes := s.availableForWrite
  if s.isBroken then [(s.writeIndex, min nbytes (s.readIndex - s.writeIndex))]
  else
    let chunkLen := min nbytes (s.capacity - s.writeIndex)
    [(s.writeIndex, chunkLen), (0, min (nbytes - chunkLen) s.readIndex)]

/-- `asio_const_buffers`: the source bounds them by what is free, not by what is stored. -/
def asioConstBuffers (s : RingBuffer) : List (Nat × Nat) :=
  let nbytes := s.availableForWrite
  if s.isBroken then
    let chunkLen := min nbytes (s.capacity - s.readIndex)
    [(s.readIndex, chunkLen), (0, min (nbytes - chunkLen) s.writeIndex)]
  else [(s.readIndex, min nbytes (s.writeIndex - s.readIndex))]

/-- The completion of `async_write_some_from`: the bytes read lie in the free memory. -/
def asyncWriteSomeFrom (s : RingBuffer) (block : List UInt8) : RingBuffer :=
  { s with
    fixedBuffer := ⟨scatter s.fixedBuffer.data s.asioMutableBuffers block⟩
    writeIndex := (s.writeIndex + block.length) % s.capacity
    bytesWritten := s.bytesWritten + block.length }

/-- The completion of `async_read_some_to`. -/
def asyncReadSomeTo (s : RingBuffer) (bytesRead : Nat) : RingBuffer :=
  let s' := incDistFromMark bytesRead { s with readIndex := (s.readIndex + bytesRead) % s.capacity }
  { s' with bytesWritten := s'.bytesWritten - bytesRead }

/-! ## Content -/

/-- The bytes that can be read. -/
def content (s : RingBuffer) : List UInt8 := window s.fixedBuffer.data s.readIndex s.bytesWritten

/-- What holds of the indexes. The read index may stay at the end of the memory. -/
structure Ok (s : RingBuffer) : Prop where
  positive : 0 < s.capacity
  addressable : s.capacity < 2 ^ 31
  readBound : s.readIndex ≤ s.capacity
  writeBound : s.writeIndex < s.capacity
  room : s.bytesWritten + s.distFromMark ≤ s.capacity
  aligned : s.writeIndex = (s.readIndex + s.bytesWritten) % s.capacity
  unmarked : s.mark = none → s.distFromMark = 0
  marked : ∀ m, s.mark = some m → m ≤ s.capacity ∧ s.readIndex % s.capacity = (m + s.distFromMark) % s.capacity

/-- What holds of the memory alone, whatever the mark is. -/
structure Layout (s : RingBuffer) : Prop where
  positive : 0 < s.capacity
  readBound : s.readIndex ≤ s.capacity
  writeBound : s.writeIndex ≤ s.capacity
  room : s.bytesWritten + s.distFromMark ≤ s.capacity
  aligned : s.writeIndex % s.capacity = (s.readIndex + s.bytesWritten) % s.capacity

theorem Ok.layout {s : RingBuffer} (ok : s.Ok) : s.Layout := by
  obtain ⟨positive, -, readBound, writeBound, room, aligned, -, -⟩ := ok
  exact ⟨positive, readBound, writeBound.le, room, by rw [aligned, Nat.mod_mod]⟩

/-- The mark is where the reserved bytes begin. -/
structure Anchored (s : RingBuffer) : Prop where
  layout : s.Layout
  unmarked : s.mark = none → s.distFromMark = 0
  marked : ∀ m, s.mark = some m → m ≤ s.capacity ∧ s.readIndex % s.capacity = (m + s.distFromMark) % s.capacity

theorem Ok.anchored {s : RingBuffer} (ok : s.Ok) : s.Anchored := ⟨ok.layout, ok.unmarked, ok.marked⟩

theorem Anchored.ok {s : RingBuffer} (anchored : s.Anchored) (addressable : s.capacity < 2 ^ 31)
    (writeBound : s.writeIndex < s.capacity) : s.Ok := by
  obtain ⟨⟨positive, readBound, -, room, aligned⟩, unmarked, marked⟩ := anchored
  exact ⟨positive, addressable, readBound, writeBound, room, (Nat.mod_eq_of_lt writeBound).symm.trans aligned,
    unmarked, marked⟩

@[simp] theorem create_capacity (capacity : Nat) : (create capacity).capacity = capacity :=
  FixedBuffer.create_capacity capacity

theorem create_layout {capacity : Nat} (positive : 0 < capacity) : (create capacity).Layout := by
  have size := create_capacity capacity
  refine ⟨?_, Nat.zero_le _, Nat.zero_le _, Nat.zero_le _, rfl⟩
  rw [size]
  exact positive

theorem create_anchored {capacity : Nat} (positive : 0 < capacity) : (create capacity).Anchored :=
  ⟨create_layout positive, fun _ => rfl, nofun⟩

theorem create_ok {capacity : Nat} (positive : 0 < capacity) (addressable : capacity < 2 ^ 31) :
    (create capacity).Ok := by
  apply (create_anchored positive).ok
  · rw [create_capacity]
    exact addressable
  · rw [create_capacity]
    exact positive

@[simp] theorem create_content (capacity : Nat) : (create capacity).content = [] := window_zero _ _

@[simp] theorem create_availableForWrite (capacity : Nat) : (create capacity).availableForWrite = capacity := by
  rw [availableForWrite, create_capacity]
  rfl

theorem content_length {s : RingBuffer} (layout : s.Layout) : s.content.length = s.bytesWritten :=
  window_length (by have := layout.room; show _ ≤ s.capacity; omega)

/-- Where the write index is, free of the modulus. -/
theorem Layout.writeIndex_cases {s : RingBuffer} (layout : s.Layout) :
    s.writeIndex = s.readIndex + s.bytesWritten ∨ s.writeIndex + s.capacity = s.readIndex + s.bytesWritten ∨
      (s.writeIndex = 0 ∧ s.readIndex = s.capacity ∧ s.bytesWritten = s.capacity) ∨
      (s.writeIndex = s.capacity ∧ s.readIndex = 0 ∧ s.bytesWritten = 0) := by
  obtain ⟨positive, readBound, writeBound, room, aligned⟩ := layout
  obtain ⟨sum, named⟩ : ∃ sum, sum = s.readIndex + s.bytesWritten := ⟨_, rfl⟩
  rw [← named] at aligned ⊢
  have quotient := Nat.div_add_mod sum s.capacity
  have quotient' := Nat.div_add_mod s.writeIndex s.capacity
  have few : sum / s.capacity ≤ 2 := Nat.div_le_of_le_mul (by omega)
  have few' : s.writeIndex / s.capacity ≤ 1 := Nat.div_le_of_le_mul (by omega)
  interval_cases sum / s.capacity <;> interval_cases s.writeIndex / s.capacity <;> omega

/-- Where the write index is, free of the modulus. -/
theorem Ok.writeIndex_cases {s : RingBuffer} (ok : s.Ok) :
    s.writeIndex = s.readIndex + s.bytesWritten ∨ s.writeIndex + s.capacity = s.readIndex + s.bytesWritten ∨
      (s.writeIndex = 0 ∧ s.readIndex = s.capacity ∧ s.bytesWritten = s.capacity) := by
  have writeBound := ok.writeBound
  rcases ok.layout.writeIndex_cases with h | h | h | h <;> omega

/-! ## Reading -/

/-- `s'` is `s` with the first `n` bytes of its content read. -/
structure Advanced (s : RingBuffer) (n : Nat) (s' : RingBuffer) : Prop where
  fewer : n ≤ s.bytesWritten
  memory : s'.fixedBuffer = s.fixedBuffer
  behind : s'.writeIndex = s.writeIndex
  left : s'.bytesWritten + n = s.bytesWritten
  markKept : s'.mark = s.mark
  distance : s'.distFromMark = if s.mark.isSome then s.distFromMark + n else s.distFromMark
  readBound : s'.readIndex ≤ s.capacity
  moved : s'.readIndex % s.capacity = (s.readIndex + n) % s.capacity

theorem incDistFromMark_fields (n : Nat) (s : RingBuffer) :
    (incDistFromMark n s).fixedBuffer = s.fixedBuffer ∧ (incDistFromMark n s).readIndex = s.readIndex ∧
      (incDistFromMark n s).writeIndex = s.writeIndex ∧ (incDistFromMark n s).bytesWritten = s.bytesWritten ∧
      (incDistFromMark n s).mark = s.mark ∧
      (incDistFromMark n s).distFromMark = if s.mark.isSome then s.distFromMark + n else s.distFromMark := by
  unfold incDistFromMark
  split <;> simp [*]

theorem Advanced.content {s s' : RingBuffer} {n : Nat} (advanced : Advanced s n s') (layout : s.Layout) :
    s'.content = s.content.drop n := by
  obtain ⟨fewer, memory, -, left, -, -, -, moved⟩ := advanced
  have within : s.bytesWritten ≤ s.fixedBuffer.data.length := by have := layout.room; show _ ≤ s.capacity; omega
  have moved : s'.readIndex % s.fixedBuffer.data.length = (s.readIndex + n) % s.fixedBuffer.data.length := moved
  rw [RingBuffer.content, RingBuffer.content, window_drop fewer within, memory, ← window_mod, moved, window_mod]
  congr 1
  omega

theorem Advanced.capacity {s s' : RingBuffer} {n : Nat} (advanced : Advanced s n s') : s'.capacity = s.capacity := by
  rw [RingBuffer.capacity, advanced.memory]
  rfl

theorem Advanced.layout {s s' : RingBuffer} {n : Nat} (advanced : Advanced s n s') (layout : s.Layout) : s'.Layout := by
  obtain ⟨positive, -, writeBound, room, aligned⟩ := layout
  have size := advanced.capacity
  obtain ⟨fewer, -, behind, left, -, distance, readBound, moved⟩ := advanced
  refine ⟨size ▸ positive, size ▸ readBound, by rw [behind, size]; exact writeBound, ?_, ?_⟩
  · rw [distance, size]
    split <;> omega
  · rw [behind, size, aligned, ← left, Nat.add_mod s'.readIndex, moved, ← Nat.add_mod]
    congr 1
    omega

theorem Advanced.anchored {s s' : RingBuffer} {n : Nat} (advanced : Advanced s n s') (anchored : s.Anchored) : s'.Anchored := by
  obtain ⟨layout, unmarked, marked⟩ := anchored
  have size := advanced.capacity
  refine ⟨advanced.layout layout, ?_, ?_⟩
  · intro none
    rw [advanced.markKept] at none
    simp [advanced.distance, none, unmarked none]
  · intro m some
    rw [advanced.markKept] at some
    obtain ⟨bound, same⟩ := marked m some
    rw [size, advanced.distance, some]
    refine ⟨bound, ?_⟩
    rw [advanced.moved, Nat.add_mod, same, ← Nat.add_mod, Nat.add_assoc]
    rfl

theorem Advanced.ok {s s' : RingBuffer} {n : Nat} (advanced : Advanced s n s') (ok : s.Ok) : s'.Ok := by
  apply (advanced.anchored ok.anchored).ok
  · rw [advanced.capacity]
    exact ok.addressable
  · rw [advanced.behind, advanced.capacity]
    exact ok.writeBound

/-- The bytes read since the mark stay with it. -/
theorem Advanced.reset {s s' : RingBuffer} {n m : Nat} (advanced : Advanced s n s') (marked : s.mark = some m) :
    s'.reset = s.reset := by
  obtain ⟨fewer, memory, behind, left, markKept, distance, -, -⟩ := advanced
  rw [marked] at markKept distance
  cases s' with
  | mk fixedBuffer readIndex writeIndex bytesWritten mark distFromMark =>
    simp only at memory behind left markKept distance
    simp only [RingBuffer.reset, marked, markKept, memory, behind, distance, Option.isSome_some, ↓reduceIte]
    congr 1
    omega

/-- The read runs over the end of the memory although the content is not broken there. -/
def Straddles (s : RingBuffer) (count : Nat) : Prop :=
  ¬ s.isBroken ∧ s.capacity < s.readIndex + min count s.bytesWritten
instance (s : RingBuffer) (count : Nat) : Decidable (s.Straddles count) := inferInstanceAs (Decidable (_ ∧ _))

theorem read_whole {s : RingBuffer} {count : Nat} (whole : ¬ s.isBroken)
    (inside : s.readIndex + min count s.bytesWritten ≤ s.capacity) :
    ∃ s', s.read count = .ok (s.content.take count) s' ∧ Advanced s (min count s.bytesWritten) s' := by
  have executed := FixedBuffer.read_inside inside
  have block : s.content.take count = window s.fixedBuffer.data s.readIndex (min count s.bytesWritten) := by
    rw [content, window, window, List.take_take]
  obtain ⟨memory, index, behind, left, marking, distance⟩ := incDistFromMark_fields (min count s.bytesWritten)
    { s with
      readIndex := s.readIndex + min count s.bytesWritten
      bytesWritten := s.bytesWritten - min count s.bytesWritten }
  refine ⟨_, ?_, Nat.min_le_right _ _, memory, behind, ?_, marking, distance, ?_, ?_⟩
  · rw [read, dif_neg whole]
    simp only [availableForRead, executed, block]
  · rw [left]
    simp only
    omega
  · rw [index]
    exact inside
  · rw [index]

theorem read_broken {s : RingBuffer} {count : Nat} (layout : s.Layout) (broken : s.isBroken) :
    ∃ s', s.read count = .ok (s.content.take count) s' ∧ Advanced s (min count s.bytesWritten) s' := by
  obtain ⟨n, least⟩ : ∃ n, n = min count s.bytesWritten := ⟨_, rfl⟩
  obtain ⟨rem, gap⟩ : ∃ rem, rem = s.capacity - s.readIndex := ⟨_, rfl⟩
  have readBound := layout.readBound
  have room := layout.room
  have within : s.bytesWritten ≤ s.fixedBuffer.data.length := by show _ ≤ s.capacity; omega
  have inside : s.readIndex + min n rem ≤ s.capacity := by omega
  have executed := FixedBuffer.read_inside inside
  have block : s.content.take count = window s.fixedBuffer.data s.readIndex n := by
    rw [content, window, window, List.take_take, least]
  obtain ⟨memory, index, behind, left, marking, distance⟩ := incDistFromMark_fields (min n rem)
    { s with bytesWritten := s.bytesWritten - min n rem }
  obtain ⟨s₁, named⟩ : ∃ s₁, s₁ = incDistFromMark (min n rem) { s with bytesWritten := s.bytesWritten - min n rem } :=
    ⟨_, rfl⟩
  rw [← named] at memory index behind left marking distance
  simp only at memory index behind left marking distance
  have unfolded : s.read count = if n < rem then .ok (window s.fixedBuffer.data s.readIndex (min n rem))
      { s₁ with readIndex := s₁.readIndex + n } else
        match read { s₁ with readIndex := 0 } (n - rem) with
        | .error e s'' => .error e s''
        | .ok rest s'' => .ok (window s.fixedBuffer.data s.readIndex (min n rem) ++ rest) s'' := by
    rw [read, dif_pos broken]
    simp only [availableForRead, ← least, ← gap, executed, ← named]
  rw [unfolded, ← least]
  by_cases short : n < rem
  · have all : min n rem = n := by omega
    rw [all] at left distance
    refine ⟨{ s₁ with readIndex := s₁.readIndex + n }, ?_, by omega, memory, behind, ?_, marking, distance, ?_, ?_⟩
    · rw [if_pos short, all, block]
    · show s₁.bytesWritten + n = _
      omega
    · show s₁.readIndex + n ≤ _
      omega
    · show (s₁.readIndex + n) % _ = _
      rw [index]
  · -- the first piece ends at the end of the memory, the second begins anew
    have all : min n rem = rem := by omega
    rw [all] at left distance
    have first : Advanced s rem { s₁ with readIndex := 0 } := by
      refine ⟨by omega, memory, behind, ?_, marking, distance, Nat.zero_le _, ?_⟩
      · show s₁.bytesWritten + rem = _
        omega
      · show 0 % _ = _
        rw [gap, Nat.add_sub_cancel' readBound, Nat.mod_self, Nat.zero_mod]
    have size := first.capacity
    have inside : 0 + min (n - rem) s₁.bytesWritten ≤ ({ s₁ with readIndex := 0 } : RingBuffer).capacity := by
      rw [size]
      omega
    obtain ⟨s', continued, second⟩ := read_whole (s := { s₁ with readIndex := 0 }) (Nat.not_lt_zero _) inside
    have rest : min (n - rem) s₁.bytesWritten = n - rem := by omega
    have later : Advanced s n s' := by
      obtain ⟨-, memory', behind', left', marking', distance', readBound', moved'⟩ := second
      simp only [rest] at memory' behind' left' marking' distance' moved'
      refine ⟨by omega, memory'.trans memory, behind'.trans behind, by omega, marking'.trans marking, ?_, ?_, ?_⟩
      · rw [distance', marking, distance]
        split <;> omega
      · rw [size] at readBound'
        exact readBound'
      · rw [size] at moved'
        rw [moved', show s.readIndex + n = s.capacity + (0 + (n - rem)) by omega, Nat.add_mod_left]
    refine ⟨s', ?_, later⟩
    rw [if_neg short, continued, block, all]
    have tail : ({ s₁ with readIndex := 0 } : RingBuffer).content.take (n - rem) =
        (window s.fixedBuffer.data s.readIndex n).drop rem := by
      rw [first.content layout, content, ← List.drop_take, window_take _ _ (by omega)]
    have head : window s.fixedBuffer.data s.readIndex rem = (window s.fixedBuffer.data s.readIndex n).take rem :=
      (window_take _ _ (by omega)).symm
    simp only [tail, head, List.take_append_drop]

/-- A read that does not straddle returns the first bytes of the content. -/
theorem read_advances {s : RingBuffer} {count : Nat} (layout : s.Layout) (fits : ¬ s.Straddles count) :
    ∃ s', s.read count = .ok (s.content.take count) s' ∧ Advanced s (min count s.bytesWritten) s' := by
  by_cases broken : s.isBroken
  · exact read_broken layout broken
  · exact read_whole broken (not_lt.mp fun exceeds => fits ⟨broken, exceeds⟩)

theorem read_straddles {s : RingBuffer} {count : Nat} (layout : s.Layout) (addressable : s.capacity < 2 ^ 31)
    (straddles : s.Straddles count) :
    s.read count = .error (s.fixedBuffer.outOfBounds s.readIndex (min count s.bytesWritten)) s := by
  obtain ⟨whole, exceeds⟩ := straddles
  have readBound := layout.readBound
  have room := layout.room
  have outside : s.fixedBuffer.OutOfBounds s.readIndex (min count s.bytesWritten) := by
    show s.capacity < _
    rw [Nat.mod_eq_of_lt (by omega)]
    exact exceeds
  have refused : s.fixedBuffer.read s.readIndex (min count s.bytesWritten) = .error _ := if_pos outside
  rw [read, dif_neg whole]
  simp only [availableForRead, refused]

/-- Only a full buffer is read over the end of its memory. -/
theorem Straddles.full {s : RingBuffer} {count : Nat} (straddles : s.Straddles count) (layout : s.Layout) :
    s.bytesWritten = s.capacity ∧ s.writeIndex = s.readIndex := by
  obtain ⟨whole, exceeds⟩ := straddles
  obtain ⟨positive, readBound, writeBound, room, -⟩ := id layout
  unfold isBroken at whole
  rcases layout.writeIndex_cases with h | h | h | h <;> omega

theorem not_straddles_of_unfull {s : RingBuffer} (layout : s.Layout) (unfull : s.bytesWritten < s.capacity)
    (count : Nat) : ¬ s.Straddles count :=
  fun straddles => absurd (straddles.full layout).1 unfull.ne

/-- A ring buffer that is not full, with its content, on the way from an earlier state. -/
structure Holds (origin s : RingBuffer) (held : List UInt8) : Prop where
  ok : s.Ok
  content : s.content = held
  unfull : held.length < s.capacity
  sameSize : s.capacity = origin.capacity
  behind : s.writeIndex = origin.writeIndex
  markKept : s.mark = origin.mark
  resets : s.mark.isSome → s.reset = origin.reset

theorem Advanced.resets {s s' : RingBuffer} {n : Nat} (advanced : Advanced s n s') (marked : s'.mark.isSome) :
    s'.reset = s.reset := by
  rw [advanced.markKept] at marked
  obtain ⟨m, some⟩ := Option.isSome_iff_exists.mp marked
  exact advanced.reset some

theorem drop_min_length (held : List UInt8) (count : Nat) : held.drop (min count held.length) = held.drop count := by
  by_cases few : count ≤ held.length
  · rw [Nat.min_eq_left few]
  · rw [Nat.min_eq_right (by omega), List.drop_length, List.drop_eq_nil_iff.mpr (by omega)]

theorem take_min_length (src : List UInt8) (count : Nat) : src.take (min src.length count) = src.take count := by
  rw [Nat.min_comm, ← List.take_eq_take_min]

/-- A ring buffer that is not full serves its content. -/
theorem serves (origin : RingBuffer) : Stream.Serves (Holds origin) := by
  intro s held count holds positive
  obtain ⟨ok, content, unfull, sameSize, behind, markKept, resets⟩ := holds
  have size := content_length ok.layout
  rw [content] at size
  obtain ⟨s', executed, advanced⟩ := read_advances ok.layout (not_straddles_of_unfull ok.layout (by omega) count)
  rw [content] at executed
  refine ⟨held.take count, held.drop count, s', executed, (List.take_append_drop count held).symm, by simp, ?_, ?_⟩
  · intro none
    rcases List.take_eq_nil_iff.mp none with zero | nil
    · omega
    · exact nil
  · refine ⟨advanced.ok ok, ?_, ?_, advanced.capacity.trans sameSize, advanced.behind.trans behind,
      advanced.markKept.trans markKept, ?_⟩
    · rw [advanced.content ok.layout, content, ← size, drop_min_length]
    · rw [advanced.capacity, List.length_drop]
      omega
    · intro marked
      rw [advanced.resets marked]
      exact resets (advanced.markKept ▸ marked)

/-! ## Marks -/

@[simp] theorem setMark_content (s : RingBuffer) : s.setMark.content = s.content := rfl
@[simp] theorem unsetMark_content (s : RingBuffer) : s.unsetMark.content = s.content := rfl
@[simp] theorem setMark_capacity (s : RingBuffer) : s.setMark.capacity = s.capacity := rfl
@[simp] theorem unsetMark_capacity (s : RingBuffer) : s.unsetMark.capacity = s.capacity := rfl

theorem Anchored.setMark {s : RingBuffer} (anchored : s.Anchored) (rest : s.distFromMark = 0) : s.setMark.Anchored := by
  obtain ⟨positive, readBound, writeBound, room, aligned⟩ := anchored.layout
  refine ⟨⟨positive, readBound, writeBound, room, aligned⟩, nofun, ?_⟩
  intro m some
  cases some
  exact ⟨readBound, by rw [show s.setMark.distFromMark = 0 from rest]; rfl⟩

theorem Anchored.unsetMark {s : RingBuffer} (anchored : s.Anchored) : s.unsetMark.Anchored := by
  obtain ⟨positive, readBound, writeBound, room, aligned⟩ := anchored.layout
  exact ⟨⟨positive, readBound, writeBound, (Nat.le_add_right _ _).trans room, aligned⟩, fun _ => rfl, nofun⟩

theorem reset_unmarked {s : RingBuffer} (unmarked : s.mark = none) : s.reset = s := by
  rw [RingBuffer.reset, unmarked]

theorem Anchored.reset_layout {s : RingBuffer} (anchored : s.Anchored) : s.reset.Layout := by
  obtain ⟨layout, -, marked⟩ := anchored
  cases some : s.mark with
  | none =>
    rw [reset_unmarked some]
    exact layout
  | some m =>
    obtain ⟨bound, same⟩ := marked m some
    obtain ⟨positive, readBound, writeBound, room, aligned⟩ := layout
    have back : s.reset = { s with
        bytesWritten := s.bytesWritten + s.distFromMark, distFromMark := 0, readIndex := m } := by
      rw [reset, some]
    rw [back]
    refine ⟨positive, bound, writeBound, ?_, ?_⟩
    · exact room
    · show s.writeIndex % s.capacity = (m + (s.bytesWritten + s.distFromMark)) % s.capacity
      rw [aligned, Nat.add_mod, same, ← Nat.add_mod]
      congr 1
      omega

theorem Anchored.reset {s : RingBuffer} (anchored : s.Anchored) : s.reset.Anchored := by
  have layout := anchored.reset_layout
  cases some : s.mark with
  | none =>
    rw [reset_unmarked some]
    exact anchored
  | some m =>
    have back : s.reset = { s with
        bytesWritten := s.bytesWritten + s.distFromMark, distFromMark := 0, readIndex := m } := by
      rw [RingBuffer.reset, some]
    rw [back] at layout ⊢
    refine ⟨layout, fun _ => rfl, ?_⟩
    intro m' same
    have here : m = m' := Option.some.inj (some.symm.trans same)
    exact ⟨here ▸ layout.readBound, by rw [← here]; rfl⟩

/-- Going back to a mark that was set here changes nothing else. -/
theorem setMark_reset {s : RingBuffer} (rest : s.distFromMark = 0) : s.setMark.reset = s.setMark := by
  cases s with
  | mk fixedBuffer readIndex writeIndex bytesWritten mark distFromMark =>
    simp only at rest
    simp [setMark, reset, rest]

/-- A buffer between two messages: nothing is reserved behind a mark. -/
structure AtRest (s : RingBuffer) : Prop where
  ok : s.Ok
  rest : s.distFromMark = 0
  large : 2 ≤ s.capacity
  marked : ∀ m, s.mark = some m → m = s.readIndex

theorem create_atRest {capacity : Nat} (large : 2 ≤ capacity) (addressable : capacity < 2 ^ 31) :
    (create capacity).AtRest :=
  ⟨create_ok (by omega) addressable, rfl, by rw [RingBuffer.capacity, create, FixedBuffer.create_capacity]; exact large,
    nofun⟩

theorem AtRest.setMark {s : RingBuffer} (atRest : s.AtRest) : s.setMark.AtRest :=
  ⟨(atRest.ok.anchored.setMark atRest.rest).ok atRest.ok.addressable atRest.ok.writeBound, atRest.rest, atRest.large, fun _ marked => (Option.some.inj marked).symm⟩

theorem AtRest.reset {s : RingBuffer} (atRest : s.AtRest) : s.reset = s := by
  obtain ⟨-, rest, -, marked⟩ := atRest
  unfold RingBuffer.reset
  split
  · rename_i m some
    rw [marked m some, rest, Nat.add_zero]
    cases s
    simp_all
  · rfl

theorem AtRest.availableForWrite {s : RingBuffer} (atRest : s.AtRest) :
    s.availableForWrite + s.content.length = s.capacity := by
  have room := atRest.ok.room
  rw [content_length atRest.ok.layout, RingBuffer.availableForWrite, atRest.rest]
  omega

/-! ## Writing -/

/-- `s'` is `s` with a block stored behind its content. -/
structure Appended (s : RingBuffer) (block : List UInt8) (s' : RingBuffer) : Prop where
  fits : block.length ≤ s.availableForWrite
  laid : Laid s.fixedBuffer.data s.writeIndex block s'.fixedBuffer.data
  kept : s'.readIndex = s.readIndex
  more : s'.bytesWritten = s.bytesWritten + block.length
  markKept : s'.mark = s.mark
  distance : s'.distFromMark = s.distFromMark
  writeBound : s'.writeIndex ≤ s.capacity
  moved : s'.writeIndex % s.capacity = (s.writeIndex + block.length) % s.capacity

theorem Appended.capacity {s s' : RingBuffer} {block : List UInt8} (appended : Appended s block s') :
    s'.capacity = s.capacity := appended.laid.size

theorem Appended.layout {s s' : RingBuffer} {block : List UInt8} (appended : Appended s block s')
    (layout : s.Layout) : s'.Layout := by
  obtain ⟨positive, readBound, -, room, aligned⟩ := layout
  have size := appended.capacity
  obtain ⟨fits, -, kept, more, -, distance, writeBound, moved⟩ := appended
  unfold availableForWrite at fits
  refine ⟨size ▸ positive, by rw [size, kept]; exact readBound, size ▸ writeBound, ?_, ?_⟩
  · rw [size, more, distance]
    omega
  · rw [size, moved, Nat.add_mod, aligned, ← Nat.add_mod, kept, more, Nat.add_assoc]

theorem Appended.content {s s' : RingBuffer} {block : List UInt8} (appended : Appended s block s')
    (layout : s.Layout) : s'.content = s.content ++ block := by
  obtain ⟨fits, laid, kept, more, -, -, -, -⟩ := appended
  have room := layout.room
  unfold availableForWrite at fits
  rw [RingBuffer.content, RingBuffer.content, kept, more]
  exact (laid.turned layout.aligned.symm).window (by show _ ≤ s.capacity; omega)

theorem Appended.anchored {s s' : RingBuffer} {block : List UInt8} (appended : Appended s block s') (anchored : s.Anchored) :
    s'.Anchored := by
  obtain ⟨layout, unmarked, marked⟩ := anchored
  refine ⟨appended.layout layout, ?_, ?_⟩
  · intro none
    rw [appended.distance]
    exact unmarked (appended.markKept.symm.trans none)
  · intro m some
    rw [appended.capacity, appended.kept, appended.distance]
    exact marked m (appended.markKept.symm.trans some)

/-- What is stored stays behind the mark. -/
theorem Appended.reset {s s' : RingBuffer} {block : List UInt8} (appended : Appended s block s') :
    Appended s.reset block s'.reset := by
  obtain ⟨fits, laid, kept, more, markKept, distance, writeBound, moved⟩ := appended
  cases marked : s.mark with
  | none =>
    rw [reset_unmarked marked, reset_unmarked (markKept.trans marked)]
    exact ⟨fits, laid, kept, more, markKept, distance, writeBound, moved⟩
  | some m =>
    unfold availableForWrite at fits
    simp only [RingBuffer.reset, markKept, marked]
    refine ⟨?_, laid, rfl, ?_, rfl, rfl, writeBound, moved⟩
    · show block.length ≤ s.capacity - (s.bytesWritten + s.distFromMark) - 0
      omega
    · simp only [more, distance]
      omega

theorem Appended.append {s s₁ s₂ : RingBuffer} {first second : List UInt8} (one : Appended s first s₁)
    (two : Appended s₁ second s₂) : Appended s (first ++ second) s₂ := by
  have size := one.capacity
  obtain ⟨fits, laid, kept, more, markKept, distance, -, moved⟩ := one
  obtain ⟨fits', laid', kept', more', markKept', distance', writeBound', moved'⟩ := two
  unfold availableForWrite at fits fits'
  rw [size] at writeBound' moved'
  have place : (s.writeIndex + first.length) % s₁.fixedBuffer.data.length =
      s₁.writeIndex % s₁.fixedBuffer.data.length := by
    rw [laid.size]
    exact moved.symm
  refine ⟨?_, laid.append (laid'.turned place) ?_, kept'.trans kept, ?_, markKept'.trans markKept,
    distance'.trans distance, writeBound', ?_⟩
  · unfold availableForWrite
    rw [List.length_append]
    omega
  · show _ ≤ s.capacity
    omega
  · rw [more', more, List.length_append, Nat.add_assoc]
  · rw [moved', Nat.add_mod, moved, ← Nat.add_mod, List.length_append, Nat.add_assoc]

/-- A block that fits before the end of the memory, with the write index behind it. -/
theorem overwrite_appended {s : RingBuffer} {block : List UInt8} {count writeIndex : Nat} (size : block.length = count)
    (fits : count ≤ s.availableForWrite) (inside : s.writeIndex + count ≤ s.capacity)
    (writeBound : writeIndex ≤ s.capacity) (moved : writeIndex % s.capacity = (s.writeIndex + count) % s.capacity) :
    Appended s block { s with
      fixedBuffer := ⟨overwrite s.fixedBuffer.data s.writeIndex block⟩
      writeIndex := writeIndex
      bytesWritten := s.bytesWritten + count } := by
  subst size
  exact ⟨fits, overwrite_laid inside, rfl, rfl, rfl, rfl, writeBound, moved⟩

/-- A write stores as much as there is room for, and leaves the write index at the end of
    the memory only where the read index is. -/
theorem write_appends_within (s : RingBuffer) (src : List UInt8) (layout : s.Layout) :
    ∃ s', s.write src = .ok (min src.length s.availableForWrite) s' ∧
      Appended s (src.take (min src.length s.availableForWrite)) s' ∧
      (s'.writeIndex < s.capacity ∨ s'.writeIndex ≤ s.readIndex) := by
  obtain ⟨count, least⟩ : ∃ count, count = min src.length s.availableForWrite := ⟨_, rfl⟩
  obtain ⟨positive, readBound, writeBound, room, -⟩ := id layout
  have placed := layout.writeIndex_cases
  have available : s.availableForWrite = s.capacity - s.bytesWritten - s.distFromMark := rfl
  rw [write, ← least]
  by_cases broken : s.isBroken
  · have order : s.writeIndex < s.readIndex := broken
    have size : (src.take count).length = count := by simp; omega
    have inside : s.writeIndex + (src.take count).length ≤ s.fixedBuffer.capacity := by
      rw [size]
      show _ ≤ s.capacity
      omega
    have executed := FixedBuffer.write_inside inside
    rw [if_pos broken, executed]
    refine ⟨_, rfl, overwrite_appended size (by omega) (by omega) (by omega) rfl, .inr ?_⟩
    show s.writeIndex + count ≤ s.readIndex
    omega
  · have order : s.readIndex ≤ s.writeIndex := not_lt.mp broken
    obtain ⟨rem, gap⟩ : ∃ rem, rem = s.capacity - s.writeIndex := ⟨_, rfl⟩
    have size : (src.take (min count rem)).length = min count rem := by simp; omega
    have inside : s.writeIndex + (src.take (min count rem)).length ≤ s.fixedBuffer.capacity := by
      rw [size]
      show _ ≤ s.capacity
      omega
    have executed := FixedBuffer.write_inside inside
    rw [if_neg broken, dif_neg positive.ne', ← gap]
    simp only [executed]
    by_cases short : count < rem
    · have all : min count rem = count := by omega
      rw [all] at size ⊢
      simp only [dif_pos short]
      refine ⟨_, rfl, overwrite_appended size (by omega) (by omega) (by omega) rfl, .inl ?_⟩
      show s.writeIndex + count < s.capacity
      omega
    · -- the first piece ends at the end of the memory, the second begins anew
      have all : min count rem = rem := by omega
      rw [all] at size ⊢
      simp only [dif_neg short]
      have one : Appended s (src.take rem) { s with
          fixedBuffer := ⟨overwrite s.fixedBuffer.data s.writeIndex (src.take rem)⟩
          writeIndex := 0
          bytesWritten := s.bytesWritten + rem } :=
        overwrite_appended size (by omega) (by omega) (by omega) (by
          rw [gap, Nat.add_sub_cancel' writeBound, Nat.mod_self, Nat.zero_mod])
      have left : ((src.drop rem).take (count - rem)).length = count - rem := by simp; omega
      obtain ⟨s', continued, two, within⟩ :=
        write_appends_within _ ((src.drop rem).take (count - rem)) (one.layout layout)
      have more : min (count - rem) (RingBuffer.availableForWrite { s with
          fixedBuffer := ⟨overwrite s.fixedBuffer.data s.writeIndex (src.take rem)⟩
          writeIndex := 0
          bytesWritten := s.bytesWritten + rem }) = count - rem := by
        have same := one.capacity
        unfold availableForWrite
        rw [same]
        simp only
        omega
      rw [left, more] at continued two
      rw [one.capacity] at within
      rw [continued]
      refine ⟨s', ?_, ?_, within⟩
      · simp only
        rw [Nat.add_sub_cancel' (by omega)]
      · have both := one.append two
        rw [List.take_take, Nat.min_self, ← List.take_add, Nat.add_sub_cancel' (by omega)] at both
        exact both
termination_by (s.writeIndex, src.length)
decreasing_by
  simp_wf
  simp only [Prod.lex_def]
  simp
  omega

theorem write_appends (s : RingBuffer) (src : List UInt8) (layout : s.Layout) :
    ∃ s', s.write src = .ok (min src.length s.availableForWrite) s' ∧
      Appended s (src.take (min src.length s.availableForWrite)) s' := by
  obtain ⟨s', executed, appended, -⟩ := write_appends_within s src layout
  exact ⟨s', executed, appended⟩

theorem scatter_one {data block : List UInt8} {start len : Nat} (fits : block.length ≤ len)
    (within : start + block.length ≤ data.length) : Laid data start block (scatter data [(start, len)] block) := by
  simp only [scatter, List.take_of_length_le fits]
  exact overwrite_laid within

theorem scatter_two {data block : List UInt8} {start first second : Nat} (inside : start ≤ data.length)
    (fits : block.length ≤ first + second) (reach : start + first ≤ data.length) (wraps : second ≤ start)
    (full : second = 0 ∨ start + first = data.length) :
    Laid data start block (scatter data [(start, first), (0, second)] block) := by
  have second' : (block.drop first).take second = block.drop first :=
    List.take_of_length_le (by rw [List.length_drop]; omega)
  simp only [scatter, second']
  by_cases short : block.length ≤ first
  · rw [List.drop_eq_nil_iff.mpr short, overwrite_nil, List.take_of_length_le short]
    exact overwrite_laid (by omega)
  · have taken : (block.take first).length = first := by simp; omega
    have left : (block.drop first).length = block.length - first := List.length_drop
    have reaches : start + first = data.length := by omega
    have one : Laid data start (block.take first) (overwrite data start (block.take first)) :=
      overwrite_laid (by omega)
    have within : 0 + (block.drop first).length ≤ (overwrite data start (block.take first)).length := by
      rw [one.size]
      omega
    have same : (start + (block.take first).length) % (overwrite data start (block.take first)).length =
        0 % (overwrite data start (block.take first)).length := by
      rw [one.size, taken, reaches, Nat.mod_self, Nat.zero_mod]
    have two := (overwrite_laid within).turned same
    have both := one.append two (by omega)
    rwa [List.take_append_drop] at both

/-- The write index is not at the end of the memory while the read index is at its
    beginning, or the buffer is not empty. -/
def Wrapped (s : RingBuffer) : Prop := s.writeIndex = s.capacity → s.readIndex = s.capacity ∨ 0 < s.bytesWritten

theorem Ok.wrapped {s : RingBuffer} (ok : s.Ok) : s.Wrapped := fun atEnd => absurd atEnd ok.writeBound.ne

/-- The pieces given to the socket make up one piece behind the content. -/
theorem scatter_behind {s : RingBuffer} {block : List UInt8} (layout : s.Layout) (wrapped : s.Wrapped)
    (fits : block.length ≤ s.availableForWrite) :
    Laid s.fixedBuffer.data s.writeIndex block (scatter s.fixedBuffer.data s.asioMutableBuffers block) := by
  have size : s.capacity = s.fixedBuffer.data.length := rfl
  have readBound := layout.readBound
  have writeBound := layout.writeBound
  have placed := layout.writeIndex_cases
  unfold Wrapped at wrapped
  unfold availableForWrite at fits
  by_cases broken : s.isBroken
  · have order : s.writeIndex < s.readIndex := broken
    simp only [asioMutableBuffers, if_pos broken, availableForWrite]
    exact scatter_one (by omega) (by omega)
  · have order : s.readIndex ≤ s.writeIndex := not_lt.mp broken
    simp only [asioMutableBuffers, if_neg broken, availableForWrite]
    exact scatter_two (by omega) (by omega) (by omega) (by omega) (by omega)

theorem asyncWriteSomeFrom_appended {s : RingBuffer} {block : List UInt8} (layout : s.Layout) (wrapped : s.Wrapped)
    (fits : block.length ≤ s.availableForWrite) : Appended s block (s.asyncWriteSomeFrom block) := by
  refine ⟨fits, scatter_behind layout wrapped fits, rfl, rfl, rfl, rfl, ?_, ?_⟩
  · exact (Nat.mod_lt _ layout.positive).le
  · exact Nat.mod_mod _ _

theorem asyncWriteSomeFrom_appends {s : RingBuffer} {block : List UInt8} (ok : s.Ok)
    (fits : block.length ≤ s.availableForWrite) : Appended s block (s.asyncWriteSomeFrom block) :=
  asyncWriteSomeFrom_appended ok.layout ok.wrapped fits

theorem asyncWriteSomeFrom_content {s : RingBuffer} {block : List UInt8} (ok : s.Ok)
    (fits : block.length ≤ s.availableForWrite) : (s.asyncWriteSomeFrom block).content = s.content ++ block :=
  (asyncWriteSomeFrom_appends ok fits).content ok.layout

theorem asyncWriteSomeFrom_ok {s : RingBuffer} {block : List UInt8} (ok : s.Ok)
    (fits : block.length ≤ s.availableForWrite) : (s.asyncWriteSomeFrom block).Ok := by
  have appended := asyncWriteSomeFrom_appends ok fits
  apply (appended.anchored ok.anchored).ok
  · rw [appended.capacity]
    exact ok.addressable
  · rw [appended.capacity]
    exact Nat.mod_lt _ ok.positive

@[simp] theorem asyncWriteSomeFrom_mark (s : RingBuffer) (block : List UInt8) :
    (s.asyncWriteSomeFrom block).mark = s.mark := rfl

theorem AtRest.asyncWriteSomeFrom {s : RingBuffer} {block : List UInt8} (atRest : s.AtRest)
    (fits : block.length ≤ s.availableForWrite) :
    (s.asyncWriteSomeFrom block).AtRest ∧ (s.asyncWriteSomeFrom block).capacity = s.capacity := by
  have size := (asyncWriteSomeFrom_appends atRest.ok fits).capacity
  exact ⟨⟨asyncWriteSomeFrom_ok atRest.ok fits, atRest.rest, size ▸ atRest.large, atRest.marked⟩, size⟩

end RingBuffer
end Oac
