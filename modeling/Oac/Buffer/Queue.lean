import Oac.Base.Fifo
import Oac.Base.Run
import Oac.Buffer.Ring

/-!
# Ring buffers as queues

A ring buffer without a mark is a bounded queue, except that a full one whose memory
does not begin with its oldest byte cannot be read over the end of the memory. With a
mark, `reset` brings back what was read since the mark was set; `set_mark` over a mark
from which bytes have been read forgets to clear their number.
-/
namespace Oac.RingBuffer
open Base

/-- The stream operations. -/
def transfer : Fifo.Op UInt8 → EStateM Exception RingBuffer (Fifo.Answer UInt8)
  | .read count => do
    let block ← InputStream.read count
    pure (.took block)
  | .write src => do
    let count ← OutputStream.write src
    pure (.stored count)

def queue : Fifo.Implementation RingBuffer Exception UInt8 := ⟨transfer, availableForRead, availableForWrite⟩

/-- The operation reads over the end of the memory. -/
def Overruns (s : RingBuffer) : Fifo.Op UInt8 → Prop
  | .read count => s.Straddles count
  | .write _ => False
instance (s : RingBuffer) : (op : Fifo.Op UInt8) → Decidable (s.Overruns op)
  | .read count => inferInstanceAs (Decidable (s.Straddles count))
  | .write _ => isFalse id

theorem transfer_read {s s' : RingBuffer} {count : Nat} {block : List UInt8} (executed : s.read count = .ok block s') :
    transfer (.read count) s = .ok (.took block) s' := by
  have once : InputStream.read count s = .ok block s' := executed
  simp only [transfer]
  rw [ok_bind once]
  rfl

theorem transfer_write {s s' : RingBuffer} {src : List UInt8} {count : Nat} (executed : s.write src = .ok count s') :
    transfer (.write src) s = .ok (.stored count) s' := by
  have once : OutputStream.write src s = .ok count s' := executed
  simp only [transfer]
  rw [ok_bind once]
  rfl

theorem transfer_read_error {s s' : RingBuffer} {count : Nat} {e : Exception} (raised : s.read count = .error e s') :
    transfer (.read count) s = .error e s' := by
  have once : InputStream.read count s = .error e s' := raised
  simp only [transfer]
  rw [error_bind once]

/-- What a transfer that does not overrun does. -/
theorem transfer_spec {s : RingBuffer} (layout : s.Layout) {op : Fifo.Op UInt8} (fine : ¬ s.Overruns op) :
    ∃ a s', transfer op s = .ok a s' ∧
      match op with
      | .read count => a = .took (s.content.take count) ∧ Advanced s (min count s.bytesWritten) s'
      | .write src => a = .stored (min src.length s.availableForWrite) ∧
          Appended s (src.take (min src.length s.availableForWrite)) s' := by
  cases op with
  | read count =>
    obtain ⟨s', executed, advanced⟩ := read_advances layout fine
    exact ⟨_, s', transfer_read executed, rfl, advanced⟩
  | write src =>
    obtain ⟨s', executed, appended⟩ := write_appends s src layout
    exact ⟨_, s', transfer_write executed, rfl, appended⟩

/-- A read that overruns does not return the bytes that it should. -/
theorem overruns_fails {s s' : RingBuffer} {count : Nat} (layout : s.Layout) (overruns : s.Straddles count) :
    s.read count ≠ .ok (s.content.take count) s' := by
  intro executed
  have size := content_length layout
  have readBound := layout.readBound
  obtain ⟨whole, exceeds⟩ := overruns
  rw [read, dif_neg whole] at executed
  simp only [availableForRead, FixedBuffer.read] at executed
  by_cases outside : s.fixedBuffer.OutOfBounds s.readIndex (min count s.bytesWritten)
  · simp [outside] at executed
  · -- the copy goes on behind the memory
    simp only [outside, ↓reduceIte, EStateM.Result.ok.injEq] at executed
    have few := congrArg List.length executed.1
    have memory : s.fixedBuffer.data.length = s.capacity := rfl
    simp only [List.length_take, List.length_drop, size, memory] at few
    omega

/-! ## The queue -/

/-- A ring buffer without a mark, with its content. -/
structure Queues (capacity : Nat) (s : RingBuffer) (held : List UInt8) : Prop where
  layout : s.Layout
  size : s.capacity = capacity
  content : s.content = held
  unmarked : s.mark = none
  rest : s.distFromMark = 0

theorem create_queues {capacity : Nat} (positive : 0 < capacity) : Queues capacity (create capacity) [] :=
  ⟨create_layout positive, create_capacity capacity, create_content capacity, rfl, rfl⟩

theorem Queues.length {capacity : Nat} {s : RingBuffer} {held : List UInt8} (queues : Queues capacity s held) :
    held.length = s.bytesWritten := by
  rw [← queues.content]
  exact content_length queues.layout

theorem Queues.availableForWrite {capacity : Nat} {s : RingBuffer} {held : List UInt8}
    (queues : Queues capacity s held) : s.availableForWrite = capacity - held.length := by
  rw [RingBuffer.availableForWrite, queues.rest, queues.size, queues.length, Nat.sub_zero]

theorem Advanced.queues {capacity : Nat} {s s' : RingBuffer} {held : List UInt8} {n : Nat}
    (advanced : Advanced s n s') (queues : Queues capacity s held) : Queues capacity s' (held.drop n) := by
  obtain ⟨layout, size, content, unmarked, rest⟩ := queues
  refine ⟨advanced.layout layout, advanced.capacity.trans size, ?_, advanced.markKept.trans unmarked, ?_⟩
  · rw [advanced.content layout, content]
  · rw [advanced.distance, unmarked]
    exact rest

theorem Appended.queues {capacity : Nat} {s s' : RingBuffer} {held block : List UInt8}
    (appended : Appended s block s') (queues : Queues capacity s held) : Queues capacity s' (held ++ block) := by
  obtain ⟨layout, size, content, unmarked, rest⟩ := queues
  refine ⟨appended.layout layout, appended.capacity.trans size, ?_, appended.markKept.trans unmarked,
    appended.distance.trans rest⟩
  rw [appended.content layout, content]

/-- Except for the overrun, the ring buffer is a queue. -/
theorem queue_compared (capacity : Nat) : Compared (Queues capacity) (queue.Sized capacity) transfer
    (Fifo.queue Exception capacity) fun s op => ¬ s.Overruns op where
  weaker := fun queues => ⟨queues.length.symm, queues.availableForWrite⟩
  met := by
    intro s held op queues fine
    obtain ⟨a, s', executed, spec⟩ := transfer_spec queues.layout fine
    rw [executed]
    cases op with
    | read count =>
      obtain ⟨rfl, advanced⟩ := spec
      have left := advanced.queues queues
      rw [← queues.length, drop_min_length] at left
      exact ⟨by rw [queues.content]; rfl, left⟩
    | write src =>
      obtain ⟨rfl, appended⟩ := spec
      have more := appended.queues queues
      rw [take_min_length, queues.availableForWrite] at more
      exact ⟨by rw [queues.availableForWrite]; rfl, more⟩
  unmet := by
    intro s held op queues overruns lockstep
    cases op with
    | write src => exact overruns id
    | read count =>
      have straddles : s.Straddles count := not_not.mp overruns
      cases result : s.read count with
      | error e s' =>
        rw [transfer_read_error result] at lockstep
        exact lockstep
      | ok block s' =>
        rw [transfer_read result] at lockstep
        have same : block = held.take count := Fifo.Answer.took.inj lockstep.1
        rw [same, ← queues.content] at result
        exact overruns_fails queues.layout straddles result

/-- A ring buffer behaves as a bounded queue on exactly the sequences of operations of
    which none reads a full buffer over the end of the memory. -/
theorem stream_refines_fifo (capacity : Nat) (positive : 0 < capacity) (ops : List (Fifo.Op UInt8)) :
    queue.Refines capacity ops (create capacity) [] ↔
      Along transfer (fun s op => ¬ s.Overruns op) ops (create capacity) :=
  Fifo.Implementation.refines_iff (queue_compared capacity) ops (create_queues positive)

/-- One byte of room, filled and emptied. -/
theorem write_one : transfer (.write [7]) (create 1) = .ok (.stored 1) ⟨⟨[7]⟩, 0, 0, 1, none, 0⟩ := by
  apply transfer_write
  simp [write, create, FixedBuffer.create, availableForWrite, capacity, FixedBuffer.capacity, isBroken,
    FixedBuffer.write, FixedBuffer.OutOfBounds, overwrite]

theorem read_one : transfer (.read 1) ⟨⟨[7]⟩, 0, 0, 1, none, 0⟩ = .ok (.took [7]) ⟨⟨[7]⟩, 1, 0, 0, none, 0⟩ := by
  apply transfer_read
  rw [read]
  rfl

theorem stream_refines_fifo_one : queue.Refines 1 [.write [7], .read 1] (create 1) [] := by
  apply (stream_refines_fifo 1 Nat.one_pos _).mpr
  refine ⟨id, ?_, trivial⟩
  rw [write_one]
  decide

/-- Filled again, the byte cannot be read: the read is to begin at the end of the memory. -/
theorem refilled_not_fifo : ¬ queue.Refines 1 [.write [7], .read 1, .write [8], .read 1] (create 1) [] := by
  have again : transfer (.write [8]) ⟨⟨[7]⟩, 1, 0, 0, none, 0⟩ = .ok (.stored 1) ⟨⟨[8]⟩, 1, 1, 1, none, 0⟩ := by
    apply transfer_write
    rw [write]
    rfl
  have last : transfer (.read 1) ⟨⟨[8]⟩, 1, 1, 1, none, 0⟩ =
      .error (.indexOutOfBounds 2 0 0) ⟨⟨[8]⟩, 1, 1, 1, none, 0⟩ := by
    apply transfer_read_error
    rw [read]
    rfl
  rintro ⟨-, -, -, -, fourth, -⟩
  simp only [queue, write_one, after_ok, read_one, again, last] at fourth
  exact fourth

/-! ## Marks -/

/-- Everything that is called on a ring buffer. -/
inductive Call where
  | transfer (op : Fifo.Op UInt8)
  | setMark
  | unsetMark
  | reset

/-- A call that returns. -/
def Step (s : RingBuffer) : Call → RingBuffer → Prop
  | .transfer op, s' => ∃ a, transfer op s = .ok a s'
  | .setMark, s' => s' = s.setMark
  | .unsetMark, s' => s' = s.unsetMark
  | .reset, s' => s' = s.reset

/-- The call does not read over the end of the memory, and sets no mark while bytes read
    since an earlier one are still reserved. -/
def Careful (s : RingBuffer) : Call → Prop
  | .transfer op => ¬ s.Overruns op
  | .setMark => s.distFromMark = 0
  | .unsetMark => True
  | .reset => True

/-- How the fields of a ring buffer fit together. -/
structure Consistent (s : RingBuffer) : Prop where
  room : s.availableForRead + s.distFromMark ≤ s.capacity
  written : s.writeIndex % s.capacity = (s.readIndex + s.availableForRead) % s.capacity
  marked : ∀ m, s.mark = some m → s.readIndex % s.capacity = (m + s.distFromMark) % s.capacity

/-- Transfers that return, with the bytes they have written so far. -/
def Transfer (before : RingBuffer × List UInt8) (op : Fifo.Op UInt8) (now : RingBuffer × List UInt8) : Prop :=
  ∃ a, transfer op before.1 = .ok a now.1 ∧
    match op, a with
    | .write src, .stored n => now.2 = before.2 ++ src.take n
    | _, _ => now.2 = before.2

/-- Transfers that return lead from `s` to `s'`, none of them over the end of the memory. -/
def Transfers (s : RingBuffer) (written : List UInt8) (s' : RingBuffer) : Prop :=
  Run (Meeting Transfer fun now op => ¬ now.1.Overruns op) (s, []) (s', written)

/-- A mark set now brings back the content with all that is written later. -/
def RestoresMark (s : RingBuffer) : Prop :=
  ∀ written s', Transfers s.setMark written s' → s'.reset.content = s.content ++ written

theorem Anchored.consistent {s : RingBuffer} (anchored : s.Anchored) : s.Consistent :=
  ⟨anchored.layout.room, anchored.layout.aligned, fun m some => (anchored.marked m some).2⟩

/-- Every careful call keeps the mark where the reserved bytes begin. -/
theorem Anchored.step {s s' : RingBuffer} {call : Call} (anchored : s.Anchored) (step : Step s call s')
    (careful : s.Careful call) : s'.Anchored := by
  cases call with
  | transfer op =>
    obtain ⟨a, executed⟩ := step
    obtain ⟨a', s'', executed', spec⟩ := transfer_spec anchored.layout careful
    cases executed.symm.trans executed'
    cases op with
    | read count => exact spec.2.anchored anchored
    | write src => exact spec.2.anchored anchored
  | setMark =>
    subst step
    exact anchored.setMark careful
  | unsetMark =>
    subst step
    exact anchored.unsetMark
  | reset =>
    subst step
    exact anchored.reset

theorem careful_anchored {capacity : Nat} (positive : 0 < capacity) {s : RingBuffer}
    (run : Run (Meeting Step Careful) (create capacity) s) : s.Anchored :=
  run.invariant (create_anchored positive) fun anchored last => anchored.step last.1 last.2

/-- While the mark is set, what would be brought back is only appended to. -/
structure Remembers (origin s : RingBuffer) (written : List UInt8) : Prop where
  anchored : s.Anchored
  some : s.mark.isSome
  restored : s.reset.content = origin.reset.content ++ written

theorem Remembers.transfer {origin s s' : RingBuffer} {written written' : List UInt8} {op : Fifo.Op UInt8}
    (remembers : Remembers origin s written) (transferred : Transfer (s, written) op (s', written'))
    (fine : ¬ s.Overruns op) : Remembers origin s' written' := by
  obtain ⟨anchored, some, restored⟩ := remembers
  obtain ⟨a, executed, log⟩ := transferred
  obtain ⟨a', s'', executed', spec⟩ := transfer_spec anchored.layout fine
  cases executed.symm.trans executed'
  cases op with
  | read count =>
    obtain ⟨rfl, advanced⟩ := spec
    have some' : s'.mark.isSome := by rw [advanced.markKept]; exact some
    refine ⟨advanced.anchored anchored, some', ?_⟩
    have same : written' = written := log
    rw [advanced.resets some', restored, same]
  | write src =>
    obtain ⟨rfl, appended⟩ := spec
    refine ⟨appended.anchored anchored, by rw [appended.markKept]; exact some, ?_⟩
    have more : written' = written ++ src.take (min src.length s.availableForWrite) := log
    rw [appended.reset.content anchored.reset_layout, restored, more, List.append_assoc]

theorem Remembers.transfers {s s' : RingBuffer} {written : List UInt8} (remembers : Remembers s s [])
    (transfers : Transfers s written s') : Remembers s s' written :=
  transfers.invariant (I := fun now => Remembers s now.1 now.2) remembers fun before last =>
    before.transfer last.1 last.2

theorem setMark_remembers {s : RingBuffer} (anchored : s.Anchored) (rest : s.distFromMark = 0) :
    Remembers s.setMark s.setMark [] :=
  ⟨anchored.setMark rest, rfl, (List.append_nil _).symm⟩

/-- A mark brings back the content of the moment it was set if no byte was reserved then. -/
theorem restoresMark_iff {s : RingBuffer} (anchored : s.Anchored) : s.RestoresMark ↔ s.distFromMark = 0 := by
  constructor
  · intro restores
    -- going back at once must not bring back more bytes than there were
    have back := restores [] s.setMark (Run.refl _)
    have size := congrArg List.length back
    rw [List.append_nil, content_length anchored.layout] at size
    have total : s.setMark.reset.content.length = s.bytesWritten + s.distFromMark := by
      apply window_length
      exact anchored.layout.room
    omega
  · intro rest written s' transfers
    have remembered := (setMark_remembers anchored rest).transfers transfers
    rw [remembered.restored, setMark_reset rest, setMark_content]

/-- In every run whose calls are careful, the fields fit together, and a mark set next
    brings the content back if and only if no bytes are reserved behind an earlier one. -/
theorem mark_restores (capacity : Nat) (positive : 0 < capacity) (s : RingBuffer)
    (run : Run (Meeting Step Careful) (create capacity) s) :
    s.Consistent ∧ (s.RestoresMark ↔ s.distFromMark = 0) := by
  have anchored := careful_anchored positive run
  exact ⟨anchored.consistent, restoresMark_iff anchored⟩

/-- Two bytes of room, filled, and the first byte read behind a mark. -/
theorem half_read_run : Run (Meeting Step Careful) (create 2) ⟨⟨[7, 8]⟩, 1, 0, 1, some 0, 1⟩ := by
  have written : transfer (.write [7, 8]) (create 2) = .ok (.stored 2) ⟨⟨[7, 8]⟩, 0, 0, 2, none, 0⟩ := by
    apply transfer_write
    simp [write, create, FixedBuffer.create, availableForWrite, capacity, FixedBuffer.capacity, isBroken,
      FixedBuffer.write, FixedBuffer.OutOfBounds, overwrite]
  have taken : transfer (.read 1) ⟨⟨[7, 8]⟩, 0, 0, 2, some 0, 0⟩ =
      .ok (.took [7]) ⟨⟨[7, 8]⟩, 1, 0, 1, some 0, 1⟩ := by
    apply transfer_read
    rw [read]
    rfl
  have first : Run (Meeting Step Careful) (create 2) ⟨⟨[7, 8]⟩, 0, 0, 2, none, 0⟩ :=
    (Run.refl _).next (e := .transfer _) ⟨⟨_, written⟩, id⟩
  have second : Run (Meeting Step Careful) (create 2) ⟨⟨[7, 8]⟩, 0, 0, 2, some 0, 0⟩ :=
    first.next (e := .setMark) ⟨rfl, rfl⟩
  exact second.next (e := .transfer _) ⟨⟨_, taken⟩, show ¬ Straddles _ 1 by decide⟩

/-- With a byte stored and a byte reserved behind a mark, a new mark does not bring the
    content back; once the mark is unset, it does. -/
theorem mark_restores_half_read : ¬ (⟨⟨[7, 8]⟩, 1, 0, 1, some 0, 1⟩ : RingBuffer).RestoresMark ∧
    (⟨⟨[7, 8]⟩, 1, 0, 1, some 0, 1⟩ : RingBuffer).unsetMark.RestoresMark := by
  have reserved := (mark_restores 2 Nat.two_pos _ half_read_run).2
  have unset := (mark_restores 2 Nat.two_pos _ (half_read_run.next (e := .unsetMark) ⟨rfl, trivial⟩)).2
  exact ⟨fun restores => absurd (reserved.mp restores) (by decide), unset.mpr rfl⟩

/-- A second mark set there brings back the first byte as well, and the fields do not fit
    together any more. -/
theorem remarked_not_restored : (¬ ∀ s, Run Step (create 2) s → s.Consistent) ∧
    ¬ ∀ s, Run Step (create 2) s → s.RestoresMark := by
  constructor
  · intro consistent
    have marked := (consistent _ (half_read_run.forget.next (e := .setMark) rfl)).marked 1 rfl
    exact absurd marked (by decide)
  · intro restores
    have back := restores _ half_read_run.forget [] _ (Run.refl _)
    exact absurd back (by decide)

end Oac.RingBuffer
