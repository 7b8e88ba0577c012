import Oac.Buffer.Queue

/-!
# Ring buffers and sockets

`asio_mutable_buffers` gives a socket the free memory of a ring buffer: one piece or two,
in the order of the queue (`ScatterFits`). The calls that break this are a `reset` to a
mark that was set over another one with bytes behind it, and a transfer to a socket that
empties the buffer while its write index is at the end of the memory.
-/
namespace Oac.RingBuffer
open Base

/-- Everything that is called on a ring buffer, and the ends of its socket transfers. -/
inductive Operation where
  | call (call : Call)
  | asyncWriteSomeFrom (block : List UInt8)
  | asyncReadSomeTo (bytesRead : Nat)

/-- An operation that returns. A socket transfers at most what the pieces cover. -/
def Performs (s : RingBuffer) : Operation → RingBuffer → Prop
  | .call call, s' => Step s call s'
  | .asyncWriteSomeFrom block, s' =>
    block.length ≤ (s.asioMutableBuffers.map Prod.snd).sum ∧ s' = s.asyncWriteSomeFrom block
  | .asyncReadSomeTo bytesRead, s' =>
    bytesRead ≤ (s.asioConstBuffers.map Prod.snd).sum ∧ s' = s.asyncReadSomeTo bytesRead

/-- No read over the end of the memory, no way back to a mark that the reserved bytes do
    not begin at, and no emptying while the write index is at the end of the memory. -/
def Safe (s : RingBuffer) : Operation → Prop
  | .call (.transfer op) => ¬ s.Overruns op
  | .call .reset => ∀ m, s.mark = some m → (m + s.distFromMark) % s.capacity = s.readIndex % s.capacity
  | .call _ => True
  | .asyncWriteSomeFrom _ => True
  | .asyncReadSomeTo bytesRead => s.writeIndex = s.capacity → bytesRead ≠ s.bytesWritten

/-- The places of the bytes that can be read. -/
def readable (s : RingBuffer) : List Nat := cells s.capacity s.readIndex s.bytesWritten

/-- The number of bytes from the mark to the read index. With both at one place these are
    none or, if the distance is that of a whole round, all. -/
def behind (s : RingBuffer) (m : Nat) : Nat :=
  if s.distFromMark = s.capacity then s.capacity else (s.readIndex + s.capacity - m) % s.capacity

/-- The places between the mark and the read index. -/
def reserved (s : RingBuffer) : List Nat :=
  match s.mark with
  | some m => cells s.capacity m (s.behind m)
  | none => []

/-- What the scatter list of a ring buffer has to be. -/
structure ScatterFits (s : RingBuffer) : Prop where
  covers : (s.asioMutableBuffers.map Prod.snd).sum = s.availableForWrite
  ordered : placesOf s.asioMutableBuffers = cells s.capacity (s.readIndex + s.bytesWritten) s.availableForWrite
  disjoint : (placesOf s.asioMutableBuffers).Nodup
  unread : s.readable.Disjoint (placesOf s.asioMutableBuffers)
  unreserved : s.reserved.Disjoint (placesOf s.asioMutableBuffers)
  completes : ∀ block : List UInt8, block.length ≤ s.availableForWrite →
    (s.asyncWriteSomeFrom block).content = s.content ++ block

/-! ## The invariant -/

/-- The mark is in the memory, and not more bytes away from the read index than counted. -/
def Leads (s : RingBuffer) (m : Nat) : Prop :=
  m ≤ s.capacity ∧ (∃ k ≤ s.distFromMark, (m + k) % s.capacity = s.readIndex % s.capacity) ∧
    (s.distFromMark = 0 → m = s.readIndex ∨ m = s.capacity ∧ s.readIndex = 0)

structure Placed (s : RingBuffer) : Prop where
  layout : s.Layout
  wrapped : s.Wrapped
  marked : ∀ m, s.mark = some m → s.Leads m

theorem create_placed {capacity : Nat} (positive : 0 < capacity) : (create capacity).Placed := by
  refine ⟨create_layout positive, ?_, nofun⟩
  intro atEnd
  rw [create_capacity] at atEnd
  exact absurd atEnd positive.ne

theorem read_whole_readIndex {s s' : RingBuffer} {count : Nat} {block : List UInt8} (whole : ¬ s.isBroken)
    (executed : s.read count = .ok block s') : s'.readIndex = s.readIndex + min count s.bytesWritten := by
  rw [read, dif_neg whole] at executed
  simp only [availableForRead] at executed
  split at executed
  · cases executed
  · cases executed
    exact (incDistFromMark_fields _ _).2.1

theorem Advanced.placed {s s' : RingBuffer} {n : Nat} (advanced : Advanced s n s') (placed : s.Placed)
    (wrapped : s'.Wrapped) (resting : n = 0 → s.readIndex = 0 → s'.readIndex = 0) : s'.Placed := by
  refine ⟨advanced.layout placed.layout, wrapped, ?_⟩
  intro m some
  have marked : s.mark = .some m := advanced.markKept.symm.trans some
  obtain ⟨bound, ⟨k, few, reaches⟩, here⟩ := placed.marked m marked
  have distance : s'.distFromMark = s.distFromMark + n := by
    rw [advanced.distance, marked]
    rfl
  have size := advanced.capacity
  refine ⟨size ▸ bound, ⟨k + n, by omega, ?_⟩, ?_⟩
  · rw [size, advanced.moved, ← Nat.add_assoc, Nat.add_mod, reaches, ← Nat.add_mod]
  · intro zero
    have none : n = 0 := by omega
    subst none
    have readBound := placed.layout.readBound
    have readBound' := advanced.readBound
    have moved : s'.readIndex % s.capacity = s.readIndex % s.capacity := advanced.moved
    rw [size]
    -- a read of nothing at the end of the memory may go on to its beginning
    have stays : s'.readIndex = s.readIndex ∨ s.readIndex = s.capacity ∧ s'.readIndex = 0 := by
      by_cases start : s.readIndex = 0
      · exact .inl ((resting rfl start).trans start.symm)
      · rcases readBound.lt_or_eq with inside | atEnd
        · rcases readBound'.lt_or_eq with inside' | atEnd'
          · rw [Nat.mod_eq_of_lt inside, Nat.mod_eq_of_lt inside'] at moved
            exact .inl moved
          · rw [atEnd', Nat.mod_self, Nat.mod_eq_of_lt inside] at moved
            exact absurd moved.symm start
        · rcases readBound'.lt_or_eq with inside' | atEnd'
          · rw [atEnd, Nat.mod_self, Nat.mod_eq_of_lt inside'] at moved
            exact .inr ⟨atEnd, moved⟩
          · exact .inl (atEnd'.trans atEnd.symm)
    have := here (by omega)
    omega

theorem read_placed {s s' : RingBuffer} {count : Nat} {block : List UInt8} (placed : s.Placed)
    (fits : ¬ s.Straddles count) (executed : s.read count = .ok block s') : s'.Placed := by
  obtain ⟨s'', executed', advanced⟩ := read_advances placed.layout fits
  cases executed.symm.trans executed'
  have left := advanced.left
  have behind := advanced.behind
  have readBound := placed.layout.readBound
  have positive := placed.layout.positive
  have size := advanced.capacity
  apply advanced.placed placed
  · intro atEnd
    rw [size] at atEnd ⊢
    have whole : ¬ s.isBroken := not_lt.mpr (by omega)
    have index := read_whole_readIndex whole executed
    have before := placed.wrapped (by omega)
    have sum := placed.layout.writeIndex_cases
    have bound := advanced.readBound
    omega
  · intro none start
    have whole : ¬ s.isBroken := not_lt.mpr (by omega)
    have index := read_whole_readIndex whole executed
    omega

theorem asyncReadSomeTo_advanced {s : RingBuffer} {n : Nat} (positive : 0 < s.capacity) (fewer : n ≤ s.bytesWritten) :
    Advanced s n (s.asyncReadSomeTo n) := by
  obtain ⟨memory, index, behind, left, marking, distance⟩ := incDistFromMark_fields n
    { s with readIndex := (s.readIndex + n) % s.capacity }
  refine ⟨fewer, memory, behind, ?_, marking, distance, ?_, ?_⟩
  · show (incDistFromMark n _).bytesWritten - n + n = _
    rw [left]
    exact Nat.sub_add_cancel fewer
  · show (incDistFromMark n _).readIndex ≤ _
    rw [index]
    exact (Nat.mod_lt _ positive).le
  · show (incDistFromMark n _).readIndex % _ = _
    rw [index]
    exact Nat.mod_mod _ _

/-- The pieces given to a socket do not cover more than is stored. -/
theorem asioConstBuffers_le {s : RingBuffer} (placed : s.Placed) :
    (s.asioConstBuffers.map Prod.snd).sum ≤ s.bytesWritten := by
  have sum := placed.layout.writeIndex_cases
  have readBound := placed.layout.readBound
  have writeBound := placed.layout.writeBound
  have wrapped := placed.wrapped
  unfold Wrapped at wrapped
  by_cases broken : s.isBroken
  · have order : s.writeIndex < s.readIndex := broken
    simp only [asioConstBuffers, if_pos broken, List.map_cons, List.map_nil, List.sum_cons, List.sum_nil]
    omega
  · have order : s.readIndex ≤ s.writeIndex := not_lt.mp broken
    simp only [asioConstBuffers, if_neg broken, List.map_cons, List.map_nil, List.sum_cons, List.sum_nil]
    omega

theorem asyncReadSomeTo_placed {s : RingBuffer} {n : Nat} (placed : s.Placed)
    (fits : n ≤ (s.asioConstBuffers.map Prod.snd).sum) (stays : s.writeIndex = s.capacity → n ≠ s.bytesWritten) :
    (s.asyncReadSomeTo n).Placed := by
  have advanced := asyncReadSomeTo_advanced placed.layout.positive (fits.trans (asioConstBuffers_le placed))
  have left := advanced.left
  have index : (s.asyncReadSomeTo n).readIndex = (s.readIndex + n) % s.capacity := (incDistFromMark_fields n _).2.1
  apply advanced.placed placed
  · intro atEnd
    rw [advanced.behind, advanced.capacity] at atEnd
    have some := stays atEnd
    omega
  · intro none start
    rw [index, none, start]
    exact Nat.zero_mod _

theorem Appended.placed {s s' : RingBuffer} {block : List UInt8} (appended : Appended s block s') (placed : s.Placed)
    (within : s'.writeIndex < s.capacity ∨ s'.writeIndex ≤ s.readIndex) : s'.Placed := by
  have size := appended.capacity
  have readBound := placed.layout.readBound
  refine ⟨appended.layout placed.layout, ?_, ?_⟩
  · intro atEnd
    rw [appended.kept, size]
    omega
  · intro m some
    obtain ⟨bound, reaches, here⟩ := placed.marked m (appended.markKept.symm.trans some)
    unfold Leads
    rw [size, appended.kept, appended.distance]
    exact ⟨bound, reaches, here⟩

theorem write_placed {s s' : RingBuffer} {src : List UInt8} {n : Nat} (placed : s.Placed)
    (executed : s.write src = .ok n s') : s'.Placed := by
  obtain ⟨s'', executed', appended, within⟩ := write_appends_within s src placed.layout
  cases executed.symm.trans executed'
  exact appended.placed placed within

theorem Placed.setMark {s : RingBuffer} (placed : s.Placed) : s.setMark.Placed := by
  obtain ⟨⟨positive, readBound, writeBound, room, aligned⟩, wrapped, -⟩ := placed
  refine ⟨⟨positive, readBound, writeBound, room, aligned⟩, wrapped, ?_⟩
  intro m some
  cases some
  exact ⟨readBound, ⟨0, Nat.zero_le _, rfl⟩, fun _ => .inl rfl⟩

theorem Placed.unsetMark {s : RingBuffer} (placed : s.Placed) : s.unsetMark.Placed := by
  obtain ⟨⟨positive, readBound, writeBound, room, aligned⟩, wrapped, -⟩ := placed
  exact ⟨⟨positive, readBound, writeBound, (Nat.le_add_right _ _).trans room, aligned⟩, wrapped, nofun⟩

theorem Placed.reset {s : RingBuffer} (placed : s.Placed)
    (leads : ∀ m, s.mark = some m → (m + s.distFromMark) % s.capacity = s.readIndex % s.capacity) :
    s.reset.Placed := by
  cases some : s.mark with
  | none =>
    rw [reset_unmarked some]
    exact placed
  | some m =>
    obtain ⟨⟨positive, readBound, writeBound, room, aligned⟩, wrapped, marked⟩ := placed
    obtain ⟨bound, -, here⟩ := marked m some
    have back : s.reset = { s with
        bytesWritten := s.bytesWritten + s.distFromMark, distFromMark := 0, readIndex := m } := by
      rw [RingBuffer.reset, some]
    rw [back]
    refine ⟨⟨positive, bound, writeBound, room, ?_⟩, ?_, ?_⟩
    · show s.writeIndex % s.capacity = (m + (s.bytesWritten + s.distFromMark)) % s.capacity
      rw [aligned, Nat.add_mod, ← leads m some, ← Nat.add_mod]
      congr 1
      omega
    · intro atEnd
      have before := wrapped atEnd
      show m = s.capacity ∨ 0 < s.bytesWritten + s.distFromMark
      omega
    · intro m' same
      have there : m' = m := Option.some.inj (same.symm.trans some)
      subst there
      exact ⟨bound, ⟨0, Nat.zero_le _, rfl⟩, fun _ => .inl rfl⟩

/-! ## The pieces -/

theorem asioMutableBuffers_places {s : RingBuffer} (layout : s.Layout) (wrapped : s.Wrapped) :
    placesOf s.asioMutableBuffers = cells s.capacity (s.readIndex + s.bytesWritten) s.availableForWrite := by
  have sum := layout.writeIndex_cases
  have readBound := layout.readBound
  have writeBound := layout.writeBound
  unfold Wrapped at wrapped
  have free : s.availableForWrite = s.capacity - s.bytesWritten - s.distFromMark := rfl
  rw [← cells_turned layout.aligned]
  by_cases broken : s.isBroken
  · have order : s.writeIndex < s.readIndex := broken
    have one : min s.availableForWrite (s.readIndex - s.writeIndex) = s.availableForWrite := by omega
    simp only [asioMutableBuffers, if_pos broken, placesOf, List.flatMap_cons, List.flatMap_nil, List.append_nil, one]
    exact (cells_piece (by omega)).symm
  · have order : s.readIndex ≤ s.writeIndex := not_lt.mp broken
    obtain ⟨first, least⟩ : ∃ first, first = min s.availableForWrite (s.capacity - s.writeIndex) := ⟨_, rfl⟩
    have second : min (s.availableForWrite - first) s.readIndex = s.availableForWrite - first := by omega
    simp only [asioMutableBuffers, if_neg broken, placesOf, List.flatMap_cons, List.flatMap_nil, List.append_nil,
      ← least, second]
    have split : s.availableForWrite = first + (s.availableForWrite - first) := by omega
    rw [split, ← cells_append, Nat.add_sub_cancel_left, cells_piece (by omega)]
    congr 1
    by_cases more : s.availableForWrite = first
    · simp [more]
    · -- the second piece is the memory from its beginning on
      have ended : s.writeIndex + first = s.capacity := by omega
      have turned : s.capacity % s.capacity = 0 % s.capacity := by simp
      rw [ended, cells_turned turned, cells_piece (by omega)]

theorem asioMutableBuffers_sum {s : RingBuffer} (layout : s.Layout) (wrapped : s.Wrapped) :
    (s.asioMutableBuffers.map Prod.snd).sum = s.availableForWrite := by
  rw [← placesOf_length, asioMutableBuffers_places layout wrapped, cells_length]

theorem behind_le {s : RingBuffer} {m : Nat} (leads : s.Leads m) (partly : s.distFromMark ≠ s.capacity) :
    s.behind m ≤ s.distFromMark ∧ (m + s.behind m) % s.capacity = s.readIndex % s.capacity := by
  obtain ⟨bound, ⟨k, few, reaches⟩, -⟩ := leads
  have count : s.behind m = k % s.capacity := by
    have round : (m + (s.readIndex + s.capacity - m)) % s.capacity = (m + k) % s.capacity := by
      rw [reaches, Nat.add_sub_cancel' (by omega), Nat.add_mod_right]
    rw [behind, if_neg partly]
    exact Nat.ModEq.add_left_cancel' m round
  rw [count]
  refine ⟨(Nat.mod_le _ _).trans few, ?_⟩
  rw [Nat.add_mod_mod, reaches]

/-- From the mark on, the memory is reserved, readable and free in this order. -/
theorem reserved_disjoint {s : RingBuffer} (placed : s.Placed) :
    s.reserved.Disjoint (cells s.capacity (s.readIndex + s.bytesWritten) s.availableForWrite) := by
  have room := placed.layout.room
  have free : s.availableForWrite = s.capacity - s.bytesWritten - s.distFromMark := rfl
  cases some : s.mark with
  | none => simp [reserved, some]
  | some m =>
    simp only [reserved, some]
    by_cases whole : s.distFromMark = s.capacity
    · have full : s.availableForWrite = 0 := by omega
      simp [full]
    · obtain ⟨few, reaches⟩ := behind_le (placed.marked m some) whole
      have turned : (s.readIndex + s.bytesWritten) % s.capacity =
          (m + s.behind m + s.bytesWritten) % s.capacity := by
        rw [Nat.add_mod, ← reaches, ← Nat.add_mod]
      have fits : s.behind m + (s.bytesWritten + s.availableForWrite) ≤ s.capacity := by omega
      have apart := cells_disjoint m fits
      rw [← cells_append] at apart
      rw [cells_turned turned]
      exact (List.disjoint_append_right.mp apart).2

theorem Placed.scatterFits {s : RingBuffer} (placed : s.Placed) : s.ScatterFits := by
  have places := asioMutableBuffers_places placed.layout placed.wrapped
  have room := placed.layout.room
  have free : s.availableForWrite = s.capacity - s.bytesWritten - s.distFromMark := rfl
  refine ⟨asioMutableBuffers_sum placed.layout placed.wrapped, places, ?_, ?_, ?_, ?_⟩
  · rw [places]
    exact cells_nodup _ (by omega)
  · rw [places]
    exact cells_disjoint _ (by omega)
  · rw [places]
    exact reserved_disjoint placed
  · intro block fits
    exact (asyncWriteSomeFrom_appended placed.layout placed.wrapped fits).content placed.layout

/-! ## Runs -/

theorem Placed.performs {s s' : RingBuffer} {operation : Operation} (placed : s.Placed)
    (performs : Performs s operation s') (safe : s.Safe operation) : s'.Placed := by
  cases operation with
  | call call =>
    cases call with
    | transfer op =>
      obtain ⟨a, executed⟩ := performs
      cases op with
      | read count =>
        obtain ⟨s'', read, advanced⟩ := read_advances placed.layout safe
        cases executed.symm.trans (transfer_read read)
        exact read_placed placed safe read
      | write src =>
        obtain ⟨s'', written, appended⟩ := write_appends s src placed.layout
        cases executed.symm.trans (transfer_write written)
        exact write_placed placed written
    | setMark =>
      cases performs
      exact placed.setMark
    | unsetMark =>
      cases performs
      exact placed.unsetMark
    | reset =>
      cases performs
      exact placed.reset safe
  | asyncWriteSomeFrom block =>
    obtain ⟨fits, rfl⟩ := performs
    rw [placed.scatterFits.covers] at fits
    apply (asyncWriteSomeFrom_appended placed.layout placed.wrapped fits).placed placed
    exact .inl (Nat.mod_lt _ placed.layout.positive)
  | asyncReadSomeTo n =>
    obtain ⟨fits, rfl⟩ := performs
    exact asyncReadSomeTo_placed placed fits safe

/-- In every run of safe operations the scatter list is the free memory in the order of the
    queue, and what a socket reads into it is appended to the content. -/
theorem scatter_fits (capacity : Nat) (positive : 0 < capacity) (s : RingBuffer)
    (run : Run (Meeting Performs Safe) (create capacity) s) : s.ScatterFits := by
  have placed : s.Placed := run.invariant (create_placed positive) fun before last => before.performs last.1 last.2
  exact placed.scatterFits

/-- Two bytes are stored, and one is read behind a mark. -/
theorem marked_read_run : Run (Meeting Performs Safe) (create 3) ⟨⟨[7, 8, 0]⟩, 1, 2, 1, some 0, 1⟩ := by
  have written : transfer (.write [7, 8]) (create 3) = .ok (.stored 2) ⟨⟨[7, 8, 0]⟩, 0, 2, 2, none, 0⟩ := by
    apply transfer_write
    simp [write, create, FixedBuffer.create, availableForWrite, capacity, FixedBuffer.capacity, isBroken,
      FixedBuffer.write, FixedBuffer.OutOfBounds, overwrite, List.replicate]
  have taken : transfer (.read 1) ⟨⟨[7, 8, 0]⟩, 0, 2, 2, some 0, 0⟩ =
      .ok (.took [7]) ⟨⟨[7, 8, 0]⟩, 1, 2, 1, some 0, 1⟩ := by
    apply transfer_read
    rw [read]
    rfl
  have stored : Run (Meeting Performs Safe) (create 3) ⟨⟨[7, 8, 0]⟩, 0, 2, 2, none, 0⟩ :=
    (Run.refl _).next (e := .call (.transfer _)) ⟨⟨_, written⟩, id⟩
  have marked : Run (Meeting Performs Safe) (create 3) ⟨⟨[7, 8, 0]⟩, 0, 2, 2, some 0, 0⟩ :=
    stored.next (e := .call .setMark) ⟨rfl, trivial⟩
  exact marked.next (e := .call (.transfer _)) ⟨⟨_, taken⟩, show ¬ Straddles _ 1 by decide⟩

/-- Between a byte that is reserved and one that is free lies the one that can be read. -/
theorem scatter_fits_reserved : (⟨⟨[7, 8, 0]⟩, 1, 2, 1, some 0, 1⟩ : RingBuffer).ScatterFits :=
  scatter_fits 3 (by decide) _ marked_read_run

/-- Of two bytes one is read behind a mark; a second mark is set and gone back to. Then a
    byte more than is stored counts as readable. -/
theorem remarked_run : Run Performs (create 3) ⟨⟨[7, 8, 0]⟩, 1, 2, 2, some 1, 0⟩ := by
  have again : Run Performs (create 3) ⟨⟨[7, 8, 0]⟩, 1, 2, 1, some 1, 1⟩ :=
    marked_read_run.forget.next (e := .call .setMark) rfl
  exact again.next (e := .call .reset) rfl

/-- The socket is given the place of that byte. -/
theorem remarked_not_fits : ¬ ∀ s, Run Performs (create 3) s → s.ScatterFits := by
  intro fits
  have unread := (fits _ remarked_run).unread
  exact unread (a := 2) (by decide) (by decide)

end Oac.RingBuffer
