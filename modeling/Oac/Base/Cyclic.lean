import Mathlib.Data.List.Nodup
import Mathlib.Data.List.Range
import Mathlib.Data.List.Rotate
import Mathlib.Data.Nat.ModEq

/-!
# Words laid out in a cycle

A queue in a block of memory whose end joins its beginning: `window data start count` is
the queue of `count` elements that begins at `start`. Reading moves the start
(`window_drop`), and `cells` are the places it takes. A block may be `Laid` round the end
of the memory in several pieces; behind the queue it appends to the queue (`Laid.window`).
-/
namespace Oac.Base
variable {α : Type*}

def window (data : List α) (start count : Nat) : List α := (data.rotate start).take count

/-- Replace the elements from `offset` on. -/
def overwrite (data : List α) (offset : Nat) (block : List α) : List α :=
  data.take offset ++ block ++ data.drop (offset + block.length)

/-- Spread a block over pieces of the memory, each an offset and a length. -/
def scatter (data : List α) : List (Nat × Nat) → List α → List α
  | [], _ => data
  | (offset, len) :: rest, block => scatter (overwrite data offset (block.take len)) rest (block.drop len)

/-- The elements that lie in pieces of the memory, piece by piece. -/
def gather (data : List α) (pieces : List (Nat × Nat)) : List α :=
  pieces.flatMap fun piece => (data.drop piece.1).take piece.2

@[simp] theorem window_zero (data : List α) (start : Nat) : window data start 0 = [] := by
  simp [window]

theorem window_length {data : List α} {start count : Nat} (within : count ≤ data.length) :
    (window data start count).length = count := by
  simp [window, within]

theorem window_mod (data : List α) (start count : Nat) :
    window data (start % data.length) count = window data start count := by
  simp [window, List.rotate_mod]

/-- Up to the end of the memory a queue lies in one piece. -/
theorem window_piece {data : List α} {start count : Nat} (within : start + count ≤ data.length) :
    window data start count = (data.drop start).take count := by
  rw [window, List.rotate_eq_drop_append_take (by omega), List.take_append_of_le_length (by simp; omega)]

/-- Round the end of the memory it lies in two. -/
theorem window_pieces {data : List α} {start rest : Nat} (inside : start ≤ data.length) (within : rest ≤ start) :
    window data start (data.length - start + rest) = data.drop start ++ data.take rest := by
  have front : (data.drop start).length = data.length - start := List.length_drop
  rw [window, List.rotate_eq_drop_append_take inside, ← front, List.take_length_add_append, List.take_take,
    Nat.min_eq_left within]

theorem window_take (data : List α) (start : Nat) {count total : Nat} (fewer : count ≤ total) :
    (window data start total).take count = window data start count := by
  simp [window, List.take_take, fewer]

theorem window_drop {data : List α} {start count total : Nat} (fewer : count ≤ total)
    (within : total ≤ data.length) : (window data start total).drop count = window data (start + count) (total - count) := by
  have size : (data.rotate start).length = data.length := List.length_rotate data start
  have turned : (data.rotate start).rotate count = (data.rotate start).drop count ++ (data.rotate start).take count :=
    List.rotate_eq_drop_append_take (by omega)
  unfold window
  rw [← List.rotate_rotate, turned, List.drop_take, List.take_append_of_le_length (by rw [List.length_drop]; omega)]

@[simp] theorem overwrite_length {data block : List α} {offset : Nat} (within : offset + block.length ≤ data.length) :
    (overwrite data offset block).length = data.length := by
  simp [overwrite]
  omega

@[simp] theorem overwrite_nil (data : List α) (offset : Nat) : overwrite data offset [] = data := by
  simp [overwrite]

/-! ## Places -/

/-- The places of a queue in a memory of `size` elements, in the order of the queue. -/
def cells (size start count : Nat) : List Nat := (List.range count).map fun i => (start + i) % size

/-- The places that pieces of the memory cover, piece by piece. -/
def placesOf (pieces : List (Nat × Nat)) : List Nat := pieces.flatMap fun piece => List.range' piece.1 piece.2

@[simp] theorem cells_zero (size start : Nat) : cells size start 0 = [] := rfl

@[simp] theorem placesOf_length (pieces : List (Nat × Nat)) : (placesOf pieces).length = (pieces.map Prod.snd).sum := by
  simp [placesOf, List.length_flatMap]

@[simp] theorem cells_length (size start count : Nat) : (cells size start count).length = count := by
  simp [cells]

theorem cells_turned {size start start' : Nat} (same : start' % size = start % size) (count : Nat) :
    cells size start' count = cells size start count := by
  apply List.map_congr_left
  intro i _
  rw [Nat.add_mod, same, ← Nat.add_mod]

theorem cells_append (size start first second : Nat) :
    cells size start first ++ cells size (start + first) second = cells size start (first + second) := by
  simp [cells, List.range_add, List.map_append, Function.comp_def, Nat.add_assoc]

/-- Up to the end of the memory the places follow each other. -/
theorem cells_piece {size start count : Nat} (within : start + count ≤ size) :
    cells size start count = List.range' start count := by
  rw [cells, List.range'_eq_map_range]
  apply List.map_congr_left
  intro i member
  have := List.mem_range.mp member
  exact Nat.mod_eq_of_lt (by omega)

theorem cells_nodup {size count : Nat} (start : Nat) (within : count ≤ size) : (cells size start count).Nodup := by
  apply List.Nodup.map_on _ List.nodup_range
  intro i iMember j jMember same
  have i_lt := List.mem_range.mp iMember
  have j_lt := List.mem_range.mp jMember
  have same' : i % size = j % size := Nat.ModEq.add_left_cancel' start same
  rwa [Nat.mod_eq_of_lt (by omega), Nat.mod_eq_of_lt (by omega)] at same'

/-- A queue does not meet the one behind it. -/
theorem cells_disjoint {size first second : Nat} (start : Nat) (within : first + second ≤ size) :
    (cells size start first).Disjoint (cells size (start + first) second) := by
  apply List.disjoint_of_nodup_append
  rw [cells_append]
  exact cells_nodup start within

/-- `data'` is `data` with the block written from `start` on, round the end. -/
structure Laid (data : List α) (start : Nat) (block data' : List α) : Prop where
  size : data'.length = data.length
  seen : data'.rotate start = block ++ (data.rotate start).drop block.length

theorem overwrite_laid {data block : List α} {start : Nat} (within : start + block.length ≤ data.length) :
    Laid data start block (overwrite data start block) := by
  refine ⟨overwrite_length within, ?_⟩
  have front : (data.take start).length = start := by simp; omega
  have turned := List.rotate_append_length_eq (data.take start) (block ++ data.drop (start + block.length))
  rw [front] at turned
  rw [overwrite, List.append_assoc, turned, List.rotate_eq_drop_append_take (by omega),
    List.drop_append_of_le_length (by simp; omega), List.drop_drop, List.append_assoc]

/-- The start may be given a round later. -/
theorem Laid.turned {data block data' : List α} {start start' : Nat} (laid : Laid data start block data')
    (same : start' % data.length = start % data.length) : Laid data start' block data' := by
  obtain ⟨size, seen⟩ := laid
  refine ⟨size, ?_⟩
  rw [← List.rotate_mod, size, same, ← size, List.rotate_mod, seen, ← List.rotate_mod, ← same, List.rotate_mod]

/-- A second block behind the first. -/
theorem Laid.append {data first second middle last : List α} {start : Nat} (one : Laid data start first middle)
    (two : Laid middle (start + first.length) second last) (within : first.length + second.length ≤ data.length) :
    Laid data start (first ++ second) last := by
  obtain ⟨size, seen⟩ := one
  obtain ⟨size', seen'⟩ := two
  obtain ⟨free, named⟩ : ∃ free, free = (data.rotate start).drop first.length := ⟨_, rfl⟩
  have left : free.length = data.length - first.length := by simp [named]
  refine ⟨size'.trans size, ?_⟩
  -- from behind the first block, the memory ends with that block
  have behind : middle.rotate (start + first.length) = free ++ first := by
    rw [← List.rotate_rotate, seen, ← named, List.rotate_append_length_eq]
  rw [behind, List.drop_append_of_le_length (by omega), ← List.append_assoc] at seen'
  have room : (second ++ free.drop second.length).length = data.length - first.length := by simp; omega
  have back : last.rotate start = (last.rotate (start + first.length)).rotate (data.length - first.length) := by
    rw [List.rotate_rotate, show start + first.length + (data.length - first.length) = start + last.length by omega,
      ← List.rotate_rotate, ← List.length_rotate (l := last) (n := start), List.rotate_length]
  rw [back, seen', ← room, List.rotate_append_length_eq, List.append_assoc, named, List.drop_drop, List.length_append]

/-- Memory that is overwritten only behind a queue keeps the queue, with the new block
    appended to it. -/
theorem Laid.window {data data' block : List α} {start count : Nat} (laid : Laid data (start + count) block data')
    (within : count + block.length ≤ data.length) :
    window data' start (count + block.length) = window data start count ++ block := by
  obtain ⟨same, written⟩ := laid
  have whole : data.rotate (start + count) = (data.rotate start).drop count ++ (data.rotate start).take count := by
    rw [← List.rotate_rotate, List.rotate_eq_drop_append_take (by simp; omega)]
  have back : data'.rotate start = (data'.rotate (start + count)).rotate (data.length - count) := by
    rw [List.rotate_rotate, show start + count + (data.length - count) = start + data'.length by omega,
      ← List.rotate_rotate, ← List.length_rotate (l := data') (n := start), List.rotate_length]
  have free : ((data.rotate start).drop count).length = data.length - count := by simp
  have kept : block.length ≤ ((data.rotate start).drop count).length := by omega
  have turned := List.rotate_append_length_eq (block ++ ((data.rotate start).drop count).drop block.length)
    ((data.rotate start).take count)
  have size : (block ++ ((data.rotate start).drop count).drop block.length).length = data.length - count := by
    rw [List.length_append, List.length_drop, free]
    omega
  rw [size] at turned
  have queue : ((data.rotate start).take count).length = count := by simp; omega
  unfold Base.window
  rw [back, written, whole, List.drop_append_of_le_length kept, ← List.append_assoc, turned,
    ← List.append_assoc, List.take_append_of_le_length (by rw [List.length_append, queue]),
    List.take_of_length_le (by rw [List.length_append, queue])]

end Oac.Base
