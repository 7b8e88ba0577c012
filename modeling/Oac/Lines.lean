import Mathlib.Data.List.TakeWhile
import Oac.Buffer.Linear

/-!
# Lines of a stream

`read_line` reads byte by byte into a chunk of 64 bytes and goes on with the next chunk where
no newline ends the line before. Its calls return the pieces between the newlines one after
the other (`read_line_pieces`).
-/
namespace Oac.Stream
open Base

section
variable {σ : Type} [InputStream σ]

/-- The loop over a chunk, with as many bytes to go. It tells whether the line has ended. -/
def readChunk : Nat → EStateM Exception σ (Str × Bool)
  | 0 => pure ([], false)
  | n + 1 => do
    let block ← InputStream.read 1
    match block with
    | [] => pure ([], true)
    | c :: _ =>
      if c = 0x0a then pure ([], true)
      else do
        let (rest, ended) ← readChunk n
        pure (c :: rest, ended)

/-- `stream::read_line`, which calls itself `fuel` times at most. -/
def readLine : Nat → EStateM Exception σ (Option Str)
  | 0 => pure none
  | fuel + 1 => do
    let (chunk, ended) ← readChunk 64
    if ended then pure (some chunk)
    else do
      let rest ← readLine fuel
      pure (rest.map (chunk ++ ·))

/-- A number of calls. -/
def readLines (fuel : Nat) : Nat → EStateM Exception σ (List (Option Str))
  | 0 => pure []
  | n + 1 => do
    let line ← readLine fuel
    let lines ← readLines fuel n
    pure (line :: lines)

end

/-! ## A call -/

/-- The bytes before the first newline. -/
def firstLine (held : Str) : Str := held.takeWhile (· ≠ 0x0a)
/-- The bytes behind it. -/
def behindLine (held : Str) : Str := (held.dropWhile (· ≠ 0x0a)).drop 1

variable {σ : Type} [InputStream σ] {R : σ → List UInt8 → Prop} {s : σ} {held : Str}

theorem firstLine_cons {c : UInt8} (other : c ≠ 0x0a) (held : Str) : firstLine (c :: held) = c :: firstLine held := by
  simp [firstLine, other]
theorem behindLine_cons {c : UInt8} (other : c ≠ 0x0a) (held : Str) : behindLine (c :: held) = behindLine held := by
  simp [behindLine, other]

/-- A read of one byte. -/
theorem read_one (serves : Serves R) (related : R s held) : ∃ s', InputStream.read 1 s = .ok (held.take 1) s' ∧ R s' (held.drop 1) := by
  obtain ⟨block, rest, s', executed, rfl, short, empty, left⟩ := serves s held 1 related one_pos
  cases block with
  | nil =>
    have none : [] ++ rest = [] := empty rfl
    rw [List.nil_append] at none
    subst none
    exact ⟨s', executed, left⟩
  | cons c block =>
    have only : block = [] := List.length_eq_zero_iff.mp (by rw [List.length_cons] at short; omega)
    subst only
    exact ⟨s', executed, left⟩

/-- A line that fits into the chunk is read with its newline. -/
theorem readChunk_ended (serves : Serves R) {n : Nat} (short : (firstLine held).length < n) (related : R s held) :
    ∃ s', readChunk n s = .ok (firstLine held, true) s' ∧ R s' (behindLine held) := by
  induction n generalizing s held with
  | zero => omega
  | succ n ih =>
    obtain ⟨s', executed, left⟩ := read_one serves related
    rw [readChunk, ok_bind executed]
    cases held with
    | nil => exact ⟨s', rfl, left⟩
    | cons c held =>
      by_cases newline : c = 0x0a
      · subst newline
        exact ⟨s', rfl, left⟩
      · rw [firstLine_cons newline, List.length_cons, Nat.succ_lt_succ_iff] at short
        obtain ⟨s'', continued, behind⟩ := ih short left
        refine ⟨s'', ?_, ?_⟩
        · simp only [List.take_succ_cons, List.take_zero, newline, ↓reduceIte]
          rw [ok_bind continued, firstLine_cons newline]
          rfl
        · rwa [behindLine_cons newline]

/-- Of a longer one as much is read as the chunk holds. -/
theorem readChunk_full (serves : Serves R) {n : Nat} (long : n ≤ (firstLine held).length) (related : R s held) :
    ∃ s', readChunk n s = .ok ((firstLine held).take n, false) s' ∧ R s' (held.drop n) := by
  induction n generalizing s held with
  | zero => exact ⟨s, rfl, related⟩
  | succ n ih =>
    obtain ⟨s', executed, left⟩ := read_one serves related
    rw [readChunk, ok_bind executed]
    cases held with
    | nil => simp [firstLine] at long
    | cons c held =>
      by_cases newline : c = 0x0a
      · subst newline
        simp [firstLine] at long
      · rw [firstLine_cons newline, List.length_cons, Nat.succ_le_succ_iff] at long
        obtain ⟨s'', continued, behind⟩ := ih long left
        refine ⟨s'', ?_, behind⟩
        simp only [List.take_succ_cons, List.take_zero, newline, ↓reduceIte]
        rw [ok_bind continued, firstLine_cons newline]
        rfl

/-- A part of the first line that is read leaves the rest of it, and what is behind. -/
theorem line_drop {n : Nat} (long : n ≤ (firstLine held).length) :
    firstLine (held.drop n) = (firstLine held).drop n ∧ behindLine (held.drop n) = behindLine held := by
  induction n generalizing held with
  | zero => exact ⟨rfl, rfl⟩
  | succ n ih =>
    cases held with
    | nil => simp [firstLine] at long
    | cons c held =>
      by_cases newline : c = 0x0a
      · subst newline
        simp [firstLine] at long
      · rw [firstLine_cons newline, List.length_cons] at long
        rw [firstLine_cons newline, behindLine_cons newline]
        exact ih (by omega)

/-- A call returns the bytes before the newline and leaves those behind it. -/
theorem readLine_reads (serves : Serves R) {fuel : Nat} (enough : (firstLine held).length < 64 * fuel) (related : R s held) :
    ∃ s', readLine fuel s = .ok (some (firstLine held)) s' ∧ R s' (behindLine held) := by
  induction fuel generalizing s held with
  | zero => omega
  | succ fuel ih =>
    rw [readLine]
    by_cases short : (firstLine held).length < 64
    · obtain ⟨s', executed, left⟩ := readChunk_ended serves short related
      exact ⟨s', ok_bind executed, left⟩
    · obtain ⟨s', executed, left⟩ := readChunk_full serves (not_lt.mp short) related
      have rest : (firstLine (held.drop 64)).length < 64 * fuel := by
        rw [(line_drop (not_lt.mp short)).1, List.length_drop]
        omega
      obtain ⟨s'', continued, behind⟩ := ih rest left
      refine ⟨s'', ?_, ?_⟩
      · rw [ok_bind executed]
        simp only [Bool.false_eq_true, ↓reduceIte]
        rw [ok_bind continued, (line_drop (not_lt.mp short)).1]
        simp [pure, EStateM.pure]
      · rwa [(line_drop (not_lt.mp short)).2] at behind

/-! ## All calls -/

/-- The pieces between the newlines. -/
def pieces (held : Str) : List Str := held.splitOn 0x0a

theorem line_split (newline : 0x0a ∈ held) : held = firstLine held ++ 0x0a :: behindLine held := by
  induction held with
  | nil => exact absurd newline List.not_mem_nil
  | cons c held ih =>
    by_cases here : c = 0x0a
    · subst here
      simp [firstLine, behindLine]
    · rw [firstLine_cons here, behindLine_cons here, List.cons_append, ← ih (List.mem_of_ne_of_mem (Ne.symm here) newline)]

theorem line_last (last : 0x0a ∉ held) : firstLine held = held ∧ behindLine held = [] := by
  have plain : ∀ c ∈ held, decide (c ≠ 0x0a) = true := fun c among => decide_eq_true fun same => last (same ▸ among)
  refine ⟨List.takeWhile_eq_self_iff.mpr plain, ?_⟩
  rw [behindLine, List.dropWhile_eq_nil_iff.mpr plain, List.drop_nil]

/-- The pieces are found one after the other. -/
theorem pieces_eq (held : Str) : pieces held = firstLine held :: if 0x0a ∈ held then pieces (behindLine held) else [] := by
  by_cases newline : 0x0a ∈ held
  · have plain : 0x0a ∉ firstLine held := fun among => by simpa using List.mem_takeWhile_imp among
    rw [if_pos newline, pieces]
    conv_lhs => rw [line_split newline]
    exact List.splitOn_append_cons_self_of_not_mem plain _
  · rw [if_neg newline, (line_last newline).1]
    exact List.splitOn_eq_singleton newline

/-- What is left when some pieces have been read, each with its newline. -/
def left (n : Nat) (held : Str) : Str := held.drop (((pieces held).take n).map fun piece => piece.length + 1).sum

theorem pieces_nil : pieces [] = [[]] := rfl

theorem left_nil (n : Nat) : left n [] = [] := List.drop_nil

theorem drop_line (held : Str) : held.drop ((firstLine held).length + 1) = behindLine held := by
  have split : held = firstLine held ++ held.dropWhile (· ≠ 0x0a) := List.takeWhile_append_dropWhile.symm
  have rest : held.drop (firstLine held).length = held.dropWhile (· ≠ 0x0a) :=
    (congrArg (List.drop (firstLine held).length) split).trans List.drop_left
  rw [← List.drop_drop, rest]
  rfl

theorem left_succ (n : Nat) (held : Str) : left (n + 1) held = left n (behindLine held) := by
  rw [left, pieces_eq, List.take_succ_cons, List.map_cons, List.sum_cons, ← List.drop_drop, drop_line]
  by_cases newline : 0x0a ∈ held
  · rw [if_pos newline, left]
  · rw [if_neg newline, (line_last newline).2, left_nil, List.drop_nil]

theorem getD_pieces_succ (n : Nat) (held : Str) : (pieces held).getD (n + 1) [] = (pieces (behindLine held)).getD n [] := by
  rw [pieces_eq, List.getD_cons_succ]
  by_cases newline : 0x0a ∈ held
  · rw [if_pos newline]
  · rw [if_neg newline, (line_last newline).2, pieces_nil]
    cases n <;> rfl

/-- Each call terminates. They return the pieces in their order, and then empty strings, and
    read no byte beyond. -/
theorem read_line_pieces {σ : Type} [InputStream σ] {R : σ → List UInt8 → Prop} (serves : Serves R) {s : σ} {b : Str}
    (related : R s b) {fuel : Nat} (enough : b.length < 64 * fuel) (n : Nat) :
    ∃ s', readLines fuel n s = .ok ((List.range n).map fun i => some ((pieces b).getD i [])) s' ∧ R s' (left n b) := by
  induction n generalizing s b with
  | zero => exact ⟨s, rfl, related⟩
  | succ n ih =>
    have short : (firstLine b).length ≤ b.length := (List.takeWhile_sublist _).length_le
    have fewer : (behindLine b).length ≤ b.length := ((List.drop_sublist 1 _).trans (List.dropWhile_sublist _)).length_le
    obtain ⟨s₁, first, related₁⟩ := readLine_reads serves (lt_of_le_of_lt short enough) related
    obtain ⟨s₂, rest, related₂⟩ := ih related₁ (lt_of_le_of_lt fewer enough)
    refine ⟨s₂, ?_, ?_⟩
    · have shifted : (fun i => some ((pieces (behindLine b)).getD i [])) = (fun i => some ((pieces b).getD i [])) ∘ Nat.succ :=
        funext fun i => congrArg some (getD_pieces_succ i b).symm
      have head : firstLine b = (pieces b).getD 0 [] := by rw [pieces_eq, List.getD_cons_zero]
      rw [readLines, ok_bind first, ok_bind rest, List.range_succ_eq_map, List.map_cons, List.map_map, ← shifted, head]
      rfl
    · rwa [left_succ]

/-- Three lines, the last one without a newline. -/
theorem read_line_pieces_three : ∃ s', readLines 1 4 (⟨⟨[0x61, 0x0a, 0x0a, 0x62]⟩, 0, 4⟩ : LinearBuffer) =
    .ok [some [0x61], some [], some [0x62], some []] s' ∧ LinearBuffer.Offers s' [] :=
  read_line_pieces LinearBuffer.serves ⟨by decide, by decide, rfl⟩ (by decide) 4

end Oac.Stream
