import Mathlib.Data.List.Basic

/-!
# What is let go

A sequence of samples, some of them idle. At an idle sample that follows one that is not,
the one before is reported: the last sample of each block that has come to its end.
-/
namespace Oac.Base
variable {α : Type*} (idle : α → Bool)

/-- The samples that are reported, after a sample that was taken before. -/
def released (last : α) : List α → List α
  | [] => []
  | a :: samples => if idle a ∧ ¬ idle last then last :: released a samples else released a samples

/-- The last sample of each block that an idle sample has ended. -/
def blockEnds (samples : List α) : List α := (samples.splitOnP idle).dropLast.filterMap List.getLast?

variable {idle}

theorem blockEnds_cons_idle {a : α} (rests : idle a) (samples : List α) : blockEnds idle (a :: samples) = blockEnds idle samples := by
  rw [blockEnds, List.splitOnP_cons_eq_if_modifyHead, if_pos rests, List.dropLast_cons_of_ne_nil (List.splitOnP_ne_nil _ _)]
  rfl

/-- A block of one sample. -/
theorem blockEnds_cons_cons_idle {last a : α} (pressed : ¬ idle last) (rests : idle a) (samples : List α) :
    blockEnds idle (last :: a :: samples) = last :: blockEnds idle samples := by
  obtain ⟨block, blocks, split⟩ := List.exists_cons_of_ne_nil (List.splitOnP_ne_nil idle samples)
  simp [blockEnds, List.splitOnP_cons_eq_if_modifyHead, pressed, rests, split]

/-- A block that goes on. -/
theorem blockEnds_cons_cons {last a : α} (pressed : ¬ idle last) (still : ¬ idle a) (samples : List α) :
    blockEnds idle (last :: a :: samples) = blockEnds idle (a :: samples) := by
  obtain ⟨block, blocks, split⟩ := List.exists_cons_of_ne_nil (List.splitOnP_ne_nil idle samples)
  cases blocks with
  | nil => simp [blockEnds, List.splitOnP_cons_eq_if_modifyHead, pressed, still, split]
  | cons next blocks =>
    have same : (last :: a :: block).getLast? = (a :: block).getLast? := List.getLast?_cons_cons
    simp [blockEnds, List.splitOnP_cons_eq_if_modifyHead, pressed, still, split, List.filterMap_cons, same]

theorem released_cases (last : α) (samples : List α) :
    released idle last samples = if idle last then blockEnds idle samples else blockEnds idle (last :: samples) := by
  induction samples generalizing last with
  | nil =>
    split_ifs with rests
    · rfl
    · simp [blockEnds, released, List.splitOnP_cons_eq_if_modifyHead, rests]
  | cons a samples ih =>
    rw [released, ih]
    by_cases rests : idle last
    · rw [if_neg (by simp [rests]), if_pos rests]
      split_ifs with again
      · rw [blockEnds_cons_idle again]
      · rfl
    · by_cases again : idle a
      · rw [if_pos ⟨again, rests⟩, if_pos again, if_neg rests, blockEnds_cons_cons_idle rests again]
      · rw [if_neg (by simp [again]), if_neg again, if_neg rests, blockEnds_cons_cons rests again]

/-- From an idle sample on, exactly the ends of the blocks are reported. -/
theorem released_eq {last : α} (rests : idle last) (samples : List α) : released idle last samples = blockEnds idle samples := by
  rw [released_cases, if_pos rests]

end Oac.Base
