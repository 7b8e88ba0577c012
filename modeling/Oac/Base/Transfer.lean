import Mathlib.Order.Basic

/-!
# Short writes

A write is offered a block and takes a beginning of it. What a sequence of writes has put
out is all that was offered exactly when every write took its whole block.
-/
namespace Oac.Base
variable {α : Type}

/-- A block and how much of it was taken. -/
structure Transfer (α : Type) where
  offered : List α
  count : Nat

namespace Transfer

def taken (t : Transfer α) : List α := t.offered.take t.count

def Whole (t : Transfer α) : Prop := t.count = t.offered.length

theorem taken_length_le (t : Transfer α) : t.taken.length ≤ t.offered.length := by
  rw [taken, List.length_take]
  exact Nat.min_le_right _ _

theorem taken_whole {t : Transfer α} (whole : t.Whole) : t.taken = t.offered := by
  rw [taken, whole, List.take_length]

theorem flatMap_taken_length_le (ts : List (Transfer α)) : (ts.flatMap taken).length ≤ (ts.flatMap offered).length := by
  induction ts with
  | nil => exact Nat.le_refl _
  | cons t ts ih =>
    simp only [List.flatMap_cons, List.length_append]
    exact Nat.add_le_add t.taken_length_le ih

/-- Nothing makes up for a short write. -/
theorem flatMap_taken_iff (ts : List (Transfer α)) (within : ∀ t ∈ ts, t.count ≤ t.offered.length) :
    ts.flatMap taken = ts.flatMap offered ↔ ∀ t ∈ ts, t.Whole := by
  induction ts with
  | nil => simp
  | cons t ts ih =>
    have rest := ih fun t' among => within t' (List.mem_cons_of_mem _ among)
    rw [List.flatMap_cons, List.flatMap_cons, List.forall_mem_cons, ← rest]
    constructor
    · intro same
      have sizes := congrArg List.length same
      simp only [List.length_append] at sizes
      have first := t.taken_length_le
      have later := flatMap_taken_length_le ts
      have all : t.taken.length = t.offered.length := by omega
      refine ⟨?_, (List.append_inj same all).2⟩
      have bound := within t List.mem_cons_self
      rw [taken, List.length_take] at all
      show t.count = _
      omega
    · rintro ⟨whole, same⟩
      rw [taken_whole whole, same]

end Transfer
end Oac.Base
