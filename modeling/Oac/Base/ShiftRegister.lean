import Mathlib.Data.List.Basic

/-!
# Shift registers

Values are shifted in at the front of a list of fixed length, and as many fall out at its
end. After a sequence of them the register holds the last ones, the newest first.
-/
namespace Oac.Base
universe u
variable {α : Type u}

def shiftIn (register : List α) (a : α) : List α := (a :: register).take register.length

@[simp] theorem shiftIn_length (register : List α) (a : α) : (shiftIn register a).length = register.length := by
  simp [shiftIn]

/-- What a sequence leaves of the old content. -/
theorem foldl_shiftIn (sequence register : List α) :
    sequence.foldl shiftIn register = (sequence.reverse ++ register).take register.length := by
  induction sequence generalizing register with
  | nil => simp
  | cons a sequence ih =>
    rw [List.foldl_cons, ih, shiftIn_length, shiftIn, List.reverse_cons, List.append_assoc, List.singleton_append]
    rw [List.take_append, List.take_append, List.take_take]
    congr 2
    omega

theorem foldl_shiftIn_length (sequence register : List α) : (sequence.foldl shiftIn register).length = register.length := by
  rw [foldl_shiftIn]
  simp

end Oac.Base
