import Oac.Base.Lockstep

/-!
# Bounded queues

A queue of at most `capacity` elements answers a read with its oldest elements and
stores as much of a write as there is room for. An implementation refines it on a
sequence of operations when it gives every answer and reports what it holds all along.
-/
namespace Oac.Base.Fifo
variable {α σ ε : Type}

inductive Op (α : Type) where
  | read (count : Nat)
  | write (src : List α)

inductive Answer (α : Type) where
  | took (block : List α)
  | stored (count : Nat)
  deriving DecidableEq

def answer (capacity : Nat) (held : List α) : Op α → Answer α
  | .read count => .took (held.take count)
  | .write src => .stored (min src.length (capacity - held.length))

/-- What the queue holds after an operation. -/
def left (capacity : Nat) (held : List α) : Op α → List α
  | .read count => held.drop count
  | .write src => held ++ src.take (capacity - held.length)

/-- The bounded queue itself. It never fails. -/
def queue (ε : Type) (capacity : Nat) (op : Op α) : EStateM ε (List α) (Answer α) := fun held =>
  .ok (answer capacity held op) (left capacity held op)

/-- A state machine offered as a queue. -/
structure Implementation (σ ε α : Type) where
  step : Op α → EStateM ε σ (Answer α)
  availableForRead : σ → Nat
  availableForWrite : σ → Nat

namespace Implementation

/-- The state reports what a queue that holds `held` has and has room for. -/
def Sized (I : Implementation σ ε α) (capacity : Nat) (s : σ) (held : List α) : Prop :=
  I.availableForRead s = held.length ∧ I.availableForWrite s = capacity - held.length

/-- The operations one after the other behave as on a queue that holds `held`. -/
def Refines (I : Implementation σ ε α) (capacity : Nat) (ops : List (Op α)) (s : σ) (held : List α) : Prop :=
  I.Sized capacity s held ∧ Alike (I.Sized capacity) I.step (queue ε capacity) ops s held

/-- An implementation whose operations fail in known cases refines the queue on exactly
    the sequences that avoid them. -/
theorem refines_iff {I : Implementation σ ε α} {capacity : Nat} {fine : σ → Op α → Prop} {R : σ → List α → Prop}
    (compared : Compared R (I.Sized capacity) I.step (queue ε capacity) fine) (ops : List (Op α)) {s : σ}
    {held : List α} (related : R s held) : I.Refines capacity ops s held ↔ Along I.step fine ops s := by
  rw [← compared.alike_iff ops related]
  exact ⟨fun refines => refines.2, fun alike => ⟨compared.weaker related, alike⟩⟩

end Implementation
end Oac.Base.Fifo
