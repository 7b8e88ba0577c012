import Mathlib.Data.List.Basic
import Oac.Base.Program

/-!
# Promises

The shared states of promises and their futures, by the order they were made. A state is
settled once: a promise that is set again raises, and one destroyed before it was set
leaves `brokenPromise`. Promises that are set one after the other, each for the first time,
hold their outcomes afterwards and the other states are unchanged (`settleAll_pending`).
-/
namespace Oac.Base
universe u
variable {ε α : Type u}

/-- What a future gives. -/
inductive FutureResult (ε α : Type u) where
  | value (result : α)
  | exception (e : ε)
  | brokenPromise
  deriving DecidableEq

/-- The shared states, `none` until they are settled. -/
abbrev Shared (ε α : Type u) := List (Option (FutureResult ε α))

/-- `std::future_error`. -/
inductive FutureError : Type u where
  | noState
  | promiseAlreadySatisfied
  deriving DecidableEq

namespace Shared

/-- A new promise; its number is the length before. -/
def make (states : Shared ε α) : Shared ε α := states ++ [none]

/-- Set the value or the exception of a promise. -/
def settle (p : Nat) (outcome : FutureResult ε α) : EStateM FutureError (Shared ε α) PUnit := fun states =>
  match states[p]? with
  | none => .error .noState states
  | some none => .ok ⟨⟩ (states.set p (some outcome))
  | some (some _) => .error .promiseAlreadySatisfied states

def settleAll (outcome : FutureResult ε α) : List Nat → EStateM FutureError (Shared ε α) PUnit
  | [] => pure ⟨⟩
  | p :: promises => do
    settle p outcome
    settleAll outcome promises

/-- The destructor of a promise. -/
def destroy (states : Shared ε α) (p : Nat) : Shared ε α :=
  match states[p]? with
  | some none => states.set p (some .brokenPromise)
  | _ => states

def destroyAll (states : Shared ε α) (promises : List Nat) : Shared ε α := promises.foldl destroy states

variable {states : Shared ε α} {p q : Nat} {outcome : FutureResult ε α} {promises : List Nat}

@[simp] theorem make_new (states : Shared ε α) : states.make[states.length]? = some none := by simp [make]
@[simp] theorem make_length (states : Shared ε α) : states.make.length = states.length + 1 := by simp [make]

theorem make_old (made : p < states.length) : states.make[p]? = states[p]? := List.getElem?_append_left made

theorem lt_length {o : Option (FutureResult ε α)} (made : states[p]? = some o) : p < states.length :=
  (List.getElem?_eq_some_iff.mp made).1

theorem settle_pending (pending : states[p]? = some none) (outcome : FutureResult ε α) :
    settle p outcome states = .ok ⟨⟩ (states.set p (some outcome)) := by
  unfold settle
  rw [pending]

theorem settled (pending : states[p]? = some none) (outcome : FutureResult ε α) (q : Nat) :
    (states.set p (some outcome))[q]? = if q = p then some (some outcome) else states[q]? := by
  by_cases same : q = p
  · rw [if_pos same, same, List.getElem?_set_self (lt_length pending)]
  · rw [if_neg same, List.getElem?_set_ne (Ne.symm same)]

/-- Different promises that are pending are all set. -/
theorem settleAll_pending (distinct : promises.Nodup) (pending : ∀ p ∈ promises, states[p]? = some none)
    (outcome : FutureResult ε α) : ∃ states', settleAll outcome promises states = .ok ⟨⟩ states' ∧
      states'.length = states.length ∧ ∀ q, states'[q]? = if q ∈ promises then some (some outcome) else states[q]? := by
  induction promises generalizing states with
  | nil => exact ⟨states, rfl, rfl, fun q => by simp⟩
  | cons p promises ih =>
    obtain ⟨other, distinct'⟩ := List.nodup_cons.mp distinct
    obtain ⟨here, later⟩ := List.forall_mem_cons.mp pending
    have pending' : ∀ q ∈ promises, (states.set p (some outcome))[q]? = some none := by
      intro q mem
      have ne : q ≠ p := fun same => other (same ▸ mem)
      rw [settled here, if_neg ne]
      exact later q mem
    obtain ⟨states', executed, length, each⟩ := ih distinct' pending'
    refine ⟨states', ?_, length.trans List.length_set, fun q => ?_⟩
    · rw [settleAll, ok_bind (settle_pending here outcome)]
      exact executed
    · rw [each, settled here]
      by_cases mem : q ∈ promises
      · simp [mem]
      · simp [mem]

theorem destroy_settled (kept : states[p]? = some (some outcome)) : states.destroy p = states := by
  unfold destroy
  rw [kept]

theorem destroyAll_settled (kept : ∀ p ∈ promises, states[p]? = some (some outcome)) : states.destroyAll promises = states := by
  induction promises with
  | nil => rfl
  | cons p promises ih =>
    obtain ⟨here, later⟩ := List.forall_mem_cons.mp kept
    rw [destroyAll, List.foldl_cons, destroy_settled here]
    exact ih later

end Shared

/-! ## The shared states within a larger state -/

section
variable {σ ε' β : Type u}

/-- A program on the shared states, in a state that has them as a part. -/
def onShared (view : σ → Shared ε α) (put : Shared ε α → σ → σ) (raised : FutureError → ε')
    (x : EStateM FutureError (Shared ε α) β) : EStateM ε' σ β := fun s =>
  match x (view s) with
  | .ok b states => .ok b (put states s)
  | .error e states => .error (raised e) (put states s)

theorem onShared_ok {view : σ → Shared ε α} {put : Shared ε α → σ → σ} {raised : FutureError → ε'}
    {x : EStateM FutureError (Shared ε α) β} {s : σ} {b : β} {states : Shared ε α} (executed : x (view s) = .ok b states) :
    onShared view put raised x s = .ok b (put states s) := by
  unfold onShared
  rw [executed]

end

end Oac.Base
