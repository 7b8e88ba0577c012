import Oac.Base.Program
import Oac.Errors
import Mathlib.Data.Set.Insert

/-!
# The FlightVars interface

An implementation is a type of states with the three operations. What it owes its users
comes in three steps: that its subscriptions are accounted for (`FlightVars.Ledger`), that
nothing but the declared exceptions is raised (`FlightVars.Accountable`), and that an update
is for a live subscription (`FlightVars.Lawful`).
-/
namespace Oac
open Base

class FlightVars (δ : Type) where
  subscribe : VariableId → EStateM Exception δ SubscriptionId
  unsubscribe : SubscriptionId → EStateM Exception δ Unit
  update : SubscriptionId → VariableValue → EStateM Exception δ Unit

namespace FlightVars

/-- What the subscriptions of an implementation are accounted by: a new one has an id that
    no live one has, only an unsubscription ends one, and an update leaves them as they
    are. What a subscription that fails leaves behind is open. -/
structure Ledger {δ : Type} [FlightVars δ] (live : δ → Set SubscriptionId) : Prop where
  subscribe_fresh : ∀ {v d id d'}, subscribe v d = .ok id d' → id ∉ live d ∧ live d' = insert id (live d)
  unsubscribe_live : ∀ {id d}, id ∈ live d → ∃ d', unsubscribe id d = .ok () d' ∧ live d' = live d \ {id}
  unsubscribe_dead : ∀ {id d}, id ∉ live d → ∃ d', unsubscribe id d = .error (.noSuchSubscription id) d' ∧
    live d' = live d
  update_kept : ∀ {id x} {d : δ}, live (after (update id x d)) = live d

/-- A ledger whose operations raise what the interface declares. An update may pass without
    effect, as it does in the core for an id that it does not know. -/
structure Accountable {δ : Type} [FlightVars δ] (live : δ → Set SubscriptionId) : Prop extends Ledger live where
  subscribe_refused : ∀ {v e d} {d' : δ}, subscribe v d = .error e d' → e = .noSuchVariable v ∧ live d' = live d
  update_refused : ∀ {id x e d} {d' : δ}, update id x d = .error e d' →
    e = .noSuchSubscription id ∨ e = .illegalValue id

/-- The interface as it is documented: an update is for a live subscription. A master of the
    core may keep to it; the core itself does not. -/
structure Lawful {δ : Type} [FlightVars δ] (live : δ → Set SubscriptionId) : Prop extends Accountable live where
  update_done : ∀ {id x d} {d' : δ}, update id x d = .ok () d' → id ∈ live d

section
variable {δ : Type} [FlightVars δ] {live : δ → Set SubscriptionId}

theorem Ledger.unsubscribe_done (ledger : Ledger live) {id : SubscriptionId} {a : Unit} {d d' : δ}
    (executed : unsubscribe id d = .ok a d') : id ∈ live d ∧ live d' = live d \ {id} := by
  by_cases alive : id ∈ live d
  · obtain ⟨d'', executed', less⟩ := ledger.unsubscribe_live alive
    rw [executed] at executed'
    cases executed'
    exact ⟨alive, less⟩
  · obtain ⟨d'', raised, -⟩ := ledger.unsubscribe_dead alive
    rw [executed] at raised
    cases raised

theorem Ledger.unsubscribe_refused (ledger : Ledger live) {id : SubscriptionId} {e : Exception} {d d' : δ}
    (raised : unsubscribe id d = .error e d') : id ∉ live d ∧ live d' = live d := by
  by_cases alive : id ∈ live d
  · obtain ⟨d'', executed, -⟩ := ledger.unsubscribe_live alive
    rw [raised] at executed
    cases executed
  · obtain ⟨d'', raised', same⟩ := ledger.unsubscribe_dead alive
    rw [raised] at raised'
    cases raised'
    exact ⟨alive, same⟩

theorem Ledger.updated (ledger : Ledger live) {id : SubscriptionId} {x : VariableValue} {d : δ}
    {result : EStateM.Result Exception δ Unit} (same : update id x d = result) : live (after result) = live d :=
  same ▸ ledger.update_kept

end

/-! ## A registry -/

/-- An implementation that keeps the ids of its live subscriptions, the latest first. -/
structure Registry where
  ids : List SubscriptionId
  unique : ids.Nodup

namespace Registry

def empty : Registry := ⟨[], List.nodup_nil⟩

/-- The id after the latest one. -/
def next (r : Registry) : SubscriptionId := r.ids.headD 0 + 1

instance : FlightVars Registry where
  subscribe v := fun r =>
    if used : r.next ∈ r.ids then .error (.noSuchVariable v) r
    else .ok r.next ⟨r.next :: r.ids, List.nodup_cons.mpr ⟨used, r.unique⟩⟩
  unsubscribe id := fun r =>
    if id ∈ r.ids then .ok () ⟨r.ids.erase id, r.unique.erase id⟩ else .error (.noSuchSubscription id) r
  update id _ := fun r => if id ∈ r.ids then .ok () r else .error (.noSuchSubscription id) r

def live (r : Registry) : Set SubscriptionId := { id | id ∈ r.ids }

theorem lawful : Lawful live where
  subscribe_fresh := by
    intro v r id r' executed
    simp only [subscribe] at executed
    split at executed
    · cases executed
    · rename_i unused
      cases executed
      exact ⟨unused, Set.ext fun i => List.mem_cons.trans or_comm |>.trans or_comm⟩
  subscribe_refused := by
    intro v e r r' refused
    simp only [subscribe] at refused
    split at refused
    · cases refused
      exact ⟨rfl, rfl⟩
    · cases refused
  unsubscribe_live := by
    intro id r member
    refine ⟨⟨r.ids.erase id, r.unique.erase id⟩, if_pos member, Set.ext fun i => ?_⟩
    exact (r.unique.mem_erase_iff).trans and_comm
  unsubscribe_dead := by
    intro id r missing
    exact ⟨r, if_neg missing, rfl⟩
  update_kept := by
    intro id x r
    simp only [update]
    split <;> rfl
  update_refused := by
    intro id x e r r' refused
    simp only [update] at refused
    split at refused
    · cases refused
    · cases refused
      exact .inl rfl
  update_done := by
    intro id x r r' executed
    simp only [update] at executed
    split at executed
    · assumption
    · cases executed

end Registry
end FlightVars
end Oac
