import Oac.Client.SubscriptionDb
import Oac.Base.Lockstep

/-!
# The store behind the subscription DB

What the DB of the client is for: a variable has a master subscription and the handlers
subscribed through it, in their order. No two variables share a master, and a variable
with no handler left is not in the store.
-/
namespace Oac.Client

/-- The calls to the DB. `made` is what `make_subscription_id` gives in the call. -/
inductive DbCall where
  | createEntry (varId : VariableId) (masterSubsId : SubscriptionId) (handler : Nat) (made : SubscriptionId)
  | removeEntry (varId : VariableId)
  | addVirtualSubscription (varId : VariableId) (handler : Nat) (made : SubscriptionId)
  | removeVirtualSubscription (virtualSubsId : SubscriptionId)
  | entryDefined (varId : VariableId)
  /-- the overload for variables -/
  | masterOfVariable (varId : VariableId)
  /-- the overload for virtual subscriptions -/
  | masterOfVirtual (virtualSubsId : SubscriptionId)
  | invokeHandlers (masterSubsId : SubscriptionId) (varValue : VariableValue)

/-- What a call returns. `invoke_handlers` shows the invocations it made. -/
inductive DbAnswer where
  | done
  | subscription (id : SubscriptionId)
  | flag (value : Bool)
  | invoked (calls : List (Nat × VariableId × VariableValue))
  deriving DecidableEq

/-- The master subscription of a variable with its virtual subscriptions. -/
structure Slot where
  masterSubsId : SubscriptionId
  virtualSubs : List Subscription
  deriving DecidableEq

/-- The slot without a virtual subscription. -/
def Slot.without (slot : Slot) (id : SubscriptionId) : Slot :=
  { slot with virtualSubs := slot.virtualSubs.filter fun s => s.id ≠ id }

def Slot.Holds (id : SubscriptionId) (slot : Slot) : Prop := id ∈ slot.virtualSubs.map Subscription.id

structure Store where
  slot : VariableId → Option Slot
  distinct : ∀ {v w a b}, slot v = some a → slot w = some b → a.masterSubsId = b.masterSubsId → v = w
  nonempty : ∀ {v a}, slot v = some a → a.virtualSubs ≠ []

namespace Store
open Base

def empty : Store where
  slot := fun _ => none
  distinct := nofun
  nonempty := nofun

/-- The store with a slot for the variable. -/
def put (s : Store) (v : VariableId) (a : Slot) (apart : ∀ w b, s.slot w = some b → b.masterSubsId = a.masterSubsId → w = v)
    (used : a.virtualSubs ≠ []) : Store where
  slot := Function.update s.slot v (some a)
  distinct := by
    intro w w' b b' at_w at_w' same
    by_cases first : w = v <;> by_cases second : w' = v
    · rw [first, second]
    · subst first
      simp only [Function.update_self, Option.some.injEq, Function.update_of_ne second] at at_w at_w'
      subst at_w
      exact (apart w' b' at_w' same.symm).symm
    · subst second
      simp only [Function.update_self, Option.some.injEq, Function.update_of_ne first] at at_w at_w'
      subst at_w'
      exact apart w b at_w same
    · simp only [Function.update_of_ne first, Function.update_of_ne second] at at_w at_w'
      exact s.distinct at_w at_w' same
  nonempty := by
    intro w b at_w
    by_cases here : w = v
    · subst here
      simp only [Function.update_self, Option.some.injEq] at at_w
      exact at_w ▸ used
    · rw [Function.update_of_ne here] at at_w
      exact s.nonempty at_w

/-- The store without the variable. -/
def drop (s : Store) (v : VariableId) : Store where
  slot := Function.update s.slot v none
  distinct := by
    intro w w' b b' at_w at_w' same
    have first : w ≠ v := by
      rintro rfl
      simp at at_w
    have second : w' ≠ v := by
      rintro rfl
      simp at at_w'
    simp only [Function.update_of_ne first, Function.update_of_ne second] at at_w at_w'
    exact s.distinct at_w at_w' same
  nonempty := by
    intro w b at_w
    have here : w ≠ v := by
      rintro rfl
      simp at at_w
    rw [Function.update_of_ne here] at at_w
    exact s.nonempty at_w

@[simp] theorem put_slot (s : Store) (v : VariableId) (a : Slot) (apart used) :
    (s.put v a apart used).slot = Function.update s.slot v (some a) := rfl

@[simp] theorem drop_slot (s : Store) (v : VariableId) : (s.drop v).slot = Function.update s.slot v none := rfl

open Classical in
/-- A variable whose slot has the property, with the slot. -/
noncomputable def find (s : Store) (p : Slot → Prop) : Option (VariableId × Slot) :=
  if found : ∃ entry : VariableId × Slot, s.slot entry.1 = some entry.2 ∧ p entry.2 then some found.choose else none

variable {s : Store} {p : Slot → Prop} {v : VariableId} {a : Slot}

theorem find_some (found : s.find p = some (v, a)) : s.slot v = some a ∧ p a := by
  unfold find at found
  split at found
  · rename_i exist
    have spec := exist.choose_spec
    rw [Option.some.inj found] at spec
    exact spec
  · cases found

theorem find_none (missing : s.find p = none) (here : s.slot v = some a) : ¬ p a := by
  intro holds
  rw [find, dif_pos ⟨(v, a), here, holds⟩] at missing
  cases missing

/-- What only one variable has is found at that variable. -/
theorem find_only (here : s.slot v = some a) (holds : p a) (only : ∀ w b, s.slot w = some b → p b → w = v) :
    s.find p = some (v, a) := by
  cases found : s.find p with
  | some entry =>
    obtain ⟨w, b⟩ := entry
    obtain ⟨there, holds'⟩ := find_some found
    have same := only w b there holds'
    subst same
    rw [Option.some.inj (here.symm.trans there)]
  | none => exact absurd holds (find_none found here)

theorem find_nothing (missing : ∀ v a, s.slot v = some a → ¬ p a) : s.find p = none := by
  cases found : s.find p with
  | some entry =>
    obtain ⟨there, holds⟩ := find_some found
    exact absurd holds (missing _ _ there)
  | none => rfl

/-- What a call does to the store and what it returns. A call that throws leaves the
    store as it is. -/
noncomputable def perform : DbCall → EStateM Exception Store DbAnswer
  | .createEntry v i handler made => fun s =>
    if s.slot v ≠ none then .error (.dbVariableExists v) s
    else match unused : s.find fun a => a.masterSubsId = i with
      | some _ => .error (.dbMasterExists i) s
      | none => .ok (.subscription made) (s.put v ⟨i, [⟨made, handler⟩]⟩
          (fun _ _ there same => absurd same (find_none unused there)) (List.cons_ne_nil _ _))
  | .removeEntry v => fun s =>
    match s.slot v with
    | some _ => .ok .done (s.drop v)
    | none => .error (.dbNoSuchVariable v) s
  | .addVirtualSubscription v handler made => fun s =>
    match here : s.slot v with
    | some a => .ok (.subscription made) (s.put v { a with virtualSubs := a.virtualSubs ++ [⟨made, handler⟩] }
        (fun _ _ there same => s.distinct there here same) (List.append_ne_nil_of_right_ne_nil _ (List.cons_ne_nil _ _)))
    | none => .error (.dbNoSuchVariable v) s
  | .removeVirtualSubscription id => fun s =>
    match found : s.find (Slot.Holds id) with
    | some (v, a) =>
      if last : (a.without id).virtualSubs = [] then .ok (.flag true) (s.drop v)
      else .ok (.flag false) (s.put v (a.without id) (fun _ _ there same => s.distinct there (find_some found).1 same) last)
    | none => .error (.dbNoSuchVirtual id) s
  | .entryDefined v => fun s => .ok (.flag (s.slot v).isSome) s
  | .masterOfVariable v => fun s =>
    match s.slot v with
    | some a => .ok (.subscription a.masterSubsId) s
    | none => .error (.dbNoSuchVariable v) s
  | .masterOfVirtual id => fun s =>
    match s.find (Slot.Holds id) with
    | some (_, a) => .ok (.subscription a.masterSubsId) s
    | none => .error (.dbNoSuchVirtual id) s
  | .invokeHandlers i value => fun s =>
    match s.find fun a => a.masterSubsId = i with
    | some (v, a) => .ok (.invoked (a.virtualSubs.map fun h => (h.handler, v, value))) s
    | none => .error (.dbNoSuchMaster i) s

theorem perform_createEntry {i : SubscriptionId} (handler : Nat) (made : SubscriptionId) (newVariable : s.slot v = none)
    (newMaster : s.find (fun a => a.masterSubsId = i) = none) :
    ∃ s', perform (.createEntry v i handler made) s = .ok (.subscription made) s' ∧
      s'.slot = Function.update s.slot v (some ⟨i, [⟨made, handler⟩]⟩) := by
  simp only [perform]
  rw [if_neg (not_not.mpr newVariable)]
  split
  · rename_i found
    exact absurd (found.symm.trans newMaster) nofun
  · exact ⟨_, rfl, put_slot ..⟩

theorem perform_addVirtualSubscription (handler : Nat) (made : SubscriptionId) (here : s.slot v = some a) :
    ∃ s', perform (.addVirtualSubscription v handler made) s = .ok (.subscription made) s' ∧
      s'.slot = Function.update s.slot v (some ⟨a.masterSubsId, a.virtualSubs ++ [⟨made, handler⟩]⟩) := by
  simp only [perform]
  split
  · rename_i b there
    cases here.symm.trans there
    exact ⟨_, rfl, put_slot ..⟩
  · rename_i missing
    exact absurd (missing.symm.trans here) nofun

theorem perform_removeVirtualSubscription {id : SubscriptionId} (here : s.find (Slot.Holds id) = some (v, a)) :
    ∃ s', perform (.removeVirtualSubscription id) s = .ok (.flag (decide ((a.without id).virtualSubs = []))) s' ∧
      s'.slot = Function.update s.slot v (if (a.without id).virtualSubs = [] then none else some (a.without id)) := by
  simp only [perform]
  split
  · rename_i w b found
    cases here.symm.trans found
    by_cases last : (a.without id).virtualSubs = []
    · rw [dif_pos last, if_pos last, decide_eq_true last]
      exact ⟨_, rfl, drop_slot ..⟩
    · rw [dif_neg last, if_neg last, decide_eq_false last]
      exact ⟨_, rfl, put_slot ..⟩
  · rename_i missing
    exact absurd (missing.symm.trans here) nofun

/-- The id that a call is given is that of no live virtual subscription. -/
def Fresh (s : Store) : DbCall → Prop
  | .createEntry _ _ _ made => ∀ v a, s.slot v = some a → ¬ a.Holds made
  | .addVirtualSubscription _ _ made => ∀ v a, s.slot v = some a → ¬ a.Holds made
  | _ => True

end Store
end Oac.Client
