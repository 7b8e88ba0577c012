import Mathlib.Data.List.Basic

/-!
# Histories

A history is what has happened, the first thing first. It is ordered when everything in it
was allowed by what had happened before.
-/
namespace Oac.Base
variable {α : Type}

def Ordered (allowed : List α → α → Prop) (log : List α) : Prop :=
  ∀ before event later, log = before ++ event :: later → allowed before event

variable {allowed : List α → α → Prop} {log : List α}

theorem ordered_nil : Ordered allowed [] := by
  intro before event later split
  exact absurd split.symm (List.append_ne_nil_of_right_ne_nil _ (List.cons_ne_nil _ _))

/-- One more thing happens. -/
theorem Ordered.concat (ordered : Ordered allowed log) {event : α} (now : allowed log event) :
    Ordered allowed (log ++ [event]) := by
  intro before event' later split
  rcases List.eq_nil_or_concat later with rfl | ⟨later, last, rfl⟩
  · obtain ⟨rfl, same⟩ := List.append_inj' split rfl
    cases same
    exact now
  · rw [List.concat_eq_append, ← List.cons_append, ← List.append_assoc] at split
    obtain ⟨split, -⟩ := List.append_inj' split rfl
    exact ordered before event' later split

/-- Several things happen one after another. -/
theorem Ordered.extend (ordered : Ordered allowed log) {events : List α}
    (now : ∀ before event later, events = before ++ event :: later → allowed (log ++ before) event) :
    Ordered allowed (log ++ events) := by
  induction events generalizing log with
  | nil => rwa [List.append_nil]
  | cons event events ih =>
    have first : Ordered allowed (log ++ [event]) := ordered.concat (by simpa using now [] event events rfl)
    rw [List.append_cons]
    refine ih first fun before event' later split => ?_
    rw [List.append_assoc]
    exact now (event :: before) event' later (congrArg (event :: ·) split)

/-- Things happen that are always allowed. -/
theorem Ordered.append (ordered : Ordered allowed log) {events : List α}
    (always : ∀ event ∈ events, ∀ before, allowed before event) : Ordered allowed (log ++ events) := by
  refine ordered.extend fun before event later split => always event ?_ _
  rw [split]
  exact List.mem_append_right _ List.mem_cons_self

end Oac.Base
