import Mathlib.Data.List.Induction

/-!
# Latest values

A log of values under keys, and the value that came last under a key. What comes later
hides what came before (`latest_append`).
-/
namespace Oac.Base
universe u v
variable {κ : Type u} {β : Type v} [DecidableEq κ]

/-- The last value under a key. -/
def latest (key : κ) (log : List (κ × β)) : Option β := log.reverse.lookup key

variable {key : κ} {value : β} {log later : List (κ × β)}

theorem latest_append : latest key (log ++ later) = (latest key later).or (latest key log) := by
  rw [latest, List.reverse_append, List.lookup_append]
  rfl

@[simp] theorem latest_self : latest key [(key, value)] = some value := by
  simp [latest]

theorem latest_other (other : ∀ w ∈ log, w.1 ≠ key) : latest key log = none := by
  rw [latest, List.lookup_eq_none_iff]
  intro w among
  simpa using (other w (List.mem_reverse.mp among)).symm

/-- The last value under a key that is not written to. -/
theorem latest_append_other (other : ∀ w ∈ later, w.1 ≠ key) : latest key (log ++ later) = latest key log := by
  rw [latest_append, latest_other other, Option.none_or]

theorem latest_concat_self : latest key (log ++ [(key, value)]) = some value := by
  rw [latest_append, latest_self, Option.some_or]

/-- All writes under a key are of one value. -/
theorem latest_all (some : ∃ w ∈ log, w.1 = key) (same : ∀ w ∈ log, w.1 = key → w.2 = value) : latest key log = .some value := by
  cases found : latest key log with
  | none =>
    obtain ⟨w, among, rfl⟩ := some
    rw [latest, List.lookup_eq_none_iff] at found
    have missing := found w (List.mem_reverse.mpr among)
    simp at missing
  | some x =>
    obtain ⟨before, after, split, -⟩ := List.lookup_eq_some_iff.mp found
    have among : (key, x) ∈ log := by
      rw [← List.mem_reverse, split]
      exact List.mem_append_right _ List.mem_cons_self
    rw [show x = value from same _ among rfl]

/-- The latest value is the last of those under the key. -/
theorem latest_eq_getLast? : latest key log = ((log.filter fun w => w.1 = key).map Prod.snd).getLast? := by
  induction log using List.reverseRecOn with
  | nil => rfl
  | append_singleton log w ih =>
    rw [latest_append, List.filter_append, List.map_append, List.getLast?_append, ← ih]
    congr 1
    obtain ⟨k, x⟩ := w
    by_cases here : k = key
    · subst here
      simp
    · rw [latest_other (by simpa using here)]
      simp [here]

end Oac.Base
