import Mathlib.Data.Set.Insert

/-!
# Watching a memory

A watch polls the observed keys of a memory. It is due to tell a key that it was asked
for since the last poll, and one under which the memory holds something else than what
the watch has read last.
-/
namespace Oac.Base
variable {κ ν : Type*}

structure Watch (κ ν : Type*) where
  observed : Set κ
  /-- asked for since the last poll -/
  welcome : Set κ
  /-- what was read last -/
  seen : κ → Option ν

namespace Watch

def idle : Watch κ ν := ⟨∅, ∅, fun _ => none⟩

open Classical in
/-- What has been read last, after some keys are read. -/
noncomputable def reading (memory : κ → ν) (keys : Set κ) (seen : κ → Option ν) : κ → Option ν :=
  fun k => if k ∈ keys then some (memory k) else seen k

noncomputable def start (memory : κ → ν) (keys : Set κ) (w : Watch κ ν) : Watch κ ν :=
  ⟨w.observed ∪ keys, w.welcome ∪ keys, reading memory keys w.seen⟩

def stop (k : κ) (w : Watch κ ν) : Watch κ ν := { w with observed := w.observed \ {k} }

/-- The keys to tell. -/
def due (memory : κ → ν) (w : Watch κ ν) : Set κ :=
  { k | k ∈ w.observed ∧ (k ∈ w.welcome ∨ w.seen k ≠ some (memory k)) }

noncomputable def poll (memory : κ → ν) (w : Watch κ ν) : Watch κ ν :=
  ⟨w.observed, ∅, reading memory w.observed w.seen⟩

/-- Every observed key has been read. -/
def Primed (w : Watch κ ν) : Prop := ∀ k ∈ w.observed, (w.seen k).isSome

variable {memory : κ → ν} {keys : Set κ} {w : Watch κ ν} {k : κ}

theorem reading_of_mem (member : k ∈ keys) (seen : κ → Option ν) : reading memory keys seen k = some (memory k) :=
  if_pos member

theorem reading_of_notMem (other : k ∉ keys) (seen : κ → Option ν) : reading memory keys seen k = seen k :=
  if_neg other

theorem idle_primed : (idle : Watch κ ν).Primed := fun _ member => member.elim

theorem Primed.start (primed : w.Primed) : (w.start memory keys).Primed := by
  intro k member
  by_cases asked : k ∈ keys
  · exact Option.isSome_iff_exists.mpr ⟨_, reading_of_mem asked _⟩
  · show (reading memory keys w.seen k).isSome
    rw [reading_of_notMem asked]
    exact primed k (member.resolve_right asked)

theorem Primed.stop (primed : w.Primed) : (w.stop k).Primed := fun j member => primed j member.1

theorem poll_primed : (w.poll memory).Primed :=
  fun _ member => Option.isSome_iff_exists.mpr ⟨_, reading_of_mem member _⟩

end Watch
end Oac.Base
