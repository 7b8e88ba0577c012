import Oac.Base.Region

/-!
# Layouts

What lies in a memory. A list lies at an offset when the memory holds its elements from
there on; lists that are written one after the other lie one behind the other, and what
is written elsewhere does not disturb them.
-/
namespace Oac.Base
variable {α : Type*} {m m' : Nat → α} {offset a : Nat} {data : List α}

/-- The list lies in the memory at the offset. -/
def Lies (m : Nat → α) (offset : Nat) (data : List α) : Prop := region m offset data.length = data

theorem region_add (m : Nat → α) (offset len len' : Nat) :
    region m offset (len + len') = region m offset len ++ region m (offset + len) len' := by
  simp [region, List.range_add, Function.comp_def, Nat.add_assoc]

theorem region_outside {size : Nat} (outside : offset + size ≤ a ∨ a + data.length ≤ offset) :
    region (patch m a data) offset size = region m offset size := by
  refine region_congr fun b after before => patch_outside ?_
  omega

namespace Lies

theorem nil (m : Nat → α) (offset : Nat) : Lies m offset [] := rfl

theorem append_iff {data' : List α} : Lies m offset (data ++ data') ↔ Lies m offset data ∧ Lies m (offset + data.length) data' := by
  unfold Lies
  rw [List.length_append, region_add]
  constructor
  · intro same
    exact List.append_inj same (region_length _ _ _)
  · rintro ⟨first, second⟩
    rw [first, second]

theorem patched (m : Nat → α) (offset : Nat) (data : List α) : Lies (patch m offset data) offset data := region_patch m offset data

/-- What is written elsewhere. -/
theorem beside {data' : List α} (lies : Lies m offset data) (outside : offset + data.length ≤ a ∨ a + data'.length ≤ offset) :
    Lies (patch m a data') offset data := (region_outside outside).trans lies

theorem congr (lies : Lies m offset data) (same : ∀ a, offset ≤ a → a < offset + data.length → m a = m' a) :
    Lies m' offset data := (region_congr same).symm.trans lies

/-- A further list is written behind. -/
theorem extend {data' : List α} (lies : Lies m offset data) (here : a = offset + data.length) :
    Lies (patch m a data') offset (data ++ data') := by
  subst here
  exact append_iff.mpr ⟨lies.beside (.inl le_rfl), patched m _ data'⟩

/-- The pieces of what lies there. -/
theorem piece {skip len : Nat} (lies : Lies m offset data) (within : skip + len ≤ data.length) :
    region m (offset + skip) len = (data.drop skip).take len := by
  rw [← region_piece m within, lies]

end Lies
end Oac.Base
