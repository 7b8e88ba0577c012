import Oac.Base.Cyclic

/-!
# Regions of a memory

A memory is a function of the address. `region` lists what it holds from an offset on, and
`patch` writes a list there. A list that is a region of a memory is read and written as
the memory is (`region_piece`, `overwrite_region`).
-/
namespace Oac.Base
variable {α : Type*} {m m' : Nat → α} {offset len a : Nat} {data : List α}

def region (m : Nat → α) (offset len : Nat) : List α := (List.range len).map fun i => m (offset + i)

def patch (m : Nat → α) (offset : Nat) (data : List α) (a : Nat) : α :=
  if offset ≤ a then (data[a - offset]?).getD (m a) else m a

@[simp] theorem region_length (m : Nat → α) (offset len : Nat) : (region m offset len).length = len := by simp [region]

@[simp] theorem region_getElem (i : Nat) (within : i < (region m offset len).length) :
    (region m offset len)[i] = m (offset + i) := by simp [region]

@[simp] theorem region_one (m : Nat → α) (offset : Nat) : region m offset 1 = [m offset] := rfl

theorem region_congr (same : ∀ a, offset ≤ a → a < offset + len → m a = m' a) : region m offset len = region m' offset len := by
  refine List.map_congr_left fun i among => ?_
  have := List.mem_range.mp among
  exact same _ (by omega) (by omega)

theorem patch_outside (outside : a < offset ∨ offset + data.length ≤ a) : patch m offset data a = m a := by
  unfold patch
  split
  · rw [List.getElem?_eq_none (by omega), Option.getD_none]
  · rfl

theorem patch_inside (m : Nat → α) (offset : Nat) (i : Nat) (within : i < data.length) :
    patch m offset data (offset + i) = data[i] := by
  rw [patch, if_pos (Nat.le_add_right _ _), Nat.add_sub_cancel_left, List.getElem?_eq_getElem within, Option.getD_some]

/-- A region of one memory that is written over another. -/
theorem patch_region (after : offset ≤ a) (before : a < offset + len) : patch m offset (region m' offset len) a = m' a := by
  obtain ⟨i, rfl⟩ := Nat.exists_eq_add_of_le after
  rw [patch_inside m offset i (by rw [region_length]; omega), region_getElem]

theorem region_succ (m : Nat → α) (offset len : Nat) : region m offset (len + 1) = m offset :: region m (offset + 1) len := by
  simp [region, List.range_succ_eq_map, Function.comp_def, Nat.add_comm, Nat.add_left_comm]

theorem patch_nil (m : Nat → α) (offset : Nat) : patch m offset [] = m := by
  funext a
  exact patch_outside (by simp; omega)

theorem patch_cons (m : Nat → α) (offset : Nat) (v : α) (data : List α) :
    patch m offset (v :: data) = Function.update (patch m (offset + 1) data) offset v := by
  funext a
  by_cases here : a = offset
  · subst here
    rw [Function.update_self]
    exact patch_inside m a 0 (by simp)
  · rw [Function.update_of_ne here]
    by_cases before : a < offset
    · rw [patch_outside (.inl before), patch_outside (.inl (by omega))]
    · unfold patch
      rw [if_pos (by omega), if_pos (by omega), show a - offset = a - (offset + 1) + 1 by omega, List.getElem?_cons_succ]

theorem patch_one (m : Nat → α) (offset : Nat) (v : α) : patch m offset [v] = Function.update m offset v := by
  rw [patch_cons, patch_nil]

/-- What was written is there. -/
theorem region_patch (m : Nat → α) (offset : Nat) (data : List α) : region (patch m offset data) offset data.length = data := by
  apply List.ext_getElem
  · exact region_length _ _ _
  · intro i _ within
    rw [region_getElem, patch_inside m offset i within]

/-! ## Shifts -/

theorem region_shift (m : Nat → α) (base offset len : Nat) :
    region (fun a => m (base + a)) offset len = region m (base + offset) len := by
  simp [region, Nat.add_assoc]

theorem patch_shift (m : Nat → α) (base offset : Nat) (data : List α) :
    (fun a => patch m (base + offset) data (base + a)) = patch (fun a => m (base + a)) offset data := by
  funext a
  simp [patch, Nat.add_sub_add_left]

/-! ## Lists that are regions -/

/-- A piece of a region is a region. -/
theorem region_piece (m : Nat → α) {base size : Nat} (within : offset + len ≤ size) :
    ((region m base size).drop offset).take len = region m (base + offset) len := by
  apply List.ext_getElem
  · simp
    omega
  · intro i _ _
    simp [Nat.add_assoc]

/-- To overwrite a region is to patch the memory. -/
theorem overwrite_region (m : Nat → α) {base size : Nat} (within : offset + data.length ≤ size) :
    overwrite (region m base size) offset data = region (patch m (base + offset) data) base size := by
  have room : offset + data.length ≤ (region m base size).length := by simpa using within
  apply List.ext_getElem
  · rw [overwrite_length room, region_length, region_length]
  · intro i _ _
    have front : min offset size = offset := by omega
    rw [region_getElem]
    by_cases before : i < offset
    · rw [patch_outside (.inl (by omega))]
      simp [overwrite, List.getElem_append, before]
      omega
    · by_cases inside : i - offset < data.length
      · rw [show base + i = base + offset + (i - offset) by omega, patch_inside m _ _ inside]
        simp [overwrite, List.getElem_append, before, inside, front]
      · have place : offset + data.length + (i - offset - data.length) = i := by omega
        rw [patch_outside (.inr (by omega))]
        simp [overwrite, List.getElem_append, before, inside, front, place]

end Oac.Base
