import Mathlib.Data.List.Infix

/-!
# Splitting at a word

A list is split at the occurrences of a word, from left to right and without overlaps. No
piece contains the word (`not_mem_split`), and pieces that do not contain it are found again
behind their separators, if the word cannot begin in a piece and end in a separator
(`split_cons`).
-/
namespace Oac.Base
variable {α : Type*} [DecidableEq α]

/-- While `skip` is not 0 the rest of an occurrence is passed over. -/
def splitAux (word : List α) : Nat → List α → List (List α)
  | _, [] => [[]]
  | skip + 1, _ :: s => splitAux word skip s
  | 0, c :: s =>
    if word <+: c :: s then [] :: splitAux word (word.length - 1) s else (splitAux word 0 s).modifyHead (c :: ·)

/-- The pieces between the occurrences of a word. -/
def split (word s : List α) : List (List α) := splitAux word 0 s

variable {word s x : List α}

theorem splitAux_skip (word : List α) (skip : Nat) (s : List α) : splitAux word skip s = split word (s.drop skip) := by
  induction skip generalizing s with
  | zero => rfl
  | succ skip ih =>
    cases s with
    | nil => rfl
    | cons c s => exact ih s

theorem split_step (c : α) (s : List α) : split word (c :: s) =
    if word <+: c :: s then [] :: split word (s.drop (word.length - 1)) else (split word s).modifyHead (c :: ·) := by
  unfold split
  rw [splitAux]
  split
  · rw [splitAux_skip]
    rfl
  · rfl

/-- An occurrence at the beginning ends an empty piece. -/
theorem split_word (nonempty : word ≠ []) (s : List α) : split word (word ++ s) = [] :: split word s := by
  obtain ⟨c, word', rfl⟩ := List.exists_cons_of_ne_nil nonempty
  have begins : c :: word' <+: c :: (word' ++ s) := List.prefix_append (c :: word') s
  rw [List.cons_append, split_step, if_pos begins]
  simp

theorem split_absent (absent : ¬ word <:+: s) : split word s = [s] := by
  induction s with
  | nil => rfl
  | cons c s ih =>
    rw [split_step, if_neg fun begins => absent begins.isInfix,
      ih fun within => absent (within.trans (List.suffix_cons c s).isInfix)]
    rfl

omit [DecidableEq α] in
theorem front_begins (x s : List α) : x ++ word.dropLast <+: x ++ word ++ s := by
  rw [List.append_assoc, List.prefix_append_right_inj]
  exact (List.dropLast_prefix word).trans (List.prefix_append word s)

/-- A piece before an occurrence, with no earlier one that overlaps it. -/
theorem split_cons (nonempty : word ≠ []) (clear : ¬ word <:+: x ++ word.dropLast) (s : List α) :
    split word (x ++ word ++ s) = x :: split word s := by
  induction x with
  | nil => exact split_word nonempty s
  | cons c x ih =>
    have later : ¬ word <:+: x ++ word.dropLast := fun within => clear (within.trans (List.suffix_cons c _).isInfix)
    have other : ¬ word <+: c :: (x ++ word ++ s) := by
      intro begins
      have short : word.length ≤ (c :: x ++ word.dropLast).length := by
        rw [List.length_append, List.length_cons, List.length_dropLast]
        omega
      exact clear (List.prefix_of_prefix_length_le begins (front_begins (c :: x) s) short).isInfix
    rw [List.cons_append, List.cons_append, split_step, if_neg other, ih later]
    rfl

/-- The first occurrence of a word. -/
theorem exists_first (nonempty : word ≠ []) (within : word <:+: s) :
    ∃ x rest, s = x ++ word ++ rest ∧ ¬ word <:+: x ++ word.dropLast := by
  induction s with
  | nil => exact absurd (List.infix_nil.mp within) nonempty
  | cons c s ih =>
    by_cases begins : word <+: c :: s
    · obtain ⟨rest, same⟩ := begins
      refine ⟨[], rest, same.symm, fun within => ?_⟩
      have longer := within.length_le
      have positive := List.length_pos_of_ne_nil nonempty
      rw [List.nil_append, List.length_dropLast] at longer
      omega
    · obtain ⟨x, rest, rfl, clear⟩ := ih ((List.infix_cons_iff.mp within).resolve_left begins)
      refine ⟨c :: x, rest, rfl, fun within => ?_⟩
      rcases List.infix_cons_iff.mp within with begins' | later
      · exact absurd (begins'.trans (front_begins (c :: x) rest)) begins
      · exact clear later

/-- The first piece of a list that contains the word. -/
theorem split_first (nonempty : word ≠ []) (within : word <:+: s) :
    ∃ x rest, s = x ++ word ++ rest ∧ ¬ word <:+: x ∧ split word s = x :: split word rest := by
  obtain ⟨x, rest, rfl, clear⟩ := exists_first nonempty within
  exact ⟨x, rest, rfl, fun within => clear (within.trans (List.prefix_append x _).isInfix), split_cons nonempty clear rest⟩

/-- No piece contains the word. -/
theorem not_mem_split (nonempty : word ≠ []) (s : List α) : ∀ x ∈ split word s, ¬ word <:+: x := by
  induction length : s.length using Nat.strong_induction_on generalizing s with
  | _ n ih =>
    by_cases within : word <:+: s
    · obtain ⟨x, rest, rfl, absent, same⟩ := split_first nonempty within
      have positive := List.length_pos_of_ne_nil nonempty
      rw [same]
      refine List.forall_mem_cons.mpr ⟨absent, ih rest.length ?_ rest rfl⟩
      rw [← length, List.length_append, List.length_append]
      omega
    · rw [split_absent within]
      simpa using within

theorem split_length_pos (word s : List α) (nonempty : word ≠ []) : 0 < (split word s).length := by
  by_cases within : word <:+: s
  · obtain ⟨x, rest, -, -, same⟩ := split_first nonempty within
    rw [same]
    exact Nat.succ_pos _
  · rw [split_absent within]
    exact Nat.one_pos

/-- Only a list that contains the word is split. -/
theorem split_length_iff (nonempty : word ≠ []) : 1 < (split word s).length ↔ word <:+: s := by
  by_cases within : word <:+: s
  · refine iff_of_true ?_ within
    obtain ⟨x, rest, -, -, same⟩ := split_first nonempty within
    rw [same, List.length_cons]
    have := split_length_pos word rest nonempty
    omega
  · refine iff_of_false ?_ within
    rw [split_absent within, List.length_singleton]
    exact lt_irrefl 1

omit [DecidableEq α] in
/-- A change that neither moves nor makes the letters of a word keeps where it begins. -/
theorem prefix_map_iff {f : α → α} (kept : ∀ c ∈ word, ∀ d, f d = c ↔ d = c) : word <+: s.map f ↔ word <+: s := by
  induction word generalizing s with
  | nil => simp
  | cons c word ih =>
    cases s with
    | nil => simp
    | cons d s =>
      have same := kept c List.mem_cons_self d
      rw [List.map_cons, List.cons_prefix_cons, List.cons_prefix_cons, ih fun c' mem => kept c' (List.mem_cons_of_mem c mem),
        eq_comm, same, eq_comm]

omit [DecidableEq α] in
theorem infix_map_iff {f : α → α} (kept : ∀ c ∈ word, ∀ d, f d = c ↔ d = c) : word <:+: s.map f ↔ word <:+: s := by
  induction s with
  | nil => rfl
  | cons d s ih => rw [List.map_cons, List.infix_cons_iff, List.infix_cons_iff, ih, ← List.map_cons, prefix_map_iff kept]

end Oac.Base
