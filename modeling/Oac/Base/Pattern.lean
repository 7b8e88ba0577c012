import Mathlib.Data.List.Infix

/-!
# Patterns

Patterns of plain words, of runs of characters of a class, and of optional characters. A
run is as long as what follows it allows; of two places where a pattern matches the first
one is found. A match is the list of what its pieces have matched.
-/
namespace Oac.Base
variable {α : Type*}

inductive Piece (α : Type*) where
  /-- plain characters -/
  | text (word : List α)
  /-- one or more of a class -/
  | many (among : α → Bool)
  /-- a character or nothing -/
  | option (c : α)

namespace Piece

/-- The longest part of `s`, of at most the given length, after which the rest matches. -/
def expand (rest : List α → Option (List (List α))) (s : List α) : Nat → Option (List (List α))
  | 0 => none
  | n + 1 =>
    match rest (s.drop (n + 1)) with
    | some found => some (s.take (n + 1) :: found)
    | none => expand rest s n

variable [DecidableEq α]

/-- The match of a pattern at the beginning of a string. -/
def matchHere : List (Piece α) → List α → Option (List (List α))
  | [], _ => some []
  | .text word :: pieces, s => if word <+: s then (matchHere pieces (s.drop word.length)).map (word :: ·) else none
  | .many among :: pieces, s => expand (matchHere pieces) s (s.takeWhile among).length
  | .option c :: pieces, s =>
    match if [c] <+: s then matchHere pieces (s.drop 1) else none with
    | some found => some ([c] :: found)
    | none => (matchHere pieces s).map ([] :: ·)

/-- The first match of a pattern. -/
def search (pieces : List (Piece α)) : List α → Option (List (List α))
  | [] => matchHere pieces []
  | c :: s =>
    match matchHere pieces (c :: s) with
    | some found => some found
    | none => search pieces s

variable {pieces : List (Piece α)} {s : List α} {found : List (List α)}

@[simp] theorem matchHere_nil : matchHere [] s = some [] := rfl

@[simp] theorem matchHere_text (word : List α) :
    matchHere (.text word :: pieces) (word ++ s) = (matchHere pieces s).map (word :: ·) := by
  simp [matchHere]

/-- A run ends where the class ends, if what follows matches there. -/
theorem matchHere_many {among : α → Bool} {run : List α} (some : run ≠ []) (all : ∀ c ∈ run, among c)
    (ends : ∀ c ∈ s.head?, ¬ among c) (follows : matchHere pieces s = .some found) :
    matchHere (.many among :: pieces) (run ++ s) = .some (run :: found) := by
  have longest : ((run ++ s).takeWhile among) = run := by
    rw [List.takeWhile_append_of_pos all]
    cases s with
    | nil => simp
    | cons c s =>
      have other : ¬ among c := ends c rfl
      simp [other]
  obtain ⟨n, length⟩ : ∃ n, run.length = n + 1 := Nat.exists_eq_succ_of_ne_zero (by simpa using some)
  simp only [matchHere, longest, length, expand]
  rw [← length]
  simp [follows]

@[simp] theorem matchHere_option_some (c : α) (follows : matchHere pieces s = some found) :
    matchHere (.option c :: pieces) (c :: s) = some ([c] :: found) := by
  simp [matchHere, follows]

theorem matchHere_option_none {c : α} (other : ∀ d ∈ s.head?, d ≠ c) :
    matchHere (.option c :: pieces) s = (matchHere pieces s).map ([] :: ·) := by
  have missing : ¬ [c] <+: s := by
    cases s with
    | nil => simp
    | cons d s =>
      have : d ≠ c := other d rfl
      simpa [List.cons_prefix_cons] using this.symm
  simp [matchHere, missing]

theorem search_here (matched : matchHere pieces s = some found) : search pieces s = some found := by
  cases s with
  | nil => exact matched
  | cons c s => simp only [search, matched]

theorem search_eq_none (absent : ∀ t, t <:+ s → matchHere pieces t = none) : search pieces s = none := by
  induction s with
  | nil => exact absent [] List.suffix_rfl
  | cons c s ih =>
    rw [search, absent _ List.suffix_rfl]
    exact ih fun t suffix => absent t (suffix.trans (List.suffix_cons c s))

/-- A pattern that begins with two words is not found where these do not follow each other. -/
theorem search_words_none {first second : List α} (absent : ¬ first ++ second <:+: s) :
    search (.text first :: .text second :: pieces) s = none := by
  apply search_eq_none
  rintro t suffix
  by_contra matched
  obtain ⟨found, matched⟩ := Option.ne_none_iff_exists'.mp matched
  apply absent
  refine List.IsInfix.trans ?_ suffix.isInfix
  by_cases begins : first <+: t
  · obtain ⟨t', rfl⟩ := begins
    rw [matchHere_text, Option.map_eq_some_iff] at matched
    obtain ⟨found', follows, -⟩ := matched
    by_cases continues : second <+: t'
    · obtain ⟨t'', rfl⟩ := continues
      rw [← List.append_assoc]
      exact (List.prefix_append _ _).isInfix
    · simp [matchHere, continues] at follows
  · simp [matchHere, begins] at matched

end Piece

/-! ## Words between separators -/

/-- A word before a separator is at the end of the first field, or later. -/
theorem delimited_cons {word field rest : List α} {sep : α} (plain : sep ∉ field) (whole : sep ∉ word)
    (within : word ++ [sep] <:+: field ++ sep :: rest) : word <:+ field ∨ word ++ [sep] <:+: rest := by
  obtain ⟨before, later, split⟩ := within
  have same : (before ++ word) ++ sep :: later = field ++ sep :: rest := by
    rw [← split]
    simp
  rcases List.append_eq_append_iff.mp same with ⟨middle, front, back⟩ | ⟨middle, front, back⟩
  · cases middle with
    | nil =>
      left
      rw [List.append_nil] at front
      exact ⟨before, front.symm⟩
    | cons c middle =>
      cases back
      exact absurd (by rw [front]; simp) plain
  · cases middle with
    | nil =>
      left
      rw [List.append_nil] at front
      exact ⟨before, front⟩
    | cons c middle =>
      right
      cases back
      have ends : word <:+ field ++ sep :: middle := ⟨before, front⟩
      have inner : word <:+ middle := by
        rcases List.suffix_or_suffix_of_suffix ends (List.suffix_append field (sep :: middle)) with shorter | longer
        · rcases List.suffix_cons_iff.mp shorter with equal | inner
          · exact absurd (equal ▸ List.mem_cons_self) whole
          · exact inner
        · exact absurd (longer.subset List.mem_cons_self) whole
      obtain ⟨start, rfl⟩ := inner
      exact ⟨start, later, by simp⟩

theorem delimited_last {word field : List α} {sep : α} (plain : sep ∉ field) : ¬ word ++ [sep] <:+: field := by
  rintro ⟨before, later, rfl⟩
  exact plain (by simp)

end Oac.Base
