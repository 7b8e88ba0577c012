import Oac.Base.Split
import Oac.Var

/-!
# The text form of a variable identifier

A group and a name with an arrow between them. Only two pieces that are not empty make an
identifier, so a group or name that contains the arrow, or is empty, does not come back from
its own text (`variable_id_text_form`).
-/
namespace Oac
open Base

namespace VariableId

/-- `variable_id::parse_error`. -/
structure ParseError where
  token : Str
  deriving DecidableEq

def ParseError.what (e : ParseError) : Str :=
  text "not a valid format for a variable ID in '" ++ e.token ++ text "'"

def parse (var : Str) : Except ParseError VariableId :=
  match split (text "->") var with
  | [group, name] => if group = [] ∨ name = [] then .error ⟨var⟩ else .ok (variableId group name)
  | _ => .error ⟨var⟩

def toString (v : VariableId) : Str := v.group ++ text "->" ++ v.name

end VariableId

variable {s group name : Str} {v : VariableId}

theorem arrow_nonempty : text "->" ≠ [] := by decide

/-! ## The arrow -/

/-- The bytes before the letters are made by none but themselves. -/
theorem toLower_sign {sign : UInt8} (small : sign < 0x41) (c : UInt8) : toLower c = sign ↔ c = sign := by
  unfold toLower
  split
  · rename_i upper
    rw [← UInt8.toNat_inj, ← UInt8.toNat_inj, UInt8.toNat_add]
    simp only [UInt8.lt_iff_toNat_lt, UInt8.le_iff_toNat_le, UInt8.reduceToNat] at small upper ⊢
    omega
  · rfl

/-- Lowering neither makes nor breaks an arrow. -/
@[simp] theorem arrow_lowered : text "->" <:+: toLowerCopy s ↔ text "->" <:+: s := by
  refine infix_map_iff fun c mem d => ?_
  rcases List.mem_pair.mp mem with rfl | rfl
  · exact toLower_sign (by decide) d
  · exact toLower_sign (by decide) d

theorem toLowerCopy_nil : toLowerCopy s = [] ↔ s = [] := List.map_eq_nil_iff

theorem variableId_lowered (group name : Str) :
    variableId (toLowerCopy group) (toLowerCopy name) = variableId group name := by
  simp [variableId]

/-- An arrow does not overlap the next one, so none begins in a piece and ends in a separator. -/
theorem arrow_clear (absent : ¬ text "->" <:+: s) : ¬ text "->" <:+: s ++ (text "->").dropLast := by
  intro within
  rcases List.infix_concat_iff.mp within with last | earlier
  · have ends : (text "->").getLast? = ((text "->").dropLast).getLast? := by
      obtain ⟨front, same⟩ := last
      have both := congrArg List.getLast? same
      rwa [List.getLast?_append_of_ne_nil front arrow_nonempty,
        List.getLast?_append_of_ne_nil s (List.cons_ne_nil _ _)] at both
    exact absurd ends (by decide)
  · exact absent earlier

theorem split_arrow (absent : ¬ text "->" <:+: s) (rest : Str) :
    split (text "->") (s ++ text "->" ++ rest) = s :: split (text "->") rest :=
  split_cons arrow_nonempty (arrow_clear absent) rest

/-- One more arrow than the one between the parts. -/
theorem split_length_arrow (within : text "->" <:+: group ∨ text "->" <:+: name) :
    2 < (split (text "->") (group ++ text "->" ++ name)).length := by
  by_cases first : text "->" <:+: group
  · obtain ⟨x, rest, rfl, clear⟩ := exists_first arrow_nonempty first
    have between : text "->" <:+: rest ++ text "->" ++ name := List.infix_append rest (text "->") name
    have second := (split_length_iff arrow_nonempty).mpr between
    have same : x ++ text "->" ++ rest ++ text "->" ++ name = x ++ text "->" ++ (rest ++ text "->" ++ name) := by
      simp only [List.append_assoc]
    rw [same, split_cons arrow_nonempty clear, List.length_cons]
    omega
  · have second := (split_length_iff arrow_nonempty).mpr (within.resolve_left first)
    rw [split_arrow first, List.length_cons]
    omega

/-! ## Parsing -/

namespace VariableId

theorem parse_of_length (other : (split (text "->") s).length ≠ 2) : parse s = .error ⟨s⟩ := by
  unfold parse
  split
  · rename_i group name pieces
    exact absurd (congrArg List.length pieces) other
  · rfl

/-- What is accepted has two parts without an arrow. -/
theorem parse_ok (accepted : parse s = .ok v) : ∃ group name, group ≠ [] ∧ name ≠ [] ∧
    ¬ text "->" <:+: group ∧ ¬ text "->" <:+: name ∧ v = variableId group name := by
  unfold parse at accepted
  split at accepted
  · rename_i group name pieces
    split at accepted
    · cases accepted
    · rename_i full
      obtain ⟨fullGroup, fullName⟩ := not_or.mp full
      have plain := not_mem_split arrow_nonempty s
      rw [pieces] at plain
      exact ⟨group, name, fullGroup, fullName, plain group (by simp), plain name (by simp), (Except.ok.inj accepted).symm⟩
  · cases accepted

/-- The parts as they are, of an identifier with lowered ones. -/
theorem parse_parts (group name : Str) : parse (group ++ text "->" ++ name) =
    if group ≠ [] ∧ name ≠ [] ∧ ¬ text "->" <:+: group ∧ ¬ text "->" <:+: name then .ok (variableId group name)
    else .error ⟨group ++ text "->" ++ name⟩ := by
  by_cases within : text "->" <:+: group ∨ text "->" <:+: name
  · have more := split_length_arrow within
    rw [parse_of_length (by omega), if_neg]
    rintro ⟨-, -, plainGroup, plainName⟩
    exact within.elim plainGroup plainName
  · obtain ⟨plainGroup, plainName⟩ := not_or.mp within
    have pieces : split (text "->") (group ++ text "->" ++ name) = [group, name] := by
      rw [split_arrow plainGroup, split_absent plainName]
    unfold parse
    rw [pieces]
    by_cases blank : group = [] ∨ name = []
    · rw [if_neg]
      · exact if_pos blank
      · rintro ⟨fullGroup, fullName, -⟩
        exact blank.elim fullGroup fullName
    · obtain ⟨fullGroup, fullName⟩ := not_or.mp blank
      rw [if_pos ⟨fullGroup, fullName, plainGroup, plainName⟩]
      exact if_neg blank

end VariableId

/-- An identifier comes back from its text just if both parts are there and neither contains
the arrow; what parsing accepts always comes back. -/
theorem variable_id_text_form :
    (∀ group name, VariableId.parse (variableId group name).toString =
      if group ≠ [] ∧ name ≠ [] ∧ ¬ text "->" <:+: group ∧ ¬ text "->" <:+: name then .ok (variableId group name)
      else .error ⟨(variableId group name).toString⟩) ∧
    ∀ s v, VariableId.parse s = .ok v → VariableId.parse v.toString = .ok v := by
  have returned : ∀ group name, VariableId.parse (variableId group name).toString =
      if group ≠ [] ∧ name ≠ [] ∧ ¬ text "->" <:+: group ∧ ¬ text "->" <:+: name then .ok (variableId group name)
      else .error ⟨(variableId group name).toString⟩ := by
    intro group name
    have parts := VariableId.parse_parts (toLowerCopy group) (toLowerCopy name)
    simp only [arrow_lowered, ne_eq, toLowerCopy_nil, variableId_lowered] at parts
    exact parts
  refine ⟨returned, fun s v accepted => ?_⟩
  obtain ⟨group, name, fullGroup, fullName, plainGroup, plainName, rfl⟩ := VariableId.parse_ok accepted
  rw [returned, if_pos ⟨fullGroup, fullName, plainGroup, plainName⟩]

/-- Capital letters come back lowered, and an identifier without a name is refused. -/
theorem variable_id_text_form_lowered :
    VariableId.parse (variableId (text "G>-") (text ">-N")).toString = .ok (variableId (text "g>-") (text ">-n")) ∧
    VariableId.parse (variableId (text "G") []).toString = .error ⟨text "g->"⟩ ∧
    VariableId.parse (variableId (text "g") (text "n")).toString = .ok (variableId (text "g") (text "n")) := by
  refine ⟨?_, ?_, variable_id_text_form.2 (text "G->N") _ ?_⟩
  · rw [variable_id_text_form.1, if_pos (by decide)]
    rfl
  · rw [variable_id_text_form.1, if_neg (by decide)]
    rfl
  · decide

end Oac
