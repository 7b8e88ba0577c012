import Mathlib.Data.Nat.Digits.Lemmas
import Oac.Single

/-!
# Variables

Variable identifiers and values of the FlightVars API, and the strings they are made of.
-/
namespace Oac

/-- A `std::string`: any bytes. -/
abbrev Str := List UInt8

/-- The bytes of a string literal. -/
def text (literal : String) : Str := literal.toList.map fun c => UInt8.ofNat c.toNat

theorem text_ofList (letters : List Char) : text (String.ofList letters) = letters.map fun c => UInt8.ofNat c.toNat :=
  congrArg _ String.toList_ofList

/-- `%d` of an unsigned number. -/
def decimal (n : Nat) : Str := (Nat.toDigits 10 n).map fun c => UInt8.ofNat c.toNat

theorem decimal_length (n : UInt32) : (decimal n.toNat).length ≤ 10 := by
  have bound := n.toNat_lt
  rw [decimal, List.length_map, Nat.length_toDigits_le_iff (by omega) (by omega)]
  omega

/-- A string of the given length. -/
def letters (n : Nat) : Str := List.replicate n 0x61

@[simp] theorem letters_length (n : Nat) : (letters n).length = n := List.length_replicate

/-- `tolower` in the C locale. -/
def toLower (c : UInt8) : UInt8 := if 0x41 ≤ c ∧ c ≤ 0x5a then c + 0x20 else c
/-- `boost::algorithm::to_lower_copy`. -/
def toLowerCopy (s : Str) : Str := s.map toLower

theorem toLower_lowered (c : UInt8) : toLower (toLower c) = toLower c := by
  unfold toLower
  split
  · rename_i upper
    have low : ¬ (0x41 ≤ c + 0x20 ∧ c + 0x20 ≤ 0x5a) := by
      simp only [UInt8.le_iff_toNat_le, UInt8.toNat_add, UInt8.reduceToNat] at upper ⊢
      omega
    simp only [low, ↓reduceIte]
  · rename_i other
    rfl

@[simp] theorem toLowerCopy_lowered (s : Str) : toLowerCopy (toLowerCopy s) = toLowerCopy s := by
  simp [toLowerCopy, toLower_lowered]
@[simp] theorem toLowerCopy_length (s : Str) : (toLowerCopy s).length = s.length := by
  simp [toLowerCopy]

/-- A variable identifier. Its constructor lowers both parts. -/
structure VariableId where
  group : Str
  name : Str
  group_lowered : toLowerCopy group = group
  name_lowered : toLowerCopy name = name
  deriving DecidableEq

def variableId (group name : Str) : VariableId :=
  ⟨toLowerCopy group, toLowerCopy name, toLowerCopy_lowered group, toLowerCopy_lowered name⟩

@[simp] theorem variableId_fields (v : VariableId) : variableId v.group v.name = v := by
  cases v with
  | mk group name groupLowered nameLowered => simp [variableId, groupLowered, nameLowered]

@[simp] theorem variableId_group_length (group name : Str) : (variableId group name).group.length = group.length :=
  toLowerCopy_length group
@[simp] theorem variableId_name_length (group name : Str) : (variableId group name).name.length = name.length :=
  toLowerCopy_length name

/-- A variable value with its type. -/
inductive VariableValue where
  | bool (value : Bool)
  | byte (value : UInt8)
  | word (value : UInt16)
  | dword (value : UInt32)
  | float (value : Single)
  deriving DecidableEq

/-- A subscription identifier. -/
abbrev SubscriptionId := UInt32

end Oac
