import Oac.Oacsp.Gateway

/-!
# Commands from the device to the gateway

Every line that the device prints for a command is parsed as that command
(`command_round_trip`). The four patterns are told apart by the word before the first space.
-/
namespace Oac.Oacsp
open Base
open Fsuipc (digit digitsValue isDecDigit isHexDigit splitSign)

/-- A name over `[A-Za-z0-9_]`. -/
structure LvarName where
  name : Str
  nonempty : name ≠ []
  plain : ∀ c ∈ name, isNameByte c

/-- A command that a sketch gives to the library. -/
inductive Issued where
  | writeLVar (lvar : LvarName) (value : Int32)
  | writeOffset (offset : UInt16) (value : OffsetValue)
  | observeLVar (lvar : LvarName)
  | observeOffset (offset : UInt16) (len : OffsetLength)

namespace Issued

/-- What the library prints. -/
def print : Issued → Str
  | .writeLVar lvar value => Oacsp.writeLVar lvar.name value
  | .writeOffset offset value => Oacsp.writeOffset offset value
  | .observeLVar lvar => Oacsp.observeLVar lvar.name
  | .observeOffset offset len => Oacsp.observeOffset offset len

/-- What the gateway is to make of it. -/
def command : Issued → Command
  | .writeLVar lvar value => .writeLVar lvar.name (.int value.toInt)
  | .writeOffset offset value => .writeOffset (.int offset.toNat) value.length.code (.int value.toInt)
  | .observeLVar lvar => .obsLVar lvar.name
  | .observeOffset offset len => .obsOffset (.int offset.toNat) len.code

end Issued

/-! ## Numerals -/

theorem letter_dec : ∀ d < 10, isDecDigit (letter 0x41 d) ∧ (digit (letter 0x41 d)).getD 0 = d := by decide
theorem letter_hex : ∀ d < 16, isHexDigit (letter 0x41 d) ∧ (digit (letter 0x41 d)).getD 0 = d := by decide

theorem numeral_dec (n : Nat) {c : UInt8} (among : c ∈ numeral 10 (letter 0x41) n) : isDecDigit c := by
  obtain ⟨d, below, rfl⟩ := mem_numeral (by decide) among
  exact (letter_dec d below).1

theorem printHex_digits (n : Nat) {c : UInt8} (among : c ∈ printHex n) : isHexDigit c := by
  obtain ⟨d, below, rfl⟩ := mem_numeral (by decide) among
  exact (letter_hex d below).1

theorem digitsValue_numeral (n : Nat) : digitsValue 10 (numeral 10 (letter 0x41) n) = n :=
  denoted_numeral (by decide) (fun d below => (letter_dec d below).2) n

theorem digitsValue_printHex (n : Nat) : digitsValue 16 (printHex n) = n :=
  denoted_numeral (by decide) (fun d below => (letter_hex d below).2) n

/-- The sign of a decimal numeral. -/
def signOf (value : Int) : Str := if value < 0 then [0x2d] else []

theorem printDec_eq (value : Int) : printDec value = signOf value ++ numeral 10 (letter 0x41) value.natAbs := by
  unfold printDec signOf
  split <;> rfl

theorem not_dec_of_minus : ¬ isDecDigit 0x2d := by decide

/-- A number that a double holds is read back. -/
theorem tonumber_printDec {value : Int} (small : value.natAbs < 2 ^ 53) :
    tonumber (signOf value ++ numeral 10 (letter 0x41) value.natAbs) = .int value := by
  have read : nearest (digitsValue 10 (numeral 10 (letter 0x41) value.natAbs)) = some value.natAbs := by
    rw [digitsValue_numeral, nearest, if_pos small]
  have unsigned : splitSign (numeral 10 (letter 0x41) value.natAbs) = (false, numeral 10 (letter 0x41) value.natAbs) := by
    unfold splitSign
    split
    · rename_i rest same
      exact absurd (numeral_dec value.natAbs (by rw [same]; exact List.mem_cons_self)) (by decide)
    · rename_i rest same
      exact absurd (numeral_dec value.natAbs (by rw [same]; exact List.mem_cons_self)) (by decide)
    · rfl
  by_cases negative : value < 0
  · have split : splitSign (0x2d :: numeral 10 (letter 0x41) value.natAbs) =
        (true, numeral 10 (letter 0x41) value.natAbs) := rfl
    simp only [signOf, negative, ↓reduceIte, List.singleton_append, tonumber, split, read]
    congr 1
    omega
  · simp only [signOf, negative, ↓reduceIte, List.nil_append, tonumber, unsigned, read, Bool.false_eq_true]
    congr 1
    omega

theorem tonumber16_printHex (offset : UInt16) : tonumber16 (printHex offset.toNat) = .int offset.toNat := by
  have bound := offset.toNat_lt
  rw [tonumber16, digitsValue_printHex, Nat.min_eq_left (by omega)]

/-! ## The pieces of a line -/

/-- The pattern of a decimal number. -/
theorem match_value (value : Int) : Piece.matchHere [.option 0x2d, .many isDecDigit] (printDec value) =
    some [signOf value, numeral 10 (letter 0x41) value.natAbs] := by
  have digits : Piece.matchHere [.many isDecDigit] (numeral 10 (letter 0x41) value.natAbs) =
      some [numeral 10 (letter 0x41) value.natAbs] := by
    have whole : Piece.matchHere [.many isDecDigit] (numeral 10 (letter 0x41) value.natAbs ++ []) =
        some [numeral 10 (letter 0x41) value.natAbs] :=
      Piece.matchHere_many (numeral_ne_nil value.natAbs) (fun c among => numeral_dec value.natAbs among) (by simp)
        Piece.matchHere_nil
    rw [List.append_nil] at whole
    exact whole
  rw [printDec_eq]
  by_cases negative : value < 0
  · simp only [signOf, negative, ↓reduceIte, List.singleton_append]
    exact Piece.matchHere_option_some 0x2d digits
  · simp only [signOf, negative, ↓reduceIte, List.nil_append]
    rw [Piece.matchHere_option_none, digits]
    · rfl
    · rintro c first rfl
      exact not_dec_of_minus (numeral_dec value.natAbs (List.mem_of_mem_head? first))

/-- The pattern of a name that a space or nothing follows. -/
theorem match_name {name : Str} (nonempty : name ≠ []) (plain : ∀ c ∈ name, isNameByte c) {pieces : List (Piece UInt8)}
    {rest : Str} {found : List Str} (ends : ∀ c ∈ rest.head?, ¬ isNameByte c)
    (follows : Piece.matchHere pieces rest = some found) :
    Piece.matchHere (.many isNameByte :: pieces) (name ++ rest) = some (name :: found) :=
  Piece.matchHere_many nonempty plain ends follows

theorem code_alpha (len : OffsetLength) : len.code ≠ [] ∧ ∀ c ∈ len.code, isAlpha c := by
  cases len <;> decide +kernel

/-- The pattern of an offset with its length. -/
theorem match_offset (offset : Nat) (len : OffsetLength) {pieces : List (Piece UInt8)} {rest : Str} {found : List Str}
    (ends : ∀ c ∈ rest.head?, ¬ isAlpha c) (follows : Piece.matchHere pieces rest = some found) :
    Piece.matchHere (.many isHexDigit :: .text (text ":") :: .many isAlpha :: pieces)
      (printHex offset ++ (text ":" ++ (len.code ++ rest))) = some (printHex offset :: text ":" :: len.code :: found) := by
  have code := Piece.matchHere_many (code_alpha len).1 (code_alpha len).2 ends follows
  have colon : Piece.matchHere (.text (text ":") :: .many isAlpha :: pieces) (text ":" ++ (len.code ++ rest)) =
      some (text ":" :: len.code :: found) := by
    rw [Piece.matchHere_text, code]
    rfl
  refine Piece.matchHere_many (numeral_ne_nil offset) (fun c among => printHex_digits offset among) ?_ colon
  intro c first
  cases first
  decide

/-! ## The lines -/

/-- A line with its word and its arguments apart. -/
def lineOf (word arguments : Str) : Str := word ++ (text " " ++ arguments)

def offsetField (offset : Nat) (len : OffsetLength) : Str := printHex offset ++ (text ":" ++ len.code)

theorem print_eq (c : Issued) : c.print = (match c with
    | .writeLVar lvar value => lineOf (text "WRITE_LVAR") (lvar.name ++ (text " " ++ printDec value.toInt))
    | .writeOffset offset value =>
      lineOf (text "WRITE_OFFSET") (offsetField offset.toNat value.length ++ (text " " ++ printDec value.toInt))
    | .observeLVar lvar => lineOf (text "OBS_LVAR") lvar.name
    | .observeOffset offset len => lineOf (text "OBS_OFFSET") (offsetField offset.toNat len)) ++ newline := by
  have writeLVar : text "WRITE_LVAR " = text "WRITE_LVAR" ++ text " " := by decide
  have writeOffset : text "WRITE_OFFSET " = text "WRITE_OFFSET" ++ text " " := by decide
  have obsLVar : text "OBS_LVAR " = text "OBS_LVAR" ++ text " " := by decide
  have obsOffset : text "OBS_OFFSET " = text "OBS_OFFSET" ++ text " " := by decide
  cases c with
  | writeLVar lvar value => simp [Issued.print, Oacsp.writeLVar, writeLVar, lineOf]
  | writeOffset offset value =>
    simp [Issued.print, writeOffset_eq, writeOffsetAs, writeOffset, lineOf, offsetField]
  | observeLVar lvar => simp [Issued.print, observeLVar, obsLVar, lineOf]
  | observeOffset offset len => simp [Issued.print, observeOffset, obsOffset, lineOf, offsetField]

theorem space_not_name {name : Str} (plain : ∀ c ∈ name, isNameByte c) : 0x20 ∉ name := by
  intro among
  exact absurd (plain _ among) (by decide)

theorem space_not_offset (offset : Nat) (len : OffsetLength) : 0x20 ∉ offsetField offset len := by
  intro among
  rcases List.mem_append.mp among with among | among
  · exact absurd (printHex_digits offset among) (by decide)
  · rcases List.mem_append.mp among with among | among
    · exact absurd among (by decide)
    · exact absurd ((code_alpha len).2 _ among) (by decide)

theorem space_not_value (value : Int) : 0x20 ∉ printDec value := by
  intro among
  rw [printDec_eq] at among
  rcases List.mem_append.mp among with among | among
  · unfold signOf at among
    split at among <;> exact absurd among (by decide)
  · exact absurd (numeral_dec _ among) (by decide)

/-- A word that a pattern begins with is only found where it ends the first field. -/
theorem word_absent {word first arguments : Str} (plain : 0x20 ∉ first) (whole : 0x20 ∉ word) (other : ¬ word <:+ first)
    (absent : ¬ word ++ text " " <:+: arguments) : ¬ word ++ text " " <:+: lineOf first arguments := by
  intro within
  rcases delimited_cons plain whole within with ends | later
  · exact other ends
  · exact absent later

theorem word_absent_field {word field : Str} (plain : 0x20 ∉ field) : ¬ word ++ text " " <:+: field := delimited_last plain

/-- No word of a command ends like an offset with its length. -/
theorem word_not_offset (offset : Nat) (len : OffsetLength) : ¬ text "WRITE_LVAR" <:+ offsetField offset len := by
  intro ends
  have code : len.code <:+ offsetField offset len :=
    (List.suffix_append (text ":") len.code).trans (List.suffix_append (printHex offset) _)
  rcases List.suffix_or_suffix_of_suffix ends code with longer | shorter
  · revert longer
    cases len <;> decide
  · revert shorter
    cases len <;> decide

theorem search_writeLVar (lvar : LvarName) (value : Int) :
    Piece.search writeLVarPattern (lineOf (text "WRITE_LVAR") (lvar.name ++ (text " " ++ printDec value))) =
      some [text "WRITE_LVAR", text " ", lvar.name, text " ", signOf value, numeral 10 (letter 0x41) value.natAbs] := by
  apply Piece.search_here
  have tail : Piece.matchHere [.text (text " "), .option 0x2d, .many isDecDigit] (text " " ++ printDec value) =
      some [text " ", signOf value, numeral 10 (letter 0x41) value.natAbs] := by
    rw [Piece.matchHere_text, match_value]
    rfl
  have name := match_name lvar.nonempty lvar.plain (by intro c first; cases first; decide) tail
  unfold writeLVarPattern lineOf
  rw [Piece.matchHere_text, Piece.matchHere_text, name]
  rfl

theorem search_writeOffset (offset : Nat) (len : OffsetLength) (value : Int) :
    Piece.search writeOffsetPattern (lineOf (text "WRITE_OFFSET") (offsetField offset len ++ (text " " ++ printDec value))) =
      some [text "WRITE_OFFSET", text " ", printHex offset, text ":", len.code, text " ", signOf value,
        numeral 10 (letter 0x41) value.natAbs] := by
  apply Piece.search_here
  have tail : Piece.matchHere [.text (text " "), .option 0x2d, .many isDecDigit] (text " " ++ printDec value) =
      some [text " ", signOf value, numeral 10 (letter 0x41) value.natAbs] := by
    rw [Piece.matchHere_text, match_value]
    rfl
  have field := match_offset offset len (by intro c first; cases first; decide) tail
  unfold writeOffsetPattern lineOf offsetField
  rw [Piece.matchHere_text, Piece.matchHere_text, List.append_assoc, List.append_assoc, field]
  rfl

theorem search_obsLVar (lvar : LvarName) :
    Piece.search obsLVarPattern (lineOf (text "OBS_LVAR") lvar.name) = some [text "OBS_LVAR", text " ", lvar.name] := by
  apply Piece.search_here
  have name : Piece.matchHere [.many isNameByte] (lvar.name ++ []) = some [lvar.name] :=
    match_name lvar.nonempty lvar.plain (by simp) Piece.matchHere_nil
  rw [List.append_nil] at name
  unfold obsLVarPattern lineOf
  rw [Piece.matchHere_text, Piece.matchHere_text, name]
  rfl

theorem search_obsOffset (offset : Nat) (len : OffsetLength) :
    Piece.search obsOffsetPattern (lineOf (text "OBS_OFFSET") (offsetField offset len)) =
      some [text "OBS_OFFSET", text " ", printHex offset, text ":", len.code] := by
  apply Piece.search_here
  have ends : ∀ c ∈ ([] : Str).head?, ¬ isAlpha c := by simp
  have field := match_offset offset len ends Piece.matchHere_nil
  rw [List.append_nil] at field
  unfold obsOffsetPattern lineOf offsetField
  rw [Piece.matchHere_text, Piece.matchHere_text, field]
  rfl

theorem small_offset (value : OffsetValue) : value.toInt.natAbs < 2 ^ 53 := by
  have range := value.toInt_range
  omega

/-- Every command that the device prints arrives as it was issued. -/
theorem command_round_trip (c : Issued) : ∃ line, c.print = line ++ newline ∧ parseCommand line = some c.command := by
  refine ⟨_, print_eq c, ?_⟩
  cases c with
  | writeLVar lvar value =>
    have small : value.toInt.natAbs < 2 ^ 53 := by
      have := value.toInt_lt
      have := value.le_toInt
      omega
    simp only [parseCommand, search_writeLVar, tonumber_printDec small]
    rfl
  | writeOffset offset value =>
    have first : Piece.search writeLVarPattern (lineOf (text "WRITE_OFFSET")
        (offsetField offset.toNat value.length ++ (text " " ++ printDec value.toInt))) = none := by
      apply Piece.search_words_none
      refine word_absent (by decide) (by decide) (by decide) ?_
      exact word_absent (space_not_offset _ _) (by decide) (word_not_offset _ _)
        (word_absent_field (space_not_value _))
    simp only [parseCommand, first, search_writeOffset, tonumber_printDec (small_offset value), tonumber16_printHex]
    rfl
  | observeLVar lvar =>
    have first : Piece.search writeLVarPattern (lineOf (text "OBS_LVAR") lvar.name) = none :=
      Piece.search_words_none (word_absent (by decide) (by decide) (by decide) (word_absent_field (space_not_name lvar.plain)))
    have second : Piece.search writeOffsetPattern (lineOf (text "OBS_LVAR") lvar.name) = none :=
      Piece.search_words_none (word_absent (by decide) (by decide) (by decide) (word_absent_field (space_not_name lvar.plain)))
    simp only [parseCommand, first, second, search_obsLVar]
    rfl
  | observeOffset offset len =>
    have plain := space_not_offset offset.toNat len
    have first : Piece.search writeLVarPattern (lineOf (text "OBS_OFFSET") (offsetField offset.toNat len)) = none :=
      Piece.search_words_none (word_absent (by decide) (by decide) (by decide) (word_absent_field plain))
    have second : Piece.search writeOffsetPattern (lineOf (text "OBS_OFFSET") (offsetField offset.toNat len)) = none :=
      Piece.search_words_none (word_absent (by decide) (by decide) (by decide) (word_absent_field plain))
    have third : Piece.search obsLVarPattern (lineOf (text "OBS_OFFSET") (offsetField offset.toNat len)) = none :=
      Piece.search_words_none (word_absent (by decide) (by decide) (by decide) (word_absent_field plain))
    simp only [parseCommand, first, second, third, search_obsOffset, tonumber16_printHex]
    rfl

end Oac.Oacsp
