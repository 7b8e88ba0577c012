import Oac.Errors

/-!
# FSUIPC offsets

An offset is a place in the memory of the simulator. A variable of the group
`fsuipc/offset` names one by its address and its length.
-/
namespace Oac.Fsuipc

inductive OffsetLength where
  | byte
  | word
  | dword
  deriving DecidableEq

def OffsetLength.toNat : OffsetLength → Nat
  | .byte => 1
  | .word => 2
  | .dword => 4

structure Offset where
  address : UInt16
  length : OffsetLength
  deriving DecidableEq

structure ValuedOffset extends Offset where
  value : UInt32
  deriving DecidableEq

/-! ## Numerals -/

/-- The value of a digit in base 16. -/
def digit (c : UInt8) : Option Nat :=
  if 0x30 ≤ c ∧ c ≤ 0x39 then some (c.toNat - 0x30)
  else if 0x61 ≤ c ∧ c ≤ 0x66 then some (c.toNat - 0x61 + 10)
  else if 0x41 ≤ c ∧ c ≤ 0x46 then some (c.toNat - 0x41 + 10)
  else none

def isDecDigit (c : UInt8) : Bool := 0x30 ≤ c ∧ c ≤ 0x39
def isHexDigit (c : UInt8) : Bool := (digit c).isSome
/-- `isspace` in the C locale. -/
def isSpace (c : UInt8) : Bool := c = 0x20 ∨ (0x09 ≤ c ∧ c ≤ 0x0d)

/-- The number that the digits denote. -/
def digitsValue (base : Nat) (digits : Str) : Nat :=
  digits.foldl (fun value c => base * value + (digit c).getD 0) 0

/-- Split off a sign. True for a minus. -/
def splitSign : Str → Bool × Str
  | 0x2d :: rest => (true, rest)
  | 0x2b :: rest => (false, rest)
  | str => (false, str)

/-- A magnitude with its sign, in an unsigned type of the given width. -/
def signedInto (bits : Nat) (negative : Bool) (magnitude : Nat) : Option Nat :=
  if magnitude < 2 ^ bits then some (if negative then (2 ^ bits - magnitude) % 2 ^ bits else magnitude) else none

/-- `parse_dec_number`: `boost::lexical_cast` to an unsigned type. -/
def parseDecNumber (bits : Nat) (str : Str) : Option Nat :=
  let (negative, digits) := splitSign str
  if digits ≠ [] ∧ digits.all isDecDigit then signedInto bits negative (digitsValue 10 digits) else none

/-- `parse_hex_number`: a stream extracts an unsigned integer with `std::hex` and is at
    its end thereafter. -/
def parseHexNumber (bits : Nat) (str : Str) : Option Nat :=
  let (negative, rest) := splitSign (str.dropWhile isSpace)
  let digits := match rest with
    | 0x30 :: 0x78 :: rest => rest
    | 0x30 :: 0x58 :: rest => rest
    | rest => rest
  if digits ≠ [] ∧ digits.all isHexDigit then signedInto bits negative (digitsValue 16 digits) else none

def parseTextualLength (str : Str) : Option Nat :=
  if toLowerCopy str = text "byte" then some 1
  else if toLowerCopy str = text "word" then some 2
  else if toLowerCopy str = text "dword" then some 4
  else none

/-! ## Conversions -/

def varGroupTag : Str := text "fsuipc/offset"

/-- The cast to `offset_length` after the check that the number is one. -/
def toOffsetLength : Nat → Option OffsetLength
  | 1 => some .byte
  | 2 => some .word
  | 4 => some .dword
  | _ => none

def toFsuipcOffset (varId : VariableId) : Except Exception Offset :=
  if varId.group ≠ varGroupTag then .error (.invalidVarGroup varGroupTag varId.group)
  else
    let parts := varId.name.splitOn 0x3a
    -- without a length a byte is assumed
    match if parts.length = 1 then parts ++ [text "1"] else parts with
    | [address, length] =>
      match parseDecNumber 16 address <|> parseHexNumber 16 address with
      | none => .error (.varNameSyntax varId.name)
      | some addr =>
        match (parseDecNumber 32 length <|> parseHexNumber 32 length <|> parseTextualLength length) >>=
            toOffsetLength with
        | none => .error (.varNameSyntax varId.name)
        | some len => .ok ⟨UInt16.ofNat addr, len⟩
    | _ => .error (.varNameSyntax varId.name)

def toVariableValue (valuedOffset : ValuedOffset) : VariableValue :=
  match valuedOffset.length with
  | .byte => .byte (UInt8.ofNat valuedOffset.value.toNat)
  | .word => .word (UInt16.ofNat valuedOffset.value.toNat)
  | .dword => .dword valuedOffset.value

def toFsuipcOffsetValue : VariableValue → UInt32
  | .bool value => if value then 1 else 0
  | .byte value => UInt32.ofNat value.toNat
  | .word value => UInt32.ofNat value.toNat
  | .dword value => value
  | .float value => value.toUInt32

example : toFsuipcOffset (variableId (text "fsuipc/offset") (text "0x200:2")) = .ok ⟨0x200, .word⟩ := by decide
example : toFsuipcOffset (variableId (text "fsuipc/offset") (text "512:BYTE")) = .ok ⟨512, .byte⟩ := by decide
example : toFsuipcOffset (variableId (text "fsuipc/offset") (text "0x200:foobar")) =
    .error (.varNameSyntax (text "0x200:foobar")) := by decide

/-- Every refusal is an `invalid_var_exception`. -/
theorem toFsuipcOffset_refused {varId : VariableId} {e : Exception} (refused : toFsuipcOffset varId = .error e) :
    e.IsInvalidVar := by
  unfold toFsuipcOffset at refused
  split at refused
  · cases refused
    rfl
  · simp only at refused
    split at refused
    · split at refused
      · cases refused
        rfl
      · split at refused
        · cases refused
          rfl
        · cases refused
    · cases refused
      rfl

end Oac.Fsuipc
