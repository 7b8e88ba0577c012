import Oac.Base.Numeral
import Oac.Fsuipc.Offset

/-!
# The device

The Arduino library of the serial protocol: the lines that it prints for its commands, and
the events that it reads off the lines of the gateway. What `toInt` makes of a numeral that
is not one of a `long` is open, so it is a parameter.
-/
namespace Oac.Oacsp
open Base
open Fsuipc (digit digitsValue isDecDigit isHexDigit isSpace splitSign)

inductive OffsetLength where
  | uint8
  | sint8
  | uint16
  | sint16
  | uint32
  | sint32
  deriving DecidableEq

/-- `OffsetLengthCode`. -/
def OffsetLength.code : OffsetLength → Str
  | .uint8 => text "UB"
  | .sint8 => text "SB"
  | .uint16 => text "UW"
  | .sint16 => text "SW"
  | .uint32 => text "UD"
  | .sint32 => text "SD"

/-- A value of the type that goes with a length. -/
inductive OffsetValue where
  | uint8 (value : UInt8)
  | sint8 (value : Int8)
  | uint16 (value : UInt16)
  | sint16 (value : Int16)
  | uint32 (value : UInt32)
  | sint32 (value : Int32)
  deriving DecidableEq

namespace OffsetValue

def length : OffsetValue → OffsetLength
  | .uint8 _ => .uint8
  | .sint8 _ => .sint8
  | .uint16 _ => .uint16
  | .sint16 _ => .sint16
  | .uint32 _ => .uint32
  | .sint32 _ => .sint32

def toInt : OffsetValue → Int
  | .uint8 value => value.toNat
  | .sint8 value => value.toInt
  | .uint16 value => value.toNat
  | .sint16 value => value.toInt
  | .uint32 value => value.toNat
  | .sint32 value => value.toInt

theorem toInt_range (value : OffsetValue) : -2 ^ 31 ≤ value.toInt ∧ value.toInt < 2 ^ 32 := by
  cases value with
  | uint8 value | uint16 value | uint32 value =>
    have := value.toNat_lt
    simp only [toInt]
    omega
  | sint8 value | sint16 value | sint32 value =>
    have := value.toInt_lt
    have := value.le_toInt
    simp only [toInt]
    omega

/-- Only an `unsigned long` is not in the range of a `long`. -/
theorem toInt_lt_or (value : OffsetValue) : value.toInt < 2 ^ 31 ∨ ∃ v, value = .uint32 v := by
  cases value with
  | uint32 value => exact .inr ⟨value, rfl⟩
  | uint8 value | uint16 value =>
    have := value.toNat_lt
    simp only [toInt]
    omega
  | sint8 value | sint16 value | sint32 value =>
    have := value.toInt_lt
    simp only [toInt]
    omega

end OffsetValue

/-! ## Commands -/

/-- The letters of digits, those from ten on beginning with the given one. -/
def letter (ten : UInt8) (d : Nat) : UInt8 := if d < 10 then 0x30 + UInt8.ofNat d else ten + UInt8.ofNat (d - 10)

/-- `Serial.print` with `HEX`. -/
def printHex (value : Nat) : Str := numeral 16 (letter 0x41) value

/-- `Serial.print` with `DEC`. -/
def printDec (value : Int) : Str :=
  if value < 0 then 0x2d :: numeral 10 (letter 0x41) value.natAbs else numeral 10 (letter 0x41) value.natAbs

def newline : Str := [0x0a]

/-- `writeLVarAs`, of an `int` of any board. -/
def writeLVar (lvar : Str) (value : Int32) : Str :=
  text "WRITE_LVAR " ++ lvar ++ text " " ++ printDec value.toInt ++ newline

/-- The `writeOffset` that the overloads call. -/
def writeOffsetAs (offset : UInt16) (len : OffsetLength) (value : Int) : Str :=
  text "WRITE_OFFSET " ++ printHex offset.toNat ++ text ":" ++ len.code ++ text " " ++ printDec value ++ newline

/-- The overloads of `writeOffset`. -/
def writeOffset (offset : UInt16) : OffsetValue → Str
  | .uint8 value => writeOffsetAs offset .uint8 value.toNat
  | .sint8 value => writeOffsetAs offset .sint8 value.toInt
  | .uint16 value => writeOffsetAs offset .uint16 value.toNat
  | .sint16 value => writeOffsetAs offset .sint16 value.toInt
  | .uint32 value => writeOffsetAs offset .uint32 value.toNat
  | .sint32 value => writeOffsetAs offset .sint32 value.toInt

def observeLVar (lvar : Str) : Str := text "OBS_LVAR " ++ lvar ++ newline

def observeOffset (offset : UInt16) (len : OffsetLength) : Str :=
  text "OBS_OFFSET " ++ printHex offset.toNat ++ text ":" ++ len.code ++ newline

/-- The overloads differ in the code that goes with their type. -/
theorem writeOffset_eq (offset : UInt16) (value : OffsetValue) :
    writeOffset offset value = writeOffsetAs offset value.length value.toInt := by
  cases value <;> rfl

/-! ## Events -/

inductive Event where
  | noEvent
  | lvarUpdate (name : Str) (value : Int32)
  | offsetUpdate (address : UInt16) (value : Int32)
  deriving DecidableEq

/-- `SerialProtocol`, with what has come in over the serial port. -/
structure SerialProtocol where
  polledEvent : Event
  incoming : Str

def readBytesUntil (terminator : UInt8) : Nat → Str → Str × Str
  | 0, stream => ([], stream)
  | _ + 1, [] => ([], [])
  | n + 1, c :: stream =>
    if c = terminator then ([], stream)
    else
      let (buffer, rest) := readBytesUntil terminator n stream
      (c :: buffer, rest)

/-- The string without the occurrences of a word, read from left to right. While `skip` is
    not 0 the rest of an occurrence is passed over. -/
def removeAux (word : Str) (skip : Nat) : Str → Str
  | [] => []
  | c :: s =>
    match skip with
    | skip + 1 => removeAux word skip s
    | 0 => if word <+: c :: s then removeAux word (word.length - 1) s else c :: removeAux word 0 s

/-- `String::replace` with nothing. -/
def remove (word s : Str) : Str := removeAux word 0 s

def trim (s : Str) : Str := ((s.dropWhile isSpace).reverse.dropWhile isSpace).reverse

def parseTuple2 (line : Str) : Option (Str × Str) :=
  if 0x20 ∈ line then some (line.takeWhile (· ≠ 0x20), (line.dropWhile (· ≠ 0x20)).drop 1) else none

/-- `String::toCharArray` into a buffer of the given size. -/
def toCharArray (size : Nat) (s : Str) : Str := (s.take (size - 1)).takeWhile (· ≠ 0)

/-- `strtol` with base 16, for what fits into a `long`. -/
def strtol16 (s : Str) : Int :=
  let (negative, rest) := splitSign (s.dropWhile isSpace)
  let digits := match rest with
    | 0x30 :: 0x78 :: c :: rest => if isHexDigit c then (c :: rest).takeWhile isHexDigit else [0x30]
    | 0x30 :: 0x58 :: c :: rest => if isHexDigit c then (c :: rest).takeWhile isHexDigit else [0x30]
    | rest => rest.takeWhile isHexDigit
  if negative then -(digitsValue 16 digits : Int) else digitsValue 16 digits

def hexToLong (hex : Str) : UInt16 := UInt16.ofInt (strtol16 (toCharArray 8 hex))

section
variable (toInt : Str → Int32)

def pollLVarEvent (line : Str) (p : SerialProtocol) : Option Event × SerialProtocol :=
  match parseTuple2 (trim (remove (text "EVENT_LVAR") line)) with
  | none => (none, p)
  | some (lvar, value) =>
    let event := Event.lvarUpdate (toCharArray 64 lvar) (toInt value)
    (some event, { p with polledEvent := event })

def pollOffsetEvent (line : Str) (p : SerialProtocol) : Option Event × SerialProtocol :=
  match parseTuple2 (trim (remove (text "EVENT_OFFSET") line)) with
  | none => (none, p)
  | some (offset, value) =>
    let event := Event.offsetUpdate (hexToLong offset) (toInt value)
    (some event, { p with polledEvent := event })

def pollEvent (p : SerialProtocol) : Option Event × SerialProtocol :=
  let (buf, incoming) := readBytesUntil 0x0a 255 p.incoming
  -- a string ends at its first null character
  let line := buf.takeWhile (· ≠ 0)
  let p := { p with incoming := incoming }
  if buf ≠ [] ∧ text "EVENT_LVAR" <+: line then pollLVarEvent toInt line p
  else if buf ≠ [] ∧ text "EVENT_OFFSET" <+: line then pollOffsetEvent toInt line p
  else (none, { p with polledEvent := .noEvent })

end

end Oac.Oacsp
