import Oac.Base.Pattern
import Oac.Oacsp.Device
import Mathlib.Logic.Function.Basic

/-!
# The gateway

The command gateway, a Lua script that runs inside FSUIPC: it parses the lines of devices,
executes their commands and writes them events. The functions of FSUIPC are noted down in
the order of their calls; what they refuse is a parameter. The log is left out.
-/
namespace Oac.Oacsp
open Base
open Fsuipc (digit digitsValue isDecDigit isHexDigit splitSign)

/-! ## Numbers and strings of Lua -/

/-- A number without a fraction, or an infinity. -/
inductive Number where
  | int (value : Int)
  | infinity (negative : Bool)
  deriving DecidableEq

/-- The double next to a number, to the even one of two. -/
def nearest (n : Nat) : Option Nat :=
  if n < 2 ^ 53 then some n
  else
    let ulp := 2 ^ (n.log2 - 52)
    let down := n / ulp
    let rest := n % ulp
    let rounded := (if 2 * rest < ulp ∨ (2 * rest = ulp ∧ down % 2 = 0) then down else down + 1) * ulp
    if rounded < 2 ^ 1024 then some rounded else none

/-- `tonumber` of decimal digits, maybe after a minus. -/
def tonumber (s : Str) : Number :=
  let (negative, digits) := splitSign s
  match nearest (digitsValue 10 digits) with
  | some n => .int (if negative then -n else n)
  | none => .infinity negative

/-- `tonumber` with base 16. Like `strtoul` it stops at the greatest `unsigned long`. -/
def tonumber16 (s : Str) : Number := .int (min (digitsValue 16 s) (2 ^ 32 - 1) : Nat)

def isAlpha (c : UInt8) : Bool := (0x41 ≤ c ∧ c ≤ 0x5a) ∨ (0x61 ≤ c ∧ c ≤ 0x7a)
/-- The class `[%a%d_]`. -/
def isNameByte (c : UInt8) : Bool := isAlpha c ∨ isDecDigit c ∨ c = 0x5f

/-- `string.upper`. -/
def upper (s : Str) : Str := s.map fun c => if 0x61 ≤ c ∧ c ≤ 0x7a then c - 0x20 else c

/-- `%x` of `string.format`. -/
def formatX (value : Nat) : Str := numeral 16 (letter 0x61) value

/-! ## Parsing -/

/-- The table that `ParseCommand` returns, by its action. -/
inductive Command where
  | writeLVar (lvar : Str) (value : Number)
  | writeOffset (offset : Number) (length : Str) (value : Number)
  | obsLVar (lvar : Str)
  | obsOffset (offset : Number) (length : Str)
  deriving DecidableEq

/-- `(WRITE_LVAR) ([%a%d_]+) (-?%d+)` -/
def writeLVarPattern : List (Piece UInt8) :=
  [.text (text "WRITE_LVAR"), .text (text " "), .many isNameByte, .text (text " "), .option 0x2d, .many isDecDigit]

/-- `(WRITE_OFFSET) (%x+):(%a+) (-?%d+)` -/
def writeOffsetPattern : List (Piece UInt8) :=
  [.text (text "WRITE_OFFSET"), .text (text " "), .many isHexDigit, .text (text ":"), .many isAlpha, .text (text " "),
    .option 0x2d, .many isDecDigit]

/-- `(OBS_LVAR) ([%a%d_]+)` -/
def obsLVarPattern : List (Piece UInt8) := [.text (text "OBS_LVAR"), .text (text " "), .many isNameByte]

/-- `(OBS_OFFSET) (%x+):(%a+)` -/
def obsOffsetPattern : List (Piece UInt8) :=
  [.text (text "OBS_OFFSET"), .text (text " "), .many isHexDigit, .text (text ":"), .many isAlpha]

def parseCommand (data : Str) : Option Command :=
  match Piece.search writeLVarPattern data with
  | some [_, _, lvar, _, sign, val] => some (.writeLVar lvar (tonumber (sign ++ val)))
  | _ =>
    match Piece.search writeOffsetPattern data with
    | some [_, _, offset, _, len, _, sign, val] => some (.writeOffset (tonumber16 offset) len (tonumber (sign ++ val)))
    | _ =>
      match Piece.search obsLVarPattern data with
      | some [_, _, lvar] => some (.obsLVar lvar)
      | _ =>
        match Piece.search obsOffsetPattern data with
        | some [_, _, offset, _, len] => some (.obsOffset (tonumber16 offset) len)
        | _ => none

/-! ## The script -/

/-- The calls of `ipc`, `com` and `event`. -/
inductive Call where
  | writeLvar (lvar : Str) (value : Number)
  /-- `ipc.writeSB` and so on -/
  | write (length : OffsetLength) (offset value : Number)
  | close (handle : Nat)
  | comWrite (handle : Nat) (line : Str)
  | eventLvar (lvar : Str)
  | eventOffset (offset : Number) (length : Str)
  deriving DecidableEq

/-- A key of a table. -/
inductive Key where
  | string (s : Str)
  | number (n : Number)
  deriving DecidableEq

/-- What the table of observers has under a key. -/
inductive Entry where
  | handles (handles : List Nat)
  | method

/-- The table of observers, its methods apart, and the calls so far. -/
structure Gateway where
  observers : Key → Option (List Nat)
  calls : List Call

inductive LuaError where
  /-- attempt to index local 'cmd' (a nil value) -/
  | indexNil
  /-- bad argument #1 (table expected, got function) -/
  | tableExpected
  /-- raised by a function of FSUIPC -/
  | fsuipc
  deriving DecidableEq

/-- The keys under which the table has its methods. -/
def isMethod (key : Key) : Bool := key = .string (text "insert") ∨ key = .string (text "foreach")

theorem isMethod_lvar (lvar : Str) : isMethod (.string lvar) = true ↔ lvar = text "insert" ∨ lvar = text "foreach" := by
  simp [isMethod]

theorem isMethod_offset (offset : Number) : isMethod (.number offset) = false := by simp [isMethod]

def Gateway.lookup (g : Gateway) (key : Key) : Option Entry :=
  if isMethod key then some .method else (g.observers key).map .handles

def Gateway.start : Gateway := ⟨fun _ => none, []⟩

namespace EventObservers

def insert (event : Key) (handle : Nat) : EStateM LuaError Gateway Unit := fun g =>
  match g.lookup event with
  | none => .ok () { g with observers := Function.update g.observers event (some [handle]) }
  | some (.handles observers) => .ok () { g with observers := Function.update g.observers event (some (observers ++ [handle])) }
  | some .method => .error .tableExpected g

def foreach (event : Key) (func : Nat → EStateM LuaError Gateway Unit) : EStateM LuaError Gateway Unit := fun g =>
  match g.lookup event with
  | none => .ok () g
  | some (.handles observers) => observers.forM func g
  | some .method => .error .tableExpected g

end EventObservers

section
variable (refuses : Call → Bool)

def call (c : Call) : EStateM LuaError Gateway Unit := fun g =>
  if refuses c then .error .fsuipc g else .ok () { g with calls := g.calls ++ [c] }

def processWriteLVar (lvar : Str) (value : Number) : EStateM LuaError Gateway Unit := call refuses (.writeLvar lvar value)

def processWriteOffset (handle : Nat) (offset : Number) (len : Str) (value : Number) : EStateM LuaError Gateway Unit :=
  let len := upper len
  if len = text "SB" then call refuses (.write .sint8 offset value)
  else if len = text "UB" then call refuses (.write .uint8 offset value)
  else if len = text "SW" then call refuses (.write .sint16 offset value)
  else if len = text "UW" then call refuses (.write .uint16 offset value)
  else if len = text "SD" then call refuses (.write .sint32 offset value)
  else if len = text "UD" then call refuses (.write .uint32 offset value)
  else call refuses (.close handle)

def processObserveLVar (handle : Nat) (lvar : Str) : EStateM LuaError Gateway Unit := do
  EventObservers.insert (.string lvar) handle
  call refuses (.eventLvar lvar)

def processObserveOffset (handle : Nat) (offset : Number) (len : Str) : EStateM LuaError Gateway Unit := do
  EventObservers.insert (.number offset) handle
  call refuses (.eventOffset offset len)

/-- The dispatch of `OnDataReceived`. -/
def process (handle : Nat) : Command → EStateM LuaError Gateway Unit
  | .writeLVar lvar value => processWriteLVar refuses lvar value
  | .writeOffset offset len value => processWriteOffset refuses handle offset len value
  | .obsLVar lvar => processObserveLVar refuses handle lvar
  | .obsOffset offset len => processObserveOffset refuses handle offset len

/-- Where no command is found the source goes on to index the result. -/
def onDataReceived (handle : Nat) (data : Str) (len : Nat) : EStateM LuaError Gateway Unit :=
  if 0 < len then
    match parseCommand data with
    | none => throw .indexNil
    | some cmd => process refuses handle cmd
  else pure ()

/-- `formatD` is `%d` of `string.format`. -/
def onLVarModified (formatD : Int → Str) (lvar : Str) (value : Int) : EStateM LuaError Gateway Unit :=
  let cmd := text "EVENT_LVAR " ++ lvar ++ text " " ++ formatD value
  EventObservers.foreach (.string lvar) fun handle => call refuses (.comWrite handle (cmd ++ newline))

def onOffsetModified (formatD : Int → Str) (offset : UInt16) (value : Int) : EStateM LuaError Gateway Unit :=
  let cmd := text "EVENT_OFFSET " ++ formatX offset.toNat ++ text " " ++ formatD value
  EventObservers.foreach (.number (.int offset.toNat)) fun handle => call refuses (.comWrite handle (cmd ++ newline))

end

end Oac.Oacsp
