import Mathlib.Logic.Function.Basic
import Mathlib.Tactic.Common
import Oac.Base.Release

/-!
# The keypad

Controllers of 16 keys each share a bus of four lines. A controller that has data raises
its own line, and drives the bus while it is enabled. `readKeyType` looks at two samples:
over a whole run it reports each press once, when it ends, by the last key of it
(`types_eq`).
-/
namespace Oac.Arduino
open Base

namespace Keypad

structure Controller where
  davPin : Int16
  oePin : Int16

structure Bus where
  configured : Bool
  a : Int16
  b : Int16
  c : Int16
  d : Int16

end Keypad

/-- `Keypad`, with the eight elements of `controller`. -/
structure Keypad where
  status : UInt8
  bus : Keypad.Bus
  controller : Fin 8 → Keypad.Controller
  lastKey : Int16

/-- The levels that the pins have, by the controller whose output is enabled. -/
abbrev Pins := Option (Fin 8) → Int16 → Bool

namespace Keypad

/-- A keypad of static storage after its constructor. -/
def start : Keypad where
  status := 0
  bus := ⟨false, -1, -1, -1, -1⟩
  controller _ := ⟨0, 0⟩
  lastKey := -1

def configBus (a b c d : Int16) (k : Keypad) : Bool × Keypad :=
  if a < 0 ∨ b < 0 ∨ c < 0 ∨ d < 0 then (false, k)
  else (true, { k with bus := ⟨true, a, b, c, d⟩ })

/-- For an index below 8. -/
def configController (index : Fin 8) (dav oe : Int16) (k : Keypad) : Bool × Keypad :=
  if dav < 0 ∨ oe < 0 then (false, k)
  else
    (true, { k with
      status := k.status ||| (1 <<< UInt8.ofNat index.val)
      controller := Function.update k.controller index ⟨dav, oe⟩ })

def isActive (k : Keypad) (i : Fin 8) : Bool := k.status &&& (1 <<< UInt8.ofNat i.val) ≠ 0

def line (level : Bool) : Int16 := if level then 1 else 0

/-- The four lines of the bus as a number, in the range of a controller. -/
def numbered (a b c d : Bool) (i : Fin 8) : Int16 :=
  (line a <<< 0 ||| line b <<< 1 ||| line c <<< 2 ||| line d <<< 3) + Int16.ofNat i.val * 0x10

/-- The key that a controller puts on the bus. -/
def keyOf (k : Keypad) (pins : Pins) (i : Fin 8) : Int16 :=
  numbered (pins i k.bus.a) (pins i k.bus.b) (pins i k.bus.c) (pins i k.bus.d) i

def readKey (k : Keypad) (pins : Pins) : Int16 :=
  if k.bus.configured then
    match (List.finRange 8).find? fun i => k.isActive i && pins none (k.controller i).davPin with
    | some i => k.keyOf pins i
    | none => -1
  else -1

def readKeyType (pins : Pins) (k : Keypad) : Int16 × Keypad :=
  let key := k.readKey pins
  let result := if key < 0 ∧ 0 ≤ k.lastKey then k.lastKey else -1
  (result, { k with lastKey := key })

/-- The keypad after a reading. -/
def sampled (pins : Pins) (k : Keypad) : Keypad := (k.readKeyType pins).2

/-- What a run of readings returns. -/
def types : List Pins → Keypad → List Int16
  | [], _ => []
  | pins :: run, k => (k.readKeyType pins).1 :: types run (k.sampled pins)

/-! ## Readings -/

@[simp] theorem sampled_lastKey (pins : Pins) (k : Keypad) : (k.sampled pins).lastKey = k.readKey pins := rfl

/-- A reading does not change what later readings see. -/
@[simp] theorem sampled_readKey (pins pins' : Pins) (k : Keypad) : (k.sampled pins).readKey pins' = k.readKey pins' := rfl

/-! ## Runs -/

/-- No key is pressed. -/
def idle (key : Int16) : Bool := key < 0

theorem idle_iff (key : Int16) : ¬ idle key ↔ 0 ≤ key := by
  simp [idle, Int16.not_lt]

/-- The readings that return a key return the ones that are released. -/
theorem types_released (run : List Pins) (k : Keypad) :
    (types run k).filter (fun key => 0 ≤ key) = released idle k.lastKey (run.map k.readKey) := by
  induction run generalizing k with
  | nil => rfl
  | cons pins run ih =>
    have rest := ih (k.sampled pins)
    have same : run.map (k.sampled pins).readKey = run.map k.readKey := rfl
    rw [sampled_lastKey, same] at rest
    rw [types, List.map_cons, released, List.filter_cons, rest, readKeyType]
    by_cases let_go : k.readKey pins < 0 ∧ 0 ≤ k.lastKey
    · have ends : idle (k.readKey pins) = true ∧ ¬ idle k.lastKey = true := ⟨by simpa [idle] using let_go.1, (idle_iff _).mpr let_go.2⟩
      rw [if_pos ends, if_pos let_go, if_pos (by simpa using let_go.2)]
    · have goes : ¬ (idle (k.readKey pins) = true ∧ ¬ idle k.lastKey = true) := by
        rintro ⟨rests, pressed⟩
        exact let_go ⟨by simpa [idle] using rests, (idle_iff _).mp pressed⟩
      rw [if_neg goes, if_neg let_go]
      rfl

/-- Over a run that begins with no key pressed, each press is returned once, when it has
    ended, as its last key. -/
theorem types_eq (run : List Pins) {k : Keypad} (nothing : k.lastKey = -1) :
    (types run k).filter (fun key => 0 ≤ key) = blockEnds idle (run.map k.readKey) := by
  rw [types_released]
  refine released_eq ?_ _
  rw [nothing]
  decide

end Keypad
end Oac.Arduino
