import Oac.Arduino.Switches
import Oac.Pedestal.Ecam

/-!
# The engine panel

Two master switches and the mode selector. Over a whole run each variable has the value
that its switch was last checked for (`follows`), so that what holds of the switches holds
of the simulator.
-/
namespace Oac.Pedestal
open Base Arduino

/-- The engine panel of the pedestal. Its switches are on when their pins are low. -/
structure Engine where
  masterOneSw : Button
  masterTwoSw : Button
  modeSel : RotarySwitch 3

namespace Engine

/-- What the checks of a turn read. -/
structure Readings where
  masterOne : Reading
  masterTwo : Reading
  modeSel : Nat → Reading

def low : Bool := false

/-- The panel after its constructor and `setup`. -/
def start : Engine where
  masterOneSw := { Button.start with onToggled := true }
  masterTwoSw := { Button.start with onToggled := true }
  modeSel := (RotarySwitch.start 3).setOnSelect

/-- `onMasterOneToggle` and `onMasterTwoToggle`. The other callbacks are not set. -/
def onMasterToggle (lvar : Str) : Callback → List LVarWrite
  | .toggled isOn => [(lvar, if isOn then 1 else 0)]
  | _ => []

def onModeSelected (pos : Int) : LVarWrite := (text "AB_PDS_ignition", Int32.ofInt pos)

def loop (readings : Readings) (e : Engine) : List LVarWrite × Engine :=
  let (toggles, masterOneSw) := e.masterOneSw.check low readings.masterOne
  let (toggles', masterTwoSw) := e.masterTwoSw.check low readings.masterTwo
  let (_, selected, modeSel) := e.modeSel.check low readings.modeSel
  (toggles.flatMap (onMasterToggle (text "AB_PDS_Eng1Master")) ++ toggles'.flatMap (onMasterToggle (text "AB_PDS_Eng2Master")) ++
    selected.map onModeSelected, { masterOneSw, masterTwoSw, modeSel })

/-- The panel with all that it has written so far. -/
abbrev Logged := Engine × List LVarWrite

def turn (s : Logged) (readings : Readings) : Logged :=
  let (writes, e) := s.1.loop readings
  (e, s.2 ++ writes)

def after (run : List Readings) : Logged := run.foldl turn (start, [])

theorem after_snoc (run : List Readings) (readings : Readings) : after (run ++ [readings]) = turn (after run) readings := by
  rw [after, List.foldl_append]
  rfl

/-! ## The variables -/

/-- The value of a master switch: none before its first level was taken over. -/
def masterValue (b : Button) : Option Int32 := b.state.map fun level => if level = low then 1 else 0

/-- The positions that the checks of a run return, but for those with no contact closed. -/
def positions : List Readings → Engine → List Int
  | [], _ => []
  | readings :: run, e =>
    (if (e.modeSel.check low readings.modeSel).1 = -1 then [] else [(e.modeSel.check low readings.modeSel).1]) ++ positions run (e.loop readings).2

theorem positions_append (run run' : List Readings) (e : Engine) :
    positions (run ++ run') e = positions run e ++ positions run' (run.foldl (fun e readings => (e.loop readings).2) e) := by
  induction run generalizing e with
  | nil => rfl
  | cons readings run ih => rw [List.cons_append, positions, positions, ih, List.append_assoc, List.foldl_cons]

theorem after_fst (run : List Readings) : (after run).1 = run.foldl (fun e readings => (e.loop readings).2) start := by
  induction run using List.reverseRecOn with
  | nil => rfl
  | append_singleton run readings ih =>
    rw [after_snoc, List.foldl_append, ← ih]
    rfl

/-- The position that the last check has stored. -/
def stored : {n : Nat} → RotarySwitch n → Int
  | _, .none => -1
  | _, .contact _ pos _ _ => pos

/-- Of the callbacks of a master switch one is set. -/
def OnlyToggled (b : Button) : Prop := b.onToggled = true ∧ b.onPressed = false ∧ b.onReleased = false

theorem OnlyToggled.checked {b : Button} (set : OnlyToggled b) (reading : Reading) : OnlyToggled (b.checked reading) := by
  unfold Button.checked
  split
  · exact set
  · exact set

/-- A master switch is told as it is taken over. -/
theorem latest_master {b : Button} (set : OnlyToggled b) (lvar : Str) (reading : Reading) {log : List LVarWrite} (before : latest lvar log = masterValue b) :
    latest lvar (log ++ (b.check low reading).1.flatMap (onMasterToggle lvar)) = masterValue (b.checked reading) := by
  obtain ⟨toggled, pressed, released⟩ := set
  unfold Button.check Button.checked
  by_cases takes : b.Takes reading
  · rw [if_pos takes, if_pos takes]
    have written : (b.callbacks low reading.level).flatMap (onMasterToggle lvar) = [(lvar, if reading.level = low then 1 else 0)] := by
      simp [Button.callbacks, toggled, pressed, released, onMasterToggle]
    show latest lvar (log ++ (b.callbacks low reading.level).flatMap (onMasterToggle lvar)) = _
    rw [written, latest_concat_self]
    rfl
  · rw [if_neg takes, if_neg takes]
    show latest lvar (log ++ []) = _
    rw [List.append_nil, before]

/-! ### The mode selector -/

/-- No callbacks are set. -/
def Silent : {n : Nat} → RotarySwitch n → Prop
  | _, .none => True
  | _, .contact parent _ _ onSelect => onSelect = false ∧ Silent parent

/-- The callback is set, and those of the switches inside are not. -/
def Selects : {n : Nat} → RotarySwitch n → Prop
  | _, .none => False
  | _, .contact parent _ _ onSelect => onSelect = true ∧ Silent parent

theorem silent_start (n : Nat) : Silent (RotarySwitch.start n) := by
  induction n with
  | zero => trivial
  | succ n ih => exact ⟨rfl, ih⟩

theorem check_silent {n : Nat} {s : RotarySwitch n} (silent : Silent s) (readings : Nat → Reading) :
    (s.check low readings).2.1 = [] ∧ Silent (s.check low readings).2.2 := by
  induction s with
  | none => exact ⟨rfl, trivial⟩
  | contact parent pos btn onSelect ih =>
    obtain ⟨rfl, below⟩ := silent
    have inner := ih below
    unfold RotarySwitch.check
    dsimp only
    split
    · exact ⟨by simp, rfl, below⟩
    · exact ⟨by simp [inner.1], rfl, inner.2⟩

/-- A position is told when it is not the stored one. -/
theorem check_selects {n : Nat} {s : RotarySwitch n} (selects : Selects s) (readings : Nat → Reading) :
    (s.check low readings).2.1 =
        (if (s.check low readings).1 ≠ -1 ∧ (s.check low readings).1 ≠ stored s then [(s.check low readings).1] else []) ∧
      stored (s.check low readings).2.2 = (s.check low readings).1 ∧ Selects (s.check low readings).2.2 := by
  cases s with
  | none => exact selects.elim
  | contact parent pos btn onSelect =>
    obtain ⟨rfl, below⟩ := selects
    obtain ⟨nothing, below'⟩ := check_silent below readings
    unfold RotarySwitch.check
    dsimp only
    split
    · exact ⟨by simp [stored], rfl, rfl, below⟩
    · refine ⟨?_, rfl, rfl, below'⟩
      rw [nothing, List.nil_append]
      exact if_congr (by simp [stored]) rfl rfl

/-! ### Runs -/

/-- What holds after every run. -/
structure Follows (run : List Readings) (s : Logged) : Prop where
  setOne : OnlyToggled s.1.masterOneSw
  setTwo : OnlyToggled s.1.masterTwoSw
  selects : Selects s.1.modeSel
  one : latest (text "AB_PDS_Eng1Master") s.2 = masterValue s.1.masterOneSw
  two : latest (text "AB_PDS_Eng2Master") s.2 = masterValue s.1.masterTwoSw
  ignition : latest (text "AB_PDS_ignition") s.2 = (positions run start).getLast?.map Int32.ofInt
  stored : stored s.1.modeSel ≠ -1 → (positions run start).getLast? = some (stored s.1.modeSel)

theorem toggle_names (lvar : Str) (callbacks : List Callback) : ∀ p ∈ callbacks.flatMap (onMasterToggle lvar), p.1 = lvar := by
  intro p among
  obtain ⟨c, -, here⟩ := List.mem_flatMap.mp among
  cases c with
  | toggled isOn =>
    cases List.mem_singleton.mp here
    rfl
  | pressed | released => exact absurd here List.not_mem_nil

/-- What one switch writes is not under the name of another. -/
theorem toggle_other {lvar other : Str} (differ : lvar ≠ other) (callbacks : List Callback) :
    ∀ p ∈ callbacks.flatMap (onMasterToggle lvar), p.1 ≠ other := by
  intro p among
  rw [toggle_names lvar callbacks p among]
  exact differ

theorem mode_other {other : Str} (differ : text "AB_PDS_ignition" ≠ other) (selected : List Int) : ∀ p ∈ selected.map onModeSelected, p.1 ≠ other := by
  intro p among
  obtain ⟨pos, -, rfl⟩ := List.mem_map.mp among
  exact differ

theorem turn_modeSel (s : Logged) (readings : Readings) : (turn s readings).1.modeSel = (s.1.modeSel.check low readings.modeSel).2.2 := rfl

/-- The positions of one turn more. -/
theorem positions_snoc (run : List Readings) (readings : Readings) : positions (run ++ [readings]) start =
    positions run start ++ if ((after run).1.modeSel.check low readings.modeSel).1 = -1 then [] else [((after run).1.modeSel.check low readings.modeSel).1] := by
  rw [positions_append, ← after_fst, positions, positions, List.append_nil]

theorem follows_turn {run : List Readings} (follows : Follows run (after run)) (readings : Readings) :
    Follows (run ++ [readings]) (turn (after run) readings) := by
  obtain ⟨setOne, setTwo, selects, one, two, ignition, kept⟩ := follows
  obtain ⟨told, now, selects'⟩ := check_selects selects readings.modeSel
  have written : (turn (after run) readings).2 = (after run).2 ++
      (((after run).1.masterOneSw.check low readings.masterOne).1.flatMap (onMasterToggle (text "AB_PDS_Eng1Master")) ++
        ((after run).1.masterTwoSw.check low readings.masterTwo).1.flatMap (onMasterToggle (text "AB_PDS_Eng2Master")) ++
        ((after run).1.modeSel.check low readings.modeSel).2.1.map onModeSelected) := rfl
  have first : (turn (after run) readings).1.masterOneSw = (after run).1.masterOneSw.checked readings.masterOne := Button.check_snd ..
  have second : (turn (after run) readings).1.masterTwoSw = (after run).1.masterTwoSw.checked readings.masterTwo := Button.check_snd ..
  rw [← List.append_assoc, ← List.append_assoc] at written
  constructor
  · rw [first]
    exact setOne.checked _
  · rw [second]
    exact setTwo.checked _
  · exact selects'
  · rw [written, latest_append_other (mode_other (by decide) _), latest_append_other (toggle_other (by decide) _), latest_master setOne _ _ one, first]
  · have differ : text "AB_PDS_Eng1Master" ≠ text "AB_PDS_Eng2Master" := by decide
    have before := (latest_append_other (toggle_other differ ((after run).1.masterOneSw.check low readings.masterOne).1)).trans two
    rw [written, latest_append_other (mode_other (by decide) _), latest_master setTwo _ _ before, second]
  · rw [written, latest_append, latest_append_other (toggle_other (by decide) _), latest_append_other (toggle_other (by decide) _), ignition,
      positions_snoc, told]
    by_cases none : ((after run).1.modeSel.check low readings.modeSel).1 = -1
    · rw [if_neg fun both => both.1 none, if_pos none, List.append_nil]
      rfl
    · rw [if_neg none, List.getLast?_append]
      by_cases same : ((after run).1.modeSel.check low readings.modeSel).1 = stored (after run).1.modeSel
      · rw [if_neg fun both => both.2 same, kept (same ▸ none), ← same]
        rfl
      · rw [if_pos ⟨none, same⟩]
        exact congrArg (Option.or · _) latest_self
  · rw [turn_modeSel, now, positions_snoc]
    intro some
    rw [if_neg some, List.getLast?_append]
    rfl

theorem follows_after (run : List Readings) : Follows run (after run) := by
  induction run using List.reverseRecOn with
  | nil => exact ⟨⟨rfl, rfl, rfl⟩, ⟨rfl, rfl, rfl⟩, ⟨rfl, silent_start 2⟩, rfl, rfl, rfl, fun stored => absurd rfl stored⟩
  | append_singleton run readings ih =>
    rw [after_snoc]
    exact follows_turn ih readings

/-- A master switch after `setup`. -/
def master : Button := { Button.start with onToggled := true }

/-- The value of the last level that a master switch has taken over. -/
def lastTaken (run : List Reading) : Option Int32 :=
  (master.takings run).getLast?.map fun reading => if reading.level = low then 1 else 0

theorem masterValue_after (run : List Reading) : masterValue (master.after run) = lastTaken run := by
  rw [masterValue, (Button.after_eq master run).1, lastTaken]
  cases (master.takings run).getLast? <;> rfl

theorem after_masters (run : List Readings) :
    (after run).1.masterOneSw = master.after (run.map Readings.masterOne) ∧ (after run).1.masterTwoSw = master.after (run.map Readings.masterTwo) := by
  induction run using List.reverseRecOn with
  | nil => exact ⟨rfl, rfl⟩
  | append_singleton run readings ih =>
    obtain ⟨one, two⟩ := ih
    rw [after_snoc, List.map_append, List.map_append, Button.after, Button.after, List.foldl_append, List.foldl_append]
    refine ⟨?_, ?_⟩
    · show ((after run).1.masterOneSw.check low readings.masterOne).2 = _
      rw [Button.check_snd, one]
      rfl
    · show ((after run).1.masterTwoSw.check low readings.masterTwo).2 = _
      rw [Button.check_snd, two]
      rfl

/-- After every run each variable of a master switch has the value of the last level that the
    switch has taken over, and the ignition that of the last position that was not between. -/
theorem variables_follow (run : List Readings) :
    latest (text "AB_PDS_Eng1Master") (after run).2 = lastTaken (run.map Readings.masterOne) ∧
      latest (text "AB_PDS_Eng2Master") (after run).2 = lastTaken (run.map Readings.masterTwo) ∧
      latest (text "AB_PDS_ignition") (after run).2 = (positions run start).getLast?.map Int32.ofInt := by
  have follows := follows_after run
  obtain ⟨one, two⟩ := after_masters run
  refine ⟨?_, ?_, follows.ignition⟩
  · rw [follows.one, one, masterValue_after]
  · rw [follows.two, two, masterValue_after]

end Engine
end Oac.Pedestal
