import Mathlib.Algebra.Ring.Nat
import Mathlib.Data.List.Chain
import Mathlib.Tactic.Common

/-!
# Buttons and rotary switches

A button takes over a new level of its pin when it has kept the old one for more than 200
milliseconds (`debounced`). A rotary switch asks its contacts from the last one down
and looks no further than the first that is on; when a contact is let go, the ones below
it have rested long enough for their levels to count (`checkAll_released`).
-/
namespace Oac.Arduino

/-- What a check finds: the level of the pin, and the milliseconds since the board was
    started, before and after the callbacks. -/
structure Reading where
  level : Bool
  now : Nat
  later : Nat

/-- `millis()`. -/
def millis (time : Nat) : UInt32 := UInt32.ofNat time

/-- The callbacks of a button. -/
inductive Callback where
  | pressed
  | released
  | toggled (isOn : Bool)
  deriving DecidableEq

/-- `Button`. No state is the `-1` of the constructor; of the callbacks it is told whether
    they are set. -/
structure Button where
  state : Option Bool
  timeMark : UInt32
  onPressed : Bool
  onReleased : Bool
  onToggled : Bool

namespace Button

/-- A button after its constructor. -/
def start : Button := ⟨none, 0, false, false, false⟩

def debounce : UInt32 := 200

section
variable (onState : Bool)

/-- The callbacks for a new state. -/
def callbacks (b : Button) (level : Bool) : List Callback :=
  (if b.onPressed ∧ level = onState then [.pressed]
    else if b.onReleased ∧ level ≠ onState then [.released]
    else []) ++
  if b.onToggled then [.toggled (level = onState)] else []

/-- The new level is taken over. -/
def Takes (b : Button) (reading : Reading) : Prop :=
  some reading.level ≠ b.state ∧ millis reading.now - b.timeMark > debounce

instance (b : Button) (reading : Reading) : Decidable (b.Takes reading) := inferInstanceAs (Decidable (_ ∧ _))

def check (b : Button) (reading : Reading) : List Callback × Button :=
  if b.Takes reading then
    (b.callbacks onState reading.level, { b with state := some reading.level, timeMark := millis reading.later })
  else ([], b)

end

/-- The button after a check. -/
def checked (b : Button) (reading : Reading) : Button :=
  if b.Takes reading then { b with state := some reading.level, timeMark := millis reading.later } else b

@[simp] theorem check_snd (onState : Bool) (b : Button) (reading : Reading) : (b.check onState reading).2 = b.checked reading := by
  unfold check checked
  split <;> rfl

/-- The readings of a run of checks whose levels are taken over. -/
def takings : Button → List Reading → List Reading
  | _, [] => []
  | b, reading :: run => if b.Takes reading then reading :: takings (b.checked reading) run else takings (b.checked reading) run

def after (b : Button) (run : List Reading) : Button := run.foldl checked b

end Button

/-- The readings are made one after the other, from a moment on. -/
def Timed : Nat → List Reading → Prop
  | _, [] => True
  | time, reading :: run => time ≤ reading.now ∧ reading.now ≤ reading.later ∧ Timed reading.later run

/-! ## Debouncing -/

namespace Button
variable {b : Button} {reading : Reading} {time mark : Nat}

/-- More than 200 milliseconds by the clock of the board. -/
theorem elapsed_iff : millis time - millis mark > debounce ↔ 200 < (2 ^ 32 - mark % 2 ^ 32 + time) % 2 ^ 32 := by
  have limit : debounce.toNat = 200 := rfl
  rw [gt_iff_lt, UInt32.lt_iff_toNat_lt, limit, UInt32.toNat_sub, millis, millis, UInt32.toNat_ofNat', UInt32.toNat_ofNat']
  rw [Nat.add_mod_mod]

/-- The clock never runs ahead. -/
theorem elapsed (rested : millis time - millis mark > debounce) (order : mark ≤ time) : mark + 200 < time := by
  rw [elapsed_iff] at rested
  omega

theorem elapsed_of (rested : mark + 200 < time) (short : time < 2 ^ 32) : millis time - millis mark > debounce := by
  rw [elapsed_iff]
  omega

/-- Two readings that are taken over one after the other. -/
def Apart (first second : Reading) : Prop := first.later + 200 < second.now ∧ second.level = !first.level

theorem takings_cons (b : Button) (reading : Reading) (run : List Reading) :
    b.takings (reading :: run) = if b.Takes reading then reading :: (b.checked reading).takings run else (b.checked reading).takings run := rfl

/-- After a reading was taken over, the next one is the other level, more than 200
    milliseconds later. -/
theorem takings_chain {last : Reading} (run : List Reading) (state : b.state = some last.level)
    (marked : b.timeMark = millis last.later) (order : last.later ≤ time) (timed : Timed time run) :
    List.IsChain Apart (last :: b.takings run) := by
  induction run generalizing b last time with
  | nil => exact .singleton last
  | cons reading run ih =>
    obtain ⟨before, during, rest⟩ := timed
    rw [takings_cons]
    by_cases takes : b.Takes reading
    · have ⟨differs, rested⟩ := takes
      rw [marked] at rested
      have apart : Apart last reading := by
        refine ⟨elapsed rested (order.trans before), ?_⟩
        rw [state] at differs
        cases h : reading.level <;> cases h' : last.level <;> simp_all
      rw [if_pos takes, checked, if_pos takes]
      exact List.isChain_cons_cons.mpr ⟨apart, ih rfl rfl le_rfl rest⟩
    · rw [if_neg takes, checked, if_neg takes]
      exact ih state marked (order.trans (before.trans during)) rest

/-- The button after a run, by the last reading that it has taken over. -/
theorem after_eq (b : Button) (run : List Reading) :
    (b.after run).state = ((b.takings run).getLast?.map fun reading => some reading.level).getD b.state ∧
      (b.after run).timeMark = ((b.takings run).getLast?.map fun reading => millis reading.later).getD b.timeMark ∧
      (b.after run).onPressed = b.onPressed ∧ (b.after run).onReleased = b.onReleased ∧ (b.after run).onToggled = b.onToggled := by
  induction run generalizing b with
  | nil => exact ⟨rfl, rfl, rfl, rfl, rfl⟩
  | cons reading run ih =>
    have rest := ih (b.checked reading)
    rw [takings_cons]
    show ((b.checked reading).after run).state = _ ∧ ((b.checked reading).after run).timeMark = _ ∧
      ((b.checked reading).after run).onPressed = _ ∧ ((b.checked reading).after run).onReleased = _ ∧
      ((b.checked reading).after run).onToggled = _
    by_cases takes : b.Takes reading
    · rw [if_pos takes, List.getLast?_cons]
      rw [checked, if_pos takes] at rest ⊢
      obtain ⟨state, mark, callbacks⟩ := rest
      refine ⟨state.trans ?_, mark.trans ?_, callbacks⟩
      · cases (takings _ run).getLast? <;> rfl
      · cases (takings _ run).getLast? <;> rfl
    · rw [if_neg takes]
      rw [checked, if_neg takes] at rest ⊢
      exact rest

/-- The callbacks of a run. -/
def runCallbacks (onState : Bool) : Button → List Reading → List Callback
  | _, [] => []
  | b, reading :: run => (b.check onState reading).1 ++ runCallbacks onState (b.check onState reading).2 run

/-- When the board was started, or the last level was taken over. -/
def lastTime (takings : List Reading) : Nat := (takings.getLast?.map Reading.later).getD 0

theorem runCallbacks_eq (onState : Bool) (b : Button) (run : List Reading) :
    b.runCallbacks onState run = (b.takings run).flatMap fun reading => b.callbacks onState reading.level := by
  induction run generalizing b with
  | nil => rfl
  | cons reading run ih =>
    have kept : (b.checked reading).callbacks onState = b.callbacks onState := by
      unfold checked
      split <;> rfl
    rw [runCallbacks, check_snd, ih, takings_cons, kept, check]
    split_ifs <;> simp

theorem millis_lastTime (b : Button) (unmarked : b.timeMark = 0) (run : List Reading) :
    (b.after run).timeMark = millis (lastTime (b.takings run)) := by
  rw [(after_eq b run).2.1, lastTime, unmarked]
  cases (b.takings run).getLast? <;> rfl

/-- The first level is taken over when the board has run for more than 200 milliseconds. -/
theorem takings_fresh (unmarked : b.timeMark = millis 0) {run : List Reading} (timed : Timed time run) :
    List.IsChain Apart (b.takings run) ∧ ∀ reading ∈ (b.takings run).head?, 200 < reading.now := by
  induction run generalizing b time with
  | nil => exact ⟨.nil, nofun⟩
  | cons reading run ih =>
    obtain ⟨-, -, rest⟩ := timed
    rw [takings_cons]
    by_cases takes : b.Takes reading
    · have ⟨_, rested⟩ := takes
      rw [unmarked] at rested
      rw [if_pos takes, checked, if_pos takes]
      refine ⟨takings_chain run rfl rfl le_rfl rest, fun first head => ?_⟩
      cases head
      exact (Nat.zero_add 200).symm.trans_lt (elapsed rested (Nat.zero_le _))
    · rw [if_neg takes, checked, if_neg takes]
      exact ih unmarked rest

/-- Over every run the callbacks tell of levels that differ from one to the next and lie
    more than 200 milliseconds apart, and a level that the button has not taken over was
    found within 200 milliseconds of the last that it has. -/
theorem debounced (onState : Bool) {b : Button} (unmarked : b.timeMark = 0) {run : List Reading} (timed : Timed 0 run) :
    b.runCallbacks onState run = (b.takings run).flatMap (fun reading => b.callbacks onState reading.level) ∧
      List.IsChain Apart (b.takings run) ∧ (∀ reading ∈ (b.takings run).head?, 200 < reading.now) ∧
      ∀ before reading, before ++ [reading] <+: run → reading.now < 2 ^ 32 →
        (b.after (before ++ [reading])).state = some reading.level ∨ reading.now ≤ lastTime (b.takings before) + 200 := by
  obtain ⟨chain, first⟩ := takings_fresh unmarked timed
  refine ⟨runCallbacks_eq onState b run, chain, first, fun before reading _ short => ?_⟩
  have mark := millis_lastTime b unmarked before
  have last : b.after (before ++ [reading]) = (b.after before).checked reading := by
    rw [after, List.foldl_append]
    rfl
  rw [last, checked]
  by_cases takes : (b.after before).Takes reading
  · rw [if_pos takes]
    exact .inl rfl
  · rw [if_neg takes]
    by_cases same : some reading.level = (b.after before).state
    · exact .inl same.symm
    · refine .inr (Nat.le_of_not_lt fun rested => takes ⟨same, ?_⟩)
      rw [mark]
      exact elapsed_of rested short

/-- A switch that bounces when it is closed. -/
theorem debounced_bouncing :
    let b : Button := { start with onToggled := true }
    let run : List Reading := [⟨true, 300, 302⟩, ⟨false, 310, 310⟩, ⟨true, 320, 320⟩, ⟨false, 900, 901⟩]
    b.runCallbacks false run = (b.takings run).flatMap (fun reading => b.callbacks false reading.level) ∧
      List.IsChain Apart (b.takings run) ∧ (∀ reading ∈ (b.takings run).head?, 200 < reading.now) ∧
      ∀ before reading, before ++ [reading] <+: run → reading.now < 2 ^ 32 →
        (b.after (before ++ [reading])).state = some reading.level ∨ reading.now ≤ lastTime (b.takings before) + 200 :=
  debounced false rfl ⟨by decide, by decide, by decide, by decide, by decide, by decide, by decide, by decide, trivial⟩

end Button

/-! ## Rotary switches -/

/-- `RotarySwitch` by its number of positions, with whether its callback is set. The pin
    of a contact is told by the number of the contact. -/
inductive RotarySwitch : Nat → Type where
  | none : RotarySwitch 0
  | contact {n : Nat} (parent : RotarySwitch n) (pos : Int) (btn : Button) (onSelect : Bool) : RotarySwitch (n + 1)

namespace RotarySwitch

/-- A switch of static storage after its constructor. -/
def start : (n : Nat) → RotarySwitch n
  | 0 => none
  | n + 1 => contact (start n) (-1) Button.start false

/-- `setOnSelect`. -/
def setOnSelect : {n : Nat} → RotarySwitch n → RotarySwitch n
  | _, none => none
  | _, contact parent pos btn _ => contact parent pos btn true

/-- The position, and what is selected by the callbacks. The contacts below one that is on
    are not asked. -/
def check (onState : Bool) (readings : Nat → Reading) : {n : Nat} → RotarySwitch n → Int × List Int × RotarySwitch n
  | _, none => (-1, [], none)
  | n + 1, contact parent prevPos btn onSelect =>
    let btn := btn.checked (readings n)
    let (pos, selected, parent) := if btn.state = some onState then ((n : Int), [], parent) else check onState readings parent
    (pos, selected ++ (if pos ≠ -1 ∧ pos ≠ prevPos ∧ onSelect then [pos] else []), contact parent pos btn onSelect)

/-- The readings of a check are made from the last contact down. -/
def Ordered (readings : Nat → Reading) (finish : Nat) : Nat → Nat → Prop
  | 0, time => time ≤ finish
  | n + 1, time => time ≤ (readings n).now ∧ (readings n).now ≤ (readings n).later ∧ Ordered readings finish n (readings n).later

/-- The highest of the first contacts whose level is on. -/
def highest (onState : Bool) (readings : Nat → Reading) : Nat → Int
  | 0 => -1
  | n + 1 => if (readings n).level = onState then n else highest onState readings n

/-- A contact that was on is found off, in a check that finds those above it off. -/
def Releases (onState : Bool) (readings : Nat → Reading) (i : Nat) : {n : Nat} → RotarySwitch n → Prop
  | _, none => False
  | n + 1, contact parent _ btn _ =>
    (btn.checked (readings n)).state ≠ some onState ∧
      ((i = n ∧ btn.state = some onState) ∨ Releases onState readings i parent)

/-- The contacts were marked up to a moment, and those below one that is on up to when it
    was marked. -/
def Settled (onState : Bool) : {n : Nat} → RotarySwitch n → Nat → Prop
  | _, none, _ => True
  | _, contact parent _ btn _, time =>
    ∃ mark ≤ time, btn.timeMark = millis mark ∧ Settled onState parent (if btn.state = some onState then mark else time)

variable {onState : Bool} {readings : Nat → Reading} {n time finish : Nat} {parent : RotarySwitch n} {pos : Int} {btn : Button}
  {onSelect : Bool}

theorem Settled.mono {s : RotarySwitch n} (settled : s.Settled onState time) {time' : Nat} (later : time ≤ time') :
    s.Settled onState time' := by
  induction s generalizing time time' with
  | none => trivial
  | contact parent pos btn onSelect ih =>
    obtain ⟨mark, before, marked, below⟩ := settled
    refine ⟨mark, before.trans later, marked, ih below ?_⟩
    split
    · exact le_rfl
    · exact later

/-- The contacts below were marked by now. -/
theorem Settled.below (settled : (contact parent pos btn onSelect).Settled onState time) : parent.Settled onState time := by
  obtain ⟨mark, before, -, below⟩ := settled
  refine below.mono ?_
  split
  · exact before
  · exact le_rfl

theorem Ordered.le (ordered : Ordered readings finish n time) : time ≤ finish := by
  induction n generalizing time with
  | zero => exact ordered
  | succ n ih =>
    obtain ⟨before, during, below⟩ := ordered
    exact before.trans (during.trans (ih below))

theorem check_on (on : (btn.checked (readings n)).state = some onState) :
    ((contact parent pos btn onSelect).check onState readings).1 = n ∧
      ∃ pos', ((contact parent pos btn onSelect).check onState readings).2.2 = contact parent pos' (btn.checked (readings n)) onSelect := by
  simp only [check, if_pos on]
  exact ⟨trivial, _, rfl⟩

theorem check_off (off : (btn.checked (readings n)).state ≠ some onState) :
    ((contact parent pos btn onSelect).check onState readings).1 = (parent.check onState readings).1 ∧
      ∃ pos', ((contact parent pos btn onSelect).check onState readings).2.2 =
        contact (parent.check onState readings).2.2 pos' (btn.checked (readings n)) onSelect := by
  simp only [check, if_neg off]
  exact ⟨trivial, _, rfl⟩

/-- A check keeps the order of the marks. -/
theorem Settled.check {s : RotarySwitch n} (settled : s.Settled onState time) (ordered : Ordered readings finish n time) :
    (s.check onState readings).2.2.Settled onState finish := by
  induction s generalizing time with
  | none => trivial
  | @contact n parent pos btn onSelect ih =>
    obtain ⟨before, during, below⟩ := ordered
    have all := settled.below.mono (before.trans during)
    obtain ⟨mark, early, marked, under⟩ := settled
    have marked' : ∃ mark' ≤ (readings n).later, (btn.checked (readings n)).timeMark = millis mark' ∧
        ((btn.checked (readings n)).state = some onState → parent.Settled onState mark') := by
      unfold Button.checked
      split_ifs
      · exact ⟨_, le_rfl, rfl, fun _ => all⟩
      · exact ⟨mark, early.trans (before.trans during), marked, fun on => by rwa [if_pos on] at under⟩
    obtain ⟨mark', early', marked', under'⟩ := marked'
    by_cases on : (btn.checked (readings n)).state = some onState
    · obtain ⟨-, pos', same⟩ := check_on on
      rw [same]
      refine ⟨mark', early'.trans below.le, marked', ?_⟩
      rw [if_pos on]
      exact under' on
    · obtain ⟨-, pos', same⟩ := check_off on
      rw [same]
      refine ⟨mark', early'.trans below.le, marked', ?_⟩
      rw [if_neg on]
      exact ih all below

/-- Contacts that have all rested are read as they are. -/
theorem check_rested {s : RotarySwitch n} {rest : Nat} (settled : s.Settled onState rest) (rested : rest + 200 < time)
    (ordered : Ordered readings finish n time) (short : finish < 2 ^ 32) : (s.check onState readings).1 = highest onState readings n := by
  induction s generalizing time with
  | none => rfl
  | @contact n parent pos btn onSelect ih =>
    obtain ⟨before, during, under⟩ := ordered
    have all := settled.below
    obtain ⟨mark, early, marked, -⟩ := settled
    have level : (btn.checked (readings n)).state = some (readings n).level := by
      have finished := under.le
      have elapsed : millis (readings n).now - btn.timeMark > Button.debounce := by
        rw [marked]
        exact Button.elapsed_of (by omega) (by omega)
      unfold Button.checked
      split_ifs with takes
      · rfl
      · by_contra differs
        exact takes ⟨fun same => differs same.symm, elapsed⟩
    by_cases on : (readings n).level = onState
    · rw [highest, if_pos on]
      exact (check_on (level.trans (congrArg some on))).1
    · rw [highest, if_neg on, (check_off (fun same => on (Option.some.inj (level.symm.trans same)))).1]
      exact ih all (rested.trans_le (before.trans during)) under

/-- The contact whose release a check finds was the last to be marked: the position is the
    highest below it that is on. -/
theorem check_released {s : RotarySwitch n} {i : Nat} (settled : s.Settled onState time)
    (ordered : Ordered readings finish n time) (short : finish < 2 ^ 32) (releases : Releases onState readings i s) :
    (s.check onState readings).1 = highest onState readings i := by
  induction s generalizing time with
  | none => exact releases.elim
  | @contact n parent pos btn onSelect ih =>
    obtain ⟨before, during, under⟩ := ordered
    obtain ⟨off, here | below⟩ := releases
    · obtain ⟨rfl, on⟩ := here
      obtain ⟨mark, early, marked, all⟩ := settled
      rw [if_pos on] at all
      have takes : btn.Takes (readings i) := by
        by_contra keeps
        exact off (by rw [Button.checked, if_neg keeps, on])
      have rested : mark + 200 < (readings i).now := Button.elapsed (marked ▸ takes.2) (early.trans before)
      rw [(check_off off).1]
      exact check_rested all (rested.trans_le during) under short
    · rw [(check_off off).1]
      exact ih (settled.below.mono (before.trans during)) under below

/-- The readings of a run of checks, from a moment to another. -/
inductive Rounds (n : Nat) : Nat → List (Nat → Reading) → Nat → Prop where
  | nil {time : Nat} : Rounds n time [] time
  | cons {time between finish : Nat} {readings : Nat → Reading} {run : List (Nat → Reading)} :
      Ordered readings between n time → Rounds n between run finish → Rounds n time (readings :: run) finish

/-- The switch after a run of checks. -/
def after (onState : Bool) (s : RotarySwitch n) (run : List (Nat → Reading)) : RotarySwitch n :=
  run.foldl (fun s readings => (s.check onState readings).2.2) s

theorem Settled.after {s : RotarySwitch n} {run : List (Nat → Reading)} (settled : s.Settled onState time)
    (rounds : Rounds n time run finish) : (s.after onState run).Settled onState finish := by
  induction rounds generalizing s with
  | nil => exact settled
  | cons ordered _ ih => exact ih (settled.check ordered)

theorem settled_start (n : Nat) (onState : Bool) : (start n).Settled onState 0 := by
  induction n with
  | zero => trivial
  | succ n ih => exact ⟨0, le_rfl, rfl, ih⟩

theorem settled_setOnSelect {s : RotarySwitch n} (settled : s.Settled onState time) : s.setOnSelect.Settled onState time := by
  cases s with
  | none => trivial
  | contact parent pos btn onSelect => exact settled

/-- After every run, as long as the clock of the board has not wrapped: where a check finds
    a contact let go, the switch is at the highest position below it whose contact is closed. -/
theorem checkAll_released (onState : Bool) {s : RotarySwitch n} (settled : s.Settled onState 0) {run : List (Nat → Reading)}
    (rounds : Rounds n 0 run time) (ordered : Ordered readings finish n time) (short : finish < 2 ^ 32) {i : Nat}
    (releases : Releases onState readings i (s.after onState run)) :
    ((s.after onState run).check onState readings).1 = highest onState readings i :=
  check_released (settled.after rounds) ordered short releases

/-- All contacts are read at one moment, and one of them is closed. -/
def closedAt (time contact i : Nat) : Reading := ⟨i ≠ contact, time, time⟩

theorem ordered_closedAt {time time' contact : Nat} (later : time ≤ time') (n : Nat) : Ordered (closedAt time' contact) time' n time := by
  induction n generalizing time with
  | zero => exact later
  | succ n ih => exact ⟨later, le_rfl, ih le_rfl⟩

theorem checkAll_released_turned :
    (((start 3).setOnSelect.after false [closedAt 300 2]).check false (closedAt 700 0)).1 = highest false (closedAt 700 0) 2 := by
  have rounds : Rounds 3 0 [closedAt 300 2] 300 := .cons (ordered_closedAt (by decide) 3) .nil
  have ordered : Ordered (closedAt 700 0) 700 3 300 := ordered_closedAt (by decide) 3
  exact checkAll_released false (settled_setOnSelect (settled_start 3 false)) rounds ordered (by decide) ⟨by decide, .inl ⟨rfl, by decide⟩⟩

end RotarySwitch
end Oac.Arduino
