import Oac.Arduino.Inputs
import Oac.Base.Latest
import Oac.Oacsp.Device

/-!
# The ECAM panel

The buttons of two expansion cards, two brightness knobs and the lights. A button is sent
by a `switch` over the word of all that have changed, so that buttons that change in the
same reading are lost (`mirrors_iff`). The lights are those of the last events
(`lights_eq`).
-/
namespace Oac.Pedestal
open Base Arduino

/-- A variable that the sketch writes. -/
abbrev LVarWrite := Str × Int32

/-! ## Buttons -/

/-- The cases of `sendButtonState` that write one variable. -/
def buttonLVars : List (UInt16 × Str) :=
  [(0x0002, text "AB_ECAM_page01"), (0x0004, text "AB_ECAM_page02"), (0x0008, text "AB_ECAM_page03"),
    (0x0010, text "AB_ECAM_page04"), (0x0020, text "AB_ECAM_page05"), (0x0040, text "AB_ECAM_page06"),
    (0x0080, text "AB_ECAM_page07"), (0x0100, text "AB_ECAM_page08"), (0x0200, text "AB_ECAM_page09"),
    (0x0400, text "AB_ECAM_page10"), (0x0800, text "AB_ECAM_page11"), (0x1000, text "AB_ECAM_page12"),
    (0x2000, text "AB_ECAM_CLR"), (0x4000, text "AB_ECAM_page13"), (0x8000, text "AB_ECAM_RCL")]

def tocfgBtn : UInt16 := 0x0001

def sendButtonState (button : UInt16) (state : UInt8) : List LVarWrite :=
  if button = tocfgBtn then
    (text "AB_ECAM_TOCFG", Int32.ofNat state.toNat) :: if state ≠ 0 then [(text "AB_ECAM_TOconf", Int32.ofNat state.toNat)] else []
  else
    match buttonLVars.lookup button with
    | some lvar => [(lvar, Int32.ofNat state.toNat)]
    | none => []

/-! ## Lights -/

def engLgt : UInt16 := 0x0001
def bleedLgt : UInt16 := 0x0002
def pressLgt : UInt16 := 0x0004
def elecLgt : UInt16 := 0x0008
def hydLgt : UInt16 := 0x0010
def fuelLgt : UInt16 := 0x0020
def apuLgt : UInt16 := 0x0040
def condLgt : UInt16 := 0x0080
def doorLgt : UInt16 := 0x0100
def wheelLgt : UInt16 := 0x0200
def fctlLgt : UInt16 := 0x0400
def stsLgt : UInt16 := 0x1000
/-- The lights of both CLR buttons. -/
def clrLgt : UInt16 := 0x2800

/-- The light of each page, by the value of `ECAM_MODE`. -/
def pageLights : List (Int32 × UInt16) :=
  [(1, engLgt), (2, bleedLgt), (3, pressLgt), (4, elecLgt), (5, hydLgt), (6, fuelLgt), (7, apuLgt), (8, condLgt), (9, doorLgt),
    (10, wheelLgt), (11, fctlLgt), (13, stsLgt)]

/-- A light that is on or off. -/
def setLight (on : Bool) (light lights : UInt16) : UInt16 := if on then lights ||| light else lights &&& ~~~light

/-- What the processing of the outputs makes of an event. -/
def updateLights (event : Oacsp.Event) (lights : UInt16) : UInt16 :=
  match event with
  | .lvarUpdate name value =>
    if name = text "AB_ECAM_CLR_Light" then setLight (value ≠ 0) clrLgt lights
    else if name = text "ECAM_MODE" then pageLights.foldl (fun lights page => setLight (value = page.1) page.2 lights) lights
    else lights
  | _ => lights

/-! ## The panel -/

structure Ecam where
  card0 : ExpansionCard
  card1 : ExpansionCard
  lights : UInt16
  upperBright : AnalogInput
  lowerBright : AnalogInput

/-- What a turn of the loop reads off the pins. An analog input that has changed is read
    for a second time. -/
structure Inputs where
  card0 : Levels
  card1 : Levels
  upper : Fin 1024
  upperAgain : Fin 1024
  lower : Fin 1024
  lowerAgain : Fin 1024

namespace Ecam

/-- The panel after `setup`. -/
def start : Ecam := ⟨ExpansionCard.start, ExpansionCard.start, 0, AnalogInput.start, AnalogInput.start⟩

/-- A brightness is written when its knob was turned. -/
def bright (lvar : Str) (reading again : Fin 1024) (input : AnalogInput) : List LVarWrite × AnalogInput :=
  match input.isChanged reading 16 with
  | (true, input) =>
    let (value, input) := input.map again 20 0
    ([(lvar, value)], input)
  | (false, input) => ([], input)

def activated (e : Ecam) : UInt16 := wordOf e.card0.inputActivated e.card1.inputActivated
def deactivated (e : Ecam) : UInt16 := wordOf e.card0.inputDeactivated e.card1.inputDeactivated

/-- Both cards are read. -/
def readCards (inputs : Inputs) (e : Ecam) : Ecam :=
  { e with card0 := e.card0.readInput inputs.card0, card1 := e.card1.readInput inputs.card1 }

def processInputs (inputs : Inputs) (e : Ecam) : List LVarWrite × Ecam :=
  let e := e.readCards inputs
  let (upper, upperBright) := bright (text "AB_MPL_ECAMU_Power") inputs.upper inputs.upperAgain e.upperBright
  let (lower, lowerBright) := bright (text "AB_MPL_ECAML_Power") inputs.lower inputs.lowerAgain e.lowerBright
  (sendButtonState e.activated 1 ++ sendButtonState e.deactivated 0 ++ upper ++ lower, { e with upperBright, lowerBright })

/-- The bytes for the outputs of the two cards, and the panel. -/
def processOutputs (event : Oacsp.Event) (e : Ecam) : (UInt8 × UInt8) × Ecam :=
  let lights := updateLights event e.lights
  ((lights.toUInt8, (lights >>> 8).toUInt8), { e with lights })

def loop (inputs : Inputs) (event : Oacsp.Event) (e : Ecam) : List LVarWrite × (UInt8 × UInt8) × Ecam :=
  let (writes, e) := e.processInputs inputs
  let (outputs, e) := e.processOutputs event
  (writes, outputs, e)

/-- The panel with all that it has written so far. -/
abbrev Logged := Ecam × List LVarWrite

/-- A turn of the loop. -/
def turn (s : Logged) (round : Inputs × Oacsp.Event) : Logged :=
  let (writes, _, e) := s.1.loop round.1 round.2
  (e, s.2 ++ writes)

/-- The panel after some turns. -/
def after (run : List (Inputs × Oacsp.Event)) : Logged := run.foldl turn (start, [])

theorem after_snoc (run : List (Inputs × Oacsp.Event)) (round : Inputs × Oacsp.Event) : after (run ++ [round]) = turn (after run) round := by
  rw [after, List.foldl_append]
  rfl

end Ecam

/-! ## Buttons over a run -/

/-- The bit of a button. -/
def buttonBit (i : Fin 16) : UInt16 := 1 <<< UInt16.ofNat i.val

/-- The variable that follows a button. -/
def lvarOf (i : Fin 16) : Str := if i = 0 then text "AB_ECAM_TOCFG" else (buttonLVars.lookup (buttonBit i)).getD []

/-- No two bits of the word are set. -/
def Isolated (w : UInt16) : Prop := ∀ i j : Fin 16, w.toNat.testBit i → w.toNat.testBit j → i = j

theorem lvarOf_inj : ∀ i j : Fin 16, lvarOf i = lvarOf j → i = j := by decide +kernel

theorem lvarOf_other : ∀ i : Fin 16, lvarOf i ≠ text "AB_ECAM_TOconf" ∧ lvarOf i ≠ text "AB_MPL_ECAMU_Power" ∧
    lvarOf i ≠ text "AB_MPL_ECAML_Power" := by decide +kernel

theorem buttonLVars_bit : ∀ p ∈ buttonLVars, ∃ j : Fin 16, p.1 = buttonBit j := by decide

theorem buttonBit_known : ∀ i : Fin 16, i ≠ 0 → (buttonLVars.lookup (buttonBit i)).isSome := by decide

theorem buttonBit_lookup (i : Fin 16) (later : i ≠ 0) : buttonLVars.lookup (buttonBit i) = some (lvarOf i) := by
  obtain ⟨lvar, found⟩ := Option.isSome_iff_exists.mp (buttonBit_known i later)
  rw [lvarOf, if_neg later, found, Option.getD_some]

theorem buttonBit_inj : ∀ i j : Fin 16, buttonBit i = buttonBit j → i = j := by decide

theorem buttonBit_testBit : ∀ i j : Fin 16, (buttonBit i).toNat.testBit j = decide (i = j) := by decide

/-- A word with one bit. -/
theorem eq_buttonBit_iff (w : UInt16) (i : Fin 16) : w = buttonBit i ↔ w.toNat.testBit i ∧ Isolated w := by
  constructor
  · rintro rfl
    refine ⟨by simp [buttonBit_testBit], fun j k first second => ?_⟩
    rw [buttonBit_testBit, decide_eq_true_eq] at first second
    exact first.symm.trans second
  · rintro ⟨set, isolated⟩
    apply UInt16.toNat_inj.mp
    apply Nat.eq_of_testBit_eq
    intro j
    by_cases inside : j < 16
    · rw [show (buttonBit i).toNat.testBit j = decide (i = ⟨j, inside⟩) from buttonBit_testBit i ⟨j, inside⟩]
      by_cases here : i = ⟨j, inside⟩
      · subst here
        simpa using set
      · have clear : w.toNat.testBit j = false := by
          by_contra set'
          exact here (isolated i ⟨j, inside⟩ set (by simpa using set'))
        simp [here, clear]
    · have high : 2 ^ 16 ≤ 2 ^ j := Nat.pow_le_pow_right (by decide) (Nat.not_lt.mp inside)
      rw [Nat.testBit_lt_two_pow (w.toNat_lt.trans_le high), Nat.testBit_lt_two_pow ((buttonBit i).toNat_lt.trans_le high)]

/-- What is written for a word. -/
theorem send_cases (w : UInt16) (state : UInt8) :
    (∃ j more, w = buttonBit j ∧ sendButtonState w state = (lvarOf j, Int32.ofNat state.toNat) :: more ∧
        ∀ p ∈ more, p.1 = text "AB_ECAM_TOconf") ∨
      ((∀ j, w ≠ buttonBit j) ∧ sendButtonState w state = []) := by
  unfold sendButtonState
  by_cases tocfg : w = tocfgBtn
  · rw [if_pos tocfg]
    refine .inl ⟨0, _, tocfg, rfl, fun p among => ?_⟩
    split_ifs at among
    · rw [List.mem_singleton.mp among]
    · exact absurd among List.not_mem_nil
  · rw [if_neg tocfg]
    by_cases single : ∃ j, w = buttonBit j
    · obtain ⟨j, rfl⟩ := single
      have later : j ≠ 0 := by
        rintro rfl
        exact tocfg rfl
      rw [buttonBit_lookup j later]
      exact .inl ⟨j, [], rfl, rfl, nofun⟩
    · refine .inr ⟨not_exists.mp single, ?_⟩
      cases found : buttonLVars.lookup w with
      | none => rfl
      | some lvar =>
        obtain ⟨before, later, split, -⟩ := List.lookup_eq_some_iff.mp found
        obtain ⟨j, same⟩ := buttonLVars_bit (w, lvar) (by rw [split]; simp)
        exact absurd ⟨j, same⟩ single

/-- A button is written when it alone has changed. -/
theorem latest_send (i : Fin 16) (w : UInt16) (state : UInt8) :
    latest (lvarOf i) (sendButtonState w state) = if w = buttonBit i then some (Int32.ofNat state.toNat) else none := by
  obtain ⟨other, -, -⟩ := lvarOf_other i
  rcases send_cases w state with ⟨j, more, rfl, sent, rest⟩ | ⟨no, sent⟩
  · have hidden : ∀ p ∈ more, p.1 ≠ lvarOf i := fun p among same => other (same.symm.trans (rest p among))
    rw [sent, ← List.singleton_append, latest_append_other hidden]
    by_cases same : j = i
    · subst same
      rw [if_pos rfl, latest_self]
    · have differ : lvarOf j ≠ lvarOf i := fun names => same (lvarOf_inj j i names)
      rw [if_neg fun bits => same (buttonBit_inj j i bits), latest_other]
      exact List.forall_mem_singleton.mpr differ
  · rw [sent, if_neg (no i)]
    rfl

/-- The inputs of both cards as a word. -/
def Ecam.pressed (e : Ecam) : UInt16 := wordOf e.card0.currentInput e.card1.currentInput

/-- The variable of every button has the value of its input. -/
def Mirrors (s : Ecam.Logged) : Prop :=
  ∀ i : Fin 16, (latest (lvarOf i) s.2).getD 0 = if s.1.pressed.toNat.testBit i then 1 else 0

theorem bright_other (i : Fin 16) (reading again : Fin 1024) (input : AnalogInput) :
    (∀ p ∈ (Ecam.bright (text "AB_MPL_ECAMU_Power") reading again input).1, p.1 ≠ lvarOf i) ∧
      ∀ p ∈ (Ecam.bright (text "AB_MPL_ECAML_Power") reading again input).1, p.1 ≠ lvarOf i := by
  obtain ⟨-, upper, lower⟩ := lvarOf_other i
  unfold Ecam.bright
  split
  · exact ⟨List.forall_mem_singleton.mpr upper.symm, List.forall_mem_singleton.mpr lower.symm⟩
  · exact ⟨nofun, nofun⟩

/-- What a turn writes of the buttons. -/
theorem latest_turn (i : Fin 16) (s : Ecam.Logged) (round : Inputs × Oacsp.Event) :
    latest (lvarOf i) (Ecam.turn s round).2 =
      if (s.1.readCards round.1).deactivated = buttonBit i then some 0
      else if (s.1.readCards round.1).activated = buttonBit i then some 1
      else latest (lvarOf i) s.2 := by
  have upper := (bright_other i round.1.upper round.1.upperAgain s.1.upperBright).1
  have lower := (bright_other i round.1.lower round.1.lowerAgain s.1.lowerBright).2
  have written : (Ecam.turn s round).2 = s.2 ++ (sendButtonState (s.1.readCards round.1).activated 1 ++
      sendButtonState (s.1.readCards round.1).deactivated 0 ++
      (Ecam.bright (text "AB_MPL_ECAMU_Power") round.1.upper round.1.upperAgain s.1.upperBright).1 ++
      (Ecam.bright (text "AB_MPL_ECAML_Power") round.1.lower round.1.lowerAgain s.1.lowerBright).1) := rfl
  rw [written, ← List.append_assoc, ← List.append_assoc, ← List.append_assoc, latest_append_other lower, latest_append_other upper, latest_append, latest_append, latest_send, latest_send]
  split_ifs <;> rfl

/-- What the cards tell of a turn. -/
theorem changed (s : Ecam.Logged) (round : Inputs × Oacsp.Event) :
    (s.1.readCards round.1).activated = (s.1.pressed ^^^ (Ecam.turn s round).1.pressed) &&& (Ecam.turn s round).1.pressed ∧
      (s.1.readCards round.1).deactivated = (s.1.pressed ^^^ (Ecam.turn s round).1.pressed) &&& s.1.pressed :=
  ⟨wordOf_activated _ _, wordOf_deactivated _ _⟩

/-- The buttons that a reading finds pressed, or let go, are one at most of each. -/
def Alone (s : Ecam.Logged) (round : Inputs × Oacsp.Event) : Prop :=
  Isolated (s.1.readCards round.1).activated ∧ Isolated (s.1.readCards round.1).deactivated

/-- What a variable has to be told when its button was and is pressed or not. -/
theorem told_iff {was now : Bool} {old : Option Int32} (alone alone' : Prop) [Decidable alone] [Decidable alone']
    (before : old.getD 0 = if was then 1 else 0) :
    ((if (was && !now) ∧ alone' then some 0 else if (!was && now) ∧ alone then some 1 else old).getD 0 = if now then 1 else 0) ↔
      ((!was && now) → alone) ∧ ((was && !now) → alone') := by
  cases was <;> cases now
  · simpa using before
  · by_cases single : alone
    · simp [single]
    · simpa [single] using before.trans_ne (by decide)
  · by_cases single : alone'
    · simp [single]
    · simpa [single] using before.trans_ne (by decide)
  · simpa using before

open Classical in
theorem mirrors_turn {s : Ecam.Logged} (mirrors : Mirrors s) (round : Inputs × Oacsp.Event) :
    Mirrors (Ecam.turn s round) ↔ Alone s round := by
  obtain ⟨activated, deactivated⟩ := changed s round
  have pressed (i : Fin 16) : (s.1.readCards round.1).activated.toNat.testBit i =
      (!s.1.pressed.toNat.testBit i && (Ecam.turn s round).1.pressed.toNat.testBit i) := by
    rw [activated, UInt16.toNat_and, UInt16.toNat_xor, Nat.testBit_and, Nat.testBit_xor]
    cases s.1.pressed.toNat.testBit i <;> cases (Ecam.turn s round).1.pressed.toNat.testBit i <;> rfl
  have let_go (i : Fin 16) : (s.1.readCards round.1).deactivated.toNat.testBit i =
      (s.1.pressed.toNat.testBit i && !(Ecam.turn s round).1.pressed.toNat.testBit i) := by
    rw [deactivated, UInt16.toNat_and, UInt16.toNat_xor, Nat.testBit_and, Nat.testBit_xor]
    cases s.1.pressed.toNat.testBit i <;> cases (Ecam.turn s round).1.pressed.toNat.testBit i <;> rfl
  -- a button is told rightly when it has not changed, or alone
  have each (i : Fin 16) : ((latest (lvarOf i) (Ecam.turn s round).2).getD 0 =
        if (Ecam.turn s round).1.pressed.toNat.testBit i then 1 else 0) ↔
      ((s.1.readCards round.1).activated.toNat.testBit i → Isolated (s.1.readCards round.1).activated) ∧
        ((s.1.readCards round.1).deactivated.toNat.testBit i → Isolated (s.1.readCards round.1).deactivated) := by
    rw [latest_turn]
    simp only [eq_buttonBit_iff, pressed i, let_go i]
    exact told_iff _ _ (mirrors i)
  constructor
  · intro mirrors'
    refine ⟨fun i j first second => ?_, fun i j first second => ?_⟩
    · exact ((each i).mp (mirrors' i)).1 first i j first second
    · exact ((each i).mp (mirrors' i)).2 first i j first second
  · rintro ⟨alone, alone'⟩ i
    exact (each i).mpr ⟨fun _ => alone, fun _ => alone'⟩

/-- The variables follow the buttons throughout a run exactly when no two buttons are found
    pressed, and no two let go, in one turn. -/
theorem mirrors_iff (run : List (Inputs × Oacsp.Event)) :
    (∀ before, before <+: run → Mirrors (Ecam.after before)) ↔
      ∀ before round, before ++ [round] <+: run → Alone (Ecam.after before) round := by
  constructor
  · intro mirrors before round front
    have here := mirrors before ((List.prefix_append _ _).trans front)
    have behind := mirrors _ front
    rw [Ecam.after_snoc] at behind
    exact (mirrors_turn here round).mp behind
  · intro alone before
    induction before using List.reverseRecOn with
    | nil =>
      intro _ i
      have clear : Ecam.start.pressed.toNat.testBit i = false := Nat.zero_testBit _
      show (0 : Int32) = _
      rw [show (Ecam.after []).1 = Ecam.start from rfl, clear]
      rfl
    | append_singleton before round ih =>
      intro front
      rw [Ecam.after_snoc]
      exact (mirrors_turn (ih ((List.prefix_append _ _).trans front)) round).mpr (alone before round front)

/-! ## Lights over a run -/

/-- The values that the events of a run tell, under their names. -/
def told (run : List (Inputs × Oacsp.Event)) : List LVarWrite :=
  run.filterMap fun round => match round.2 with
    | .lvarUpdate name value => some (name, value)
    | _ => none

/-- The light of a page. A value that is of no page has none. -/
def pageLight (value : Option Int32) : UInt16 := (value.bind fun value => pageLights.lookup value).getD 0

def clrLight (value : Option Int32) : UInt16 := if value.getD 0 ≠ 0 then clrLgt else 0

theorem told_snoc (run : List (Inputs × Oacsp.Event)) (round : Inputs × Oacsp.Event) : told (run ++ [round]) = told run ++ told [round] :=
  List.filterMap_append

/-- The lights of the pages, and none. -/
def shown : List UInt16 := 0 :: pageLights.map Prod.snd

theorem pageLight_shown (value : Option Int32) : pageLight value ∈ shown := by
  unfold pageLight
  cases found : value.bind fun value => pageLights.lookup value with
  | none => exact List.mem_cons_self
  | some light =>
    obtain ⟨v, -, here⟩ := Option.bind_eq_some_iff.mp found
    obtain ⟨before, later, split, -⟩ := List.lookup_eq_some_iff.mp here
    refine List.mem_cons_of_mem _ (List.mem_map.mpr ⟨(v, light), ?_, rfl⟩)
    rw [split]
    simp

theorem clrLight_cases (value : Option Int32) : clrLight value ∈ [0, clrLgt] := by
  unfold clrLight
  split <;> decide

/-- All lights of some pages. -/
def allOf : List (Int32 × UInt16) → UInt16
  | [] => 0
  | page :: pages => page.2 ||| allOf pages

theorem allOf_append (pages more : List (Int32 × UInt16)) : allOf (pages ++ more) = allOf pages ||| allOf more := by
  induction pages with
  | nil => exact (UInt16.zero_or).symm
  | cons page pages ih => rw [List.cons_append, allOf, allOf, ih, UInt16.or_assoc]

theorem allOf_apart {light : UInt16} {pages : List (Int32 × UInt16)} (apart : ∀ p ∈ pages, light &&& p.2 = 0) : light &&& allOf pages = 0 := by
  induction pages with
  | nil => exact UInt16.and_zero
  | cons page pages ih =>
    obtain ⟨head, tail⟩ := List.forall_mem_cons.mp apart
    have spread : light &&& (page.2 ||| allOf pages) = light &&& page.2 ||| light &&& allOf pages := by
      simp only [← UInt16.toBitVec_inj, UInt16.toBitVec_and, UInt16.toBitVec_or, BitVec.and_or_distrib_left]
    rw [allOf, spread, head, ih tail, UInt16.or_zero]

/-- A value of none of the pages puts out the lights of all of them. -/
theorem foldl_setLight_off {value : Int32} {pages : List (Int32 × UInt16)} (off : ∀ p ∈ pages, value ≠ p.1) (lights : UInt16) :
    pages.foldl (fun lights p => setLight (value = p.1) p.2 lights) lights = lights &&& ~~~allOf pages := by
  induction pages generalizing lights with
  | nil => exact (UInt16.and_neg_one).symm
  | cons page pages ih =>
    obtain ⟨head, tail⟩ := List.forall_mem_cons.mp off
    have cut : ~~~(page.2 ||| allOf pages) = ~~~page.2 &&& ~~~allOf pages := by
      simp only [← UInt16.toBitVec_inj, UInt16.toBitVec_and, UInt16.toBitVec_or, UInt16.toBitVec_not, BitVec.not_or]
    rw [List.foldl_cons, ih tail, setLight, decide_eq_false head, allOf, cut, ← UInt16.and_assoc]
    rfl

/-- One light of a page goes on and the others off, whichever was on. -/
theorem relit {page clr before light later : UInt16} (within : page &&& ~~~(before ||| (light ||| later)) = 0)
    (apart : clr &&& (before ||| (light ||| later)) = 0) (own : light &&& later = 0) :
    ((page ||| clr) &&& ~~~before ||| light) &&& ~~~later = light ||| clr := by
  rw [← UInt16.toBitVec_inj] at within apart own ⊢
  simp only [UInt16.toBitVec_and, UInt16.toBitVec_or, UInt16.toBitVec_not, UInt16.toBitVec_zero] at within apart own ⊢
  ext i inside
  have within := congrArg (fun bits => bits.getLsbD i) within
  have apart := congrArg (fun bits => bits.getLsbD i) apart
  have own := congrArg (fun bits => bits.getLsbD i) own
  simp [inside] at within apart own ⊢
  grind

/-- No light is of two pages, and no value is. -/
theorem pageLights_apart : pageLights.Pairwise fun p q => p.1 ≠ q.1 ∧ p.2 &&& q.2 = 0 := by decide

theorem shown_within {page : UInt16} (isPage : page ∈ shown) : page &&& ~~~allOf pageLights = 0 :=
  of_decide_eq_true (List.all_eq_true.mp (show shown.all fun page => page &&& ~~~allOf pageLights = 0 by decide) page isPage)

theorem clr_apart {clr : UInt16} (isClr : clr ∈ [0, clrLgt]) : clr &&& allOf pageLights = 0 :=
  of_decide_eq_true (List.all_eq_true.mp (show [0, clrLgt].all fun clr => clr &&& allOf pageLights = 0 by decide) clr isClr)

theorem shown_clr {page : UInt16} (isPage : page ∈ shown) : page &&& clrLgt = 0 :=
  of_decide_eq_true (List.all_eq_true.mp (show shown.all fun page => page &&& clrLgt = 0 by decide) page isPage)

/-- The lights of the CLR buttons go on and off on their own. -/
theorem setLight_clr {page clr : UInt16} (isPage : page ∈ shown) (isClr : clr ∈ [0, clrLgt]) (on : Bool) :
    setLight on clrLgt (page ||| clr) = page ||| if on then clrLgt else 0 := by
  have either : clr = 0 ∨ clr = clrLgt := by simpa using isClr
  cases on with
  | true =>
    show (page ||| clr) ||| clrLgt = page ||| clrLgt
    rcases either with rfl | rfl
    · rw [UInt16.or_zero]
    · rw [UInt16.or_assoc, UInt16.or_self]
  | false =>
    show (page ||| clr) &&& ~~~clrLgt = page ||| 0
    have within : clr &&& ~~~clrLgt = 0 := by rcases either with rfl | rfl <;> simp
    rw [UInt16.or_comm page clr]
    simpa using @relit clr page clrLgt 0 0 (by simpa using within) (by simpa using shown_clr isPage) UInt16.and_zero

/-- All lights of pages are put out but the one of the value. -/
theorem setLight_pages {page clr : UInt16} (isPage : page ∈ shown) (isClr : clr ∈ [0, clrLgt]) (value : Int32) :
    pageLights.foldl (fun lights p => setLight (value = p.1) p.2 lights) (page ||| clr) = pageLight (some value) ||| clr := by
  have within := shown_within isPage
  have apart := clr_apart isClr
  rw [pageLight, Option.bind_some]
  cases found : pageLights.lookup value with
  | none =>
    have off : ∀ p ∈ pageLights, value ≠ p.1 := fun p among => by simpa using List.lookup_eq_none_iff.mp found p among
    rw [foldl_setLight_off off, Option.getD_none]
    simpa using @relit page clr (allOf pageLights) 0 0 (by simpa using within) (by simpa using apart) UInt16.and_zero
  | some light =>
    obtain ⟨before, later, split, missing⟩ := List.lookup_eq_some_iff.mp found
    have pairs := pageLights_apart
    rw [split] at within apart pairs ⊢
    rw [allOf_append, allOf] at within apart
    obtain ⟨-, pairs, -⟩ := List.pairwise_append.mp pairs
    have ahead := (List.pairwise_cons.mp pairs).1
    have off : ∀ p ∈ before, value ≠ p.1 := fun p among => by simpa using missing p among
    have on (lights : UInt16) : setLight (value = value) light lights = lights ||| light := by
      rw [decide_eq_true rfl]
      rfl
    rw [List.foldl_append, List.foldl_cons, foldl_setLight_off off, foldl_setLight_off fun p among => (ahead p among).1, on, Option.getD_some]
    exact relit within apart (allOf_apart fun p among => (ahead p among).2)

/-- What an event makes of the lights of the events before. -/
theorem updateLights_eq (event : Oacsp.Event) (page clr : Option Int32) (inputs : Inputs) :
    updateLights event (pageLight page ||| clrLight clr) =
      pageLight ((latest (text "ECAM_MODE") (told [(inputs, event)])).or page) |||
        clrLight ((latest (text "AB_ECAM_CLR_Light") (told [(inputs, event)])).or clr) := by
  have isPage := pageLight_shown page
  have isClr := clrLight_cases clr
  cases event with
  | noEvent => rfl
  | offsetUpdate address value => rfl
  | lvarUpdate name value =>
    show updateLights (.lvarUpdate name value) _ =
      pageLight ((latest (text "ECAM_MODE") [(name, value)]).or page) ||| clrLight ((latest (text "AB_ECAM_CLR_Light") [(name, value)]).or clr)
    rw [updateLights]
    by_cases clear : name = text "AB_ECAM_CLR_Light"
    · subst clear
      have differ : text "AB_ECAM_CLR_Light" ≠ text "ECAM_MODE" := by decide
      have other : latest (text "ECAM_MODE") [(text "AB_ECAM_CLR_Light", value)] = none := latest_other (List.forall_mem_singleton.mpr differ)
      rw [if_pos rfl, other, latest_self, Option.none_or, Option.some_or, setLight_clr isPage isClr]
      simp [clrLight]
    · have hidden : latest (text "AB_ECAM_CLR_Light") [(name, value)] = none := latest_other (List.forall_mem_singleton.mpr clear)
      rw [if_neg clear, hidden, Option.none_or]
      by_cases mode : name = text "ECAM_MODE"
      · subst mode
        rw [if_pos rfl, latest_self, Option.some_or, setLight_pages isPage isClr]
      · have other : latest (text "ECAM_MODE") [(name, value)] = none := latest_other (List.forall_mem_singleton.mpr mode)
        rw [if_neg mode, other, Option.none_or]

/-- After every run the lights are the one of the page that was told of last, and those of
    the CLR buttons as they were told of last. -/
theorem lights_eq (run : List (Inputs × Oacsp.Event)) :
    (Ecam.after run).1.lights = pageLight (latest (text "ECAM_MODE") (told run)) ||| clrLight (latest (text "AB_ECAM_CLR_Light") (told run)) := by
  induction run using List.reverseRecOn with
  | nil => rfl
  | append_singleton run round ih =>
    have step : (Ecam.after (run ++ [round])).1.lights = updateLights round.2 (Ecam.after run).1.lights := by
      rw [Ecam.after_snoc]
      rfl
    rw [step, ih, updateLights_eq round.2 _ _ round.1, told_snoc, latest_append, latest_append]

/-! ## Brightness over a run -/

/-- The brightness of a reading: at most 20, and less the further the knob is turned. -/
theorem mapRange_toInt (x : Fin 1024) : (AnalogInput.mapRange (Int32.ofNat x.val) 0 1023 20 0).toInt = 20 - (20 * x.val / 1023 : Nat) := by
  have reading : (Int32.ofNat x.val).toInt = x.val := Int32.toInt_ofNat_of_lt (by omega)
  have span : (0 - 20 : Int32).toInt = -20 := rfl
  have range : (1023 - 0 : Int32).toInt = 1023 := rfl
  have scaled : (Int32.ofNat x.val * (0 - 20)).toInt = -((20 * x.val : Nat) : Int) := by
    rw [Int32.toInt_mul, reading, span, Int.bmod_eq_of_le (by omega) (by omega)]
    omega
  have divided : (Int32.ofNat x.val * (0 - 20) / (1023 - 0)).toInt = -((20 * x.val / 1023 : Nat) : Int) := by
    rw [Int32.toInt_div, scaled, range, Int.neg_tdiv, Int.natCast_tdiv_eq_ediv, Int.bmod_eq_of_le (by omega) (by omega)]
    rfl
  have twenty : (20 : Int32).toInt = 20 := rfl
  rw [AnalogInput.mapRange, Int32.sub_zero, Int32.toInt_add, divided, twenty, Int.bmod_eq_of_le (by omega) (by omega)]
  omega

/-- The knobs of the two screens. -/
inductive Knob where
  | upper
  | lower

namespace Knob

def lvar : Knob → Str
  | upper => text "AB_MPL_ECAMU_Power"
  | lower => text "AB_MPL_ECAML_Power"

def reading (inputs : Inputs) : Knob → Fin 1024
  | upper => inputs.upper
  | lower => inputs.lower

def again (inputs : Inputs) : Knob → Fin 1024
  | upper => inputs.upperAgain
  | lower => inputs.lowerAgain

def input (e : Ecam) : Knob → AnalogInput
  | upper => e.upperBright
  | lower => e.lowerBright

end Knob

/-- The input remembers the reading that the brightness was last written for. -/
def Follows (lvar : Str) (input : AnalogInput) (log : List LVarWrite) : Prop :=
  ∃ x : Fin 1024, input.state = Int32.ofNat x.val ∧ ((latest lvar log).getD 20).toInt = 20 - (20 * x.val / 1023 : Nat)

theorem Follows.append_other {lvar : Str} {input : AnalogInput} {log others : List LVarWrite} (follows : Follows lvar input log)
    (other : ∀ p ∈ others, p.1 ≠ lvar) : Follows lvar input (log ++ others) := by
  obtain ⟨x, state, value⟩ := follows
  exact ⟨x, state, by rwa [latest_append_other other]⟩

theorem isChanged_eq (x reading : Fin 1024) : AnalogInput.isChanged reading 16 ⟨Int32.ofNat x.val⟩ =
    if reading.val + 16 < x.val ∨ x.val + 16 < reading.val then (true, ⟨Int32.ofNat reading.val⟩) else (false, ⟨Int32.ofNat x.val⟩) := by
  have old : (Int32.ofNat x.val).toInt = x.val := Int32.toInt_ofNat_of_lt (by omega)
  have new : (Int32.ofNat reading.val).toInt = reading.val := Int32.toInt_ofNat_of_lt (by omega)
  have sixteen : (16 : Int32).toInt = 16 := rfl
  have up : (Int32.ofNat reading.val - Int32.ofNat x.val).toInt = (reading.val : Int) - x.val := by
    rw [Int32.toInt_sub, old, new]
    exact Int.bmod_eq_of_le (by omega) (by omega)
  have down : (Int32.ofNat x.val - Int32.ofNat reading.val).toInt = (x.val : Int) - reading.val := by
    rw [Int32.toInt_sub, old, new]
    exact Int.bmod_eq_of_le (by omega) (by omega)
  unfold AnalogInput.isChanged
  refine if_congr ?_ rfl rfl
  simp only [gt_iff_lt, Int32.le_iff_toInt_le, Int32.lt_iff_toInt_lt, up, down, old, new, sixteen]
  omega

/-- A turn keeps what is remembered of a knob, and leaves it near the reading. -/
theorem follows_bright {lvar : Str} {input : AnalogInput} {log : List LVarWrite} (follows : Follows lvar input log) (reading again : Fin 1024) :
    ∃ x : Fin 1024, (Ecam.bright lvar reading again input).2.state = Int32.ofNat x.val ∧
      ((latest lvar (log ++ (Ecam.bright lvar reading again input).1)).getD 20).toInt = 20 - (20 * x.val / 1023 : Nat) ∧
      (x = again ∨ (reading.val ≤ x.val + 16 ∧ x.val ≤ reading.val + 16)) := by
  obtain ⟨x, state, value⟩ := follows
  have same : input = ⟨Int32.ofNat x.val⟩ := congrArg AnalogInput.mk state
  subst same
  unfold Ecam.bright
  rw [isChanged_eq]
  by_cases changed : reading.val + 16 < x.val ∨ x.val + 16 < reading.val
  · rw [if_pos changed]
    refine ⟨again, rfl, ?_, .inl rfl⟩
    show ((latest lvar (log ++ [(lvar, AnalogInput.mapRange (Int32.ofNat again.val) 0 1023 20 0)])).getD 20).toInt = _
    rw [latest_concat_self, Option.getD_some, mapRange_toInt]
  · rw [if_neg changed]
    refine ⟨x, rfl, ?_, .inr (by omega)⟩
    show ((latest lvar (log ++ [])).getD 20).toInt = _
    rwa [List.append_nil]

/-- What a turn writes of the buttons is not a brightness. -/
theorem send_other (knob : Knob) (w : UInt16) (state : UInt8) : ∀ p ∈ sendButtonState w state, p.1 ≠ knob.lvar := by
  have conf : text "AB_ECAM_TOconf" ≠ knob.lvar := by cases knob <;> decide
  have button (i : Fin 16) : lvarOf i ≠ knob.lvar := by
    obtain ⟨-, upper, lower⟩ := lvarOf_other i
    cases knob with
    | upper => exact upper
    | lower => exact lower
  rcases send_cases w state with ⟨j, more, -, sent, rest⟩ | ⟨-, sent⟩
  · rw [sent]
    refine List.forall_mem_cons.mpr ⟨button j, fun p among => ?_⟩
    rw [rest p among]
    exact conf
  · rw [sent]
    exact nofun

theorem bright_names (lvar : Str) (reading again : Fin 1024) (input : AnalogInput) :
    ∀ p ∈ (Ecam.bright lvar reading again input).1, p.1 = lvar := by
  unfold Ecam.bright
  split
  · exact List.forall_mem_singleton.mpr rfl
  · exact nofun

/-- Where a knob stands after a turn, and what its brightness is. -/
theorem knob_turn (knob : Knob) {s : Ecam.Logged} (follows : Follows knob.lvar (knob.input s.1) s.2) (round : Inputs × Oacsp.Event) :
    ∃ x : Fin 1024, (knob.input (Ecam.turn s round).1).state = Int32.ofNat x.val ∧
      ((latest knob.lvar (Ecam.turn s round).2).getD 20).toInt = 20 - (20 * x.val / 1023 : Nat) ∧
      (x = knob.again round.1 ∨ ((knob.reading round.1).val ≤ x.val + 16 ∧ x.val ≤ (knob.reading round.1).val + 16)) := by
  have buttons : ∀ p ∈ sendButtonState (s.1.readCards round.1).activated 1 ++ sendButtonState (s.1.readCards round.1).deactivated 0,
      p.1 ≠ knob.lvar := List.forall_mem_append.mpr ⟨send_other knob _ _, send_other knob _ _⟩
  have written : (Ecam.turn s round).2 = s.2 ++ (sendButtonState (s.1.readCards round.1).activated 1 ++
      sendButtonState (s.1.readCards round.1).deactivated 0) ++
      (Ecam.bright (text "AB_MPL_ECAMU_Power") round.1.upper round.1.upperAgain s.1.upperBright).1 ++
      (Ecam.bright (text "AB_MPL_ECAML_Power") round.1.lower round.1.lowerAgain s.1.lowerBright).1 := by
    rw [List.append_assoc, List.append_assoc, ← List.append_assoc (sendButtonState _ _ ++ _)]
    rfl
  have differ : Knob.upper.lvar ≠ Knob.lower.lvar := by decide
  rw [written]
  cases knob with
  | upper =>
    have lower : ∀ p ∈ (Ecam.bright (text "AB_MPL_ECAML_Power") round.1.lower round.1.lowerAgain s.1.lowerBright).1, p.1 ≠ Knob.upper.lvar := by
      intro p among
      rw [bright_names _ _ _ _ p among]
      exact differ.symm
    rw [latest_append_other lower]
    exact follows_bright (follows.append_other buttons) round.1.upper round.1.upperAgain
  | lower =>
    have upper : ∀ p ∈ (Ecam.bright (text "AB_MPL_ECAMU_Power") round.1.upper round.1.upperAgain s.1.upperBright).1, p.1 ≠ Knob.lower.lvar := by
      intro p among
      rw [bright_names _ _ _ _ p among]
      exact differ
    exact follows_bright ((follows.append_other buttons).append_other upper) round.1.lower round.1.lowerAgain

theorem follows_after (knob : Knob) (run : List (Inputs × Oacsp.Event)) :
    Follows knob.lvar (knob.input (Ecam.after run).1) (Ecam.after run).2 := by
  induction run using List.reverseRecOn with
  | nil => cases knob <;> exact ⟨0, rfl, rfl⟩
  | append_singleton run round ih =>
    rw [Ecam.after_snoc]
    obtain ⟨x, state, value, -⟩ := knob_turn knob ih round
    exact ⟨x, state, value⟩

/-- After every run the brightness lies within one step of the one that goes with the reading
    of the last turn, and within 0 and 20, unless the knob has moved within the turn. -/
theorem brightness_near (knob : Knob) (run : List (Inputs × Oacsp.Event)) (inputs : Inputs) (event : Oacsp.Event)
    (steady : (knob.reading inputs).val ≤ (knob.again inputs).val + 16 ∧ (knob.again inputs).val ≤ (knob.reading inputs).val + 16) :
    let brightness := ((latest knob.lvar (Ecam.after (run ++ [(inputs, event)])).2).getD 20).toInt
    let target := (AnalogInput.mapRange (Int32.ofNat (knob.reading inputs).val) 0 1023 20 0).toInt
    (target - 1 ≤ brightness ∧ brightness ≤ target + 1) ∧ 0 ≤ brightness ∧ brightness ≤ 20 := by
  obtain ⟨x, -, value, place⟩ := knob_turn knob (follows_after knob run) (inputs, event)
  intro brightness target
  have reached : brightness = 20 - (20 * x.val / 1023 : Nat) := by rw [← value, ← Ecam.after_snoc]
  have wanted : target = 20 - (20 * (knob.reading inputs).val / 1023 : Nat) := mapRange_toInt _
  have near : (knob.reading inputs).val ≤ x.val + 16 ∧ x.val ≤ (knob.reading inputs).val + 16 := by
    rcases place with rfl | near
    · exact steady
    · exact near
  rw [reached, wanted]
  omega

/-- A knob that is turned to its end. -/
theorem brightness_near_turned :
    let inputs : Inputs := ⟨fun _ => false, fun _ => false, 1023, 1020, 0, 0⟩
    let brightness := ((latest Knob.upper.lvar (Ecam.after ([] ++ [(inputs, .noEvent)])).2).getD 20).toInt
    let target := (AnalogInput.mapRange (Int32.ofNat (Knob.upper.reading inputs).val) 0 1023 20 0).toInt
    (target - 1 ≤ brightness ∧ brightness ≤ target + 1) ∧ 0 ≤ brightness ∧ brightness ≤ 20 :=
  brightness_near .upper [] ⟨fun _ => false, fun _ => false, 1023, 1020, 0, 0⟩ .noEvent ⟨by decide, by decide⟩

end Oac.Pedestal
