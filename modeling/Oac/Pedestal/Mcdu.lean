import Oac.Arduino.Keypad
import Oac.Pedestal.Ecam

/-!
# The MCDU panel

A keypad whose keys are sent by the variables of the simulator: over a whole run each press
writes what its last key writes, when the key is let go (`writes_eq`).
-/
namespace Oac.Pedestal
open Base Arduino

/-- The keys that write a variable. -/
def keyLVars : List (Int16 × Str) :=
  [(0, text "MCDU_LSK1L"), (1, text "MCDU_LSK2L"), (2, text "MCDU_LSK3L"), (3, text "MCDU_LSK4L"), (4, text "MCDU_LSK5L"), (5, text "MCDU_LSK6L"),
    (6, text "MCDU_LSK1R"), (7, text "MCDU_LSK2R"), (8, text "MCDU_LSK3R"), (9, text "MCDU_LSK4R"), (10, text "MCDU_LSK5R"), (11, text "MCDU_LSK6R"),
    (16, text "MCDU1_DIR_key"), (17, text "MCDU1_PROG_key"), (18, text "MCDU1_PERF_key"), (19, text "MCDU1_INIT_key"),
    (20, text "MCDU1_DATA_key"), (21, text "MCDU1_FPLN_key"), (22, text "MCDU1_RAD_key"), (23, text "MCDU1_FUEL_key"),
    (24, text "MCDU1_SPLN_key"), (26, text "MCDU1_MENU_key"), (27, text "MCDU1_ARPRT_key"), (28, text "MCDU_arrowup"),
    (29, text "MCDU_arrowright"), (30, text "MCDU_arrowdn"),
    (32, text "MCDU_1"), (33, text "MCDU_2"), (34, text "MCDU_3"), (35, text "MCDU_4"), (36, text "MCDU_5"), (37, text "MCDU_6"),
    (38, text "MCDU_7"), (39, text "MCDU_8"), (40, text "MCDU_9"), (41, text "MCDU_ST"), (42, text "MCDU_0"), (43, text "MCDU_SL"),
    (48, text "MCDU_A"), (49, text "MCDU_B"), (50, text "MCDU_C"), (51, text "MCDU_D"), (52, text "MCDU_E"), (53, text "MCDU_F"),
    (54, text "MCDU_G"), (55, text "MCDU_H"), (56, text "MCDU_I"), (57, text "MCDU_J"), (58, text "MCDU_K"), (59, text "MCDU_L"),
    (60, text "MCDU_M"), (61, text "MCDU_N"), (62, text "MCDU_O"),
    (64, text "MCDU_P"), (65, text "MCDU_Q"), (66, text "MCDU_R"), (67, text "MCDU_S"), (68, text "MCDU_T"), (69, text "MCDU_U"),
    (70, text "MCDU_V"), (71, text "MCDU_W"), (72, text "MCDU_X"), (73, text "MCDU_Y"), (74, text "MCDU_Z"),
    (75, text "MCDU_SGN"), (76, text "MCDU_SGN"), (78, text "MCDU_CLR")]

/-- `MCDU_KEY_FIX` and `MCDU_KEY_OVFY`, whose cases do nothing. -/
def deadKeys : List Int16 := [25, 77]

/-- The `switch` over a key. -/
def keyWrites (key : Int16) : List LVarWrite :=
  match keyLVars.lookup key with
  | some lvar => [(lvar, 1)]
  | none => if key ∈ deadKeys then [] else if 0 ≤ key then [(text "MCDU_UNKNOWN", key.toInt32)] else []

/-- `Mcdu`. -/
structure Mcdu where
  kb : Keypad

namespace Mcdu

/-- The controllers of the panel, by their index, with the pins of data and of output. -/
def controllers : List (Fin 8 × Int16 × Int16) := [(0, 40, 41), (1, 42, 43), (2, 44, 45), (3, 46, 47), (4, 48, 49)]

def setup (m : Mcdu) : Mcdu :=
  ⟨controllers.foldl (fun kb c => (kb.configController c.1 c.2.1 c.2.2).2) (m.kb.configBus 2 3 4 5).2⟩

/-- The panel after `setup`. -/
def start : Mcdu := setup ⟨Keypad.start⟩

def loop (pins : Pins) (m : Mcdu) : List LVarWrite × Mcdu :=
  let (key, kb) := m.kb.readKeyType pins
  (keyWrites key, ⟨kb⟩)

/-- All that a run writes. -/
def writes : List Pins → Mcdu → List LVarWrite
  | [], _ => []
  | pins :: run, m => (m.loop pins).1 ++ writes run (m.loop pins).2

/-- The key that a sample reads on the lines of the panel. -/
def key (pins : Pins) : Int16 := start.kb.readKey pins

/-! ## Runs -/

theorem keyWrites_negative {key : Int16} (negative : key < 0) : keyWrites key = [] := by
  have keys : keyLVars.all fun p => 0 ≤ p.1 := by decide
  have dead : deadKeys.all fun k => 0 ≤ k := by decide
  have missing : keyLVars.lookup key = none := by
    rw [List.lookup_eq_none_iff]
    intro p among
    simpa using fun same : key = p.1 => absurd (of_decide_eq_true (List.all_eq_true.mp keys p among)) (by rw [← same]; exact Int16.not_le.mpr negative)
  have alive : key ∉ deadKeys := fun among => absurd (of_decide_eq_true (List.all_eq_true.mp dead key among)) (Int16.not_le.mpr negative)
  simp only [keyWrites, missing, if_neg alive, if_neg (Int16.not_le.mpr negative)]

/-- What is written is written for the keys that are returned. -/
theorem writes_types (run : List Pins) (m : Mcdu) :
    writes run m = ((Keypad.types run m.kb).filter fun key => 0 ≤ key).flatMap keyWrites := by
  induction run generalizing m with
  | nil => rfl
  | cons pins run ih =>
    have rest := ih (m.loop pins).2
    rw [writes, Keypad.types, List.filter_cons, rest]
    by_cases pressed : 0 ≤ (m.kb.readKeyType pins).1
    · rw [if_pos (decide_eq_true pressed), List.flatMap_cons]
      rfl
    · have nothing : (m.loop pins).1 = [] := keyWrites_negative (Int16.not_le.mp pressed)
      rw [if_neg (by simpa using pressed), nothing]
      rfl

/-- Over every run each press that has ended writes what the last key that it was sampled with
    writes, in the order of the presses. -/
theorem writes_eq (run : List Pins) : writes run start = (blockEnds Keypad.idle (run.map key)).flatMap keyWrites := by
  rw [writes_types, Keypad.types_eq run rfl]
  rfl

end Mcdu
end Oac.Pedestal
