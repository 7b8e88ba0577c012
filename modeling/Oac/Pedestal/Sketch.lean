import Oac.Oacsp.Observers
import Oac.Oacsp.Session
import Oac.Pedestal.Engine
import Oac.Pedestal.Mcdu

/-!
# The sketch of the pedestal

The three panels on one serial port. The gateway executes what the panels write, once and
in order (`session_served`); each variable of the simulator has the value that its own
panel has written last (`latest_panels`); and the lights of the ECAM are those of the events
of the gateway, but for the ones that wait (`lights_told`).
-/
namespace Oac.Pedestal
open Base Arduino Oacsp

structure Sketch where
  serial : SerialProtocol
  ecam : Ecam
  engine : Engine
  mcdu : Mcdu

namespace Sketch

def deviceName : Str := text "PedestalMaster"

/-- The variables that the ECAM panel observes. -/
def observedLVars : List Str := [text "AB_ECAM_CLR_Light", text "ECAM_MODE"]

def start : Sketch := ⟨SerialProtocol.start, Ecam.start, Engine.start, Mcdu.start⟩

/-- What `setup` prints. -/
def setup : Str := beginLine deviceName ++ newline ++ observedLVars.flatMap observeLVar

/-- What a turn of the loop finds: the bytes that have come in, and what the panels read. -/
structure Round where
  bytes : Str
  ecam : Inputs
  engine : Engine.Readings
  mcdu : Pins

section
variable (toInt : Str → Int32)

/-- The serial port after `pollEvent`. -/
def polled (round : Round) (s : Sketch) : SerialProtocol := (pollEvent toInt (s.serial.receive round.bytes)).2

def loop (round : Round) (s : Sketch) : List LVarWrite × (UInt8 × UInt8) × Sketch :=
  let serial := s.polled toInt round
  let (writes, outputs, ecam) := s.ecam.loop round.ecam serial.polledEvent
  let (writes', engine) := s.engine.loop round.engine
  let (writes'', mcdu) := s.mcdu.loop round.mcdu
  (writes ++ writes' ++ writes'', outputs, { serial, ecam, engine, mcdu })

/-- The sketch with all that it has written so far. -/
abbrev Logged := Sketch × List LVarWrite

def turn (s : Logged) (round : Round) : Logged :=
  let (writes, _, sketch) := s.1.loop toInt round
  (sketch, s.2 ++ writes)

def after (run : List Round) : Logged := run.foldl (turn toInt) (start, [])

/-- All that the sketch has printed. -/
def printed (run : List Round) : Str := setup ++ (after toInt run).2.flatMap fun write => writeLVar write.1 write.2

/-- What the ECAM panel finds in the turns of a run: what it reads, and the event of the poll. -/
def ecamRounds : List Round → Sketch → List (Inputs × Event)
  | [], _ => []
  | round :: run, s => (round.ecam, (s.polled toInt round).polledEvent) :: ecamRounds run (s.loop toInt round).2.2

theorem after_snoc (run : List Round) (round : Round) : after toInt (run ++ [round]) = turn toInt (after toInt run) round := by
  rw [after, List.foldl_append]
  rfl

end

/-! ## The panels -/

def ecamLVars : List Str :=
  [text "AB_ECAM_TOCFG", text "AB_ECAM_TOconf", text "AB_MPL_ECAMU_Power", text "AB_MPL_ECAML_Power"] ++ buttonLVars.map Prod.snd

def engineLVars : List Str := [text "AB_PDS_Eng1Master", text "AB_PDS_Eng2Master", text "AB_PDS_ignition"]

def mcduLVars : List Str := text "MCDU_UNKNOWN" :: keyLVars.map Prod.snd

/-- A name that the library can print, of a panel that its fourth letter tells. -/
def ofPanel (letters : List UInt8) (name : Str) : Bool :=
  !name.isEmpty && name.all isNameByte && name.length ≤ 40 && letters.contains (name.getD 3 0)

theorem ofPanel_apart {letters others : List UInt8} {name : Str} (apart : letters.all fun c => !others.contains c)
    (isNamed : ofPanel letters name) : ¬ ofPanel others name := by
  intro other
  have own := List.contains_iff_mem.mp (Bool.and_eq_true_iff.mp isNamed).2
  have missing := List.all_eq_true.mp apart _ own
  rw [(Bool.and_eq_true_iff.mp other).2] at missing
  exact absurd missing (by decide)

theorem ecam_ofPanel : ∀ name ∈ ecamLVars, ofPanel [0x45, 0x4d] name := by
  simp only [ecamLVars, buttonLVars, List.map_cons, List.map_nil, List.cons_append, List.nil_append, List.forall_mem_cons]
  and_intros
  all_goals first | exact List.forall_mem_nil _ | (rw [text_ofList]; rfl)

theorem engine_ofPanel : ∀ name ∈ engineLVars, ofPanel [0x50] name := by
  simp only [engineLVars, List.forall_mem_cons]
  and_intros
  all_goals first | exact List.forall_mem_nil _ | (rw [text_ofList]; rfl)

theorem mcdu_ofPanel : ∀ name ∈ mcduLVars, ofPanel [0x55] name := by
  simp only [mcduLVars, keyLVars, List.map_cons, List.map_nil, List.forall_mem_cons]
  and_intros
  all_goals first | exact List.forall_mem_nil _ | (rw [text_ofList]; rfl)

theorem lvars_apart (name : Str) (ecam : name ∈ ecamLVars) : name ∉ engineLVars ∧ name ∉ mcduLVars :=
  ⟨fun engine => ofPanel_apart rfl (ecam_ofPanel name ecam) (engine_ofPanel name engine),
    fun mcdu => ofPanel_apart rfl (ecam_ofPanel name ecam) (mcdu_ofPanel name mcdu)⟩

theorem lvars_apart' (name : Str) (engine : name ∈ engineLVars) : name ∉ mcduLVars :=
  fun mcdu => ofPanel_apart rfl (engine_ofPanel name engine) (mcdu_ofPanel name mcdu)

theorem lvars_plain (name : Str) (known : name ∈ ecamLVars ++ engineLVars ++ mcduLVars) : Plain name ∧ name.length ≤ 40 := by
  have fits {letters : List UInt8} (isNamed : ofPanel letters name) : Plain name ∧ name.length ≤ 40 := by
    simp only [ofPanel, Bool.and_eq_true, Bool.not_eq_true', List.isEmpty_eq_false_iff, List.all_eq_true, decide_eq_true_eq] at isNamed
    exact ⟨⟨isNamed.1.1.1, isNamed.1.1.2⟩, isNamed.1.2⟩
  simp only [List.mem_append] at known
  rcases known with (ecam | engine) | mcdu
  · exact fits (ecam_ofPanel name ecam)
  · exact fits (engine_ofPanel name engine)
  · exact fits (mcdu_ofPanel name mcdu)

section
variable {toInt : Str → Int32}

theorem ecamRounds_append (run run' : List Round) (s : Sketch) : ecamRounds toInt (run ++ run') s =
    ecamRounds toInt run s ++ ecamRounds toInt run' (run.foldl (fun s round => (s.loop toInt round).2.2) s) := by
  induction run generalizing s with
  | nil => rfl
  | cons round run ih => rw [List.cons_append, ecamRounds, ecamRounds, ih, List.cons_append, List.foldl_cons]

theorem after_fst (run : List Round) : (after toInt run).1 = run.foldl (fun s round => (s.loop toInt round).2.2) start := by
  induction run using List.reverseRecOn with
  | nil => rfl
  | append_singleton run round ih =>
    rw [after_snoc, List.foldl_append, ← ih]
    rfl

theorem ecamRounds_snoc (run : List Round) (round : Round) : ecamRounds toInt (run ++ [round]) start =
    ecamRounds toInt run start ++ [(round.ecam, ((after toInt run).1.polled toInt round).polledEvent)] := by
  rw [ecamRounds_append, ← after_fst]
  rfl

theorem writes_snoc (run : List Pins) (pins : Pins) (m : Mcdu) : Mcdu.writes (run ++ [pins]) m =
    Mcdu.writes run m ++ ((run.foldl (fun m pins => (m.loop pins).2) m).loop pins).1 := by
  induction run generalizing m with
  | nil => simp [Mcdu.writes]
  | cons first run ih => rw [List.cons_append, Mcdu.writes, Mcdu.writes, ih, List.append_assoc, List.foldl_cons]

/-- The panels in the sketch are as on their own. -/
theorem after_panels (run : List Round) : (after toInt run).1.ecam = (Ecam.after (ecamRounds toInt run start)).1 ∧
    (after toInt run).1.engine = (Engine.after (run.map Round.engine)).1 ∧
    (after toInt run).1.mcdu = (run.map Round.mcdu).foldl (fun m pins => (m.loop pins).2) Mcdu.start := by
  induction run using List.reverseRecOn with
  | nil => exact ⟨rfl, rfl, rfl⟩
  | append_singleton run round ih =>
    obtain ⟨ecam, engine, mcdu⟩ := ih
    rw [after_snoc, ecamRounds_snoc, Ecam.after_snoc, List.map_append, List.map_append, List.map_singleton, List.map_singleton,
      Engine.after_snoc, List.foldl_append, ← mcdu]
    refine ⟨?_, ?_, rfl⟩
    · show (Ecam.loop _ _ (after toInt run).1.ecam).2.2 = _
      rw [ecam]
      rfl
    · show (Engine.loop _ (after toInt run).1.engine).2 = _
      rw [engine]
      rfl

/-! ### Names -/

theorem ecam_names (inputs : Inputs) (event : Event) (e : Ecam) : ∀ p ∈ (e.loop inputs event).1, p.1 ∈ ecamLVars := by
  have buttons (i : Fin 16) : lvarOf i ∈ ecamLVars := by
    by_cases first : i = 0
    · rw [first]
      exact List.mem_cons_self
    · obtain ⟨before, later, split, -⟩ := List.lookup_eq_some_iff.mp (buttonBit_lookup i first)
      refine List.mem_append_right _ (List.mem_map.mpr ⟨(buttonBit i, lvarOf i), ?_, rfl⟩)
      rw [split]
      exact List.mem_append_right _ List.mem_cons_self
  have send (w : UInt16) (state : UInt8) : ∀ p ∈ sendButtonState w state, p.1 ∈ ecamLVars := by
    rcases send_cases w state with ⟨j, more, -, sent, rest⟩ | ⟨-, sent⟩
    · rw [sent]
      refine List.forall_mem_cons.mpr ⟨buttons j, fun p among => ?_⟩
      rw [rest p among]
      decide
    · rw [sent]
      exact nofun
  have knob (lvar : Str) (known : lvar ∈ ecamLVars) (reading again : Fin 1024) (input : AnalogInput) :
      ∀ p ∈ (Ecam.bright lvar reading again input).1, p.1 ∈ ecamLVars := by
    intro p among
    rwa [bright_names lvar reading again input p among]
  have all := List.forall_mem_append.mpr ⟨List.forall_mem_append.mpr ⟨List.forall_mem_append.mpr ⟨send (e.readCards inputs).activated 1,
    send (e.readCards inputs).deactivated 0⟩, knob (text "AB_MPL_ECAMU_Power") (by decide) inputs.upper inputs.upperAgain e.upperBright⟩,
    knob (text "AB_MPL_ECAML_Power") (by decide) inputs.lower inputs.lowerAgain e.lowerBright⟩
  exact all

theorem engine_names (readings : Engine.Readings) (e : Engine) : ∀ p ∈ (e.loop readings).1, p.1 ∈ engineLVars := by
  intro p among
  rcases List.mem_append.mp among with among | selected
  · rcases List.mem_append.mp among with one | two
    · rw [Engine.toggle_names _ _ p one]
      decide
    · rw [Engine.toggle_names _ _ p two]
      decide
  · obtain ⟨pos, -, rfl⟩ := List.mem_map.mp selected
    show text "AB_PDS_ignition" ∈ engineLVars
    decide

theorem keyWrites_names (key : Int16) : ∀ p ∈ keyWrites key, p.1 ∈ mcduLVars := by
  unfold keyWrites
  split
  · rename_i lvar found
    obtain ⟨before, later, split, -⟩ := List.lookup_eq_some_iff.mp found
    refine List.forall_mem_singleton.mpr (List.mem_cons_of_mem _ (List.mem_map.mpr ⟨(key, lvar), ?_, rfl⟩))
    rw [split]
    simp
  · split_ifs
    · exact nofun
    · exact List.forall_mem_singleton.mpr List.mem_cons_self
    · exact nofun

/-- A turn tells each variable what its panel tells of it. -/
theorem latest_loop (round : Round) (s : Sketch) (name : Str) :
    (name ∈ ecamLVars → latest name (s.loop toInt round).1 = latest name (s.ecam.loop round.ecam (s.polled toInt round).polledEvent).1) ∧
      (name ∈ engineLVars → latest name (s.loop toInt round).1 = latest name (s.engine.loop round.engine).1) ∧
      (name ∈ mcduLVars → latest name (s.loop toInt round).1 = latest name (s.mcdu.loop round.mcdu).1) := by
  have written : (s.loop toInt round).1 = (s.ecam.loop round.ecam (s.polled toInt round).polledEvent).1 ++ (s.engine.loop round.engine).1 ++
      (s.mcdu.loop round.mcdu).1 := rfl
  have ecam := ecam_names round.ecam (s.polled toInt round).polledEvent s.ecam
  have engine := engine_names round.engine s.engine
  have mcdu := keyWrites_names (s.mcdu.kb.readKeyType round.mcdu).1
  rw [written, latest_append, latest_append]
  refine ⟨fun known => ?_, fun known => ?_, fun known => ?_⟩
  · obtain ⟨noEngine, noMcdu⟩ := lvars_apart name known
    have first : latest name (s.engine.loop round.engine).1 = none := latest_other fun p among same => noEngine (same ▸ engine p among)
    have second : latest name (s.mcdu.loop round.mcdu).1 = none := latest_other fun p among same => noMcdu (same ▸ mcdu p among)
    rw [first, second, Option.none_or, Option.none_or]
  · have first : latest name (s.ecam.loop round.ecam (s.polled toInt round).polledEvent).1 = none :=
      latest_other fun p among same => (lvars_apart p.1 (ecam p among)).1 (same.symm ▸ known)
    have second : latest name (s.mcdu.loop round.mcdu).1 = none :=
      latest_other fun p among same => lvars_apart' name known (same ▸ mcdu p among)
    rw [first, second, Option.none_or, Option.or_none]
  · have first : latest name (s.ecam.loop round.ecam (s.polled toInt round).polledEvent).1 = none :=
      latest_other fun p among same => (lvars_apart p.1 (ecam p among)).2 (same.symm ▸ known)
    have second : latest name (s.engine.loop round.engine).1 = none :=
      latest_other fun p among same => lvars_apart' p.1 (engine p among) (same.symm ▸ known)
    rw [first, second, Option.or_none, Option.or_none]

/-- After every run the last value of a variable is the one that its own panel has written last,
    as if it were alone. -/
theorem latest_panels (toInt : Str → Int32) (run : List Round) (name : Str) :
    (name ∈ ecamLVars → latest name (after toInt run).2 = latest name (Ecam.after (ecamRounds toInt run start)).2) ∧
      (name ∈ engineLVars → latest name (after toInt run).2 = latest name (Engine.after (run.map Round.engine)).2) ∧
      (name ∈ mcduLVars → latest name (after toInt run).2 = latest name (Mcdu.writes (run.map Round.mcdu) Mcdu.start)) := by
  induction run using List.reverseRecOn with
  | nil => exact ⟨fun _ => rfl, fun _ => rfl, fun _ => rfl⟩
  | append_singleton run round ih =>
    obtain ⟨ecam, engine, mcdu⟩ := @after_panels toInt run
    obtain ⟨ecam', engine', mcdu'⟩ := @latest_loop toInt round (after toInt run).1 name
    have log : (after toInt (run ++ [round])).2 = (after toInt run).2 ++ ((after toInt run).1.loop toInt round).1 := by
      rw [after_snoc]
      rfl
    rw [log, latest_append]
    refine ⟨fun known => ?_, fun known => ?_, fun known => ?_⟩
    · rw [ecam' known, ih.1 known, ecamRounds_snoc, Ecam.after_snoc, ecam, ← latest_append]
      rfl
    · rw [engine' known, ih.2.1 known, List.map_append, List.map_singleton, Engine.after_snoc, engine, ← latest_append]
      rfl
    · rw [mcdu' known, ih.2.2 known, List.map_append, List.map_singleton, writes_snoc, mcdu, ← latest_append]

/-! ## The session -/

theorem written_names (run : List Round) : ∀ p ∈ (after toInt run).2, p.1 ∈ ecamLVars ++ engineLVars ++ mcduLVars := by
  induction run using List.reverseRecOn with
  | nil => exact nofun
  | append_singleton run round ih =>
    rw [after_snoc]
    refine List.forall_mem_append.mpr ⟨ih, List.forall_mem_append.mpr ⟨List.forall_mem_append.mpr ⟨fun p among => ?_, fun p among => ?_⟩, fun p among => ?_⟩⟩
    · exact List.mem_append_left _ (List.mem_append_left _ (ecam_names round.ecam ((after toInt run).1.polled toInt round).polledEvent (after toInt run).1.ecam p among))
    · exact List.mem_append_left _ (List.mem_append_right _ (engine_names _ _ p among))
    · exact List.mem_append_right _ (keyWrites_names _ p among)

theorem observed_plain : ∀ lvar ∈ observedLVars, Plain lvar ∧ isMethod (.string lvar) = false ∧ (obsLine lvar).length ≤ 63 := by decide +kernel

/-- The lines that the sketch prints. -/
theorem wholeLines_printed (run : List Round) :
    wholeLines (printed toInt run) = beginLine deviceName :: (observedLVars.map obsLine ++ (after toInt run).2.map writeLine) := by
  have begun : 0x0a ∉ beginLine deviceName := by decide +kernel
  have names (p : LVarWrite) (among : p ∈ (after toInt run).2) := (lvars_plain p.1 (written_names run p among)).1
  have observes : observedLVars.flatMap observeLVar = observedLVars.flatMap fun lvar => obsLine lvar ++ newline :=
    List.flatMap_congr fun lvar among => observeLVar_eq (observed_plain lvar among).1
  have writes : ((after toInt run).2.flatMap fun write => writeLVar write.1 write.2) = (after toInt run).2.flatMap fun write => writeLine write ++ newline :=
    List.flatMap_congr fun p among => writeLVar_eq (names p among)
  have rest := wholeLines_flatMap (fun p among => writeLine_printed (names p among)) []
  rw [printed, setup, observes, writes, List.append_assoc, List.append_assoc, wholeLines_cons begun,
    wholeLines_flatMap fun lvar among => obsLine_printed (observed_plain lvar among).1]
  rw [List.append_nil] at rest
  rw [rest]
  simp [wholeLines]

theorem handles_observed (handle : Nat) (key : Key) :
    (observedLVars.foldl (observed handle) Gateway.start).handles key = if key ∈ observedLVars.map Key.string then [handle] else [] := by
  have step (g : Gateway) (lvar : Str) : (observed handle g lvar).handles key = g.handles key ++ if Key.string lvar = key then [handle] else [] :=
    observe_handles (.string lvar) handle g key
  have apart : Key.string (text "AB_ECAM_CLR_Light") ≠ Key.string (text "ECAM_MODE") := by decide
  show (observed handle (observed handle Gateway.start (text "AB_ECAM_CLR_Light")) (text "ECAM_MODE")).handles key =
    if key ∈ [Key.string (text "AB_ECAM_CLR_Light"), Key.string (text "ECAM_MODE")] then [handle] else []
  have none : Gateway.start.handles key = [] := rfl
  rw [step, step, none, List.nil_append]
  by_cases clr : Key.string (text "AB_ECAM_CLR_Light") = key
  · subst clr
    rw [if_pos rfl, if_neg apart.symm, if_pos List.mem_cons_self, List.append_nil]
  · by_cases mode : Key.string (text "ECAM_MODE") = key
    · subst mode
      rw [if_neg apart, if_pos rfl, if_pos (List.mem_cons_of_mem _ List.mem_cons_self), List.nil_append]
    · have other : key ∉ [Key.string (text "AB_ECAM_CLR_Light"), Key.string (text "ECAM_MODE")] :=
        List.not_mem_cons_of_ne_of_not_mem (Ne.symm clr) (List.not_mem_cons_of_ne_of_not_mem (Ne.symm mode) List.not_mem_nil)
      rw [if_neg clr, if_neg mode, if_neg other, List.nil_append]

end

/-- The gateway opens the port of the sketch, and in every run executes all that the sketch has
    written, once and in order, without an error; no line is too long to be read at once. -/
theorem session_served {refuses : Call → Bool} (documented : ∀ c : Call, c.Documented → refuses c = false) (handle : Nat)
    (toInt : Str → Int32) (run : List Round) : ∃ first rest g, wholeLines (printed toInt run) = first :: rest ∧
      (∀ line ∈ first :: rest, line.length ≤ 63) ∧
      readBeginLine (first :: rest) = some (some (text "1", deviceName)) ∧
      serve refuses handle rest Gateway.start = .ok () g ∧
      g.calls = observedLVars.map Call.eventLvar ++ (after toInt run).2.map writeCall ∧
      ∀ key, g.handles key = if key ∈ observedLVars.map Key.string then [handle] else [] := by
  have names (p : LVarWrite) (among : p ∈ (after toInt run).2) := lvars_plain p.1 (written_names run p among)
  let opened := observedLVars.foldl (observed handle) Gateway.start
  refine ⟨_, _, { opened with calls := opened.calls ++ (after toInt run).2.map writeCall }, wholeLines_printed run, List.forall_mem_cons.mpr ⟨by decide +kernel, List.forall_mem_append.mpr ⟨?_, ?_⟩⟩, ?_, ?_, ?_, ?_⟩
  · exact List.forall_mem_map.mpr fun lvar among => (observed_plain lvar among).2.2
  · exact List.forall_mem_map.mpr fun p among => writeLine_length (names p among).2
  · exact readBeginLine_beginLine (by decide) (by decide +kernel) _
  · have observes := serve_observes documented handle (fun lvar among => ⟨(observed_plain lvar among).1, (observed_plain lvar among).2.1⟩) Gateway.start
    exact (serve_append _ observes).trans (serve_writes documented handle (fun p among => (names p among).1) _)
  · rfl
  · exact handles_observed handle

/-- A key of the ECAM panel is pressed. -/
def pressing : Round :=
  ⟨[], ⟨fun pulse => pulse = 6, fun _ => false, 0, 0, 0, 0⟩, ⟨⟨true, 1, 1⟩, ⟨true, 1, 1⟩, fun _ => ⟨true, 1, 1⟩⟩, fun _ _ => false⟩

theorem session_served_pressing : ∃ first rest g, wholeLines (printed (fun _ => 0) [pressing]) = first :: rest ∧
    (∀ line ∈ first :: rest, line.length ≤ 63) ∧
    readBeginLine (first :: rest) = some (some (text "1", deviceName)) ∧
    serve (fun _ => false) 1 rest Gateway.start = .ok () g ∧
    g.calls = observedLVars.map Call.eventLvar ++ (after (fun _ => 0) [pressing]).2.map writeCall ∧
    ∀ key, g.handles key = if key ∈ observedLVars.map Key.string then [1] else [] :=
  session_served (fun _ _ => rfl) 1 (fun _ => 0) [pressing]

/-! ## Events of the gateway -/

/-- A variable and its new value. -/
abbrev Change := LvarName × Int32

def Change.notification (c : Change) : Notification := .lvar c.1 c.2

/-- A turn before which the gateway has written the events of some changes. -/
def receiving (platform : Platform) (x : Round × List Change) : Round :=
  { x.1 with bytes := x.2.flatMap fun c => c.notification.line platform }

def named (c : Change) : LVarWrite := (c.1.name, c.2)

section
variable {platform : Platform} (documented : platform.Documented)
include documented

/-- A turn takes the first event of those that wait. -/
theorem polled_waiting {s : Sketch} {waiting : List Change} (incoming : s.serial.incoming = waiting.flatMap fun c => c.notification.line platform)
    {x : Round × List Change} (fits : ∀ c ∈ waiting ++ x.2, c.notification.Fits) : ∃ taken rest : List Change, taken ++ rest = waiting ++ x.2 ∧
      rest.length = waiting.length + x.2.length - 1 ∧
      (s.polled platform.toInt (receiving platform x)).incoming = rest.flatMap (fun c => c.notification.line platform) ∧
      told [(x.1.ecam, (s.polled platform.toInt (receiving platform x)).polledEvent)] = taken.map named := by
  have arrived : (s.serial.receive (receiving platform x).bytes).incoming = (waiting ++ x.2).flatMap fun c => c.notification.line platform := by
    rw [List.flatMap_append, ← incoming]
    rfl
  rw [← List.length_append]
  cases queue : waiting ++ x.2 with
  | nil =>
    rw [queue] at arrived
    obtain ⟨nothing, empty⟩ := @pollEvent_empty platform.toInt _ arrived
    exact ⟨[], [], rfl, rfl, empty, by rw [polled, nothing]; rfl⟩
  | cons c rest =>
    rw [queue] at arrived fits
    obtain ⟨event, behind⟩ := pollEvent_lvar_queued documented (fits c List.mem_cons_self) arrived
    exact ⟨[c], rest, rfl, rfl, behind, by rw [polled, event]; rfl⟩

/-- After every run the events that the gateway has written are those that the panel was told
    of, and those that wait in the serial port. -/
theorem told_waiting (run : List (Round × List Change)) (fits : ∀ x ∈ run, ∀ c ∈ x.2, c.notification.Fits) :
    ∃ processed waiting : List Change, processed ++ waiting = run.flatMap Prod.snd ∧
      waiting.length = run.foldl (fun n x => n + x.2.length - 1) 0 ∧
      (after platform.toInt (run.map (receiving platform))).1.serial.incoming = waiting.flatMap (fun c => c.notification.line platform) ∧
      told (ecamRounds platform.toInt (run.map (receiving platform)) start) = processed.map named := by
  induction run using List.reverseRecOn with
  | nil => exact ⟨[], [], rfl, rfl, rfl, rfl⟩
  | append_singleton run x ih =>
    obtain ⟨before, last⟩ := List.forall_mem_append.mp fits
    obtain ⟨processed, waiting, all, number, incoming, events⟩ := ih before
    have fits' : ∀ c ∈ waiting ++ x.2, c.notification.Fits := by
      refine List.forall_mem_append.mpr ⟨fun c among => ?_, last x List.mem_cons_self⟩
      have sent : c ∈ run.flatMap Prod.snd := all ▸ List.mem_append_right _ among
      obtain ⟨y, here, within⟩ := List.mem_flatMap.mp sent
      exact before y here c within
    obtain ⟨taken, rest, same, number', incoming', events'⟩ := polled_waiting documented incoming fits'
    refine ⟨processed ++ taken, rest, ?_, ?_, ?_, ?_⟩
    · rw [List.append_assoc, same, ← List.append_assoc, all, List.flatMap_append, List.flatMap_singleton]
    · rw [List.foldl_append, ← number, number']
      rfl
    · rw [List.map_append, List.map_singleton, after_snoc]
      exact incoming'
    · rw [List.map_append, List.map_singleton, ecamRounds_snoc, told_snoc, events, List.map_append]
      exact congrArg (processed.map named ++ ·) events'

/-- After every run the lights are those of the events that the gateway has written, in their
    order, but for the last ones, which wait in the serial port until each turn has taken one. -/
theorem lights_told (run : List (Round × List Change)) (fits : ∀ x ∈ run, ∀ c ∈ x.2, c.notification.Fits) :
    let s := (after platform.toInt (run.map (receiving platform))).1
    ∃ processed waiting : List Change, processed ++ waiting = run.flatMap Prod.snd ∧
      waiting.length = run.foldl (fun n x => n + x.2.length - 1) 0 ∧
      s.serial.incoming = waiting.flatMap (fun c => c.notification.line platform) ∧
      s.ecam.lights = pageLight (latest (text "ECAM_MODE") (processed.map named)) |||
        clrLight (latest (text "AB_ECAM_CLR_Light") (processed.map named)) := by
  obtain ⟨processed, waiting, all, number, incoming, events⟩ := told_waiting documented run fits
  refine ⟨processed, waiting, all, number, incoming, ?_⟩
  rw [(after_panels _).1, lights_eq, events]

end

/-- The variable of the page. -/
def ecamMode : LvarName := ⟨text "ECAM_MODE", by decide, by decide +kernel⟩

/-- Two pages are told of before one turn. -/
theorem lights_told_pages :
    let run : List (Round × List Change) := [(pressing, [(ecamMode, 3), (ecamMode, 4)])]
    let s := (after narrow.toInt (run.map (receiving narrow))).1
    ∃ processed waiting : List Change, processed ++ waiting = run.flatMap Prod.snd ∧
      waiting.length = run.foldl (fun n x => n + x.2.length - 1) 0 ∧
      s.serial.incoming = waiting.flatMap (fun c => c.notification.line narrow) ∧
      s.ecam.lights = pageLight (latest (text "ECAM_MODE") (processed.map named)) |||
        clrLight (latest (text "AB_ECAM_CLR_Light") (processed.map named)) := by
  have fits : ∀ value, (Notification.lvar ecamMode value).Fits := fun _ => ⟨by decide, by decide +kernel⟩
  refine lights_told narrow_documented _ fun x among c within => ?_
  rw [List.mem_singleton.mp among] at within
  rcases List.mem_cons.mp within with rfl | within
  · exact fits 3
  · rw [List.mem_singleton.mp within]
    exact fits 4

end Sketch
end Oac.Pedestal
