import Oac.Oacsp.Events
import Oac.Oacsp.Lines
import Oac.Oacsp.Polls

/-!
# Sessions of a device

A device prints a line to begin with and then lines with commands. The gateway opens the
port with the first line, and executes what comes after it line by line: all commands, once
and in order (`serve_writes`).
-/
namespace Oac.Oacsp
open Base
open Fsuipc (isDecDigit)

/-! ## The beginning -/

def protocolVersion : Nat := 1

/-- The line of `begin`. -/
def beginLine (clientName : Str) : Str := text "BEGIN " ++ (printHex protocolVersion ++ (text " " ++ clientName))

/-- The class `[%a%d_ ]`. -/
def isClientByte (c : UInt8) : Bool := isNameByte c ∨ c = 0x20

/-- `BEGIN (%d+) ([%a%d_ ]+)` -/
def beginPattern : List (Piece UInt8) := [.text (text "BEGIN "), .many isDecDigit, .text (text " "), .many isClientByte]

/-- `ReadBeginLine`, with what the reads of the port return. The version and the name of the
    client, if the first line that is not empty has them; nothing while there is no such line. -/
def readBeginLine (reads : List Str) : Option (Option (Str × Str)) :=
  (reads.find? (· ≠ [])).map fun line =>
    match Piece.search beginPattern line with
    | some [_, ver, _, client] => some (ver, client)
    | _ => none

theorem readBeginLine_beginLine {clientName : Str} (nonempty : clientName ≠ []) (plain : ∀ c ∈ clientName, isClientByte c)
    (later : List Str) : readBeginLine (beginLine clientName :: later) = some (some (text "1", clientName)) := by
  have name : Piece.matchHere [.many isClientByte] (clientName ++ []) = some [clientName] :=
    Piece.matchHere_many nonempty plain (by simp) Piece.matchHere_nil
  rw [List.append_nil] at name
  have space : Piece.matchHere [.text (text " "), .many isClientByte] (text " " ++ clientName) = some [text " ", clientName] := by
    rw [Piece.matchHere_text, name]
    rfl
  have version := Piece.matchHere_many (numeral_ne_nil protocolVersion) (fun c among => numeral_dec protocolVersion among)
    (by intro c first; cases first; decide) space
  have found : Piece.search beginPattern (beginLine clientName) = some [text "BEGIN ", text "1", text " ", clientName] := by
    apply Piece.search_here
    unfold beginPattern beginLine
    rw [Piece.matchHere_text]
    exact congrArg (Option.map (text "BEGIN " :: ·)) version
  have some : beginLine clientName ≠ [] := by simp [beginLine, text]
  rw [readBeginLine, List.find?_cons_of_pos (by simpa using some), Option.map_some, found]

/-! ## Lines -/

/-- The lines of a stream that have come to their end. -/
def wholeLines (stream : Str) : List Str := (stream.splitOnP (· = 0x0a)).dropLast

theorem wholeLines_cons {line : Str} (printed : 0x0a ∉ line) (rest : Str) :
    wholeLines (line ++ (newline ++ rest)) = line :: wholeLines rest := by
  have clear : ∀ c ∈ line, decide (c = 0x0a) = false := fun c among => by
    simpa using fun same : c = 0x0a => printed (same ▸ among)
  have split := List.splitOnP_append_cons_of_forall_mem clear 0x0a (by decide) rest
  rw [wholeLines, newline, List.singleton_append, split, List.dropLast_cons_of_ne_nil (List.splitOnP_ne_nil _ _)]
  rfl

theorem wholeLines_flatMap {α : Type*} {line : α → Str} {commands : List α} (printed : ∀ c ∈ commands, 0x0a ∉ line c) (rest : Str) :
    wholeLines (commands.flatMap (fun c => line c ++ newline) ++ rest) = commands.map line ++ wholeLines rest := by
  induction commands with
  | nil => rfl
  | cons c commands ih =>
    obtain ⟨first, others⟩ := List.forall_mem_cons.mp printed
    rw [List.flatMap_cons, List.append_assoc, List.append_assoc, wholeLines_cons first, ih others]
    rfl

/-! ## Commands -/

/-- A name over `[A-Za-z0-9_]`. -/
def Plain (name : Str) : Prop := name ≠ [] ∧ ∀ c ∈ name, isNameByte c
instance (name : Str) : Decidable (Plain name) :=
  decidable_of_iff (name ≠ [] ∧ name.all isNameByte) (and_congr_right fun _ => List.all_eq_true)

def obsLine (lvar : Str) : Str := lineOf (text "OBS_LVAR") lvar

def writeLine (write : Str × Int32) : Str := lineOf (text "WRITE_LVAR") (write.1 ++ (text " " ++ printDec write.2.toInt))

variable {lvar : Str} {write : Str × Int32}

theorem observeLVar_eq (plain : Plain lvar) : observeLVar lvar = obsLine lvar ++ newline :=
  print_eq (.observeLVar ⟨lvar, plain.1, plain.2⟩)

theorem writeLVar_eq (plain : Plain write.1) : writeLVar write.1 write.2 = writeLine write ++ newline :=
  print_eq (.writeLVar ⟨write.1, plain.1, plain.2⟩ write.2)

/-- A line has no newline inside. -/
theorem obsLine_printed (plain : Plain lvar) : 0x0a ∉ obsLine lvar := by
  intro among
  rcases List.mem_append.mp among with among | among
  · exact absurd among (by decide)
  · rcases List.mem_append.mp among with among | among
    · exact absurd among (by decide)
    · exact absurd (plain.2 _ among) (by decide)

theorem printDec_printed (value : Int) : 0x0a ∉ printDec value := by
  intro among
  rw [printDec_eq] at among
  rcases List.mem_append.mp among with among | among
  · unfold signOf at among
    split at among <;> exact absurd among (by decide)
  · exact absurd (numeral_dec _ among) (by decide)

theorem writeLine_printed (plain : Plain write.1) : 0x0a ∉ writeLine write := by
  intro among
  rcases List.mem_append.mp among with among | among
  · exact absurd among (by decide)
  · rcases List.mem_append.mp among with among | among
    · exact absurd among (by decide)
    · rcases List.mem_append.mp among with among | among
      · exact absurd (plain.2 _ among) (by decide)
      · rcases List.mem_append.mp among with among | among
        · exact absurd among (by decide)
        · exact printDec_printed _ among

theorem parse_writeLine (plain : Plain write.1) : parseCommand (writeLine write) = some (.writeLVar write.1 (.int write.2.toInt)) := by
  have found := search_writeLVar ⟨write.1, plain.1, plain.2⟩ write.2.toInt
  have small : write.2.toInt.natAbs < 2 ^ 53 := by
    have := write.2.toInt_lt
    have := write.2.le_toInt
    omega
  simp only [parseCommand, writeLine, found, tonumber_printDec small]

theorem parse_obsLine (plain : Plain lvar) : parseCommand (obsLine lvar) = some (.obsLVar lvar) := by
  have found := search_obsLVar ⟨lvar, plain.1, plain.2⟩
  have field : ∀ word : Str, ¬ word ++ text " " <:+: lvar := fun word => word_absent_field (space_not_name plain.2)
  have first : Piece.search writeLVarPattern (lineOf (text "OBS_LVAR") lvar) = none :=
    Piece.search_words_none (word_absent (by decide) (by decide) (by decide) (field _))
  have second : Piece.search writeOffsetPattern (lineOf (text "OBS_LVAR") lvar) = none :=
    Piece.search_words_none (word_absent (by decide) (by decide) (by decide) (field _))
  simp only [parseCommand, obsLine, first, second, found]

/-- A line is not longer than what the gateway reads at once. -/
theorem writeLine_length (short : write.1.length ≤ 40) : (writeLine write).length ≤ 63 := by
  have value := printDec_length write.2
  have word : (text "WRITE_LVAR").length = 10 := by decide
  have space : (text " ").length = 1 := by decide
  simp only [writeLine, lineOf, List.length_append, word, space]
  omega

/-! ## What the gateway makes of them -/

/-- Lines are given to `OnDataReceived` one after the other. -/
def serve (refuses : Call → Bool) (handle : Nat) (lines : List Str) : EStateM LuaError Gateway Unit :=
  lines.forM fun line => onDataReceived refuses handle line line.length

theorem serve_append {refuses : Call → Bool} {handle : Nat} {first : List Str} (second : List Str) {g g' : Gateway}
    (served : serve refuses handle first g = .ok () g') : serve refuses handle (first ++ second) g = serve refuses handle second g' := by
  induction first generalizing g with
  | nil =>
    cases served
    rfl
  | cons line first ih =>
    obtain ⟨_, between, executed, rest⟩ := bind_ok served
    exact (ok_bind executed).trans (ih rest)

/-- The gateway after an observation. -/
def observed (handle : Nat) (g : Gateway) (lvar : Str) : Gateway := (g.observe (.string lvar) handle).called (.eventLvar lvar)

def writeCall (write : Str × Int32) : Call := .writeLvar write.1 (.int write.2.toInt)

section
variable {refuses : Call → Bool} (documented : ∀ c : Call, c.Documented → refuses c = false) (handle : Nat)
include documented

theorem onDataReceived_obs (plain : Plain lvar) (other : isMethod (.string lvar) = false) (g : Gateway) :
    onDataReceived refuses handle (obsLine lvar) (obsLine lvar).length g = .ok () (observed handle g lvar) := by
  have positive : 0 < (obsLine lvar).length := by simp [obsLine, lineOf, text]
  unfold onDataReceived
  rw [if_pos positive, parse_obsLine plain]
  exact (ok_bind (insert_ok other)).trans (call_ok (documented _ trivial))

theorem onDataReceived_write (plain : Plain write.1) (g : Gateway) :
    onDataReceived refuses handle (writeLine write) (writeLine write).length g = .ok () (g.called (writeCall write)) := by
  have positive : 0 < (writeLine write).length := by simp [writeLine, lineOf, text]
  unfold onDataReceived
  rw [if_pos positive, parse_writeLine plain]
  exact call_ok (documented _ trivial)

theorem serve_observes {lvars : List Str} (plain : ∀ lvar ∈ lvars, Plain lvar ∧ isMethod (.string lvar) = false) (g : Gateway) :
    serve refuses handle (lvars.map obsLine) g = .ok () (lvars.foldl (observed handle) g) := by
  induction lvars generalizing g with
  | nil => rfl
  | cons lvar lvars ih =>
    obtain ⟨⟨named, other⟩, others⟩ := List.forall_mem_cons.mp plain
    exact (ok_bind (onDataReceived_obs documented handle named other g)).trans (ih others _)

theorem serve_writes {writes : List (Str × Int32)} (plain : ∀ write ∈ writes, Plain write.1) (g : Gateway) :
    serve refuses handle (writes.map writeLine) g = .ok () { g with calls := g.calls ++ writes.map writeCall } := by
  induction writes generalizing g with
  | nil => simp [serve, pure, EStateM.pure]
  | cons write writes ih =>
    obtain ⟨named, others⟩ := List.forall_mem_cons.mp plain
    refine (ok_bind (onDataReceived_write documented handle named g)).trans ((ih others _).trans ?_)
    simp [Gateway.called]

end

/-! ## Events that wait -/

theorem readBytesUntil_queued {line : Str} (printed : 0x0a ∉ line) {n : Nat} (short : line.length < n) (rest : Str) :
    readBytesUntil 0x0a n (line ++ (newline ++ rest)) = (line, rest) := by
  induction line generalizing n with
  | nil =>
    cases n with
    | zero => exact absurd short (Nat.not_lt_zero _)
    | succ n => exact if_pos rfl
  | cons c line ih =>
    obtain ⟨other, others⟩ := not_or.mp (mt List.mem_cons.mpr printed)
    cases n with
    | zero => exact absurd short (Nat.not_lt_zero _)
    | succ n => simp [readBytesUntil, Ne.symm other, ih others (Nat.lt_of_succ_lt_succ short)]

section
variable {toInt : Str → Int32} {p : SerialProtocol}

theorem pollEvent_incoming (p : SerialProtocol) : (pollEvent toInt p).2.incoming = (readBytesUntil 0x0a 255 p.incoming).2 := by
  unfold pollEvent pollLVarEvent pollOffsetEvent
  dsimp only
  split_ifs
  · split <;> rfl
  · split <;> rfl
  · rfl

/-- What a poll returns comes of the bytes that it reads. -/
theorem pollEvent_read {q : SerialProtocol} (same : (readBytesUntil 0x0a 255 p.incoming).1 = (readBytesUntil 0x0a 255 q.incoming).1) :
    (pollEvent toInt p).1 = (pollEvent toInt q).1 := by
  unfold pollEvent pollLVarEvent pollOffsetEvent
  dsimp only
  rw [same]
  split_ifs
  · split <;> rfl
  · split <;> rfl
  · rfl

/-- An event that is returned is kept. -/
theorem pollEvent_kept {e : Event} (polled : (pollEvent toInt p).1 = some e) : (pollEvent toInt p).2.polledEvent = e := by
  have polls := pollEvent_polls toInt p
  rw [polled] at polls
  generalize (pollEvent toInt p).2.polledEvent = kept at polls ⊢
  cases polls
  rfl

/-- The line of an event is read, and what is behind it waits. -/
theorem pollEvent_lvar_queued {platform : Platform} (documented : platform.Documented) {name : LvarName} {value : Int32}
    (fits : (Notification.lvar name value).Fits) {rest : Str} (here : p.incoming = (Notification.lvar name value).line platform ++ rest) :
    (pollEvent platform.toInt p).2.polledEvent = .lvarUpdate name.name value ∧ (pollEvent platform.toInt p).2.incoming = rest := by
  obtain ⟨short, absent⟩ := fits
  have visible : ∀ c ∈ name.name, Visible c := fun c among => nameByte_visible (name.plain c among)
  have printed := eventLine_printed lvarWord_visible visible fun c (among : c ∈ printDec value.toInt) => (printDec_visible among).1
  have line : (Notification.lvar name value).line platform = eventLine (text "EVENT_LVAR") name.name (printDec value.toInt) ++ newline := by
    rw [Notification.line, documented.formatD]
  have length : (eventLine (text "EVENT_LVAR") name.name (printDec value.toInt)).length < 255 := by
    have word : (text "EVENT_LVAR").length = 10 := by decide
    have numeral := printDec_length value
    simp only [eventLine, List.length_append, List.length_cons, word]
    omega
  have read (rest : Str) := readBytesUntil_queued (fun among => (printed 0x0a among).1 rfl) length rest
  have alone := lvar_polled documented name value short (p := { p with incoming := (Notification.lvar name value).line platform }) rfl
  rw [remove_absent absent, if_neg name.nonempty, toCharArray_visible visible short] at alone
  rw [line, List.append_assoc] at here
  constructor
  · refine pollEvent_kept ((pollEvent_read ?_).trans alone)
    rw [here, read, line, ← List.append_nil newline, read]
  · rw [pollEvent_incoming, here, read]

/-- Nothing has come in. -/
theorem pollEvent_empty (here : p.incoming = []) : (pollEvent toInt p).2.polledEvent = .noEvent ∧ (pollEvent toInt p).2.incoming = [] := by
  unfold pollEvent
  rw [here]
  exact ⟨rfl, rfl⟩

end
end Oac.Oacsp
