import Oac.Base.Program
import Oac.Oacsp.Gateway

/-!
# Lines of the gateway

What `OnDataReceived` does with the bytes of a device, whatever they are: it executes the
command that they encode, leaves the simulator and the observers alone, or raises an error
(`line_survived_iff`).
-/
namespace Oac.Oacsp
open Base

/-- The arguments have the documented types. `event.offset` takes one of six codes. -/
def Call.Documented : Call → Prop
  | .eventOffset _ length => ∃ len : OffsetLength, length = len.code
  | _ => True

/-- The call writes to the simulator. -/
def Call.Writes : Call → Prop
  | .writeLvar _ _ => True
  | .write _ _ _ => True
  | _ => False

/-- One of the six length codes, in either case. -/
def LengthCode (length : Str) (len : OffsetLength) : Prop := upper length = len.code

/-- The gateway with one more observer. -/
def Gateway.observe (event : Key) (handle : Nat) (g : Gateway) : Gateway :=
  { g with observers := Function.update g.observers event (some ((g.observers event).getD [] ++ [handle])) }

def Gateway.called (c : Call) (g : Gateway) : Gateway := { g with calls := g.calls ++ [c] }

/-- What a well-formed command is to do. -/
inductive Performs (handle : Nat) (g : Gateway) : Command → Gateway → Prop where
  | writeLVar (lvar : Str) (value : Number) : Performs handle g (.writeLVar lvar value) (g.called (.writeLvar lvar value))
  | writeOffset (offset value : Number) {length : Str} {len : OffsetLength} (known : LengthCode length len) :
      Performs handle g (.writeOffset offset length value) (g.called (.write len offset value))
  | obsLVar (lvar : Str) : Performs handle g (.obsLVar lvar) ((g.observe (.string lvar) handle).called (.eventLvar lvar))
  | obsOffset (offset : Number) {length : Str} {len : OffsetLength} (known : LengthCode length len) :
      Performs handle g (.obsOffset offset length)
        ((g.observe (.number offset) handle).called (.eventOffset offset len.code))

/-- The command has a length code, and an unknown one. -/
def UnknownLength : Command → Prop
  | .writeOffset _ length _ => ∀ len, ¬ LengthCode length len
  | .obsOffset _ length => ∀ len, ¬ LengthCode length len
  | _ => False

/-- Nothing is written to the simulator and nobody observes more or less. -/
structure LeavesAlone (g g' : Gateway) : Prop where
  observers : g'.observers = g.observers
  calls : ∃ more, g'.calls = g.calls ++ more ∧ ∀ c ∈ more, ¬ c.Writes

/-- The line is handled without an error, as the command that it encodes. -/
def Survives (refuses : Call → Bool) (handle : Nat) (data : Str) (g : Gateway) : Prop :=
  ∃ g', onDataReceived refuses handle data data.length g = .ok () g' ∧
    match parseCommand data with
    | none => LeavesAlone g g'
    | some cmd => (UnknownLength cmd → LeavesAlone g g') ∧ (¬ UnknownLength cmd → Performs handle g cmd g')

/-- The lines that are handled well: a command is found; an LVAR to observe is not named like a
    method of the table of observers; the length of an offset to observe is a code in capitals. -/
def Handled (data : Str) : Prop :=
  match parseCommand data with
  | none => False
  | some (.obsLVar lvar) => lvar ≠ text "insert" ∧ lvar ≠ text "foreach"
  | some (.obsOffset _ length) => ∃ len : OffsetLength, length = len.code
  | some _ => True

variable {refuses : Call → Bool} {handle : Nat} {g : Gateway}

theorem call_ok {c : Call} (accepted : refuses c = false) : call refuses c g = .ok () (g.called c) := by
  simp [call, accepted, Gateway.called]

theorem call_inv {c : Call} {g' : Gateway} {u : Unit} (executed : call refuses c g = .ok u g') : g' = g.called c := by
  unfold call at executed
  split at executed
  · cases executed
  · cases executed
    rfl

theorem insert_ok {event : Key} (plain : isMethod event = false) :
    EventObservers.insert event handle g = .ok () (g.observe event handle) := by
  unfold EventObservers.insert Gateway.lookup Gateway.observe
  simp only [plain, Bool.false_eq_true, ↓reduceIte]
  cases g.observers event <;> rfl

theorem insert_method {event : Key} (method : isMethod event = true) :
    EventObservers.insert event handle g = .error .tableExpected g := by
  simp [EventObservers.insert, Gateway.lookup, method]

@[simp] theorem upper_code (len : OffsetLength) : upper len.code = len.code := by cases len <;> decide

/-- A write with a known code goes to the function of its length. -/
theorem processWriteOffset_known (offset value : Number) {length : Str} {len : OffsetLength} (known : LengthCode length len) :
    processWriteOffset refuses handle offset length value g = call refuses (.write len offset value) g := by
  unfold processWriteOffset
  simp only [show upper length = len.code from known]
  cases len <;> simp [OffsetLength.code, text]

theorem processWriteOffset_unknown (offset value : Number) {length : Str} (unknown : ∀ len, ¬ LengthCode length len) :
    processWriteOffset refuses handle offset length value g = call refuses (.close handle) g := by
  have other (len : OffsetLength) : ¬ upper length = len.code := unknown len
  have sb := other .sint8
  have ub := other .uint8
  have sw := other .sint16
  have uw := other .uint16
  have sd := other .sint32
  have ud := other .uint32
  simp only [OffsetLength.code] at sb ub sw uw sd ud
  simp only [processWriteOffset, sb, ub, sw, uw, sd, ud, ↓reduceIte]

/-- A command that is found, processed without an error and as it should be. -/
def Processed (refuses : Call → Bool) (handle : Nat) (cmd : Command) (g : Gateway) : Prop :=
  ∃ g', process refuses handle cmd g = .ok () g' ∧
    (UnknownLength cmd → LeavesAlone g g') ∧ (¬ UnknownLength cmd → Performs handle g cmd g')

theorem survives_iff {data : Str} (some : data ≠ []) : Survives refuses handle data g ↔
    ∃ cmd, parseCommand data = .some cmd ∧ Processed refuses handle cmd g := by
  have positive : 0 < data.length := List.length_pos_of_ne_nil some
  unfold Survives onDataReceived
  simp only [positive, ↓reduceIte]
  cases found : parseCommand data with
  | none =>
    refine iff_of_false ?_ ?_
    · rintro ⟨g', ends, -⟩
      cases ends
    · rintro ⟨cmd, same, -⟩
      cases same
  | some cmd => simp [Processed]

theorem processed_writeLVar (documented : ∀ c : Call, c.Documented → refuses c = false) (lvar : Str) (value : Number) :
    Processed refuses handle (.writeLVar lvar value) g :=
  ⟨_, call_ok (documented _ trivial), False.elim, fun _ => .writeLVar lvar value⟩

theorem processed_writeOffset (documented : ∀ c : Call, c.Documented → refuses c = false) (offset value : Number)
    (length : Str) : Processed refuses handle (.writeOffset offset length value) g := by
  by_cases known : ∃ len, LengthCode length len
  · obtain ⟨len, known⟩ := known
    refine ⟨g.called (.write len offset value), ?_, fun unknown => absurd known (unknown len), ?_⟩
    · exact (processWriteOffset_known offset value known).trans (call_ok (documented _ trivial))
    · exact fun _ => .writeOffset offset value known
  · have unknown : ∀ len, ¬ LengthCode length len := fun len here => known ⟨len, here⟩
    refine ⟨g.called (.close handle), ?_, fun _ => ⟨rfl, [.close handle], rfl, by simp [Call.Writes]⟩, ?_⟩
    · exact (processWriteOffset_unknown offset value unknown).trans (call_ok (documented _ trivial))
    · exact fun wellFormed => absurd unknown wellFormed

theorem processed_obsLVar_iff (documented : ∀ c : Call, c.Documented → refuses c = false) (lvar : Str) :
    Processed refuses handle (.obsLVar lvar) g ↔ lvar ≠ text "insert" ∧ lvar ≠ text "foreach" := by
  rw [← not_or, ← isMethod_lvar]
  constructor
  · rintro ⟨g', executed, -⟩ method
    have raised : process refuses handle (.obsLVar lvar) g = .error .tableExpected g := error_bind (insert_method method)
    exact absurd (raised.symm.trans executed) nofun
  · intro plain
    have inserted : EventObservers.insert (.string lvar) handle g = .ok () (g.observe (.string lvar) handle) :=
      insert_ok (Bool.not_eq_true _ ▸ plain)
    exact ⟨_, (ok_bind inserted).trans (call_ok (documented _ trivial)), False.elim, fun _ => .obsLVar lvar⟩

theorem Performs.observed {offset : Number} {length : Str} {g' : Gateway} (performs : Performs handle g (.obsOffset offset length) g') :
    ∃ len : OffsetLength, g' = (g.observe (.number offset) handle).called (.eventOffset offset len.code) := by
  cases performs
  exact ⟨_, rfl⟩

/-- An observer is added before the length is looked at. -/
theorem processed_obsOffset_iff (documented : ∀ c : Call, c.Documented → refuses c = false) (offset : Number)
    (length : Str) : Processed refuses handle (.obsOffset offset length) g ↔ ∃ len : OffsetLength, length = len.code := by
  have inserted : EventObservers.insert (.number offset) handle g = .ok () (g.observe (.number offset) handle) :=
    insert_ok (isMethod_offset offset)
  constructor
  · rintro ⟨g', executed, unknown, known⟩
    have last := call_inv ((ok_bind inserted).symm.trans executed)
    by_cases code : ∃ len, LengthCode length len
    · obtain ⟨len, here⟩ := code
      obtain ⟨len', same⟩ := (known fun unknown => unknown len here).observed
      have calls := congrArg Gateway.calls (last.symm.trans same)
      exact ⟨len', by simpa [Gateway.called] using calls⟩
    · have alone := unknown fun len here => code ⟨len, here⟩
      have more := congrFun alone.observers (.number offset)
      rw [last] at more
      simp only [Gateway.called, Gateway.observe, Function.update_self] at more
      cases before : g.observers (.number offset) <;> simp [before] at more
  · rintro ⟨len, rfl⟩
    have known : LengthCode len.code len := upper_code len
    exact ⟨_, (ok_bind inserted).trans (call_ok (documented _ ⟨len, rfl⟩)), fun unknown => absurd known (unknown len),
      fun _ => .obsOffset offset known⟩

theorem handled_iff {data : Str} {cmd : Command} (found : parseCommand data = some cmd)
    (documented : ∀ c : Call, c.Documented → refuses c = false) : Processed refuses handle cmd g ↔ Handled data := by
  unfold Handled
  rw [found]
  cases cmd with
  | writeLVar lvar value => exact iff_of_true (processed_writeLVar documented lvar value) trivial
  | writeOffset offset length value => exact iff_of_true (processed_writeOffset documented offset value length) trivial
  | obsLVar lvar => exact processed_obsLVar_iff documented lvar
  | obsOffset offset length => exact processed_obsOffset_iff documented offset length

/-- A line is handled without an error, as the command that it encodes, exactly if it is
    one of those that are handled well. -/
theorem line_survived_iff (refuses : Call → Bool) (documented : ∀ c : Call, c.Documented → refuses c = false) (handle : Nat)
    (data : Str) (some : data ≠ []) (g : Gateway) : Survives refuses handle data g ↔ Handled data := by
  rw [survives_iff some]
  constructor
  · rintro ⟨cmd, found, processed⟩
    exact (handled_iff found documented).mp processed
  · intro handled
    cases found : parseCommand data with
    | none => simp [Handled, found] at handled
    | some cmd => exact ⟨cmd, rfl, (handled_iff found documented).mpr handled⟩

/-- A command is survived, and a part of its line is not. -/
theorem line_survived_whole : Survives (fun _ => false) 1 (text "OBS_LVAR AB_MPL_FD") Gateway.start ∧
    ¬ Survives (fun _ => false) 1 (text "OBS_LVA") Gateway.start := by
  have whole : parseCommand (text "OBS_LVAR AB_MPL_FD") = some (.obsLVar (text "AB_MPL_FD")) := by decide +kernel
  have part : parseCommand (text "OBS_LVA") = none := by decide +kernel
  constructor
  · apply (line_survived_iff _ (fun _ _ => rfl) 1 _ (by decide) _).mpr
    simp only [Handled, whole]
    decide
  · intro survives
    have handled := (line_survived_iff _ (fun _ _ => rfl) 1 _ (by decide) _).mp survives
    simp only [Handled, part] at handled

/-- A line without a command raises an error. -/
theorem line_not_survived : ¬ ∀ (data : Str), data ≠ [] → ∀ g, Survives (fun _ => false) 1 data g := by
  intro survives
  obtain ⟨g', executed, -⟩ := survives (text "END") (by decide) Gateway.start
  have none : parseCommand (text "END") = none := by decide +kernel
  have raised : onDataReceived (fun _ => false) 1 (text "END") (text "END").length Gateway.start =
      .error .indexNil Gateway.start := by
    simp only [onDataReceived, none]
    rfl
  exact absurd (raised.symm.trans executed) nofun

end Oac.Oacsp
