import Oac.Oacsp.Commands
import Oac.Oacsp.Lines

/-!
# The table of observers

The gateway keeps the observers of an event in a table of its own, which also holds the two
functions to insert into it and to go through it, under their names. It is a multimap of
events and handles as long as no LVAR has one of these names (`observers_multimap_iff`).
-/
namespace Oac.Oacsp
open Base

/-- An event that a device may observe. -/
inductive Observed where
  | lvar (name : LvarName)
  | offset (address : UInt16)

namespace Observed

def key : Observed → Key
  | .lvar name => .string name.name
  | .offset address => .number (.int address.toNat)

/-- No function of the table has the name of the event. -/
def Plain : Observed → Prop
  | .lvar name => name.name ≠ text "insert" ∧ name.name ≠ text "foreach"
  | .offset _ => True

/-- The callback of the gateway. -/
def modified (refuses : Call → Bool) (formatD : Int → Str) (value : Int) : Observed → EStateM LuaError Gateway Unit
  | .lvar name => onLVarModified refuses formatD name.name value
  | .offset address => onOffsetModified refuses formatD address value

/-- The line that the devices are to be written. -/
def line (formatD : Int → Str) (value : Int) : Observed → Str
  | .lvar name => text "EVENT_LVAR " ++ name.name ++ text " " ++ formatD value ++ newline
  | .offset address => text "EVENT_OFFSET " ++ formatX address.toNat ++ text " " ++ formatD value ++ newline

end Observed

/-- A command to observe, from the device with the handle. -/
structure Observation where
  event : Observed
  /-- of an offset -/
  length : OffsetLength
  handle : Nat

def Observation.command (o : Observation) : Command :=
  match o.event with
  | .lvar name => .obsLVar name.name
  | .offset address => .obsOffset (.int address.toNat) o.length.code

section
variable (refuses : Call → Bool)

/-- The commands one after the other. -/
def observe (observations : List Observation) : EStateM LuaError Gateway Unit :=
  observations.forM fun o => process refuses o.handle o.command

/-- The handles that were inserted under a key, in the order of their insertion. -/
def inserted (key : Key) (observations : List Observation) : List Nat :=
  (observations.filter fun o => o.event.key = key).map Observation.handle

/-- A function that does not insert into the table while it is gone through. -/
def Reads (func : Nat → EStateM LuaError Gateway Unit) : Prop :=
  ∀ handle, Keeps (fun g g' => g'.observers = g.observers) (func handle)

/-- The insertions raise no error, and then the event has the handles that were inserted
    for it: they are what is gone through, and they are written a modification. -/
def Multimap (observations : List Observation) (e : Observed) : Prop :=
  ∃ g, observe refuses observations Gateway.start = .ok () g ∧
    (∀ func, Reads func → EventObservers.foreach e.key func g = (inserted e.key observations).forM func g) ∧
    ∀ formatD value, e.modified refuses formatD value g =
      .ok () { g with calls := g.calls ++ (inserted e.key observations).map (Call.comWrite · (e.line formatD value)) }

end

variable {refuses : Call → Bool} {observations : List Observation} {e : Observed} {g g' : Gateway} {key : Key}

theorem plain_iff : e.Plain ↔ isMethod e.key = false := by
  cases e with
  | lvar name => rw [← Bool.not_eq_true, Observed.key, isMethod_lvar, not_or, Observed.Plain]
  | offset address => exact iff_of_true trivial (isMethod_offset _)

/-- The handles under a key, none if there is no entry. -/
def Gateway.handles (g : Gateway) (key : Key) : List Nat := (g.observers key).getD []

theorem observe_handles (event : Key) (handle : Nat) (g : Gateway) (key : Key) :
    (g.observe event handle).handles key = g.handles key ++ if event = key then [handle] else [] := by
  by_cases same : event = key
  · subst same
    simp [Gateway.handles, Gateway.observe]
  · simp [Gateway.handles, Gateway.observe, same, Function.update_of_ne (Ne.symm same)]

/-- An entry that is not a function is gone through. -/
theorem foreach_handles (plain : isMethod key = false) (func : Nat → EStateM LuaError Gateway Unit) (g : Gateway) :
    EventObservers.foreach key func g = (g.handles key).forM func g := by
  unfold EventObservers.foreach Gateway.lookup Gateway.handles
  simp only [plain, Bool.false_eq_true, ↓reduceIte]
  cases g.observers key <;> rfl

/-! ## Insertions -/

/-- A command to observe inserts its handle, and FSUIPC is called. -/
theorem process_observation (documented : ∀ c : Call, c.Documented → refuses c = false) (o : Observation) (plain : o.event.Plain)
    (g : Gateway) : ∃ c, process refuses o.handle o.command g = .ok () ((g.observe o.event.key o.handle).called c) := by
  have stored : EventObservers.insert o.event.key o.handle g = .ok () (g.observe o.event.key o.handle) :=
    insert_ok (plain_iff.mp plain)
  obtain ⟨e, length, handle⟩ := o
  cases e with
  | lvar name => exact ⟨_, (ok_bind stored).trans (call_ok (documented (.eventLvar name.name) trivial))⟩
  | offset address =>
    exact ⟨_, (ok_bind stored).trans (call_ok (documented (.eventOffset (.int address.toNat) length.code) ⟨length, rfl⟩))⟩

theorem process_method (o : Observation) (method : ¬ o.event.Plain) (g : Gateway) :
    process refuses o.handle o.command g = .error .tableExpected g := by
  obtain ⟨e, length, handle⟩ := o
  cases e with
  | lvar name =>
    rw [plain_iff, Bool.not_eq_false] at method
    exact error_bind (insert_method method)
  | offset address => exact absurd trivial method

theorem observe_cons (o : Observation) (g : Gateway) :
    observe refuses (o :: observations) g = (process refuses o.handle o.command >>= fun _ => observe refuses observations) g := rfl

theorem inserted_cons (o : Observation) (key : Key) :
    inserted key (o :: observations) = (if o.event.key = key then [o.handle] else []) ++ inserted key observations := by
  unfold inserted
  rw [List.filter_cons]
  by_cases same : o.event.key = key <;> simp [same]

/-- Each insertion adds to the end of its list. -/
theorem observe_inserted (documented : ∀ c : Call, c.Documented → refuses c = false)
    (plain : ∀ o ∈ observations, o.event.Plain) (g : Gateway) :
    ∃ g', observe refuses observations g = .ok () g' ∧ ∀ key, g'.handles key = g.handles key ++ inserted key observations := by
  induction observations generalizing g with
  | nil => exact ⟨g, rfl, fun key => (List.append_nil _).symm⟩
  | cons o observations ih =>
    obtain ⟨first, rest⟩ := List.forall_mem_cons.mp plain
    obtain ⟨c, executed⟩ := process_observation documented o first g
    obtain ⟨g', ends, handles⟩ := ih rest ((g.observe o.event.key o.handle).called c)
    refine ⟨g', (observe_cons o g).trans ((ok_bind executed).trans ends), fun key => ?_⟩
    have called : ((g.observe o.event.key o.handle).called c).handles key = (g.observe o.event.key o.handle).handles key := rfl
    rw [handles, called, observe_handles, inserted_cons, List.append_assoc]

theorem plain_of_observed (executed : observe refuses observations g = .ok () g') : ∀ o ∈ observations, o.event.Plain := by
  induction observations generalizing g with
  | nil => exact List.forall_mem_nil _
  | cons o observations ih =>
    obtain ⟨_, g₁, first, rest⟩ := bind_ok ((observe_cons o g).symm.trans executed)
    refine List.forall_mem_cons.mpr ⟨?_, ih rest⟩
    by_contra method
    cases (process_method o method g).symm.trans first

/-! ## Modifications -/

/-- The same line is written to each handle. -/
theorem forM_comWrite (documented : ∀ c : Call, c.Documented → refuses c = false) (line : Str) (handles : List Nat) (g : Gateway) :
    handles.forM (fun handle => call refuses (.comWrite handle line)) g =
      .ok () { g with calls := g.calls ++ handles.map (Call.comWrite · line) } := by
  induction handles generalizing g with
  | nil => simp [pure, EStateM.pure]
  | cons handle handles ih =>
    have first : call refuses (.comWrite handle line) g = .ok () (g.called (.comWrite handle line)) :=
      call_ok (documented _ trivial)
    refine (ok_bind first).trans ((ih _).trans ?_)
    simp [Gateway.called]

theorem modified_eq (formatD : Int → Str) (value : Int) : e.modified refuses formatD value =
    EventObservers.foreach e.key fun handle => call refuses (.comWrite handle (e.line formatD value)) := by
  cases e <;> rfl

/-- The table is a multimap exactly if no event that is inserted or asked for is named like
    one of its functions. -/
theorem observers_multimap_iff (refuses : Call → Bool) (documented : ∀ c : Call, c.Documented → refuses c = false)
    (observations : List Observation) (e : Observed) :
    Multimap refuses observations e ↔ (∀ o ∈ observations, o.event.Plain) ∧ e.Plain := by
  constructor
  · rintro ⟨g, executed, foreach, -⟩
    refine ⟨plain_of_observed executed, ?_⟩
    by_contra method
    rw [plain_iff, Bool.not_eq_false] at method
    have raised : EventObservers.foreach e.key (fun _ => pure ()) g = .error .tableExpected g := by
      simp [EventObservers.foreach, Gateway.lookup, method]
    have returned : ∀ (handles : List Nat), handles.forM (fun _ => (pure () : EStateM LuaError Gateway Unit)) g = .ok () g := by
      intro handles
      induction handles with
      | nil => rfl
      | cons handle handles ih => exact ih
    cases raised.symm.trans ((foreach _ fun _ _ => rfl).trans (returned _))
  · rintro ⟨plain, plain'⟩
    obtain ⟨g, executed, handles⟩ := observe_inserted documented plain Gateway.start
    have here : g.handles e.key = inserted e.key observations := handles e.key
    have each := fun func => foreach_handles (plain_iff.mp plain') func g
    rw [here] at each
    refine ⟨g, executed, fun func _ => each func, fun formatD value => ?_⟩
    rw [modified_eq, each, forM_comWrite documented]

/-- An LVAR of the simulator. -/
def flightDirector : LvarName := ⟨text "AB_MPL_FD", by decide, List.all_eq_true.mp (by decide)⟩

/-- Two devices observe an LVAR, and the first of them an offset. -/
theorem observers_multimap_two : Multimap (fun _ => false)
    [⟨.lvar flightDirector, .uint8, 1⟩, ⟨.offset 0x330, .uint16, 1⟩, ⟨.lvar flightDirector, .uint8, 2⟩] (.lvar flightDirector) := by
  have plain : (Observed.lvar flightDirector).Plain := ⟨by decide, by decide⟩
  refine (observers_multimap_iff _ (fun _ _ => rfl) _ _).mpr ⟨?_, plain⟩
  intro o among
  simp only [List.mem_cons, List.not_mem_nil, or_false] at among
  rcases among with rfl | rfl | rfl
  · exact plain
  · exact trivial
  · exact plain

/-- An LVAR with the name of a function. -/
def insertName : LvarName := ⟨text "insert", by decide, List.all_eq_true.mp (by decide)⟩

/-- The insertion for it raises an error. -/
theorem observers_not_multimap : ¬ ∀ (observations : List Observation) (e : Observed), Multimap (fun _ => false) observations e := by
  intro multimap
  obtain ⟨g, executed, -⟩ := multimap [⟨.lvar insertName, .uint8, 1⟩] (.lvar insertName)
  have method : ¬ (Observed.lvar insertName).Plain := fun plain => plain.1 rfl
  exact method (plain_of_observed executed _ (List.mem_singleton_self _))

end Oac.Oacsp
