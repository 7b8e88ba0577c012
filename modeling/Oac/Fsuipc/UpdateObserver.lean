import Oac.Fsuipc.Client

/-!
# The update observer

The observer compares the offsets it observes with the values that it read last. An
offset is told to the evaluator when it differs, and once after it began to be observed.
-/
namespace Oac.Fsuipc
open Base

/-- `update_observer`, its evaluator apart. -/
structure UpdateObserver (α : Type) where
  client : FsuipcClient α
  offsets : List Offset
  pendingWelcomes : List Offset
  values : Offset → Option UInt32

namespace UpdateObserver
variable {α ρ : Type} [UserAdapter α]

/-- A call of the client. -/
def onClient {β : Type} (x : EStateM Exception (FsuipcClient α) β) : EStateM Exception (UpdateObserver α) β := fun o =>
  match x o.client with
  | .ok b c => .ok b { o with client := c }
  | .error e c => .error e { o with client := c }

/-- `_offsets` and `_pending_welcomes` with more offsets. -/
def observe (offsets : List Offset) (o : UpdateObserver α) : UpdateObserver α :=
  { o with
    offsets := offsets.foldl (fun observed offset => observed.insert offset) o.offsets
    pendingWelcomes := offsets.foldl (fun pending offset => pending.insert offset) o.pendingWelcomes }

def store (o : UpdateObserver α) (val : ValuedOffset) : UpdateObserver α :=
  { o with values := Function.update o.values val.toOffset (some val.value) }

/-- `start_observing` of a collection. -/
def startObservingAll (offsets : List Offset) : EStateM Exception (UpdateObserver α) Unit := do
  modify (observe offsets)
  let values ← onClient (FsuipcClient.query offsets)
  modify fun o => values.foldl store o

def startObserving (offset : Offset) : EStateM Exception (UpdateObserver α) Unit := startObservingAll [offset]

def stopObserving (offset : Offset) (o : UpdateObserver α) : UpdateObserver α :=
  { o with offsets := o.offsets.filter (· ≠ offset) }

/-- The evaluation of one offset in `check_for_updates`. The source reads the cached value
    without asking whether there is one. -/
def check (updateEval : ValuedOffset → EStateM Exception ρ Unit) (val : ValuedOffset) :
    EStateM Exception (UpdateObserver α × ρ) Unit := fun s =>
  if val.toOffset ∈ s.1.pendingWelcomes ∨ s.1.values val.toOffset ≠ some val.value then
    match updateEval val s.2 with
    | .ok _ r => .ok () (s.1.store val, r)
    | .error e r => .error e (s.1.store val, r)
  else .ok () s

def checkAll (updateEval : ValuedOffset → EStateM Exception ρ Unit) :
    List ValuedOffset → EStateM Exception (UpdateObserver α × ρ) Unit
  | [] => pure ()
  | val :: values => do
    check updateEval val
    checkAll updateEval values

/-- `check_for_updates`. The evaluator works on a state of its own. -/
def checkForUpdates (updateEval : ValuedOffset → EStateM Exception ρ Unit) :
    EStateM Exception (UpdateObserver α × ρ) Unit := fun s =>
  match onClient (FsuipcClient.query s.1.offsets) s.1 with
  | .error e o => .error e (o, s.2)
  | .ok values o =>
    match checkAll updateEval values (o, s.2) with
    | .error e s' => .error e s'
    | .ok _ s' => .ok () ({ s'.1 with pendingWelcomes := [] }, s'.2)

/-! ## What is observed -/

omit [UserAdapter α] in
@[simp] theorem store_offsets (o : UpdateObserver α) (val : ValuedOffset) : (o.store val).offsets = o.offsets := rfl

omit [UserAdapter α] in
theorem foldl_store_offsets (values : List ValuedOffset) (o : UpdateObserver α) :
    (values.foldl store o).offsets = o.offsets := by
  induction values generalizing o with
  | nil => rfl
  | cons val values ih =>
    rw [List.foldl_cons, ih]
    rfl

/-- An offset is observed from the moment it is to be, whether it can be read or not. -/
theorem startObserving_offsets (offset : Offset) (o : UpdateObserver α) :
    (after (startObserving offset o)).offsets = o.offsets.insert offset := by
  have observed : (modify (observe [offset]) : EStateM Exception (UpdateObserver α) Unit) o = .ok () (observe [offset] o) :=
    rfl
  unfold startObserving startObservingAll
  rw [ok_bind observed]
  cases result : FsuipcClient.query [offset] (observe [offset] o).client with
  | ok values c =>
    have queried : onClient (FsuipcClient.query [offset]) (observe [offset] o) =
        .ok values { observe [offset] o with client := c } := by
      simp only [onClient, result]
    rw [ok_bind queried]
    exact foldl_store_offsets values _
  | error e c =>
    have refused : onClient (FsuipcClient.query [offset]) (observe [offset] o) =
        .error e { observe [offset] o with client := c } := by
      simp only [onClient, result]
    rw [error_bind refused]
    rfl

theorem startObserving_returns (reliable : UserAdapter.Reliable α) (offset : Offset) (o : UpdateObserver α) :
    ∃ o', startObserving offset o = .ok () o' ∧ o'.offsets = o.offsets.insert offset := by
  have observed : (modify (observe [offset]) : EStateM Exception (UpdateObserver α) Unit) o = .ok () (observe [offset] o) :=
    rfl
  obtain ⟨values, c, result, -⟩ := FsuipcClient.query_returns reliable [offset] (observe [offset] o).client
  have queried : onClient (FsuipcClient.query [offset]) (observe [offset] o) =
      .ok values { observe [offset] o with client := c } := by
    simp only [onClient, result]
  have executed : startObserving offset o = .ok () (values.foldl store { observe [offset] o with client := c }) :=
    (ok_bind observed).trans ((ok_bind queried).trans rfl)
  have kept := startObserving_offsets offset o
  rw [executed] at kept
  exact ⟨_, executed, kept⟩

/-- What an evaluation leaves as it is. -/
def SameFrame (s s' : UpdateObserver α × ρ) : Prop := s'.1.offsets = s.1.offsets ∧ s'.1.client = s.1.client

omit [UserAdapter α] in
theorem check_frame (updateEval : ValuedOffset → EStateM Exception ρ Unit) (val : ValuedOffset) :
    Keeps (SameFrame (α := α)) (check updateEval val) := by
  intro s
  unfold check
  split
  · split <;> exact ⟨rfl, rfl⟩
  · exact ⟨rfl, rfl⟩

omit [UserAdapter α] in
theorem checkAll_frame (updateEval : ValuedOffset → EStateM Exception ρ Unit) (values : List ValuedOffset) :
    Keeps (SameFrame (α := α)) (checkAll updateEval values) := by
  induction values with
  | nil => exact fun s => ⟨rfl, rfl⟩
  | cons val values ih =>
    exact keeps_bind (R := SameFrame) (fun first second => ⟨second.1.trans first.1, second.2.trans first.2⟩)
      (check_frame updateEval val) fun _ => ih

end UpdateObserver
end Oac.Fsuipc
