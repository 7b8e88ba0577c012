import Oac.Fsuipc.FlightVars
import Oac.Fsuipc.Pending

/-!
# Subscriptions that fail

A subscription is entered in the DB and its offset in the sets of the observer before the
adapter reads the offset. Nothing is taken back when the adapter fails
(`subscribe_atomic_iff`).
-/
namespace Oac.Fsuipc
open Base

namespace UpdateObserver
variable {α : Type} [UserAdapter α]

/-- The observer reads the value of the offset at once. -/
theorem startObserving_error_iff (offset : Offset) (o : UpdateObserver α) :
    (∃ e o', startObserving offset o = .error e o') ↔
      ∃ e a, Request.commit [.read offset o.client.allocated] o.client.userAdapter = .error e a := by
  have observed : (modify (observe [offset]) : EStateM Exception (UpdateObserver α) Unit) o = .ok () (observe [offset] o) :=
    rfl
  have same : FsuipcClient.SameEnd (FsuipcClient.query [offset] o.client)
      (Request.commit [.read offset o.client.allocated] o.client.userAdapter) :=
    FsuipcClient.query_commit (List.cons_ne_nil _ _) o.client
  unfold startObserving startObservingAll
  rw [ok_bind observed]
  cases result : FsuipcClient.query [offset] o.client with
  | ok values c =>
    have queried : onClient (FsuipcClient.query [offset]) (observe [offset] o) =
        .ok values { observe [offset] o with client := c } := by
      simp only [onClient, observe, result]
    rw [ok_bind queried]
    cases committed : Request.commit [.read offset o.client.allocated] o.client.userAdapter with
    | ok stores a =>
      refine iff_of_false ?_ ?_
      · rintro ⟨e, o', ends⟩
        cases ends
      · rintro ⟨e, a', ends⟩
        cases ends
    | error e a =>
      rw [result, committed] at same
      exact same.elim
  | error e c =>
    have refused : onClient (FsuipcClient.query [offset]) (observe [offset] o) =
        .error e { observe [offset] o with client := c } := by
      simp only [onClient, observe, result]
    rw [error_bind refused]
    cases committed : Request.commit [.read offset o.client.allocated] o.client.userAdapter with
    | ok stores a =>
      rw [result, committed] at same
      exact same.elim
    | error e' a => exact iff_of_true ⟨_, _, rfl⟩ ⟨_, _, rfl⟩

end UpdateObserver

namespace FsuipcOffsetDb
variable {db db' : FsuipcOffsetDb} {var : VariableId} {handler : Nat} {subs : SubscriptionMeta}

/-- The new subscription is found, and it is one more in the list of its offset. -/
theorem createSubscription_enters (created : db.createSubscription var handler = .ok (subs, db')) :
    (∃ offset, db'.getOffsetForSubscription subs.subsId = .ok offset) ∧ db'.offsetHandlers ≠ db.offsetHandlers := by
  unfold createSubscription at created
  split at created
  · cases created
  · rename_i offset converted
    cases created
    have entered : ((db.insertKnownOffset offset).insertSubscription offset var handler).2.handlers offset =
        db.handlers offset ++ [⟨var, handler, db.nextId⟩] := by
      rw [insertSubscription_handlers, if_pos rfl]
    constructor
    · unfold getOffsetForSubscription
      split
      · exact ⟨_, rfl⟩
      · rename_i missing
        exfalso
        rw [List.find?_eq_none] at missing
        refine missing ⟨offset, (db.insertKnownOffset offset).handlers offset ++
          [⟨var, handler, (db.insertKnownOffset offset).nextId⟩]⟩ ?_ ?_
        · exact AList.mem_lookup_iff.mp (AList.lookup_insert _)
        · rw [List.any_append]
          simp
    · intro same
      have unchanged : ((db.insertKnownOffset offset).insertSubscription offset var handler).2.handlers offset =
          db.handlers offset := congrArg (fun map => (map.lookup offset).getD []) same
      rw [unchanged] at entered
      exact absurd (congrArg List.length entered) (by simp)

end FsuipcOffsetDb

namespace FsuipcFlightVars
variable {α : Type} [UserAdapter α]

/-- What the callers see of some calls: the results, and the handlers invoked. -/
def replay : List Call → FsuipcFlightVars α →
    List (Except Exception (Option SubscriptionId)) × List (Nat × VariableId × VariableValue)
  | [], s => ([], s.invoked)
  | call :: calls, s =>
    match perform call s with
    | .ok a s' => ((.ok a) :: (replay calls s').1, (replay calls s').2)
    | .error e s' => ((.error e) :: (replay calls s').1, (replay calls s').2)

/-- The stores are as before, and no later calls tell the difference. -/
structure Untouched (s s' : FsuipcFlightVars α) : Prop where
  knownOffsets : s'.db.knownOffsets = s.db.knownOffsets
  offsetHandlers : s'.db.offsetHandlers = s.db.offsetHandlers
  offsets : s'.updateObserver.offsets = s.updateObserver.offsets
  pendingWelcomes : s'.updateObserver.pendingWelcomes = s.updateObserver.pendingWelcomes
  values : s'.updateObserver.values = s.updateObserver.values
  later : ∀ calls, replay calls s' = replay calls s

/-- A subscription that throws leaves nothing behind. -/
def Atomic (var : VariableId) (handler : Nat) (s : FsuipcFlightVars α) : Prop :=
  ∀ e s', subscribe var handler s = .error e s' → Untouched s s'

/-- The offset that a subscription on the variable begins to observe. -/
def observedOffset (var : VariableId) (handler : Nat) (db : FsuipcOffsetDb) : Except Exception Offset :=
  match db.createSubscription var handler with
  | .ok (subs, db') => db'.getOffsetForSubscription subs.subsId
  | .error e => .error e

/-- The adapter reads the offset. -/
def Readable (offset : Offset) (c : FsuipcClient α) : Prop :=
  ∃ stores a, Request.commit [.read offset c.allocated] c.userAdapter = .ok stores a

/-- The adapter is asked only when the subscription is in the DB. -/
theorem subscribe_entered {var : VariableId} {handler : Nat} {s : FsuipcFlightVars α} {subs : SubscriptionMeta}
    {db : FsuipcOffsetDb} {offset : Offset} (created : s.db.createSubscription var handler = .ok (subs, db))
    (found : db.getOffsetForSubscription subs.subsId = .ok offset) :
    subscribe var handler s =
      match UpdateObserver.startObserving offset s.updateObserver with
      | .ok _ o => .ok subs.subsId { s with db, updateObserver := o }
      | .error e o => .error (if e.IsInvalidVar then .noSuchVariable var else e) { s with db, updateObserver := o } := by
  have creates : createSubscription var handler s = .ok subs { s with db } := by
    simp only [createSubscription, created]
  have finds : getOffsetForSubscription subs.subsId { s with db } = .ok offset { s with db } := by
    simp only [getOffsetForSubscription, found]
  unfold subscribe catching
  rw [ok_bind creates, ok_bind finds]
  cases started : UpdateObserver.startObserving offset s.updateObserver with
  | ok u o =>
    have watches : onObserver (UpdateObserver.startObserving offset) { s with db } =
        .ok u { s with db, updateObserver := o } := by
      simp only [onObserver, started]
    rw [ok_bind watches]
    rfl
  | error e o =>
    have fails : onObserver (UpdateObserver.startObserving offset) { s with db } =
        .error e { s with db, updateObserver := o } := by
      simp only [onObserver, started]
    rw [error_bind fails]

/-- A subscription that its adapter fails stays in the DB. -/
theorem subscribe_left {var : VariableId} {handler : Nat} {s : FsuipcFlightVars α} {subs : SubscriptionMeta}
    {db : FsuipcOffsetDb} {offset : Offset} (created : s.db.createSubscription var handler = .ok (subs, db))
    (found : db.getOffsetForSubscription subs.subsId = .ok offset)
    (unreadable : ¬ Readable offset s.updateObserver.client) : ¬ Atomic var handler s := by
  have reads := UpdateObserver.startObserving_error_iff offset s.updateObserver
  have raises := subscribe_entered created found
  cases committed : Request.commit [.read offset s.updateObserver.client.allocated] s.updateObserver.client.userAdapter with
  | ok stores a => exact absurd ⟨stores, a, committed⟩ unreadable
  | error e a =>
    obtain ⟨e', o, failed⟩ := reads.mpr ⟨e, a, committed⟩
    rw [failed] at raises
    intro atomic
    exact (FsuipcOffsetDb.createSubscription_enters created).2 (atomic _ _ raises).offsetHandlers

/-- A subscription is atomic exactly when the adapter does not fail to read its offset, or
    it has none. -/
theorem subscribe_atomic_iff (var : VariableId) (handler : Nat) (s : FsuipcFlightVars α) :
    Atomic var handler s ↔ ∀ offset, observedOffset var handler s.db = .ok offset →
      Readable offset s.updateObserver.client := by
  cases created : s.db.createSubscription var handler with
  | error e =>
    have refused : subscribe var handler s = .error (if e.IsInvalidVar then .noSuchVariable var else e) s := by
      have raised : createSubscription var handler s = .error e s := by
        simp only [createSubscription, created]
      unfold subscribe catching
      rw [error_bind raised]
    refine iff_of_true ?_ ?_
    · intro e' s' raised
      cases refused.symm.trans raised
      exact ⟨rfl, rfl, rfl, rfl, rfl, fun _ => rfl⟩
    · intro offset observed
      simp only [observedOffset, created] at observed
      cases observed
  | ok pair =>
    obtain ⟨subs, db⟩ := pair
    obtain ⟨⟨offset, found⟩, -⟩ := FsuipcOffsetDb.createSubscription_enters created
    have observed : observedOffset var handler s.db = .ok offset := by
      simp only [observedOffset, created, found]
    constructor
    · intro atomic offset' observed'
      cases observed.symm.trans observed'
      by_contra unreadable
      exact subscribe_left created found unreadable atomic
    · intro readable e s' raised
      exfalso
      obtain ⟨stores, a, committed⟩ := readable offset observed
      rw [subscribe_entered created found] at raised
      split at raised
      · cases raised
      · rename_i e' o failed
        obtain ⟨e'', a', failed'⟩ := (UpdateObserver.startObserving_error_iff offset s.updateObserver).mp ⟨e', o, failed⟩
        cases committed.symm.trans failed'

/-- A simulator that has gone: no message is answered. -/
inductive Gone where
  | gone

instance : Simulator Gone where
  refuses _ _ := true
  read _ _ := 0
  write _ _ := .gone

theorem gone_unprocessed (m m' : ModuleUser Gone) (stores : List (Pointer × UInt32)) :
    UserAdapter.process m ≠ .ok stores m' := by
  intro processed
  have returned : ModuleUser.process m = .ok stores m' := ModuleUser.throwing_ok processed
  unfold ModuleUser.process at returned
  split at returned
  · cases returned
  · split at returned
    · cases returned
    · rw [if_pos (show Simulator.refuses m.requests m.simulator = true from rfl)] at returned
      cases returned

/-- The link to FSUIPC is open, and the simulator has gone. The subscription stays in the DB. -/
theorem refusal_not_atomic : ¬ Atomic transponder 0 (create (⟨true, 0x7f00, [], .gone⟩ : ModuleUser Gone)) := by
  have converted : toFsuipcOffset transponder = .ok ⟨0x354, .word⟩ := by decide
  have created : ∃ subs db, FsuipcOffsetDb.empty.createSubscription transponder 0 = .ok (subs, db) := by
    simp only [FsuipcOffsetDb.createSubscription, converted]
    exact ⟨_, _, rfl⟩
  obtain ⟨subs, db, created⟩ := created
  obtain ⟨⟨offset, found⟩, -⟩ := FsuipcOffsetDb.createSubscription_enters created
  apply subscribe_left created found
  rintro ⟨stores, a, committed⟩
  obtain ⟨u, a', issued, processed⟩ := bind_ok committed
  exact gone_unprocessed _ _ _ processed

end FsuipcFlightVars
end Oac.Fsuipc
