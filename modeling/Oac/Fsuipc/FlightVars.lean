import Oac.Base.Run
import Oac.Fsuipc.OffsetDb
import Oac.Fsuipc.UpdateObserver

/-!
# FSUIPC variables

The FlightVars implementation over FSUIPC offsets. The offset DB and the update observer
keep the same offsets, each in its own way (`store_consistent`).
-/
namespace Oac.Fsuipc
open Base

/-- `fsuipc_flight_vars`, and the calls of handlers that it has made. -/
structure FsuipcFlightVars (α : Type) where
  db : FsuipcOffsetDb
  updateObserver : UpdateObserver α
  invoked : List (Nat × VariableId × VariableValue)

namespace FsuipcFlightVars
variable {α : Type}

def create (userAdapter : α) : FsuipcFlightVars α := ⟨.empty, ⟨⟨userAdapter, 0⟩, [], [], fun _ => none⟩, []⟩

/-- Throw another exception in the place of one that is caught. -/
def catching {σ β : Type} (caught : Exception → Bool) (instead : Exception) (x : EStateM Exception σ β) :
    EStateM Exception σ β := fun s =>
  match x s with
  | .ok b s' => .ok b s'
  | .error e s' => .error (if caught e then instead else e) s'

def isDbNoSuchSubscription : Exception → Bool
  | .offsetDbNoSuchSubscription _ => true
  | _ => false

def createSubscription (var : VariableId) (handler : Nat) : EStateM Exception (FsuipcFlightVars α) SubscriptionMeta :=
  fun s =>
    match s.db.createSubscription var handler with
    | .ok (subs, db) => .ok subs { s with db }
    | .error e => .error e s

def getOffsetForSubscription (subsId : SubscriptionId) : EStateM Exception (FsuipcFlightVars α) Offset := fun s =>
  match s.db.getOffsetForSubscription subsId with
  | .ok offset => .ok offset s
  | .error e => .error e s

/-- A call of the observer. -/
def onObserver {β : Type} (x : EStateM Exception (UpdateObserver α) β) : EStateM Exception (FsuipcFlightVars α) β :=
  fun s =>
    match x s.updateObserver with
    | .ok b o => .ok b { s with updateObserver := o }
    | .error e o => .error e { s with updateObserver := o }

/-- The handlers of the subscriptions for an offset, with its value. -/
def onOffsetUpdate (valuedOffset : ValuedOffset) :
    EStateM Exception (FsuipcOffsetDb × List (Nat × VariableId × VariableValue)) Unit := fun s =>
  match s.1.getSubscriptionsForOffset valuedOffset.toOffset with
  | .ok subscriptions =>
    .ok () (s.1, s.2 ++ subscriptions.map fun subs => (subs.handler, subs.varId, toVariableValue valuedOffset))
  | .error e => .error e s

/-- The end of `unsubscribe`. -/
def stopUnlessKnown (offset : Offset) (s : FsuipcFlightVars α) : FsuipcFlightVars α :=
  if offset ∈ s.db.getAllOffsets then s else { s with updateObserver := s.updateObserver.stopObserving offset }

theorem stopUnlessKnown_known {offset : Offset} {s : FsuipcFlightVars α} (known : offset ∈ s.db.knownOffsets) :
    stopUnlessKnown offset s = s := if_pos known
theorem stopUnlessKnown_unknown {offset : Offset} {s : FsuipcFlightVars α} (unknown : offset ∉ s.db.knownOffsets) :
    stopUnlessKnown offset s = { s with updateObserver := s.updateObserver.stopObserving offset } := if_neg unknown

section
variable [UserAdapter α]

def subscribe (var : VariableId) (handler : Nat) : EStateM Exception (FsuipcFlightVars α) SubscriptionId :=
  catching Exception.IsInvalidVar (.noSuchVariable var) do
    let subs ← createSubscription var handler
    let offset ← getOffsetForSubscription subs.subsId
    onObserver (UpdateObserver.startObserving offset)
    pure subs.subsId

def unsubscribe (id : SubscriptionId) : EStateM Exception (FsuipcFlightVars α) Unit :=
  catching isDbNoSuchSubscription (.noSuchSubscription id) do
    let offset ← getOffsetForSubscription id
    modify fun s => stopUnlessKnown offset { s with db := s.db.removeSubscription id }

/-- The values are taken by their types, so that no `invalid_type_error` comes up. -/
def update (subsId : SubscriptionId) (varValue : VariableValue) : EStateM Exception (FsuipcFlightVars α) Unit :=
  catching isDbNoSuchSubscription (.noSuchSubscription subsId) do
    let offset ← getOffsetForSubscription subsId
    onObserver (UpdateObserver.onClient (FsuipcClient.update [⟨offset, toFsuipcOffsetValue varValue⟩]))

def checkForUpdates : EStateM Exception (FsuipcFlightVars α) Unit := fun s =>
  match UpdateObserver.checkForUpdates onOffsetUpdate (s.updateObserver, (s.db, s.invoked)) with
  | .ok _ (o, db, invoked) => .ok () ⟨db, o, invoked⟩
  | .error e (o, db, invoked) => .error e ⟨db, o, invoked⟩

inductive Call where
  | subscribe (var : VariableId) (handler : Nat)
  | unsubscribe (id : SubscriptionId)
  | update (id : SubscriptionId) (value : VariableValue)
  | checkForUpdates

/-- A call. Only a subscription returns something. -/
def perform : Call → EStateM Exception (FsuipcFlightVars α) (Option SubscriptionId)
  | .subscribe var handler => do
    let id ← subscribe var handler
    pure (some id)
  | .unsubscribe id => do
    unsubscribe id
    pure none
  | .update id value => do
    update id value
    pure none
  | .checkForUpdates => do
    checkForUpdates
    pure none

end

/-- The live subscriptions after a call that returned. -/
def record (live : List (SubscriptionId × VariableId)) : Call → Option SubscriptionId → List (SubscriptionId × VariableId)
  | .subscribe var _, some id => (id, var) :: live
  | .unsubscribe id, _ => live.filter fun pair => pair.1 ≠ id
  | _, _ => live

inductive Event (α : Type) where
  | call (call : Call)
  /-- the simulator changes what the adapter reads, and others draw subscription ids -/
  | outside (userAdapter : α) (nextId : SubscriptionId)

def Step [UserAdapter α] (before : FsuipcFlightVars α × List (SubscriptionId × VariableId)) :
    Event α → FsuipcFlightVars α × List (SubscriptionId × VariableId) → Prop
  | .call call, now => (∃ a, perform call before.1 = .ok a now.1 ∧ now.2 = record before.2 call a) ∨
      ∃ e, perform call before.1 = .error e now.1 ∧ now.2 = before.2
  | .outside userAdapter nextId, now => now = ({ before.1 with
      db := { before.1.db with nextId := nextId }
      updateObserver := { before.1.updateObserver with
        client := { before.1.updateObserver.client with userAdapter := userAdapter } } }, before.2)

/-- The next subscription gets an id that no live one has. -/
def Fresh (before : FsuipcFlightVars α × List (SubscriptionId × VariableId)) : Event α → Prop
  | .call (.subscribe _ _) => before.1.db.nextId ∉ before.2.map Prod.fst
  | _ => True

/-! ## What the calls do -/

/-- The DB is consistent and the observer has its offsets. -/
structure Sound (s : FsuipcFlightVars α × List (SubscriptionId × VariableId)) : Prop where
  consistent : s.1.db.Consistent s.2
  observed : ∀ {o}, o ∈ s.1.updateObserver.offsets ↔ o ∈ s.1.db.knownOffsets

section
variable [UserAdapter α] {s s' : FsuipcFlightVars α} {live : List (SubscriptionId × VariableId)} {id : SubscriptionId}
  {var : VariableId}

theorem subscribe_refused {e : Exception} (handler : Nat) (refused : toFsuipcOffset var = .error e) :
    subscribe var handler s = .error (.noSuchVariable var) s := by
  have created : createSubscription var handler s = .error e s := by
    simp only [createSubscription, FsuipcOffsetDb.createSubscription, refused]
  unfold subscribe catching
  rw [error_bind created]
  simp only [toFsuipcOffset_refused refused, ↓reduceIte]

theorem subscribe_returns (reliable : UserAdapter.Reliable α) (sound : Sound (s, live))
    (fresh : s.db.nextId ∉ live.map Prod.fst) {offset : Offset} (handler : Nat)
    (converted : toFsuipcOffset var = .ok offset) :
    ∃ s', subscribe var handler s = .ok s.db.nextId s' ∧ Sound (s', (s.db.nextId, var) :: live) := by
  obtain ⟨consistent, observed⟩ := sound
  obtain ⟨db, named⟩ : ∃ db, db = ((s.db.insertKnownOffset offset).insertSubscription offset var handler).2 := ⟨_, rfl⟩
  have consistent' := consistent.create fresh converted handler
  rw [← named] at consistent'
  have created : createSubscription var handler s = .ok ⟨var, handler, s.db.nextId⟩ { s with db } := by
    simp only [createSubscription, FsuipcOffsetDb.createSubscription, converted, named]
    simp [FsuipcOffsetDb.insertSubscription]
  have found : getOffsetForSubscription s.db.nextId { s with db } = .ok offset { s with db } := by
    simp only [getOffsetForSubscription, consistent'.getOffset_live List.mem_cons_self converted]
  obtain ⟨o, started, offsets⟩ := UpdateObserver.startObserving_returns reliable offset s.updateObserver
  have watched : onObserver (UpdateObserver.startObserving offset) { s with db } =
      .ok () { s with db, updateObserver := o } := by
    simp only [onObserver, started]
  refine ⟨{ s with db, updateObserver := o }, ?_, consistent', ?_⟩
  · unfold subscribe catching
    rw [ok_bind created, ok_bind found, ok_bind watched]
    rfl
  · intro o'
    show o' ∈ o.offsets ↔ o' ∈ db.knownOffsets
    rw [offsets, List.mem_insert_iff, observed, named]
    exact FsuipcOffsetDb.mem_insertKnownOffset.symm

omit [UserAdapter α] in
theorem unsubscribe_dead (sound : Sound (s, live)) (dead : id ∉ live.map Prod.fst) :
    unsubscribe id s = .error (.noSuchSubscription id) s := by
  have missing : getOffsetForSubscription id s = .error (.offsetDbNoSuchSubscription id) s := by
    simp only [getOffsetForSubscription, sound.consistent.getOffset_dead dead]
  unfold unsubscribe catching
  rw [error_bind missing]
  rfl

omit [UserAdapter α] in
theorem unsubscribe_returns (sound : Sound (s, live)) (member : (id, var) ∈ live) :
    ∃ s', unsubscribe id s = .ok () s' ∧ Sound (s', live.filter fun pair => pair.1 ≠ id) := by
  obtain ⟨consistent, observed⟩ := sound
  obtain ⟨offset, converted⟩ := consistent.placed member
  have found : getOffsetForSubscription id s = .ok offset s := by
    simp only [getOffsetForSubscription, consistent.getOffset_live member converted]
  refine ⟨stopUnlessKnown offset { s with db := s.db.removeSubscription id }, ?_, ?_⟩
  · unfold unsubscribe catching
    rw [ok_bind found]
    rfl
  · have consistent' := consistent.remove id
    have others : ∀ {o}, o ≠ offset → (o ∈ (s.db.removeSubscription id).knownOffsets ↔ o ∈ s.updateObserver.offsets) :=
      fun other => (consistent.remove_known member converted other).trans observed.symm
    by_cases known : offset ∈ (s.db.removeSubscription id).knownOffsets
    · rw [stopUnlessKnown_known known]
      refine ⟨consistent', ?_⟩
      intro o
      by_cases here : o = offset
      · subst here
        have before : o ∈ s.db.knownOffsets := FsuipcOffsetDb.removeSubscription_known known
        exact iff_of_true (observed.mpr before) known
      · exact (others here).symm
    · rw [stopUnlessKnown_unknown known]
      refine ⟨consistent', ?_⟩
      intro o
      show o ∈ s.updateObserver.offsets.filter (· ≠ offset) ↔ _
      rw [List.mem_filter, decide_eq_true_eq]
      by_cases here : o = offset
      · subst here
        exact iff_of_false (fun both => both.2 rfl) known
      · rw [others here]
        exact and_iff_left here

theorem update_dead (sound : Sound (s, live)) (dead : id ∉ live.map Prod.fst) (value : VariableValue) :
    update id value s = .error (.noSuchSubscription id) s := by
  have missing : getOffsetForSubscription id s = .error (.offsetDbNoSuchSubscription id) s := by
    simp only [getOffsetForSubscription, sound.consistent.getOffset_dead dead]
  unfold update catching
  rw [error_bind missing]
  rfl

theorem update_returns (reliable : UserAdapter.Reliable α) (sound : Sound (s, live)) (member : (id, var) ∈ live)
    (value : VariableValue) : ∃ s', update id value s = .ok () s' ∧ Sound (s', live) := by
  obtain ⟨consistent, observed⟩ := sound
  obtain ⟨offset, converted⟩ := consistent.placed member
  have found : getOffsetForSubscription id s = .ok offset s := by
    simp only [getOffsetForSubscription, consistent.getOffset_live member converted]
  obtain ⟨c, updated⟩ := FsuipcClient.update_returns reliable [⟨offset, toFsuipcOffsetValue value⟩] s.updateObserver.client
  refine ⟨{ s with updateObserver := { s.updateObserver with client := c } }, ?_, consistent, observed⟩
  unfold update catching
  rw [ok_bind found]
  simp only [onObserver, UpdateObserver.onClient, updated]

end

/-- The evaluation finds the handlers of every known offset. -/
theorem check_returns {o : UpdateObserver α} {db : FsuipcOffsetDb} {val : ValuedOffset}
    (known : val.toOffset ∈ db.offsetHandlers) (invoked : List (Nat × VariableId × VariableValue)) :
    ∃ o' invoked', UpdateObserver.check onOffsetUpdate val (o, (db, invoked)) = .ok () (o', (db, invoked')) ∧
      o'.offsets = o.offsets := by
  obtain ⟨subscriptions, found⟩ := Option.isSome_iff_exists.mp (AList.lookup_isSome.mpr known)
  unfold UpdateObserver.check onOffsetUpdate FsuipcOffsetDb.getSubscriptionsForOffset
  split
  · simp only [found]
    exact ⟨_, _, rfl, rfl⟩
  · exact ⟨_, _, rfl, rfl⟩

theorem checkAll_returns {db : FsuipcOffsetDb} (values : List ValuedOffset)
    (known : ∀ val ∈ values, val.toOffset ∈ db.offsetHandlers) (o : UpdateObserver α)
    (invoked : List (Nat × VariableId × VariableValue)) :
    ∃ o' invoked', UpdateObserver.checkAll onOffsetUpdate values (o, (db, invoked)) = .ok () (o', (db, invoked')) ∧
      o'.offsets = o.offsets := by
  induction values generalizing o invoked with
  | nil => exact ⟨o, invoked, rfl, rfl⟩
  | cons val values ih =>
    obtain ⟨o₁, invoked₁, executed, same⟩ := check_returns (o := o) (known val List.mem_cons_self) invoked
    obtain ⟨o', invoked', continued, same'⟩ := ih (fun val among => known val (List.mem_cons_of_mem _ among)) o₁ invoked₁
    exact ⟨o', invoked', (ok_bind executed).trans continued, same'.trans same⟩

section
variable [UserAdapter α] {s : FsuipcFlightVars α} {live : List (SubscriptionId × VariableId)}

theorem checkForUpdates_returns (reliable : UserAdapter.Reliable α) (sound : Sound (s, live)) :
    ∃ s', checkForUpdates s = .ok () s' ∧ Sound (s', live) := by
  obtain ⟨consistent, observed⟩ := sound
  obtain ⟨values, c, result, same⟩ := FsuipcClient.query_returns reliable s.updateObserver.offsets s.updateObserver.client
  have known : ∀ val ∈ values, val.toOffset ∈ s.db.offsetHandlers := by
    intro val among
    have watched : val.toOffset ∈ s.updateObserver.offsets := same ▸ List.mem_map_of_mem among
    exact consistent.known.mp (observed.mp watched)
  have queried : UpdateObserver.onClient (FsuipcClient.query s.updateObserver.offsets) s.updateObserver =
      .ok values { s.updateObserver with client := c } := by
    simp only [UpdateObserver.onClient, result]
  obtain ⟨o', invoked', checked, offsets⟩ := checkAll_returns values known { s.updateObserver with client := c } s.invoked
  refine ⟨⟨s.db, { o' with pendingWelcomes := [] }, invoked'⟩, ?_, consistent, ?_⟩
  · simp only [checkForUpdates, UpdateObserver.checkForUpdates, queried, checked]
  · intro o
    show o ∈ o'.offsets ↔ _
    rw [offsets]
    exact observed

/-- What every call does: it returns and keeps the stores sound, or throws and changes
    nothing. -/
theorem Sound.perform (reliable : UserAdapter.Reliable α) (sound : Sound (s, live)) (call : Call)
    (fresh : Fresh (α := α) (s, live) (.call call)) :
    (∃ a s', perform call s = .ok a s' ∧ Sound (s', record live call a)) ∨ ∃ e, perform call s = .error e s := by
  cases call with
  | subscribe var handler =>
    cases converted : toFsuipcOffset var with
    | ok offset =>
      obtain ⟨s', executed, sound'⟩ := subscribe_returns reliable sound fresh handler converted
      exact .inl ⟨some s.db.nextId, s', (ok_bind executed).trans rfl, sound'⟩
    | error e => exact .inr ⟨_, error_bind (subscribe_refused handler converted)⟩
  | unsubscribe id =>
    by_cases alive : id ∈ live.map Prod.fst
    · obtain ⟨⟨_, var⟩, member, rfl⟩ := List.mem_map.mp alive
      obtain ⟨s', executed, sound'⟩ := unsubscribe_returns sound member
      exact .inl ⟨none, s', (ok_bind executed).trans rfl, sound'⟩
    · exact .inr ⟨_, error_bind (unsubscribe_dead sound alive)⟩
  | update id value =>
    by_cases alive : id ∈ live.map Prod.fst
    · obtain ⟨⟨_, var⟩, member, rfl⟩ := List.mem_map.mp alive
      obtain ⟨s', executed, sound'⟩ := update_returns reliable sound member value
      exact .inl ⟨none, s', (ok_bind executed).trans rfl, sound'⟩
    · exact .inr ⟨_, error_bind (update_dead sound alive value)⟩
  | checkForUpdates =>
    obtain ⟨s', executed, sound'⟩ := checkForUpdates_returns reliable sound
    exact .inl ⟨none, s', (ok_bind executed).trans rfl, sound'⟩

omit [UserAdapter α] in
theorem create_sound (userAdapter : α) : Sound (create userAdapter, []) :=
  ⟨FsuipcOffsetDb.empty_consistent, by simp [create, FsuipcOffsetDb.empty]⟩

theorem Sound.step (reliable : UserAdapter.Reliable α) {before now : FsuipcFlightVars α × List (SubscriptionId × VariableId)}
    {event : Event α} (sound : Sound before) (step : Step before event now) (fresh : Fresh before event) : Sound now := by
  obtain ⟨s, live⟩ := before
  obtain ⟨s', live'⟩ := now
  cases event with
  | call call =>
    rcases sound.perform reliable call fresh with ⟨a, s₁, executed, sound'⟩ | ⟨e, raised⟩
    · rcases step with ⟨a', executed', recorded⟩ | ⟨e, raised, -⟩
      · cases executed.symm.trans executed'
        simp only at recorded
        rw [recorded]
        exact sound'
      · exact absurd (executed.symm.trans raised) nofun
    · rcases step with ⟨a', executed, -⟩ | ⟨e', raised', recorded⟩
      · exact absurd (raised.symm.trans executed) nofun
      · cases raised.symm.trans raised'
        simp only at recorded
        rw [recorded]
        exact sound
  | outside userAdapter nextId =>
    cases step
    obtain ⟨⟨distinct, known, nonempty, unique, placed, occurs⟩, observed⟩ := sound
    exact ⟨⟨distinct, known, nonempty, unique, placed, occurs⟩, observed⟩

/-- The three stores of offsets and the lists of subscriptions. -/
structure StoreInvariant (s : FsuipcFlightVars α) (live : List (SubscriptionId × VariableId)) : Prop where
  distinct : s.db.knownOffsets.Nodup
  keys : ∀ o, o ∈ s.db.knownOffsets ↔ o ∈ s.db.offsetHandlers
  observed : ∀ o, o ∈ s.db.knownOffsets ↔ o ∈ s.updateObserver.offsets
  nonempty : ∀ o list, s.db.offsetHandlers.lookup o = some list → list ≠ []
  once : ∀ id var, (id, var) ∈ live → ∃ offset, toFsuipcOffset var = .ok offset ∧
    ∀ o, (s.db.handlers o).countP (fun subs => subs.subsId = id) = if o = offset then 1 else 0

omit [UserAdapter α] in
/-- The offset of a live subscription is observed. -/
theorem StoreInvariant.watched (stores : StoreInvariant s live) {id : SubscriptionId} {var : VariableId}
    (member : (id, var) ∈ live) {offset : Offset} (converted : toFsuipcOffset var = .ok offset) : offset ∈ s.updateObserver.offsets := by
  obtain ⟨_, found, counted⟩ := stores.once id var member
  cases converted.symm.trans found
  have listed := counted offset
  refine (stores.observed _).mp ((stores.keys _).mpr (AList.lookup_isSome.mp ?_))
  cases present : s.db.offsetHandlers.lookup offset with
  | none => simp [FsuipcOffsetDb.handlers, present] at listed
  | some list => rfl

omit [UserAdapter α] in
theorem Sound.invariant (sound : Sound (s, live)) : StoreInvariant s live where
  distinct := sound.consistent.distinct
  keys := fun _ => sound.consistent.known
  observed := fun _ => sound.observed.symm
  nonempty := fun _ _ => sound.consistent.nonempty
  once := by
    intro id var member
    obtain ⟨offset, converted⟩ := sound.consistent.placed member
    exact ⟨offset, converted, sound.consistent.count member converted⟩

/-- In every run over an adapter that does not fail, the stores are consistent, and a call
    that throws changes nothing. -/
theorem store_consistent (reliable : UserAdapter.Reliable α) (userAdapter : α) (s : FsuipcFlightVars α)
    (live : List (SubscriptionId × VariableId)) (run : Run (Meeting Step Fresh) (create userAdapter, []) (s, live)) :
    StoreInvariant s live ∧ ∀ call e s', Fresh (α := α) (s, live) (.call call) → FsuipcFlightVars.perform call s = .error e s' →
      s' = s := by
  have sound : Sound (s, live) := run.invariant (create_sound userAdapter) fun sound last => sound.step reliable last.1 last.2
  refine ⟨sound.invariant, ?_⟩
  intro call e s' fresh raised
  rcases sound.perform reliable call fresh with ⟨a, s₁, executed, -⟩ | ⟨e', raised'⟩
  · exact absurd (executed.symm.trans raised) nofun
  · cases raised'.symm.trans raised
    rfl

end

/-- The transponder code, in hexadecimal and in decimal. -/
def transponder : VariableId := variableId (text "fsuipc/offset") (text "0x0354:2")
def transponderAlias : VariableId := variableId (text "fsuipc/offset") (text "852:2")

/-- Two subscriptions of one offset, with ids drawn by others in between, then the removal of
    the first. -/
theorem alias_run : ∃ s s' : FsuipcFlightVars DummyUserAdapter,
    Run (Meeting Step Fresh) (create DummyUserAdapter.create, []) (s, [(3, transponderAlias), (1, transponder)]) ∧
    Run (Meeting Step Fresh) (create DummyUserAdapter.create, []) (s', [(3, transponderAlias)]) := by
  have converted : toFsuipcOffset transponder = .ok ⟨0x354, .word⟩ := by decide
  have convertedAlias : toFsuipcOffset transponderAlias = .ok ⟨0x354, .word⟩ := by decide
  obtain ⟨s₁, subscribed, sound₁⟩ := subscribe_returns DummyUserAdapter.reliable (create_sound DummyUserAdapter.create)
    List.not_mem_nil 0 converted
  have run₁ : Run (Meeting Step Fresh) (create DummyUserAdapter.create, []) (s₁, [(1, transponder)]) :=
    (Run.refl _).next (e := .call (.subscribe transponder 0)) ⟨.inl ⟨some 1, (ok_bind subscribed).trans rfl, rfl⟩, List.not_mem_nil⟩
  obtain ⟨s₂, drawn, next⟩ : ∃ s₂, Step (s₁, [(1, transponder)]) (.outside s₁.updateObserver.client.userAdapter 3)
      (s₂, [(1, transponder)]) ∧ s₂.db.nextId = 3 := ⟨_, rfl, rfl⟩
  have sound₂ := sound₁.step DummyUserAdapter.reliable drawn trivial
  have unused : s₂.db.nextId ∉ [(1, transponder)].map Prod.fst := by rw [next]; decide
  obtain ⟨s₃, subscribed', sound₃⟩ := subscribe_returns DummyUserAdapter.reliable sound₂ unused 0 convertedAlias
  rw [next] at subscribed' sound₃
  have run₃ : Run (Meeting Step Fresh) (create DummyUserAdapter.create, []) (s₃, [(3, transponderAlias), (1, transponder)]) :=
    (run₁.next ⟨drawn, trivial⟩).next (e := .call (.subscribe transponderAlias 0))
      ⟨.inl ⟨some 3, (ok_bind subscribed').trans rfl, rfl⟩, unused⟩
  obtain ⟨s₄, removed, -⟩ := unsubscribe_returns sound₃ (List.mem_cons_of_mem _ List.mem_cons_self)
  exact ⟨s₃, s₄, run₃, run₃.next (e := .call (.unsubscribe 1)) ⟨.inl ⟨none, (ok_bind removed).trans rfl, rfl⟩, trivial⟩⟩

/-- The offset stays known and observed for the second subscription. -/
theorem transponder_consistent : ∃ s s' : FsuipcFlightVars DummyUserAdapter,
    StoreInvariant s [(3, transponderAlias), (1, transponder)] ∧ StoreInvariant s' [(3, transponderAlias)] ∧
    (⟨0x354, .word⟩ : Offset) ∈ s'.updateObserver.offsets := by
  obtain ⟨s, s', both, one⟩ := alias_run
  have kept := (store_consistent DummyUserAdapter.reliable _ _ _ one).1
  have member : ((3 : SubscriptionId), transponderAlias) ∈ [(3, transponderAlias)] := List.mem_cons_self
  exact ⟨s, s', (store_consistent DummyUserAdapter.reliable _ _ _ both).1, kept, kept.watched member (by decide)⟩

end FsuipcFlightVars
end Oac.Fsuipc
