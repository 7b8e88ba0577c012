import Oac.Core
import Oac.Fsuipc.Delivery

/-!
# What the server of the module is over

The module registers the FSUIPC variables with the core as the master of their group, polls
them at every tick, and starts its server over the core. The handlers that sessions pass
are told apart by the numbers of the sessions. The core and the book of the FSUIPC
variables know the same subscriptions (`Serves`).
-/
namespace Oac.Deployment
open Base Fsuipc
open FsuipcFlightVars (Book Informed UpToDate deliveries)

/-- The FSUIPC variables, and the session that calls them. -/
structure Attended (α : Type) where
  caller : Nat
  vars : FsuipcFlightVars α

variable {α : Type}

/-- A call of the FSUIPC variables. -/
def onVars {β : Type} (x : EStateM Exception (FsuipcFlightVars α) β) : EStateM Exception (Attended α) β := fun a =>
  match x a.vars with
  | .ok b vars => .ok b { a with vars }
  | .error e vars => .error e { a with vars }

instance [UserAdapter α] : FlightVars (Attended α) where
  subscribe var a := onVars (FsuipcFlightVars.subscribe var a.caller) a
  unsubscribe id := onVars (FsuipcFlightVars.unsubscribe id)
  update id value := onVars (FsuipcFlightVars.update id value)

/-- The core, whose one master is the FSUIPC variables. -/
abbrev Stack (α : Type) := Core Unit (Attended α)

namespace Stack

def vars (c : Stack α) : FsuipcFlightVars α := (c.masters ()).vars
def caller (c : Stack α) : Nat := (c.masters ()).caller

/-- What the adapter reads from the memory. -/
def reading (memory : α → Offset → UInt32) (c : Stack α) : Offset → UInt32 :=
  UpdateObserver.current memory c.vars.updateObserver

def withVars (c : Stack α) (vars : FsuipcFlightVars α) : Stack α := c.setMaster () { c.masters () with vars }

/-- `start_fsuipc`. -/
def start (userAdapter : α) : Stack α :=
  after (Core.registerGroupMaster varGroupTag () (Core.create fun _ => ⟨0, FsuipcFlightVars.create userAdapter⟩))

/-- The calls that follow are of this session. -/
def attend (k : Nat) (c : Stack α) : Stack α := c.setMaster () { c.masters () with caller := k }

/-- The handler of ticks, which takes no lock. It is one step. -/
def tick [UserAdapter α] : EStateM Exception (Stack α) Unit := Core.onMaster () (onVars FsuipcFlightVars.checkForUpdates)

/-- The simulator changes what the adapter reads, and others draw subscription ids. -/
def outside (userAdapter : α) (nextId : SubscriptionId) (c : Stack α) : Stack α := c.withVars { c.vars with
  db := { c.vars.db with nextId := nextId }
  updateObserver := { c.vars.updateObserver with
    client := { c.vars.updateObserver.client with userAdapter := userAdapter } } }

@[simp] theorem withVars_vars (c : Stack α) (vars : FsuipcFlightVars α) : (c.withVars vars).vars = vars := by
  rw [Stack.vars, withVars, Core.setMaster_masters]
@[simp] theorem attend_vars (c : Stack α) (k : Nat) : (c.attend k).vars = c.vars := by
  rw [vars, attend, Core.setMaster_masters]
  rfl
@[simp] theorem attend_caller (c : Stack α) (k : Nat) : (c.attend k).caller = k := by
  rw [caller, attend, Core.setMaster_masters]
@[simp] theorem insertSubscription_vars (c : Stack α) (id : SubscriptionId) :
    vars (Core.insertSubscription id () c) = c.vars := rfl
@[simp] theorem eraseSubscription_vars (c : Stack α) (id : SubscriptionId) :
    vars (Core.eraseSubscription id c) = c.vars := rfl

/-! ## Calls on the master -/

section
variable {β : Type} {x : EStateM Exception (FsuipcFlightVars α) β} {c : Stack α} {s : FsuipcFlightVars α}

theorem onVars_ok {b : β} (executed : x c.vars = .ok b s) :
    onVars x (c.masters ()) = .ok b { c.masters () with vars := s } := by
  rw [vars] at executed
  simp only [onVars, executed]

theorem onVars_error {e : Exception} (raised : x c.vars = .error e s) :
    onVars x (c.masters ()) = .error e { c.masters () with vars := s } := by
  rw [vars] at raised
  simp only [onVars, raised]

variable [UserAdapter α] {var : VariableId} {id : SubscriptionId} {value : VariableValue}

theorem subscribe_ok (registered : c.groupMasters var.group = some ())
    (executed : FsuipcFlightVars.subscribe var c.caller c.vars = .ok id s) :
    FlightVars.subscribe var c = .ok id ((c.withVars s).insertSubscription id ()) := by
  have master : FlightVars.subscribe var (c.masters ()) = .ok id { c.masters () with vars := s } := onVars_ok executed
  rw [Core.subscribe_registered registered, master]
  rfl

theorem subscribe_error {e : Exception} (registered : c.groupMasters var.group = some ())
    (raised : FsuipcFlightVars.subscribe var c.caller c.vars = .error e s) :
    FlightVars.subscribe var c = .error e (c.withVars s) := by
  have master : FlightVars.subscribe var (c.masters ()) = .error e { c.masters () with vars := s } := onVars_error raised
  rw [Core.subscribe_registered registered, master]
  rfl

theorem unsubscribe_ok {u : Unit} (known : c.subscriptions id = some ())
    (executed : FsuipcFlightVars.unsubscribe id c.vars = .ok u s) :
    FlightVars.unsubscribe id c = .ok () ((c.withVars s).eraseSubscription id) := by
  have master : FlightVars.unsubscribe id (c.masters ()) = .ok u { c.masters () with vars := s } := onVars_ok executed
  rw [Core.unsubscribe_known known, master]
  rfl

theorem update_ok {u : Unit} (known : c.subscriptions id = some ())
    (executed : FsuipcFlightVars.update id value c.vars = .ok u s) :
    FlightVars.update id value c = .ok u (c.withVars s) := by
  have master : FlightVars.update id value (c.masters ()) = .ok u { c.masters () with vars := s } := onVars_ok executed
  rw [Core.update_known known, Core.onMaster, master]
  rfl

theorem tick_ok {u : Unit} (executed : FsuipcFlightVars.checkForUpdates c.vars = .ok u s) :
    tick c = .ok u (c.withVars s) := by
  have master := onVars_ok executed
  rw [tick, Core.onMaster, master]
  rfl

end

/-! ## The core and the book -/

/-- The only group is that of the FSUIPC variables, the core knows their subscriptions, and
    whoever has not been told the last value is to be told at the next tick. -/
structure Serves (requests : α → List (Offset × Pointer)) (c : Stack α) (book : Book) : Prop where
  registered : ∀ {grp}, c.groupMasters grp = some () ↔ grp = varGroupTag
  routed : ∀ {id}, c.subscriptions id = some () ↔ id ∈ book.live.map SubscriptionMeta.subsId
  informed : Informed requests (c.vars, book)

variable {requests : α → List (Offset × Pointer)} {memory : α → Offset → UInt32} {c c' : Stack α}
  {book : Book} {var : VariableId} {id : SubscriptionId}

theorem start_serves {userAdapter : α} (idle : requests userAdapter = []) :
    Serves requests (start userAdapter) Book.empty where
  registered := by
    intro grp
    show Function.update (fun _ => none) varGroupTag (some ()) grp = some () ↔ _
    by_cases same : grp = varGroupTag
    · subst same
      simp
    · simp [same]
  routed := by
    intro id
    exact iff_of_false nofun List.not_mem_nil
  informed := FsuipcFlightVars.create_informed idle

theorem Serves.unregistered (serves : Serves requests c book) (other : var.group ≠ varGroupTag) :
    c.groupMasters var.group = none := by
  cases found : c.groupMasters var.group with
  | none => rfl
  | some master => exact absurd (serves.registered.mp found) other

theorem Serves.unknown (serves : Serves requests c book) (dead : id ∉ book.live.map SubscriptionMeta.subsId) :
    c.subscriptions id = none := by
  cases found : c.subscriptions id with
  | none => rfl
  | some master => exact absurd (serves.routed.mp found) dead

theorem Serves.attended (serves : Serves requests c book) (k : Nat) : Serves requests (c.attend k) book where
  registered := serves.registered
  routed := serves.routed
  informed := by
    rw [attend_vars]
    exact serves.informed

theorem Serves.with (serves : Serves requests c book) {vars : FsuipcFlightVars α} {book' : Book}
    (same : book'.live = book.live) (informed : Informed requests (vars, book')) :
    Serves requests (c.withVars vars) book' where
  registered := serves.registered
  routed := by
    intro id
    rw [same]
    exact serves.routed
  informed := by
    rw [withVars_vars]
    exact informed

theorem Serves.outside [UserAdapter α] (reliable : UserAdapter.Reliable α) (faithful : UserAdapter.Faithful requests memory)
    (serves : Serves requests c book) {userAdapter : α}
    (apart : requests userAdapter = requests c.vars.updateObserver.client.userAdapter) (nextId : SubscriptionId) :
    Serves requests (c.outside userAdapter nextId) book := by
  have changed : FsuipcFlightVars.BookedStep (c.vars, book) (.outside userAdapter nextId) (_, _) := rfl
  exact serves.with rfl (serves.informed.step reliable faithful changed ⟨apart, trivial⟩)

/-- The offsets that are polled are those of the live subscriptions. -/
theorem Serves.polled_iff (serves : Serves requests c book) {offset : Offset} :
    offset ∈ c.vars.updateObserver.offsets ↔ ∃ subs ∈ book.live, toFsuipcOffset subs.varId = .ok offset := by
  have consistent := serves.informed.sound.consistent
  constructor
  · intro polled
    have keyed := consistent.known.mp (serves.informed.sound.observed.mp polled)
    obtain ⟨list, found⟩ := Option.isSome_iff_exists.mp (AList.lookup_isSome.mpr keyed)
    obtain ⟨subs, among⟩ := List.exists_mem_of_ne_nil list (consistent.nonempty found)
    have handled : subs ∈ c.vars.db.handlers offset := by
      rw [FsuipcOffsetDb.handlers, found]
      exact among
    exact ⟨subs, serves.informed.listed handled, serves.informed.converted handled⟩
  · rintro ⟨subs, live, converted⟩
    exact serves.informed.watched live converted

variable [UserAdapter α]

/-- A subscription gets the next id, if its variable is an offset. -/
theorem Serves.subscribes (reliable : UserAdapter.Reliable α) (faithful : UserAdapter.Faithful requests memory)
    (serves : Serves requests c book) (fresh : c.vars.db.nextId ∉ book.live.map SubscriptionMeta.subsId) (var : VariableId) :
    ∃ c', reading memory c' = reading memory c ∧
      ((FlightVars.subscribe var c = .ok c.vars.db.nextId c' ∧ Serves requests c'
          ⟨⟨var, c.caller, c.vars.db.nextId⟩ :: book.live, Function.update book.told c.vars.db.nextId []⟩) ∨
        (FlightVars.subscribe var c = .error (.noSuchVariable var) c' ∧ Serves requests c' book)) := by
  by_cases grp : var.group = varGroupTag
  · have registered := serves.registered.mpr grp
    cases converted : toFsuipcOffset var with
    | error e =>
      refine ⟨c.withVars c.vars, by rw [reading, withVars_vars]; rfl, .inr ⟨?_, serves.with rfl serves.informed⟩⟩
      exact subscribe_error registered (FsuipcFlightVars.subscribe_refused c.caller converted)
    | ok offset =>
      have unused : c.vars.db.nextId ∉ book.pairs.map Prod.fst := by
        rw [Book.pairs_fst]
        exact fresh
      obtain ⟨s, executed, sound⟩ :=
        FsuipcFlightVars.subscribe_returns reliable serves.informed.sound unused c.caller converted
      have informed := serves.informed.subscribed faithful unused executed sound
      obtain ⟨offset', o, -, -, started, become⟩ := FsuipcFlightVars.subscribe_inv serves.informed.sound unused executed
      have start := UpdateObserver.startObservingAll_ok faithful serves.informed.idle started
      have unchanged : reading memory (Core.insertSubscription c.vars.db.nextId () (c.withVars s)) = reading memory c := by
        rw [reading, insertSubscription_vars, withVars_vars, become]
        exact start.unchanged
      refine ⟨_, unchanged, .inl ⟨subscribe_ok registered executed, serves.registered, ?_, ?_⟩⟩
      · intro id
        show _ ↔ id ∈ c.vars.db.nextId :: book.live.map SubscriptionMeta.subsId
        by_cases new : id = c.vars.db.nextId
        · subst new
          simp
        · rw [Core.insertSubscription_other new, List.mem_cons, or_iff_right new]
          exact serves.routed
      · rw [insertSubscription_vars, withVars_vars]
        exact informed
  · exact ⟨c, rfl, .inr ⟨Core.subscribe_refused (serves.unregistered grp), serves⟩⟩

theorem Serves.unsubscribes (serves : Serves requests c book) (alive : id ∈ book.live.map SubscriptionMeta.subsId) :
    ∃ c', FlightVars.unsubscribe id c = .ok () c' ∧ (∀ memory, reading memory c' = reading memory c) ∧
      Serves requests c' { book with live := book.live.filter fun subs => subs.subsId ≠ id } := by
  obtain ⟨subs, member, rfl⟩ := List.mem_map.mp alive
  obtain ⟨s, executed, sound⟩ :=
    FsuipcFlightVars.unsubscribe_returns serves.informed.sound (Informed.pair member)
  refine ⟨_, unsubscribe_ok (serves.routed.mpr alive) executed, ?_, serves.registered, ?_, ?_⟩
  · intro memory
    obtain ⟨offset, become⟩ := FsuipcFlightVars.unsubscribe_inv executed
    rw [reading, eraseSubscription_vars, withVars_vars, become]
    unfold FsuipcFlightVars.stopUnlessKnown
    split <;> rfl
  · intro id
    by_cases gone : id = subs.subsId
    · subst gone
      refine iff_of_false (by rw [Core.eraseSubscription_self]; nofun) fun among => ?_
      obtain ⟨subs', kept, same⟩ := List.mem_map.mp among
      exact of_decide_eq_true (List.mem_filter.mp kept).2 same
    · rw [Core.eraseSubscription_other gone]
      refine serves.routed.trans ⟨fun among => ?_, fun among => ?_⟩
      · obtain ⟨subs', kept, rfl⟩ := List.mem_map.mp among
        exact List.mem_map_of_mem (List.mem_filter.mpr ⟨kept, decide_eq_true gone⟩)
      · obtain ⟨subs', kept, rfl⟩ := List.mem_map.mp among
        exact List.mem_map_of_mem (List.mem_filter.mp kept).1
  · rw [eraseSubscription_vars, withVars_vars]
    exact serves.informed.unsubscribed executed sound

theorem Serves.unsubscribe_dead (serves : Serves requests c book) (dead : id ∉ book.live.map SubscriptionMeta.subsId) :
    FlightVars.unsubscribe id c = .error (.noSuchSubscription id) c := Core.unsubscribe_unknown (serves.unknown dead)

theorem Serves.updates (reliable : UserAdapter.Reliable α) (faithful : UserAdapter.Faithful requests memory)
    (serves : Serves requests c book) (id : SubscriptionId) (value : VariableValue) :
    Serves requests (after (FlightVars.update id value c)) book := by
  by_cases alive : id ∈ book.live.map SubscriptionMeta.subsId
  · obtain ⟨subs, member, rfl⟩ := List.mem_map.mp alive
    obtain ⟨s, executed, sound⟩ := FsuipcFlightVars.update_returns reliable serves.informed.sound
      (Informed.pair member) value
    rw [update_ok (serves.routed.mpr alive) executed]
    exact serves.with rfl (serves.informed.updated faithful executed sound)
  · rw [Core.update_unknown (serves.unknown alive)]
    exact serves

/-- The ids that a session ends are live, each once. -/
theorem Serves.unsubscribesAll {ids : List SubscriptionId} (serves : Serves requests c book) (unique : ids.Nodup)
    (alive : ∀ id ∈ ids, id ∈ book.live.map SubscriptionMeta.subsId) :
    ∃ c', ids.forM (m := EStateM Exception (Stack α)) FlightVars.unsubscribe c = .ok () c' ∧
      (∀ memory, reading memory c' = reading memory c) ∧ Serves requests c' { book with live := book.live.filter fun subs => ¬ subs.subsId ∈ ids } := by
  induction ids generalizing c book with
  | nil => exact ⟨c, rfl, fun _ => rfl, by simpa using serves⟩
  | cons id ids ih =>
    obtain ⟨other, unique⟩ := List.nodup_cons.mp unique
    obtain ⟨first, rest⟩ := List.forall_mem_cons.mp alive
    obtain ⟨next, executed, same, serves'⟩ := serves.unsubscribes first
    have still : ∀ i ∈ ids, i ∈ (book.live.filter fun subs => subs.subsId ≠ id).map SubscriptionMeta.subsId := by
      intro i member
      obtain ⟨subs, live, rfl⟩ := List.mem_map.mp (rest i member)
      refine List.mem_map_of_mem (List.mem_filter.mpr ⟨live, decide_eq_true ?_⟩)
      exact fun same => other (same ▸ member)
    obtain ⟨c', done, same', serves''⟩ := ih serves' unique still
    refine ⟨c', (ok_bind executed).trans done, fun memory => (same' memory).trans (same memory), ?_⟩
    rw [List.filter_filter] at serves''
    simpa [not_or, Bool.and_comm] using serves''

/-- A tick returns, and tells every subscription what the memory holds. -/
theorem Serves.ticks (reliable : UserAdapter.Reliable α) (faithful : UserAdapter.Faithful requests memory)
    (serves : Serves requests c book) : ∃ c', tick c = .ok () c' ∧
      UpToDate memory c.vars book c'.vars ∧ reading memory c' = reading memory c ∧
      Serves requests c' (book.tell (deliveries c.vars)) := by
  obtain ⟨s, executed, told, informed⟩ := serves.informed.told_all reliable faithful
  obtain ⟨s', executed', -, -, polled, -⟩ := serves.informed.polled reliable faithful
  cases executed.symm.trans executed'
  refine ⟨c.withVars s, tick_ok executed, ?_, ?_, serves.with rfl informed⟩
  · rw [withVars_vars]
    exact told
  · rw [reading, withVars_vars]
    exact polled.unchanged

end Stack
end Oac.Deployment
