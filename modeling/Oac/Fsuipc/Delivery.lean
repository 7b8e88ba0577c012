import Oac.Fsuipc.FlightVars
import Oac.Fsuipc.Observing

/-!
# What subscribers are told

A poll calls the handlers of the subscriptions for the offsets that the observer tells.
Beside the flight vars a book is kept of the live subscriptions and of the values that each
has been told since it was made (`subscribers_told`).
-/
namespace Oac.Fsuipc
open Base

namespace UpdateObserver
variable {α ρ ρ' : Type} {f : ρ → ρ'} {updateEval : ValuedOffset → EStateM Exception ρ Unit}
  {updateEval' : ValuedOffset → EStateM Exception ρ' Unit}

theorem check_follows (follows : ∀ val, Follows f (updateEval val) (updateEval' val)) (val : ValuedOffset) :
    Follows (fun s : UpdateObserver α × ρ => (s.1, f s.2)) (check updateEval val) (check updateEval' val) := by
  rintro ⟨o, r⟩
  show check updateEval' val (o, f r) = _
  rw [check_eq, check_eq, follows val r]
  by_cases tells : o.Tells val
  · rw [if_pos tells, if_pos tells]
    cases updateEval val r <;> rfl
  · rw [if_neg tells, if_neg tells]
    rfl

theorem checkAll_follows (follows : ∀ val, Follows f (updateEval val) (updateEval' val)) (vals : List ValuedOffset) :
    Follows (fun s : UpdateObserver α × ρ => (s.1, f s.2)) (checkAll updateEval vals) (checkAll updateEval' vals) := by
  induction vals with
  | nil => exact fun _ => rfl
  | cons val vals ih => exact follows_bind (check_follows follows val) fun _ => ih

theorem checkForUpdates_follows [UserAdapter α] (follows : ∀ val, Follows f (updateEval val) (updateEval' val)) :
    Follows (fun s : UpdateObserver α × ρ => (s.1, f s.2)) (checkForUpdates updateEval) (checkForUpdates updateEval') := by
  rintro ⟨o, r⟩
  unfold checkForUpdates
  simp only
  cases onClient (FsuipcClient.query o.offsets) o with
  | error e o₁ => rfl
  | ok vals o₁ =>
    simp only
    have image := checkAll_follows (α := α) follows vals (o₁, r)
    simp only at image
    rw [image]
    cases checkAll updateEval vals (o₁, r) <;> rfl

end UpdateObserver

namespace FsuipcFlightVars
variable {α : Type}

/-- `on_offset_update`, which notes down the subscriptions instead of calling their handlers. -/
def deliver (valuedOffset : ValuedOffset) :
    EStateM Exception (FsuipcOffsetDb × List (SubscriptionMeta × VariableValue)) Unit := fun s =>
  match s.1.getSubscriptionsForOffset valuedOffset.toOffset with
  | .ok subscriptions => .ok () (s.1, s.2 ++ subscriptions.map fun subs => (subs, toVariableValue valuedOffset))
  | .error e => .error e s

/-- The call of a handler that a delivery is. -/
def invocation (delivery : SubscriptionMeta × VariableValue) : Nat × VariableId × VariableValue :=
  (delivery.1.handler, delivery.1.varId, delivery.2)

/-- What the next poll delivers. -/
def deliveries [UserAdapter α] (s : FsuipcFlightVars α) : List (SubscriptionMeta × VariableValue) :=
  (after (UpdateObserver.checkForUpdates deliver (s.updateObserver, (s.db, [])))).2.2

theorem deliver_follows (invoked : List (Nat × VariableId × VariableValue)) (valuedOffset : ValuedOffset) :
    Follows (fun s : FsuipcOffsetDb × List (SubscriptionMeta × VariableValue) => (s.1, invoked ++ s.2.map invocation))
      (deliver valuedOffset) (onOffsetUpdate valuedOffset) := by
  rintro ⟨db, delivered⟩
  unfold deliver onOffsetUpdate
  simp only
  cases db.getSubscriptionsForOffset valuedOffset.toOffset with
  | error e => rfl
  | ok subscriptions =>
    simp only [along, List.map_append, List.map_map, List.append_assoc]
    rfl

section
variable [UserAdapter α]

theorem checkForUpdates_eq (s : FsuipcFlightVars α) : UpdateObserver.checkForUpdates onOffsetUpdate
    (s.updateObserver, (s.db, s.invoked)) = along (fun t => (t.1, (t.2.1, s.invoked ++ t.2.2.map invocation)))
      (UpdateObserver.checkForUpdates deliver (s.updateObserver, (s.db, []))) := by
  have image := UpdateObserver.checkForUpdates_follows (deliver_follows s.invoked) (s.updateObserver, (s.db, []))
  simpa using image

/-- The handlers that a poll calls are those of its deliveries. -/
theorem checkForUpdates_invoked (s : FsuipcFlightVars α) :
    (after (checkForUpdates s)).invoked = s.invoked ++ (deliveries s).map invocation := by
  unfold checkForUpdates deliveries
  rw [checkForUpdates_eq]
  cases UpdateObserver.checkForUpdates deliver (s.updateObserver, (s.db, [])) <;> rfl

end

theorem forM_deliver {vals : List ValuedOffset} {db db' : FsuipcOffsetDb}
    {before after : List (SubscriptionMeta × VariableValue)} {u : Unit}
    (executed : vals.forM deliver (db, before) = .ok u (db', after)) : db' = db ∧
      after = before ++ vals.flatMap fun val => (db.handlers val.toOffset).map fun subs => (subs, toVariableValue val) := by
  induction vals generalizing before with
  | nil =>
    cases executed
    exact ⟨rfl, (List.append_nil _).symm⟩
  | cons val vals ih =>
    obtain ⟨v, ⟨db₁, before'⟩, first, continued⟩ := bind_ok (f := fun _ => vals.forM deliver) executed
    unfold deliver FsuipcOffsetDb.getSubscriptionsForOffset at first
    cases found : db.offsetHandlers.lookup val.toOffset with
    | none => simp [found] at first
    | some subscriptions =>
      simp only [found, EStateM.Result.ok.injEq, Prod.mk.injEq, true_and] at first
      obtain ⟨rfl, rfl⟩ := first
      obtain ⟨rfl, all⟩ := ih continued
      refine ⟨rfl, ?_⟩
      rw [all, List.flatMap_cons, List.append_assoc, FsuipcOffsetDb.handlers, found]
      rfl

/-! ## Calls that return -/

theorem catching_ok {σ β : Type} {caught : Exception → Bool} {instead : Exception} {x : EStateM Exception σ β} {s s' : σ}
    {b : β} (executed : catching caught instead x s = .ok b s') : x s = .ok b s' := by
  unfold catching at executed
  split at executed
  · rename_i result
    exact result.trans executed
  · cases executed

theorem onObserver_inv {β : Type} {x : EStateM Exception (UpdateObserver α) β} {s s' : FsuipcFlightVars α} {b : β}
    (executed : onObserver x s = .ok b s') : ∃ o, x s.updateObserver = .ok b o ∧ s' = { s with updateObserver := o } := by
  unfold onObserver at executed
  split at executed
  · cases executed
    exact ⟨_, ‹_›, rfl⟩
  · cases executed

theorem getOffsetForSubscription_inv {id : SubscriptionId} {s s' : FsuipcFlightVars α} {offset : Offset}
    (executed : getOffsetForSubscription id s = .ok offset s') :
    s.db.getOffsetForSubscription id = .ok offset ∧ s' = s := by
  unfold getOffsetForSubscription at executed
  split at executed
  · cases executed
    exact ⟨‹_›, rfl⟩
  · cases executed

section
variable [UserAdapter α] {s s' : FsuipcFlightVars α} {live : List (SubscriptionId × VariableId)} {var : VariableId}
  {handler : Nat} {id : SubscriptionId}

theorem subscribe_inv (sound : Sound (s, live)) (fresh : s.db.nextId ∉ live.map Prod.fst)
    (executed : subscribe var handler s = .ok id s') : ∃ offset o, toFsuipcOffset var = .ok offset ∧
      id = s.db.nextId ∧ UpdateObserver.startObservingAll [offset] s.updateObserver = .ok () o ∧
      s' = { s with
        db := ((s.db.insertKnownOffset offset).insertSubscription offset var handler).2
        updateObserver := o } := by
  obtain ⟨subs, s₁, created, continued⟩ := bind_ok (catching_ok executed)
  unfold createSubscription FsuipcOffsetDb.createSubscription at created
  cases converted : toFsuipcOffset var with
  | error e => simp [converted] at created
  | ok offset =>
    simp only [converted, EStateM.Result.ok.injEq] at created
    obtain ⟨rfl, rfl⟩ := created
    obtain ⟨offset', s₂, got, continued⟩ := bind_ok continued
    obtain ⟨found, rfl⟩ := getOffsetForSubscription_inv got
    have consistent := sound.consistent.create fresh converted handler
    have numbered : ((s.db.insertKnownOffset offset).insertSubscription offset var handler).1.subsId = s.db.nextId := by
      simp [FsuipcOffsetDb.insertSubscription]
    rw [numbered] at found
    cases (consistent.getOffset_live List.mem_cons_self converted).symm.trans found
    obtain ⟨u, s₃, started, last⟩ := bind_ok continued
    obtain ⟨o, observed, rfl⟩ := onObserver_inv started
    cases last
    exact ⟨offset, o, rfl, numbered, observed, rfl⟩

omit [UserAdapter α] in
theorem unsubscribe_inv {u : Unit} (executed : unsubscribe id s = .ok u s') :
    ∃ offset, s' = stopUnlessKnown offset { s with db := s.db.removeSubscription id } := by
  obtain ⟨offset, s₁, got, last⟩ := bind_ok (catching_ok executed)
  obtain ⟨-, rfl⟩ := getOffsetForSubscription_inv got
  cases last
  exact ⟨offset, rfl⟩

theorem update_inv {value : VariableValue} {u : Unit} (executed : update id value s = .ok u s') :
    ∃ offset c, s.db.getOffsetForSubscription id = .ok offset ∧
      FsuipcClient.update [⟨offset, toFsuipcOffsetValue value⟩] s.updateObserver.client = .ok () c ∧
      s' = { s with updateObserver := { s.updateObserver with client := c } } := by
  obtain ⟨offset, s₁, got, last⟩ := bind_ok (catching_ok executed)
  obtain ⟨found, rfl⟩ := getOffsetForSubscription_inv got
  obtain ⟨o, updated, rfl⟩ := onObserver_inv last
  obtain ⟨c, written, rfl⟩ := UpdateObserver.onClient_inv updated
  exact ⟨offset, c, found, written, rfl⟩

end

/-! ## The book -/

/-- The live subscriptions, and what each has been told since it was made. -/
structure Book where
  live : List SubscriptionMeta
  told : SubscriptionId → List VariableValue

namespace Book

def empty : Book := ⟨[], fun _ => []⟩

def pairs (book : Book) : List (SubscriptionId × VariableId) := book.live.map fun subs => (subs.subsId, subs.varId)

/-- The values that are delivered to a subscription. -/
def valuesFor (id : SubscriptionId) (delivered : List (SubscriptionMeta × VariableValue)) : List VariableValue :=
  (delivered.filter fun delivery => delivery.1.subsId = id).map Prod.snd

def tell (delivered : List (SubscriptionMeta × VariableValue)) (book : Book) : Book :=
  { book with told := fun id => book.told id ++ valuesFor id delivered }

/-- The book after a call that returned. -/
def returned [UserAdapter α] (s : FsuipcFlightVars α) (book : Book) : Call → Option SubscriptionId → Book
  | .subscribe var handler, some id => ⟨⟨var, handler, id⟩ :: book.live, Function.update book.told id []⟩
  | .unsubscribe id, _ => { book with live := book.live.filter fun subs => subs.subsId ≠ id }
  | .checkForUpdates, _ => book.tell (deliveries s)
  | _, _ => book

/-- The book after a call that threw. -/
def refused [UserAdapter α] (s : FsuipcFlightVars α) (book : Book) : Call → Book
  | .checkForUpdates => book.tell (deliveries s)
  | _ => book

theorem pairs_fst (book : Book) : book.pairs.map Prod.fst = book.live.map SubscriptionMeta.subsId := by
  rw [pairs, List.map_map]
  rfl

end Book

/-- A step of the flight vars, with the book. -/
def BookedStep [UserAdapter α] (before : FsuipcFlightVars α × Book) : Event α → FsuipcFlightVars α × Book → Prop
  | .call call, now => (∃ a, perform call before.1 = .ok a now.1 ∧ now.2 = before.2.returned before.1 call a) ∨
      ∃ e, perform call before.1 = .error e now.1 ∧ now.2 = before.2.refused before.1 call
  | .outside userAdapter nextId, now => now = ({ before.1 with
      db := { before.1.db with nextId := nextId }
      updateObserver := { before.1.updateObserver with
        client := { before.1.updateObserver.client with userAdapter := userAdapter } } }, before.2)

/-- From the outside only the memory of the simulator changes. -/
def Apart (requests : α → List (Offset × Pointer)) (before : FsuipcFlightVars α × Book) : Event α → Prop
  | .outside userAdapter _ => requests userAdapter = requests before.1.updateObserver.client.userAdapter
  | .call _ => True

/-- Moreover, the next subscription gets an id that no live one has. -/
def ApartAndFresh (requests : α → List (Offset × Pointer)) (before : FsuipcFlightVars α × Book) (event : Event α) : Prop :=
  Apart requests before event ∧ Fresh (before.1, before.2.pairs) event

/-- A poll has told every live subscription what the memory holds, and has called the
    handlers of live subscriptions only, each with its own variable. -/
structure UpToDate [UserAdapter α] (memory : α → Offset → UInt32) (s : FsuipcFlightVars α) (book : Book)
    (s' : FsuipcFlightVars α) : Prop where
  own : ∀ delivery ∈ deliveries s, delivery.1 ∈ book.live
  invoked : s'.invoked = s.invoked ++ (deliveries s).map invocation
  told : ∀ subs ∈ book.live, ∃ offset, toFsuipcOffset subs.varId = .ok offset ∧
    ((book.tell (deliveries s)).told subs.subsId).getLast? =
      some (toVariableValue (offset.valued (UpdateObserver.current memory s.updateObserver)))

/-! ## What is kept -/

/-- The last value that was told is the one that the observer has read last. -/
def Heard (o : UpdateObserver α) (offset : Offset) (told : List VariableValue) : Prop :=
  ∃ value, o.values offset = some value ∧ told.getLast? = some (toVariableValue ⟨offset, value⟩)

/-- The stores are sound, their lists hold live subscriptions, and whoever has not heard
    the last value that was read is to be told at the next poll. -/
structure Informed (requests : α → List (Offset × Pointer)) (s : FsuipcFlightVars α × Book) : Prop where
  sound : Sound (s.1, s.2.pairs)
  idle : requests s.1.updateObserver.client.userAdapter = []
  distinct : s.1.updateObserver.offsets.Nodup
  listed : ∀ {o subs}, subs ∈ s.1.db.handlers o → subs ∈ s.2.live
  told : ∀ {subs}, subs ∈ s.2.live → ∀ {offset}, toFsuipcOffset subs.varId = .ok offset →
    offset ∈ s.1.updateObserver.pendingWelcomes ∨ Heard s.1.updateObserver offset (s.2.told subs.subsId)

section
variable {requests : α → List (Offset × Pointer)} {memory : α → Offset → UInt32} {s s' : FsuipcFlightVars α} {book : Book}
  {subs : SubscriptionMeta} {offset o : Offset}

theorem create_informed {userAdapter : α} (idle : requests userAdapter = []) :
    Informed requests (create userAdapter, Book.empty) where
  sound := create_sound userAdapter
  idle := idle
  distinct := List.nodup_nil
  listed := by simp [create, FsuipcOffsetDb.empty, FsuipcOffsetDb.handlers]
  told := nofun

theorem Informed.pair (member : subs ∈ book.live) : (subs.subsId, subs.varId) ∈ book.pairs :=
  List.mem_map_of_mem (f := fun subs : SubscriptionMeta => (subs.subsId, subs.varId)) member

theorem Informed.ids_unique (informed : Informed requests (s, book)) {subs' : SubscriptionMeta}
    (member : subs ∈ book.live) (member' : subs' ∈ book.live) (same : subs.subsId = subs'.subsId) : subs = subs' := by
  have unique := informed.sound.consistent.unique
  rw [Book.pairs_fst] at unique
  exact List.inj_on_of_nodup_map unique member member' same

/-- A live subscription is in the list of its offset. -/
theorem Informed.listed_of_live (informed : Informed requests (s, book)) (member : subs ∈ book.live)
    (converted : toFsuipcOffset subs.varId = .ok offset) : subs ∈ s.db.handlers offset := by
  have counted := informed.sound.consistent.count (Informed.pair member) converted offset
  rw [if_pos rfl] at counted
  obtain ⟨subs', among, same⟩ := List.countP_pos_iff.mp (counted ▸ Nat.one_pos)
  have here := informed.ids_unique member (informed.listed among) (of_decide_eq_true same).symm
  rw [here]
  exact among

/-- What is in the list of an offset is for the offset. -/
theorem Informed.converted (informed : Informed requests (s, book)) (among : subs ∈ s.db.handlers o) :
    toFsuipcOffset subs.varId = .ok o := by
  have member := Informed.pair (informed.listed among)
  obtain ⟨offset, converted⟩ := informed.sound.consistent.placed member
  have counted := informed.sound.consistent.count member converted o
  by_cases here : o = offset
  · rw [here]
    exact converted
  · rw [if_neg here, List.countP_eq_zero] at counted
    exact absurd (decide_eq_true rfl) (counted subs among)

variable [UserAdapter α]

/-- What a poll delivers, to the subscriptions for the offsets that the observer tells. -/
theorem Informed.polled (reliable : UserAdapter.Reliable α) (faithful : UserAdapter.Faithful requests memory)
    (informed : Informed requests (s, book)) : ∃ s', checkForUpdates s = .ok () s' ∧ s'.db = s.db ∧
      Sound (s', book.pairs) ∧ UpdateObserver.Polled requests memory s.updateObserver s'.updateObserver ∧
      deliveries s = (UpdateObserver.telling memory s.updateObserver).flatMap fun val =>
        (s.db.handlers val.toOffset).map fun subs => (subs, toVariableValue val) := by
  obtain ⟨s', executed, sound⟩ := checkForUpdates_returns reliable informed.sound
  have image := checkForUpdates_eq s
  cases result : UpdateObserver.checkForUpdates deliver (s.updateObserver, (s.db, [])) with
  | error e t => simp [checkForUpdates, image, result, along] at executed
  | ok u t =>
    obtain ⟨o, db, delivered⟩ := t
    obtain ⟨evaluated, polled⟩ := UpdateObserver.checkForUpdates_ok faithful informed.idle informed.distinct result
    obtain ⟨rfl, all⟩ := forM_deliver evaluated
    rw [List.nil_append] at all
    simp only [checkForUpdates, image, result, along, EStateM.Result.ok.injEq, true_and] at executed
    subst executed
    refine ⟨⟨s.db, o, s.invoked ++ delivered.map invocation⟩, ?_, rfl, sound, polled, ?_⟩
    · simp only [checkForUpdates, image, result, along]
    · simp only [deliveries, result, after_ok]
      exact all

theorem mem_valuesFor {id : SubscriptionId} {delivered : List (SubscriptionMeta × VariableValue)} {value : VariableValue} :
    value ∈ Book.valuesFor id delivered ↔ ∃ subs, (subs, value) ∈ delivered ∧ subs.subsId = id := by
  simp [Book.valuesFor]

theorem getLast?_of_all {β : Type} {b : β} {list more : List β} (some : b ∈ more) (all : ∀ b' ∈ more, b' = b) :
    (list ++ more).getLast? = .some b := by
  have nonempty : more ≠ [] := List.ne_nil_of_mem some
  have last : more.getLast? = .some (more.getLast nonempty) := List.getLast?_eq_some_getLast nonempty
  rw [List.getLast?_append, last, all _ (List.getLast_mem nonempty)]
  rfl

omit [UserAdapter α] in
theorem Informed.watched (informed : Informed requests (s, book)) (member : subs ∈ book.live)
    (converted : toFsuipcOffset subs.varId = .ok offset) : offset ∈ s.updateObserver.offsets := by
  have among := informed.listed_of_live member converted
  rw [informed.sound.observed, informed.sound.consistent.known]
  by_contra missing
  rw [FsuipcOffsetDb.handlers, AList.lookup_eq_none.mpr missing] at among
  exact absurd among List.not_mem_nil

/-- A subscription is delivered the value of its offset, if the observer tells the offset. -/
theorem Informed.delivered_iff (informed : Informed requests (s, book))
    (delivered : deliveries s = (UpdateObserver.telling memory s.updateObserver).flatMap fun val =>
      (s.db.handlers val.toOffset).map fun subs => (subs, toVariableValue val))
    (member : subs ∈ book.live) (converted : toFsuipcOffset subs.varId = .ok offset) (value : VariableValue) :
    value ∈ Book.valuesFor subs.subsId (deliveries s) ↔
      value = toVariableValue (offset.valued (UpdateObserver.current memory s.updateObserver)) ∧
        s.updateObserver.Tells (offset.valued (UpdateObserver.current memory s.updateObserver)) := by
  rw [mem_valuesFor, delivered]
  constructor
  · rintro ⟨subs', among, same⟩
    obtain ⟨val, telling, listed⟩ := List.mem_flatMap.mp among
    obtain ⟨subs'', handled, pair⟩ := List.mem_map.mp listed
    cases pair
    have here := informed.ids_unique member (informed.listed handled) same.symm
    subst here
    cases converted.symm.trans (informed.converted handled)
    obtain ⟨-, current, tells⟩ := UpdateObserver.mem_telling.mp telling
    have whole : val = val.toOffset.valued (UpdateObserver.current memory s.updateObserver) := by
      rw [Offset.valued, ← current]
    rw [← whole]
    exact ⟨rfl, tells⟩
  · rintro ⟨rfl, tells⟩
    refine ⟨subs, List.mem_flatMap.mpr ⟨_, ?_, List.mem_map_of_mem (informed.listed_of_live member converted)⟩, rfl⟩
    exact UpdateObserver.mem_telling.mpr ⟨informed.watched member converted, rfl, tells⟩

/-- After a poll every live subscription has heard the memory. -/
theorem Informed.heard (informed : Informed requests (s, book))
    (delivered : deliveries s = (UpdateObserver.telling memory s.updateObserver).flatMap fun val =>
      (s.db.handlers val.toOffset).map fun subs => (subs, toVariableValue val))
    (member : subs ∈ book.live) (converted : toFsuipcOffset subs.varId = .ok offset) :
    ((book.tell (deliveries s)).told subs.subsId).getLast? =
      some (toVariableValue (offset.valued (UpdateObserver.current memory s.updateObserver))) := by
  have values := informed.delivered_iff delivered member converted
  show (book.told subs.subsId ++ Book.valuesFor subs.subsId (deliveries s)).getLast? = _
  by_cases tells : s.updateObserver.Tells (offset.valued (UpdateObserver.current memory s.updateObserver))
  · exact getLast?_of_all ((values _).mpr ⟨rfl, tells⟩) fun value among => ((values value).mp among).1
  · -- it has heard what the observer has cached, which is still there
    have none : Book.valuesFor subs.subsId (deliveries s) = [] :=
      List.eq_nil_iff_forall_not_mem.mpr fun value among => tells ((values value).mp among).2
    have quiet := not_or.mp tells
    obtain ⟨value, cached, last⟩ := (informed.told member converted).resolve_left quiet.1
    have same : value = UpdateObserver.current memory s.updateObserver offset :=
      Option.some.inj (cached.symm.trans (not_not.mp quiet.2))
    rw [none, List.append_nil, last, same]
    rfl

/-! ## Steps -/

/-- A new subscription is to be told at the next poll, and so is who shares its offset. -/
theorem Informed.subscribed (faithful : UserAdapter.Faithful requests memory) (informed : Informed requests (s, book))
    {var : VariableId} {handler : Nat} {id : SubscriptionId} (fresh : s.db.nextId ∉ book.pairs.map Prod.fst)
    (executed : subscribe var handler s = .ok id s') (sound : Sound (s', (id, var) :: book.pairs)) :
    Informed requests (s', ⟨⟨var, handler, id⟩ :: book.live, Function.update book.told id []⟩) := by
  obtain ⟨offset, o, converted, rfl, started, rfl⟩ := subscribe_inv informed.sound fresh executed
  have start := UpdateObserver.startObservingAll_ok faithful informed.idle started
  refine ⟨sound, start.idle, start.distinct informed.distinct, ?_, ?_⟩
  · intro o' subs among
    rw [FsuipcOffsetDb.insertSubscription_handlers] at among
    by_cases here : o' = offset
    · rw [if_pos here] at among
      rcases List.mem_append.mp among with old | new
      · exact List.mem_cons_of_mem _ (informed.listed old)
      · rw [List.mem_singleton.mp new]
        exact List.mem_cons_self
    · rw [if_neg here] at among
      exact List.mem_cons_of_mem _ (informed.listed among)
  · intro subs member offset' converted'
    by_cases here : offset' = offset
    · exact .inl ((start.welcomed offset').mpr (.inr (List.mem_singleton.mpr here)))
    · rcases List.mem_cons.mp member with rfl | old
      · exact absurd (Except.ok.inj (converted'.symm.trans converted)) here
      · have other : subs.subsId ≠ s.db.nextId := by
          intro same
          apply fresh
          rw [Book.pairs_fst, ← same]
          exact List.mem_map_of_mem old
        rcases informed.told old converted' with pending | ⟨value, cached, last⟩
        · exact .inl ((start.welcomed offset').mpr (.inl pending))
        · refine .inr ⟨value, (start.others offset' (by simpa using here)).trans cached, ?_⟩
          show (Function.update book.told s.db.nextId [] subs.subsId).getLast? = _
          rw [Function.update_of_ne other, last]

omit [UserAdapter α] in
theorem Informed.unsubscribed (informed : Informed requests (s, book)) {id : SubscriptionId} {u : Unit}
    (executed : unsubscribe id s = .ok u s') (sound : Sound (s', book.pairs.filter fun pair => pair.1 ≠ id)) :
    Informed requests (s', { book with live := book.live.filter fun subs => subs.subsId ≠ id }) := by
  obtain ⟨offset, rfl⟩ := unsubscribe_inv executed
  have removed : (stopUnlessKnown offset { s with db := s.db.removeSubscription id }).db = s.db.removeSubscription id := by
    unfold stopUnlessKnown
    split <;> rfl
  have observer : (stopUnlessKnown offset { s with db := s.db.removeSubscription id }).updateObserver = s.updateObserver ∨
      (stopUnlessKnown offset { s with db := s.db.removeSubscription id }).updateObserver =
        s.updateObserver.stopObserving offset := by
    unfold stopUnlessKnown
    split
    · exact .inl rfl
    · exact .inr rfl
  have paired : (Book.mk (book.live.filter fun subs => subs.subsId ≠ id) book.told).pairs =
      book.pairs.filter fun pair => pair.1 ≠ id := by
    rw [Book.pairs, Book.pairs, List.filter_map]
    rfl
  refine ⟨paired ▸ sound, ?_, ?_, ?_, ?_⟩
  · rcases observer with same | same <;> rw [same] <;> exact informed.idle
  · rcases observer with same | same <;> rw [same]
    · exact informed.distinct
    · exact informed.distinct.filter _
  · intro o subs among
    rw [removed, FsuipcOffsetDb.removeSubscription_handlers] at among
    obtain ⟨among, other⟩ := List.mem_filter.mp among
    exact List.mem_filter.mpr ⟨informed.listed among, other⟩
  · intro subs member offset' converted
    have told := informed.told (List.mem_filter.mp member).1 converted
    rcases observer with same | same <;> rw [same] <;> exact told

theorem Informed.updated (faithful : UserAdapter.Faithful requests memory) (informed : Informed requests (s, book))
    {id : SubscriptionId} {value : VariableValue} {u : Unit} (executed : update id value s = .ok u s')
    (sound : Sound (s', book.pairs)) : Informed requests (s', book) := by
  obtain ⟨offset, c, -, written, rfl⟩ := update_inv executed
  exact ⟨sound, FsuipcClient.update_requests faithful informed.idle written, informed.distinct, informed.listed,
    informed.told⟩

theorem Informed.told_all (reliable : UserAdapter.Reliable α) (faithful : UserAdapter.Faithful requests memory)
    (informed : Informed requests (s, book)) : ∃ s', checkForUpdates s = .ok () s' ∧ UpToDate memory s book s' ∧
      Informed requests (s', book.tell (deliveries s)) := by
  obtain ⟨s', executed, same, sound, polled, delivered⟩ := informed.polled reliable faithful
  have heard {subs : SubscriptionMeta} (member : subs ∈ book.live) {offset : Offset}
      (converted : toFsuipcOffset subs.varId = .ok offset) := informed.heard delivered member converted
  refine ⟨s', executed, ⟨?_, ?_, ?_⟩, sound, polled.idle, polled.kept ▸ informed.distinct, ?_, ?_⟩
  · intro delivery among
    rw [delivered] at among
    obtain ⟨val, -, listed⟩ := List.mem_flatMap.mp among
    obtain ⟨subs, handled, pair⟩ := List.mem_map.mp listed
    rw [← pair]
    exact informed.listed handled
  · have invoked := checkForUpdates_invoked s
    rw [executed] at invoked
    exact invoked
  · intro subs member
    obtain ⟨offset, converted⟩ := informed.sound.consistent.placed (Informed.pair member)
    exact ⟨offset, converted, heard member converted⟩
  · intro o subs among
    rw [same] at among
    exact informed.listed among
  · intro subs member offset converted
    refine .inr ⟨_, polled.observed offset (informed.watched member converted), heard member converted⟩

theorem Informed.performed (reliable : UserAdapter.Reliable α) (faithful : UserAdapter.Faithful requests memory)
    (informed : Informed requests (s, book)) {call : Call} (fresh : Fresh (s, book.pairs) (.call call))
    {a : Option SubscriptionId} (executed : perform call s = .ok a s') (sound : Sound (s', record book.pairs call a)) :
    Informed requests (s', book.returned s call a) := by
  cases call with
  | subscribe var handler =>
    obtain ⟨id, s₁, subscribed, last⟩ := bind_ok executed
    cases last
    exact informed.subscribed faithful fresh subscribed sound
  | unsubscribe id =>
    obtain ⟨u, s₁, unsubscribed, last⟩ := bind_ok executed
    cases last
    exact informed.unsubscribed unsubscribed sound
  | update id value =>
    obtain ⟨u, s₁, updated, last⟩ := bind_ok executed
    cases last
    exact informed.updated faithful updated sound
  | checkForUpdates =>
    obtain ⟨u, s₁, polled, last⟩ := bind_ok executed
    cases last
    obtain ⟨s₂, returned, -, informed'⟩ := informed.told_all reliable faithful
    cases returned.symm.trans polled
    exact informed'

theorem Informed.step (reliable : UserAdapter.Reliable α) (faithful : UserAdapter.Faithful requests memory)
    {before now : FsuipcFlightVars α × Book} {event : Event α} (informed : Informed requests before)
    (step : BookedStep before event now) (fresh : ApartAndFresh requests before event) : Informed requests now := by
  obtain ⟨s, book⟩ := before
  obtain ⟨s', book'⟩ := now
  cases event with
  | outside userAdapter nextId =>
    cases step
    have kept : requests userAdapter = requests s.updateObserver.client.userAdapter := fresh.1
    have changed : Step (s, book.pairs) (.outside userAdapter nextId) (_, _) := rfl
    exact ⟨informed.sound.step reliable changed trivial, kept.trans informed.idle, informed.distinct, informed.listed,
      informed.told⟩
  | call call =>
    rcases informed.sound.perform reliable call fresh.2 with ⟨a, s₁, executed, sound⟩ | ⟨e, raised⟩
    · rcases step with ⟨a', executed', recorded⟩ | ⟨e, raised, -⟩
      · cases executed.symm.trans executed'
        simp only at recorded
        rw [recorded]
        exact informed.performed reliable faithful fresh.2 executed sound
      · exact absurd (executed.symm.trans raised) nofun
    · rcases step with ⟨a', executed, -⟩ | ⟨e', raised', recorded⟩
      · exact absurd (raised.symm.trans executed) nofun
      · cases raised.symm.trans raised'
        simp only at recorded
        rw [recorded]
        cases call with
        | checkForUpdates =>
          obtain ⟨s₂, returned, -⟩ := informed.told_all reliable faithful
          have executed : perform .checkForUpdates s = .ok none s₂ := (ok_bind returned).trans rfl
          exact absurd (executed.symm.trans raised) nofun
        | _ => exact informed

/-- The handlers are not called. -/
def Silent (s s' : FsuipcFlightVars α) : Prop := s'.invoked = s.invoked

omit [UserAdapter α] in
theorem silent_bind {β γ : Type} {x : EStateM Exception (FsuipcFlightVars α) β}
    {f : β → EStateM Exception (FsuipcFlightVars α) γ} (first : Keeps Silent x) (second : ∀ b, Keeps Silent (f b)) :
    Keeps Silent (x >>= f) := keeps_bind (R := Silent) (fun before later => Eq.trans later before) first second

omit [UserAdapter α] in
theorem catching_silent {β : Type} {x : EStateM Exception (FsuipcFlightVars α) β} (silent : Keeps Silent x)
    (caught : Exception → Bool) (instead : Exception) : Keeps Silent (catching caught instead x) := by
  intro s
  have kept := silent s
  unfold catching
  split <;> simp_all

omit [UserAdapter α] in
theorem getOffsetForSubscription_silent (id : SubscriptionId) :
    Keeps Silent (getOffsetForSubscription id : EStateM Exception (FsuipcFlightVars α) Offset) := by
  intro s
  unfold getOffsetForSubscription
  split <;> rfl

omit [UserAdapter α] in
theorem onObserver_silent {β : Type} (x : EStateM Exception (UpdateObserver α) β) : Keeps Silent (onObserver x) := by
  intro s
  unfold onObserver
  split <;> rfl

/-- Only polls call handlers. -/
theorem perform_silent {call : Call} (quiet : call ≠ .checkForUpdates) :
    Keeps Silent (perform call : EStateM Exception (FsuipcFlightVars α) (Option SubscriptionId)) := by
  have pures {β : Type} (b : β) : Keeps Silent (pure b : EStateM Exception (FsuipcFlightVars α) β) := fun s => rfl
  cases call with
  | subscribe var handler =>
    refine silent_bind (catching_silent ?_ _ _) fun _ => pures _
    have creates : Keeps Silent (createSubscription var handler :
        EStateM Exception (FsuipcFlightVars α) SubscriptionMeta) := by
      intro s
      unfold createSubscription
      split <;> rfl
    exact silent_bind creates fun _ => silent_bind (getOffsetForSubscription_silent _) fun _ =>
      silent_bind (onObserver_silent _) fun _ => pures _
  | unsubscribe id =>
    refine silent_bind (catching_silent (silent_bind (getOffsetForSubscription_silent _) ?_) _ _) fun _ => pures _
    intro offset s
    show (stopUnlessKnown offset _).invoked = _
    unfold stopUnlessKnown
    split <;> rfl
  | update id value =>
    exact silent_bind (catching_silent (silent_bind (getOffsetForSubscription_silent _) fun _ => onObserver_silent _) _ _)
      fun _ => pures _
  | checkForUpdates => exact absurd rfl quiet

/-- In every run in which no subscription is given the id of a live one, every poll returns
    and tells all live subscriptions, and only these, what the memory holds; no other call
    calls a handler. -/
theorem subscribers_told (reliable : UserAdapter.Reliable α) (faithful : UserAdapter.Faithful requests memory)
    (userAdapter : α) (idle : requests userAdapter = []) (s : FsuipcFlightVars α) (book : Book)
    (run : Run (Meeting BookedStep (ApartAndFresh requests)) (create userAdapter, Book.empty) (s, book)) :
    (∃ s', checkForUpdates s = .ok () s' ∧ UpToDate memory s book s') ∧
      ∀ call, call ≠ .checkForUpdates → (after (perform call s)).invoked = s.invoked := by
  have informed : Informed requests (s, book) := run.invariant (create_informed idle) fun before last =>
    before.step reliable faithful last.1 last.2
  obtain ⟨s', executed, told, -⟩ := informed.told_all reliable faithful
  exact ⟨⟨s', executed, told⟩, fun call quiet => perform_silent quiet s⟩

end

/-! ## Over the dummy adapter -/

/-- A subscription to the transponder code is told it. -/
theorem subscribers_told_transponder : ∃ (s : FsuipcFlightVars DummyUserAdapter) (book : Book) (s' : _),
    ⟨transponder, 0, 1⟩ ∈ book.live ∧ checkForUpdates s = .ok () s' ∧ UpToDate DummyUserAdapter.memory s book s' := by
  have converted : toFsuipcOffset transponder = .ok ⟨0x354, .word⟩ := by decide
  obtain ⟨s, executed, -⟩ := subscribe_returns DummyUserAdapter.reliable (create_sound DummyUserAdapter.create)
    List.not_mem_nil 0 converted
  have step : BookedStep (create DummyUserAdapter.create, Book.empty) (.call (.subscribe transponder 0))
      (s, Book.empty.returned s (.subscribe transponder 0) (some 1)) := .inl ⟨some 1, (ok_bind executed).trans rfl, rfl⟩
  obtain ⟨⟨s', polled, told⟩, -⟩ := subscribers_told DummyUserAdapter.reliable DummyUserAdapter.faithful
    DummyUserAdapter.create rfl s _ ((Run.refl _).next ⟨step, trivial, List.not_mem_nil⟩)
  exact ⟨s, _, s', List.mem_cons_self, polled, told⟩

def altimeter : VariableId := variableId (text "fsuipc/offset") (text "0x0330:2")
def vhfNav : VariableId := variableId (text "fsuipc/offset") (text "0x0350:2")

/-- Two subscriptions are given the id 2, the numbering having come round to it. -/
def comeRound : List (Event DummyUserAdapter) :=
  [.call (.subscribe vhfNav 0), .call (.subscribe transponder 1), .outside DummyUserAdapter.create 2,
    .call (.subscribe altimeter 2), .call (.unsubscribe 2)]

/-- The state and the book after an event. -/
def happen (before : FsuipcFlightVars DummyUserAdapter × Book) :
    Event DummyUserAdapter → FsuipcFlightVars DummyUserAdapter × Book
  | .call call => match perform call before.1 with
    | .ok a s => (s, before.2.returned before.1 call a)
    | .error _ s => (s, before.2.refused before.1 call)
  | .outside userAdapter nextId => ({ before.1 with
      db := { before.1.db with nextId := nextId }
      updateObserver := { before.1.updateObserver with
        client := { before.1.updateObserver.client with userAdapter := userAdapter } } }, before.2)

theorem happen_step (before : FsuipcFlightVars DummyUserAdapter × Book) (event : Event DummyUserAdapter) :
    BookedStep before event (happen before event) := by
  cases event with
  | outside userAdapter nextId => rfl
  | call call =>
    unfold happen
    simp only
    split
    · exact .inl ⟨_, ‹_›, rfl⟩
    · exact .inr ⟨_, ‹_›, rfl⟩

theorem happened {s before : FsuipcFlightVars DummyUserAdapter × Book} (event : Event DummyUserAdapter)
    (run : Run (Meeting BookedStep (Apart DummyUserAdapter.readRequests)) s before)
    (apart : Apart DummyUserAdapter.readRequests before event) :
    Run (Meeting BookedStep (Apart DummyUserAdapter.readRequests)) s (happen before event) :=
  run.next ⟨happen_step before event, apart⟩

/-- The flight vars and the book thereafter. -/
def misled : FsuipcFlightVars DummyUserAdapter × Book := comeRound.foldl happen (create DummyUserAdapter.create, Book.empty)

theorem misled_live : ⟨vhfNav, 0, 1⟩ ∈ misled.2.live := by decide +kernel

/-- The next poll throws at the transponder code, and nothing else is told. -/
theorem misled_untold : (misled.2.tell (deliveries misled.1)).told 1 = [] := by decide +kernel

theorem misled_run : Run (Meeting BookedStep (Apart DummyUserAdapter.readRequests))
    (create DummyUserAdapter.create, Book.empty) misled := by
  have first := happened (.call (.subscribe vhfNav 0)) (Run.refl (create DummyUserAdapter.create, Book.empty)) True.intro
  have second := happened (.call (.subscribe transponder 1)) first True.intro
  have idle : Apart DummyUserAdapter.readRequests (happen (happen (create DummyUserAdapter.create, Book.empty)
      (.call (.subscribe vhfNav 0))) (.call (.subscribe transponder 1))) (.outside DummyUserAdapter.create 2) := by
    unfold Apart
    decide +kernel
  have third := happened (.outside DummyUserAdapter.create 2) second idle
  have fourth := happened (.call (.subscribe altimeter 2)) third True.intro
  have fifth := happened (.call (.unsubscribe 2)) fourth True.intro
  unfold misled comeRound
  simp only [List.foldl_cons, List.foldl_nil]
  exact fifth

/-- Once an id stands for two subscriptions, a poll may throw before it has told all. -/
theorem subscriber_untold : ¬ ∀ (s : FsuipcFlightVars DummyUserAdapter) (book : Book),
    Run (Meeting BookedStep (Apart DummyUserAdapter.readRequests)) (create DummyUserAdapter.create, Book.empty) (s, book) →
      ∃ s', checkForUpdates s = .ok () s' ∧ UpToDate DummyUserAdapter.memory s book s' := by
  intro told
  obtain ⟨last, named⟩ : ∃ last, last = misled := ⟨_, rfl⟩
  have run := misled_run
  have live := misled_live
  have none := misled_untold
  rw [← named] at run live none
  obtain ⟨s', -, upToDate⟩ := told last.1 last.2 run
  obtain ⟨offset, -, heard⟩ := upToDate.told _ live
  rw [none] at heard
  cases heard

end FsuipcFlightVars
end Oac.Fsuipc
