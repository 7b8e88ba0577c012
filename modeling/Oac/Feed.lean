import Oac.Base.Latest
import Oac.Client.Callers
import Oac.Joined

/-!
# Feeds

The two ends of a connection, fed by a delegate that polls its variables: it notifies each
subscription of the session at its first poll, and after that of every change. A
notification is posted to the IO service of the server, and becomes a message later. Whether
a handler ends up with the last value depends on when its subscription was made.
-/
namespace Oac
open Base Proto FlightVars
set_option linter.unusedSectionVars false

/-- The two ends of a connection, and the variables of the delegate. -/
structure Feed (δ : Type) where
  ends : Duplex δ
  /-- the values of the variables -/
  values : VariableId → VariableValue
  /-- what the delegate has notified last to the subscription of a variable -/
  seen : VariableId → Option VariableValue
  /-- the updates posted to the IO service of the server -/
  posted : List (VariableId × VariableValue)
  /-- what the delegate has notified in the session -/
  notified : List (VariableId × VariableValue)

namespace Feed
open Duplex
variable {δ : Type}

/-- What happens to a feed. -/
inductive Event where
  | called (call : Client.Call)
  /-- a request task, a request, a reply, or the end of a write -/
  | moved (e : Duplex.Event)
  | changed (varId : VariableId) (varValue : VariableValue)
  | polled (varId : VariableId)
  /-- `send_var_update` for the update that was posted first -/
  | sent

/-- The session has a subscription for the variable. -/
def Covers (f : Feed δ) (varId : VariableId) : Prop := f.ends.peer.session.subscriptions.Covers varId
instance (f : Feed δ) (varId : VariableId) : Decidable (f.Covers varId) :=
  inferInstanceAs (Decidable (f.ends.peer.session.subscriptions.Covers varId))

/-- A new subscription has not been notified of anything, and one that has ended does not count. -/
def observed (d : Duplex δ) (seen : VariableId → Option VariableValue) (varId : VariableId) : Option VariableValue :=
  if d.peer.session.subscriptions.Covers varId then seen varId else none

/-- A feed over a connection that has just been greeted. -/
def opened (delegate : δ) (values : VariableId → VariableValue) : Feed δ := ⟨.opened delegate, values, fun _ => none, [], []⟩

/-- The value of a variable that comes last: of what is posted for the variable, or else of
    what is on its way under the subscription. -/
def coming (posted : List (VariableId × VariableValue)) (varId : VariableId) (subsId : SubscriptionId) (msgs : List Message) :
    Option VariableValue := (latest varId posted).or (latest subsId (updates msgs))

/-- What a handler has been given last. -/
def given (m : Client.ConnectionManager) (handler : Nat) : Option VariableValue :=
  latest handler (m.invoked.map fun call => (call.1, call.2.2))

section
variable [FlightVars δ]

/-- The steps of a feed. The delegate may poll a variable at any time, and notifies its
    subscription if that is new or if the variable has changed. -/
inductive Step : Feed δ → Event → Feed δ → Prop
  | called {f : Feed δ} {call : Client.Call} {d : Duplex δ}
      (step : Duplex.Step f.ends (.submitted (call.submission f.ends.manager.submitted)) d) :
      Step f (.called call) { f with ends := d }
  | moved {f : Feed δ} {e : Duplex.Event} {d : Duplex δ} (inside : ∀ submission, e ≠ .submitted submission)
      (unasked : ∀ varId varValue, e ≠ .notified varId varValue) (step : Duplex.Step f.ends e d) :
      Step f (.moved e) { f with
        ends := d
        seen := observed d f.seen }
  | changed {f : Feed δ} {varId : VariableId} {varValue : VariableValue} :
      Step f (.changed varId varValue) { f with values := Function.update f.values varId varValue }
  | polled {f : Feed δ} {varId : VariableId} (covers : f.Covers varId) (due : f.seen varId ≠ some (f.values varId)) :
      Step f (.polled varId) { f with
        seen := Function.update f.seen varId (some (f.values varId))
        posted := f.posted ++ [(varId, f.values varId)]
        notified := f.notified ++ [(varId, f.values varId)] }
  | sent {f : Feed δ} {varId : VariableId} {varValue : VariableValue} {later : List (VariableId × VariableValue)}
      {d : Duplex δ} (next : f.posted = (varId, varValue) :: later)
      (step : Duplex.Step f.ends (.notified varId varValue) d) : Step f .sent { f with
        ends := d
        posted := later }

/-- No request, message or notification is pending. -/
structure Settled (f : Feed δ) : Prop where
  tasks : f.ends.manager.tasks = []
  requests : f.ends.manager.requestPool = .empty
  toServer : f.ends.toServer = []
  toClient : f.ends.toClient = []
  posted : f.posted = []
  polls : ∀ varId, f.Covers varId → f.seen varId = some (f.values varId)

/-- Each handler has been invoked, and the value it was given last is the one that the
    delegate notified last. -/
def UpToDate (f : Feed δ) : Prop := ∀ varId s, f.ends.manager.db.Holds varId s →
  ∃ varValue, given f.ends.manager s.handler = some varValue ∧ latest varId f.notified = some varValue

/-- The value that the subscription was notified of last, if any, has been given to the
    handler or is still to come. -/
def Fed (f : Feed δ) (varId : VariableId) (subsId : SubscriptionId) (handler : Nat) : Prop :=
  ∀ varValue, f.seen varId = some varValue →
    (coming f.posted varId subsId f.ends.toClient).or (given f.ends.manager handler) = some varValue

/-- Nobody joins the entry of a variable when the value that was notified last has already
    been delivered. -/
def Timely (f : Feed δ) : Event → Prop
  | .moved (.ran (.subscription req)) => ∀ subsId, f.ends.manager.db.Maps req.varId subsId →
      ∀ varValue, f.seen req.varId = some varValue → coming f.posted req.varId subsId f.ends.toClient = some varValue
  | _ => True

/-! ## Managers -/

variable {live : δ → Set SubscriptionId} {f f' : Feed δ} {d : Duplex δ} {m m' : Client.ConnectionManager} {v : VariableId}
  {s : Client.Subscription} {i : SubscriptionId} {reqs : List Client.SubscriptionRequest}

/-- The handlers that have been invoked are those of requests that were granted, and no handler
    is there for two variables. -/
structure Tracked (m : Client.ConnectionManager) : Prop where
  accounted : Client.Accounted m
  granted : ∀ call ∈ m.invoked, ∃ resolution, (call.1, resolution) ∈ m.resolved
  alone : ∀ {v w s t}, m.db.Holds v s → m.db.Holds w t → s.handler = t.handler → v = w

theorem Tracked.turn (tracked : Tracked m) (turn : Client.ConnectionManager.Turn reqs m m') : Tracked m' := by
  have fresh : ∀ {v s}, m.db.Holds v s → ∀ req ∈ reqs, s.handler ≠ req.handler := by
    intro v s holds req among same
    have waits := turn.asked req among
    have resolved := tracked.accounted.bound holds
    rw [same, tracked.accounted.named req waits] at resolved
    exact tracked.accounted.unresolved waits _ resolved
  constructor
  · exact tracked.accounted.turn turn
  · intro call made
    obtain ⟨calls, same, live⟩ := turn.calls
    rw [same] at made
    rcases List.mem_append.mp made with before | now
    · obtain ⟨resolution, resolved⟩ := tracked.granted call before
      exact ⟨resolution, turn.resolved resolved⟩
    · obtain ⟨v, s, holds, handler⟩ := live call now
      exact ⟨_, turn.resolved (handler ▸ tracked.accounted.bound holds)⟩
  · intro v w s t first second same
    rcases turn.bound first with old | ⟨req, among, rfl, handler, -⟩
    · rcases turn.bound second with old' | ⟨req', among', -, handler', -⟩
      · exact tracked.alone old old' same
      · exact absurd (same.trans handler') (fresh old req' among')
    · rcases turn.bound second with old' | ⟨req', among', rfl, handler', -⟩
      · exact absurd (same.symm.trans handler) (fresh old' req among)
      · have waits := turn.asked req among
        have waits' := turn.asked req' among'
        have number : req.id = req'.id := by
          rw [← tracked.accounted.named req waits, ← handler, same, handler', tracked.accounted.named req' waits']
        rw [tracked.accounted.alone waits waits' number]

/-- The handler of a request that waits has been given nothing. -/
theorem Tracked.ungiven (tracked : Tracked m) {req : Client.SubscriptionRequest} (waits : m.Waits req) :
    given m req.handler = none := by
  refine latest_other fun w among same => ?_
  obtain ⟨call, made, rfl⟩ := List.mem_map.mp among
  obtain ⟨resolution, resolved⟩ := tracked.granted call made
  rw [show call.1 = req.handler from same, tracked.accounted.named req waits] at resolved
  exact tracked.accounted.unresolved waits resolution resolved

theorem holds_maps {db : Client.SubscriptionDb} (holds : db.Holds v s) : ∃ i, db.Maps v i := by
  obtain ⟨e, member, rfl, -⟩ := holds
  exact ⟨e.masterSubsId, List.mem_map_of_mem member⟩

/-- A subscription of the client was there before, with its master, or is that of a request
    that waited. -/
theorem held_cases (registered : Registered f.ends) (registered' : Registered d) (same : d.peer = f.ends.peer)
    (turn : Client.ConnectionManager.Turn reqs f.ends.manager d.manager) (holds : d.manager.db.Holds v s)
    (maps : d.manager.db.Maps v i) : (f.ends.manager.db.Holds v s ∧ f.ends.manager.db.Maps v i) ∨
      ∃ req ∈ reqs, f.ends.manager.Waits req ∧ req.varId = v ∧ s.handler = req.handler := by
  rcases turn.bound holds with old | ⟨req, among, about, handler, -⟩
  · obtain ⟨j, before⟩ := holds_maps old
    have master := registered'.holding maps
    rw [same] at master
    rw [(registered.holding before).unique_subscription master] at before
    exact .inl ⟨old, before⟩
  · exact .inr ⟨req, among, turn.asked req among, about, handler⟩

/-! ## The invariant -/

/-- Whatever has been notified of the subscriptions that are there reaches their handlers. -/
structure Informed (live : δ → Set SubscriptionId) (f : Feed δ) : Prop where
  joined : Joined live f.ends
  tracked : Tracked f.ends.manager
  unseen : ∀ {v}, ¬ f.Covers v → f.seen v = none
  fed : ∀ {v s i}, f.ends.manager.db.Holds v s → f.ends.manager.db.Maps v i → f.Fed v i s.handler
  promised : f.ends.Up → ∀ {before later msg}, f.ends.toClient = before ++ .subscriptionRep msg :: later → msg.st = .subscribed →
    ∀ varValue, f.seen (variableId msg.varGrp msg.varName) = some varValue →
      coming f.posted (variableId msg.varGrp msg.varName) msg.subsId later = some varValue
  notified : ∀ {v x}, f.seen v = some x → latest v f.notified = some x

theorem opened_informed (live : δ → Set SubscriptionId) (delegate : δ) (values : VariableId → VariableValue) :
    Informed live (opened delegate values) where
  joined := .inl (opened_linked delegate trivial)
  tracked := by
    refine ⟨⟨fun _ => Nat.zero_le _, fun _ _ => rfl, ?_, ?_⟩, nofun, ?_⟩
    · rintro v s ⟨e, member, -⟩
      cases member
    · rintro req (posted | pooled)
      · cases posted
      · cases pooled
    · rintro v w s t ⟨e, member, -⟩
      cases member
  unseen _ := rfl
  fed := by
    rintro v s i ⟨e, member, -⟩
    cases member
  promised := by
    intro _ before later msg split
    exact absurd split.symm (List.append_ne_nil_of_right_ne_nil _ (List.cons_ne_nil _ _))
  notified := nofun

/-- Nothing new has been seen where the subscriptions are the same. -/
theorem Informed.observed_same (informed : Informed live f) (same : d.peer.session.subscriptions = f.ends.peer.session.subscriptions) :
    observed d f.seen = f.seen := by
  funext v
  unfold observed
  rw [same]
  by_cases covers : f.ends.peer.session.subscriptions.Covers v
  · exact if_pos covers
  · rw [if_neg covers]
    exact (informed.unseen covers).symm

theorem Informed.up_to_date (informed : Informed live f) (settled : Settled f) : UpToDate f := by
  intro v s holds
  obtain ⟨i, maps⟩ := holds_maps holds
  have covers : f.Covers v := SubscriptionMapper.covers_iff.mpr ⟨i, informed.joined.registered.holding maps⟩
  have seen := settled.polls v covers
  have fed := informed.fed holds maps _ seen
  rw [settled.posted, settled.toClient] at fed
  exact ⟨f.values v, fed, informed.notified seen⟩

/-! ## Steps -/

theorem Informed.called (accountable : Accountable live) (informed : Informed live f) {call : Client.Call}
    (step : Duplex.Step f.ends (.submitted (call.submission f.ends.manager.submitted)) d) : Informed live { f with ends := d } := by
  have joined := informed.joined.step accountable step
  cases step with
  | submitted =>
    constructor
    · exact joined
    · exact ⟨informed.tracked.accounted.submit call, informed.tracked.granted, informed.tracked.alone⟩
    · exact informed.unseen
    · exact informed.fed
    · exact informed.promised
    · exact informed.notified

theorem Informed.ran (accountable : Accountable live) (informed : Informed live f) {task : Client.Task}
    (step : Duplex.Step f.ends (.ran task) d) (timely : f.Timely (.moved (.ran task))) :
    Informed live { f with
      ends := d
      seen := observed d f.seen } := by
  have joined := informed.joined.step accountable step
  cases step with
  | ran posted =>
  rename_i before later
  have turn := Client.ConnectionManager.ran_turn posted
  have effect := Client.ConnectionManager.runTask_effect { f.ends.manager with tasks := before ++ later } task
  have uninvoked : (after (Client.ConnectionManager.runTask task { f.ends.manager with tasks := before ++ later })).invoked =
      f.ends.manager.invoked := by
    generalize after (Client.ConnectionManager.runTask task { f.ends.manager with tasks := before ++ later }) = m at effect
    cases effect <;> rfl
  generalize after (Client.ConnectionManager.runTask task { f.ends.manager with tasks := before ++ later }) = m
    at turn effect uninvoked joined ⊢
  have unchanged : observed (f.ends.withManager m) f.seen = f.seen := informed.observed_same rfl
  rw [unchanged]
  constructor
  · exact joined
  · exact informed.tracked.turn turn
  · exact informed.unseen
  · intro v s i holds maps
    unfold Fed given
    rw [show (f.ends.withManager m).manager.invoked = f.ends.manager.invoked from uninvoked]
    intro x seen
    rcases held_cases (d := f.ends.withManager m) informed.joined.registered joined.registered rfl turn holds maps with
      ⟨old, before⟩ | ⟨req, among, waits, rfl, handler⟩
    · exact informed.fed old before x seen
    · have ungiven := informed.tracked.ungiven waits
      rw [given, ← handler] at ungiven
      rw [ungiven, Option.or_none]
      cases task with
      | subscription req' =>
        by_cases defined : f.ends.manager.db.Defined req'.varId
        · rw [show f.ends.manager.binding (.ran (.subscription req')) = [req'] from if_pos defined] at among
          cases List.mem_singleton.mp among
          obtain ⟨j, before⟩ := Client.SubscriptionDb.defined_iff.mp defined
          have master := joined.registered.holding maps
          rw [(informed.joined.registered.holding before).unique_subscription master] at before
          exact timely i before x seen
        · rw [show f.ends.manager.binding (.ran (.subscription req')) = [] from if_neg defined] at among
          cases among
      | unsubscription req' => cases among
      | variableUpdate req' => cases among
  · intro up
    exact informed.promised ⟨effect.session.2 ▸ up.1, effect.input.2 ▸ up.2⟩
  · exact informed.notified

theorem Informed.wrote (accountable : Accountable live) (informed : Informed live f) (step : Duplex.Step f.ends .wrote d) :
    Informed live { f with
      ends := d
      seen := observed d f.seen } := by
  have joined := informed.joined.step accountable step
  cases step with
  | wrote pending =>
    rw [informed.observed_same]
    · exact ⟨joined, informed.tracked, informed.unseen, informed.fed, informed.promised, informed.notified⟩
    · rfl

/-- What is seen of a subscription that is still there. -/
theorem observed_maps (maps : d.peer.session.subscriptions.Maps v i) (seen : VariableId → Option VariableValue) :
    observed d seen v = seen v := if_pos (SubscriptionMapper.covers_iff.mpr ⟨i, maps⟩)

theorem split_later {α : Type} {xs ys before later : List α} {x : α} (split : xs ++ ys = before ++ x :: later) :
    (∃ rest, xs = before ++ x :: rest ∧ later = rest ++ ys) ∨ ∃ more, ys = more ++ x :: later := by
  rcases List.append_eq_append_iff.mp split with ⟨more, -, rest⟩ | ⟨more, first, rest⟩
  · exact .inr ⟨more, rest⟩
  · cases more with
    | nil => exact .inr ⟨[], rest.symm⟩
    | cons y more =>
      obtain ⟨rfl, rfl⟩ := List.cons.inj rest
      exact .inl ⟨more, first, rfl⟩

theorem Informed.requested (accountable : Accountable live) (informed : Informed live f) (step : Duplex.Step f.ends .requested d) :
    Informed live { f with
      ends := d
      seen := observed d f.seen } := by
  have joined := informed.joined.step accountable step
  cases step with
  | requested pending head =>
  rename_i msg later inputBuffer received handled
  obtain ⟨-, replies, written, valueless, grants⟩ :=
    dispatch_answers accountable ⟨served f.ends.peer.session inputBuffer received handled, f.ends.peer.delegate⟩ msg
  generalize Server.Peer.caught (Server.Peer.dispatch msg
    ⟨served f.ends.peer.session inputBuffer received handled, f.ends.peer.delegate⟩) = p at written joined ⊢
  have written : p.session.written = f.ends.peer.session.written ++ replies := written
  rw [withPeer_written { f.ends with toServer := later } written] at joined ⊢
  have same : ∀ {v i msgs}, coming f.posted v i (msgs ++ replies) = coming f.posted v i msgs := by
    intro v i msgs
    rw [coming, updates_append, valueless, List.append_nil, coming]
  constructor
  · exact joined
  · exact informed.tracked
  · exact fun unknown => if_neg unknown
  · intro v s i holds maps x seen
    have seen : observed _ f.seen v = some x := seen
    rw [observed_maps (joined.registered.holding maps)] at seen
    show (coming f.posted v i (f.ends.toClient ++ replies)).or (given f.ends.manager s.handler) = some x
    rw [same]
    exact informed.fed holds maps x seen
  · intro up before rest rep split status x seen
    have registered := joined.granting up (split ▸ List.mem_append_right _ List.mem_cons_self) status
    have seen : observed _ f.seen _ = some x := seen
    rw [observed_maps registered] at seen
    have split : f.ends.toClient ++ replies = before ++ .subscriptionRep rep :: rest := split
    rcases split_later split with ⟨rest, first, rfl⟩ | ⟨more, last⟩
    · exact same.trans (informed.promised up first status x seen)
    · -- The variable was not covered before.
      have among : Message.subscriptionRep rep ∈ replies := last ▸ List.mem_append_right _ List.mem_cons_self
      rw [informed.unseen (grants rep among status)] at seen
      cases seen
  · intro v x seen
    have seen : observed _ f.seen v = some x := seen
    unfold observed at seen
    split at seen
    · exact informed.notified seen
    · cases seen

theorem sendVarUpdate_maps {s : Server.Session} (maps : s.subscriptions.Maps v i) (varValue : VariableValue) :
    after (s.sendVarUpdate v varValue) = { s with written := s.written ++ [.varUpdate ⟨i, varValue⟩] } := by
  have written := Server.Session.writeMessage_fits (Client.ConnectionManager.fits_varUpdate i varValue) s
  unfold Server.Session.sendVarUpdate
  rw [SubscriptionMapper.getSubscriptionId_maps maps]
  dsimp only
  rw [written]
  rfl

/-- Nothing is sent for a variable that the session does not have. -/
theorem sendVarUpdate_unknown {s : Server.Session} (unknown : ¬ s.subscriptions.Covers v) (varValue : VariableValue) :
    after (s.sendVarUpdate v varValue) = s := by
  unfold Server.Session.sendVarUpdate
  rw [SubscriptionMapper.getSubscriptionId_missing unknown]
  rfl

/-- The value gets on its way. -/
theorem withPeer_sendVarUpdate (maps : d.peer.session.subscriptions.Maps v i) (varValue : VariableValue) :
    d.withPeer { d.peer with session := after (d.peer.session.sendVarUpdate v varValue) } = { d with
      peer := { d.peer with session := { d.peer.session with
        written := d.peer.session.written ++ [.varUpdate ⟨i, varValue⟩] } }
      toClient := d.toClient ++ [.varUpdate ⟨i, varValue⟩] } := by
  rw [sendVarUpdate_maps maps]
  exact withPeer_written d rfl

/-- What a poll posts comes last for its variable, and for no other. -/
theorem coming_polled (posted : List (VariableId × VariableValue)) (v : VariableId) (x : VariableValue) (i : SubscriptionId)
    (msgs : List Message) : coming (posted ++ [(v, x)]) v i msgs = some x := by
  rw [coming, latest_concat_self, Option.some_or]

theorem coming_polled_other {w : VariableId} (other : w ≠ v) (posted : List (VariableId × VariableValue)) (x : VariableValue)
    (i : SubscriptionId) (msgs : List Message) : coming (posted ++ [(v, x)]) w i msgs = coming posted w i msgs := by
  rw [coming, latest_append_other fun u among => List.mem_singleton.mp among ▸ Ne.symm other, coming]

theorem Informed.polled (informed : Informed live f) (covers : f.Covers v) : Informed live { f with
    seen := Function.update f.seen v (some (f.values v))
    posted := f.posted ++ [(v, f.values v)]
    notified := f.notified ++ [(v, f.values v)] } := by
  -- What is notified of a variable comes last for it.
  have reaches : ∀ {w i msgs o}, (∀ x, f.seen w = some x → (coming f.posted w i msgs).or o = some x) →
      ∀ x, Function.update f.seen v (some (f.values v)) w = some x →
        (coming (f.posted ++ [(v, f.values v)]) w i msgs).or o = some x := by
    intro w i msgs o before x seen
    by_cases this : w = v
    · subst this
      rw [Function.update_self] at seen
      rw [coming_polled, Option.some_or, seen]
    · rw [Function.update_of_ne this] at seen
      rw [coming_polled_other this]
      exact before x seen
  constructor
  · exact informed.joined
  · exact informed.tracked
  · intro w unknown
    have unknown : ¬ f.Covers w := unknown
    have other : w ≠ v := by
      intro this
      exact unknown (this ▸ covers)
    exact (Function.update_of_ne other ..).trans (informed.unseen unknown)
  · intro w s i holds maps
    exact reaches (informed.fed holds maps)
  · intro up before later rep split status x seen
    have promised := informed.promised up split status
    rw [← Option.or_none (o := coming _ _ _ _)]
    exact reaches (fun y before => (Option.or_none ..).trans (promised y before)) x seen
  · intro w x seen
    by_cases this : w = v
    · subst this
      have seen : Function.update f.seen w (some (f.values w)) w = some x := seen
      rw [Function.update_self] at seen
      rw [latest_concat_self, seen]
    · have seen : Function.update f.seen v (some (f.values v)) w = some x := seen
      rw [Function.update_of_ne this] at seen
      rw [latest_append_other fun u among => List.mem_singleton.mp among ▸ Ne.symm this]
      exact informed.notified seen

theorem coming_cons_self (v : VariableId) (x : VariableValue) (later : List (VariableId × VariableValue))
    (i : SubscriptionId) (msgs : List Message) : coming ((v, x) :: later) v i msgs = (latest v later).or (some x) := by
  have split : latest v ([(v, x)] ++ later) = (latest v later).or (latest v [(v, x)]) := latest_append
  rw [List.singleton_append] at split
  rw [coming, split, latest_self, Option.or_assoc, Option.some_or]

theorem coming_cons_other {w : VariableId} (other : w ≠ v) (x : VariableValue) (later : List (VariableId × VariableValue))
    (i : SubscriptionId) (msgs : List Message) : coming ((v, x) :: later) w i msgs = coming later w i msgs := by
  have split : latest w ([(v, x)] ++ later) = (latest w later).or (latest w [(v, x)]) := latest_append
  rw [List.singleton_append] at split
  have none : latest w [(v, x)] = none := latest_other fun u among => List.mem_singleton.mp among ▸ Ne.symm other
  rw [coming, split, none, Option.or_none, coming]

/-- What `send_var_update` does: what was to come still comes. -/
theorem sent_coming {x : VariableValue} (step : Duplex.Step f.ends (.notified v x) d) :
    ∃ p more, d = { f.ends with peer := p, toClient := f.ends.toClient ++ more } ∧
      p.session.subscriptions = f.ends.peer.session.subscriptions ∧ (∀ rep, .subscriptionRep rep ∉ more) ∧
        ∀ {w i}, f.ends.peer.session.subscriptions.Maps w i → ∀ later msgs,
          coming later w i (msgs ++ more) = coming ((v, x) :: later) w i msgs := by
  cases step with
  | notified =>
  by_cases covers : f.ends.peer.session.subscriptions.Covers v
  · obtain ⟨j, registered⟩ := SubscriptionMapper.covers_iff.mp covers
    rw [withPeer_sendVarUpdate registered]
    refine ⟨_, [.varUpdate ⟨j, x⟩], rfl, rfl, by simp, fun {w i} maps later msgs => ?_⟩
    rw [coming, updates_append, show updates [.varUpdate ⟨j, x⟩] = [(j, x)] from rfl]
    by_cases this : w = v
    · subst this
      rw [registered.unique_subscription maps, coming_cons_self, latest_concat_self]
    · have apart : j ≠ i := by
        rintro rfl
        exact this (maps.unique_variable registered)
      rw [coming_cons_other this, latest_append_other fun u among => List.mem_singleton.mp among ▸ apart, coming]
  · rw [sendVarUpdate_unknown covers, withPeer_quiet _ rfl]
    refine ⟨_, [], by rw [List.append_nil], rfl, fun _ => List.not_mem_nil, fun {w i} maps later msgs => ?_⟩
    have other : w ≠ v := by
      rintro rfl
      exact covers (SubscriptionMapper.covers_iff.mpr ⟨i, maps⟩)
    rw [List.append_nil, coming_cons_other other]

theorem Informed.sent (accountable : Accountable live) (informed : Informed live f) {x : VariableValue}
    {later : List (VariableId × VariableValue)} (next : f.posted = (v, x) :: later)
    (step : Duplex.Step f.ends (.notified v x) d) : Informed live { f with
      ends := d
      posted := later } := by
  have joined := informed.joined.step accountable step
  obtain ⟨p, more, rfl, mapper, plain, comes⟩ := sent_coming step
  constructor
  · exact joined
  · exact informed.tracked
  · intro w unknown
    refine informed.unseen fun covers => unknown ?_
    show p.session.subscriptions.Covers w
    rw [mapper]
    exact covers
  · intro w s i holds maps y seen
    show (coming later w i (f.ends.toClient ++ more)).or _ = some y
    rw [comes (informed.joined.registered.holding maps), ← next]
    exact informed.fed holds maps y seen
  · intro up before rest rep split status y seen
    rcases split_later split with ⟨rest, first, rfl⟩ | ⟨before, last⟩
    · have master := informed.joined.granting up (first ▸ List.mem_append_right _ List.mem_cons_self) status
      show coming later _ _ (rest ++ more) = some y
      rw [comes master, ← next]
      exact informed.promised up first status y seen
    · exact absurd (last ▸ List.mem_append_right _ List.mem_cons_self) (plain rep)
  · exact informed.notified

theorem Informed.changed (informed : Informed live f) (v : VariableId) (x : VariableValue) :
    Informed live { f with values := Function.update f.values v x } :=
  ⟨informed.joined, informed.tracked, informed.unseen, informed.fed, informed.promised, informed.notified⟩

/-! ## Replies -/

theorem given_more {calls : List (Nat × VariableId × VariableValue)} (more : m'.invoked = m.invoked ++ calls) (handler : Nat) :
    given m' handler = (latest handler (calls.map fun call => (call.1, call.2.2))).or (given m handler) := by
  rw [given, more, List.map_append, latest_append, given]

/-- The calls that an update makes. -/
theorem updated_calls (m : Client.ConnectionManager) (i : SubscriptionId) (varValue : VariableValue) : ∃ calls,
    (after (Client.ConnectionManager.dispatch (.varUpdate ⟨i, varValue⟩) m)).invoked = m.invoked ++ calls ∧
      ((∃ e, m.db.invokeHandlers i varValue = .error e) ∧ calls = [] ∨ m.db.invokeHandlers i varValue = .ok calls) := by
  show ∃ calls, (after (Client.ConnectionManager.onVariableUpdateReceived ⟨i, varValue⟩ m)).invoked = _ ∧ _
  unfold Client.ConnectionManager.onVariableUpdateReceived
  cases m.db.invokeHandlers i varValue with
  | ok calls => exact ⟨calls, rfl, .inr rfl⟩
  | error e => exact ⟨[], (List.append_nil _).symm, .inl ⟨⟨e, rfl⟩, rfl⟩⟩

/-- No other message invokes a handler. -/
theorem others_uninvoked (m : Client.ConnectionManager) {msg : Message} (other : ∀ update, msg ≠ .varUpdate update) :
    (after (Client.ConnectionManager.dispatch msg m)).invoked = m.invoked := by
  have effect := Client.ConnectionManager.dispatch_effect m msg
  generalize Client.ConnectionManager.dispatch msg m = result at effect ⊢
  cases effect with
  | updated calls errors => exact absurd rfl (other _)
  | _ => rfl

/-- What a message tells the handler of a subscription that is there for one variable only. -/
theorem given_dispatch (maps : m.db.Maps v i) (holds : m.db.Holds v s)
    (alone : ∀ {w t}, m.db.Holds w t → t.handler = s.handler → w = v) (msg : Message) :
    given (Client.ConnectionManager.caught (Client.ConnectionManager.dispatch msg m)) s.handler =
      (latest i (updates [msg])).or (given m s.handler) := by
  have settled : given (Client.ConnectionManager.caught (Client.ConnectionManager.dispatch msg m)) s.handler =
      given (after (Client.ConnectionManager.dispatch msg m)) s.handler := by
    rw [given, (Client.ConnectionManager.caught_settles _).invoked, given]
  rw [settled]
  cases msg with
  | varUpdate msg =>
    obtain ⟨j, x⟩ := msg
    have sent : updates [.varUpdate ⟨j, x⟩] = [(j, x)] := rfl
    obtain ⟨calls, more, invoked⟩ := updated_calls m j x
    rw [given_more more, sent]
    by_cases this : j = i
    · subst this
      obtain ⟨calls', invoked', called⟩ := Client.SubscriptionDb.invokeHandlers_maps maps holds x
      rw [invoked'] at invoked
      rcases invoked with ⟨⟨e, raised⟩, -⟩ | same
      · cases raised
      · cases same
        have last : latest s.handler (calls.map fun call => (call.1, call.2.2)) = some x := by
          refine latest_all ⟨_, List.mem_map_of_mem called, rfl⟩ fun w among _ => ?_
          obtain ⟨call, made, rfl⟩ := List.mem_map.mp among
          obtain ⟨-, -, -, -, value⟩ := Client.SubscriptionDb.invokeHandlers_holds invoked' made
          exact value
        rw [last, latest_self]
    · have elsewhere : latest s.handler (calls.map fun call => (call.1, call.2.2)) = none := by
        refine latest_other fun w among same => ?_
        obtain ⟨call, made, rfl⟩ := List.mem_map.mp among
        rcases invoked with ⟨-, rfl⟩ | invoked
        · cases made
        · obtain ⟨t, holds', handler, master, -⟩ := Client.SubscriptionDb.invokeHandlers_holds invoked made
          rw [alone holds' (handler.trans same)] at master
          exact this (master.unique_master maps)
      rw [elsewhere, latest_other fun w among => List.mem_singleton.mp among ▸ this]
  | _ =>
    rw [given, others_uninvoked]
    · rfl
    · nofun

/-- The requests that a reply grants are those for its variable. -/
theorem granted_about {msg : Message} {req : Client.SubscriptionRequest} (among : req ∈ m.granted msg) :
    ∃ rep, msg = .subscriptionRep rep ∧ rep.st = .subscribed ∧ req.varId = variableId rep.varGrp rep.varName := by
  cases msg with
  | subscriptionRep rep =>
    by_cases grants : rep.st = .subscribed ∧
        (m.db.Defined (variableId rep.varGrp rep.varName) ∨ ¬ m.db.MasterDefined rep.subsId)
    · rw [Client.ConnectionManager.granted, if_pos grants] at among
      exact ⟨rep, rfl, grants.1, of_decide_eq_true (List.mem_filter.mp among).2⟩
    · rw [Client.ConnectionManager.granted, if_neg grants] at among
      cases among
  | _ => cases among

theorem Informed.replied (accountable : Accountable live) (informed : Informed live f) (step : Duplex.Step f.ends .replied d) :
    Informed live { f with
      ends := d
      seen := observed d f.seen } := by
  have joined := informed.joined.step accountable step
  cases step with
  | replied pending head =>
  rename_i msg later inputBuffer received decoded
  have up : f.ends.Up := by
    rcases informed.joined with ⟨up, -⟩ | ⟨down, -⟩
    · exact up
    · have stopped := down.2
      rw [pending] at stopped
      cases stopped
  have same : Client.ConnectionManager.SameRequests f.ends.manager (advanced f.ends.manager inputBuffer received decoded) :=
    ⟨rfl, rfl, rfl, rfl, rfl, rfl⟩
  have turn := (Client.ConnectionManager.Turn.of_same same (Client.ConnectionManager.dispatch_turn _ msg)).then
    (Client.ConnectionManager.caught_settles _)
  have told : ∀ {v s i}, f.ends.manager.db.Holds v s → f.ends.manager.db.Maps v i →
      given (Client.ConnectionManager.caught (Client.ConnectionManager.dispatch msg
        (advanced f.ends.manager inputBuffer received decoded))) s.handler =
      (latest i (updates [msg])).or (given f.ends.manager s.handler) := fun holds maps =>
    given_dispatch (m := advanced f.ends.manager inputBuffer received decoded) maps holds
      (fun other same => informed.tracked.alone other holds same) msg
  have unheard : ∀ {rep}, msg = .subscriptionRep rep → (Client.ConnectionManager.caught (Client.ConnectionManager.dispatch msg
      (advanced f.ends.manager inputBuffer received decoded))).invoked = f.ends.manager.invoked := by
    rintro rep rfl
    rw [(Client.ConnectionManager.caught_settles _).invoked, others_uninvoked]
    · rfl
    · nofun
  generalize Client.ConnectionManager.caught (Client.ConnectionManager.dispatch msg
    (advanced f.ends.manager inputBuffer received decoded)) = m at turn told unheard joined ⊢
  have unchanged : observed ({ f.ends with toClient := later }.withManager m) f.seen = f.seen := informed.observed_same rfl
  rw [unchanged]
  have split : updates f.ends.toClient = updates [msg] ++ updates later := by
    rw [head]
    exact updates_append [msg] later
  constructor
  · exact joined
  · exact informed.tracked.turn turn
  · exact informed.unseen
  · intro v s i holds maps x seen
    show (coming f.posted v i later).or (given m s.handler) = some x
    rcases held_cases (d := { f.ends with toClient := later }.withManager m) informed.joined.registered joined.registered rfl
      turn holds maps with ⟨old, before⟩ | ⟨req, among, waits, rfl, handler⟩
    · have fed := informed.fed old before x seen
      rw [coming, split, latest_append, Option.or_assoc, Option.or_assoc, ← told old before, ← Option.or_assoc] at fed
      exact fed
    · obtain ⟨rep, rfl, status, about⟩ := granted_about among
      have member : Message.subscriptionRep rep ∈ f.ends.toClient := head ▸ List.mem_cons_self
      have master := informed.joined.granting up member status
      have master' : f.ends.peer.session.subscriptions.Maps req.varId i := joined.registered.holding maps
      rw [← about] at master
      have promised := informed.promised up (show f.ends.toClient = [] ++ .subscriptionRep rep :: later from head) status
      rw [master.unique_subscription master', ← about] at promised
      have ungiven := informed.tracked.ungiven waits
      rw [given, ← unheard rfl, ← handler] at ungiven
      rw [given, ungiven, Option.or_none]
      exact promised x seen
  · intro up' before rest rep later' status
    have later' : later = before ++ .subscriptionRep rep :: rest := later'
    have split' : f.ends.toClient = (msg :: before) ++ .subscriptionRep rep :: rest := by
      rw [head, later']
      rfl
    exact informed.promised up split' status
  · exact informed.notified

theorem Informed.step (accountable : Accountable live) (informed : Informed live f) {e : Event} (step : Step f e f')
    (timely : f.Timely e) : Informed live f' := by
  cases step with
  | called step => exact informed.called accountable step
  | moved inside unasked step =>
    rename_i e d
    cases e with
    | submitted submission => exact absurd rfl (inside submission)
    | ran task => exact informed.ran accountable step timely
    | requested => exact informed.requested accountable step
    | wrote => exact informed.wrote accountable step
    | notified varId varValue => exact absurd rfl (unasked varId varValue)
    | replied => exact informed.replied accountable step
  | changed => exact informed.changed _ _
  | polled covers due => exact informed.polled covers
  | sent next step => exact informed.sent accountable next step

/-- Whoever joins an entry too late has been given nothing, and nothing that is on its way
    makes up for it. -/
theorem Informed.late (informed : Informed live f) {e : Event} (step : Step f e f') (late : ¬ f.Timely e) :
    ∃ v s, f'.ends.manager.db.Holds v s ∧ given f'.ends.manager s.handler = none ∧
      ∀ i, f'.ends.manager.db.Maps v i → ¬ f'.Fed v i s.handler := by
  cases step with
  | moved inside unasked step =>
    cases step with
    | ran posted =>
      rename_i task before later
      cases task with
      | subscription req =>
        obtain ⟨i, maps, x, seen, other⟩ : ∃ i, f.ends.manager.db.Maps req.varId i ∧ ∃ x, f.seen req.varId = some x ∧
            coming f.posted req.varId i f.ends.toClient ≠ some x := by
          simpa [Timely] using late
        have defined := Client.SubscriptionDb.defined_iff.mpr ⟨i, maps⟩
        obtain ⟨db, executed, more, same⟩ := Client.ConnectionManager.onSubscriptionRequested_defined
          { f.ends.manager with tasks := before ++ later } defined
        have same : db.pairs = f.ends.manager.db.pairs := same
        have waits : f.ends.manager.Waits req := .inl (Client.ConnectionManager.posted_mem posted)
        have ungiven := informed.tracked.ungiven waits
        have unchanged : ∀ m, observed (f.ends.withManager m) f.seen = f.seen := fun _ => informed.observed_same rfl
        rw [Client.ConnectionManager.runTask_subscription, executed]
        refine ⟨req.varId, ⟨f.ends.manager.db.nextId, req.handler⟩, more.holds.mpr (.inr ⟨rfl, rfl⟩), ungiven, ?_⟩
        intro j maps' fed
        have maps' : f.ends.manager.db.Maps req.varId j := by
          rw [Client.SubscriptionDb.Maps, ← same]
          exact maps'
        have fed := fed x (by rw [unchanged]; exact seen)
        have fed : (coming f.posted req.varId j f.ends.toClient).or (given f.ends.manager req.handler) = some x := fed
        rw [ungiven, Option.or_none, ← maps.unique_master maps'] at fed
        exact other fed
      | unsubscription req => exact absurd True.intro late
      | variableUpdate req => exact absurd True.intro late
    | _ => exact absurd True.intro late
  | _ => exact absurd True.intro late

/-- In a feed that nobody joins too late, each handler has been given the value that was
    notified last once nothing is pending. Who joins too late is left out. -/
theorem subscribers_up_to_date (accountable : Accountable live) {delegate : δ} {values : VariableId → VariableValue}
    (run : Run (Meeting Step Timely) (opened delegate values) f) :
    (f.Settled → f.UpToDate) ∧ ∀ {e f'}, Step f e f' → ¬ f.Timely e →
      ∃ v s, f'.ends.manager.db.Holds v s ∧ given f'.ends.manager s.handler = none ∧
        ∀ i, f'.ends.manager.db.Maps v i → ¬ f'.Fed v i s.handler := by
  have informed : Informed live f := run.invariant (opened_informed live delegate values) fun informed step =>
    informed.step accountable step.1 step.2
  constructor
  · exact informed.up_to_date
  · intro e f' step late
    exact informed.late step late

end

/-! ## Two subscribers -/

section
variable {f : Feed Registry}

/-- A step of the connection while nothing has been notified. -/
theorem moved_unseen {δ : Type} [FlightVars δ] {d d' : Duplex δ} {values : VariableId → VariableValue} {e : Duplex.Event}
    (step : Duplex.Step d e d') (inside : ∀ submission, e ≠ .submitted submission)
    (unasked : ∀ varId varValue, e ≠ .notified varId varValue) :
    Step ⟨d, values, fun _ => none, [], []⟩ (.moved e) ⟨d', values, fun _ => none, [], []⟩ := by
  have none : observed d' (fun _ => .none) = fun _ => .none := funext fun _ => ite_self _
  have moved : Step ⟨d, values, fun _ => .none, [], []⟩ (.moved e) _ := .moved inside unasked step
  rwa [none] at moved

/-- A subscription from the call to the reply. -/
theorem run_bound (values : VariableId → VariableValue) : ∃ d : Duplex Registry,
    Run (Meeting Step Timely) (opened Registry.empty values) ⟨d, values, fun _ => none, [], []⟩ ∧ d.manager.phase = .receiving ∧
      d.manager.db = Client.boundDb ∧ d.manager.tasks = [] ∧ d.manager.submitted = 1 ∧ d.manager.requestPool = .empty ∧
      d.manager.invoked = [] ∧ d.toServer = [] ∧ d.toClient = [] ∧
      d.peer.session.subscriptions.entries = [(altitude, 1)] := by
  obtain ⟨asks, grants, -⟩ := altitude_fits
  have called : Step (opened Registry.empty values) (.called (.subscribe altitude)) _ := .called .submitted
  have asking := step_asking (d := Duplex.opened Registry.empty) 0 rfl List.not_mem_nil asks
  have early : ∀ {d : Duplex Registry}, d.manager.db = .empty →
      Timely ⟨d, values, fun _ => none, [], []⟩ (.moved (.ran (.subscription ⟨0, altitude, 0⟩))) := by
    intro d unknown subsId maps
    rw [show d.manager.db = .empty from unknown] at maps
    exact absurd maps List.not_mem_nil
  obtain ⟨p, requested, single⟩ := granted (d := (Duplex.opened Registry.empty).asking altitude 0) rfl rfl rfl rfl
  rw [if_pos grants] at requested
  have reply : Server.subscribed ⟨altitude.group, altitude.name⟩ 1 = .subscriptionRep Client.subscribedReply := rfl
  have run : Run (Meeting Step Timely) (opened Registry.empty values) ⟨_, values, fun _ => none, [], []⟩ :=
    (((Run.refl _).next ⟨called, trivial⟩).next ⟨moved_unseen asking (by nofun) (by nofun), early rfl⟩).next
      ⟨moved_unseen requested (by nofun) (by nofun), trivial⟩
  have replied := replied_as_is (d := { (Duplex.opened Registry.empty).asking altitude 0 with
    peer := Server.answered p (Server.subscribed ⟨altitude.group, altitude.name⟩ 1)
    toServer := []
    toClient := [] ++ [Server.subscribed ⟨altitude.group, altitude.name⟩ 1] }) rfl rfl
  rw [reply, Client.dispatch_subscribed rfl rfl rfl, withManager_quiet] at replied
  · refine ⟨_, run.next ⟨moved_unseen replied (by nofun) (by nofun), trivial⟩, rfl, rfl, rfl, rfl, rfl, rfl, rfl, rfl, ?_⟩
    show (Server.answered p _).session.subscriptions.entries = _
    rw [Server.answered_subscriptions]
    exact single
  · rfl

/-- The value is notified, and reaches the handler. -/
theorem run_fed : ∃ f : Feed Registry, Run (Meeting Step Timely) (opened Registry.empty fun _ => .bool true) f ∧ f.Settled ∧
    f.ends.manager.db = Client.boundDb ∧ f.ends.manager.submitted = 1 ∧
      f.ends.manager.invoked = [(0, altitude, .bool true)] ∧ f.notified = [(altitude, .bool true)] := by
  obtain ⟨d, run, pending, known, idle, submitted, pool, uninvoked, server, client, single⟩ := run_bound fun _ => .bool true
  have covers : d.peer.session.subscriptions.Covers altitude := (SubscriptionMapper.covers_single single).mpr rfl
  have polled : Step ⟨d, fun _ => .bool true, fun _ => none, [], []⟩ (.polled altitude) _ := .polled covers nofun
  have notified := @Duplex.Step.notified _ _ d altitude (.bool true)
  rw [withPeer_sendVarUpdate ((SubscriptionMapper.maps_single single).mpr ⟨rfl, rfl⟩), client] at notified
  have sent := Step.sent (f := ⟨d, fun _ => .bool true, Function.update (fun _ => none) altitude (some (.bool true)),
    [(altitude, .bool true)], [(altitude, .bool true)]⟩) rfl notified
  have replied := replied_as_is (d := { d with
    peer := { d.peer with session := { d.peer.session with
      written := d.peer.session.written ++ [.varUpdate ⟨1, .bool true⟩] } }
    toClient := [] ++ [.varUpdate ⟨1, .bool true⟩] }) pending rfl
  rw [Client.dispatch_updated known, withManager_quiet] at replied
  · have moved := Step.moved (f := ⟨_, fun _ => .bool true, Function.update (fun _ => none) altitude (some (.bool true)),
      [], [(altitude, .bool true)]⟩) (by nofun) (by nofun) replied
    refine ⟨_, ((run.next ⟨polled, trivial⟩).next ⟨sent, trivial⟩).next ⟨moved, trivial⟩,
      ⟨idle, pool, server, rfl, rfl, ?_⟩, known, submitted, ?_, rfl⟩
    · intro w among
      cases (SubscriptionMapper.covers_single single).mp among
      show observed _ (Function.update (fun _ => none) altitude (some (.bool true))) altitude = some (.bool true)
      rw [observed_maps (i := 1), Function.update_self]
      exact (SubscriptionMapper.maps_single single).mpr ⟨rfl, rfl⟩
    · show d.manager.invoked ++ _ = _
      rw [uninvoked]
      rfl
  · rfl

theorem boundDb_holds : Client.boundDb.Holds altitude ⟨1, 0⟩ := ⟨_, List.mem_cons_self, rfl, List.mem_cons_self⟩

/-- Somebody else subscribes to the variable of the entry. -/
theorem step_joins {f : Feed Registry} (known : f.ends.manager.db = Client.boundDb) (idle : f.ends.manager.tasks = [])
    (submitted : f.ends.manager.submitted = 1) : ∃ d : Duplex Registry,
      Step f (.called (.subscribe altitude))
        { f with ends := { f.ends with manager := f.ends.manager.submit (.subscribe altitude 1) } } ∧
      Step { f with ends := { f.ends with manager := f.ends.manager.submit (.subscribe altitude 1) } }
        (.moved (.ran (.subscription ⟨1, altitude, 1⟩))) { f with
          ends := d
          seen := observed d f.seen } ∧
      d.peer = f.ends.peer ∧ d.toServer = f.ends.toServer ∧ d.toClient = f.ends.toClient ∧
      d.manager.phase = f.ends.manager.phase ∧ d.manager.tasks = [] ∧ d.manager.requestPool = f.ends.manager.requestPool ∧
      d.manager.invoked = f.ends.manager.invoked ∧ d.manager.db.Holds altitude ⟨1, 0⟩ ∧ d.manager.db.Holds altitude ⟨2, 1⟩ := by
  have called : Step f (.called (.subscribe altitude)) _ := .called .submitted
  rw [show (Client.Call.subscribe altitude).submission f.ends.manager.submitted = .subscribe altitude 1 by
    rw [submitted]; rfl] at called
  have posted : (f.ends.manager.submit (.subscribe altitude 1)).tasks = [] ++ .subscription ⟨1, altitude, 1⟩ :: [] := by
    show f.ends.manager.tasks ++ [.subscription ⟨f.ends.manager.submitted, altitude, 1⟩] = _
    rw [idle, submitted]
  have defined : f.ends.manager.db.Defined altitude := known ▸ List.mem_cons_self
  have next : f.ends.manager.db.nextId = 2 := by
    rw [known]
    rfl
  obtain ⟨db, executed, more, -⟩ := Client.ConnectionManager.onSubscriptionRequested_defined
    { f.ends.manager.submit (.subscribe altitude 1) with tasks := [] ++ [] }
    (show f.ends.manager.db.Defined (Client.SubscriptionRequest.mk 1 altitude 1).varId from defined)
  have ran := Duplex.Step.ran (d := { f.ends with manager := f.ends.manager.submit (.subscribe altitude 1) }) posted
  rw [Client.ConnectionManager.runTask_subscription, executed, withManager_quiet] at ran
  · have joined := Step.moved (f := { f with
      ends := { f.ends with manager := f.ends.manager.submit (.subscribe altitude 1) } }) (by nofun) (by nofun) ran
    have first : f.ends.manager.db.Holds altitude ⟨1, 0⟩ := known ▸ boundDb_holds
    exact ⟨_, called, joined, rfl, rfl, rfl, rfl, rfl, rfl, rfl, more.holds.mpr (.inl first),
      more.holds.mpr (.inr ⟨rfl, congrArg (Client.Subscription.mk · 1) next.symm⟩)⟩
  · rfl

/-- An update reaches the client, and leaves its entries and requests alone. -/
theorem step_told {d : Duplex Registry} {update : VarUpdateMessage} (pending : d.manager.phase = .receiving)
    (head : d.toClient = [.varUpdate update]) : ∃ m, Duplex.Step d .replied { d with manager := m, toClient := [] } ∧
      m.db = d.manager.db ∧ m.tasks = d.manager.tasks ∧ m.requestPool = d.manager.requestPool := by
  obtain ⟨m, executed, sent, kept⟩ : ∃ m, Client.ConnectionManager.dispatch (.varUpdate update) d.manager = .ok () m ∧
      m.sent = d.manager.sent ∧ m.db = d.manager.db ∧ m.tasks = d.manager.tasks ∧ m.requestPool = d.manager.requestPool := by
    show ∃ m, Client.ConnectionManager.onVariableUpdateReceived update d.manager = .ok () m ∧ _
    unfold Client.ConnectionManager.onVariableUpdateReceived
    cases d.manager.db.invokeHandlers update.subsId update.varValue with
    | ok calls => exact ⟨_, rfl, rfl, rfl, rfl, rfl⟩
    | error e => exact ⟨_, rfl, rfl, rfl, rfl, rfl⟩
  have replied := replied_as_is pending head
  rw [executed, withManager_quiet] at replied
  · exact ⟨_, replied, kept⟩
  · exact sent

/-- Somebody subscribes to a variable whose value is still posted. -/
theorem run_shared : ∃ f : Feed Registry, Run (Meeting Step Timely) (opened Registry.empty fun _ => .bool true) f ∧
    f.Settled ∧ f.ends.manager.db.Holds altitude ⟨1, 0⟩ ∧ f.ends.manager.db.Holds altitude ⟨2, 1⟩ ∧
      f.notified = [(altitude, .bool true)] := by
  obtain ⟨d, run, pending, known, idle, submitted, pool, -, server, client, single⟩ := run_bound fun _ => .bool true
  have covers : d.peer.session.subscriptions.Covers altitude := (SubscriptionMapper.covers_single single).mpr rfl
  have maps : d.peer.session.subscriptions.Maps altitude 1 := (SubscriptionMapper.maps_single single).mpr ⟨rfl, rfl⟩
  have polled : Step ⟨d, fun _ => .bool true, fun _ => none, [], []⟩ (.polled altitude) _ := .polled covers nofun
  obtain ⟨d', called, joined, peer, server', client', pending', idle', pool', -, first, second⟩ := step_joins
    (f := ⟨d, fun _ => .bool true, Function.update (fun _ => none) altitude (some (.bool true)), [(altitude, .bool true)],
      [(altitude, .bool true)]⟩) known idle submitted
  have timely : ∀ manager : Client.ConnectionManager, Timely ⟨{ d with manager }, fun _ => .bool true,
      Function.update (fun _ => none) altitude (some (.bool true)), [(altitude, .bool true)], [(altitude, .bool true)]⟩
      (.moved (.ran (.subscription ⟨1, altitude, 1⟩))) := by
    intro manager i _ x seen
    have seen : Function.update (fun _ : VariableId => none) altitude (some (VariableValue.bool true)) altitude = some x := seen
    rw [Function.update_self] at seen
    exact (coming_polled [] altitude (.bool true) i _).trans seen
  have maps' : d'.peer.session.subscriptions.Maps altitude 1 := peer ▸ maps
  have notified := @Duplex.Step.notified _ _ d' altitude (.bool true)
  rw [withPeer_sendVarUpdate maps', show d'.toClient = [] from client'.trans client] at notified
  have sent := Step.sent (f := ⟨d', fun _ => .bool true, observed d' (Function.update (fun _ => none) altitude (some (.bool true))),
    [(altitude, .bool true)], [(altitude, .bool true)]⟩) rfl notified
  obtain ⟨m, replied, db, tasks, requests⟩ := step_told (d := { d' with
    peer := { d'.peer with session := { d'.peer.session with
      written := d'.peer.session.written ++ [.varUpdate ⟨1, .bool true⟩] } }
    toClient := [] ++ [.varUpdate ⟨1, .bool true⟩] }) (pending'.trans pending) rfl
  have moved := Step.moved (f := ⟨_, fun _ => .bool true, observed d' (Function.update (fun _ => none) altitude (some (.bool true))),
    [], [(altitude, .bool true)]⟩) (by nofun) (by nofun) replied
  refine ⟨_, ((((run.next ⟨polled, trivial⟩).next ⟨called, trivial⟩).next ⟨joined, timely _⟩).next ⟨sent, trivial⟩).next
    ⟨moved, trivial⟩, ⟨tasks.trans idle', requests.trans (pool'.trans pool), server'.trans server, rfl, rfl, ?_⟩,
    db ▸ first, db ▸ second, rfl⟩
  intro w among
  have among : d'.peer.session.subscriptions.Covers w := among
  rw [peer] at among
  cases (SubscriptionMapper.covers_single single).mp among
  have unchanged : ∀ seen, observed d' seen altitude = seen altitude := observed_maps (i := 1) maps'
  exact (unchanged _).trans ((unchanged _).trans (Function.update_self ..))

/-- Two subscribers of which the second has come before the value was on its way. -/
theorem subscribers_up_to_date_two : ∃ f : Feed Registry,
    Run (Meeting Step Timely) (opened Registry.empty fun _ => .bool true) f ∧ f.Settled ∧
      given f.ends.manager 0 = some (.bool true) ∧ given f.ends.manager 1 = some (.bool true) := by
  obtain ⟨f, run, settled, first, second, notified⟩ := run_shared
  have upToDate := (subscribers_up_to_date Registry.lawful.toAccountable run).1 settled
  have given : ∀ {s}, f.ends.manager.db.Holds altitude s → given f.ends.manager s.handler = some (.bool true) := by
    intro s holds
    obtain ⟨varValue, told, last⟩ := upToDate altitude s holds
    rw [notified, latest_self] at last
    cases last
    exact told
  exact ⟨f, run, settled, given first, given second⟩

/-- Somebody subscribes to a variable whose value has been delivered: the entry is there, so
    nobody is asked for the value, and the handler is not invoked. -/
theorem subscriber_left_out : ∃ f : Feed Registry, Run Step (opened Registry.empty fun _ => .bool true) f ∧ f.Settled ∧
    f.ends.manager.db.Holds altitude ⟨2, 1⟩ ∧ given f.ends.manager 1 = none ∧
      latest altitude f.notified = some (.bool true) ∧ ¬ f.UpToDate := by
  obtain ⟨f, run, ⟨idle, pool, server, client, unposted, polls⟩, known, submitted, invoked, notified⟩ := run_fed
  obtain ⟨d, called, joined, peer, server', client', -, idle', pool', uninvoked, -, holds⟩ := step_joins known idle submitted
  have ungiven : given d.manager 1 = none := by
    rw [given, uninvoked, invoked]
    rfl
  refine ⟨_, (run.forget.next called).next joined, ⟨idle', pool'.trans pool, server'.trans server, client'.trans client,
    unposted, ?_⟩, holds, ungiven, ?_, ?_⟩
  · intro w covers
    have covers' : d.peer.session.subscriptions.Covers w := covers
    rw [peer] at covers'
    exact (if_pos covers).trans (polls w covers')
  · show latest altitude f.notified = _
    rw [notified, latest_self]
  · intro upToDate
    obtain ⟨varValue, told, -⟩ := upToDate altitude ⟨2, 1⟩ holds
    have told : given d.manager 1 = some varValue := told
    rw [ungiven] at told
    cases told

end
end Feed
end Oac
