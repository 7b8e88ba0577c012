import Oac.Duplex

/-!
# Agreement of the two ends

Whether the client can make sense of every reply (`replies_expected`), and whether both ends
agree when nothing is on its way (`ends_agree`): the two properties of links, for the
connection of a manager and a session.
-/
namespace Oac
open Base Proto FlightVars
set_option linter.unusedSectionVars false

namespace Duplex
variable {δ : Type} [FlightVars δ] {live : δ → Set SubscriptionId} {d d' : Duplex δ} {e : Event}
  {l : Link VariableId SubscriptionId}

/-! ## Conditions -/

/-- No variable is asked for while it is waited for, unless the server could not say so. -/
def Patient (d : Duplex δ) : Event → Prop
  | .ran (.subscription req) => ¬ d.manager.db.Defined req.varId →
      d.manager.requestPool.subscriptionRequests req.varId = [] ∨ 1024 < 42 + req.varId.group.length + req.varId.name.length
  | _ => True

/-- The reply to a subscription request has room. -/
def Replyable (req : SubscriptionRequestMessage) : EStateM.Result Exception δ SubscriptionId → Prop
  | .ok _ _ => 15 + req.varGrp.length + req.varName.length ≤ 1024
  | .error _ _ => 77 + req.varGrp.length + req.varName.length ≤ 1024

/-- Requests fit into their buffers, and so do the replies that grant or refuse a variable. -/
def Roomy (d : Duplex δ) : Event → Prop
  | .ran (.subscription req) => ¬ d.manager.db.Defined req.varId → 8 + req.varId.group.length + req.varId.name.length ≤ 1024
  | .requested => ∀ req later, d.toServer = .subscriptionReq req :: later →
      ¬ d.peer.session.subscriptions.Covers (variableId req.varGrp req.varName) →
        Replyable req (subscribe (variableId req.varGrp req.varName) d.peer.delegate)
  | _ => True

/-! ## Exchanges -/

/-- The two ends after a variable has been asked for. -/
def asking (d : Duplex δ) (varId : VariableId) (handler : Nat) : Duplex δ :=
  { d with
    manager := { d.manager with
      tasks := []
      submitted := d.manager.submitted + 1
      requestPool := d.manager.requestPool.insertSubscription ⟨d.manager.submitted, varId, handler⟩
      sent := d.manager.sent ++ [.subscriptionReq ⟨varId.group, varId.name⟩] }
    toServer := d.toServer ++ [.subscriptionReq ⟨varId.group, varId.name⟩] }

theorem step_asking {varId : VariableId} (handler : Nat) (idle : d.manager.tasks = [])
    (undefined : ¬ d.manager.db.Defined varId) (fits : Fits (.subscriptionReq ⟨varId.group, varId.name⟩)) :
    Step { d with manager := d.manager.submit (.subscribe varId handler) }
      (.ran (.subscription ⟨d.manager.submitted, varId, handler⟩)) (d.asking varId handler) := by
  have posted : (d.manager.submit (.subscribe varId handler)).tasks =
      [] ++ .subscription ⟨d.manager.submitted, varId, handler⟩ :: [] := by
    show d.manager.tasks ++ _ = _
    rw [idle]
    rfl
  have step := Step.ran (d := { d with manager := d.manager.submit (.subscribe varId handler) }) posted
  rw [Client.ConnectionManager.runTask_subscription,
    Client.ConnectionManager.onSubscriptionRequested_undefined _ undefined, if_pos fits, withManager_sent _ rfl] at step
  exact step

theorem run_asking {condition : Duplex δ → Event → Prop} {varId : VariableId} {handler : Nat} (idle : d.manager.tasks = [])
    (undefined : ¬ d.manager.db.Defined varId) (fits : Fits (.subscriptionReq ⟨varId.group, varId.name⟩))
    (submitted : condition d (.submitted (.subscribe varId handler)))
    (ran : condition { d with manager := d.manager.submit (.subscribe varId handler) }
      (.ran (.subscription ⟨d.manager.submitted, varId, handler⟩))) :
    Run (Meeting Step condition) d (d.asking varId handler) := by
  exact ((Run.refl d).next ⟨.submitted, submitted⟩).next ⟨step_asking handler idle undefined fits, ran⟩

theorem requested_as_is {msg : Message} {later : List Message} (pending : d.peer.session.phase = .readingRequest)
    (head : d.toServer = msg :: later) :
    Step d .requested ({ d with toServer := later }.withPeer (Server.Peer.caught (Server.Peer.dispatch msg d.peer))) :=
  @Step.requested _ _ d _ later d.peer.session.inputBuffer d.peer.session.received d.peer.session.handled pending head

/-- A reply gets on its way if it fits. -/
theorem withPeer_answered (d : Duplex δ) {p : Server.Peer δ} (written : p.session.written = d.peer.session.written)
    (rep : Message) : d.withPeer (Server.answered p rep) =
      { d with peer := Server.answered p rep, toClient := d.toClient ++ if Fits rep then [rep] else [] } := by
  refine withPeer_written d ?_
  rw [Server.answered_written, written]
  split
  · rfl
  · exact (List.append_nil _).symm

/-- The first subscription of a registry. -/
theorem granted {d : Duplex Registry} {varId : VariableId} {later : List Message}
    (pending : d.peer.session.phase = .readingRequest)
    (head : d.toServer = .subscriptionReq ⟨varId.group, varId.name⟩ :: later)
    (unknown : d.peer.session.subscriptions = .empty) (fresh : d.peer.delegate = Registry.empty) :
    ∃ p : Server.Peer Registry, Step d .requested { d with
        peer := Server.answered p (Server.subscribed ⟨varId.group, varId.name⟩ 1)
        toServer := later
        toClient := d.toClient ++ if Fits (Server.subscribed ⟨varId.group, varId.name⟩ 1)
          then [Server.subscribed ⟨varId.group, varId.name⟩ 1] else [] } ∧
      p.session.subscriptions.entries = [(varId, 1)] := by
  have step := requested_as_is pending head
  obtain ⟨q, same, written, single, -⟩ := Server.first_subscription unknown fresh ⟨varId.group, varId.name⟩
  rw [same, withPeer_answered { d with toServer := later } written] at step
  rw [variableId_fields] at single
  exact ⟨q, step, single⟩

/-- A subscription that is there already. -/
theorem duplicated {d : Duplex Registry} {varId : VariableId} {later : List Message}
    (pending : d.peer.session.phase = .readingRequest)
    (head : d.toServer = .subscriptionReq ⟨varId.group, varId.name⟩ :: later)
    (covers : d.peer.session.subscriptions.Covers varId) (fits : Fits (Server.alreadySubscribed ⟨varId.group, varId.name⟩)) :
    ∃ p : Server.Peer Registry, Step d .requested { d with
      peer := p
      toServer := later
      toClient := d.toClient ++ [Server.alreadySubscribed ⟨varId.group, varId.name⟩] } := by
  have step := requested_as_is pending head
  cases Server.subscription_effect d.peer ⟨varId.group, varId.name⟩ with
  | known covers same =>
    rw [same, withPeer_answered _ rfl, if_pos fits] at step
    exact ⟨_, step⟩
  | granted subsId delegate newVariable executed newSubscription same =>
    rw [variableId_fields] at newVariable
    exact absurd covers newVariable
  | clashing subsId delegate newVariable executed used same =>
    rw [variableId_fields] at newVariable
    exact absurd covers newVariable
  | refused unknown delegate newVariable raised same =>
    rw [variableId_fields] at newVariable
    exact absurd covers newVariable
  | failed e delegate newVariable raised undeclared same =>
    rw [variableId_fields] at newVariable
    exact absurd covers newVariable

theorem replied_as_is {msg : Message} {later : List Message} (pending : d.manager.phase = .receiving)
    (head : d.toClient = msg :: later) : Step d .replied ({ d with toClient := later }.withManager
      (Client.ConnectionManager.caught (Client.ConnectionManager.dispatch msg d.manager))) :=
  @Step.replied _ _ d _ later d.manager.inputBuffer d.manager.received d.manager.decoded pending head

/-- The client binds its requests. -/
theorem bound (varId : VariableId) (subsId : SubscriptionId) (later : List Message) (pending : d.manager.phase = .receiving)
    (head : d.toClient = Server.subscribed ⟨varId.group, varId.name⟩ subsId :: later)
    (some : d.manager.requestPool.subscriptionRequests varId ≠ []) (none : d.manager.db.pairs = []) :
    ∃ m, Step d .replied { d with manager := m, toClient := later } ∧ m.phase = .receiving ∧ m.state = d.manager.state ∧
      m.db.Maps varId subsId ∧ m.requestPool = (d.manager.requestPool.popSubscriptionRequests varId).2 := by
  have step := replied_as_is pending head
  have effect := Client.ConnectionManager.dispatch_effect d.manager
    (.subscriptionRep ⟨.subscribed, varId.group, varId.name, subsId, []⟩)
  have empty : ∀ v i, ¬ d.manager.db.Maps v i := by
    intro v i maps
    rw [Client.SubscriptionDb.Maps, none] at maps
    exact List.not_mem_nil maps
  obtain ⟨result, executed⟩ : ∃ result, Client.ConnectionManager.dispatch
      (.subscriptionRep ⟨.subscribed, varId.group, varId.name, subsId, []⟩) d.manager = result := ⟨_, rfl⟩
  rw [Server.subscribed, executed] at step
  rw [executed] at effect
  cases effect with
  | granted some status bindable answered pairs =>
    rename_i db answers
    rw [withManager_quiet] at step
    · refine ⟨_, step, rfl, rfl, ?_, ?_⟩
      · show (varId, subsId) ∈ db.pairs
        rw [pairs, variableId_fields, if_neg]
        · exact List.mem_cons_self
        · intro defined
          obtain ⟨i, maps⟩ := Client.SubscriptionDb.defined_iff.mp defined
          exact empty varId i maps
      · show (d.manager.requestPool.popSubscriptionRequests (variableId varId.group varId.name)).2 = _
        rw [variableId_fields]
    · rfl
  | unasked none =>
    rw [variableId_fields] at none
    exact absurd none some
  | refused some status => cases status
  | clashing some status undefined used =>
    obtain ⟨v, maps⟩ := Client.SubscriptionDb.masterDefined_iff.mp used
    exact absurd maps (empty v _)
  | oddSubscription some status => exact absurd rfl status.2
  | unexpected e other noSubscription => exact absurd rfl (noSubscription _)

/-- The client cannot make sense of a reply that nobody waits for. -/
theorem unasked {varId : VariableId} {later : List Message} (pending : d.manager.phase = .receiving)
    (head : d.toClient = Server.alreadySubscribed ⟨varId.group, varId.name⟩ :: later)
    (none : d.manager.requestPool.subscriptionRequests varId = []) :
    Client.ConnectionManager.dispatch (Server.alreadySubscribed ⟨varId.group, varId.name⟩) d.manager =
      .error (.unexpectedMessage .subscriptionRep) (d.manager.poppedSubscriptions varId) ∧
    Step d .replied ({ d with toClient := later }.withManager (Client.ConnectionManager.caught
      (.error (.unexpectedMessage .subscriptionRep) (d.manager.poppedSubscriptions varId)))) := by
  have step := replied_as_is pending head
  rw [← variableId_fields varId] at none
  have raised : Client.ConnectionManager.dispatch (Server.alreadySubscribed ⟨varId.group, varId.name⟩) d.manager =
      .error (.unexpectedMessage .subscriptionRep) (d.manager.poppedSubscriptions (variableId varId.group varId.name)) :=
    if_pos none
  rw [variableId_fields] at raised
  rw [raised] at step
  exact ⟨raised, step⟩

/-! ## Two runs -/

def altitude : VariableId := variableId (text "fcu") (text "alt")

theorem altitude_fits : Fits (.subscriptionReq ⟨altitude.group, altitude.name⟩) ∧
    Fits (Server.subscribed ⟨altitude.group, altitude.name⟩ 1) ∧
    Fits (Server.alreadySubscribed ⟨altitude.group, altitude.name⟩) := by
  rw [fits_subscriptionReq, Server.fits_subscribed, Server.fits_alreadySubscribed]
  decide

/-- A subscription from the request to the reply. -/
theorem run_exchange : ∃ d : Duplex Registry,
    Run (Meeting Step fun d e => Patient d e ∧ Roomy d e) (opened Registry.empty) d ∧ d.toServer = [] ∧ d.toClient = [] ∧
      d.manager.state.connected = true ∧ d.manager.db.Maps altitude 1 := by
  obtain ⟨asks, grants, -⟩ := altitude_fits
  have asked : Run (Meeting Step fun d e => Patient d e ∧ Roomy d e) (opened Registry.empty)
      ((opened Registry.empty).asking altitude 0) :=
    run_asking rfl List.not_mem_nil asks ⟨True.intro, True.intro⟩ ⟨fun _ => .inl rfl, fun _ => by
      show 8 + altitude.group.length + altitude.name.length ≤ 1024
      decide⟩
  obtain ⟨p, requested, -⟩ := granted (d := (opened Registry.empty).asking altitude 0) rfl rfl rfl rfl
  have roomy : Roomy ((opened Registry.empty).asking altitude 0) .requested := by
    intro req later head new
    cases head
    show 15 + altitude.group.length + altitude.name.length ≤ 1024
    decide
  rw [if_pos grants] at requested
  obtain ⟨m, replied, pending, state, maps, pool⟩ := bound altitude 1 [] (d := { (opened Registry.empty).asking altitude 0 with
    peer := Server.answered p (Server.subscribed ⟨altitude.group, altitude.name⟩ 1)
    toServer := []
    toClient := [] ++ [Server.subscribed ⟨altitude.group, altitude.name⟩ 1] }) rfl rfl nofun rfl
  exact ⟨_, (asked.next ⟨requested, True.intro, roomy⟩).next ⟨replied, True.intro, True.intro⟩, rfl, rfl,
    congrArg Client.ConnectionState.connected state, maps⟩

theorem answered_writing {p : Server.Peer δ} {rep : Message} (fits : Fits rep) :
    (Server.answered p rep).session.phase = .writing := by
  rw [Server.answered, if_pos fits]

/-- Two requests for one variable: the second reply is one that the client does not expect. -/
theorem run_twice : ∃ d : Duplex Registry, Run Step (opened Registry.empty) d ∧ d.Up ∧
    d.toClient = [Server.alreadySubscribed ⟨altitude.group, altitude.name⟩] ∧
    d.manager.requestPool.subscriptionRequests altitude = [] := by
  obtain ⟨asks, grants, repeats⟩ := altitude_fits
  have once : Run (Meeting Step fun _ _ => True) (opened Registry.empty) ((opened Registry.empty).asking altitude 0) :=
    run_asking rfl List.not_mem_nil asks True.intro True.intro
  have twice : Run (Meeting Step fun _ _ => True) ((opened Registry.empty).asking altitude 0)
      (((opened Registry.empty).asking altitude 0).asking altitude 1) :=
    run_asking rfl List.not_mem_nil asks True.intro True.intro
  obtain ⟨p, requested, single⟩ := granted (d := ((opened Registry.empty).asking altitude 0).asking altitude 1) rfl rfl rfl rfl
  rw [if_pos grants] at requested
  obtain ⟨d, granted, manager, server, client, writing, covers⟩ : ∃ d : Duplex Registry,
      Step (((opened Registry.empty).asking altitude 0).asking altitude 1) .requested d ∧
      d.manager = (((opened Registry.empty).asking altitude 0).asking altitude 1).manager ∧
      d.toServer = [.subscriptionReq ⟨altitude.group, altitude.name⟩] ∧
      d.toClient = [Server.subscribed ⟨altitude.group, altitude.name⟩ 1] ∧ d.peer.session.phase = .writing ∧
      d.peer.session.subscriptions.Covers altitude := by
    refine ⟨_, requested, rfl, rfl, rfl, answered_writing grants, ?_⟩
    rw [Server.answered_subscriptions]
    exact (SubscriptionMapper.covers_single single).mpr rfl
  have wrote := @Step.wrote _ _ d 0 writing
  obtain ⟨q, repeated⟩ := duplicated (d := { d with peer := { d.peer with session := d.peer.session.onWriteMessage (.ok 0) } })
    rfl server covers repeats
  obtain ⟨m, replied, pending, state, -, pool⟩ := bound altitude 1 [Server.alreadySubscribed ⟨altitude.group, altitude.name⟩]
    (d := { d with
      peer := q
      toServer := []
      toClient := d.toClient ++ [Server.alreadySubscribed ⟨altitude.group, altitude.name⟩] })
    (by rw [manager]; rfl) (by rw [client]; rfl) (by rw [manager]; nofun) (by rw [manager]; rfl)
  refine ⟨_, ((((once.trans twice).forget.next granted).next wrote).next repeated).next replied, ⟨?_, pending⟩, rfl, ?_⟩
  · show m.state.connected = true
    rw [state, manager]
    rfl
  · show m.requestPool.subscriptionRequests altitude = []
    rw [pool]
    exact Client.RequestPool.popSubscriptionRequests_none ..

/-! ## Replies -/

/-- The connection is up, and its link has a property. -/
def Linked (live : δ → Set SubscriptionId) (P : Link VariableId SubscriptionId → Prop) (d : Duplex δ) : Prop :=
  d.Up ∧ ∃ l, Abstracts live d l ∧ Link.Agreed capacity l ∧ P l

theorem opened_linked (delegate : δ) {P : Link VariableId SubscriptionId → Prop} (start : P Link.empty) :
    Linked live P (opened delegate) :=
  ⟨opened_up delegate, Link.empty, opened_abstracts live delegate, Link.empty_agreed capacity, start⟩

theorem patient_link (abstracts : Abstracts live d l) (patient : Patient d e) {a : Link.Action VariableId}
    (mirrors : Mirrors d e a) : Link.Patient capacity l a := by
  cases a with
  | ask varId =>
    obtain ⟨req, rfl, rfl, undefined⟩ := mirrors
    rw [Link.Patient, mem_asked abstracts, not_not, capacity, decide_eq_false_iff_not, not_le]
    exact patient undefined
  | _ => exact True.intro

theorem Linked.step_orderly (accountable : Accountable live) (linked : Linked live (Link.Orderly capacity) d) (step : Step d e d')
    (patient : Patient d e) : Linked live (Link.Orderly capacity) d' := by
  obtain ⟨up, l, abstracts, agreed, orderly⟩ := linked
  rcases step.simulated accountable abstracts agreed up with ⟨up', l', abstracts', rfl | ⟨a, next, mirrors⟩⟩ | ⟨-, broken⟩
  · exact ⟨up', l', abstracts', agreed, orderly⟩
  · exact ⟨up', l', abstracts', agreed.step next, orderly.step agreed next (patient_link abstracts patient mirrors)⟩
  · exact absurd broken (orderly.unbroken agreed)

/-- As long as no variable is asked for twice at a time, the connection stays up, and the
    client can make sense of the next reply. -/
theorem replies_expected (accountable : Accountable live) {delegate : δ} (run : Run (Meeting Step Patient) (opened delegate) d) :
    d.manager.state.connected = true ∧ d.manager.phase = .receiving ∧ ∀ msg later, d.toClient = msg :: later →
      ∃ m, Client.ConnectionManager.dispatch msg d.manager = .ok () m := by
  obtain ⟨up, l, abstracts, agreed, orderly⟩ : Linked live (Link.Orderly capacity) d :=
    run.invariant (opened_linked delegate (Link.empty_orderly capacity)) fun linked step =>
      linked.step_orderly accountable step.1 step.2
  refine ⟨up.1, up.2, fun msg later head => ?_⟩
  have effect := Client.ConnectionManager.dispatch_effect d.manager msg
  have followed := replied_follows abstracts up head d.manager.inputBuffer d.manager.received d.manager.decoded
  rw [show advanced d.manager d.manager.inputBuffer d.manager.received d.manager.decoded = d.manager from rfl] at followed
  cases result : Client.ConnectionManager.dispatch msg d.manager with
  | ok a m => exact ⟨m, rfl⟩
  | error e m =>
    rw [result] at effect followed
    rcases followed with ⟨still, -⟩ | ⟨-, broken⟩
    · have down := replied_down (d := { d with toClient := later }) (m := m) effect.not_eof
      rw [Up, down.1] at still
      cases still.1
    · exact absurd broken (orderly.unbroken agreed)

theorem replies_expected_exchange : ∃ d : Duplex Registry, Run (Meeting Step Patient) (opened Registry.empty) d ∧
    d.manager.db.Maps altitude 1 ∧ d.manager.state.connected = true := by
  obtain ⟨d, run, -, -, -, maps⟩ := run_exchange
  have patient : Run (Meeting Step Patient) (opened Registry.empty) d := run.weaken And.left
  exact ⟨d, patient, maps, (replies_expected Registry.lawful.toAccountable patient).1⟩

/-- A variable that two threads ask for: the second reply disconnects the client with an error. -/
theorem reply_unexpected : ∃ (d d' : Duplex Registry) (msg : Message) (later : List Message) (m : Client.ConnectionManager),
    Run Step (opened Registry.empty) d ∧ d.toClient = msg :: later ∧
      Client.ConnectionManager.dispatch msg d.manager = .error (.unexpectedMessage .subscriptionRep) m ∧
      Step d .replied d' ∧ d'.manager.state = ⟨false, some .communication⟩ := by
  obtain ⟨d, run, up, head, none⟩ := run_twice
  obtain ⟨raised, step⟩ := unasked up.2 head none
  refine ⟨d, _, _, _, _, run, head, raised, step, ?_⟩
  show d.manager.state.disconnectWithError _ = _
  rw [Client.ConnectionState.disconnectWithError, if_pos up.1]

/-! ## Quiescence -/

theorem audible_link (roomy : Roomy d e) {a : Link.Action VariableId} (mirrors : Mirrors d e a) :
    Link.Audible capacity a := by
  cases a with
  | ask varId =>
    obtain ⟨req, rfl, rfl, undefined⟩ := mirrors
    exact decide_eq_true (roomy undefined)
  | grant varId =>
    obtain ⟨rfl, ⟨later, head⟩, new, subsId, delegate, executed⟩ := mirrors
    have room := roomy _ later head
    rw [variableId_fields, executed] at room
    exact decide_eq_true (room new)
  | refuse varId =>
    obtain ⟨rfl, ⟨later, head⟩, new, error, delegate, raised⟩ := mirrors
    have room := roomy _ later head
    rw [variableId_fields, raised] at room
    exact decide_eq_true (room new)
  | other => exact True.intro

theorem Linked.step_answered (accountable : Accountable live) (linked : Linked live (Link.Answered capacity) d ∨ d.Down)
    (step : Step d e d') (roomy : Roomy d e) : Linked live (Link.Answered capacity) d' ∨ d'.Down := by
  rcases linked with ⟨up, l, abstracts, agreed, answered⟩ | down
  · rcases step.simulated accountable abstracts agreed up with ⟨up', l', abstracts', rfl | ⟨a, next, mirrors⟩⟩ | ⟨down, -⟩
    · exact .inl ⟨up', l', abstracts', agreed, answered⟩
    · exact .inl ⟨up', l', abstracts', agreed.step next, answered.step agreed next (audible_link roomy mirrors)⟩
    · exact .inr down
  · exact .inr (step.down down)

/-- As long as no message is too long for its buffer, nobody waits when the connection is up
    and nothing is on its way, and both ends know the same subscriptions. -/
theorem ends_agree (accountable : Accountable live) {delegate : δ} (run : Run (Meeting Step Roomy) (opened delegate) d)
    (connected : d.manager.state.connected = true) (noRequest : d.toServer = []) (noReply : d.toClient = []) :
    d.manager.requestPool = .empty ∧
      ∀ varId subsId, d.manager.db.Maps varId subsId ↔ d.peer.session.subscriptions.Maps varId subsId := by
  have linked : Linked live (Link.Answered capacity) d ∨ d.Down :=
    run.invariant (I := fun d => Linked live (Link.Answered capacity) d ∨ d.Down)
      (.inl (opened_linked delegate (Link.empty_answered capacity))) fun linked step =>
        Linked.step_answered accountable linked step.1 step.2
  rcases linked with ⟨up, l, ⟨held, asked, ending, registered, toServer, toClient, alive⟩, agreed, answered⟩ | down
  · rw [noRequest] at toServer
    rw [noReply] at toClient
    obtain ⟨noAsked, noEnding, same⟩ := answered.settled agreed (List.forall₂_nil_left_iff.mp toServer)
      (List.forall₂_nil_left_iff.mp toClient)
    rw [noAsked] at asked
    rw [noEnding] at ending
    refine ⟨?_, fun varId subsId => ?_⟩
    · cases pool : d.manager.requestPool with
      | mk subsReqs unsubsReqs =>
        rw [pool] at asked ending
        have noSubscriptions : subsReqs = [] := List.map_eq_nil_iff.mp asked
        have noUnsubscriptions : unsubsReqs = [] := List.map_eq_nil_iff.mp ending
        rw [noSubscriptions, noUnsubscriptions]
        rfl
    · rw [Client.SubscriptionDb.Maps, SubscriptionMapper.Maps, held, registered]
      exact same (varId, subsId)
  · rw [down.1] at connected
    cases connected

theorem ends_agree_exchange : ∃ d : Duplex Registry, Run (Meeting Step Roomy) (opened Registry.empty) d ∧
    d.manager.db.Maps altitude 1 ∧ d.manager.requestPool = .empty ∧ d.peer.session.subscriptions.Maps altitude 1 := by
  obtain ⟨d, run, noRequest, noReply, connected, maps⟩ := run_exchange
  have roomy : Run (Meeting Step Roomy) (opened Registry.empty) d := run.weaken And.right
  obtain ⟨pool, same⟩ := ends_agree Registry.lawful.toAccountable roomy connected noRequest noReply
  exact ⟨d, roomy, maps, pool, (same altitude 1).mp maps⟩

/-- A variable of 1010 bytes is granted, and the client never hears of it. -/
theorem ends_differ : ∃ (d : Duplex Registry) (varId : VariableId), Run Step (opened Registry.empty) d ∧
    d.manager.state.connected = true ∧ d.toServer = [] ∧ d.toClient = [] ∧ d.manager.tasks = [] ∧
      d.manager.requestPool ≠ .empty ∧ d.peer.session.subscriptions.Maps varId 1 ∧ ¬ d.manager.db.Maps varId 1 := by
  have group : (variableId (letters 1010) []).group.length = 1010 := by rw [variableId_group_length, letters_length]
  have name : (variableId (letters 1010) []).name.length = 0 := rfl
  generalize variableId (letters 1010) [] = varId at group name
  have asks : Fits (.subscriptionReq ⟨varId.group, varId.name⟩) := by
    rw [fits_subscriptionReq, capacity, decide_eq_true_iff]
    omega
  have grants : ¬ Fits (Server.subscribed ⟨varId.group, varId.name⟩ 1) := by
    rw [Server.fits_subscribed]
    show ¬ 15 + varId.group.length + varId.name.length ≤ 1024
    omega
  have asked : Run (Meeting Step fun _ _ => True) (opened Registry.empty) ((opened Registry.empty).asking varId 0) :=
    run_asking rfl List.not_mem_nil asks True.intro True.intro
  obtain ⟨p, requested, single⟩ := granted (d := (opened Registry.empty).asking varId 0) rfl rfl rfl rfl
  rw [if_neg grants] at requested
  refine ⟨_, varId, asked.forget.next requested, rfl, rfl, rfl, rfl, fun pool => ?_, ?_, List.not_mem_nil⟩
  · exact List.cons_ne_nil _ _ (congrArg Client.RequestPool.subsReqs pool)
  · rw [Server.answered_subscriptions]
    exact (SubscriptionMapper.maps_single single).mpr ⟨rfl, rfl⟩

end Duplex
end Oac
