import Oac.Base.LinkReplies
import Oac.Client.Receive
import Oac.Server.Requests

/-!
# Duplex

A connection manager and a session of the server, joined by channels that deliver whole
messages in order. What happens to the two ends and the channels is what a link does
(`Step.simulated`), up to the moment when the connection breaks.
-/
namespace Oac
open Base Proto FlightVars
set_option linter.unusedSectionVars false

/-- The two ends of a connection, and the messages on their way. -/
structure Duplex (δ : Type) where
  manager : Client.ConnectionManager
  peer : Server.Peer δ
  toServer : List Message
  toClient : List Message

namespace Duplex

/-- What happens to the two ends. -/
inductive Event where
  | submitted (submission : Client.Submission)
  | ran (task : Client.Task)
  | requested
  | wrote
  | notified (varId : VariableId) (varValue : VariableValue)
  | replied

variable {δ : Type}

/-- The manager after it has taken some bytes off its connection. -/
def advanced (m : Client.ConnectionManager) (inputBuffer : RingBuffer) (received : List UInt8) (decoded : List Message) :
    Client.ConnectionManager := { m with inputBuffer, received, decoded }

/-- The session after it has taken some bytes off its connection. -/
def served (s : Server.Session) (inputBuffer : RingBuffer) (received : List UInt8) (handled : List (Nat × Message)) :
    Server.Session := { s with inputBuffer, received, handled }

/-- What the manager has sent gets on its way. -/
def withManager (d : Duplex δ) (manager : Client.ConnectionManager) : Duplex δ :=
  { d with
    manager
    toServer := d.toServer ++ manager.sent.drop d.manager.sent.length }

/-- What the session has written gets on its way. -/
def withPeer (d : Duplex δ) (peer : Server.Peer δ) : Duplex δ :=
  { d with
    peer
    toClient := d.toClient ++ peer.session.written.drop d.peer.session.written.length }

theorem withManager_sent (d : Duplex δ) {manager : Client.ConnectionManager} {more : List Message}
    (sent : manager.sent = d.manager.sent ++ more) :
    d.withManager manager = { d with manager, toServer := d.toServer ++ more } := by
  rw [withManager, sent, List.drop_left]

theorem withManager_quiet (d : Duplex δ) {manager : Client.ConnectionManager} (sent : manager.sent = d.manager.sent) :
    d.withManager manager = { d with manager } := by
  rw [withManager, sent, List.drop_length, List.append_nil]

theorem withPeer_written (d : Duplex δ) {peer : Server.Peer δ} {more : List Message}
    (written : peer.session.written = d.peer.session.written ++ more) :
    d.withPeer peer = { d with peer, toClient := d.toClient ++ more } := by
  rw [withPeer, written, List.drop_left]

theorem withPeer_quiet (d : Duplex δ) {peer : Server.Peer δ} (written : peer.session.written = d.peer.session.written) :
    d.withPeer peer = { d with peer } := by
  rw [withPeer, written, List.drop_length, List.append_nil]

/-- The two ends after the greetings. -/
def opened (delegate : δ) : Duplex δ where
  manager := { Client.ConnectionManager.connecting with phase := .receiving }
  peer := ⟨{ Server.Session.accepted with phase := .readingRequest }, delegate⟩
  toServer := []
  toClient := []

section
variable [FlightVars δ]

/-- The steps of the two ends. Tasks may run in any order. -/
inductive Step : Duplex δ → Event → Duplex δ → Prop
  | submitted {d : Duplex δ} {submission : Client.Submission} :
      Step d (.submitted submission) { d with manager := d.manager.submit submission }
  | ran {d : Duplex δ} {task : Client.Task} {before later : List Client.Task}
      (posted : d.manager.tasks = before ++ task :: later) :
      Step d (.ran task)
        (d.withManager (after (Client.ConnectionManager.runTask task { d.manager with tasks := before ++ later })))
  | requested {d : Duplex δ} {msg : Message} {later : List Message} {inputBuffer : RingBuffer} {received : List UInt8}
      {handled : List (Nat × Message)} (pending : d.peer.session.phase = .readingRequest) (head : d.toServer = msg :: later) :
      Step d .requested ({ d with toServer := later }.withPeer
        (Server.Peer.caught (Server.Peer.dispatch msg ⟨served d.peer.session inputBuffer received handled, d.peer.delegate⟩)))
  | wrote {d : Duplex δ} {bytesTransferred : Nat} (pending : d.peer.session.phase = .writing) :
      Step d .wrote { d with peer := { d.peer with session := d.peer.session.onWriteMessage (.ok bytesTransferred) } }
  | notified {d : Duplex δ} {varId : VariableId} {varValue : VariableValue} :
      Step d (.notified varId varValue)
        (d.withPeer { d.peer with session := after (d.peer.session.sendVarUpdate varId varValue) })
  | replied {d : Duplex δ} {msg : Message} {later : List Message} {inputBuffer : RingBuffer} {received : List UInt8}
      {decoded : List Message} (pending : d.manager.phase = .receiving) (head : d.toClient = msg :: later) :
      Step d .replied ({ d with toClient := later }.withManager
        (Client.ConnectionManager.caught (Client.ConnectionManager.dispatch msg (advanced d.manager inputBuffer received decoded))))

/-- A read of the client that brings the next message is a step. -/
theorem replied_of_read {d : Duplex δ} {msg : Message} {later : List Message} {block : List UInt8} {buff : RingBuffer}
    (pending : d.manager.phase = .receiving) (head : d.toClient = msg :: later)
    (decoded : deserializeFrom (d.manager.filled block) = .ok msg buff) :
    Step d .replied ({ d with toClient := later }.withManager (after (d.manager.onMessageReceived (.ok block)))) := by
  have result : after (d.manager.onMessageReceived (.ok block)) = Client.ConnectionManager.caught
      (Client.ConnectionManager.dispatch msg (d.manager.taken block buff msg)) := by
    rw [Client.ConnectionManager.onMessageReceived_ok pending, after_ok, Client.ConnectionManager.receive,
      ok_bind (Client.ConnectionManager.deserializeInput_ok decoded)]
  rw [result]
  exact .replied pending head

/-- So is a read of the session. -/
theorem requested_of_read {d : Duplex δ} {msg : Message} {later : List Message} {block : List UInt8} {buff : RingBuffer}
    (pending : d.peer.session.phase = .readingRequest) (head : d.toServer = msg :: later)
    (decoded : Server.Session.unmarshall (d.peer.session.filled block) = .ok msg buff) :
    Step d .requested ({ d with toServer := later }.withPeer (after (Server.Peer.onReadRequest (.ok block) d.peer))) := by
  have result : after (Server.Peer.onReadRequest (.ok block) d.peer) = Server.Peer.caught
      (Server.Peer.dispatch msg ⟨d.peer.session.taken block buff msg, d.peer.delegate⟩) := by
    rw [Server.onReadRequest_ok]
    exact congrArg Server.Peer.caught (ok_bind (Server.onSession_ok (Server.unmarshallInput_ok decoded)))
  rw [result]
  exact .requested pending head

/-! ## The link -/

end

/-- What fits into output buffers. -/
def capacity : Link.Capacity VariableId where
  asks v := decide (8 + v.group.length + v.name.length ≤ 1024)
  grants v := decide (15 + v.group.length + v.name.length ≤ 1024)
  duplicates v := decide (42 + v.group.length + v.name.length ≤ 1024)
  refuses v := decide (77 + v.group.length + v.name.length ≤ 1024)
  duplicates_of_refuses fits := decide_eq_true (by have fits := of_decide_eq_true fits; omega)
  grants_of_duplicates fits := decide_eq_true (by have fits := of_decide_eq_true fits; omega)

/-- What a message of the client says. -/
inductive Says : Message → Link.Request VariableId SubscriptionId → Prop
  | ask (varId : VariableId) : Says (.subscriptionReq ⟨varId.group, varId.name⟩) (.ask varId)
  | release (subsId : SubscriptionId) : Says (.unsubscriptionReq ⟨subsId⟩) (.release subsId)
  | other (msg : VarUpdateMessage) : Says (.varUpdate msg) .other

/-- What a message of the server says. -/
inductive Replies : Message → Link.Reply VariableId SubscriptionId → Prop
  | granted {msg : SubscriptionReplyMessage} (status : msg.st = .subscribed) :
      Replies (.subscriptionRep msg) (.granted (variableId msg.varGrp msg.varName) msg.subsId)
  | refused {msg : SubscriptionReplyMessage} (status : msg.st = .noSuchVar) :
      Replies (.subscriptionRep msg) (.refused (variableId msg.varGrp msg.varName))
  | duplicate {msg : SubscriptionReplyMessage} (status : msg.st = .varAlreadySubscribed) :
      Replies (.subscriptionRep msg) (.duplicate (variableId msg.varGrp msg.varName))
  | released {msg : UnsubscriptionReplyMessage} (status : msg.st = .unsubscribed) :
      Replies (.unsubscriptionRep msg) (.released msg.subsId)
  | other (msg : VarUpdateMessage) : Replies (.varUpdate msg) .other

/-- The link between the two ends. -/
structure Abstracts (live : δ → Set SubscriptionId) (d : Duplex δ) (l : Link VariableId SubscriptionId) : Prop where
  held : d.manager.db.pairs = l.held
  asked : d.manager.requestPool.subsReqs.map Client.SubscriptionRequest.varId = l.asked
  ending : d.manager.requestPool.unsubsReqs.map Client.UnsubscriptionRequest.masterSubsId = l.ending
  registered : d.peer.session.subscriptions.entries = l.registered
  toServer : List.Forall₂ Says d.toServer l.toServer
  toClient : List.Forall₂ Replies d.toClient l.toClient
  alive : ∀ {id}, d.peer.session.subscriptions.Owns id → id ∈ live d.peer.delegate

/-- The manager receives. -/
def Up (d : Duplex δ) : Prop := d.manager.state.connected = true ∧ d.manager.phase = .receiving

/-- The receive loop of the manager has ended with an error. -/
def Down (d : Duplex δ) : Prop := d.manager.state.connected = false ∧ d.manager.phase = .stopped

theorem opened_up (delegate : δ) : (opened delegate).Up := ⟨rfl, rfl⟩

theorem opened_abstracts (live : δ → Set SubscriptionId) (delegate : δ) : Abstracts live (opened delegate) Link.empty where
  held := rfl
  asked := rfl
  ending := rfl
  registered := rfl
  toServer := List.Forall₂.nil
  toClient := List.Forall₂.nil
  alive owns := absurd owns SubscriptionMapper.not_owns_empty

section
variable [FlightVars δ]

/-- The event is the action of the link. -/
def Mirrors (d : Duplex δ) (e : Event) : Link.Action VariableId → Prop
  | .ask varId => ∃ req, e = .ran (.subscription req) ∧ req.varId = varId ∧ ¬ d.manager.db.Defined varId
  | .grant varId => e = .requested ∧ (∃ later, d.toServer = .subscriptionReq ⟨varId.group, varId.name⟩ :: later) ∧
      ¬ d.peer.session.subscriptions.Covers varId ∧ ∃ subsId delegate, subscribe varId d.peer.delegate = .ok subsId delegate
  | .refuse varId => e = .requested ∧ (∃ later, d.toServer = .subscriptionReq ⟨varId.group, varId.name⟩ :: later) ∧
      ¬ d.peer.session.subscriptions.Covers varId ∧ ∃ error delegate, subscribe varId d.peer.delegate = .error error delegate
  | .other => True

/-- What has happened is what the link does, if anything. -/
def Follows (live : δ → Set SubscriptionId) (d : Duplex δ) (e : Event) (d' : Duplex δ) (l : Link VariableId SubscriptionId) : Prop :=
  ∃ l', Abstracts live d' l' ∧ (l' = l ∨ ∃ a, Link.Step capacity l a l' ∧ Mirrors d e a)

variable {live : δ → Set SubscriptionId} {d d' : Duplex δ} {e : Event} {l : Link VariableId SubscriptionId}

theorem Follows.same (abstracts : Abstracts live d' l) : Follows live d e d' l := ⟨l, abstracts, .inl rfl⟩

theorem Follows.next {a : Link.Action VariableId} {l' : Link VariableId SubscriptionId} (step : Link.Step capacity l a l')
    (mirrors : Mirrors d e a) (abstracts : Abstracts live d' l') : Follows live d e d' l :=
  ⟨l', abstracts, .inr ⟨a, step, mirrors⟩⟩

theorem held_variables (abstracts : Abstracts live d l) (varId : VariableId) :
    varId ∈ l.held.map Prod.fst ↔ d.manager.db.Defined varId := by
  rw [← abstracts.held, Client.SubscriptionDb.pairs_variables]
  rfl

theorem held_masters (abstracts : Abstracts live d l) (subsId : SubscriptionId) :
    subsId ∈ l.held.map Prod.snd ↔ d.manager.db.MasterDefined subsId := by
  rw [← abstracts.held, Client.SubscriptionDb.pairs_masters]
  rfl

theorem mem_asked (abstracts : Abstracts live d l) (varId : VariableId) :
    varId ∈ l.asked ↔ d.manager.requestPool.subscriptionRequests varId ≠ [] := by
  rw [← abstracts.asked, List.mem_map, Client.RequestPool.subscriptionRequests, ne_eq, List.filter_eq_nil_iff]
  simp

theorem mem_ending (abstracts : Abstracts live d l) (subsId : SubscriptionId) :
    subsId ∈ l.ending ↔ d.manager.requestPool.unsubscriptionRequests subsId ≠ [] := by
  rw [← abstracts.ending, List.mem_map, Client.RequestPool.unsubscriptionRequests, ne_eq, List.filter_eq_nil_iff]
  simp

theorem popped_asked (abstracts : Abstracts live d l) (varId : VariableId) :
    (d.manager.requestPool.popSubscriptionRequests varId).2.subsReqs.map Client.SubscriptionRequest.varId =
      l.asked.filter fun w => w ≠ varId := by
  rw [← abstracts.asked, List.filter_map]
  rfl

theorem popped_ending (abstracts : Abstracts live d l) (subsId : SubscriptionId) :
    (d.manager.requestPool.popUnsubscriptionRequests subsId).2.unsubsReqs.map Client.UnsubscriptionRequest.masterSubsId =
      l.ending.filter fun i => i ≠ subsId := by
  rw [← abstracts.ending, List.filter_map]
  rfl

/-! ## Tasks -/

theorem fits_subscriptionReq (varId : VariableId) :
    Fits (.subscriptionReq ⟨varId.group, varId.name⟩) ↔ capacity.asks varId = true := by
  rw [fits_iff, capacity, decide_eq_true_iff]
  rfl

theorem ran_follows (abstracts : Abstracts live d l) (up : d.Up) {task : Client.Task} {tasks : List Client.Task}
    {m : Client.ConnectionManager} (effect : Client.ConnectionManager.TaskEffect { d.manager with tasks := tasks } task m) :
    (d.withManager m).Up ∧ Follows live d (.ran task) (d.withManager m) l := by
  obtain ⟨held, asked, ending, registered, toServer, toClient, alive⟩ := id abstracts
  have quiet : m.sent = d.manager.sent → d.withManager m = { d with manager := m } := withManager_quiet d
  have sends := @withManager_sent _ d m
  cases effect with
  | bound virtSubsId same =>
    rw [quiet rfl]
    exact ⟨up, .same ⟨same.trans held, asked, ending, registered, toServer, toClient, alive⟩⟩
  | requested undefined =>
    rename_i req
    rw [sends rfl]
    refine ⟨up, .next (.ask (v := req.varId) ?_) ⟨req, rfl, rfl, undefined⟩
      ⟨held, ?_, ending, registered, ?_, toClient, alive⟩⟩
    · rw [held_variables abstracts]
      exact undefined
    · show (d.manager.requestPool.subsReqs ++ [req]).map _ = _
      rw [List.map_append, asked]
      rfl
    · refine List.rel_append toServer ?_
      by_cases fits : Fits (.subscriptionReq ⟨req.varId.group, req.varId.name⟩)
      · rw [if_pos fits, Link.said, if_pos ((fits_subscriptionReq _).mp fits)]
        exact .cons (.ask req.varId) .nil
      · rw [if_neg fits, Link.said, if_neg ((fits_subscriptionReq _).not.mp fits)]
        exact .nil
  | unbound same =>
    rw [quiet rfl]
    exact ⟨up, .same ⟨same.trans held, asked, ending, registered, toServer, toClient, alive⟩⟩
  | ended maps removed less =>
    rename_i req db varId masterSubsId
    rw [sends rfl]
    refine ⟨up, .next (.release (v := varId) (i := masterSubsId) ?_) True.intro
      ⟨?_, asked, ?_, registered, ?_, toClient, alive⟩⟩
    · rw [← held]
      exact maps
    · show db.pairs = _
      rw [less, ← held]
    · show (d.manager.requestPool.unsubsReqs ++ [{ req with masterSubsId }]).map _ = _
      rw [List.map_append, ending]
      rfl
    · exact List.rel_append toServer (.cons (.release masterSubsId) .nil)
  | updated masterSubsId =>
    rw [sends rfl]
    exact ⟨up, .next .tell True.intro
      ⟨held, asked, ending, registered, List.rel_append toServer (.cons (.other _) .nil), toClient, alive⟩⟩
  | unknown e =>
    rw [quiet rfl]
    exact ⟨up, .same ⟨held, asked, ending, registered, toServer, toClient, alive⟩⟩

/-! ## Requests -/

theorem answered_abstracts {p : Server.Peer δ} {later : List Message} {rep : Message}
    {reply : Link.Reply VariableId SubscriptionId} {can : Bool}
    (abstracts : Abstracts live { d with peer := p, toServer := later } l)
    (written : p.session.written = d.peer.session.written) (fits : Fits rep ↔ can = true) (replies : Replies rep reply) :
    Abstracts live ({ d with toServer := later }.withPeer (Server.answered p rep))
      { l with toClient := l.toClient ++ Link.said can reply } := by
  obtain ⟨held, asked, ending, registered, toServer, toClient, alive⟩ := abstracts
  have written' : (Server.answered p rep).session.written =
      ({ d with toServer := later } : Duplex δ).peer.session.written ++ if Fits rep then [rep] else [] := by
    rw [Server.answered_written, written]
    split
    · rfl
    · exact (List.append_nil _).symm
  rw [withPeer_written _ written']
  refine ⟨held, asked, ending, ?_, toServer, List.rel_append toClient ?_, fun owns => ?_⟩
  · rw [← registered, Server.answered_subscriptions]
  · by_cases short : Fits rep
    · rw [if_pos short, Link.said, if_pos (fits.mp short)]
      exact .cons replies .nil
    · rw [if_neg short, Link.said, if_neg (fits.not.mp short)]
      exact .nil
  · rw [Server.answered_subscriptions] at owns
    rw [Server.answered_delegate]
    exact alive owns

theorem alreadySubscribed_replies (varId : VariableId) :
    Replies (Server.alreadySubscribed ⟨varId.group, varId.name⟩) (.duplicate varId) ∧
      (Fits (Server.alreadySubscribed ⟨varId.group, varId.name⟩) ↔ capacity.duplicates varId = true) := by
  constructor
  · have replies : Replies (Server.alreadySubscribed ⟨varId.group, varId.name⟩)
        (.duplicate (variableId varId.group varId.name)) := .duplicate rfl
    rw [variableId_fields] at replies
    exact replies
  · rw [Server.fits_alreadySubscribed, capacity, decide_eq_true_iff]

theorem subscribed_replies (varId : VariableId) (subsId : SubscriptionId) :
    Replies (Server.subscribed ⟨varId.group, varId.name⟩ subsId) (.granted varId subsId) ∧
      (Fits (Server.subscribed ⟨varId.group, varId.name⟩ subsId) ↔ capacity.grants varId = true) := by
  constructor
  · have replies : Replies (Server.subscribed ⟨varId.group, varId.name⟩ subsId)
        (.granted (variableId varId.group varId.name) subsId) := .granted rfl
    rw [variableId_fields] at replies
    exact replies
  · rw [Server.fits_subscribed, capacity, decide_eq_true_iff]

theorem noSuchVar_replies (varId : VariableId) :
    Replies (Server.noSuchVar ⟨varId.group, varId.name⟩) (.refused varId) ∧
      (Fits (Server.noSuchVar ⟨varId.group, varId.name⟩) ↔ capacity.refuses varId = true) := by
  constructor
  · have replies : Replies (Server.noSuchVar ⟨varId.group, varId.name⟩)
        (.refused (variableId varId.group varId.name)) := .refused rfl
    rw [variableId_fields] at replies
    exact replies
  · rw [Server.fits_noSuchVar, capacity, decide_eq_true_iff]

theorem requested_follows (accountable : Accountable live) (abstracts : Abstracts live d l) (agreed : Link.Agreed capacity l)
    {msg : Message} {later : List Message} (head : d.toServer = msg :: later) (inputBuffer : RingBuffer) (received : List UInt8)
    (handled : List (Nat × Message)) :
    Follows live d .requested ({ d with toServer := later }.withPeer
      (Server.Peer.caught (Server.Peer.dispatch msg ⟨served d.peer.session inputBuffer received handled, d.peer.delegate⟩))) l := by
  obtain ⟨held, asked, ending, registered, toServer, toClient, alive⟩ := id abstracts
  obtain ⟨request, requests, heard, rest, split⟩ := List.forall₂_cons_left_iff.mp (head ▸ toServer)
  cases heard with
  | ask varId =>
    have effect := Server.subscription_effect ⟨served d.peer.session inputBuffer received handled, d.peer.delegate⟩
      ⟨varId.group, varId.name⟩
    have covered : varId ∈ l.registered.map Prod.fst ↔ d.peer.session.subscriptions.Covers varId := by
      rw [← registered]
      rfl
    have owned : ∀ subsId, subsId ∈ l.registered.map Prod.snd ↔ d.peer.session.subscriptions.Owns subsId := by
      intro subsId
      rw [← registered]
      rfl
    cases effect with
    | known covers same =>
      obtain ⟨replies, fits⟩ := alreadySubscribed_replies varId
      rw [variableId_fields] at covers
      rw [same]
      exact .next (.duplicate split (covered.mpr covers)) True.intro
        (answered_abstracts (d := d) (l := { l with toServer := requests })
          ⟨held, asked, ending, registered, rest, toClient, alive⟩ rfl fits replies)
    | granted subsId delegate newVariable executed newSubscription same =>
      obtain ⟨replies, fits⟩ := subscribed_replies varId subsId
      obtain ⟨fresh, more⟩ := accountable.subscribe_fresh executed
      have new : ¬ d.peer.session.subscriptions.Covers varId := by
        rw [variableId_fields] at newVariable
        exact newVariable
      have granted : subscribe varId d.peer.delegate = .ok subsId delegate := by
        rw [variableId_fields] at executed
        exact executed
      rw [same]
      refine .next (.grant split (covered.not.mpr new) ((owned subsId).not.mpr newSubscription))
        ⟨rfl, ⟨later, head⟩, new, subsId, delegate, granted⟩
        (answered_abstracts (d := d) (l := { l with registered := (varId, subsId) :: l.registered, toServer := requests })
          ⟨held, asked, ending, ?_, rest, toClient, fun owns => ?_⟩ rfl fits replies)
      · show (variableId varId.group varId.name, subsId) :: d.peer.session.subscriptions.entries = _
        rw [variableId_fields, registered]
      · rw [more]
        rcases (SubscriptionMapper.owns_insert newVariable newSubscription).mp owns with equal | before
        · exact .inl equal
        · exact .inr (alive before)
    | clashing subsId delegate newVariable executed used same =>
      exact absurd (alive used) (accountable.subscribe_fresh executed).1
    | failed e delegate newVariable raised undeclared same =>
      exact absurd (accountable.subscribe_refused raised).1 (undeclared _)
    | refused unknown delegate newVariable raised same =>
      obtain ⟨replies, fits⟩ := noSuchVar_replies varId
      rw [variableId_fields] at newVariable raised
      rw [same]
      refine .next (.refuse split (covered.not.mpr newVariable)) ⟨rfl, ⟨later, head⟩, newVariable, _, delegate, raised⟩
        (answered_abstracts (d := d) (l := { l with toServer := requests })
          ⟨held, asked, ending, registered, rest, toClient, fun owns => ?_⟩ rfl fits replies)
      rw [(accountable.subscribe_refused raised).2]
      exact alive owns
  | release subsId =>
    have effect := Server.unsubscription_effect accountable.toLedger
      ⟨served d.peer.session inputBuffer received handled, d.peer.delegate⟩ ⟨subsId⟩
    have registered' : subsId ∈ l.registered.map Prod.snd := agreed.releasing (by
      rw [split]
      exact List.mem_cons_self)
    have owned : d.peer.session.subscriptions.Owns subsId := by
      rw [← registered] at registered'
      exact registered'
    cases effect with
    | removed delegate executed owns same =>
      obtain ⟨-, less⟩ := accountable.unsubscribe_done executed
      have fits : Fits (Server.unsubscribed subsId) ↔ true = true := iff_of_true (Server.fits_unsubscribed subsId) rfl
      have erased : Abstracts live
          { d with
            peer := ⟨{ served d.peer.session inputBuffer received handled with
              subscriptions := d.peer.session.subscriptions.erase subsId }, delegate⟩
            toServer := later }
          { l with
            registered := l.registered.filter fun pair => pair.2 ≠ subsId
            toServer := requests } := by
        refine ⟨held, asked, ending, ?_, rest, toClient, fun owns' => ?_⟩
        · rw [← registered]
          rfl
        · obtain ⟨before, other⟩ := SubscriptionMapper.owns_erase.mp owns'
          rw [less]
          exact ⟨alive before, other⟩
      have replied := answered_abstracts (d := d) erased rfl fits (.released rfl)
      rw [same]
      exact .next (.unregister split registered') True.intro replied
    | stolen delegate executed foreign same => exact absurd owned foreign
    | missing delegate raised same => exact absurd (alive owned) (accountable.unsubscribe_refused raised).1
  | other msg =>
    obtain ⟨updates, mapper, silent⟩ := Server.update_effect
      ⟨served d.peer.session inputBuffer received handled, d.peer.delegate⟩ msg
    rw [withPeer_quiet]
    · refine .next (.hear split) True.intro
        ⟨held, asked, ending, (congrArg _ mapper).trans registered, rest, toClient, fun owns => ?_⟩
      rw [updates, accountable.update_kept]
      rw [mapper] at owns
      exact alive owns
    · exact silent

/-! ## Replies -/

/-- A reply that the manager takes. -/
theorem replied_up {later : List Message} {m : Client.ConnectionManager} (connected : m.state.connected = true)
    (sent : m.sent = d.manager.sent) (follows : Follows live d e { d with manager := m, toClient := later } l) :
    ({ d with toClient := later }.withManager (Client.ConnectionManager.caught (.ok () m))).Up ∧
      Follows live d e ({ d with toClient := later }.withManager (Client.ConnectionManager.caught (.ok () m))) l := by
  have quiet : { d with toClient := later }.withManager (Client.ConnectionManager.caught (.ok () m)) =
      { d with manager := { m with phase := .receiving }, toClient := later } := withManager_quiet _ sent
  obtain ⟨l', ⟨held, asked, ending, registered, toServer, toClient, alive⟩, next⟩ := follows
  rw [quiet]
  exact ⟨⟨connected, rfl⟩, l', ⟨held, asked, ending, registered, toServer, toClient, alive⟩, next⟩

/-- A reply that the manager cannot make sense of. -/
theorem replied_down {d : Duplex δ} {e : Exception} {m : Client.ConnectionManager} (other : e ≠ .eof) :
    (d.withManager (Client.ConnectionManager.caught (.error e m))).Down := by
  have stopped : Client.ConnectionManager.caught (.error e m) = Client.ConnectionManager.failed .communication m := by
    cases e <;> first | rfl | exact absurd rfl other
  rw [stopped]
  exact ⟨Client.ConnectionState.disconnectWithError_connected .., rfl⟩

theorem replied_follows (abstracts : Abstracts live d l) (up : d.Up)
    {msg : Message} {later : List Message} (head : d.toClient = msg :: later) (inputBuffer : RingBuffer) (received : List UInt8)
    (decoded : List Message) :
    (({ d with toClient := later }.withManager (Client.ConnectionManager.caught
        (Client.ConnectionManager.dispatch msg (advanced d.manager inputBuffer received decoded)))).Up ∧
      Follows live d .replied ({ d with toClient := later }.withManager (Client.ConnectionManager.caught
        (Client.ConnectionManager.dispatch msg (advanced d.manager inputBuffer received decoded)))) l) ∨
    (({ d with toClient := later }.withManager (Client.ConnectionManager.caught
        (Client.ConnectionManager.dispatch msg (advanced d.manager inputBuffer received decoded)))).Down ∧ l.Broken) := by
  obtain ⟨held, asked, ending, registered, toServer, toClient, alive⟩ := id abstracts
  obtain ⟨reply, replies, heard, rest, split⟩ := List.forall₂_cons_left_iff.mp (head ▸ toClient)
  have effect := Client.ConnectionManager.dispatch_effect (advanced d.manager inputBuffer received decoded) msg
  generalize Client.ConnectionManager.dispatch msg (advanced d.manager inputBuffer received decoded) = result at effect ⊢
  have waits := mem_asked abstracts
  have ends := mem_ending abstracts
  have less := popped_asked abstracts
  have fewer := popped_ending abstracts
  cases effect with
  | unasked none =>
    refine .inr ⟨replied_down nofun, reply, replies, split, ?_⟩
    cases heard with
    | granted status => exact fun acceptable => (waits _).mp acceptable.1 none
    | refused status => exact fun acceptable => (waits _).mp acceptable none
    | duplicate status => exact id
  | refused some status =>
    refine .inl (replied_up ?_ ?_ ?_)
    · exact up.1
    · rfl
    cases heard with
    | granted status' =>
      rw [status] at status'
      cases status'
    | refused status' =>
      exact .next (.refused split ((waits _).mpr some)) True.intro ⟨held, less _, ending, registered, toServer, rest, alive⟩
    | duplicate status' =>
      rw [status] at status'
      cases status'
  | granted some status bindable answered pairs =>
    rename_i msg db answers
    refine .inl (replied_up ?_ ?_ ?_)
    · exact up.1
    · rfl
    cases heard with
    | granted status' =>
      have usable : variableId msg.varGrp msg.varName ∈ l.held.map Prod.fst ∨ msg.subsId ∉ l.held.map Prod.snd := by
        rw [held_variables abstracts, held_masters abstracts]
        exact bindable
      refine .next (.granted split ((waits _).mpr some) usable) True.intro
        ⟨?_, less _, ending, registered, toServer, rest, alive⟩
      show db.pairs = if _ then _ else _
      rw [pairs]
      simp only [advanced, ← held_variables abstracts, held]
    | refused status' =>
      rw [status] at status'
      cases status'
    | duplicate status' =>
      rw [status] at status'
      cases status'
  | clashing some status undefined used =>
    refine .inr ⟨replied_down nofun, reply, replies, split, ?_⟩
    cases heard with
    | granted status' =>
      intro acceptable
      rw [Link.Acceptable, held_variables abstracts, held_masters abstracts] at acceptable
      exact acceptable.2.elim undefined fun unused => unused used
    | refused status' =>
      rw [status] at status'
      cases status'
    | duplicate status' => exact id
  | oddSubscription some status =>
    refine .inr ⟨replied_down (Client.ConnectionManager.unexpectedStatus_not_eof _ _), reply, replies, split, ?_⟩
    cases heard with
    | granted status' => exact absurd status' status.2
    | refused status' => exact absurd status' status.1
    | duplicate status' => exact id
  | unaskedEnd none =>
    refine .inr ⟨replied_down nofun, reply, replies, split, ?_⟩
    cases heard with
    | released status => exact fun acceptable => (ends _).mp acceptable none
  | ended resolution some status =>
    refine .inl (replied_up ?_ ?_ ?_)
    · exact up.1
    · rfl
    cases heard with
    | released status' =>
      exact .next (.released split ((ends _).mpr some)) True.intro
        ⟨held, asked, fewer _, registered, toServer, rest, alive⟩
  | oddEnd some status =>
    refine .inr ⟨replied_down (Client.ConnectionManager.unexpectedStatus_not_eof _ _), reply, replies, split, ?_⟩
    cases heard with
    | released status' => exact absurd status' status.2
  | updated calls errors =>
    refine .inl (replied_up ?_ ?_ ?_)
    · exact up.1
    · rfl
    cases heard with
    | other msg => exact .next (.told split) True.intro ⟨held, asked, ending, registered, toServer, rest, alive⟩
  | unexpected e other noSubscription noUnsubscription noUpdate =>
    cases heard with
    | released status => exact absurd rfl (noUnsubscription _)
    | other msg => exact absurd rfl (noUpdate msg)
    | _ => exact absurd rfl (noSubscription _)

/-! ## Steps -/

theorem sendVarUpdate_updates (varId : VariableId) (varValue : VariableValue) (s : Server.Session) :
    after (s.sendVarUpdate varId varValue) = s ∨
      ∃ msg, after (s.sendVarUpdate varId varValue) = { s with written := s.written ++ [.varUpdate msg] } := by
  unfold Server.Session.sendVarUpdate
  split
  · rename_i subsId _
    have written := Server.Session.writeMessage_fits (Client.ConnectionManager.fits_varUpdate subsId varValue) s
    rw [written]
    exact .inr ⟨_, rfl⟩
  · exact .inl rfl

/-- As long as the manager receives, both ends do what the link does; the manager goes down
    only with a reply that breaks the link. -/
theorem Step.simulated (accountable : Accountable live) (abstracts : Abstracts live d l) (agreed : Link.Agreed capacity l) (up : d.Up)
    (step : Step d e d') :
    (d'.Up ∧ Follows live d e d' l) ∨ (d'.Down ∧ l.Broken) := by
  obtain ⟨held, asked, ending, registered, toServer, toClient, alive⟩ := id abstracts
  cases step with
  | submitted => exact .inl ⟨up, .same ⟨held, asked, ending, registered, toServer, toClient, alive⟩⟩
  | ran posted => exact .inl (ran_follows abstracts up (Client.ConnectionManager.runTask_effect _ _))
  | requested pending head => exact .inl ⟨up, requested_follows accountable abstracts agreed head _ _ _⟩
  | wrote pending => exact .inl ⟨up, .same ⟨held, asked, ending, registered, toServer, toClient, alive⟩⟩
  | notified =>
    rename_i varId varValue
    refine .inl ⟨up, ?_⟩
    rcases sendVarUpdate_updates varId varValue d.peer.session with same | ⟨msg, same⟩
    · rw [same, withPeer_quiet d rfl]
      exact .same ⟨held, asked, ending, registered, toServer, toClient, alive⟩
    · rw [same, withPeer_written]
      · exact .next .notify True.intro
          ⟨held, asked, ending, registered, toServer, List.rel_append toClient (.cons (.other msg) .nil), alive⟩
      · rfl
  | replied pending head => exact replied_follows abstracts up head _ _ _

/-- What is down stays down. -/
theorem Step.down (step : Step d e d') (down : d.Down) : d'.Down := by
  cases step with
  | ran posted =>
    rename_i task before later
    have effect := Client.ConnectionManager.runTask_effect { d.manager with tasks := before ++ later } task
    exact ⟨(congrArg Client.ConnectionState.connected effect.session.2).trans down.1, effect.input.2.trans down.2⟩
  | replied pending head =>
    rw [down.2] at pending
    cases pending
  | _ => exact down

end
end Duplex
end Oac
