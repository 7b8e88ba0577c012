import Oac.Server.Receive

/-!
# Requests of a session

What `on_read_request` does with each kind of request once it is decoded
(`SubscriptionEffect`, `UnsubscriptionEffect`, `update_effect`). A request gets one truthful
reply or has no effect, except that a subscription may have been granted when its reply
turns out too long, or its id may be taken, or the delegate may have failed half-way, and
that a session may remove a subscription it does not own.
-/
namespace Oac.Server
open Base Proto Session Peer FlightVars

section
variable {δ : Type}

/-! ## Replies -/

/-- The peer after the attempt to send a reply. -/
def answered (p : Peer δ) (rep : Message) : Peer δ :=
  if Fits rep then { p with session := { p.session with written := p.session.written ++ [rep], phase := .writing } }
  else { p with session := { p.session with inputBuffer := p.session.inputBuffer.reset, phase := .readingRequest } }

theorem caught_reply (p : Peer δ) (rep : Message) : caught (reply rep p) = answered p rep := by
  unfold answered
  by_cases fits : Fits rep
  · rw [if_pos fits, reply]
    have executed : (writeMessage rep >>= fun _ => await .writing) p.session = .ok () _ :=
      (ok_bind (writeMessage_fits fits p.session)).trans rfl
    rw [onSession_ok executed]
    rfl
  · rw [if_neg fits, reply]
    have raised : (writeMessage rep >>= fun _ => await .writing) p.session = .error .eof _ :=
      error_bind (writeMessage_long fits p.session)
    rw [onSession_error raised]
    rfl

@[simp] theorem answered_delegate (p : Peer δ) (rep : Message) : (answered p rep).delegate = p.delegate := by
  unfold answered
  split <;> rfl

@[simp] theorem answered_subscriptions (p : Peer δ) (rep : Message) :
    (answered p rep).session.subscriptions = p.session.subscriptions := by
  unfold answered
  split <;> rfl

theorem answered_written (p : Peer δ) (rep : Message) :
    (answered p rep).session.written = if Fits rep then p.session.written ++ [rep] else p.session.written := by
  unfold answered
  split <;> rfl

/-! ## Texts and lengths -/

def alreadySubscribed (req : SubscriptionRequestMessage) : Message :=
  .subscriptionRep ⟨.varAlreadySubscribed, req.varGrp, req.varName, 0, alreadySubscribedCause⟩
def subscribed (req : SubscriptionRequestMessage) (subsId : SubscriptionId) : Message :=
  .subscriptionRep ⟨.subscribed, req.varGrp, req.varName, subsId, []⟩
def noSuchVar (req : SubscriptionRequestMessage) : Message :=
  .subscriptionRep ⟨.noSuchVar, req.varGrp, req.varName, 0, noSuchVariableCause⟩
def unsubscribed (subsId : SubscriptionId) : Message := .unsubscriptionRep ⟨.unsubscribed, subsId, []⟩
def noSuchSubscription (subsId : SubscriptionId) : Message :=
  .unsubscriptionRep ⟨.noSuchSubscription, subsId, noSuchSubscriptionCause subsId⟩
def serverError (subsId : SubscriptionId) : Message := .unsubscriptionRep ⟨.unknown, subsId, serverErrorCause subsId⟩

theorem fits_alreadySubscribed (req : SubscriptionRequestMessage) :
    Fits (alreadySubscribed req) ↔ 42 + req.varGrp.length + req.varName.length ≤ 1024 := by
  have cause : alreadySubscribedCause.length = 27 := by decide
  rw [fits_iff]
  simp only [alreadySubscribed, Message.size, cause]
  omega

theorem fits_subscribed (req : SubscriptionRequestMessage) (subsId : SubscriptionId) :
    Fits (subscribed req subsId) ↔ 15 + req.varGrp.length + req.varName.length ≤ 1024 := by
  rw [fits_iff]
  simp only [subscribed, Message.size, List.length_nil, Nat.add_zero]

theorem fits_noSuchVar (req : SubscriptionRequestMessage) :
    Fits (noSuchVar req) ↔ 77 + req.varGrp.length + req.varName.length ≤ 1024 := by
  have cause : noSuchVariableCause.length = 62 := by decide
  rw [fits_iff]
  simp only [noSuchVar, Message.size, cause]
  omega

theorem fits_unsubscribed (subsId : SubscriptionId) : Fits (unsubscribed subsId) := by
  rw [fits_iff]
  show 11 + 0 ≤ 1024
  omega

theorem fits_serverError (subsId : SubscriptionId) : Fits (serverError subsId) := by
  have prose : (text "Server error while unsubscribing from ").length = 38 := by decide
  have digits := decimal_length subsId
  rw [fits_iff]
  simp only [serverError, Message.size, serverErrorCause, List.length_append, prose]
  omega

/-! ## Effects -/

variable [FlightVars δ]

/-- What a subscription request does. -/
inductive SubscriptionEffect (p : Peer δ) (req : SubscriptionRequestMessage) (p' : Peer δ) : Prop
  | known (covers : p.session.subscriptions.Covers (variableId req.varGrp req.varName))
      (same : p' = answered p (alreadySubscribed req))
  | granted (subsId : SubscriptionId) (delegate : δ)
      (newVariable : ¬ p.session.subscriptions.Covers (variableId req.varGrp req.varName))
      (executed : subscribe (variableId req.varGrp req.varName) p.delegate = .ok subsId delegate)
      (newSubscription : ¬ p.session.subscriptions.Owns subsId)
      (same : p' = answered ⟨{ p.session with
        subscriptions := p.session.subscriptions.insert _ subsId newVariable newSubscription }, delegate⟩
        (subscribed req subsId))
  | clashing (subsId : SubscriptionId) (delegate : δ)
      (newVariable : ¬ p.session.subscriptions.Covers (variableId req.varGrp req.varName))
      (executed : subscribe (variableId req.varGrp req.varName) p.delegate = .ok subsId delegate)
      (used : p.session.subscriptions.Owns subsId) (same : p' = ⟨{ p.session with phase := .closed }, delegate⟩)
  | refused (varId : VariableId) (delegate : δ)
      (newVariable : ¬ p.session.subscriptions.Covers (variableId req.varGrp req.varName))
      (raised : subscribe (variableId req.varGrp req.varName) p.delegate = .error (.noSuchVariable varId) delegate)
      (same : p' = answered { p with delegate } (noSuchVar req))
  | failed (e : Exception) (delegate : δ)
      (newVariable : ¬ p.session.subscriptions.Covers (variableId req.varGrp req.varName))
      (raised : subscribe (variableId req.varGrp req.varName) p.delegate = .error e delegate)
      (undeclared : ∀ varId, e ≠ .noSuchVariable varId) (same : p' = caught (.error e { p with delegate }))

theorem subscription_effect (p : Peer δ) (req : SubscriptionRequestMessage) :
    SubscriptionEffect p req (caught (dispatch (.subscriptionReq req) p)) := by
  have bound {rep : SubscriptionReplyMessage} {p' : Peer δ} (executed : handleSubscriptionRequest req p = .ok rep p') :
      caught (dispatch (.subscriptionReq req) p) = answered p' (.subscriptionRep rep) :=
    (congrArg caught (ok_bind executed)).trans (caught_reply p' _)
  by_cases covers : p.session.subscriptions.Covers (variableId req.varGrp req.varName)
  · refine .known covers (bound ?_)
    simp only [handleSubscriptionRequest, SubscriptionMapper.variableExists, covers, decide_true, ↓reduceIte]
  · have unseen : p.session.subscriptions.variableExists (variableId req.varGrp req.varName) = false := by
      rw [SubscriptionMapper.variableExists, decide_eq_false covers]
    cases outcome : subscribe (variableId req.varGrp req.varName) p.delegate with
    | ok subsId delegate =>
      by_cases used : p.session.subscriptions.Owns subsId
      · refine .clashing subsId delegate covers outcome used ?_
        have raised : handleSubscriptionRequest req p = .error (.mapperSubscriptionExists subsId) { p with delegate } := by
          simp only [handleSubscriptionRequest, unseen, Bool.false_eq_true, ↓reduceIte, outcome,
            SubscriptionMapper.registerSubscription_used covers used]
        exact (congrArg caught (error_bind raised)).trans rfl
      · refine .granted subsId delegate covers outcome used (bound ?_)
        simp only [handleSubscriptionRequest, unseen, Bool.false_eq_true, ↓reduceIte, outcome,
          SubscriptionMapper.registerSubscription_new covers used]
    | error e delegate =>
      by_cases declared : ∃ varId, e = .noSuchVariable varId
      · obtain ⟨varId, rfl⟩ := declared
        refine .refused varId delegate covers outcome (bound ?_)
        simp only [handleSubscriptionRequest, unseen, Bool.false_eq_true, ↓reduceIte, outcome]
      · have undeclared : ∀ varId, e ≠ .noSuchVariable varId := not_exists.mp declared
        refine .failed e delegate covers outcome undeclared (congrArg caught (error_bind ?_))
        simp only [handleSubscriptionRequest, unseen, Bool.false_eq_true, ↓reduceIte, outcome]

/-- The first subscription of a registry. -/
theorem first_subscription {p : Peer Registry} (none : p.session.subscriptions = .empty) (unused : p.delegate = Registry.empty)
    (req : SubscriptionRequestMessage) : ∃ q : Peer Registry,
      caught (dispatch (.subscriptionReq req) p) = answered q (subscribed req 1) ∧ q.session.written = p.session.written ∧
        q.session.subscriptions.entries = [(variableId req.varGrp req.varName, 1)] ∧ q.delegate.ids = [1] := by
  have grants : subscribe (variableId req.varGrp req.varName) p.delegate = .ok 1 ⟨[1], List.nodup_singleton 1⟩ := by
    rw [unused]
    rfl
  cases subscription_effect p req with
  | known covers =>
    rw [none] at covers
    exact absurd covers List.not_mem_nil
  | granted subsId delegate newVariable executed newSubscription same =>
    rw [grants] at executed
    cases executed
    refine ⟨_, same, rfl, ?_, rfl⟩
    show _ :: p.session.subscriptions.entries = _
    rw [none]
    rfl
  | clashing subsId delegate newVariable executed used same =>
    rw [none] at used
    exact absurd used SubscriptionMapper.not_owns_empty
  | refused varId delegate newVariable raised same =>
    rw [grants] at raised
    cases raised
  | failed e delegate newVariable raised undeclared same =>
    rw [grants] at raised
    cases raised

/-- What an unsubscription request does. -/
inductive UnsubscriptionEffect (p : Peer δ) (subsId : SubscriptionId) (p' : Peer δ) : Prop
  | removed (delegate : δ) (executed : unsubscribe subsId p.delegate = .ok () delegate)
      (owned : p.session.subscriptions.Owns subsId)
      (same : p' = answered ⟨{ p.session with subscriptions := p.session.subscriptions.erase subsId }, delegate⟩
        (unsubscribed subsId))
  | stolen (delegate : δ) (executed : unsubscribe subsId p.delegate = .ok () delegate)
      (foreign : ¬ p.session.subscriptions.Owns subsId) (same : p' = answered { p with delegate } (serverError subsId))
  | missing (delegate : δ) (raised : unsubscribe subsId p.delegate = .error (.noSuchSubscription subsId) delegate)
      (same : p' = answered { p with delegate } (noSuchSubscription subsId))

variable {live : δ → Set SubscriptionId}

theorem unsubscription_effect (ledger : Ledger live) (p : Peer δ) (req : UnsubscriptionRequestMessage) :
    UnsubscriptionEffect p req.subsId (caught (dispatch (.unsubscriptionReq req) p)) := by
  have bound {rep : UnsubscriptionReplyMessage} {p' : Peer δ} (executed : handleUnsubscriptionRequest req p = .ok rep p') :
      caught (dispatch (.unsubscriptionReq req) p) = answered p' (.unsubscriptionRep rep) :=
    (congrArg caught (ok_bind executed)).trans (caught_reply p' _)
  by_cases alive : req.subsId ∈ live p.delegate
  · obtain ⟨delegate, executed, -⟩ := ledger.unsubscribe_live alive
    by_cases owned : p.session.subscriptions.Owns req.subsId
    · refine .removed delegate executed owned (bound ?_)
      simp only [handleUnsubscriptionRequest, executed, SubscriptionMapper.unregister, owned, ↓reduceIte]
    · refine .stolen delegate executed owned (bound ?_)
      simp only [handleUnsubscriptionRequest, executed, SubscriptionMapper.unregister, owned, ↓reduceIte]
  · obtain ⟨delegate, raised, -⟩ := ledger.unsubscribe_dead alive
    refine .missing delegate raised (bound ?_)
    simp only [handleUnsubscriptionRequest, raised]

/-- What a VAR_UPDATE does: the delegate updates the variable or refuses to. The session
    says nothing and keeps its mapper. -/
theorem update_effect (p : Peer δ) (req : VarUpdateMessage) :
    (caught (dispatch (.varUpdate req) p)).delegate = after (update req.subsId req.varValue p.delegate) ∧
      (caught (dispatch (.varUpdate req) p)).session.subscriptions = p.session.subscriptions ∧
      (caught (dispatch (.varUpdate req) p)).session.written = p.session.written := by
  -- the exceptions that the interface does not declare get to the handlers of `on_read_request`
  have undeclared {e : Exception} {q : Peer δ} (raised : handleVarUpdateRequest req p = .error e q) :
      caught (dispatch (.varUpdate req) p) = caught (.error e q) :=
    congrArg caught (error_bind raised)
  have bound {q : Peer δ} (executed : handleVarUpdateRequest req p = .ok () q) :
      caught (dispatch (.varUpdate req) p) = ⟨{ q.session with phase := .readingRequest }, q.delegate⟩ :=
    congrArg caught ((ok_bind executed).trans rfl)
  have handled : (after (handleVarUpdateRequest req p)) = { p with delegate := after (update req.subsId req.varValue p.delegate) } := by
    unfold handleVarUpdateRequest
    cases outcome : update req.subsId req.varValue p.delegate with
    | ok a delegate => rfl
    | error e delegate => cases e <;> rfl
  cases outcome : handleVarUpdateRequest req p with
  | ok a q =>
    rw [outcome] at handled
    rw [bound outcome, show q = _ from handled]
    exact ⟨rfl, rfl, rfl⟩
  | error e q =>
    rw [outcome] at handled
    rw [undeclared outcome, show q = _ from handled]
    cases e <;> exact ⟨rfl, rfl, rfl⟩

/-! ## The mapper -/

/-- The subscription id that a message asks to end or to write to. -/
def Presents : Message → SubscriptionId → Prop
  | .unsubscriptionReq req, subsId => req.subsId = subsId
  | .varUpdate req, subsId => req.subsId = subsId
  | _, _ => False

/-- The message asks for a new subscription, and the delegate fails to make it. -/
def Fails (p : Peer δ) (msg : Message) (delegate : δ) : Prop :=
  ∃ req e, msg = .subscriptionReq req ∧ ¬ p.session.subscriptions.Covers (variableId req.varGrp req.varName) ∧
    subscribe (variableId req.varGrp req.varName) p.delegate = .error e delegate

/-- What the handling of a message does to the subscriptions of the session and of the delegate. -/
inductive MapperEffect (live : δ → Set SubscriptionId) (p : Peer δ) (msg : Message) (p' : Peer δ) : Prop
  | kept (mapper : p'.session.subscriptions = p.session.subscriptions) (same : live p'.delegate = live p.delegate)
  | granted (subsId : SubscriptionId) (fresh : subsId ∉ live p.delegate)
      (more : live p'.delegate = insert subsId (live p.delegate))
      (owns : ∀ id, p'.session.subscriptions.Owns id ↔ id = subsId ∨ p.session.subscriptions.Owns id)
  | clashing (subsId : SubscriptionId) (fresh : subsId ∉ live p.delegate) (used : p.session.subscriptions.Owns subsId)
  | failed (delegate : δ) (fails : Fails p msg delegate) (mapper : p'.session.subscriptions = p.session.subscriptions)
      (same : p'.delegate = delegate)
  | removed (subsId : SubscriptionId) (alive : subsId ∈ live p.delegate) (owned : p.session.subscriptions.Owns subsId)
      (less : live p'.delegate = live p.delegate \ {subsId})
      (owns : ∀ id, p'.session.subscriptions.Owns id ↔ p.session.subscriptions.Owns id ∧ id ≠ subsId)
  | stolen (subsId : SubscriptionId) (presents : Presents msg subsId) (alive : subsId ∈ live p.delegate)
      (foreign : ¬ p.session.subscriptions.Owns subsId)

theorem dispatch_mapper (ledger : Ledger live) (p : Peer δ) (msg : Message) :
    MapperEffect live p msg (caught (dispatch msg p)) := by
  cases msg with
  | subscriptionReq req =>
    cases subscription_effect p req with
    | known covers same =>
      rw [same]
      exact .kept (answered_subscriptions ..) (congrArg live (answered_delegate ..))
    | granted subsId delegate newVariable executed newSubscription same =>
      rw [same]
      obtain ⟨fresh, more⟩ := ledger.subscribe_fresh executed
      refine .granted subsId fresh ?_ fun id => ?_
      · rw [answered_delegate]
        exact more
      · rw [answered_subscriptions]
        exact SubscriptionMapper.owns_insert newVariable newSubscription
    | clashing subsId delegate newVariable executed used same =>
      exact .clashing subsId (ledger.subscribe_fresh executed).1 used
    | refused varId delegate newVariable raised same =>
      rw [same]
      exact .failed delegate ⟨req, _, rfl, newVariable, raised⟩ (answered_subscriptions ..) (answered_delegate ..)
    | failed e delegate newVariable raised undeclared same =>
      rw [same]
      refine .failed delegate ⟨req, _, rfl, newVariable, raised⟩ ?_ ?_ <;> cases e <;> rfl
  | unsubscriptionReq req =>
    cases unsubscription_effect ledger p req with
    | removed delegate executed owned same =>
      rw [same]
      obtain ⟨alive, less⟩ := ledger.unsubscribe_done executed
      refine .removed req.subsId alive owned ?_ fun id => ?_
      · rw [answered_delegate]
        exact less
      · rw [answered_subscriptions]
        exact SubscriptionMapper.owns_erase
    | stolen delegate executed foreign same =>
      exact .stolen req.subsId rfl (ledger.unsubscribe_done executed).1 foreign
    | missing delegate raised same =>
      rw [same]
      refine .kept (answered_subscriptions ..) ?_
      rw [answered_delegate]
      exact (ledger.unsubscribe_refused raised).2
  | varUpdate req =>
    obtain ⟨updates, mapper, -⟩ := update_effect p req
    exact .kept mapper ((congrArg live updates).trans ledger.update_kept)
  | _ => exact .kept rfl rfl

/-- A session that waits for requests decodes a message. -/
def Reads (s : Session) (bytesTransferred : Except Exception (List UInt8)) (msg : Message) : Prop :=
  s.phase = .readingRequest ∧ ∃ block buff, bytesTransferred = .ok block ∧ unmarshall (s.filled block) = .ok msg buff

theorem onReadRequest_dispatches {p : Peer δ} (pending : p.session.phase = .readingRequest)
    (bytesTransferred : Except Exception (List UInt8)) :
    ((after (Peer.onReadRequest bytesTransferred p)).session.subscriptions = p.session.subscriptions ∧
      (after (Peer.onReadRequest bytesTransferred p)).delegate = p.delegate) ∨
    ∃ msg block buff, Reads p.session bytesTransferred msg ∧ after (Peer.onReadRequest bytesTransferred p) =
      caught (dispatch msg ⟨p.session.taken block buff msg, p.delegate⟩) := by
  cases bytesTransferred with
  | error e =>
    have raised : Peer.onSession (getValue (.error e)) p = .error e p := rfl
    rw [Peer.onReadRequest, raised]
    dsimp only
    split <;> exact .inl ⟨rfl, rfl⟩
  | ok block =>
    rw [onReadRequest_ok, Peer.request]
    cases outcome : unmarshall (p.session.filled block) with
    | error e buff =>
      rw [error_bind (onSession_error (unmarshallInput_error outcome))]
      by_cases eof : e = .eof
      · subst eof
        exact .inl ⟨rfl, rfl⟩
      · rw [caught_error eof]
        exact .inl ⟨rfl, rfl⟩
    | ok msg buff =>
      rw [ok_bind (onSession_ok (unmarshallInput_ok outcome))]
      exact .inr ⟨msg, block, buff, ⟨pending, block, buff, rfl, outcome⟩, rfl⟩

theorem onReadRequest_mapper (ledger : Ledger live) {p : Peer δ} (pending : p.session.phase = .readingRequest)
    (bytesTransferred : Except Exception (List UInt8)) :
    ((after (Peer.onReadRequest bytesTransferred p)).session.subscriptions = p.session.subscriptions ∧
      (after (Peer.onReadRequest bytesTransferred p)).delegate = p.delegate) ∨
    ∃ msg, Reads p.session bytesTransferred msg ∧ MapperEffect live p msg (after (Peer.onReadRequest bytesTransferred p)) := by
  rcases onReadRequest_dispatches pending bytesTransferred with same | ⟨msg, block, buff, reads, result⟩
  · exact .inl same
  · refine .inr ⟨msg, reads, ?_⟩
    rw [result]
    cases dispatch_mapper ledger ⟨p.session.taken block buff msg, p.delegate⟩ msg with
    | kept mapper same => exact .kept mapper same
    | granted subsId fresh more owns => exact .granted subsId fresh more owns
    | clashing subsId fresh used => exact .clashing subsId fresh used
    | failed delegate fails mapper same => exact .failed delegate fails mapper same
    | removed subsId alive owned less owns => exact .removed subsId alive owned less owns
    | stolen subsId presents alive foreign => exact .stolen subsId presents alive foreign

/-- The mapper of two states of a session. -/
def SameMapper (s s' : Session) : Prop := s'.subscriptions = s.subscriptions

theorem beginReply_mapper (msg : Message) : Keeps SameMapper (beginReply msg) := by
  have writes : ∀ msg, Keeps SameMapper (writeMessage msg) := by
    intro msg s
    obtain ⟨written, same⟩ := writeMessage_written msg s
    rw [same]
    rfl
  unfold beginReply
  split
  · exact keeps_bind (R := SameMapper) (fun first second => second.trans first) (writes _) fun _ _ => rfl
  · exact fun _ => rfl

theorem onReadBeginSession_mapper (bytesTransferred : Except Exception (List UInt8)) (s : Session) :
    SameMapper s (onReadBeginSession bytesTransferred s) := by
  have gets : Keeps SameMapper (getValue bytesTransferred) := by
    intro s
    unfold getValue
    split <;> rfl
  have unmarshalls : Keeps SameMapper unmarshallInput := by
    intro s
    unfold unmarshallInput
    split <;> rfl
  have kept : SameMapper s (after (beginSession bytesTransferred s)) :=
    keeps_bind (R := SameMapper) (fun first second => second.trans first) gets
      (fun _ => keeps_bind (R := SameMapper) (fun first second => second.trans first) unmarshalls beginReply_mapper) s
  have caught : ∀ result, SameMapper s (after result) → SameMapper s (caughtBegin result) := by
    intro result same
    unfold caughtBegin
    split <;> exact same
  exact caught _ kept

end
end Oac.Server
