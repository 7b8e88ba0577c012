import Oac.Server.Updates

/-!
# What a read does to the delegate

A message that a session reads makes at most one call of the delegate, and the mapper of the
session follows what the call returns (`Service`). Nothing is asked of the delegate here.
-/
namespace Oac.Server
open Base Proto Session

variable {δ : Type}

theorem caught_delegate (e : Exception) (p : Peer δ) : (Peer.caught (.error e p)).delegate = p.delegate := by
  by_cases eof : e = .eof
  · subst eof
    rfl
  · rw [caught_error eof]

variable [FlightVars δ]

/-- What a message does to the peer that handles it. -/
inductive Service (p : Peer δ) (msg : Message) (p' : Peer δ) : Prop
  | kept (other : ∀ req, msg ≠ .varUpdate req) (quiet : Quiet p.session p'.session) (same : p'.delegate = p.delegate)
  | granted (req : SubscriptionRequestMessage) (asks : msg = .subscriptionReq req) (varId : VariableId)
      (named : varId = variableId req.varGrp req.varName) (subsId : SubscriptionId)
      (subscribed : FlightVars.subscribe varId p.delegate = .ok subsId p'.delegate)
      (newVariable : ¬ p.session.subscriptions.Covers varId)
      (maps : ∀ v i, p'.session.subscriptions.Maps v i ↔ (v = varId ∧ i = subsId) ∨ p.session.subscriptions.Maps v i)
      (msgs : List Message) (written : p'.session.written = p.session.written ++ msgs) (plain : ∀ msg ∈ msgs, Plain msg)
  | clashed (req : SubscriptionRequestMessage) (asks : msg = .subscriptionReq req) (subsId : SubscriptionId) (delegate : δ)
      (subscribed : FlightVars.subscribe (variableId req.varGrp req.varName) p.delegate = .ok subsId delegate)
      (used : p.session.subscriptions.Owns subsId)
  | refused (req : SubscriptionRequestMessage) (asks : msg = .subscriptionReq req) (e : Exception)
      (raised : FlightVars.subscribe (variableId req.varGrp req.varName) p.delegate = .error e p'.delegate)
      (quiet : Quiet p.session p'.session)
  | removed (req : UnsubscriptionRequestMessage) (asks : msg = .unsubscriptionReq req)
      (ended : FlightVars.unsubscribe req.subsId p.delegate = .ok () p'.delegate)
      (owned : p.session.subscriptions.Owns req.subsId)
      (maps : ∀ v i, p'.session.subscriptions.Maps v i ↔ p.session.subscriptions.Maps v i ∧ i ≠ req.subsId)
      (written : p'.session.written = p.session.written ++ [unsubscribed req.subsId])
  | stolen (req : UnsubscriptionRequestMessage) (asks : msg = .unsubscriptionReq req)
      (ended : FlightVars.unsubscribe req.subsId p.delegate = .ok () p'.delegate)
      (foreign : ¬ p.session.subscriptions.Owns req.subsId)
  | dead (req : UnsubscriptionRequestMessage) (asks : msg = .unsubscriptionReq req) (e : Exception)
      (raised : FlightVars.unsubscribe req.subsId p.delegate = .error e p'.delegate) (quiet : Quiet p.session p'.session)
  | updated (req : VarUpdateMessage) (asks : msg = .varUpdate req)
      (same : p'.delegate = after (FlightVars.update req.subsId req.varValue p.delegate)) (quiet : Quiet p.session p'.session)

/-- A subscription for a new variable, with an id that the session does not have. -/
theorem dispatch_granted {p : Peer δ} {req : SubscriptionRequestMessage} {varId : VariableId} {subsId : SubscriptionId}
    {delegate : δ} (named : varId = variableId req.varGrp req.varName) (newVariable : ¬ p.session.subscriptions.Covers varId)
    (newSubscription : ¬ p.session.subscriptions.Owns subsId)
    (subscribed : FlightVars.subscribe varId p.delegate = .ok subsId delegate) :
    Peer.caught (Peer.dispatch (.subscriptionReq req) p) =
      answered ⟨{ p.session with subscriptions := p.session.subscriptions.insert varId subsId newVariable newSubscription },
        delegate⟩ (.subscriptionRep ⟨.subscribed, req.varGrp, req.varName, subsId, []⟩) := by
  have unknown : p.session.subscriptions.variableExists varId = false := decide_eq_false newVariable
  have executed : Peer.handleSubscriptionRequest req p = .ok ⟨.subscribed, req.varGrp, req.varName, subsId, []⟩
      ⟨{ p.session with subscriptions := p.session.subscriptions.insert varId subsId newVariable newSubscription },
        delegate⟩ := by
    simp only [Peer.handleSubscriptionRequest, ← named, unknown, Bool.false_eq_true, ↓reduceIte, subscribed,
      SubscriptionMapper.registerSubscription_new newVariable newSubscription]
  exact (congrArg Peer.caught (ok_bind executed)).trans (caught_reply _ _)

theorem subscription_service (p : Peer δ) (req : SubscriptionRequestMessage) :
    Service p (.subscriptionReq req) (Peer.caught (Peer.dispatch (.subscriptionReq req) p)) := by
  obtain ⟨varId, named⟩ : ∃ varId, varId = variableId req.varGrp req.varName := ⟨_, rfl⟩
  have replied {rep : SubscriptionReplyMessage} {q : Peer δ} (executed : Peer.handleSubscriptionRequest req p = .ok rep q) :
      Peer.caught (Peer.dispatch (.subscriptionReq req) p) = answered q (.subscriptionRep rep) :=
    (congrArg Peer.caught (ok_bind executed)).trans (caught_reply q _)
  have raised {e : Exception} {q : Peer δ} (executed : Peer.handleSubscriptionRequest req p = .error e q) :
      Peer.caught (Peer.dispatch (.subscriptionReq req) p) = Peer.caught (.error e q) :=
    congrArg Peer.caught (error_bind executed)
  by_cases covers : p.session.subscriptions.Covers varId
  · have known : p.session.subscriptions.variableExists varId = true := decide_eq_true covers
    have executed : Peer.handleSubscriptionRequest req p =
        .ok ⟨.varAlreadySubscribed, req.varGrp, req.varName, 0, Peer.alreadySubscribedCause⟩ p := by
      simp only [Peer.handleSubscriptionRequest, ← named, known, ↓reduceIte]
    rw [replied executed]
    exact .kept (by simp) (answered_quiet (by exact trivial) p) (answered_delegate p _)
  · have unknown : p.session.subscriptions.variableExists varId = false := decide_eq_false covers
    cases outcome : FlightVars.subscribe varId p.delegate with
    | ok subsId delegate =>
      by_cases used : p.session.subscriptions.Owns subsId
      · exact .clashed req rfl subsId delegate (by rw [← named, outcome]) used
      · have plain : Plain (.subscriptionRep ⟨.subscribed, req.varGrp, req.varName, subsId, []⟩) := trivial
        rw [dispatch_granted named covers used outcome]
        obtain ⟨mapper, msgs, written, plain⟩ := answered_quiet plain (⟨{ p.session with
          subscriptions := p.session.subscriptions.insert varId subsId covers used }, delegate⟩ : Peer δ)
        refine .granted req rfl varId named subsId ?_ covers ?_ msgs written plain
        · rw [outcome, answered_delegate]
        · intro v i
          rw [mapper]
          exact SubscriptionMapper.maps_insert covers used
    | error e delegate =>
      by_cases declared : ∃ varId, e = .noSuchVariable varId
      · obtain ⟨v, rfl⟩ := declared
        have executed : Peer.handleSubscriptionRequest req p =
            .ok ⟨.noSuchVar, req.varGrp, req.varName, 0, Peer.noSuchVariableCause⟩ { p with delegate } := by
          simp only [Peer.handleSubscriptionRequest, ← named, unknown, Bool.false_eq_true, ↓reduceIte, outcome]
        rw [replied executed]
        exact .refused req rfl _ (by rw [← named, outcome, answered_delegate]) (answered_quiet (by exact trivial) { p with delegate })
      · have executed : Peer.handleSubscriptionRequest req p = .error e { p with delegate } := by
          simp only [Peer.handleSubscriptionRequest, ← named, unknown, Bool.false_eq_true, ↓reduceIte, outcome]
          cases e with
          | noSuchVariable v => exact absurd ⟨v, rfl⟩ declared
          | _ => rfl
        rw [raised executed]
        exact .refused req rfl _ (by rw [← named, outcome, caught_delegate]) (caught_quiet _ { p with delegate })

theorem unsubscription_service (p : Peer δ) (req : UnsubscriptionRequestMessage) :
    Service p (.unsubscriptionReq req) (Peer.caught (Peer.dispatch (.unsubscriptionReq req) p)) := by
  have replied {rep : UnsubscriptionReplyMessage} {q : Peer δ} (executed : Peer.handleUnsubscriptionRequest req p = .ok rep q) :
      Peer.caught (Peer.dispatch (.unsubscriptionReq req) p) = answered q (.unsubscriptionRep rep) :=
    (congrArg Peer.caught (ok_bind executed)).trans (caught_reply q _)
  have raised {e : Exception} {q : Peer δ} (executed : Peer.handleUnsubscriptionRequest req p = .error e q) :
      Peer.caught (Peer.dispatch (.unsubscriptionReq req) p) = Peer.caught (.error e q) :=
    congrArg Peer.caught (error_bind executed)
  cases outcome : FlightVars.unsubscribe req.subsId p.delegate with
  | ok a delegate =>
    by_cases owned : p.session.subscriptions.Owns req.subsId
    · have executed : Peer.handleUnsubscriptionRequest req p = .ok ⟨.unsubscribed, req.subsId, []⟩
          ⟨{ p.session with subscriptions := p.session.subscriptions.erase req.subsId }, delegate⟩ := by
        simp only [Peer.handleUnsubscriptionRequest, outcome, SubscriptionMapper.unregister, owned, ↓reduceIte]
      rw [replied executed]
      refine .removed req rfl (by rw [outcome, answered_delegate]) owned ?_ ?_
      · intro v i
        rw [answered_subscriptions]
        exact SubscriptionMapper.maps_erase
      · rw [answered_written]
        exact if_pos (fits_unsubscribed req.subsId)
    · have executed : Peer.handleUnsubscriptionRequest req p =
          .ok ⟨.unknown, req.subsId, Peer.serverErrorCause req.subsId⟩ { p with delegate } := by
        simp only [Peer.handleUnsubscriptionRequest, outcome, SubscriptionMapper.unregister, owned, ↓reduceIte]
      rw [replied executed]
      exact .stolen req rfl (by rw [outcome, answered_delegate]) owned
  | error e delegate =>
    by_cases declared : ∃ subsId, e = .noSuchSubscription subsId
    · obtain ⟨subsId, rfl⟩ := declared
      have executed : Peer.handleUnsubscriptionRequest req p =
          .ok ⟨.noSuchSubscription, req.subsId, Peer.noSuchSubscriptionCause req.subsId⟩ { p with delegate } := by
        simp only [Peer.handleUnsubscriptionRequest, outcome]
      rw [replied executed]
      exact .dead req rfl _ (by rw [outcome, answered_delegate]) (answered_quiet (by simp [Plain]) { p with delegate })
    · have executed : Peer.handleUnsubscriptionRequest req p = .error e { p with delegate } := by
        simp only [Peer.handleUnsubscriptionRequest, outcome]
        cases e with
        | noSuchSubscription subsId => exact absurd ⟨subsId, rfl⟩ declared
        | _ => rfl
      rw [raised executed]
      exact .dead req rfl _ (by rw [outcome, caught_delegate]) (caught_quiet _ { p with delegate })

theorem update_service (p : Peer δ) (req : VarUpdateMessage) :
    Service p (.varUpdate req) (Peer.caught (Peer.dispatch (.varUpdate req) p)) := by
  refine .updated req rfl ?_ (update_progress p req)
  have handled : (after (Peer.handleVarUpdateRequest req p)).delegate = after (FlightVars.update req.subsId req.varValue p.delegate) := by
    unfold Peer.handleVarUpdateRequest
    split <;> simp_all
  cases outcome : Peer.handleVarUpdateRequest req p with
  | ok a q =>
    rw [outcome] at handled
    have executed : Peer.caught (Peer.dispatch (.varUpdate req) p) = ⟨{ q.session with phase := .readingRequest }, q.delegate⟩ :=
      congrArg Peer.caught ((ok_bind outcome).trans rfl)
    rw [executed, ← handled]
    rfl
  | error e q =>
    rw [outcome] at handled
    have raised : Peer.caught (Peer.dispatch (.varUpdate req) p) = Peer.caught (.error e q) :=
      congrArg Peer.caught (error_bind outcome)
    rw [raised, caught_delegate, ← handled]
    rfl

theorem dispatch_service (p : Peer δ) (msg : Message) : Service p msg (Peer.caught (Peer.dispatch msg p)) := by
  cases msg with
  | subscriptionReq req => exact subscription_service p req
  | unsubscriptionReq req => exact unsubscription_service p req
  | varUpdate req => exact update_service p req
  | _ => exact .kept (by simp) (Quiet.refl _) rfl

/-- A read that decodes a message does what the message does. -/
theorem reads_service {p p' : Peer δ} {bytesTransferred : Except Exception (List UInt8)} {msg : Message}
    (reads : Reads p.session bytesTransferred msg) (step : Step p (.read bytesTransferred) p') : Service p msg p' := by
  obtain ⟨pending, block, buff, rfl, decoded⟩ := reads
  cases step with
  | readBegin begins => cases begins.symm.trans pending
  | readRequest =>
    rw [onReadRequest_ok, Peer.request, ok_bind (onSession_ok (unmarshallInput_ok decoded))]
    -- decoding has changed the input side only
    cases dispatch_service ⟨p.session.taken block buff msg, p.delegate⟩ msg with
    | kept other quiet same => exact .kept other quiet same
    | granted req asks varId named subsId subscribed newVariable maps msgs written plain =>
      exact .granted req asks varId named subsId subscribed newVariable maps msgs written plain
    | clashed req asks subsId delegate subscribed used => exact .clashed req asks subsId delegate subscribed used
    | refused req asks e raised quiet => exact .refused req asks e raised quiet
    | removed req asks ended owned maps written => exact .removed req asks ended owned maps written
    | stolen req asks ended foreign => exact .stolen req asks ended foreign
    | dead req asks e raised quiet => exact .dead req asks e raised quiet
    | updated req asks same quiet => exact .updated req asks same quiet

/-- Any other read does nothing that the delegate or the other sessions see. -/
theorem read_service {s : Session} {delegate : δ} {p' : Peer δ} {bytesTransferred : Except Exception (List UInt8)}
    (step : Step ⟨s, delegate⟩ (.read bytesTransferred) p') :
    (Quiet s p'.session ∧ p'.delegate = delegate) ∨
      ∃ msg, Reads s bytesTransferred msg ∧ Service ⟨s, delegate⟩ msg p' := by
  by_cases decodes : ∃ msg, Reads s bytesTransferred msg
  · obtain ⟨msg, reads⟩ := decodes
    exact .inr ⟨msg, reads, reads_service (p := ⟨s, delegate⟩) reads step⟩
  · left
    cases step with
    | readBegin => exact ⟨onReadBeginSession_quiet bytesTransferred s, rfl⟩
    | readRequest pending =>
      cases bytesTransferred with
      | error e =>
        have raised : Peer.onSession (getValue (.error e)) (⟨s, delegate⟩ : Peer δ) = .error e ⟨s, delegate⟩ := rfl
        rw [Peer.onReadRequest, raised]
        dsimp only
        split <;> exact ⟨Quiet.refl s, rfl⟩
      | ok block =>
        cases outcome : unmarshall (s.filled block) with
        | ok msg buff => exact absurd ⟨msg, pending, block, buff, rfl, outcome⟩ decodes
        | error e buff =>
          rw [onReadRequest_ok, Peer.request, error_bind (onSession_error (unmarshallInput_error outcome))]
          exact ⟨caught_quiet e (⟨{ s.got block with inputBuffer := buff }, delegate⟩ : Peer δ), caught_delegate e _⟩

end Oac.Server
