import Oac.Base.History
import Oac.Server.Sessions

/-!
# Variable updates of a server

Notifications are posted to the IO service and become messages later, with the
subscription id that the mapper of the session then has for the variable. The history of a
server shows that an update is written only while its subscription is granted, and with a
value that was notified for its variable.
-/
namespace Oac.Server
open Base Proto Session FlightVars

/-- What has happened to the sessions of a server, told apart by numbers. -/
inductive Record where
  /-- the write of a message is issued -/
  | issued (k : Nat) (msg : Message)
  /-- the handler of a request that the delegate gave a subscription for has completed -/
  | granted (k : Nat) (varId : VariableId) (subsId : SubscriptionId)
  /-- `handle_var_update` is called for the session -/
  | notified (k : Nat) (varId : VariableId) (varValue : VariableValue)

section
variable {δ : Type} [FlightVars δ]

/-- What the delegate returns to the handler of a message, if that asks for a subscription. -/
def grants (subscriptions : SubscriptionMapper) (delegate : δ) : Message → Option (VariableId × SubscriptionId)
  | .subscriptionReq req =>
    if subscriptions.Covers (variableId req.varGrp req.varName) then none
    else match FlightVars.subscribe (variableId req.varGrp req.varName) delegate with
      | .ok subsId _ => some (variableId req.varGrp req.varName, subsId)
      | .error _ _ => none
  | _ => none

/-- What the delegate returns in `on_read_request`. -/
def obtained (s : Session) (delegate : δ) : Except Exception (List UInt8) → Option (VariableId × SubscriptionId)
  | .ok block =>
    match unmarshall (s.filled block) with
    | .ok msg _ => if s.phase = .readingRequest then grants s.subscriptions delegate msg else none
    | .error _ _ => none
  | .error _ => none

theorem obtained_none {s : Session} (other : s.phase ≠ .readingRequest) (delegate : δ)
    (bytesTransferred : Except Exception (List UInt8)) : obtained s delegate bytesTransferred = none := by
  cases bytesTransferred with
  | ok block =>
    cases read : unmarshall (s.filled block) with
    | ok msg buff => simp only [obtained, read, other, ↓reduceIte]
    | error e buff => simp only [obtained, read]
  | error e => rfl

/-- The messages that the session `k` writes in a step. -/
def messages (sv sv' : FlightVarsServer δ) (k : Nat) : List Message :=
  match sv.sessions k, sv'.sessions k with
  | some s, some s' => s'.written.drop s.written.length
  | _, _ => []

/-- The subscription that the session `k` obtains by a read. -/
def obtainedBy (sv : FlightVarsServer δ) (k : Nat) (bytesTransferred : Except Exception (List UInt8)) :
    Option (VariableId × SubscriptionId) :=
  match sv.sessions k with
  | some s => obtained s sv.delegate bytesTransferred
  | none => none

def grantedRecords (k : Nat) : Option (VariableId × SubscriptionId) → List Record
  | some (varId, subsId) => [.granted k varId subsId]
  | none => []

/-- What a step of the server adds to the history. -/
def records (sv : FlightVarsServer δ) (e : ServerEvent δ) (sv' : FlightVarsServer δ) : List Record :=
  match e with
  | .read k bytesTransferred =>
    (messages sv sv' k).map (.issued k) ++ grantedRecords k (obtainedBy sv k bytesTransferred)
  | .ran =>
    match sv.posted with
    | (k, _, _) :: _ => (messages sv sv' k).map (.issued k)
    | [] => []
  | .notified k varId varValue => [.notified k varId varValue]
  | _ => []

/-- The steps of a server with its history. -/
def RecordedStep (live : δ → Set SubscriptionId) (before : FlightVarsServer δ × List Record) (e : ServerEvent δ)
    (now : FlightVarsServer δ × List Record) : Prop :=
  FlightVarsServer.Step live before.1 e now.1 ∧ now.2 = before.2 ++ records before.1 e now.1

/-- The delegate gives a session no id that it has had before. -/
def NoReuse (before : FlightVarsServer δ × List Record) (e : ServerEvent δ) : Prop :=
  ∀ k bytesTransferred varId subsId, e = .read k bytesTransferred →
    obtainedBy before.1 k bytesTransferred = some (varId, subsId) → ∀ varId', .granted k varId' subsId ∉ before.2

end

/-- A write is in its place in the history of its session. -/
def InPlace (before : List Record) : Record → Prop
  | .issued k (.varUpdate msg) =>
    (∃ varId, .granted k varId msg.subsId ∈ before ∧ .notified k varId msg.varValue ∈ before) ∧
      ∀ cause, .issued k (.unsubscriptionRep ⟨.unsubscribed, msg.subsId, cause⟩) ∉ before
  | _ => True

/-! ## What a session does with a read -/

/-- Neither an update nor the end of a subscription. -/
def Plain : Message → Prop
  | .varUpdate _ => False
  | .unsubscriptionRep msg => msg.st ≠ .unsubscribed
  | _ => True

/-- The session keeps its subscriptions and writes plain messages. -/
def Quiet (s s' : Session) : Prop :=
  s'.subscriptions = s.subscriptions ∧ ∃ msgs, s'.written = s.written ++ msgs ∧ ∀ msg ∈ msgs, Plain msg

theorem Quiet.refl (s : Session) : Quiet s s := ⟨rfl, [], (List.append_nil _).symm, nofun⟩

theorem Quiet.trans {s s' s'' : Session} (first : Quiet s s') (second : Quiet s' s'') : Quiet s s'' := by
  obtain ⟨mapper, msgs, written, plain⟩ := first
  obtain ⟨mapper', msgs', written', plain'⟩ := second
  refine ⟨mapper'.trans mapper, msgs ++ msgs', by rw [written', written, List.append_assoc], ?_⟩
  intro msg among
  rcases List.mem_append.mp among with among | among
  · exact plain msg among
  · exact plain' msg among

theorem writeMessage_quiet {msg : Message} (plain : Plain msg) : Keeps Quiet (writeMessage msg) := by
  intro s
  by_cases fits : Fits msg
  · rw [writeMessage_fits fits]
    refine ⟨rfl, [msg], rfl, ?_⟩
    simpa using plain
  · rw [writeMessage_long fits]
    exact Quiet.refl s

/-- What a session does with a read: `got` is what the delegate has returned. -/
inductive Progress (s : Session) (got : Option (VariableId × SubscriptionId)) (s' : Session) : Prop
  | quiet (quiet : Quiet s s')
  | granted (varId : VariableId) (subsId : SubscriptionId) (same : got = some (varId, subsId))
      (maps : ∀ v i, s'.subscriptions.Maps v i ↔ (v = varId ∧ i = subsId) ∨ s.subscriptions.Maps v i)
      (msgs : List Message) (written : s'.written = s.written ++ msgs) (plain : ∀ msg ∈ msgs, Plain msg)
  | removed (subsId : SubscriptionId) (owned : s.subscriptions.Owns subsId)
      (maps : ∀ v i, s'.subscriptions.Maps v i ↔ s.subscriptions.Maps v i ∧ i ≠ subsId)
      (written : s'.written = s.written ++ [unsubscribed subsId])

variable {δ : Type}

theorem answered_quiet {rep : Message} (plain : Plain rep) (p : Peer δ) : Quiet p.session (answered p rep).session := by
  refine ⟨answered_subscriptions p rep, if Fits rep then [rep] else [], ?_, ?_⟩
  · rw [answered_written]
    split
    · rfl
    · exact (List.append_nil _).symm
  · intro msg among
    split at among
    · rw [List.mem_singleton.mp among]
      exact plain
    · exact absurd among List.not_mem_nil

/-- An exception changes neither the subscriptions nor what is written. -/
theorem caught_quiet (e : Exception) (p : Peer δ) : Quiet p.session (Peer.caught (.error e p)).session := by
  by_cases eof : e = .eof
  · subst eof
    exact Quiet.refl p.session
  · rw [caught_error eof]
    exact Quiet.refl p.session

variable [FlightVars δ]

theorem subscription_progress (p : Peer δ) (req : SubscriptionRequestMessage) :
    Progress p.session (grants p.session.subscriptions p.delegate (.subscriptionReq req))
      (Peer.caught (Peer.dispatch (.subscriptionReq req) p)).session := by
  obtain ⟨varId, named⟩ : ∃ varId, varId = variableId req.varGrp req.varName := ⟨_, rfl⟩
  have replied {rep : SubscriptionReplyMessage} {q : Peer δ} (executed : Peer.handleSubscriptionRequest req p = .ok rep q) :
      Peer.caught (Peer.dispatch (.subscriptionReq req) p) = answered q (.subscriptionRep rep) :=
    (congrArg Peer.caught (ok_bind executed)).trans (caught_reply q _)
  have raised {e : Exception} {q : Peer δ} (executed : Peer.handleSubscriptionRequest req p = .error e q) :
      Peer.caught (Peer.dispatch (.subscriptionReq req) p) = Peer.caught (.error e q) :=
    congrArg Peer.caught (error_bind executed)
  by_cases covers : p.session.subscriptions.Covers varId
  · have known : p.session.subscriptions.variableExists varId = true := decide_eq_true covers
    have executed : Peer.handleSubscriptionRequest req p =
        .ok ⟨.varAlreadySubscribed, req.varGrp, req.varName, 0, Peer.alreadySubscribedCause⟩ p := by
      simp only [Peer.handleSubscriptionRequest, ← named, known, ↓reduceIte]
    rw [replied executed]
    exact .quiet (answered_quiet (by exact trivial) p)
  · have unknown : p.session.subscriptions.variableExists varId = false := decide_eq_false covers
    cases outcome : FlightVars.subscribe varId p.delegate with
    | ok subsId delegate =>
      by_cases used : p.session.subscriptions.Owns subsId
      · have executed : Peer.handleSubscriptionRequest req p = .error (.mapperSubscriptionExists subsId) { p with delegate } := by
          simp only [Peer.handleSubscriptionRequest, ← named, unknown, Bool.false_eq_true, ↓reduceIte, outcome,
            SubscriptionMapper.registerSubscription_used covers used]
        rw [raised executed]
        exact .quiet (caught_quiet _ { p with delegate })
      · obtain ⟨q, made⟩ : ∃ q : Peer δ, q = ⟨{ p.session with
          subscriptions := p.session.subscriptions.insert varId subsId covers used }, delegate⟩ := ⟨_, rfl⟩
        have executed : Peer.handleSubscriptionRequest req p = .ok ⟨.subscribed, req.varGrp, req.varName, subsId, []⟩ q := by
          simp only [Peer.handleSubscriptionRequest, ← named, unknown, Bool.false_eq_true, ↓reduceIte, outcome,
            SubscriptionMapper.registerSubscription_new covers used, made]
        rw [replied executed]
        obtain ⟨mapper, msgs, written, plain⟩ :=
          answered_quiet (show Plain (.subscriptionRep ⟨.subscribed, req.varGrp, req.varName, subsId, []⟩) from trivial) q
        refine .granted varId subsId ?_ ?_ msgs ?_ plain
        · simp only [grants, ← named, covers, ↓reduceIte, outcome]
        · intro v i
          rw [mapper, made]
          exact SubscriptionMapper.maps_insert covers used
        · rw [written, made]
    | error e delegate =>
      by_cases declared : ∃ varId, e = .noSuchVariable varId
      · obtain ⟨v, rfl⟩ := declared
        have executed : Peer.handleSubscriptionRequest req p =
            .ok ⟨.noSuchVar, req.varGrp, req.varName, 0, Peer.noSuchVariableCause⟩ { p with delegate } := by
          simp only [Peer.handleSubscriptionRequest, ← named, unknown, Bool.false_eq_true, ↓reduceIte, outcome]
        rw [replied executed]
        exact .quiet (answered_quiet (by exact trivial) { p with delegate })
      · have executed : Peer.handleSubscriptionRequest req p = .error e { p with delegate } := by
          simp only [Peer.handleSubscriptionRequest, ← named, unknown, Bool.false_eq_true, ↓reduceIte, outcome]
          cases e with
          | noSuchVariable v => exact absurd ⟨v, rfl⟩ declared
          | _ => rfl
        rw [raised executed]
        exact .quiet (caught_quiet _ { p with delegate })

theorem unsubscription_progress (p : Peer δ) (req : UnsubscriptionRequestMessage) :
    Progress p.session none (Peer.caught (Peer.dispatch (.unsubscriptionReq req) p)).session := by
  have replied {rep : UnsubscriptionReplyMessage} {q : Peer δ} (executed : Peer.handleUnsubscriptionRequest req p = .ok rep q) :
      Peer.caught (Peer.dispatch (.unsubscriptionReq req) p) = answered q (.unsubscriptionRep rep) :=
    (congrArg Peer.caught (ok_bind executed)).trans (caught_reply q _)
  have raised {e : Exception} {q : Peer δ} (executed : Peer.handleUnsubscriptionRequest req p = .error e q) :
      Peer.caught (Peer.dispatch (.unsubscriptionReq req) p) = Peer.caught (.error e q) :=
    congrArg Peer.caught (error_bind executed)
  cases outcome : FlightVars.unsubscribe req.subsId p.delegate with
  | ok a delegate =>
    by_cases owned : p.session.subscriptions.Owns req.subsId
    · have executed : Peer.handleUnsubscriptionRequest req p = .ok ⟨.unsubscribed, req.subsId, []⟩
          ⟨{ p.session with subscriptions := p.session.subscriptions.erase req.subsId }, delegate⟩ := by
        simp only [Peer.handleUnsubscriptionRequest, outcome, SubscriptionMapper.unregister, owned, ↓reduceIte]
      rw [replied executed]
      refine .removed req.subsId owned ?_ ?_
      · intro v i
        rw [answered_subscriptions]
        exact SubscriptionMapper.maps_erase
      · rw [answered_written]
        exact if_pos (fits_unsubscribed req.subsId)
    · have executed : Peer.handleUnsubscriptionRequest req p =
          .ok ⟨.unknown, req.subsId, Peer.serverErrorCause req.subsId⟩ { p with delegate } := by
        simp only [Peer.handleUnsubscriptionRequest, outcome, SubscriptionMapper.unregister, owned, ↓reduceIte]
      rw [replied executed]
      exact .quiet (answered_quiet (by simp [Plain]) { p with delegate })
  | error e delegate =>
    by_cases declared : ∃ subsId, e = .noSuchSubscription subsId
    · obtain ⟨subsId, rfl⟩ := declared
      have executed : Peer.handleUnsubscriptionRequest req p =
          .ok ⟨.noSuchSubscription, req.subsId, Peer.noSuchSubscriptionCause req.subsId⟩ { p with delegate } := by
        simp only [Peer.handleUnsubscriptionRequest, outcome]
      rw [replied executed]
      exact .quiet (answered_quiet (by simp [Plain]) { p with delegate })
    · have executed : Peer.handleUnsubscriptionRequest req p = .error e { p with delegate } := by
        simp only [Peer.handleUnsubscriptionRequest, outcome]
        cases e with
        | noSuchSubscription subsId => exact absurd ⟨subsId, rfl⟩ declared
        | _ => rfl
      rw [raised executed]
      exact .quiet (caught_quiet _ { p with delegate })

theorem update_progress (p : Peer δ) (req : VarUpdateMessage) :
    Quiet p.session (Peer.caught (Peer.dispatch (.varUpdate req) p)).session := by
  have handled : (after (Peer.handleVarUpdateRequest req p)).session = p.session := by
    unfold Peer.handleVarUpdateRequest
    split <;> rfl
  cases outcome : Peer.handleVarUpdateRequest req p with
  | ok a q =>
    rw [outcome] at handled
    have executed : Peer.caught (Peer.dispatch (.varUpdate req) p) = ⟨{ q.session with phase := .readingRequest }, q.delegate⟩ :=
      congrArg Peer.caught ((ok_bind outcome).trans rfl)
    rw [executed, ← handled]
    exact Quiet.refl _
  | error e q =>
    rw [outcome] at handled
    have raised : Peer.caught (Peer.dispatch (.varUpdate req) p) = Peer.caught (.error e q) :=
      congrArg Peer.caught (error_bind outcome)
    rw [raised, ← handled]
    exact caught_quiet e q

theorem dispatch_progress (p : Peer δ) (msg : Message) :
    Progress p.session (grants p.session.subscriptions p.delegate msg) (Peer.caught (Peer.dispatch msg p)).session := by
  cases msg with
  | subscriptionReq req => exact subscription_progress p req
  | unsubscriptionReq req => exact unsubscription_progress p req
  | varUpdate req => exact .quiet (update_progress p req)
  | _ => exact .quiet (Quiet.refl _)

theorem onReadRequest_progress {p : Peer δ} (pending : p.session.phase = .readingRequest)
    (bytesTransferred : Except Exception (List UInt8)) :
    Progress p.session (obtained p.session p.delegate bytesTransferred)
      (after (Peer.onReadRequest bytesTransferred p)).session := by
  cases bytesTransferred with
  | error e =>
    have raised : Peer.onSession (getValue (.error e)) p = .error e p := rfl
    rw [Peer.onReadRequest, raised]
    dsimp only
    split <;> exact .quiet (Quiet.refl _)
  | ok block =>
    rw [onReadRequest_ok, Peer.request]
    cases outcome : unmarshall (p.session.filled block) with
    | error e buff =>
      rw [error_bind (onSession_error (unmarshallInput_error outcome))]
      obtain ⟨mapper, written⟩ := caught_quiet e
        (⟨{ p.session.got block with inputBuffer := buff }, p.delegate⟩ : Peer δ)
      exact .quiet ⟨mapper, written⟩
    | ok msg buff =>
      rw [ok_bind (onSession_ok (unmarshallInput_ok outcome))]
      have same : obtained p.session p.delegate (.ok block) = grants p.session.subscriptions p.delegate msg := by
        simp only [obtained, outcome, pending, ↓reduceIte]
      rw [same]
      -- decoding has changed the input side only
      cases dispatch_progress ⟨p.session.taken block buff msg, p.delegate⟩ msg with
      | quiet quiet => exact .quiet quiet
      | granted varId subsId same maps msgs written plain => exact .granted varId subsId same maps msgs written plain
      | removed subsId owned maps written => exact .removed subsId owned maps written

omit [FlightVars δ] in
theorem onReadBeginSession_quiet (bytesTransferred : Except Exception (List UInt8)) (s : Session) :
    Quiet s (onReadBeginSession bytesTransferred s) := by
  have gets : Keeps Quiet (getValue bytesTransferred) := by
    intro s
    unfold getValue
    split <;> exact Quiet.refl _
  have unmarshalls : Keeps Quiet unmarshallInput := by
    intro s
    unfold unmarshallInput
    split <;> exact Quiet.refl _
  have replies : ∀ msg, Keeps Quiet (beginReply msg) := by
    intro msg
    unfold beginReply
    split
    · have plain : Plain (.beginSession ⟨peerName, flightvarsProtocolVersion⟩) := trivial
      exact keeps_bind (R := Quiet) Quiet.trans (writeMessage_quiet plain) fun _ _ => Quiet.refl _
    · exact fun _ => Quiet.refl _
  have quiet : Quiet s (after (beginSession bytesTransferred s)) :=
    keeps_bind (R := Quiet) Quiet.trans gets (fun _ => keeps_bind (R := Quiet) Quiet.trans unmarshalls replies) s
  have caught : ∀ result, Quiet s (after result) → Quiet s (caughtBegin result) := by
    intro result quiet
    unfold caughtBegin
    split <;> exact quiet
  exact caught _ quiet

theorem read_progress {s : Session} {delegate : δ} {p : Peer δ} {bytesTransferred : Except Exception (List UInt8)}
    (step : Step ⟨s, delegate⟩ (.read bytesTransferred) p) :
    Progress s (obtained s delegate bytesTransferred) p.session := by
  cases step with
  | readBegin pending transfers => exact .quiet (onReadBeginSession_quiet bytesTransferred s)
  | readRequest pending transfers => exact onReadRequest_progress pending bytesTransferred

/-- A posted update is written with the id that the mapper has for the variable, if any. -/
theorem sendVarUpdate_cases (varId : VariableId) (varValue : VariableValue) (s : Session) :
    (after (sendVarUpdate varId varValue s) = s) ∨
      ∃ subsId, s.subscriptions.Maps varId subsId ∧
        after (sendVarUpdate varId varValue s) = { s with written := s.written ++ [.varUpdate ⟨subsId, varValue⟩] } := by
  by_cases covers : s.subscriptions.Covers varId
  · obtain ⟨subsId, maps⟩ := SubscriptionMapper.covers_iff.mp covers
    by_cases fits : Fits (.varUpdate ⟨subsId, varValue⟩)
    · refine .inr ⟨subsId, maps, ?_⟩
      simp only [sendVarUpdate, SubscriptionMapper.getSubscriptionId_maps maps, writeMessage_fits fits, after_ok]
    · refine .inl ?_
      simp only [sendVarUpdate, SubscriptionMapper.getSubscriptionId_maps maps, writeMessage_long fits]
      split <;> rfl
  · refine .inl ?_
    simp only [sendVarUpdate, SubscriptionMapper.getSubscriptionId_missing covers, after_ok]

/-! ## The history -/

/-- The history accounts for the mappers of the sessions and for the posted updates. -/
structure Recorded (sv : FlightVarsServer δ) (log : List Record) : Prop where
  mapped : ∀ {k s v i}, sv.sessions k = some s → s.subscriptions.Maps v i →
    .granted k v i ∈ log ∧ ∀ cause, .issued k (.unsubscriptionRep ⟨.unsubscribed, i, cause⟩) ∉ log
  posted : ∀ {k v x}, (k, v, x) ∈ sv.posted → .notified k v x ∈ log
  ended : ∀ {k i cause}, .issued k (.unsubscriptionRep ⟨.unsubscribed, i, cause⟩) ∈ log → ∃ v, .granted k v i ∈ log
  once : ∀ {k v w i}, .granted k v i ∈ log → .granted k w i ∈ log → v = w
  ordered : Ordered InPlace log

omit [FlightVars δ] in
theorem start_recorded (delegate : δ) : Recorded (FlightVarsServer.start delegate) [] where
  mapped := nofun
  posted := nofun
  ended := nofun
  once := nofun
  ordered := ordered_nil

variable {sv : FlightVarsServer δ} {log : List Record} {k : Nat} {s s' : Session}

omit [FlightVars δ] in
/-- One more thing happens to the sessions. -/
theorem Recorded.concat (recorded : Recorded sv log) {event : Record} (allowed : InPlace log event)
    (ends : ∀ {k i cause}, event = .issued k (.unsubscriptionRep ⟨.unsubscribed, i, cause⟩) →
      (∃ v, .granted k v i ∈ log) ∧ ∀ s v, sv.sessions k = some s → ¬ s.subscriptions.Maps v i)
    (grants : ∀ {k v i}, event = .granted k v i → ∀ w, .granted k w i ∉ log) : Recorded sv (log ++ [event]) := by
  refine ⟨?_, ?_, ?_, ?_, recorded.ordered.concat allowed⟩
  · intro k s v i present maps
    obtain ⟨known, live⟩ := recorded.mapped present maps
    refine ⟨List.mem_append_left _ known, fun cause among => ?_⟩
    rcases List.mem_append.mp among with before | now
    · exact live cause before
    · exact (ends (List.mem_singleton.mp now).symm).2 s v present maps
  · intro k v x waiting
    exact List.mem_append_left _ (recorded.posted waiting)
  · intro k i cause among
    have had : ∃ v, .granted k v i ∈ log := by
      rcases List.mem_append.mp among with before | now
      · exact recorded.ended before
      · exact (ends (List.mem_singleton.mp now).symm).1
    obtain ⟨v, known⟩ := had
    exact ⟨v, List.mem_append_left _ known⟩
  · intro k v w i first second
    rcases List.mem_append.mp first with first | now
    · rcases List.mem_append.mp second with second | now
      · exact recorded.once first second
      · exact absurd first (grants (List.mem_singleton.mp now).symm v)
    · have new := grants (List.mem_singleton.mp now).symm
      rcases List.mem_append.mp second with second | now'
      · exact absurd second (new w)
      · have same := (List.mem_singleton.mp now).trans (List.mem_singleton.mp now').symm
        cases same
        rfl

omit [FlightVars δ] in
theorem Recorded.plain (recorded : Recorded sv log) (k : Nat) {msgs : List Message} (plain : ∀ msg ∈ msgs, Plain msg) :
    Recorded sv (log ++ msgs.map (.issued k)) := by
  induction msgs generalizing log with
  | nil => simpa using recorded
  | cons msg msgs ih =>
    obtain ⟨first, rest⟩ := List.forall_mem_cons.mp plain
    have next : Recorded sv (log ++ [.issued k msg]) := by
      refine recorded.concat ?_ ?_ nofun
      · cases msg with
        | varUpdate update => exact first.elim
        | _ => trivial
      · intro k i cause same
        cases same
        exact absurd rfl first
    have more := ih next rest
    rwa [List.append_assoc, List.singleton_append, ← List.map_cons] at more

omit [FlightVars δ] in
/-- A new id, if any. -/
theorem Recorded.grant (recorded : Recorded sv log) {got : Option (VariableId × SubscriptionId)}
    (fresh : ∀ v i, got = some (v, i) → ∀ w, .granted k w i ∉ log) : Recorded sv (log ++ grantedRecords k got) := by
  cases got with
  | none => simpa [grantedRecords] using recorded
  | some pair =>
    obtain ⟨v, i⟩ := pair
    refine recorded.concat trivial nofun ?_
    rintro k' v' i' same
    cases same
    exact fresh v i rfl

omit [FlightVars δ] in
/-- The end of a subscription that is mapped no longer. -/
theorem Recorded.finish (recorded : Recorded sv log) {i : SubscriptionId} (had : ∃ v, .granted k v i ∈ log)
    (gone : ∀ s v, sv.sessions k = some s → ¬ s.subscriptions.Maps v i) :
    Recorded sv (log ++ [.issued k (unsubscribed i)]) := by
  refine recorded.concat trivial ?_ nofun
  rintro k' i' cause same
  cases same
  exact ⟨had, gone⟩

omit [FlightVars δ] in
/-- An update for a variable that is mapped, with a value that was notified. -/
theorem Recorded.update (recorded : Recorded sv log) (present : sv.sessions k = some s) {v : VariableId}
    {i : SubscriptionId} {x : VariableValue} (maps : s.subscriptions.Maps v i) (notified : .notified k v x ∈ log) :
    Recorded sv (log ++ [.issued k (.varUpdate ⟨i, x⟩)]) := by
  obtain ⟨known, live⟩ := recorded.mapped present maps
  exact recorded.concat ⟨⟨v, known, notified⟩, live⟩ nofun nofun

omit [FlightVars δ] in
/-- A session with another mapper that the history accounts for. -/
theorem Recorded.become (recorded : Recorded sv log) {sv' : FlightVarsServer δ}
    (sessions : ∀ j, j ≠ k → sv'.sessions j = sv.sessions j) (posted : ∀ task ∈ sv'.posted, task ∈ sv.posted)
    (mapped : ∀ t v i, sv'.sessions k = some t → t.subscriptions.Maps v i →
      .granted k v i ∈ log ∧ ∀ cause, .issued k (.unsubscriptionRep ⟨.unsubscribed, i, cause⟩) ∉ log) :
    Recorded sv' log := by
  refine ⟨?_, ?_, recorded.ended, recorded.once, recorded.ordered⟩
  · intro j t v i present maps
    by_cases self : j = k
    · subst self
      exact mapped t v i present maps
    · rw [sessions j self] at present
      exact recorded.mapped present maps
  · intro j v x waiting
    exact recorded.posted (posted (j, v, x) waiting)

omit [FlightVars δ] in
theorem messages_eq {sv' : FlightVarsServer δ} (present : sv.sessions k = some s) (present' : sv'.sessions k = some s')
    {msgs : List Message} (written : s'.written = s.written ++ msgs) : messages sv sv' k = msgs := by
  simp only [messages, present, present', written, List.drop_left]

theorem Recorded.read (recorded : Recorded sv log) {live : δ → Set SubscriptionId} (present : sv.sessions k = some s)
    {bytesTransferred : Except Exception (List UInt8)} {p : Peer δ} (step : Step ⟨s, sv.delegate⟩ (.read bytesTransferred) p)
    (fresh : ∀ v i, obtainedBy sv k bytesTransferred = some (v, i) → ∀ w, .granted k w i ∉ log) :
    Recorded (sv.withPeer live k p) (log ++ records sv (.read k bytesTransferred) (sv.withPeer live k p)) := by
  have present' : (sv.withPeer live k p).sessions k = some p.session := FlightVarsServer.withPeer_self live sv k p
  have sessions (j : Nat) (other : j ≠ k) : (sv.withPeer live k p).sessions j = sv.sessions j :=
    Function.update_of_ne other ..
  have got : obtainedBy sv k bytesTransferred = obtained s sv.delegate bytesTransferred := by
    simp only [obtainedBy, present]
  have unissued {w i} {msgs : List Message} (unknown : Record.granted k w i ∉ log) :
      Record.granted k w i ∉ log ++ msgs.map (.issued k) := by
    intro among
    rcases List.mem_append.mp among with before | now
    · exact unknown before
    · obtain ⟨msg, -, same⟩ := List.mem_map.mp now
      cases same
  rw [records, ← List.append_assoc]
  cases read_progress step with
  | quiet quiet =>
    obtain ⟨mapper, msgs, written, plain⟩ := quiet
    rw [messages_eq present present' written]
    refine Recorded.grant ?_ fun v i same w => unissued (fresh v i same w)
    refine (recorded.plain k plain).become sessions (fun _ waiting => waiting) ?_
    rintro t v i found maps
    cases present'.symm.trans found
    rw [mapper] at maps
    exact (recorded.plain k plain).mapped present maps
  | granted v i same maps msgs written plain =>
    rw [messages_eq present present' written]
    have new := fresh v i (got.trans same)
    have granted := (recorded.plain k plain).grant (k := k) fun v i same w => unissued (fresh v i same w)
    refine granted.become sessions (fun _ waiting => waiting) ?_
    rintro t w j found mapped
    cases present'.symm.trans found
    rcases (maps w j).mp mapped with ⟨rfl, rfl⟩ | before
    · refine ⟨?_, fun cause among => ?_⟩
      · rw [got, same]
        exact List.mem_append_right _ List.mem_cons_self
      · rcases List.mem_append.mp among with before | now
        · obtain ⟨u, known⟩ := (recorded.plain k plain).ended before
          exact unissued (new u) known
        · rw [got, same] at now
          cases List.mem_singleton.mp now
    · exact granted.mapped present before
  | removed i owned maps written =>
    rw [messages_eq present present' written]
    obtain ⟨v, mapped⟩ := SubscriptionMapper.owns_iff.mp owned
    have less : Recorded (sv.withPeer live k p) log := by
      refine recorded.become sessions (fun _ waiting => waiting) ?_
      rintro t w j found mapped
      cases present'.symm.trans found
      exact recorded.mapped present ((maps w j).mp mapped).1
    refine Recorded.grant (less.finish ⟨v, (recorded.mapped present mapped).1⟩ ?_) ?_
    · rintro t w found mapped
      cases present'.symm.trans found
      exact ((maps w i).mp mapped).2 rfl
    · intro v i same w
      show Record.granted k w _ ∉ log ++ [unsubscribed _].map (.issued k)
      exact unissued (fresh v i same w)

theorem Recorded.ran (recorded : Recorded sv log) (present : sv.sessions k = some s) {v : VariableId} {x : VariableValue}
    {later : List (Nat × VariableId × VariableValue)} (next : sv.posted = (k, v, x) :: later) :
    Recorded { sv.withSession k (after (sendVarUpdate v x s)) with posted := later }
      (log ++ records sv .ran { sv.withSession k (after (sendVarUpdate v x s)) with posted := later }) := by
  obtain ⟨sv', become⟩ : ∃ sv' : FlightVarsServer δ,
      sv' = { sv.withSession k (after (sendVarUpdate v x s)) with posted := later } := ⟨_, rfl⟩
  have present' : sv'.sessions k = some (after (sendVarUpdate v x s)) := by
    rw [become]
    exact FlightVarsServer.withSession_self sv k _
  have sessions (j : Nat) (other : j ≠ k) : sv'.sessions j = sv.sessions j := by
    rw [become]
    exact Function.update_of_ne other ..
  have fewer (task) (waiting : task ∈ sv'.posted) : task ∈ sv.posted := by
    rw [become] at waiting
    rw [next]
    exact List.mem_cons_of_mem _ waiting
  have notified : .notified k v x ∈ log := recorded.posted (next ▸ List.mem_cons_self)
  rw [← become]
  simp only [records, next]
  rcases sendVarUpdate_cases v x s with same | ⟨i, maps, wrote⟩
  · have silent : messages sv sv' k = [] := messages_eq present present' (by rw [same, List.append_nil])
    rw [silent, List.map_nil, List.append_nil]
    refine recorded.become sessions fewer ?_
    rintro t w i found mapped
    cases present'.symm.trans found
    rw [same] at mapped
    exact recorded.mapped present mapped
  · have issued : messages sv sv' k = [.varUpdate ⟨i, x⟩] := messages_eq present present' (by rw [wrote])
    rw [issued]
    refine (recorded.update present maps notified).become sessions fewer ?_
    rintro t w j found mapped
    cases present'.symm.trans found
    rw [wrote] at mapped
    exact (recorded.update present maps notified).mapped present mapped

theorem Recorded.step {live : δ → Set SubscriptionId} {e : ServerEvent δ} {before now : FlightVarsServer δ × List Record}
    (recorded : Recorded before.1 before.2) (step : RecordedStep live before e now) (fresh : NoReuse before e) :
    Recorded now.1 now.2 := by
  obtain ⟨sv, log⟩ := before
  obtain ⟨sv', log'⟩ := now
  obtain ⟨step, adds⟩ := step
  simp only at step adds recorded ⊢
  subst adds
  cases step with
  | read present step =>
    exact recorded.read present step fun v i got => fresh _ _ v i rfl got
  | ran next present => exact recorded.ran present next
  | notified present =>
    rename_i k s v x
    have told := recorded.concat (show InPlace log (.notified k v x) from trivial) nofun nofun
    refine ⟨told.mapped, ?_, told.ended, told.once, told.ordered⟩
    intro j w y waiting
    rcases List.mem_append.mp waiting with before | now
    · exact List.mem_append_left _ (recorded.posted before)
    · cases List.mem_singleton.mp now
      exact List.mem_append_right _ List.mem_cons_self
  | accepted new =>
    rename_i k
    simp only [records, List.append_nil]
    refine recorded.become (k := k) (fun j other => Function.update_of_ne other ..) (fun _ waiting => waiting) ?_
    rintro t v i found mapped
    rw [FlightVarsServer.withSession_self] at found
    cases found
    exact absurd mapped List.not_mem_nil
  | wrote present step =>
    rename_i k s bytesTransferred p
    simp only [records, List.append_nil]
    refine recorded.become (k := k) (fun j other => Function.update_of_ne other ..) (fun _ waiting => waiting) ?_
    rintro t v i found mapped
    rw [FlightVarsServer.withSession_self] at found
    cases found
    have mapper : p.session.subscriptions = s.subscriptions := by
      cases step with
      | wrote pending =>
        show (onWriteMessage _ _).subscriptions = _
        unfold onWriteMessage
        split <;> rfl
    rw [mapper] at mapped
    exact recorded.mapped present mapped
  | destroyed present closed unused executed =>
    rename_i k s delegate
    simp only [records, List.append_nil]
    refine recorded.become (k := k) (fun j other => Function.update_of_ne other ..) (fun _ waiting => waiting) ?_
    rintro t v i found mapped
    have none : (sv.withoutSession live k delegate).sessions k = none := Function.update_self ..
    cases none.symm.trans found
  | others kept =>
    simp only [records, List.append_nil]
    exact ⟨recorded.mapped, recorded.posted, recorded.ended, recorded.once, recorded.ordered⟩

/-- Over a delegate that gives a session no id twice, whatever is notified at any time: an
    update is issued only after the handler that got its subscription has completed and
    before the reply that ends it, and its value was notified for the one variable that
    the subscription is for. -/
theorem updates_in_place {live : δ → Set SubscriptionId} {delegate : δ}
    (run : Run (Meeting (RecordedStep live) NoReuse) (.start delegate, []) (sv, log)) :
    Ordered InPlace log ∧ ∀ k v w i, .granted k v i ∈ log → .granted k w i ∈ log → v = w := by
  have recorded : Recorded sv log := run.invariant (I := fun now => Recorded now.1 now.2) (start_recorded delegate)
    fun recorded last => recorded.step last.1 last.2
  exact ⟨recorded.ordered, fun k v w i => recorded.once⟩

theorem noReuse_of_ne {before : FlightVarsServer δ × List Record} {e : ServerEvent δ}
    (other : ∀ k bytesTransferred, e ≠ .read k bytesTransferred) : NoReuse before e :=
  fun k bytesTransferred _ _ same => absurd same (other k bytesTransferred)

theorem recorded_next {live : δ → Set SubscriptionId} {start : FlightVarsServer δ × List Record}
    (run : Run (Meeting (RecordedStep live) NoReuse) start (sv, log)) {e : ServerEvent δ} {sv' : FlightVarsServer δ}
    (step : FlightVarsServer.Step live sv e sv') (fresh : NoReuse (sv, log) e) :
    Run (Meeting (RecordedStep live) NoReuse) start (sv', log ++ records sv e sv') := by
  have last : RecordedStep live (sv, log) e (sv', log ++ records sv e sv') := ⟨step, rfl⟩
  exact run.next ⟨last, fresh⟩

/-- A session subscribes to a variable, and an update of it is written. -/
theorem updates_in_place_one : ∃ (sv : FlightVarsServer Registry) (log : List Record),
    Run (Meeting (RecordedStep Registry.live) NoReuse) (.start Registry.empty, []) (sv, log) ∧ Ordered InPlace log ∧
      .issued 0 (.varUpdate ⟨1, .byte 5⟩) ∈ log := by
  obtain ⟨block, s₁, s₂, read, wrote, idle⟩ := idle_reached Registry.empty
  obtain ⟨req, named⟩ : ∃ req : SubscriptionRequestMessage, req = ⟨text "airbus", text "alt"⟩ := ⟨_, rfl⟩
  have valid : (Message.subscriptionReq req).Valid := by
    subst named
    show (text "airbus").length ≤ 0xffff ∧ (text "alt").length ≤ 0xffff
    decide
  have short : (wire (.subscriptionReq req)).length < inputCapacity := by
    subst named
    decide
  obtain ⟨⟨buff, asks⟩, -⟩ := idle.reads Registry.empty valid short
  obtain ⟨q, same, -, single, ids⟩ := first_subscription
    (p := ⟨s₂.taken (wire (.subscriptionReq req)) buff (.subscriptionReq req), Registry.empty⟩) idle.subscriptions rfl req
  rw [same] at asks
  obtain ⟨one, first⟩ : ∃ one, one = (FlightVarsServer.start Registry.empty).withSession 0 accepted := ⟨_, rfl⟩
  obtain ⟨two, second⟩ : ∃ two, two = one.withPeer Registry.live 0 ⟨s₁, Registry.empty⟩ := ⟨_, rfl⟩
  obtain ⟨three, third⟩ : ∃ three, three = two.withSession 0 s₂ := ⟨_, rfl⟩
  obtain ⟨four, fourth⟩ : ∃ four, four = three.withPeer Registry.live 0 (answered q (subscribed req 1)) := ⟨_, rfl⟩
  have at_one : one.sessions 0 = some accepted := by rw [first, FlightVarsServer.withSession_self]
  have at_two : two.sessions 0 = some s₁ := by rw [second, FlightVarsServer.withPeer_self]
  have at_three : three.sessions 0 = some s₂ := by rw [third, FlightVarsServer.withSession_self]
  have at_four : four.sessions 0 = some (answered q (subscribed req 1)).session := by
    rw [fourth, FlightVarsServer.withPeer_self]
  have opened : FlightVarsServer.Step Registry.live (.start Registry.empty) (.accepted 0) one := first ▸ .accepted rfl
  have greets : FlightVarsServer.Step Registry.live one (.read 0 (.ok block)) two := by
    rw [second]
    refine .read at_one ?_
    rw [first]
    exact read
  have answers : FlightVarsServer.Step Registry.live two (.wrote 0 (.ok 0)) three := by
    rw [third]
    refine .wrote (p := ⟨s₂, Registry.empty⟩) at_two ?_
    rw [second]
    exact wrote
  have subscribes : FlightVarsServer.Step Registry.live three (.read 0 (.ok (wire (.subscriptionReq req)))) four := by
    rw [fourth]
    refine .read at_three ?_
    rw [third, second]
    exact asks
  have ungranted : obtainedBy one 0 (.ok block) = none := by
    rw [obtainedBy, at_one]
    exact obtained_none (show accepted.phase ≠ .readingRequest by nofun) one.delegate (.ok block)
  have reads : NoReuse (three, records one (.read 0 (.ok block)) two) (.read 0 (.ok (wire (.subscriptionReq req)))) := by
    intro k bytesTransferred v i _ _ w among
    rw [records, ungranted] at among
    simp [grantedRecords] at among
  have run₁ := recorded_next (Run.refl (.start Registry.empty, [])) opened (noReuse_of_ne nofun)
  have run₂ := recorded_next run₁ greets fun _ _ _ _ _ _ w => List.not_mem_nil
  have run₃ := recorded_next run₂ answers (noReuse_of_ne nofun)
  simp only [show records (.start Registry.empty) (.accepted 0) one = [] from rfl,
    show records two (.wrote 0 (.ok 0)) three = [] from rfl, List.nil_append, List.append_nil] at run₃
  have run₄ := recorded_next run₃ subscribes reads
  obtain ⟨v, isVariable⟩ : ∃ v, v = variableId req.varGrp req.varName := ⟨_, rfl⟩
  obtain ⟨five, fifth⟩ : ∃ five, five = { four with posted := four.posted ++ [(0, v, VariableValue.byte 5)] } := ⟨_, rfl⟩
  have told : FlightVarsServer.Step Registry.live four (.notified 0 v (.byte 5)) five := fifth ▸ .notified at_four
  have run₅ := recorded_next run₄ told (noReuse_of_ne nofun)
  have at_five : five.sessions 0 = some (answered q (subscribed req 1)).session := by
    rw [fifth]
    exact at_four
  have waiting : five.posted = [(0, v, .byte 5)] := by
    rw [fifth, fourth, third, second, first]
    rfl
  obtain ⟨six, sixth⟩ : ∃ six, six = { five.withSession 0 (after (sendVarUpdate v (.byte 5)
      (answered q (subscribed req 1)).session)) with posted := [] } := ⟨_, rfl⟩
  have delivers : FlightVarsServer.Step Registry.live five .ran six := sixth ▸ .ran waiting at_five
  have run₆ := recorded_next run₅ delivers (noReuse_of_ne nofun)
  have at_six : six.sessions 0 = some (after (sendVarUpdate v (.byte 5) (answered q (subscribed req 1)).session)) := by
    rw [sixth]
    exact FlightVarsServer.withSession_self five 0 _
  have mapped : (answered q (subscribed req 1)).session.subscriptions.Maps v 1 := by
    rw [answered_subscriptions, isVariable]
    exact (SubscriptionMapper.maps_single single).mpr ⟨rfl, rfl⟩
  have sends : messages five six 0 = [.varUpdate ⟨1, .byte 5⟩] := by
    refine messages_eq at_five at_six ?_
    have fits : Fits (.varUpdate ⟨1, .byte 5⟩) := by decide
    simp only [sendVarUpdate, SubscriptionMapper.getSubscriptionId_maps mapped, writeMessage_fits fits, after_ok]
  refine ⟨six, _, run₆, (updates_in_place run₆).1, List.mem_append_right _ ?_⟩
  simp only [records, waiting, sends]
  exact List.mem_singleton_self _

end Oac.Server
