import Oac.Client.ConnectionManager

/-!
# Effects on the connection manager

What a request task does once it runs (`TaskEffect`), and what a message does once it is
decoded (`ReplyEffect`).
-/
namespace Oac.Client
open Base Proto

/-- The number of the request of a task. -/
def Task.id : Task → Nat
  | .subscription req => req.id
  | .unsubscription req => req.id
  | .variableUpdate req => req.id

namespace ConnectionManager
variable {m : ConnectionManager}

theorem sendMessage_fits {msg : Message} (fits : Fits msg) (m : ConnectionManager) :
    sendMessage msg m = .ok () { m with sent := m.sent ++ [msg] } := by
  obtain ⟨buff, executed, -⟩ := (serialize_output msg).1 fits
  rw [sendMessage, executed]

theorem sendMessage_long {msg : Message} (long : ¬ Fits msg) (m : ConnectionManager) :
    sendMessage msg m = .error .eof m := by
  obtain ⟨buff, raised⟩ := (serialize_output msg).2 long
  rw [sendMessage, raised]

/-- A message is sent or, if it is too long, not. -/
theorem sendMessage_after (msg : Message) (m : ConnectionManager) :
    after (sendMessage msg m) = { m with sent := m.sent ++ if Fits msg then [msg] else [] } := by
  by_cases fits : Fits msg
  · rw [sendMessage_fits fits, if_pos fits]
    rfl
  · rw [sendMessage_long fits, if_neg fits, List.append_nil]
    rfl

theorem fits_unsubscriptionReq (subsId : SubscriptionId) : Fits (.unsubscriptionReq ⟨subsId⟩) := by
  rw [fits_iff]
  show 8 ≤ 1024
  omega

theorem fits_varUpdate (subsId : SubscriptionId) (varValue : VariableValue) : Fits (.varUpdate ⟨subsId, varValue⟩) := by
  rw [fits_iff]
  cases varValue <;> (simp only [Message.size]; omega)

/-! ## Tasks -/

theorem runTask_subscription (req : SubscriptionRequest) : runTask (.subscription req) = onSubscriptionRequested req := rfl

/-- What a task does. -/
inductive TaskEffect (m : ConnectionManager) : Task → ConnectionManager → Prop
  | bound {req : SubscriptionRequest} {db : SubscriptionDb} (virtSubsId : SubscriptionId) (same : db.pairs = m.db.pairs) :
      TaskEffect m (.subscription req) { m with
        db
        resolved := m.resolved ++ [(req.id, .subscribed virtSubsId)] }
  | requested {req : SubscriptionRequest} (undefined : ¬ m.db.Defined req.varId) :
      TaskEffect m (.subscription req) { m with
        requestPool := m.requestPool.insertSubscription req
        sent := m.sent ++ if Fits (.subscriptionReq ⟨req.varId.group, req.varId.name⟩)
          then [.subscriptionReq ⟨req.varId.group, req.varId.name⟩] else [] }
  | unbound {req : UnsubscriptionRequest} {db : SubscriptionDb} (same : db.pairs = m.db.pairs) :
      TaskEffect m (.unsubscription req) { m with
        db
        resolved := m.resolved ++ [(req.id, .done)] }
  | ended {req : UnsubscriptionRequest} {db : SubscriptionDb} {varId : VariableId} {masterSubsId : SubscriptionId}
      (maps : m.db.Maps varId masterSubsId) (removed : m.db.removeVirtualSubscription req.virtualSubsId = .ok (true, db))
      (less : db.pairs = m.db.pairs.filter fun pair => pair.1 ≠ varId) :
      TaskEffect m (.unsubscription req) { m with
        db
        requestPool := m.requestPool.insertUnsubscription { req with masterSubsId }
        sent := m.sent ++ [.unsubscriptionReq ⟨masterSubsId⟩] }
  | updated {req : VariableUpdateRequest} (masterSubsId : SubscriptionId) :
      TaskEffect m (.variableUpdate req) { m with
        sent := m.sent ++ [.varUpdate ⟨masterSubsId, req.varValue⟩]
        resolved := m.resolved ++ [(req.id, .done)] }
  | unknown {task : Task} (e : Exception) :
      TaskEffect m task { m with resolved := m.resolved ++ [(task.id, .failed e)] }

/-- The server is asked for a variable that has no entry. -/
theorem onSubscriptionRequested_undefined (m : ConnectionManager) {req : SubscriptionRequest}
    (undefined : ¬ m.db.Defined req.varId) : after (onSubscriptionRequested req m) = { m with
      requestPool := m.requestPool.insertSubscription req
      sent := m.sent ++ if Fits (.subscriptionReq ⟨req.varId.group, req.varId.name⟩)
        then [.subscriptionReq ⟨req.varId.group, req.varId.name⟩] else [] } := by
  have executed : onSubscriptionRequested req m = sendMessage (.subscriptionReq ⟨req.varId.group, req.varId.name⟩)
      { m with requestPool := m.requestPool.insertSubscription req } := by
    simp only [onSubscriptionRequested, SubscriptionDb.entryDefined, undefined, decide_false, Bool.false_eq_true, ↓reduceIte]
  rw [executed, sendMessage_after]

/-- The entry of a variable takes one subscription more. -/
theorem onSubscriptionRequested_defined (m : ConnectionManager) {req : SubscriptionRequest} (defined : m.db.Defined req.varId) :
    ∃ db, onSubscriptionRequested req m = .ok () { m with
        db
        resolved := m.resolved ++ [(req.id, .subscribed m.db.nextId)] } ∧
      m.db.Added req.varId req.handler db ∧ db.pairs = m.db.pairs := by
  obtain ⟨db, added, more, same⟩ := SubscriptionDb.addVirtualSubscription_added req.handler defined
  refine ⟨db, ?_, more, same⟩
  simp only [onSubscriptionRequested, SubscriptionDb.entryDefined, defined, decide_true, ↓reduceIte, added, resolve]

theorem onSubscriptionRequested_effect (m : ConnectionManager) (req : SubscriptionRequest) :
    TaskEffect m (.subscription req) (after (onSubscriptionRequested req m)) := by
  by_cases defined : m.db.Defined req.varId
  · obtain ⟨db, executed, -, same⟩ := onSubscriptionRequested_defined m defined
    rw [executed]
    exact .bound _ same
  · rw [onSubscriptionRequested_undefined m defined]
    exact .requested defined

theorem onUnsubscriptionRequested_effect (m : ConnectionManager) (req : UnsubscriptionRequest) :
    TaskEffect m (.unsubscription req) (after (onUnsubscriptionRequested req m)) := by
  cases refers : m.db.virtualSubsIdMap req.virtualSubsId with
  | none =>
    have executed : onUnsubscriptionRequested req m = .ok () { m with
        resolved := m.resolved ++ [(req.id, .failed (.noSuchSubscription req.virtualSubsId))] } := by
      simp only [onUnsubscriptionRequested, SubscriptionDb.getMasterSubscriptionId_missing refers, resolve]
    rw [executed]
    exact .unknown _
  | some varId =>
    obtain ⟨masterSubsId, found, maps⟩ := SubscriptionDb.getMasterSubscriptionId_maps refers
    obtain ⟨last, db, removed, pairs⟩ := SubscriptionDb.removeVirtualSubscription_pairs refers
    cases last with
    | true =>
      have executed : onUnsubscriptionRequested req m = sendMessage (.unsubscriptionReq ⟨masterSubsId⟩) { m with
          db
          requestPool := m.requestPool.insertUnsubscription { req with masterSubsId } } := by
        simp only [onUnsubscriptionRequested, found, removed]
      rw [executed, sendMessage_fits (fits_unsubscriptionReq masterSubsId)]
      exact .ended maps removed pairs
    | false =>
      have executed : onUnsubscriptionRequested req m = .ok () { m with
          db
          resolved := m.resolved ++ [(req.id, .done)] } := by
        simp only [onUnsubscriptionRequested, found, removed, resolve]
      rw [executed]
      exact .unbound pairs

theorem onVariableUpdateRequested_effect (m : ConnectionManager) (req : VariableUpdateRequest) :
    TaskEffect m (.variableUpdate req) (after (onVariableUpdateRequested req m)) := by
  cases refers : m.db.virtualSubsIdMap req.virtualSubsId with
  | none =>
    have executed : onVariableUpdateRequested req m = .ok () { m with
        resolved := m.resolved ++ [(req.id, .failed (.noSuchSubscription req.virtualSubsId))] } := by
      simp only [onVariableUpdateRequested, SubscriptionDb.getMasterSubscriptionId_missing refers, resolve]
    rw [executed]
    exact .unknown _
  | some varId =>
    obtain ⟨masterSubsId, found, -⟩ := SubscriptionDb.getMasterSubscriptionId_maps refers
    have executed : onVariableUpdateRequested req m = .ok () { m with
        sent := m.sent ++ [.varUpdate ⟨masterSubsId, req.varValue⟩]
        resolved := m.resolved ++ [(req.id, .done)] } := by
      simp only [onVariableUpdateRequested, found]
      exact (ok_bind (sendMessage_fits (fits_varUpdate masterSubsId req.varValue) m)).trans rfl
    rw [executed]
    exact .updated masterSubsId

theorem runTask_effect (m : ConnectionManager) (task : Task) : TaskEffect m task (after (runTask task m)) := by
  cases task with
  | subscription req => exact onSubscriptionRequested_effect m req
  | unsubscription req => exact onUnsubscriptionRequested_effect m req
  | variableUpdate req => exact onVariableUpdateRequested_effect m req

/-! ## Replies -/

/-- The manager once the requests of a variable are popped. -/
def poppedSubscriptions (m : ConnectionManager) (varId : VariableId) : ConnectionManager :=
  { m with requestPool := (m.requestPool.popSubscriptionRequests varId).2 }

/-- The manager once the requests of a master subscription are popped. -/
def poppedUnsubscriptions (m : ConnectionManager) (subsId : SubscriptionId) : ConnectionManager :=
  { m with requestPool := (m.requestPool.popUnsubscriptionRequests subsId).2 }

/-- The numbers of the requests for a variable. -/
def subscriptionIds (m : ConnectionManager) (varId : VariableId) : List Nat :=
  (m.requestPool.subscriptionRequests varId).map SubscriptionRequest.id
/-- The numbers of the requests for a master subscription. -/
def unsubscriptionIds (m : ConnectionManager) (subsId : SubscriptionId) : List Nat :=
  (m.requestPool.unsubscriptionRequests subsId).map UnsubscriptionRequest.id

theorem unexpectedStatus_not_eof (st : SubscriptionStatus) (msgType : MessageType) :
    unexpectedStatus st msgType ≠ .eof := by
  cases st <;> nofun

/-- What a message does, and what it raises. -/
inductive ReplyEffect (m : ConnectionManager) : Message → EStateM.Result Exception ConnectionManager Unit → Prop
  | unasked {msg : SubscriptionReplyMessage}
      (none : m.requestPool.subscriptionRequests (variableId msg.varGrp msg.varName) = []) :
      ReplyEffect m (.subscriptionRep msg) (.error (.unexpectedMessage .subscriptionRep)
        (m.poppedSubscriptions (variableId msg.varGrp msg.varName)))
  | refused {msg : SubscriptionReplyMessage}
      (some : m.requestPool.subscriptionRequests (variableId msg.varGrp msg.varName) ≠ []) (status : msg.st = .noSuchVar) :
      ReplyEffect m (.subscriptionRep msg) (.ok () { m.poppedSubscriptions (variableId msg.varGrp msg.varName) with
        resolved := m.resolved ++ (m.subscriptionIds (variableId msg.varGrp msg.varName)).map fun id =>
          (id, .failed (.noSuchVariable (variableId msg.varGrp msg.varName))) })
  | granted {msg : SubscriptionReplyMessage} {db : SubscriptionDb} {answers : List (Nat × Resolution)}
      (some : m.requestPool.subscriptionRequests (variableId msg.varGrp msg.varName) ≠ []) (status : msg.st = .subscribed)
      (bindable : m.db.Defined (variableId msg.varGrp msg.varName) ∨ ¬ m.db.MasterDefined msg.subsId)
      (answered : answers.map Prod.fst = m.subscriptionIds (variableId msg.varGrp msg.varName))
      (pairs : db.pairs = if m.db.Defined (variableId msg.varGrp msg.varName) then m.db.pairs
        else (variableId msg.varGrp msg.varName, msg.subsId) :: m.db.pairs) :
      ReplyEffect m (.subscriptionRep msg) (.ok () { m.poppedSubscriptions (variableId msg.varGrp msg.varName) with
        db
        resolved := m.resolved ++ answers })
  | clashing {msg : SubscriptionReplyMessage}
      (some : m.requestPool.subscriptionRequests (variableId msg.varGrp msg.varName) ≠ []) (status : msg.st = .subscribed)
      (undefined : ¬ m.db.Defined (variableId msg.varGrp msg.varName)) (used : m.db.MasterDefined msg.subsId) :
      ReplyEffect m (.subscriptionRep msg) (.error .communication
        (m.poppedSubscriptions (variableId msg.varGrp msg.varName)))
  | oddSubscription {msg : SubscriptionReplyMessage}
      (some : m.requestPool.subscriptionRequests (variableId msg.varGrp msg.varName) ≠ [])
      (status : msg.st ≠ .noSuchVar ∧ msg.st ≠ .subscribed) :
      ReplyEffect m (.subscriptionRep msg) (.error (unexpectedStatus msg.st .subscriptionReq)
        (m.poppedSubscriptions (variableId msg.varGrp msg.varName)))
  | unaskedEnd {msg : UnsubscriptionReplyMessage} (none : m.requestPool.unsubscriptionRequests msg.subsId = []) :
      ReplyEffect m (.unsubscriptionRep msg) (.error (.unexpectedMessage .unsubscriptionRep)
        (m.poppedUnsubscriptions msg.subsId))
  | ended {msg : UnsubscriptionReplyMessage} (resolution : Resolution)
      (some : m.requestPool.unsubscriptionRequests msg.subsId ≠ [])
      (status : msg.st = .noSuchSubscription ∨ msg.st = .unsubscribed) :
      ReplyEffect m (.unsubscriptionRep msg) (.ok () { m.poppedUnsubscriptions msg.subsId with
        resolved := m.resolved ++ (m.unsubscriptionIds msg.subsId).map fun id => (id, resolution) })
  | oddEnd {msg : UnsubscriptionReplyMessage} (some : m.requestPool.unsubscriptionRequests msg.subsId ≠ [])
      (status : msg.st ≠ .noSuchSubscription ∧ msg.st ≠ .unsubscribed) :
      ReplyEffect m (.unsubscriptionRep msg) (.error (unexpectedStatus msg.st .unsubscriptionRep)
        (m.poppedUnsubscriptions msg.subsId))
  | updated {msg : VarUpdateMessage} (calls : List (Nat × VariableId × VariableValue)) (errors : List Exception) :
      ReplyEffect m (.varUpdate msg) (.ok () { m with
        invoked := m.invoked ++ calls
        reported := m.reported ++ errors })
  | unexpected {msg : Message} (e : Exception) (other : e ≠ .eof) (noSubscription : ∀ rep, msg ≠ .subscriptionRep rep)
      (noUnsubscription : ∀ rep, msg ≠ .unsubscriptionRep rep) (noUpdate : ∀ update, msg ≠ .varUpdate update) :
      ReplyEffect m msg (.error e m)

/-- A request and the virtual subscription it is given. -/
structure Grant where
  req : SubscriptionRequest
  virtSubsId : SubscriptionId

/-- What the promise is set to. -/
def Grant.answer (g : Grant) : Nat × Resolution := (g.req.id, .subscribed g.virtSubsId)
/-- What the DB holds. -/
def Grant.subscription (g : Grant) : Subscription := ⟨g.virtSubsId, g.req.handler⟩

/-- The DB with the virtual subscriptions that were granted for a variable. -/
structure Bound (db : SubscriptionDb) (varId : VariableId) (grants : List Grant) (db' : SubscriptionDb) : Prop where
  holds : ∀ {w s}, db'.Holds w s ↔ db.Holds w s ∨ (w = varId ∧ s ∈ grants.map Grant.subscription)
  indexed : db.Roomy grants.length → db.Indexed → db'.Indexed

theorem Bound.none (db : SubscriptionDb) (varId : VariableId) : Bound db varId [] db := by
  constructor
  · simp
  · exact fun _ => id

/-- The first grant is made before the others. -/
theorem Bound.first {db db' db'' : SubscriptionDb} {varId : VariableId} {req : SubscriptionRequest} {grants : List Grant}
    (added : db.Added varId req.handler db') (bound : Bound db' varId grants db'') :
    Bound db varId (⟨req, db.nextId⟩ :: grants) db'' := by
  constructor
  · intro w s
    rw [bound.holds, added.holds, List.map_cons, List.mem_cons]
    simp only [Grant.subscription]
    tauto
  · intro roomy indexed
    obtain ⟨unused, roomy'⟩ := added.roomy roomy
    exact bound.indexed roomy' (added.indexed unused indexed)

theorem answers_ids {grants : List Grant} {reqs : List SubscriptionRequest} (asked : grants.map Grant.req = reqs) :
    (grants.map Grant.answer).map Prod.fst = reqs.map SubscriptionRequest.id := by
  rw [← asked, List.map_map, List.map_map]
  rfl

/-- An entry that is there takes the subscriptions one after another. -/
theorem bindRequests_defined {varId : VariableId} (masterSubsId : SubscriptionId) (reqs : List SubscriptionRequest)
    {m : ConnectionManager} (defined : m.db.Defined varId) : ∃ db grants,
      bindRequests varId masterSubsId reqs m = .ok () { m with
        db
        resolved := m.resolved ++ grants.map Grant.answer } ∧
      grants.map Grant.req = reqs ∧ Bound m.db varId grants db ∧ db.pairs = m.db.pairs := by
  induction reqs generalizing m with
  | nil => exact ⟨m.db, [], by simp [bindRequests], rfl, .none .., rfl⟩
  | cons req later ih =>
    obtain ⟨db, added, more, same⟩ := SubscriptionDb.addVirtualSubscription_added req.handler defined
    obtain ⟨db', grants, executed, asked, bound, pairs⟩ := ih (m := { m with
      db
      resolved := m.resolved ++ [(req.id, .subscribed m.db.nextId)] }) more.defined
    refine ⟨db', ⟨req, m.db.nextId⟩ :: grants, ?_, by rw [List.map_cons, asked], .first more bound, pairs.trans same⟩
    have bound : bindRequests varId masterSubsId (req :: later) m = bindRequests varId masterSubsId later { m with
        db
        resolved := m.resolved ++ [(req.id, .subscribed m.db.nextId)] } := by
      simp only [bindRequests, SubscriptionDb.entryDefined, defined, decide_true, ↓reduceIte, added]
      exact ok_bind rfl
    rw [bound, executed]
    simp only [List.append_assoc, List.singleton_append, List.map_cons, Grant.answer]

/-- The first subscription makes the entry. -/
theorem bindRequests_undefined {varId : VariableId} {masterSubsId : SubscriptionId} {reqs : List SubscriptionRequest}
    (some : reqs ≠ []) {m : ConnectionManager} (undefined : ¬ m.db.Defined varId)
    (unused : ¬ m.db.MasterDefined masterSubsId) : ∃ db grants,
      bindRequests varId masterSubsId reqs m = .ok () { m with
        db
        resolved := m.resolved ++ grants.map Grant.answer } ∧
      grants.map Grant.req = reqs ∧ Bound m.db varId grants db ∧ db.pairs = (varId, masterSubsId) :: m.db.pairs := by
  cases reqs with
  | nil => exact absurd rfl some
  | cons req later =>
    obtain ⟨db, created, more, pairs⟩ := SubscriptionDb.createEntry_added req.handler undefined unused
    obtain ⟨db', grants, executed, asked, bound, same⟩ := bindRequests_defined masterSubsId later (m := { m with
      db
      resolved := m.resolved ++ [(req.id, .subscribed m.db.nextId)] }) more.defined
    refine ⟨db', ⟨req, m.db.nextId⟩ :: grants, ?_, by rw [List.map_cons, asked], .first more bound, same.trans pairs⟩
    have bound : bindRequests varId masterSubsId (req :: later) m = bindRequests varId masterSubsId later { m with
        db
        resolved := m.resolved ++ [(req.id, .subscribed m.db.nextId)] } := by
      simp only [bindRequests, SubscriptionDb.entryDefined, undefined, decide_false, Bool.false_eq_true, ↓reduceIte, created]
      exact ok_bind rfl
    rw [bound, executed]
    simp only [List.append_assoc, List.singleton_append, List.map_cons, Grant.answer]

theorem bindRequests_clash {varId : VariableId} {masterSubsId : SubscriptionId} {reqs : List SubscriptionRequest}
    (some : reqs ≠ []) {m : ConnectionManager} (undefined : ¬ m.db.Defined varId) (used : m.db.MasterDefined masterSubsId) :
    bindRequests varId masterSubsId reqs m = .error .communication m := by
  cases reqs with
  | nil => exact absurd rfl some
  | cons req later =>
    simp only [bindRequests, SubscriptionDb.entryDefined, undefined, decide_false, Bool.false_eq_true, ↓reduceIte,
      SubscriptionDb.createEntry_clash req.handler undefined used]

theorem onSubscriptionReplyReceived_effect (m : ConnectionManager) (msg : SubscriptionReplyMessage) :
    ReplyEffect m (.subscriptionRep msg) (onSubscriptionReplyReceived msg m) := by
  by_cases none : m.requestPool.subscriptionRequests (variableId msg.varGrp msg.varName) = []
  · have raised : onSubscriptionReplyReceived msg m = .error (.unexpectedMessage .subscriptionRep)
        (m.poppedSubscriptions (variableId msg.varGrp msg.varName)) := if_pos none
    rw [raised]
    exact .unasked none
  have popped : onSubscriptionReplyReceived msg m = _ := if_neg none
  cases status : msg.st with
  | noSuchVar =>
    rw [popped, status]
    exact .refused none status
  | subscribed =>
    rw [popped, status]
    show ReplyEffect m _ (bindRequests _ _ _ (m.poppedSubscriptions (variableId msg.varGrp msg.varName)))
    by_cases defined : m.db.Defined (variableId msg.varGrp msg.varName)
    · obtain ⟨db, grants, executed, asked, -, pairs⟩ := bindRequests_defined msg.subsId
        (m.requestPool.subscriptionRequests (variableId msg.varGrp msg.varName))
        (m := m.poppedSubscriptions (variableId msg.varGrp msg.varName)) defined
      rw [executed]
      exact .granted none status (.inl defined) (answers_ids asked) (by rw [if_pos defined]; exact pairs)
    · by_cases used : m.db.MasterDefined msg.subsId
      · have raised := bindRequests_clash none
          (m := m.poppedSubscriptions (variableId msg.varGrp msg.varName)) defined used
        rw [raised]
        exact .clashing none status defined used
      · obtain ⟨db, grants, executed, asked, -, pairs⟩ := bindRequests_undefined none
          (m := m.poppedSubscriptions (variableId msg.varGrp msg.varName)) defined used
        rw [executed]
        exact .granted none status (.inr used) (answers_ids asked) (by rw [if_neg defined]; exact pairs)
  | _ =>
    rw [popped]
    have odd : msg.st ≠ .noSuchVar ∧ msg.st ≠ .subscribed := by simp [status]
    have effect := ReplyEffect.oddSubscription none odd
    rw [status] at effect ⊢
    exact effect

theorem onUnsubscriptionReplyReceived_effect (m : ConnectionManager) (msg : UnsubscriptionReplyMessage) :
    ReplyEffect m (.unsubscriptionRep msg) (onUnsubscriptionReplyReceived msg m) := by
  by_cases none : m.requestPool.unsubscriptionRequests msg.subsId = []
  · have raised : onUnsubscriptionReplyReceived msg m = .error (.unexpectedMessage .unsubscriptionRep)
        (m.poppedUnsubscriptions msg.subsId) := if_pos none
    rw [raised]
    exact .unaskedEnd none
  have popped : onUnsubscriptionReplyReceived msg m = _ := if_neg none
  cases status : msg.st with
  | noSuchSubscription =>
    rw [popped, status]
    exact .ended _ none (.inl status)
  | unsubscribed =>
    rw [popped, status]
    exact .ended _ none (.inr status)
  | _ =>
    rw [popped]
    have odd : msg.st ≠ .noSuchSubscription ∧ msg.st ≠ .unsubscribed := by simp [status]
    have effect := ReplyEffect.oddEnd none odd
    rw [status] at effect ⊢
    exact effect

theorem onVariableUpdateReceived_effect (m : ConnectionManager) (msg : VarUpdateMessage) :
    ReplyEffect m (.varUpdate msg) (onVariableUpdateReceived msg m) := by
  cases found : m.db.invokeHandlers msg.subsId msg.varValue with
  | ok calls =>
    have executed : onVariableUpdateReceived msg m = .ok () { m with
        invoked := m.invoked ++ calls
        reported := m.reported ++ [] } := by
      simp only [onVariableUpdateReceived, found, List.append_nil]
    rw [executed]
    exact .updated calls []
  | error e =>
    have executed : onVariableUpdateReceived msg m = .ok () { m with
        invoked := m.invoked ++ []
        reported := m.reported ++ [e] } := by
      simp only [onVariableUpdateReceived, found, List.append_nil]
      rfl
    rw [executed]
    exact .updated [] [e]

theorem dispatch_effect (m : ConnectionManager) (msg : Message) : ReplyEffect m msg (dispatch msg m) := by
  cases msg with
  | subscriptionRep msg => exact onSubscriptionReplyReceived_effect m msg
  | unsubscriptionRep msg => exact onUnsubscriptionReplyReceived_effect m msg
  | varUpdate msg => exact onVariableUpdateReceived_effect m msg
  | _ => exact .unexpected _ nofun nofun nofun nofun

/-- No handler of replies raises what the receive loop takes for missing bytes. -/
theorem ReplyEffect.not_eof {m m' : ConnectionManager} {msg : Message} {e : Exception}
    (effect : ReplyEffect m msg (.error e m')) : e ≠ .eof := by
  cases effect with
  | unexpected e other => exact other
  | oddSubscription => exact unexpectedStatus_not_eof _ _
  | oddEnd => exact unexpectedStatus_not_eof _ _
  | _ => nofun

/-- A reply does not end the session, whatever it raises. -/
theorem ReplyEffect.session {m : ConnectionManager} {msg : Message} {result : EStateM.Result Exception ConnectionManager Unit}
    (effect : ReplyEffect m msg result) : (after result).submitted = m.submitted ∧ (after result).state = m.state := by
  cases effect <;> exact ⟨rfl, rfl⟩

/-- A task does not end the session. -/
theorem TaskEffect.session {m m' : ConnectionManager} {task : Task} (effect : TaskEffect m task m') :
    m'.submitted = m.submitted ∧ m'.state = m.state := by
  cases effect <;> exact ⟨rfl, rfl⟩

end ConnectionManager
end Oac.Client
