import Oac.Base.Run
import Oac.Client.Requests
import Oac.Proto.Input
import Oac.Proto.Output

/-!
# The connection manager

The state of a `connection_manager`, its request tasks and its receive loop. `received`
and `decoded` only record what has happened.
-/
namespace Oac.Client
open Base Proto

/-- Where the receive loop is. -/
inductive Phase where
  /-- a read of `handshake` is pending -/
  | handshaking
  /-- a read for `on_message_received` is pending -/
  | receiving
  /-- the read that is pending will be ignored -/
  | closing
  /-- no read is pending -/
  | stopped
  deriving DecidableEq

/-- A posted task. -/
inductive Task where
  | subscription (req : SubscriptionRequest)
  | unsubscription (req : UnsubscriptionRequest)
  | variableUpdate (req : VariableUpdateRequest)

/-- The `connection_state` without the futures that were asked of it. -/
structure ConnectionState where
  connected : Bool
  error : Option Exception

namespace ConnectionState

def disconnect (state : ConnectionState) : ConnectionState := if state.connected then ⟨false, state.error⟩ else state
def disconnectWithError (state : ConnectionState) (e : Exception) : ConnectionState :=
  if state.connected then ⟨false, some e⟩ else state

@[simp] theorem disconnect_connected (state : ConnectionState) : state.disconnect.connected = false := by
  unfold disconnect
  split
  · rfl
  · simp_all

@[simp] theorem disconnectWithError_connected (state : ConnectionState) (e : Exception) :
    (state.disconnectWithError e).connected = false := by
  unfold disconnectWithError
  split
  · rfl
  · simp_all

end ConnectionState

structure ConnectionManager where
  state : ConnectionState
  phase : Phase
  inputBuffer : RingBuffer
  db : SubscriptionDb
  requestPool : RequestPool
  /-- the tasks posted to the IO service -/
  tasks : List Task
  /-- how many requests have been submitted -/
  submitted : Nat
  /-- the promises that have been set, in order -/
  resolved : List (Nat × Resolution)
  /-- the messages handed to the connection after the greeting -/
  sent : List Message
  /-- the errors the error handler was called with -/
  reported : List Exception
  /-- the calls of update handlers -/
  invoked : List (Nat × VariableId × VariableValue)
  /-- the bytes that completed reads have brought -/
  received : List UInt8
  /-- the messages decoded -/
  decoded : List Message

def inputCapacity : Nat := 1024

namespace ConnectionManager

/-- A program on a manager. -/
abbrev Action := EStateM Exception ConnectionManager

/-- A manager that has sent its BEGIN_SESSION and waits for the answer. -/
def connecting : ConnectionManager where
  state := ⟨true, none⟩
  phase := .handshaking
  inputBuffer := .create inputCapacity
  db := .empty
  requestPool := .empty
  tasks := []
  submitted := 0
  resolved := []
  sent := []
  reported := []
  invoked := []
  received := []
  decoded := []

/-- Set the promise of a request. -/
def resolve (id : Nat) (resolution : Resolution) : Action Unit := fun m =>
  .ok () { m with resolved := m.resolved ++ [(id, resolution)] }

def sendMessage (msg : Message) : Action Unit := fun m =>
  match serialize msg (LinearBuffer.create outputCapacity) with
  | .ok _ _ => .ok () { m with sent := m.sent ++ [msg] }
  | .error e _ => .error e m

def onError (e : Exception) (disconnects : Bool) (m : ConnectionManager) : ConnectionManager :=
  if disconnects then
    { m with
      reported := m.reported ++ [e]
      resolved := m.resolved ++ m.requestPool.propagateError e
      requestPool := .empty
      state := m.state.disconnectWithError e }
  else { m with reported := m.reported ++ [e] }

/-! ## Request tasks -/

def onSubscriptionRequested (req : SubscriptionRequest) : Action Unit := fun m =>
  if m.db.entryDefined req.varId then
    match m.db.addVirtualSubscription req.varId req.handler with
    | .ok (virtSubsId, db) => resolve req.id (.subscribed virtSubsId) { m with db }
    | .error e => resolve req.id (.failed e) m
  else
    sendMessage (.subscriptionReq ⟨req.varId.group, req.varId.name⟩)
      { m with requestPool := m.requestPool.insertSubscription req }

def onUnsubscriptionRequested (req : UnsubscriptionRequest) : Action Unit := fun m =>
  match m.db.getMasterSubscriptionId req.virtualSubsId with
  | .ok masterSubsId =>
    match m.db.removeVirtualSubscription req.virtualSubsId with
    | .ok (true, db) =>
      sendMessage (.unsubscriptionReq ⟨masterSubsId⟩)
        { m with
          db
          requestPool := m.requestPool.insertUnsubscription { req with masterSubsId } }
    | .ok (false, db) => resolve req.id .done { m with db }
    | .error (.dbNoSuchVirtual _) => resolve req.id (.failed (.noSuchSubscription req.virtualSubsId)) m
    | .error e => .error e m
  | .error (.dbNoSuchVirtual _) => resolve req.id (.failed (.noSuchSubscription req.virtualSubsId)) m
  | .error e => .error e m

def onVariableUpdateRequested (req : VariableUpdateRequest) : Action Unit := fun m =>
  match m.db.getMasterSubscriptionId req.virtualSubsId with
  | .ok masterSubsId =>
    (do
      sendMessage (.varUpdate ⟨masterSubsId, req.varValue⟩)
      resolve req.id .done : Action Unit) m
  | .error (.dbNoSuchVirtual _) => resolve req.id (.failed (.noSuchSubscription req.virtualSubsId)) m
  | .error e => .error e m

def runTask : Task → Action Unit
  | .subscription req => onSubscriptionRequested req
  | .unsubscription req => onUnsubscriptionRequested req
  | .variableUpdate req => onVariableUpdateRequested req

/-! ## Replies -/

/-- The loop over the requests that a SUBSCRIBED reply answers. -/
def bindRequests (varId : VariableId) (masterSubsId : SubscriptionId) : List SubscriptionRequest → Action Unit
  | [] => fun m => .ok () m
  | req :: later => fun m =>
    match if m.db.entryDefined varId then m.db.addVirtualSubscription varId req.handler
        else m.db.createEntry varId masterSubsId req.handler with
    | .ok (virtSubsId, db) =>
      (do
        resolve req.id (.subscribed virtSubsId)
        bindRequests varId masterSubsId later : Action Unit) { m with db }
    | .error (.dbVariableExists _) => .error .communication m
    | .error (.dbMasterExists _) => .error .communication m
    | .error e => .error e m

/-- Set the promises of requests alike. -/
def resolveAll (ids : List Nat) (resolution : Resolution) : Action Unit := fun m =>
  .ok () { m with resolved := m.resolved ++ ids.map fun id => (id, resolution) }

/-- What the `default` of a `switch` over a status raises, which logs the status first. -/
def unexpectedStatus (st : SubscriptionStatus) (msgType : MessageType) : Exception :=
  match st.toStr with
  | .ok _ => .unexpectedMessage msgType
  | .error e => e

def onSubscriptionReplyReceived (msg : SubscriptionReplyMessage) : Action Unit := fun m =>
  let varId := variableId msg.varGrp msg.varName
  let (subs, requestPool) := m.requestPool.popSubscriptionRequests varId
  let m := { m with requestPool }
  if subs = [] then .error (.unexpectedMessage .subscriptionRep) m
  else
    match msg.st with
    | .noSuchVar => resolveAll (subs.map SubscriptionRequest.id) (.failed (.noSuchVariable varId)) m
    | .subscribed => bindRequests varId msg.subsId subs m
    | st => .error (unexpectedStatus st .subscriptionReq) m

def onUnsubscriptionReplyReceived (msg : UnsubscriptionReplyMessage) : Action Unit := fun m =>
  let (unsubs, requestPool) := m.requestPool.popUnsubscriptionRequests msg.subsId
  let m := { m with requestPool }
  if unsubs = [] then .error (.unexpectedMessage .unsubscriptionRep) m
  else
    match msg.st with
    | .noSuchSubscription => resolveAll (unsubs.map UnsubscriptionRequest.id) (.failed (.noSuchSubscription msg.subsId)) m
    | .unsubscribed => resolveAll (unsubs.map UnsubscriptionRequest.id) .done m
    | st => .error (unexpectedStatus st .unsubscriptionRep) m

def onVariableUpdateReceived (msg : VarUpdateMessage) : Action Unit := fun m =>
  match m.db.invokeHandlers msg.subsId msg.varValue with
  | .ok calls => .ok () { m with invoked := m.invoked ++ calls }
  | .error e => .ok () (onError e false m)

/-- What `on_message_received` does with a message. -/
def dispatch (msg : Message) : Action Unit :=
  match msg with
  | .subscriptionRep msg => onSubscriptionReplyReceived msg
  | .unsubscriptionRep msg => onUnsubscriptionReplyReceived msg
  | .varUpdate msg => onVariableUpdateReceived msg
  | _ => fun m => .error (.unexpectedMessage msg.getMessageType) m

/-! ## The receive loop -/

/-- A completed read: the buffer has been filled when `get_value` is called. -/
def getValue (bytesRead : Except Exception (List UInt8)) : Action Unit := fun m =>
  match bytesRead with
  | .ok block =>
    .ok () { m with
      inputBuffer := m.inputBuffer.asyncWriteSomeFrom block
      received := m.received ++ block }
  | .error e => .error e m

/-- `deserialize` on the input buffer. -/
def deserializeInput : Action Message := fun m =>
  match deserializeFrom m.inputBuffer with
  | .ok msg buff =>
    .ok msg { m with
      inputBuffer := buff
      decoded := m.decoded ++ [msg] }
  | .error e buff => .error e { m with inputBuffer := buff }

/-- The second `try` block of `on_message_received`. -/
def receive : Action Unit := do
  let msg ← deserializeInput
  dispatch msg

/-- The `catch` clauses of `on_message_received`, and the next read. -/
def caught : EStateM.Result Exception ConnectionManager Unit → ConnectionManager
  | .ok _ m => { m with phase := .receiving }
  | .error .eof m => { m with inputBuffer := m.inputBuffer.reset, phase := .receiving }
  | .error _ m => { onError .communication true m with phase := .stopped }

/-- `on_message_received`. Errors of the connection other than its end escape. -/
def onMessageReceived (bytesRead : Except Exception (List UInt8)) : Action Unit := fun m =>
  if m.phase = .closing then .ok () { m with phase := .stopped }
  else
    match getValue bytesRead m with
    | .ok _ m => .ok () (caught (receive m))
    | .error .eof m => .ok () { m with state := m.state.disconnect, phase := .stopped }
    | .error .connectionReset m => .ok () { onError .communication true m with phase := .stopped }
    | .error e m => .error e { m with phase := .stopped }

/-- The `catch` clause of the constructor. -/
def failed (e : Exception) (m : ConnectionManager) : ConnectionManager := { onError e true m with phase := .stopped }

/-- What `handshake` does with a message. -/
def greeted (msg : Message) : Action Unit :=
  match msg with
  | .beginSession _ => fun m => .ok () { m with phase := .receiving }
  | _ => fun m => .error .communication m

/-- The body of the loop of `handshake`. -/
def handshakeBody (bytesRead : Except Exception (List UInt8)) : Action Unit := do
  getValue bytesRead
  let msg ← deserializeInput
  greeted msg

/-- The `catch` clauses of `handshake`, which end the loop, go round it or make the
    constructor fail. -/
def caughtHandshake : EStateM.Result Exception ConnectionManager Unit → ConnectionManager
  | .ok _ m => m
  | .error .eof m => if m.inputBuffer.availableForRead = 0 then failed .communication m else m
  | .error e m => if e.IsIo ∨ e.IsProtocol then failed .communication m else failed e m

def onHandshakeRead (bytesRead : Except Exception (List UInt8)) (m : ConnectionManager) : ConnectionManager :=
  caughtHandshake (handshakeBody bytesRead m)

/-- `on_data_sent`. -/
def onDataSent (bytesWritten : Except Exception Nat) (m : ConnectionManager) : ConnectionManager :=
  match bytesWritten with
  | .ok _ => m
  | .error _ => onError .communication false m

/-- The destructor: `stop_io_service_thread` and `close`. -/
def close (m : ConnectionManager) : ConnectionManager :=
  if m.state.connected then
    { m with
      phase := if m.phase = .stopped then .stopped else .closing
      sent := m.sent ++ [.endSession ⟨text "Client disconnected"⟩]
      state := m.state.disconnect }
  else m

end ConnectionManager
end Oac.Client
