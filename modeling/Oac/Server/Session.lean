import Oac.Base.Run
import Oac.FlightVars
import Oac.Proto.Input
import Oac.Proto.Output
import Oac.Subscription.Mapper

/-!
# Sessions of the FlightVars server

A session with the connection it owns, and the functions of `flight_vars_server` that
serve it over the delegate. What is pending on the connection is the session's phase.
`received`, `handled` and `reported` only record what has happened.
-/
namespace Oac.Server
open Base Proto

/-- The completion handler that is pending on the connection. -/
inductive Phase where
  /-- a read for `on_read_begin_session` -/
  | readingBegin
  /-- a read for `on_read_request` -/
  | readingRequest
  /-- a write for `on_write_message`, to be followed by `read_request` -/
  | writing
  /-- none: the session is about to be destroyed -/
  | closed
  deriving DecidableEq

structure Session where
  inputBuffer : RingBuffer
  subscriptions : SubscriptionMapper
  phase : Phase
  /-- the messages handed to the connection -/
  written : List Message
  /-- the bytes that completed reads have brought -/
  received : List UInt8
  /-- the messages decoded, each with the position of its first byte -/
  handled : List (Nat × Message)

/-- A session and the delegate of its server. -/
structure Peer (δ : Type) where
  session : Session
  delegate : δ

def peerName : Str := text "FlightVars Server"
def inputCapacity : Nat := 64 * 1024

namespace Session

/-- A session that was accepted and waits for its first message. -/
def accepted : Session := ⟨.create inputCapacity, .empty, .readingBegin, [], [], []⟩

def await (phase : Phase) : EStateM Exception Session Unit := fun s => .ok () { s with phase }

/-- The position of the first unread byte. -/
def position (s : Session) : Nat := s.received.length - s.inputBuffer.availableForRead

/-- A completed read: the buffer has been filled when `get_value` is called. -/
def getValue (bytesTransferred : Except Exception (List UInt8)) : EStateM Exception Session Unit := fun s =>
  match bytesTransferred with
  | .ok block =>
    .ok () { s with
      inputBuffer := s.inputBuffer.asyncWriteSomeFrom block
      received := s.received ++ block }
  | .error e => .error e s

/-- `unmarshall` of a buffer. -/
def unmarshall (buff : RingBuffer) : EStateM.Result Exception RingBuffer Message :=
  match deserializeFrom buff.setMark with
  | .ok result buff => .ok result buff.unsetMark
  | .error e buff => .error e buff

def unmarshallInput : EStateM Exception Session Message := fun s =>
  match unmarshall s.inputBuffer with
  | .ok msg buff => .ok msg { s with inputBuffer := buff, handled := s.handled ++ [(s.position, msg)] }
  | .error e buff => .error e { s with inputBuffer := buff }

def writeMessage (msg : Message) : EStateM Exception Session Unit := fun s =>
  match serialize msg (LinearBuffer.create outputCapacity) with
  | .ok _ _ => .ok () { s with written := s.written ++ [msg] }
  | .error e _ => .error e s

/-- What `on_read_begin_session` does with a message. -/
def beginReply (msg : Message) : EStateM Exception Session Unit :=
  match msg with
  | .beginSession _ => do
    writeMessage (.beginSession ⟨peerName, flightvarsProtocolVersion⟩)
    await .writing
  | _ => await .closed

/-- The `try` block of `on_read_begin_session`. -/
def beginSession (bytesTransferred : Except Exception (List UInt8)) : EStateM Exception Session Unit := do
  getValue bytesTransferred
  let msg ← unmarshallInput
  beginReply msg

/-- The `catch` clauses of `on_read_begin_session`. -/
def caughtBegin : EStateM.Result Exception Session Unit → Session
  | .ok _ s => s
  | .error .eof s => { s with inputBuffer := s.inputBuffer.reset, phase := .readingBegin }
  | .error _ s => { s with phase := .closed }

def onReadBeginSession (bytesTransferred : Except Exception (List UInt8)) (s : Session) : Session :=
  caughtBegin (beginSession bytesTransferred s)

/-- `on_write_message` with `read_request` to follow. -/
def onWriteMessage (bytesTransferred : Except Exception Nat) (s : Session) : Session :=
  match bytesTransferred with
  | .ok _ => { s with phase := .readingRequest }
  | .error _ => { s with phase := .closed }

def sendVarUpdate (varId : VariableId) (varValue : VariableValue) : EStateM Exception Session Unit := fun s =>
  match s.subscriptions.getSubscriptionId varId with
  | .ok subsId =>
    match writeMessage (.varUpdate ⟨subsId, varValue⟩) s with
    | .ok _ s => .ok () s
    | .error e s => if e.IsIo then .ok () s else .error e s
  | .error _ => .ok () s

end Session

namespace Peer
open Session
variable {δ : Type} [FlightVars δ]

/-- A program on the session alone. -/
def onSession {α : Type} (x : EStateM Exception Session α) : EStateM Exception (Peer δ) α := fun p =>
  match x p.session with
  | .ok a s => .ok a { p with session := s }
  | .error e s => .error e { p with session := s }

/-- The texts of replies. -/
def alreadySubscribedCause : Str := text "Variable already subscribed"
def noSuchVariableCause : Str := text "No such variable defined in FlightVars module; missing plugin?"
def noSuchSubscriptionCause (subsId : SubscriptionId) : Str :=
  text "No such subscription with ID " ++ decimal subsId.toNat
def serverErrorCause (subsId : SubscriptionId) : Str :=
  text "Server error while unsubscribing from " ++ decimal subsId.toNat

def handleSubscriptionRequest (req : SubscriptionRequestMessage) :
    EStateM Exception (Peer δ) SubscriptionReplyMessage := fun p =>
  let varId := variableId req.varGrp req.varName
  if p.session.subscriptions.variableExists varId then
    .ok ⟨.varAlreadySubscribed, req.varGrp, req.varName, 0, alreadySubscribedCause⟩ p
  else
    match FlightVars.subscribe varId p.delegate with
    | .ok subsId delegate =>
      match p.session.subscriptions.registerSubscription varId subsId with
      | .ok subscriptions =>
        .ok ⟨.subscribed, req.varGrp, req.varName, subsId, []⟩ ⟨{ p.session with subscriptions }, delegate⟩
      | .error e => .error e { p with delegate }
    | .error (.noSuchVariable _) delegate =>
      .ok ⟨.noSuchVar, req.varGrp, req.varName, 0, noSuchVariableCause⟩ { p with delegate }
    | .error e delegate => .error e { p with delegate }

def handleUnsubscriptionRequest (req : UnsubscriptionRequestMessage) :
    EStateM Exception (Peer δ) UnsubscriptionReplyMessage := fun p =>
  match FlightVars.unsubscribe req.subsId p.delegate with
  | .ok _ delegate =>
    match p.session.subscriptions.unregister req.subsId with
    | .ok subscriptions => .ok ⟨.unsubscribed, req.subsId, []⟩ ⟨{ p.session with subscriptions }, delegate⟩
    | .error (.mapperNoSuchSubscription _) => .ok ⟨.unknown, req.subsId, serverErrorCause req.subsId⟩ { p with delegate }
    | .error e => .error e { p with delegate }
  | .error (.noSuchSubscription _) delegate =>
    .ok ⟨.noSuchSubscription, req.subsId, noSuchSubscriptionCause req.subsId⟩ { p with delegate }
  | .error e delegate => .error e { p with delegate }

def handleVarUpdateRequest (req : VarUpdateMessage) : EStateM Exception (Peer δ) Unit := fun p =>
  match FlightVars.update req.subsId req.varValue p.delegate with
  | .ok _ delegate => .ok () { p with delegate }
  | .error (.noSuchSubscription _) delegate => .ok () { p with delegate }
  | .error (.illegalValue _) delegate => .ok () { p with delegate }
  | .error e delegate => .error e { p with delegate }

/-- Write a reply and read the next request once it is written. -/
def reply (msg : Message) : EStateM Exception (Peer δ) Unit := onSession do
  writeMessage msg
  await .writing

/-- What `on_read_request` does with a message. -/
def dispatch (msg : Message) : EStateM Exception (Peer δ) Unit :=
  match msg with
  | .endSession _ => onSession (await .closed)
  | .subscriptionReq req => do
    let rep ← handleSubscriptionRequest req
    reply (.subscriptionRep rep)
  | .unsubscriptionReq req => do
    let rep ← handleUnsubscriptionRequest req
    reply (.unsubscriptionRep rep)
  | .varUpdate req => do
    handleVarUpdateRequest req
    onSession (await .readingRequest)
  | _ => onSession (await .closed)

/-- The `catch` clauses of `on_read_request`. -/
def caught : EStateM.Result Exception (Peer δ) Unit → Peer δ
  | .ok _ p => p
  | .error .eof p =>
    { p with session := { p.session with inputBuffer := p.session.inputBuffer.reset, phase := .readingRequest } }
  | .error _ p => { p with session := { p.session with phase := .closed } }

/-- The second `try` block of `on_read_request`. -/
def request : EStateM Exception (Peer δ) Unit := do
  let msg ← onSession unmarshallInput
  dispatch msg

/-- `on_read_request`. Errors of the connection other than its end escape. -/
def onReadRequest (bytesTransferred : Except Exception (List UInt8)) : EStateM Exception (Peer δ) Unit := fun p =>
  match onSession (getValue bytesTransferred) p with
  | .ok _ p => .ok () (caught (request p))
  | .error e p =>
    let p := { p with session := { p.session with phase := .closed } }
    if e = .eof ∨ e = .connectionReset then .ok () p else .error e p

end Peer

/-! ## Messages in and out -/

namespace Session

theorem writeMessage_fits {msg : Message} (fits : Fits msg) (s : Session) :
    writeMessage msg s = .ok () { s with written := s.written ++ [msg] } := by
  obtain ⟨buff, executed, -⟩ := (serialize_output msg).1 fits
  rw [writeMessage, executed]

theorem writeMessage_long {msg : Message} (long : ¬ Fits msg) (s : Session) : writeMessage msg s = .error .eof s := by
  obtain ⟨buff, raised⟩ := (serialize_output msg).2 long
  rw [writeMessage, raised]

/-- `buff'` is `buff` after a message was taken off its content. -/
structure Took (buff : RingBuffer) (rest : List UInt8) (buff' : RingBuffer) : Prop where
  atRest : buff'.AtRest
  content : buff'.content = rest
  sameSize : buff'.capacity = buff.capacity
  behind : buff'.writeIndex = buff.writeIndex
  unmarked : buff'.mark = none

theorem unmarshall_value {buff : RingBuffer} (atRest : buff.AtRest) (fits : ¬ FillsAtEnd buff) {msg : Message}
    {rest : List UInt8} (verdict : deserialize.decode buff.content = (.value msg, rest)) :
    ∃ buff', unmarshall buff = .ok msg buff' ∧ Took buff rest buff' := by
  have marked := atRest.setMark
  obtain ⟨buff', executed, holds⟩ := deserializeFrom_ring marked.ok marked.large
    ((straddles_iff marked.ok marked.large).not.mpr fits)
  simp only [RingBuffer.setMark_content, verdict] at executed holds
  refine ⟨buff'.unsetMark, ?_, ⟨holds.ok.anchored.unsetMark.ok holds.ok.addressable holds.ok.writeBound, rfl, ?_, nofun⟩, holds.content, holds.sameSize,
    holds.behind, rfl⟩
  · rw [unmarshall, executed]
    rfl
  · rw [RingBuffer.unsetMark_capacity, holds.sameSize]
    exact atRest.large

/-- A message that is still incomplete leaves the buffer to be reset to where it was. -/
theorem unmarshall_starved {buff : RingBuffer} (atRest : buff.AtRest) (fits : ¬ FillsAtEnd buff)
    (starved : (deserialize.decode buff.content).1 = .starved) :
    ∃ buff', unmarshall buff = .error .eof buff' ∧ buff'.reset = buff.setMark := by
  have marked := atRest.setMark
  obtain ⟨buff', executed, holds⟩ := deserializeFrom_ring marked.ok marked.large
    ((straddles_iff marked.ok marked.large).not.mpr fits)
  rw [RingBuffer.setMark_content, starved] at executed
  refine ⟨buff', ?_, ?_⟩
  · rw [unmarshall, executed]
    rfl
  · rw [holds.resets (by rw [holds.markKept]; rfl), RingBuffer.setMark_reset atRest.rest]

theorem unmarshall_rejected {buff : RingBuffer} (atRest : buff.AtRest) (fits : ¬ FillsAtEnd buff) {e : Exception}
    {rest : List UInt8} (verdict : deserialize.decode buff.content = (.error e, rest)) :
    e.IsProtocol ∧ ∃ buff', unmarshall buff = .error e buff' := by
  have marked := atRest.setMark
  obtain ⟨buff', executed, -⟩ := deserializeFrom_ring marked.ok marked.large
    ((straddles_iff marked.ok marked.large).not.mpr fits)
  rw [RingBuffer.setMark_content, verdict] at executed
  refine ⟨failsByProtocol_decode deserialize_fails verdict, buff', ?_⟩
  rw [unmarshall, executed]
  rfl

theorem unmarshall_straddles {buff : RingBuffer} (atRest : buff.AtRest) (fills : FillsAtEnd buff) :
    unmarshall buff = .error (.indexOutOfBounds (buff.capacity + 1 : Nat) 0 (buff.capacity - 1)) buff.setMark := by
  have marked := atRest.setMark
  have addressable := atRest.ok.addressable
  have large := atRest.large
  have raised := deserializeFrom_straddles marked.ok ((straddles_iff marked.ok marked.large).mpr fills)
  have index : (buff.setMark.readIndex + min 2 buff.setMark.bytesWritten) % 2 ^ 32 = buff.capacity + 1 := by
    obtain ⟨atEnd, full⟩ := fills
    show (buff.readIndex + min 2 buff.bytesWritten) % _ = _
    rw [Nat.mod_eq_of_lt (by omega)]
    omega
  rw [unmarshall, raised]
  simp only [FixedBuffer.outOfBounds, index]
  rfl

end Session
end Oac.Server
