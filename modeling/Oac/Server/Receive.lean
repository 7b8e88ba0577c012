import Oac.Server.Session

/-!
# The receive loop of a session

The steps of one session, and what a completed read does to it (`ReadEffect`): it takes
one message off the input, or finds it incomplete and leaves it as it was, or closes the
session. From this follow the results on whole runs: which messages are handled, and
what is left in the buffer when the next read is issued.
-/
namespace Oac.Server
open Base Proto Session

/-- What happens to a session: completions on its connection, notifications of its
    subscriptions, and moves of the delegate on behalf of others. -/
inductive Event (δ : Type) where
  | read (bytesTransferred : Except Exception (List UInt8))
  | wrote (bytesTransferred : Except Exception Nat)
  | notified (varId : VariableId) (varValue : VariableValue)
  | moved (delegate : δ)

namespace Session

/-- A read is pending. -/
def Reading (s : Session) : Prop := s.phase = .readingBegin ∨ s.phase = .readingRequest

/-- A successful read brings from one byte up to the free space. -/
def Transfers (s : Session) : Except Exception (List UInt8) → Prop
  | .ok block => block ≠ [] ∧ block.length ≤ s.inputBuffer.availableForWrite
  | .error _ => True

/-- The buffer after a read, before anything is decoded. -/
def filled (s : Session) (block : List UInt8) : RingBuffer := s.inputBuffer.asyncWriteSomeFrom block

/-- Nothing has changed on the input side. -/
structure SameInput (s s' : Session) : Prop where
  buffer : s'.inputBuffer = s.inputBuffer
  received : s'.received = s.received
  handled : s'.handled = s.handled

theorem SameInput.refl (s : Session) : SameInput s s := ⟨rfl, rfl, rfl⟩

theorem SameInput.trans {s s' s'' : Session} (first : SameInput s s') (second : SameInput s' s'') : SameInput s s'' :=
  ⟨second.buffer.trans first.buffer, second.received.trans first.received, second.handled.trans first.handled⟩

end Session

/-- The steps of one session. -/
inductive Step {δ : Type} [FlightVars δ] : Peer δ → Event δ → Peer δ → Prop
  | readBegin {p : Peer δ} {bytesTransferred : Except Exception (List UInt8)} (pending : p.session.phase = .readingBegin)
      (transfers : p.session.Transfers bytesTransferred) :
      Step p (.read bytesTransferred) { p with session := onReadBeginSession bytesTransferred p.session }
  | readRequest {p : Peer δ} {bytesTransferred : Except Exception (List UInt8)}
      (pending : p.session.phase = .readingRequest) (transfers : p.session.Transfers bytesTransferred) :
      Step p (.read bytesTransferred) (after (Peer.onReadRequest bytesTransferred p))
  | wrote {p : Peer δ} {bytesTransferred : Except Exception Nat} (pending : p.session.phase = .writing) :
      Step p (.wrote bytesTransferred) { p with session := onWriteMessage bytesTransferred p.session }
  | notified {p : Peer δ} {varId : VariableId} {varValue : VariableValue} :
      Step p (.notified varId varValue) { p with session := after (sendVarUpdate varId varValue p.session) }
  | moved {p : Peer δ} {delegate : δ} : Step p (.moved delegate) { p with delegate }

/-! ## Handlers leave the input alone -/

theorem await_input (phase : Phase) : Keeps SameInput (await phase) := fun _ => ⟨rfl, rfl, rfl⟩

theorem writeMessage_written (msg : Message) (s : Session) :
    ∃ written, after (writeMessage msg s) = { s with written } := by
  unfold writeMessage
  split
  · exact ⟨_, rfl⟩
  · exact ⟨s.written, rfl⟩

theorem writeMessage_input (msg : Message) : Keeps SameInput (writeMessage msg) := by
  intro s
  obtain ⟨written, same⟩ := writeMessage_written msg s
  rw [same]
  exact ⟨rfl, rfl, rfl⟩

theorem sendVarUpdate_written (varId : VariableId) (varValue : VariableValue) (s : Session) :
    ∃ written, after (sendVarUpdate varId varValue s) = { s with written } := by
  unfold sendVarUpdate
  split
  · rename_i subsId _
    obtain ⟨written, same⟩ := writeMessage_written (.varUpdate ⟨subsId, varValue⟩) s
    refine ⟨written, ?_⟩
    cases executed : writeMessage (.varUpdate ⟨subsId, varValue⟩) s with
    | ok a s' =>
      rw [executed] at same
      exact same
    | error e s' =>
      rw [executed] at same
      dsimp only
      split <;> exact same
  · exact ⟨s.written, rfl⟩

section
variable {δ : Type}

/-- The input side of two states of a peer. -/
def SamePeerInput (p p' : Peer δ) : Prop := SameInput p.session p'.session

theorem SamePeerInput.trans {p p' p'' : Peer δ} (first : SamePeerInput p p') (second : SamePeerInput p' p'') :
    SamePeerInput p p'' := SameInput.trans first second

theorem onSession_input {α : Type} {x : EStateM Exception Session α} (kept : Keeps SameInput x) :
    Keeps (SamePeerInput (δ := δ)) (Peer.onSession x) := by
  intro p
  have same := kept p.session
  unfold Peer.onSession
  split
  · rename_i executed
    rw [executed] at same
    exact same
  · rename_i raised
    rw [raised] at same
    exact same

theorem reply_input (msg : Message) : Keeps (SamePeerInput (δ := δ)) (Peer.reply msg) :=
  onSession_input (keeps_bind (R := SameInput) SameInput.trans (writeMessage_input msg) fun _ => await_input _)

/-- Once a message is decoded the mark is gone, so that the `catch` clauses find nothing to reset. -/
theorem caught_input {p : Peer δ} (unmarked : p.session.inputBuffer.mark = none)
    {result : EStateM.Result Exception (Peer δ) Unit} (kept : SamePeerInput p (after result)) :
    SamePeerInput p (Peer.caught result) := by
  obtain ⟨buffer, received, handled⟩ := kept
  unfold Peer.caught
  split
  · exact ⟨buffer, received, handled⟩
  · rename_i p'
    have buffer : p'.session.inputBuffer = p.session.inputBuffer := buffer
    refine ⟨?_, received, handled⟩
    show p'.session.inputBuffer.reset = _
    rw [RingBuffer.reset_unmarked (by rw [buffer]; exact unmarked), buffer]
  · exact ⟨buffer, received, handled⟩

theorem onSession_ok {α : Type} {x : EStateM Exception Session α} {p : Peer δ} {a : α} {s' : Session}
    (executed : x p.session = .ok a s') : Peer.onSession x p = .ok a { p with session := s' } := by
  rw [Peer.onSession, executed]

theorem onSession_error {α : Type} {x : EStateM Exception Session α} {p : Peer δ} {e : Exception} {s' : Session}
    (raised : x p.session = .error e s') : Peer.onSession x p = .error e { p with session := s' } := by
  rw [Peer.onSession, raised]

theorem caught_error {e : Exception} (other : e ≠ .eof) (p : Peer δ) :
    Peer.caught (.error e p) = { p with session := { p.session with phase := .closed } } := by
  cases e <;> first | rfl | exact absurd rfl other

variable [FlightVars δ]

theorem handleSubscriptionRequest_input (req : SubscriptionRequestMessage) :
    Keeps (SamePeerInput (δ := δ)) (Peer.handleSubscriptionRequest req) := by
  intro p
  unfold Peer.handleSubscriptionRequest
  dsimp only
  split
  · exact SameInput.refl _
  · split
    · split <;> exact ⟨rfl, rfl, rfl⟩
    · exact ⟨rfl, rfl, rfl⟩
    · exact ⟨rfl, rfl, rfl⟩

theorem handleUnsubscriptionRequest_input (req : UnsubscriptionRequestMessage) :
    Keeps (SamePeerInput (δ := δ)) (Peer.handleUnsubscriptionRequest req) := by
  intro p
  unfold Peer.handleUnsubscriptionRequest
  split
  · split <;> exact ⟨rfl, rfl, rfl⟩
  · exact ⟨rfl, rfl, rfl⟩
  · exact ⟨rfl, rfl, rfl⟩

theorem handleVarUpdateRequest_input (req : VarUpdateMessage) :
    Keeps (SamePeerInput (δ := δ)) (Peer.handleVarUpdateRequest req) := by
  intro p
  unfold Peer.handleVarUpdateRequest
  split <;> exact ⟨rfl, rfl, rfl⟩

theorem dispatch_input (msg : Message) : Keeps (SamePeerInput (δ := δ)) (Peer.dispatch msg) := by
  unfold Peer.dispatch
  split
  · exact onSession_input (await_input _)
  · exact keeps_bind (R := SamePeerInput) SamePeerInput.trans (handleSubscriptionRequest_input _) fun _ => reply_input _
  · exact keeps_bind (R := SamePeerInput) SamePeerInput.trans (handleUnsubscriptionRequest_input _) fun _ => reply_input _
  · exact keeps_bind (R := SamePeerInput) SamePeerInput.trans (handleVarUpdateRequest_input _) fun _ => onSession_input (await_input _)
  · exact onSession_input (await_input _)

/-- What a completed read does to a session. -/
inductive ReadEffect (s : Session) (block : List UInt8) (s' : Session) : Prop
  | straddled (fills : FillsAtEnd (s.filled block)) (closed : s'.phase = .closed) (unhandled : s'.handled = s.handled)
  | message (msg : Message) (rest : List UInt8) (fits : ¬ FillsAtEnd (s.filled block))
      (verdict : deserialize.decode (s.filled block).content = (.value msg, rest))
      (took : Took (s.filled block) rest s'.inputBuffer) (received : s'.received = s.received ++ block)
      (handled : s'.handled =
        s.handled ++ [((s.received ++ block).length - (s.filled block).availableForRead, msg)])
  | incomplete (fits : ¬ FillsAtEnd (s.filled block))
      (starved : (deserialize.decode (s.filled block).content).1 = .starved)
      (restored : s'.inputBuffer = (s.filled block).setMark) (received : s'.received = s.received ++ block)
      (unhandled : s'.handled = s.handled) (pending : s'.phase = s.phase)
  | rejected (e : Exception) (rest : List UInt8) (fits : ¬ FillsAtEnd (s.filled block))
      (verdict : deserialize.decode (s.filled block).content = (.error e, rest)) (closed : s'.phase = .closed)
      (unhandled : s'.handled = s.handled)

/-- The session once a read has been put into its buffer. -/
def Session.got (s : Session) (block : List UInt8) : Session :=
  { s with
    inputBuffer := s.filled block
    received := s.received ++ block }

/-- The session once a message has been taken off its buffer. -/
def Session.taken (s : Session) (block : List UInt8) (buff : RingBuffer) (msg : Message) : Session :=
  { s.got block with
    inputBuffer := buff
    handled := s.handled ++ [((s.got block).position, msg)] }

theorem getValue_ok (block : List UInt8) (s : Session) : getValue (.ok block) s = .ok () (s.got block) := rfl

/-- Whatever is done with a message, if it leaves the input alone. -/
theorem message_effect {s s' : Session} {block rest : List UInt8} {msg : Message} {buff : RingBuffer}
    (fits : ¬ FillsAtEnd (s.filled block)) (verdict : deserialize.decode (s.filled block).content = (.value msg, rest))
    (took : Took (s.filled block) rest buff)
    (same : SameInput (s.taken block buff msg) s') : ReadEffect s block s' :=
  .message msg rest fits verdict (by rw [same.buffer]; exact took) same.received same.handled

theorem unmarshallInput_ok {s : Session} {block : List UInt8} {msg : Message} {buff : RingBuffer}
    (decoded : unmarshall (s.filled block) = .ok msg buff) :
    unmarshallInput (s.got block) = .ok msg (s.taken block buff msg) := by
  unfold unmarshallInput
  rw [show (s.got block).inputBuffer = s.filled block from rfl, decoded]
  rfl

theorem unmarshallInput_error {s : Session} {block : List UInt8} {e : Exception} {buff : RingBuffer}
    (raised : unmarshall (s.filled block) = .error e buff) :
    unmarshallInput (s.got block) = .error e { s.got block with inputBuffer := buff } := by
  unfold unmarshallInput
  rw [show (s.got block).inputBuffer = s.filled block from rfl, raised]

/-- The verdicts on the bytes in the buffer. -/
theorem unmarshallInput_cases {s : Session} {block : List UInt8} (atRest : (s.filled block).AtRest) :
    (∃ msg rest buff, ¬ FillsAtEnd (s.filled block) ∧ deserialize.decode (s.filled block).content = (.value msg, rest) ∧
      Took (s.filled block) rest buff ∧ unmarshallInput (s.got block) = .ok msg (s.taken block buff msg)) ∨
    (∃ buff, ¬ FillsAtEnd (s.filled block) ∧ (deserialize.decode (s.filled block).content).1 = .starved ∧
      buff.reset = (s.filled block).setMark ∧
      unmarshallInput (s.got block) = .error .eof { s.got block with inputBuffer := buff }) ∨
    (∃ e buff, (FillsAtEnd (s.filled block) ∨ ¬ FillsAtEnd (s.filled block) ∧
        ∃ rest, deserialize.decode (s.filled block).content = (.error e, rest)) ∧ e ≠ .eof ∧
      unmarshallInput (s.got block) = .error e { s.got block with inputBuffer := buff }) := by
  by_cases fills : FillsAtEnd (s.filled block)
  · have raised := unmarshall_straddles atRest fills
    exact .inr (.inr ⟨.indexOutOfBounds ((s.filled block).capacity + 1 : Nat) 0 ((s.filled block).capacity - 1),
      (s.filled block).setMark, .inl fills, nofun, unmarshallInput_error raised⟩)
  · rcases verdict : deserialize.decode (s.filled block).content with ⟨outcome, rest⟩
    cases outcome with
    | value msg =>
      obtain ⟨buff, executed, took⟩ := unmarshall_value atRest fills verdict
      exact .inl ⟨msg, rest, buff, fills, rfl, took, unmarshallInput_ok executed⟩
    | starved =>
      obtain ⟨buff, raised, restored⟩ := unmarshall_starved atRest fills (by rw [verdict])
      exact .inr (.inl ⟨buff, fills, rfl, restored, unmarshallInput_error raised⟩)
    | error e =>
      obtain ⟨isProtocol, buff, raised⟩ := unmarshall_rejected atRest fills verdict
      exact .inr (.inr ⟨e, buff, .inr ⟨fills, rest, rfl⟩, fun same => by subst same; exact isProtocol,
        unmarshallInput_error raised⟩)

theorem beginReply_input (msg : Message) : Keeps SameInput (beginReply msg) := by
  unfold beginReply
  split
  · exact keeps_bind (R := SameInput) SameInput.trans (writeMessage_input _) fun _ => await_input _
  · exact await_input _

theorem caughtBegin_input {s : Session} (unmarked : s.inputBuffer.mark = none)
    {result : EStateM.Result Exception Session Unit} (kept : SameInput s (after result)) :
    SameInput s (caughtBegin result) := by
  obtain ⟨buffer, received, handled⟩ := kept
  unfold caughtBegin
  split
  · exact ⟨buffer, received, handled⟩
  · rename_i s'
    have buffer : s'.inputBuffer = s.inputBuffer := buffer
    refine ⟨?_, received, handled⟩
    show s'.inputBuffer.reset = _
    rw [RingBuffer.reset_unmarked (by rw [buffer]; exact unmarked), buffer]
  · exact ⟨buffer, received, handled⟩

theorem caughtBegin_error {e : Exception} (other : e ≠ .eof) (s : Session) :
    caughtBegin (.error e s) = { s with phase := .closed } := by
  cases e <;> first | rfl | exact absurd rfl other

theorem onReadBeginSession_effect {s : Session} {block : List UInt8} (atRest : (s.filled block).AtRest)
    (pending : s.phase = .readingBegin) : ReadEffect s block (onReadBeginSession (.ok block) s) := by
  unfold onReadBeginSession beginSession
  rw [ok_bind (getValue_ok block s)]
  rcases unmarshallInput_cases atRest with ⟨msg, rest, buff, fits, verdict, took, executed⟩ |
    ⟨buff, fits, starved, restored, raised⟩ | ⟨e, buff, why, other, raised⟩
  · rw [ok_bind executed]
    exact message_effect fits verdict took (caughtBegin_input took.unmarked (beginReply_input msg _))
  · rw [error_bind raised]
    exact .incomplete fits starved restored rfl rfl pending.symm
  · rw [error_bind raised]
    rw [caughtBegin_error other]
    rcases why with fills | ⟨fits, rest, verdict⟩
    · exact .straddled fills rfl rfl
    · exact .rejected e rest fits verdict rfl rfl

theorem onReadRequest_ok (p : Peer δ) (block : List UInt8) :
    after (Peer.onReadRequest (.ok block) p) = Peer.caught (Peer.request ⟨p.session.got block, p.delegate⟩) := by
  rw [Peer.onReadRequest, onSession_ok (getValue_ok block p.session)]
  rfl

theorem onReadRequest_effect {p : Peer δ} {block : List UInt8} (atRest : (p.session.filled block).AtRest)
    (pending : p.session.phase = .readingRequest) :
    ReadEffect p.session block (after (Peer.onReadRequest (.ok block) p)).session := by
  rw [onReadRequest_ok, Peer.request]
  rcases unmarshallInput_cases atRest with ⟨msg, rest, buff, fits, verdict, took, executed⟩ |
    ⟨buff, fits, starved, restored, raised⟩ | ⟨e, buff, why, other, raised⟩
  · rw [ok_bind (onSession_ok executed)]
    have same := caught_input (p := ⟨p.session.taken block buff msg, p.delegate⟩) took.unmarked
      (dispatch_input msg _)
    exact message_effect fits verdict took same
  · rw [error_bind (onSession_error raised)]
    exact .incomplete fits starved restored rfl rfl pending.symm
  · rw [error_bind (onSession_error raised)]
    rw [caught_error other]
    rcases why with fills | ⟨fits, rest, verdict⟩
    · exact .straddled fills rfl rfl
    · exact .rejected e rest fits verdict rfl rfl

/-- A step is a completed read or leaves the input alone; a closed session stays closed. -/
theorem Step.input {p p' : Peer δ} {e : Event δ} (step : Step p e p') (atRest : p.session.inputBuffer.AtRest) :
    (∃ block, e = .read (.ok block) ∧ p.session.Reading ∧ p.session.Transfers (.ok block) ∧
      ReadEffect p.session block p'.session) ∨
    ((∀ block, e ≠ .read (.ok block)) ∧ SameInput p.session p'.session ∧
      (p.session.phase = .closed → p'.session.phase = .closed)) := by
  cases step with
  | readBegin pending transfers =>
    rename_i bytesTransferred
    cases bytesTransferred with
    | ok block =>
      have ready := (atRest.asyncWriteSomeFrom transfers.2).1
      exact .inl ⟨block, rfl, .inl pending, transfers, onReadBeginSession_effect ready pending⟩
    | error e =>
      refine .inr ⟨nofun, ?_, fun closed => absurd (pending.symm.trans closed) (by decide)⟩
      have raised : beginSession (.error e) p.session = .error e p.session := rfl
      show SameInput p.session (onReadBeginSession (.error e) p.session)
      rw [onReadBeginSession, raised]
      by_cases eof : e = .eof
      · subst eof
        exact ⟨atRest.reset, rfl, rfl⟩
      · rw [caughtBegin_error eof]
        exact ⟨rfl, rfl, rfl⟩
  | readRequest pending transfers =>
    rename_i bytesTransferred
    cases bytesTransferred with
    | ok block =>
      have ready := (atRest.asyncWriteSomeFrom transfers.2).1
      exact .inl ⟨block, rfl, .inr pending, transfers, onReadRequest_effect ready pending⟩
    | error e =>
      refine .inr ⟨nofun, ?_, fun closed => absurd (pending.symm.trans closed) (by decide)⟩
      have raised : Peer.onSession (getValue (.error e)) p = .error e p := rfl
      rw [Peer.onReadRequest, raised]
      dsimp only
      split <;> exact ⟨rfl, rfl, rfl⟩
  | wrote pending =>
    rename_i bytesTransferred
    refine .inr ⟨nofun, ?_, fun closed => absurd (pending.symm.trans closed) (by decide)⟩
    show SameInput p.session (onWriteMessage bytesTransferred p.session)
    unfold onWriteMessage
    split <;> exact ⟨rfl, rfl, rfl⟩
  | notified =>
    rename_i varId varValue
    obtain ⟨written, same⟩ := sendVarUpdate_written varId varValue p.session
    refine .inr ⟨nofun, ?_, ?_⟩
    · show SameInput p.session (after (sendVarUpdate varId varValue p.session))
      rw [same]
      exact ⟨rfl, rfl, rfl⟩
    · intro closed
      show (after (sendVarUpdate varId varValue p.session)).phase = _
      rw [same]
      exact closed
  | moved => exact .inr ⟨nofun, SameInput.refl _, id⟩

theorem Step.closed {p p' : Peer δ} {e : Event δ} (step : Step p e p') (closed : p.session.phase = .closed) :
    p'.session.phase = .closed ∧ SameInput p.session p'.session := by
  cases step with
  | readBegin pending => exact absurd (pending.symm.trans closed) (by decide)
  | readRequest pending => exact absurd (pending.symm.trans closed) (by decide)
  | wrote pending => exact absurd (pending.symm.trans closed) (by decide)
  | notified =>
    rename_i varId varValue
    obtain ⟨written, same⟩ := sendVarUpdate_written varId varValue p.session
    show (after (sendVarUpdate varId varValue p.session)).phase = _ ∧ SameInput _ (after (sendVarUpdate varId varValue p.session))
    rw [same]
    exact ⟨closed, rfl, rfl, rfl⟩
  | moved => exact ⟨closed, SameInput.refl _⟩

/-! ## Streams of messages -/

/-- The bytes received are the words of the messages handled and the content of the buffer. -/
structure Aligned (ms : List Message) (s : Session) : Prop where
  atRest : s.inputBuffer.AtRest
  size : s.inputBuffer.capacity = inputCapacity
  order : s.handled.map Prod.snd <+: ms
  stream : s.received = wires (s.handled.map Prod.snd) ++ s.inputBuffer.content

theorem accepted_aligned (ms : List Message) : Aligned ms accepted where
  atRest := RingBuffer.create_atRest (by decide) (by decide)
  size := by rw [accepted, RingBuffer.create_capacity]
  order := List.nil_prefix
  stream := by rw [accepted, RingBuffer.create_content]; rfl

/-- The reads bring the words of the messages, cut anyhow. -/
def Fed (ms : List Message) (p : Peer δ) (e : Event δ) : Prop :=
  ∀ block, e = .read (.ok block) → p.session.received ++ block <+: wires ms

/-- No read fills the buffer while its content begins with the last byte of the memory. -/
def Clear (p : Peer δ) (e : Event δ) : Prop := ∀ block, e = .read (.ok block) → ¬ FillsAtEnd (p.session.filled block)

theorem Aligned.same {ms : List Message} {s s' : Session} (aligned : Aligned ms s) (same : SameInput s s') :
    Aligned ms s' := by
  obtain ⟨atRest, size, order, stream⟩ := aligned
  obtain ⟨buffer, received, handled⟩ := same
  exact ⟨buffer ▸ atRest, buffer ▸ size, handled ▸ order, by rw [received, handled, buffer]; exact stream⟩

/-- The buffer after a read of further bytes of the stream. -/
theorem Aligned.filled {ms : List Message} {s : Session} (aligned : Aligned ms s) {block : List UInt8}
    (transfers : s.Transfers (.ok block)) (fed : s.received ++ block <+: wires ms) :
    (s.filled block).AtRest ∧ (s.filled block).capacity = inputCapacity ∧
      ∃ later, ms = s.handled.map Prod.snd ++ later ∧ (s.filled block).content <+: wires later ∧
        s.received ++ block = wires (s.handled.map Prod.snd) ++ (s.filled block).content := by
  obtain ⟨atRest, size, ⟨later, split⟩, stream⟩ := aligned
  obtain ⟨ready, sameSize⟩ := atRest.asyncWriteSomeFrom transfers.2
  have content : (s.filled block).content = s.inputBuffer.content ++ block :=
    RingBuffer.asyncWriteSomeFrom_content atRest.ok transfers.2
  have whole : s.received ++ block = wires (s.handled.map Prod.snd) ++ (s.filled block).content := by
    rw [content, stream, List.append_assoc]
  refine ⟨ready, sameSize.trans size, later, split.symm, ?_, whole⟩
  rw [whole, ← split, wires_append, List.prefix_append_right_inj] at fed
  exact fed

/-- A read of further bytes of the stream keeps the session aligned, unless it fills the
    buffer at the end of its memory. -/
theorem Aligned.read {ms : List Message} (valid : ∀ m ∈ ms, m.Valid) {s s' : Session} (aligned : Aligned ms s)
    {block : List UInt8} (transfers : s.Transfers (.ok block)) (fed : s.received ++ block <+: wires ms)
    (clear : ¬ FillsAtEnd (s.filled block)) (effect : ReadEffect s block s') : Aligned ms s' := by
  obtain ⟨ready, size, later, split, stream, whole⟩ := aligned.filled transfers fed
  rcases decode_stream (valid_later valid split) stream with ⟨m, rest, tail, first, content, -, verdict⟩ | starved
  · cases effect with
    | straddled fills closed unhandled => exact absurd fills clear
    | message msg rest' fits verdict' took received handled =>
      rw [verdict] at verdict'
      cases verdict'
      refine ⟨took.atRest, took.sameSize.trans size, ?_, ?_⟩
      · rw [handled, List.map_append, split, first]
        exact ⟨rest, by simp⟩
      · rw [received, handled, whole, content, took.content, List.map_append, wires_append, List.append_assoc]
        simp
    | incomplete fits starved restored received unhandled pending =>
      rw [verdict] at starved
      cases starved
    | rejected e rest' fits verdict' closed unhandled =>
      rw [verdict] at verdict'
      cases verdict'
  · cases effect with
    | straddled fills closed unhandled => exact absurd fills clear
    | message msg rest' fits verdict' took received handled =>
      rw [verdict'] at starved
      cases starved
    | incomplete fits starved restored received unhandled pending =>
      refine ⟨restored ▸ ready.setMark, ?_, unhandled ▸ aligned.order, ?_⟩
      · rw [restored, RingBuffer.setMark_capacity]
        exact size
      · rw [received, unhandled, restored, RingBuffer.setMark_content]
        exact whole
    | rejected e rest' fits verdict' closed unhandled =>
      rw [verdict'] at starved
      cases starved

theorem Aligned.step {ms : List Message} (valid : ∀ m ∈ ms, m.Valid) {p p' : Peer δ} {e : Event δ}
    (aligned : Aligned ms p.session) (step : Step p e p') (fed : Fed ms p e) (clear : Clear p e) :
    Aligned ms p'.session := by
  rcases step.input aligned.atRest with ⟨block, rfl, -, transfers, effect⟩ | ⟨-, same, -⟩
  · exact aligned.read valid transfers (fed block rfl) (clear block rfl) effect
  · exact aligned.same same

/-- What the decoder raises on the next read of the stream. -/
theorem Aligned.raises {ms : List Message} (valid : ∀ m ∈ ms, m.Valid) {s : Session} (aligned : Aligned ms s)
    {block : List UInt8} (transfers : s.Transfers (.ok block)) (fed : s.received ++ block <+: wires ms) :
    (∀ e buff, unmarshall (s.filled block) = .error e buff → e = .eof) ↔ ¬ FillsAtEnd (s.filled block) := by
  obtain ⟨ready, size, later, split, stream, -⟩ := aligned.filled transfers fed
  constructor
  · intro eof fills
    have impossible := eof _ _ (unmarshall_straddles ready fills)
    cases impossible
  · intro clear e buff raised
    rcases decode_stream (valid_later valid split) stream with ⟨m, rest, tail, -, -, -, verdict⟩ | starved
    · obtain ⟨buff', executed, -⟩ := unmarshall_value ready clear verdict
      rw [executed] at raised
      cases raised
    · obtain ⟨buff', executed, -⟩ := unmarshall_starved ready clear starved
      rw [executed] at raised
      cases raised
      rfl

end

/-! ## The greeting -/

theorem beginReply_begin (msg : BeginSessionMessage) (s : Session) : beginReply (.beginSession msg) s = .ok () { s with
    written := s.written ++ [.beginSession ⟨peerName, flightvarsProtocolVersion⟩]
    phase := .writing } := by
  have fits : Fits (.beginSession ⟨peerName, flightvarsProtocolVersion⟩) := by decide
  exact (ok_bind (writeMessage_fits fits s)).trans rfl

/-- A session that has received nothing yet. -/
structure Fresh (s : Session) : Prop where
  atRest : s.inputBuffer.AtRest
  size : s.inputBuffer.capacity = inputCapacity
  unmoved : s.inputBuffer.readIndex = 0
  empty : s.inputBuffer.bytesWritten = 0
  unread : s.received = []

theorem accepted_fresh : Fresh accepted where
  atRest := RingBuffer.create_atRest (by decide) (by decide)
  size := by rw [accepted, RingBuffer.create_capacity]
  unmoved := rfl
  empty := rfl
  unread := rfl

theorem Fresh.content {s : Session} (fresh : Fresh s) : s.inputBuffer.content = [] :=
  List.length_eq_zero_iff.mp ((RingBuffer.content_length fresh.atRest.ok.layout).trans fresh.empty)

theorem Fresh.free {s : Session} (fresh : Fresh s) : s.inputBuffer.availableForWrite = inputCapacity := by
  have space := fresh.atRest.availableForWrite
  rw [fresh.content, fresh.size] at space
  exact space

/-- A read of a message is pending, and what it brings begins with the message. -/
structure Decodes (s : Session) (block : List UInt8) (msg : Message) (rest : List UInt8) : Prop where
  atRest : (s.filled block).AtRest
  transfers : s.Transfers (.ok block)
  clear : ¬ FillsAtEnd (s.filled block)
  verdict : deserialize.decode (s.filled block).content = (.value msg, rest)

/-- The first read of a session can bring any message, and more behind it. -/
theorem Fresh.decodes {s : Session} (fresh : Fresh s) {msg : Message} {tail : List UInt8} (valid : msg.Valid)
    (fits : (wire msg ++ tail).length ≤ inputCapacity) : Decodes s (wire msg ++ tail) msg tail := by
  have some : wire msg ++ tail ≠ [] := by
    have positive := wire_length_pos msg
    intro none
    rw [(List.append_eq_nil_iff.mp none).1] at positive
    exact absurd positive (by decide)
  have room : (wire msg ++ tail).length ≤ s.inputBuffer.availableForWrite := by rw [fresh.free]; exact fits
  have capacity : (s.filled (wire msg ++ tail)).capacity = inputCapacity :=
    (fresh.atRest.asyncWriteSomeFrom room).2.trans fresh.size
  refine ⟨(fresh.atRest.asyncWriteSomeFrom room).1, ⟨some, room⟩, ?_, ?_⟩
  · rintro ⟨atEnd, -⟩
    have one : s.inputBuffer.readIndex + 1 = inputCapacity := atEnd.trans capacity
    rw [fresh.unmoved] at one
    exact absurd one (by decide)
  · have content : (s.filled (wire msg ++ tail)).content = [] ++ (wire msg ++ tail) := by
      rw [← fresh.content]
      exact RingBuffer.asyncWriteSomeFrom_content fresh.atRest.ok room
    rw [content, List.nil_append]
    exact deserialize_reads valid tail

/-- The session after the greeting has been answered: what followed it is in the buffer. -/
structure Greeted (s : Session) (msg : BeginSessionMessage) (tail : List UInt8) (s' : Session) : Prop where
  atRest : s'.inputBuffer.AtRest
  size : s'.inputBuffer.capacity = inputCapacity
  content : s'.inputBuffer.content = tail
  behind : s'.inputBuffer.writeIndex = (wire (.beginSession msg) ++ tail).length % inputCapacity
  pending : s'.phase = .readingRequest
  received : s'.received = wire (.beginSession msg) ++ tail
  handled : s'.handled = s.handled ++ [(0, .beginSession msg)]
  subscriptions : s'.subscriptions = s.subscriptions

/-- A session whose first read begins with a BEGIN_SESSION message answers it. -/
theorem Fresh.greets {δ : Type} [FlightVars δ] {s : Session} (fresh : Fresh s) (pending : s.phase = .readingBegin)
    (msg : BeginSessionMessage) (tail : List UInt8) (delegate : δ) (valid : (Message.beginSession msg).Valid)
    (fits : (wire (.beginSession msg) ++ tail).length ≤ inputCapacity) :
    Clear ⟨s, delegate⟩ (.read (.ok (wire (.beginSession msg) ++ tail))) ∧
    ∃ s₁ s₂, Step ⟨s, delegate⟩ (.read (.ok (wire (.beginSession msg) ++ tail))) ⟨s₁, delegate⟩ ∧
      Step ⟨s₁, delegate⟩ (.wrote (.ok 0)) ⟨s₂, delegate⟩ ∧ Greeted s msg tail s₂ := by
  obtain ⟨ready, transfers, clear, verdict⟩ := fresh.decodes valid fits
  obtain ⟨block, named⟩ : ∃ block, block = wire (.beginSession msg) ++ tail := ⟨_, rfl⟩
  rw [← named] at ready transfers clear verdict fits ⊢
  have capacity : (s.filled block).capacity = inputCapacity :=
    (fresh.atRest.asyncWriteSomeFrom transfers.2).2.trans fresh.size
  have behind : (s.filled block).writeIndex = block.length % inputCapacity := by
    show (s.inputBuffer.writeIndex + block.length) % s.inputBuffer.capacity = _
    rw [fresh.atRest.ok.aligned, fresh.unmoved, fresh.empty, fresh.size, Nat.mod_add_mod, Nat.zero_add]
  obtain ⟨buff, executed, took⟩ := unmarshall_value ready clear verdict
  have start : (s.got block).position = 0 := by
    show (s.received ++ block).length - (s.inputBuffer.bytesWritten + block.length) = 0
    rw [fresh.unread, fresh.empty]
    simp
  have taken : unmarshallInput (s.got block) = .ok (.beginSession msg) { s.got block with
      inputBuffer := buff
      handled := s.handled ++ [(0, .beginSession msg)] } := by
    unfold unmarshallInput
    rw [show (s.got block).inputBuffer = s.filled block from rfl, executed, start]
    rfl
  have answered : onReadBeginSession (.ok block) s = { s.got block with
      inputBuffer := buff
      handled := s.handled ++ [(0, .beginSession msg)]
      written := s.written ++ [.beginSession ⟨peerName, flightvarsProtocolVersion⟩]
      phase := .writing } := by
    unfold onReadBeginSession beginSession
    rw [ok_bind (getValue_ok block s), ok_bind taken, beginReply_begin]
    rfl
  refine ⟨fun block' same => by cases same; exact clear, onReadBeginSession (.ok block) s,
    onWriteMessage (.ok 0) (onReadBeginSession (.ok block) s), .readBegin pending transfers, .wrote ?_, ?_⟩
  · rw [answered]
  · rw [answered]
    exact ⟨took.atRest, took.sameSize.trans capacity, took.content, by rw [← named]; exact took.behind.trans behind, rfl,
      by rw [← named]; show s.received ++ block = _; rw [fresh.unread, List.nil_append], rfl, rfl⟩

/-! ## Runs -/

section
variable {δ : Type} [FlightVars δ]

/-- However the words of valid messages are cut into reads, the session handles the
    messages in order, loses and repeats no byte, and its decoder raises nothing but
    `eof_error`, as long as no read fills the buffer at the end of its memory; such a read
    makes it raise. -/
theorem session_receives {ms : List Message} (valid : ∀ m ∈ ms, m.Valid) {delegate : δ} {p : Peer δ}
    (run : Run (Meeting (Meeting Step (Fed ms)) Clear) ⟨accepted, delegate⟩ p) :
    p.session.handled.map Prod.snd <+: ms ∧
      p.session.received = wires (p.session.handled.map Prod.snd) ++ p.session.inputBuffer.content ∧
      ∀ block, p.session.Reading → p.session.Transfers (.ok block) → p.session.received ++ block <+: wires ms →
        ((∀ e buff, unmarshall (p.session.filled block) = .error e buff → e = .eof) ↔
          ¬ FillsAtEnd (p.session.filled block)) := by
  have aligned : Aligned ms p.session := run.invariant (I := fun p => Aligned ms p.session) (accepted_aligned ms)
    fun aligned step => aligned.step valid step.1.1 step.1.2 step.2
  exact ⟨aligned.order, aligned.stream, fun block _ transfers fed => aligned.raises valid transfers fed⟩

/-- No read leaves two complete messages at the head of the buffer. -/
def Single (p : Peer δ) (e : Event δ) : Prop :=
  ∀ block, e = .read (.ok block) → ¬ BeginsWithTwo (p.session.filled block).content

/-- What a session that is not closed has in its buffer: the rest of the stream, and no
    complete message. -/
structure Drained (ms : List Message) (s : Session) : Prop where
  aligned : Aligned ms s
  incomplete : ¬ BeginsWithMessage s.inputBuffer.content

theorem drained_step {ms : List Message} (valid : ∀ m ∈ ms, m.Valid) {p p' : Peer δ} {e : Event δ}
    (drained : p.session.phase = .closed ∨ Drained ms p.session) (step : Step p e p') (fed : Fed ms p e)
    (single : Single p e) : p'.session.phase = .closed ∨ Drained ms p'.session := by
  rcases drained with closed | ⟨aligned, incomplete⟩
  · exact .inl (step.closed closed).1
  · rcases step.input aligned.atRest with ⟨block, rfl, -, transfers, effect⟩ | ⟨-, same, -⟩
    · by_cases fills : FillsAtEnd (p.session.filled block)
      · cases effect with
        | straddled _ closed _ => exact .inl closed
        | message _ _ fits => exact absurd fills fits
        | incomplete fits => exact absurd fills fits
        | rejected _ _ fits => exact absurd fills fits
      · have kept := aligned.read valid transfers (fed block rfl) fills effect
        refine (Classical.em _).imp_right fun open' => ⟨kept, ?_⟩
        rintro ⟨m', rest', second⟩
        cases effect with
        | straddled fills' => exact fills fills'
        | message m rest fits verdict took =>
          rw [took.content] at second
          exact single block rfl ⟨m, rest, m', rest', verdict, second⟩
        | incomplete fits starved restored =>
          rw [restored, RingBuffer.setMark_content] at second
          rw [second] at starved
          cases starved
        | rejected e rest fits verdict closed => exact open' closed
    · exact .inr ⟨aligned.same same, by rw [same.buffer]; exact incomplete⟩

/-- Whenever a session issues a read, every message received in full has been handled,
    as long as no read leaves two messages in the buffer. -/
theorem session_drains {ms : List Message} (valid : ∀ m ∈ ms, m.Valid) {delegate : δ} {p : Peer δ}
    (run : Run (Meeting (Meeting Step (Fed ms)) Single) ⟨accepted, delegate⟩ p) (reading : p.session.Reading) :
    Drained ms p.session := by
  have start : Drained ms accepted := ⟨accepted_aligned ms, by
    rw [accepted_fresh.content]
    exact not_beginsWithMessage_nil⟩
  rcases run.invariant (I := fun p => p.session.phase = .closed ∨ Drained ms p.session) (.inr start)
    fun drained step => drained_step valid drained step.1.1 step.1.2 step.2 with closed | drained
  · rcases reading with pending | pending <;> exact absurd (pending.symm.trans closed) (by decide)
  · exact drained

end

/-- One message in one read. -/
def greeting : List Message := [.beginSession ⟨text "fcu", 0x0100⟩]

theorem greeting_valid : ∀ m ∈ greeting, m.Valid := by
  intro m member
  rw [List.mem_singleton.mp member]
  show (text "fcu").length ≤ 0xffff
  decide

theorem session_receives_greeting : ∃ p : Peer FlightVars.Registry,
    Run (Meeting (Meeting Step (Fed greeting)) Clear) ⟨accepted, .empty⟩ p ∧ p.session.handled.map Prod.snd = greeting ∧
      p.session.received = wires (p.session.handled.map Prod.snd) ++ p.session.inputBuffer.content := by
  obtain ⟨clear, s₁, s₂, read, wrote, greeted⟩ := accepted_fresh.greets rfl ⟨text "fcu", 0x0100⟩ []
    FlightVars.Registry.empty (greeting_valid _ List.mem_cons_self) (by decide)
  have fed : Fed greeting ⟨accepted, FlightVars.Registry.empty⟩
      (.read (.ok (wire (.beginSession ⟨text "fcu", 0x0100⟩) ++ []))) := by
    intro block same
    cases same
    rw [accepted_fresh.unread, greeting, wires_cons, wires_nil, List.nil_append]
  have run : Run (Meeting (Meeting Step (Fed greeting)) Clear) ⟨accepted, FlightVars.Registry.empty⟩
      ⟨s₂, FlightVars.Registry.empty⟩ := ((Run.refl _).next ⟨⟨read, fed⟩, clear⟩).next ⟨⟨wrote, nofun⟩, nofun⟩
  exact ⟨_, run, by rw [greeted.handled]; rfl, (session_receives greeting_valid run).2.1⟩

/-- Messages whose words come in reads of 65535 and 65536 bytes, if the strings are as long as that. -/
def longStream (pname cause : Str) : List Message :=
  [.beginSession ⟨pname, 0x0100⟩, .endSession ⟨cause⟩, .endSession ⟨[]⟩]

/-- The second read fills the buffer at the end of its memory. -/
theorem longStream_raises {pname cause : Str} (sizePname : pname.length = 65527) (sizeCause : cause.length = 65529) :
    (∀ m ∈ longStream pname cause, m.Valid ∧ (wire m).length < inputCapacity) ∧
    ∃ (p : Peer FlightVars.Registry) (block : List UInt8) (buff : RingBuffer),
      Run (Meeting Step (Fed (longStream pname cause))) ⟨accepted, .empty⟩ p ∧ p.session.Reading ∧
        p.session.Transfers (.ok block) ∧ p.session.received ++ block <+: wires (longStream pname cause) ∧
        unmarshall (p.session.filled block) = .error (.indexOutOfBounds 65537 0 65535) buff := by
  have wide : inputCapacity = 65536 := rfl
  have sizeBegin : (wire (.beginSession ⟨pname, 0x0100⟩) ++ []).length = 65535 := by
    rw [List.append_nil, wire_length, Message.size, sizePname]
  have validBegin : (Message.beginSession ⟨pname, 0x0100⟩).Valid := by
    show pname.length ≤ _
    omega
  refine ⟨?_, ?_⟩
  · intro m member
    rw [wire_length, wide]
    simp only [longStream, List.mem_cons, List.not_mem_nil, or_false] at member
    rcases member with rfl | rfl | rfl
    all_goals
      simp only [Message.Valid, Message.size, List.length_nil]
      omega
  obtain ⟨block, named⟩ : ∃ block, block = wire (.endSession ⟨cause⟩) ++ [0x07] := ⟨_, rfl⟩
  have sizeBlock : block.length = inputCapacity := by
    rw [named, List.length_append, wire_length, Message.size, sizeCause]
    rfl
  obtain ⟨-, s₁, s₂, read, wrote, greeted⟩ := accepted_fresh.greets rfl ⟨pname, 0x0100⟩ [] FlightVars.Registry.empty validBegin
    (by rw [sizeBegin]; decide)
  have fed : Fed (longStream pname cause) ⟨accepted, FlightVars.Registry.empty⟩
      (.read (.ok (wire (.beginSession ⟨pname, 0x0100⟩) ++ []))) := by
    intro block same
    cases same
    rw [accepted_fresh.unread, List.nil_append, List.append_nil]
    exact List.prefix_append _ _
  obtain ⟨atRest, size, content, behind, pending, received, -, -⟩ := greeted
  have empty : s₂.inputBuffer.bytesWritten = 0 := by
    rw [← RingBuffer.content_length atRest.ok.layout, content]
    rfl
  have free : s₂.inputBuffer.availableForWrite = inputCapacity := by
    have space := atRest.availableForWrite
    rw [content, size] at space
    exact space
  have room : block.length ≤ s₂.inputBuffer.availableForWrite := by rw [free, sizeBlock]
  have filledSize : (s₂.filled block).capacity = inputCapacity := (atRest.asyncWriteSomeFrom room).2.trans size
  -- an empty buffer whose indexes stand at the last byte of its memory
  have index : s₂.inputBuffer.readIndex = 65535 := by
    have placed := atRest.ok.writeIndex_cases
    have bound := atRest.ok.readBound
    rw [sizeBegin, wide] at behind
    omega
  have fills : FillsAtEnd (s₂.filled block) := by
    refine ⟨?_, ?_⟩
    · show s₂.inputBuffer.readIndex + 1 = (s₂.filled block).capacity
      rw [index, filledSize, wide]
    · show s₂.inputBuffer.bytesWritten + block.length = (s₂.filled block).capacity
      rw [empty, sizeBlock, filledSize, Nat.zero_add]
  have raised := unmarshall_straddles (atRest.asyncWriteSomeFrom room).1 fills
  refine ⟨⟨s₂, .empty⟩, block, (s₂.filled block).setMark, ((Run.refl _).next ⟨read, fed⟩).next ⟨wrote, fun _ same => by cases same⟩,
    .inr pending, ⟨by rw [named]; simp, room⟩, ?_, ?_⟩
  · rw [received, named]
    refine ⟨[0x01, 0x00, 0x00, 0x0d, 0x0a], ?_⟩
    simp only [longStream, wires_cons, List.append_nil, List.append_assoc]
    rfl
  · have size : (s₂.inputBuffer.asyncWriteSomeFrom block).capacity = 65536 := filledSize.trans wide
    show unmarshall (s₂.inputBuffer.asyncWriteSomeFrom block) = _
    rw [raised, size]
    rfl

theorem session_raises :
    (∀ m ∈ longStream (letters 65527) (letters 65529), m.Valid ∧ (wire m).length < inputCapacity) ∧
    ∃ (p : Peer FlightVars.Registry) (block : List UInt8) (buff : RingBuffer),
      Run (Meeting Step (Fed (longStream (letters 65527) (letters 65529)))) ⟨accepted, .empty⟩ p ∧ p.session.Reading ∧
        p.session.Transfers (.ok block) ∧
        p.session.received ++ block <+: wires (longStream (letters 65527) (letters 65529)) ∧
        unmarshall (p.session.filled block) = .error (.indexOutOfBounds 65537 0 65535) buff :=
  longStream_raises (letters_length 65527) (letters_length 65529)

end Oac.Server
