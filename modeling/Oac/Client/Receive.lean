import Oac.Client.Effects

/-!
# The receive loop of the client

The steps of a connection manager, and what a completed read does to its input
(`ReadEffect`). The loop never marks its buffer, so that a message is decoded only if it
is there as a whole when the loop first looks at it.
-/
namespace Oac.Client
open Base Proto

/-- A call of `submit`. -/
inductive Submission where
  | subscribe (varId : VariableId) (handler : Nat)
  | unsubscribe (virtualSubsId : SubscriptionId)
  | update (virtualSubsId : SubscriptionId) (varValue : VariableValue)

/-- The task that is posted. The master subscription is not known yet. -/
def Submission.task (id : Nat) : Submission → Task
  | .subscribe varId handler => .subscription ⟨id, varId, handler⟩
  | .unsubscribe virtualSubsId => .unsubscription ⟨id, 0, virtualSubsId⟩
  | .update virtualSubsId varValue => .variableUpdate ⟨id, virtualSubsId, varValue⟩

/-- What happens to a connection manager. -/
inductive Event where
  | read (bytesRead : Except Exception (List UInt8))
  | submitted (submission : Submission)
  | ran (task : Task)
  | dataSent (bytesWritten : Except Exception Nat)
  | closed

namespace ConnectionManager

def submit (submission : Submission) (m : ConnectionManager) : ConnectionManager :=
  { m with
    tasks := m.tasks ++ [submission.task m.submitted]
    submitted := m.submitted + 1 }

/-- A read is pending whose bytes will be looked at. -/
def Reading (m : ConnectionManager) : Prop := m.phase = .handshaking ∨ m.phase = .receiving

theorem Reading.not_stopped {m : ConnectionManager} (reading : m.Reading) : m.phase ≠ .stopped := by
  rcases reading with handshaking | receiving
  · rw [handshaking]
    nofun
  · rw [receiving]
    nofun

theorem Reading.not_closing {m : ConnectionManager} (reading : m.Reading) : m.phase ≠ .closing := by
  rcases reading with handshaking | receiving
  · rw [handshaking]
    nofun
  · rw [receiving]
    nofun

theorem close_not_reading {m : ConnectionManager} (connected : m.state.connected = true) : ¬ (close m).Reading := by
  intro reading
  have phase : (close m).phase = if m.phase = .stopped then .stopped else .closing := by rw [close, if_pos connected]
  by_cases stopped : m.phase = .stopped
  · rw [if_pos stopped] at phase
    exact reading.not_stopped phase
  · rw [if_neg stopped] at phase
    exact reading.not_closing phase

/-- A successful read brings from one byte up to the free space. -/
def Transfers (m : ConnectionManager) : Except Exception (List UInt8) → Prop
  | .ok block => block ≠ [] ∧ block.length ≤ m.inputBuffer.availableForWrite
  | .error _ => True

/-- The buffer after a read, before anything is decoded. -/
def filled (m : ConnectionManager) (block : List UInt8) : RingBuffer := m.inputBuffer.asyncWriteSomeFrom block

/-- The manager once a read has been put into its buffer. -/
def got (m : ConnectionManager) (block : List UInt8) : ConnectionManager :=
  { m with
    inputBuffer := m.filled block
    received := m.received ++ block }

/-- The manager once a message has been taken off its buffer. -/
def taken (m : ConnectionManager) (block : List UInt8) (buff : RingBuffer) (msg : Message) : ConnectionManager :=
  { m.got block with
    inputBuffer := buff
    decoded := m.decoded ++ [msg] }

end ConnectionManager
open ConnectionManager

/-- The steps of a connection manager. Tasks may run in any order. -/
inductive Step : ConnectionManager → Event → ConnectionManager → Prop
  | handshake {m : ConnectionManager} {bytesRead : Except Exception (List UInt8)} (pending : m.phase = .handshaking)
      (transfers : m.Transfers bytesRead) : Step m (.read bytesRead) (onHandshakeRead bytesRead m)
  | read {m : ConnectionManager} {bytesRead : Except Exception (List UInt8)}
      (pending : m.phase = .receiving ∨ m.phase = .closing) (transfers : m.Transfers bytesRead) :
      Step m (.read bytesRead) (after (onMessageReceived bytesRead m))
  | submitted {m : ConnectionManager} {submission : Submission} (constructed : m.phase ≠ .handshaking) :
      Step m (.submitted submission) (submit submission m)
  | ran {m : ConnectionManager} {task : Task} {before later : List Task} (posted : m.tasks = before ++ task :: later) :
      Step m (.ran task) (after (runTask task { m with tasks := before ++ later }))
  | dataSent {m : ConnectionManager} {bytesWritten : Except Exception Nat} :
      Step m (.dataSent bytesWritten) (onDataSent bytesWritten m)
  | closed {m : ConnectionManager} (constructed : m.phase ≠ .handshaking) : Step m .closed (close m)

/-! ## Reads -/

namespace ConnectionManager

theorem getValue_ok (block : List UInt8) (m : ConnectionManager) : getValue (.ok block) m = .ok () (m.got block) := rfl

theorem onMessageReceived_ok {m : ConnectionManager} (pending : m.phase = .receiving) (block : List UInt8) :
    onMessageReceived (.ok block) m = .ok () (caught (receive (m.got block))) := by
  rw [onMessageReceived, if_neg (by rw [pending]; nofun), getValue_ok]

/-- Nothing has changed on the input side. -/
structure SameInput (m m' : ConnectionManager) : Prop where
  buffer : m'.inputBuffer = m.inputBuffer
  received : m'.received = m.received
  decoded : m'.decoded = m.decoded

theorem TaskEffect.input {m m' : ConnectionManager} {task : Task} (effect : TaskEffect m task m') :
    SameInput m m' ∧ m'.phase = m.phase := by
  cases effect <;> exact ⟨⟨rfl, rfl, rfl⟩, rfl⟩

theorem ReplyEffect.input {m : ConnectionManager} {msg : Message} {result : EStateM.Result Exception ConnectionManager Unit}
    (effect : ReplyEffect m msg result) : SameInput m (after result) := by
  cases effect <;> exact ⟨rfl, rfl, rfl⟩

theorem onError_input (e : Exception) (disconnects : Bool) (m : ConnectionManager) : SameInput m (onError e disconnects m) := by
  unfold onError
  split <;> exact ⟨rfl, rfl, rfl⟩

/-- The buffer of the receive loop: at rest and not marked. -/
structure Unmarked (buff : RingBuffer) : Prop where
  atRest : buff.AtRest
  mark : buff.mark = none

theorem Unmarked.filled {m : ConnectionManager} (unmarked : Unmarked m.inputBuffer) {block : List UInt8}
    (transfers : m.Transfers (.ok block)) : Unmarked (m.filled block) ∧ (m.filled block).capacity = m.inputBuffer.capacity ∧
      (m.filled block).content = m.inputBuffer.content ++ block := by
  obtain ⟨ready, size⟩ := unmarked.atRest.asyncWriteSomeFrom transfers.2
  exact ⟨⟨ready, unmarked.mark⟩, size, RingBuffer.asyncWriteSomeFrom_content unmarked.atRest.ok transfers.2⟩

theorem deserializeFrom_unmarked {buff : RingBuffer} (unmarked : Unmarked buff) (fits : ¬ FillsAtEnd buff) :
    ∃ buff', deserializeFrom buff = (deserialize.decode buff.content).1.result .eof buff' ∧ Unmarked buff' ∧
      buff'.capacity = buff.capacity ∧ buff'.content = (deserialize.decode buff.content).2 := by
  obtain ⟨atRest, mark⟩ := unmarked
  obtain ⟨buff', executed, holds⟩ := deserializeFrom_ring atRest.ok atRest.large
    ((straddles_iff atRest.ok atRest.large).not.mpr fits)
  have mark' : buff'.mark = none := holds.markKept.trans mark
  refine ⟨buff', executed, ⟨⟨holds.ok, holds.ok.unmarked mark', ?_, ?_⟩, mark'⟩, holds.sameSize, holds.content⟩
  · rw [holds.sameSize]
    exact atRest.large
  · intro at' marked
    rw [mark'] at marked
    cases marked

theorem deserializeInput_ok {m : ConnectionManager} {block : List UInt8} {msg : Message} {buff : RingBuffer}
    (decoded : deserializeFrom (m.filled block) = .ok msg buff) :
    deserializeInput (m.got block) = .ok msg (m.taken block buff msg) := by
  unfold deserializeInput
  rw [show (m.got block).inputBuffer = m.filled block from rfl, decoded]
  rfl

theorem deserializeInput_error {m : ConnectionManager} {block : List UInt8} {e : Exception} {buff : RingBuffer}
    (raised : deserializeFrom (m.filled block) = .error e buff) :
    deserializeInput (m.got block) = .error e { m.got block with inputBuffer := buff } := by
  unfold deserializeInput
  rw [show (m.got block).inputBuffer = m.filled block from rfl, raised]

/-- What a completed read does to the input of a manager. -/
inductive ReadEffect (m : ConnectionManager) (block : List UInt8) (m' : ConnectionManager) : Prop
  | message (msg : Message) (rest : List UInt8) (fits : ¬ FillsAtEnd (m.filled block))
      (verdict : deserialize.decode (m.filled block).content = (.value msg, rest)) (unmarked : Unmarked m'.inputBuffer)
      (size : m'.inputBuffer.capacity = (m.filled block).capacity) (content : m'.inputBuffer.content = rest)
      (received : m'.received = m.received ++ block) (decoded : m'.decoded = m.decoded ++ [msg])
  | undecoded (e : Exception) (buff : RingBuffer) (raised : deserializeFrom (m.filled block) = .error e buff)
      (same : m'.decoded = m.decoded)

theorem deserialize_cases (m : ConnectionManager) {block : List UInt8} (unmarked : Unmarked (m.filled block)) :
    (∃ msg rest buff, ¬ FillsAtEnd (m.filled block) ∧ deserialize.decode (m.filled block).content = (.value msg, rest) ∧
      deserializeFrom (m.filled block) = .ok msg buff ∧ Unmarked buff ∧ buff.capacity = (m.filled block).capacity ∧
      buff.content = rest) ∨
    ∃ e buff, deserializeFrom (m.filled block) = .error e buff := by
  by_cases fills : FillsAtEnd (m.filled block)
  · have straddles := (straddles_iff unmarked.atRest.ok unmarked.atRest.large).mpr fills
    exact .inr ⟨_, _, deserializeFrom_straddles unmarked.atRest.ok straddles⟩
  · obtain ⟨buff, executed, unmarked', size, content⟩ := deserializeFrom_unmarked unmarked fills
    rcases verdict : deserialize.decode (m.filled block).content with ⟨outcome, rest⟩
    rw [verdict] at executed content
    cases outcome with
    | value msg => exact .inl ⟨msg, rest, buff, fills, rfl, executed, unmarked', size, content⟩
    | error e => exact .inr ⟨e, buff, executed⟩
    | starved => exact .inr ⟨.eof, buff, executed⟩

theorem SameInput.trans {m m' m'' : ConnectionManager} (first : SameInput m m') (second : SameInput m' m'') :
    SameInput m m'' :=
  ⟨second.buffer.trans first.buffer, second.received.trans first.received, second.decoded.trans first.decoded⟩

theorem failed_input (e : Exception) (m : ConnectionManager) : SameInput m (failed e m) := by
  obtain ⟨buffer, received, decoded⟩ := onError_input e true m
  exact ⟨buffer, received, decoded⟩

theorem caughtHandshake_input (result : EStateM.Result Exception ConnectionManager Unit) :
    SameInput (after result) (caughtHandshake result) := by
  unfold caughtHandshake
  split
  · exact ⟨rfl, rfl, rfl⟩
  · split
    · exact failed_input _ _
    · exact ⟨rfl, rfl, rfl⟩
  · split <;> exact failed_input _ _

/-- Without marks a reset does nothing. -/
theorem caught_input {m : ConnectionManager} (mark : m.inputBuffer.mark = none)
    {result : EStateM.Result Exception ConnectionManager Unit} (kept : SameInput m (after result)) :
    SameInput m (caught result) := by
  obtain ⟨buffer, received, decoded⟩ := kept
  unfold caught
  split
  · exact ⟨buffer, received, decoded⟩
  · rename_i m'
    have buffer : m'.inputBuffer = m.inputBuffer := buffer
    refine ⟨?_, received, decoded⟩
    show m'.inputBuffer.reset = _
    rw [RingBuffer.reset_unmarked (by rw [buffer]; exact mark), buffer]
  · rename_i e m' _
    obtain ⟨buffer', received', decoded'⟩ := onError_input .communication true m'
    exact ⟨buffer'.trans buffer, received'.trans received, decoded'.trans decoded⟩

theorem greeted_input (msg : Message) : Keeps SameInput (greeted msg) := by
  intro m
  cases msg <;> exact ⟨rfl, rfl, rfl⟩

theorem onHandshakeRead_effect {m : ConnectionManager} {block : List UInt8} (unmarked : Unmarked (m.filled block)) :
    ReadEffect m block (onHandshakeRead (.ok block) m) := by
  rcases deserialize_cases m unmarked with ⟨msg, rest, buff, fits, verdict, executed, unmarked', size, content⟩ |
    ⟨e, buff, raised⟩
  · have body : handshakeBody (.ok block) m = greeted msg (m.taken block buff msg) :=
      (ok_bind (getValue_ok block m)).trans (ok_bind (deserializeInput_ok executed))
    have same := (greeted_input msg (m.taken block buff msg)).trans (caughtHandshake_input _)
    rw [onHandshakeRead, body]
    exact .message msg rest fits verdict (by rw [same.buffer]; exact unmarked') (by rw [same.buffer]; exact size)
      (by rw [same.buffer]; exact content) same.received same.decoded
  · have body : handshakeBody (.ok block) m = .error e _ :=
      (ok_bind (getValue_ok block m)).trans (error_bind (deserializeInput_error raised))
    have same := caughtHandshake_input (.error e { m.got block with inputBuffer := buff })
    rw [onHandshakeRead, body]
    exact .undecoded e buff raised same.decoded

theorem onMessageReceived_effect {m : ConnectionManager} {block : List UInt8} (unmarked : Unmarked (m.filled block))
    (pending : m.phase = .receiving) : ReadEffect m block (after (onMessageReceived (.ok block) m)) := by
  rw [onMessageReceived_ok pending, after_ok, receive]
  rcases deserialize_cases m unmarked with ⟨msg, rest, buff, fits, verdict, executed, unmarked', size, content⟩ |
    ⟨e, buff, raised⟩
  · rw [ok_bind (deserializeInput_ok executed)]
    have same := caught_input (m := m.taken block buff msg) unmarked'.mark (dispatch_effect _ msg).input
    exact .message msg rest fits verdict (by rw [same.buffer]; exact unmarked') (by rw [same.buffer]; exact size)
      (by rw [same.buffer]; exact content) same.received same.decoded
  · rw [error_bind (deserializeInput_error raised)]
    refine .undecoded e buff raised ?_
    unfold caught
    split
    · contradiction
    · rename_i same
      cases same
      rfl
    · rename_i same
      cases same
      exact (onError_input _ _ _).decoded

end ConnectionManager

/-- A step is a completed read that the manager looks at, or leaves its input alone. -/
theorem Step.input {m m' : ConnectionManager} {e : Event} (step : Step m e m')
    (unmarked : m.Reading → Unmarked m.inputBuffer) :
    (∃ block, e = .read (.ok block) ∧ m.Reading ∧ m.Transfers (.ok block) ∧ ReadEffect m block m') ∨
      (SameInput m m' ∧ (m'.Reading → m.Reading)) := by
  cases step with
  | handshake pending transfers =>
    rename_i bytesRead
    cases bytesRead with
    | ok block =>
      exact .inl ⟨block, rfl, .inl pending, transfers,
        onHandshakeRead_effect ((unmarked (.inl pending)).filled transfers).1⟩
    | error e => exact .inr ⟨caughtHandshake_input (.error e m), fun _ => .inl pending⟩
  | read pending transfers =>
    rename_i bytesRead
    by_cases closing : m.phase = .closing
    · have ignored : onMessageReceived bytesRead m = .ok () { m with phase := .stopped } := if_pos closing
      rw [ignored]
      exact .inr ⟨⟨rfl, rfl, rfl⟩, fun reading => absurd rfl reading.not_stopped⟩
    · have receiving := pending.resolve_right closing
      cases bytesRead with
      | ok block =>
        exact .inl ⟨block, rfl, .inr receiving, transfers,
          onMessageReceived_effect ((unmarked (.inr receiving)).filled transfers).1 receiving⟩
      | error e =>
        refine .inr ⟨?_, fun _ => .inr receiving⟩
        have raised : getValue (.error e) m = .error e m := rfl
        rw [onMessageReceived, if_neg closing, raised]
        cases e with
        | connectionReset => exact (failed_input .communication m)
        | _ => exact ⟨rfl, rfl, rfl⟩
  | submitted constructed => exact .inr ⟨⟨rfl, rfl, rfl⟩, id⟩
  | ran posted =>
    obtain ⟨same, phase⟩ := (runTask_effect _ _).input
    exact .inr ⟨⟨same.buffer, same.received, same.decoded⟩, fun reading => by rw [Reading, phase] at reading; exact reading⟩
  | dataSent =>
    rename_i bytesWritten
    refine .inr ?_
    unfold onDataSent
    split
    · exact ⟨⟨rfl, rfl, rfl⟩, id⟩
    · exact ⟨onError_input _ _ _, id⟩
  | closed constructed =>
    refine .inr ?_
    by_cases connected : m.state.connected = true
    · refine ⟨?_, fun reading => absurd reading (close_not_reading connected)⟩
      rw [close, if_pos connected]
      exact ⟨rfl, rfl, rfl⟩
    · rw [close, if_neg connected]
      exact ⟨⟨rfl, rfl, rfl⟩, id⟩

/-! ## Streams of messages -/

/-- What has been decoded is the beginning of the stream, and as long as bytes are looked at
    the rest of those received is in the buffer. -/
structure Aligned (ms : List Message) (m : ConnectionManager) : Prop where
  order : m.decoded <+: ms
  unmarked : m.Reading → Unmarked m.inputBuffer
  size : m.Reading → m.inputBuffer.capacity = inputCapacity
  stream : m.Reading → m.received = wires m.decoded ++ m.inputBuffer.content

theorem connecting_aligned (ms : List Message) : Aligned ms connecting where
  order := List.nil_prefix
  unmarked _ := ⟨RingBuffer.create_atRest (by decide) (by decide), rfl⟩
  size _ := by rw [connecting, RingBuffer.create_capacity]
  stream _ := by rw [connecting, RingBuffer.create_content]; rfl

/-- The reads bring the words of the messages, cut anyhow. -/
def Fed (ms : List Message) (m : ConnectionManager) (e : Event) : Prop :=
  ∀ block, e = .read (.ok block) → m.received ++ block <+: wires ms

/-- What a read leaves in the buffer begins with a complete message, and the buffer is not
    filled at the end of its memory. -/
def Whole (buff : RingBuffer) : Prop := BeginsWithMessage buff.content ∧ ¬ FillsAtEnd buff

/-- No read leaves less than a message in the buffer. -/
def Uncut (m : ConnectionManager) (e : Event) : Prop := ∀ block, e = .read (.ok block) → m.Reading → Whole (m.filled block)

theorem Aligned.filled {ms : List Message} {m : ConnectionManager} (aligned : Aligned ms m) (reading : m.Reading)
    {block : List UInt8} (transfers : m.Transfers (.ok block)) (fed : m.received ++ block <+: wires ms) :
    Unmarked (m.filled block) ∧ (m.filled block).capacity = inputCapacity ∧
      ∃ later, ms = m.decoded ++ later ∧ (m.filled block).content <+: wires later ∧
        m.received ++ block = wires m.decoded ++ (m.filled block).content := by
  obtain ⟨⟨later, split⟩, unmarked, size, stream⟩ := aligned
  obtain ⟨ready, sameSize, content⟩ := (unmarked reading).filled transfers
  have whole : m.received ++ block = wires m.decoded ++ (m.filled block).content := by
    rw [content, stream reading, List.append_assoc]
  refine ⟨ready, sameSize.trans (size reading), later, split.symm, ?_, whole⟩
  rw [whole, ← split, wires_append, List.prefix_append_right_inj] at fed
  exact fed

theorem Aligned.step {ms : List Message} (valid : ∀ m ∈ ms, m.Valid) {m m' : ConnectionManager} {e : Event}
    (aligned : Aligned ms m) (step : Step m e m') (fed : Fed ms m e) (uncut : Uncut m e) : Aligned ms m' := by
  rcases step.input aligned.unmarked with ⟨block, rfl, reading, transfers, effect⟩ | ⟨same, still⟩
  · obtain ⟨ready, size, later, split, stream, whole⟩ := aligned.filled reading transfers (fed block rfl)
    obtain ⟨⟨msg, rest, verdict⟩, fits⟩ := uncut block rfl reading
    cases effect with
    | message msg' rest' fits' verdict' unmarked sameSize content received decoded =>
      rcases decode_stream (valid_later valid split) stream with ⟨first, others, tail, found, words, -, verdict''⟩ | starved
      · rw [verdict'] at verdict''
        cases verdict''
        refine ⟨?_, fun _ => unmarked, fun _ => sameSize.trans size, fun _ => ?_⟩
        · rw [decoded, split, found]
          exact ⟨others, by simp⟩
        · rw [received, decoded, whole, words, content, wires_append, List.append_assoc]
          simp
      · rw [verdict] at starved
        cases starved
    | undecoded e buff raised same =>
      obtain ⟨buff', executed, -⟩ := deserializeFrom_unmarked ready fits
      rw [verdict, raised] at executed
      cases executed
  · obtain ⟨buffer, received, decoded⟩ := same
    exact ⟨decoded ▸ aligned.order, fun reading => buffer ▸ aligned.unmarked (still reading),
      fun reading => buffer ▸ aligned.size (still reading),
      fun reading => by rw [received, decoded, buffer]; exact aligned.stream (still reading)⟩

/-- What becomes of the next read of the stream. -/
theorem Aligned.decodes {ms : List Message} (valid : ∀ m ∈ ms, m.Valid) {m : ConnectionManager} (aligned : Aligned ms m)
    (reading : m.Reading) {block : List UInt8} (transfers : m.Transfers (.ok block))
    (fed : m.received ++ block <+: wires ms) :
    (∃ msg buff, deserializeFrom (m.filled block) = .ok msg buff ∧ m.decoded ++ [msg] <+: ms) ↔ Whole (m.filled block) := by
  obtain ⟨ready, size, later, split, stream, whole⟩ := aligned.filled reading transfers fed
  constructor
  · rintro ⟨msg, buff, executed, -⟩
    rcases deserialize_cases m ready with ⟨msg', rest, buff', fits, verdict, -⟩ | ⟨e, buff', raised⟩
    · exact ⟨⟨msg', rest, verdict⟩, fits⟩
    · rw [executed] at raised
      cases raised
  · rintro ⟨⟨msg, rest, verdict⟩, fits⟩
    obtain ⟨buff, executed, -⟩ := deserializeFrom_unmarked ready fits
    rw [verdict] at executed
    refine ⟨msg, buff, executed, ?_⟩
    rcases decode_stream (valid_later valid split) stream with ⟨first, others, tail, found, words, -, verdict'⟩ | starved
    · rw [verdict] at verdict'
      cases verdict'
      rw [split, found]
      exact ⟨others, by simp⟩
    · rw [verdict] at starved
      cases starved

/-- As long as no read leaves less than a message in the buffer, the client decodes the
    messages of the server in order and loses no byte; and a read is decoded exactly if it
    leaves a message in the buffer, which is then the next one of the stream. -/
theorem manager_receives {ms : List Message} (valid : ∀ m ∈ ms, m.Valid) {m : ConnectionManager}
    (run : Run (Meeting (Meeting Step (Fed ms)) Uncut) connecting m) :
    m.decoded <+: ms ∧ (m.Reading → m.received = wires m.decoded ++ m.inputBuffer.content ∧
      ∀ block, m.Transfers (.ok block) → m.received ++ block <+: wires ms →
        ((∃ msg buff, deserializeFrom (m.filled block) = .ok msg buff ∧ m.decoded ++ [msg] <+: ms) ↔
          Whole (m.filled block))) := by
  have aligned : Aligned ms m := run.invariant (I := Aligned ms) (connecting_aligned ms)
    fun aligned step => aligned.step valid step.1.1 step.1.2 step.2
  refine ⟨aligned.order, fun reading => ⟨aligned.stream reading, fun block transfers fed => ?_⟩⟩
  exact aligned.decodes valid reading transfers fed

/-! ## First messages -/

/-- A buffer that is not full straddles nowhere. -/
theorem not_fillsAtEnd {buff : RingBuffer} (unmarked : Unmarked buff) (unfull : buff.content.length < buff.capacity) :
    ¬ FillsAtEnd buff := by
  rintro ⟨-, full⟩
  rw [RingBuffer.content_length unmarked.atRest.ok.layout] at unfull
  omega

/-- A manager with nothing in its buffer. -/
structure Idle (m : ConnectionManager) : Prop where
  unmarked : Unmarked m.inputBuffer
  size : m.inputBuffer.capacity = inputCapacity
  content : m.inputBuffer.content = []

/-- The buffer of an idle manager after a read that does not fill it. -/
theorem Idle.filled {m : ConnectionManager} (idle : Idle m) (block : List UInt8) (some : block ≠ [])
    (fits : block.length < inputCapacity) : m.Transfers (.ok block) ∧ Unmarked (m.filled block) ∧
      (m.filled block).capacity = inputCapacity ∧ (m.filled block).content = block ∧ ¬ FillsAtEnd (m.filled block) := by
  have free := idle.unmarked.atRest.availableForWrite
  rw [idle.content, idle.size] at free
  have transfers : m.Transfers (.ok block) := ⟨some, by
    rw [show m.inputBuffer.availableForWrite = inputCapacity from free]
    omega⟩
  obtain ⟨ready, size, content⟩ := idle.unmarked.filled transfers
  rw [idle.content, List.nil_append] at content
  have capacity := size.trans idle.size
  exact ⟨transfers, ready, capacity, content, not_fillsAtEnd ready (by rw [content, capacity]; exact fits)⟩

theorem connecting_idle : Idle connecting where
  unmarked := (connecting_aligned []).unmarked (.inl rfl)
  size := (connecting_aligned []).size (.inl rfl)
  content := by rw [connecting, RingBuffer.create_content]

/-- The manager that has been answered. -/
theorem connecting_greeted (msg : BeginSessionMessage) (valid : (Message.beginSession msg).Valid)
    (fits : (wire (.beginSession msg)).length < inputCapacity) : ∃ buff m, m = { connecting.taken (wire (.beginSession msg)) buff
        (.beginSession msg) with phase := .receiving } ∧
      Step connecting (.read (.ok (wire (.beginSession msg)))) m ∧ Idle m ∧
      Whole (connecting.filled (wire (.beginSession msg))) := by
  have some : wire (.beginSession msg) ≠ [] := List.ne_nil_of_length_pos (wire_length_pos _)
  obtain ⟨transfers, ready, capacity, content, clear⟩ := connecting_idle.filled _ some fits
  have verdict : deserialize.decode (connecting.filled (wire (.beginSession msg))).content = (.value (.beginSession msg), []) := by
    rw [content]
    exact deserialize_accepts valid
  obtain ⟨buff, executed, unmarked, size, left⟩ := deserializeFrom_unmarked ready clear
  rw [verdict] at executed left
  have body : handshakeBody (.ok (wire (.beginSession msg))) connecting = .ok () _ :=
    (ok_bind (getValue_ok _ _)).trans (ok_bind (deserializeInput_ok executed))
  refine ⟨buff, _, rfl, ?_, ⟨unmarked, size.trans capacity, left⟩, ⟨⟨_, _, verdict⟩, clear⟩⟩
  have step := Step.handshake (m := connecting) rfl transfers
  rw [onHandshakeRead, body] at step
  exact step

/-- A message that comes as a whole is decoded. -/
theorem Idle.reads {m : ConnectionManager} (idle : Idle m) (pending : m.phase = .receiving) {msg : Message} (valid : msg.Valid)
    (fits : (wire msg).length < inputCapacity) : ∃ buff, deserializeFrom (m.filled (wire msg)) = .ok msg buff ∧
      Step m (.read (.ok (wire msg))) (caught (dispatch msg (m.taken (wire msg) buff msg))) ∧
      Unmarked buff ∧ buff.capacity = inputCapacity ∧ buff.content = [] := by
  have some : wire msg ≠ [] := List.ne_nil_of_length_pos (wire_length_pos _)
  obtain ⟨transfers, ready, capacity, content, clear⟩ := idle.filled _ some fits
  obtain ⟨buff, executed, unmarked, size, left⟩ := deserializeFrom_unmarked ready clear
  rw [content, deserialize_accepts valid] at executed left
  refine ⟨buff, executed, ?_, unmarked, size.trans capacity, left⟩
  have step := Step.read (m := m) (.inl pending) transfers
  rw [onMessageReceived_ok pending, receive, ok_bind (deserializeInput_ok executed)] at step
  exact step

/-- Bytes that are no message yet are lost. -/
theorem Idle.loses {m : ConnectionManager} (idle : Idle m) (pending : m.phase = .receiving) (block : List UInt8)
    (some : block ≠ []) (fits : block.length < inputCapacity) (starved : (deserialize.decode block).1 = .starved) :
    ∃ buff, Step m (.read (.ok block)) { m.got block with inputBuffer := buff } ∧
      Idle { m.got block with inputBuffer := buff } := by
  obtain ⟨transfers, ready, capacity, content, clear⟩ := idle.filled block some fits
  obtain ⟨buff, executed, unmarked, size, left⟩ := deserializeFrom_unmarked ready clear
  rw [content, starved] at executed
  rw [content, Decoder.decode_starved _ _ starved] at left
  refine ⟨buff, ?_, ⟨unmarked, size.trans capacity, left⟩⟩
  have raised : receive (m.got block) = .error .eof { m.got block with inputBuffer := buff } :=
    error_bind (deserializeInput_error executed)
  have step := Step.read (m := m) (.inl pending) transfers
  rw [onMessageReceived_ok pending, raised] at step
  have caughtIt : caught (.error .eof { m.got block with inputBuffer := buff }) = { m.got block with inputBuffer := buff } := by
    show ({ m.got block with
      inputBuffer := buff.reset
      phase := .receiving } : ConnectionManager) = _
    rw [RingBuffer.reset_unmarked unmarked.mark, ← pending]
    rfl
  rw [caughtIt] at step
  exact step

/-- The answer to the greeting, and an update. -/
def answers : List Message := [.beginSession ⟨text "FlightVars Server", 0x0100⟩, .varUpdate ⟨1, .bool true⟩]

theorem answers_valid : ∀ m ∈ answers, m.Valid := by
  intro m member
  simp only [answers, List.mem_cons, List.not_mem_nil, or_false] at member
  rcases member with rfl | rfl
  · show (text "FlightVars Server").length ≤ 0xffff
    decide
  · exact True.intro

theorem answers_begin : ∃ m, Run (Meeting (Meeting Step (Fed answers)) Uncut) connecting m ∧ Idle m ∧ m.phase = .receiving ∧
    m.decoded = [.beginSession ⟨text "FlightVars Server", 0x0100⟩] ∧
    m.received = wire (.beginSession ⟨text "FlightVars Server", 0x0100⟩) := by
  obtain ⟨buff, m, same, step, idle, whole⟩ :=
    connecting_greeted ⟨text "FlightVars Server", 0x0100⟩ (answers_valid _ List.mem_cons_self) (by decide)
  have fed : Fed answers connecting (.read (.ok (wire (.beginSession ⟨text "FlightVars Server", 0x0100⟩)))) := by
    intro block equal
    cases equal
    exact List.prefix_append _ _
  have uncut : Uncut connecting (.read (.ok (wire (.beginSession ⟨text "FlightVars Server", 0x0100⟩)))) := by
    intro block equal _
    cases equal
    exact whole
  exact ⟨m, (Run.refl _).next ⟨⟨step, fed⟩, uncut⟩, idle, by rw [same], by rw [same]; rfl, by rw [same]; rfl⟩

theorem manager_receives_answer : ∃ m : ConnectionManager,
    Run (Meeting (Meeting Step (Fed answers)) Uncut) connecting m ∧
      m.decoded = [.beginSession ⟨text "FlightVars Server", 0x0100⟩] ∧ m.decoded <+: answers := by
  obtain ⟨m, run, -, -, decoded, -⟩ := answers_begin
  exact ⟨m, run, decoded, (manager_receives answers_valid run).1⟩

/-- An update that comes in two reads: the first two bytes are lost, and the others are no message. -/
theorem manager_loses : ∃ (m : ConnectionManager) (block : List UInt8) (buff : RingBuffer),
    Run (Meeting Step (Fed answers)) connecting m ∧ m.phase = .receiving ∧ m.Transfers (.ok block) ∧
      m.received ++ block = wires answers ∧
      deserializeFrom (m.filled block) = .error (.invalidMessageType 0xf900) buff := by
  obtain ⟨m, run, idle, pending, -, received⟩ := answers_begin
  have fed : Fed answers m (.read (.ok [0x07, 0x06])) := by
    intro block equal
    cases equal
    rw [received]
    exact ⟨[0, 0, 0, 1, 0, 1, 0x0d, 0x0a], by rw [List.append_assoc]; rfl⟩
  obtain ⟨buff, step, idle'⟩ := idle.loses pending [0x07, 0x06] nofun (by decide) rfl
  obtain ⟨transfers, ready, -, content, clear⟩ := idle'.filled [0, 0, 0, 1, 0, 1, 0x0d, 0x0a] nofun (by decide)
  obtain ⟨buff', executed, -⟩ := deserializeFrom_unmarked ready clear
  have verdict : deserialize.decode [0, 0, 0, 1, 0, 1, 0x0d, 0x0a] =
      (.error (.invalidMessageType 0xf900), [0, 1, 0, 1, 0x0d, 0x0a]) := rfl
  rw [content, verdict] at executed
  refine ⟨_, _, buff', run.forget.next ⟨step, fed⟩, pending, transfers, ?_, executed⟩
  show (m.received ++ [0x07, 0x06]) ++ _ = _
  rw [received, List.append_assoc]
  rfl

end Oac.Client
