import Oac.Buffer.Scatter
import Oac.Server.Receive

/-!
# Progress of the receive loop

A read that finds no free memory completes at once and brings nothing, and the loop goes
round without end. It never comes to this as long as no message that does not fit into
the input buffer fills it (`reads_progress`).
-/
namespace Oac.Server
open Base Proto Session

/-- The socket is given memory to read into. -/
def Session.HasRoom (s : Session) : Prop :=
  0 < s.inputBuffer.availableForWrite ∧ ∃ piece ∈ s.inputBuffer.asioMutableBuffers, 0 < piece.2

theorem hasRoom_iff {s : Session} (atRest : s.inputBuffer.AtRest) : s.HasRoom ↔ 0 < s.inputBuffer.availableForWrite := by
  refine ⟨And.left, fun room => ⟨room, ?_⟩⟩
  rw [← RingBuffer.asioMutableBuffers_sum atRest.ok.layout atRest.ok.wrapped] at room
  by_contra none
  push Not at none
  have zero : (s.inputBuffer.asioMutableBuffers.map Prod.snd).sum = 0 := by
    apply List.sum_eq_zero
    intro len member
    obtain ⟨piece, given, rfl⟩ := List.mem_map.mp member
    exact Nat.le_zero.mp (none piece given)
  omega

section
variable {δ : Type} [FlightVars δ]

/-- A read that fills the buffer does so with a message to come that is not longer than
    the buffer. -/
def Enclosed (ms : List Message) (p : Peer δ) (e : Event δ) : Prop :=
  ∀ block, e = .read (.ok block) → block.length = p.session.inputBuffer.availableForWrite →
    ∀ m, ms[p.session.handled.length]? = some m → (wire m).length ≤ inputCapacity

/-- The message to come is the first of those that are not handled. -/
theorem next_message {ms later : List Message} {handled : List (Nat × Message)}
    (split : ms = handled.map Prod.snd ++ later) : ms[handled.length]? = later.head? := by
  rw [split, List.getElem?_append_right (by simp), List.length_map, Nat.sub_self, List.head?_eq_getElem?]

theorem filled_length {s : Session} (atRest : s.inputBuffer.AtRest) {block : List UInt8}
    (transfers : s.Transfers (.ok block)) :
    (s.filled block).content.length = s.inputBuffer.content.length + block.length := by
  rw [Session.filled, RingBuffer.asyncWriteSomeFrom_content atRest.ok transfers.2, List.length_append]

/-- What is not closed has room for more. -/
structure Roomy (ms : List Message) (s : Session) : Prop where
  aligned : Aligned ms s
  unfull : s.inputBuffer.content.length < inputCapacity

theorem Roomy.hasRoom {ms : List Message} {s : Session} (roomy : Roomy ms s) : s.HasRoom := by
  obtain ⟨⟨atRest, size, -, -⟩, unfull⟩ := roomy
  have space := atRest.availableForWrite
  rw [hasRoom_iff atRest]
  omega

/-- A read of the stream leaves a full buffer only with a message that does not fit. -/
theorem Roomy.read {ms : List Message} (valid : ∀ m ∈ ms, m.Valid) {s s' : Session} (roomy : Roomy ms s)
    {block : List UInt8} (transfers : s.Transfers (.ok block)) (fed : s.received ++ block <+: wires ms)
    (clear : ¬ FillsAtEnd (s.filled block)) (effect : ReadEffect s block s')
    (enclosed : block.length = s.inputBuffer.availableForWrite →
      ∀ m, ms[s.handled.length]? = some m → (wire m).length ≤ inputCapacity) : Roomy ms s' ∨ s'.phase = .closed := by
  obtain ⟨aligned, unfull⟩ := roomy
  obtain ⟨ready, size, later, split, stream, -⟩ := aligned.filled transfers fed
  have kept := aligned.read valid transfers fed clear effect
  have total := filled_length aligned.atRest transfers
  have space := aligned.atRest.availableForWrite
  have sameSize := aligned.size
  have fits := transfers.2
  cases effect with
  | straddled fills closed unhandled => exact .inr closed
  | rejected e rest fits verdict closed unhandled => exact .inr closed
  | message msg rest _ verdict took received handled =>
    refine .inl ⟨kept, ?_⟩
    have shorter := deserialize_shorter verdict
    rw [took.content]
    omega
  | incomplete _ starved restored received unhandled pending =>
    refine .inl ⟨kept, ?_⟩
    rw [restored, RingBuffer.setMark_content]
    by_contra full
    -- the message to come lies in the full buffer as a whole
    have filling : block.length = s.inputBuffer.availableForWrite := by omega
    rcases decode_stream (valid_later valid split) stream with ⟨m, rest, tail, -, -, -, verdict⟩ | -
    · rw [verdict] at starved
      cases starved
    · cases later with
      | nil =>
        rw [wires_nil, List.prefix_nil] at stream
        rw [stream, List.length_nil] at full
        exact full (by decide)
      | cons m rest =>
        have short := enclosed filling m (next_message split)
        rw [wires_cons] at stream
        obtain ⟨tail, whole⟩ := List.prefix_of_prefix_length_le (List.prefix_append (wire m) (wires rest)) stream (by omega)
        have member : m ∈ ms := by
          rw [split]
          exact List.mem_append_right _ List.mem_cons_self
        rw [← whole, deserialize_reads (valid m member) tail] at starved
        cases starved

theorem roomy_step {ms : List Message} (valid : ∀ m ∈ ms, m.Valid) {p p' : Peer δ} {e : Event δ}
    (before : Roomy ms p.session ∨ p.session.phase = .closed) (step : Step p e p') (fed : Fed ms p e)
    (enclosed : Enclosed ms p e) : Roomy ms p'.session ∨ p'.session.phase = .closed := by
  rcases before with roomy | closed
  · rcases step.input roomy.aligned.atRest with ⟨block, rfl, -, transfers, effect⟩ | ⟨-, same, -⟩
    · by_cases fills : FillsAtEnd (p.session.filled block)
      · cases effect with
        | straddled _ closed _ => exact .inr closed
        | message _ _ fits => exact absurd fills fits
        | incomplete fits => exact absurd fills fits
        | rejected _ _ fits => exact absurd fills fits
      · exact roomy.read valid transfers (fed block rfl) fills effect (enclosed block rfl)
    · exact .inl ⟨roomy.aligned.same same, by rw [same.buffer]; exact roomy.unfull⟩
  · exact .inr (step.closed closed).1

/-- A message that does not fit into the buffer fills it, and stays incomplete. -/
theorem long_message_stalls {ms : List Message} (valid : ∀ m ∈ ms, m.Valid) {s s' : Session} (aligned : Aligned ms s)
    {block : List UInt8} (reading : s.Reading) (transfers : s.Transfers (.ok block)) (fed : s.received ++ block <+: wires ms)
    (effect : ReadEffect s block s') (filling : block.length = s.inputBuffer.availableForWrite) {m : Message}
    (next : ms[s.handled.length]? = some m) (long : inputCapacity < (wire m).length) :
    FillsAtEnd (s.filled block) ∧ s'.phase = .closed ∨ s'.Reading ∧ ¬ s'.HasRoom := by
  obtain ⟨ready, size, later, split, stream, -⟩ := aligned.filled transfers fed
  have total := filled_length aligned.atRest transfers
  have space := aligned.atRest.availableForWrite
  have sameSize := aligned.size
  have starves : (deserialize.decode (s.filled block).content).1 = .starved := by
    rcases decode_stream (valid_later valid split) stream with ⟨m', rest, tail, first, content, -, -⟩ | starved
    · rw [next_message split, first, List.head?_cons, Option.some.injEq] at next
      subst next
      rw [content, List.length_append] at total
      omega
    · exact starved
  cases effect with
  | straddled fills closed unhandled => exact .inl ⟨fills, closed⟩
  | message msg rest fits verdict =>
    rw [verdict] at starves
    cases starves
  | rejected e rest fits verdict =>
    rw [verdict] at starves
    cases starves
  | incomplete fits starved restored received unhandled pending =>
    refine .inr ⟨?_, ?_⟩
    · unfold Session.Reading
      rw [pending]
      exact reading
    · have left := ready.setMark.availableForWrite
      rw [RingBuffer.setMark_content, RingBuffer.setMark_capacity, total, size] at left
      rintro ⟨room, -⟩
      rw [restored] at room
      omega

/-- However the words of valid messages are cut into reads, each read finds free memory, as
    long as no message that is longer than the buffer fills it. One that does, in a buffer
    that is read from, leaves the loop to read nothing over and over. -/
theorem reads_progress {ms : List Message} (valid : ∀ m ∈ ms, m.Valid) (delegate : δ) (p : Peer δ)
    (run : Run (Meeting (Meeting Step (Fed ms)) (Enclosed ms)) ⟨accepted, delegate⟩ p) :
    (p.session.Reading → p.session.HasRoom) ∧ ∀ e p', Step p e p' → Fed ms p e → ¬ Enclosed ms p e →
      p'.session.phase = .closed ∨ p'.session.Reading ∧ ¬ p'.session.HasRoom := by
  have start : Roomy ms accepted := ⟨accepted_aligned ms, by
    rw [accepted_fresh.content]
    decide⟩
  have reached := run.invariant (I := fun p => Roomy ms p.session ∨ p.session.phase = .closed) (.inl start)
    fun before last => roomy_step valid before last.1.1 last.1.2 last.2
  rcases reached with roomy | closed
  · refine ⟨fun _ => roomy.hasRoom, ?_⟩
    intro e p' step fed exceeds
    rcases step.input roomy.aligned.atRest with ⟨block, rfl, reading, transfers, effect⟩ | ⟨other, -, -⟩
    · unfold Enclosed at exceeds
      push Not at exceeds
      obtain ⟨block', same, filling, m, next, long⟩ := exceeds
      cases same
      have stalls := long_message_stalls valid roomy.aligned reading transfers (fed block rfl) effect filling next long
      exact stalls.imp_left And.right
    · exact absurd (fun block same => absurd same (other block)) exceeds
  · refine ⟨?_, fun e p' step _ _ => .inl (step.closed closed).1⟩
    rintro (pending | pending) <;> exact absurd (pending.symm.trans closed) (by decide)

/-- A session that waits for a request, with the bytes that it has received and those that it
    still holds. -/
structure Holding (s : Session) (received content : List UInt8) : Prop where
  atRest : s.inputBuffer.AtRest
  size : s.inputBuffer.capacity = inputCapacity
  pending : s.phase = .readingRequest
  received : s.received = received
  content : s.inputBuffer.content = content

section
variable {s : Session} {received content block : List UInt8} (holding : Holding s received content)
include holding

/-- There is room for a short block behind what the session holds. -/
theorem Holding.filled (some : block ≠ []) (short : (content ++ block).length < inputCapacity) :
    s.Transfers (.ok block) ∧ (s.filled block).AtRest ∧ (s.filled block).capacity = inputCapacity ∧
      ¬ FillsAtEnd (s.filled block) ∧ (s.filled block).content = content ++ block := by
  have free := holding.atRest.availableForWrite
  rw [holding.content, holding.size] at free
  rw [List.length_append] at short
  have room : block.length ≤ s.inputBuffer.availableForWrite := by omega
  obtain ⟨ready, same⟩ := holding.atRest.asyncWriteSomeFrom room
  have appended : (s.filled block).content = content ++ block := by
    rw [← holding.content]
    exact RingBuffer.asyncWriteSomeFrom_content holding.atRest.ok room
  refine ⟨⟨some, room⟩, ready, same.trans holding.size, ?_, appended⟩
  rintro ⟨-, full⟩
  have total : (s.filled block).content.length = (s.filled block).bytesWritten := RingBuffer.content_length ready.ok.layout
  rw [full, show (s.filled block).capacity = inputCapacity from same.trans holding.size, appended, List.length_append] at total
  omega

/-- A read that leaves the message incomplete. -/
theorem Holding.waits (delegate : δ) (some : block ≠ []) (short : (content ++ block).length < inputCapacity)
    (starved : (deserialize.decode (content ++ block)).1 = .starved) :
    ∃ s', Step ⟨s, delegate⟩ (.read (.ok block)) ⟨s', delegate⟩ ∧ Holding s' (received ++ block) (content ++ block) ∧
      s'.handled = s.handled := by
  obtain ⟨transfers, ready, size, clear, appended⟩ := holding.filled some short
  obtain ⟨buff, raised, restored⟩ := unmarshall_starved ready clear (appended ▸ starved)
  have step : Step ⟨s, delegate⟩ (.read (.ok block)) _ := .readRequest holding.pending transfers
  rw [onReadRequest_ok, Peer.request, error_bind (onSession_error (unmarshallInput_error raised))] at step
  refine ⟨_, step, ⟨?_, ?_, rfl, congrArg (· ++ block) holding.received, ?_⟩, rfl⟩
  · show buff.reset.AtRest
    rw [restored]
    exact ready.setMark
  · show buff.reset.capacity = _
    rw [restored]
    exact size
  · show buff.reset.content = _
    rw [restored, RingBuffer.setMark_content, appended]

/-- A read that brings the rest of a VAR_UPDATE. -/
theorem Holding.updates (delegate : FlightVars.Registry) (some : block ≠ []) (short : (content ++ block).length < inputCapacity)
    {msg : VarUpdateMessage} (valid : (Message.varUpdate msg).Valid) (whole : content ++ block = wire (.varUpdate msg)) :
    ∃ p, Step ⟨s, delegate⟩ (.read (.ok block)) p ∧ Holding p.session (received ++ block) [] ∧
      p.session.handled.map Prod.snd = s.handled.map Prod.snd ++ [.varUpdate msg] := by
  obtain ⟨transfers, ready, size, clear, appended⟩ := holding.filled some short
  have verdict : deserialize.decode (s.filled block).content = (.value (.varUpdate msg), []) := by
    rw [appended, whole]
    exact deserialize_accepts valid
  obtain ⟨buff, executed, took⟩ := unmarshall_value ready clear verdict
  have step : Step ⟨s, delegate⟩ (.read (.ok block)) _ := .readRequest holding.pending transfers
  rw [onReadRequest_ok, Peer.request, ok_bind (onSession_ok (unmarshallInput_ok executed))] at step
  obtain ⟨delegate', updated⟩ : ∃ delegate', Peer.handleVarUpdateRequest msg ⟨s.taken block buff (.varUpdate msg), delegate⟩ =
      .ok () ⟨s.taken block buff (.varUpdate msg), delegate'⟩ := by
    unfold Peer.handleVarUpdateRequest
    by_cases member : msg.subsId ∈ delegate.ids
    · exact ⟨delegate, by rw [show FlightVars.update msg.subsId msg.varValue delegate = .ok () delegate from if_pos member]⟩
    · exact ⟨delegate, by rw [show FlightVars.update msg.subsId msg.varValue delegate =
        .error (.noSuchSubscription msg.subsId) delegate from if_neg member]⟩
  have answered : Peer.caught (Peer.dispatch (.varUpdate msg) ⟨s.taken block buff (.varUpdate msg), delegate⟩) =
      ⟨{ s.taken block buff (.varUpdate msg) with phase := .readingRequest }, delegate'⟩ :=
    congrArg Peer.caught ((ok_bind updated).trans rfl)
  refine ⟨_, step, ?_, ?_⟩
  · rw [answered]
    exact ⟨took.atRest, took.sameSize.trans size, rfl, congrArg (· ++ block) holding.received, took.content⟩
  · rw [answered]
    show (s.handled ++ [_]).map Prod.snd = _
    rw [List.map_append]
    rfl

end

end

/-- A greeting and an update. -/
def cutStream : List Message := [.beginSession ⟨text "fcu", 0x0100⟩, .varUpdate ⟨1, .bool true⟩]

theorem cutStream_valid : ∀ m ∈ cutStream, m.Valid := by
  intro m member
  simp only [cutStream, List.mem_cons, List.not_mem_nil, or_false] at member
  rcases member with rfl | rfl
  · show (text "fcu").length ≤ 0xffff
    decide
  · trivial

/-- The update comes in three reads, the first of them together with the greeting. -/
theorem reads_progress_cut : ∃ half whole : Peer FlightVars.Registry,
    Run (Meeting (Meeting Step (Fed cutStream)) (Enclosed cutStream)) ⟨accepted, .empty⟩ half ∧
      half.session.inputBuffer.content = (wire (.varUpdate ⟨1, .bool true⟩)).take 4 ∧ half.session.HasRoom ∧
    Run (Meeting (Meeting Step (Fed cutStream)) (Enclosed cutStream)) half whole ∧
      whole.session.handled.map Prod.snd = cutStream ∧ whole.session.Reading ∧ whole.session.HasRoom := by
  obtain ⟨-, s₁, s₂, read, wrote, greeted⟩ := accepted_fresh.greets rfl ⟨text "fcu", 0x0100⟩
    ((wire (.varUpdate ⟨1, .bool true⟩)).take 2) FlightVars.Registry.empty (cutStream_valid _ List.mem_cons_self) (by decide)
  have first : Holding s₂ _ _ := ⟨greeted.atRest, greeted.size, greeted.pending, greeted.received, greeted.content⟩
  obtain ⟨s₃, waits, second, same⟩ := first.waits FlightVars.Registry.empty
    (show ((wire (.varUpdate ⟨1, .bool true⟩)).drop 2).take 2 ≠ [] by decide) (by decide) (by decide)
  obtain ⟨p, updates, third, handled⟩ := second.updates FlightVars.Registry.empty
    (show (wire (.varUpdate ⟨1, .bool true⟩)).drop 4 ≠ [] by decide) (by decide)
    (show (Message.varUpdate ⟨1, .bool true⟩).Valid from trivial) (by decide)
  have enclosed : ∀ {q : Peer FlightVars.Registry} {e}, Enclosed cutStream q e := by
    intro q e block _ _ m next
    have member := List.mem_of_getElem? next
    simp only [cutStream, List.mem_cons, List.not_mem_nil, or_false] at member
    rcases member with rfl | rfl <;> decide
  have fed : ∀ {q : Peer FlightVars.Registry} {block received : List UInt8}, q.session.received = received →
      received ++ block <+: wires cutStream → Fed cutStream q (.read (.ok block)) := by
    intro q block received before part block' equal
    cases equal
    rw [before]
    exact part
  have greets : Run (Meeting (Meeting Step (Fed cutStream)) (Enclosed cutStream)) ⟨accepted, FlightVars.Registry.empty⟩
      ⟨s₂, FlightVars.Registry.empty⟩ :=
    ((Run.refl _).next ⟨⟨read, fed accepted_fresh.unread (by decide)⟩, enclosed⟩).next ⟨⟨wrote, nofun⟩, enclosed⟩
  have halves := greets.next ⟨⟨waits, fed first.received (by decide)⟩, enclosed⟩
  have wholes : Run (Meeting (Meeting Step (Fed cutStream)) (Enclosed cutStream)) ⟨s₃, FlightVars.Registry.empty⟩ p :=
    (Run.refl _).next ⟨⟨updates, fed second.received (by decide)⟩, enclosed⟩
  refine ⟨_, p, halves, ?_, (reads_progress cutStream_valid _ _ halves).1 (.inr second.pending), wholes, ?_,
    .inr third.pending, (reads_progress cutStream_valid _ _ (halves.trans wholes)).1 (.inr third.pending)⟩
  · exact second.content.trans (by decide)
  · rw [handled, same, greeted.handled]
    rfl

/-- The longest name that a client can give itself does not fit. -/
theorem longest_name_stalls {pname : Str} (size : pname.length = 65535) :
    (∀ m ∈ [Message.beginSession ⟨pname, 0x0100⟩], m.Valid) ∧ ∃ p : Peer FlightVars.Registry,
      Run (Meeting Step (Fed [.beginSession ⟨pname, 0x0100⟩])) ⟨accepted, .empty⟩ p ∧ p.session.Reading ∧
        ¬ p.session.HasRoom := by
  obtain ⟨m, named⟩ : ∃ m : Message, m = .beginSession ⟨pname, 0x0100⟩ := ⟨_, rfl⟩
  have long : (wire m).length = 65543 := by
    rw [named, wire_length, Message.size, size]
  have valid : ∀ m' ∈ [m], m'.Valid := by
    intro m' member
    rw [List.mem_singleton.mp member, named]
    show pname.length ≤ _
    omega
  rw [← named]
  refine ⟨valid, ?_⟩
  have wide : inputCapacity = 65536 := rfl
  have aligned := accepted_aligned [m]
  obtain ⟨block, cut⟩ : ∃ block, block = (wire m).take inputCapacity := ⟨_, rfl⟩
  have length : block.length = inputCapacity := by
    rw [cut, List.length_take, long]
    rfl
  have some : block ≠ [] := List.ne_nil_of_length_pos (by rw [length]; decide)
  have transfers : accepted.Transfers (.ok block) := ⟨some, by rw [accepted_fresh.free, length]⟩
  have fed : accepted.received ++ block <+: wires [m] := by
    rw [accepted_fresh.unread, List.nil_append, cut, wires_cons, wires_nil, List.append_nil]
    exact List.take_prefix _ _
  have effect := onReadBeginSession_effect (aligned.filled transfers fed).1 rfl
  rcases long_message_stalls valid aligned (.inl rfl) transfers fed effect (by rw [length, accepted_fresh.free]) rfl
    (by omega) with ⟨⟨atEnd, -⟩, -⟩ | ⟨reading, stuck⟩
  · have one : accepted.inputBuffer.readIndex + 1 = inputCapacity :=
      atEnd.trans (aligned.filled transfers fed).2.1
    rw [accepted_fresh.unmoved] at one
    exact absurd one (by decide)
  · refine ⟨_, (Run.refl _).next ⟨.readBegin rfl transfers, ?_⟩, reading, stuck⟩
    intro block' same
    cases same
    exact fed

theorem reads_stall : ¬ ∀ ms : List Message, (∀ m ∈ ms, m.Valid) → ∀ p : Peer FlightVars.Registry,
    Run (Meeting Step (Fed ms)) ⟨accepted, .empty⟩ p → p.session.Reading → p.session.HasRoom := by
  intro progress
  obtain ⟨valid, p, run, reading, stuck⟩ := longest_name_stalls (letters_length 65535)
  exact stuck (progress _ valid p run reading)

end Oac.Server
