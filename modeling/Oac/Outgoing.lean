import Oac.Base.Transfer
import Oac.Client.ConnectionManager
import Oac.Server.Session

/-!
# Messages on the wire

Both ends give a message a buffer of its own and the socket one `async_write_some` for
it. The socket carries the writes out in their order, each with as many of its bytes as it
likes; the completion handlers learn how many these were.
-/
namespace Oac.Outgoing
open Base Proto

/-- An `async_write_some` with the completion handler that keeps its buffer alive. The
    handler acts on the owner of the connection. -/
structure Write (σ : Type) where
  message : Message
  outputBuff : LinearBuffer
  handler : Except Exception Nat → σ → σ

/-- A write that the socket has finished with. -/
structure Completion (σ : Type) where
  write : Write σ
  result : Except Exception Nat

/-- The outgoing half of a connection. `written` and `transfers` only record what has
    happened. -/
structure Connection (σ : Type) where
  owner : σ
  /-- the writes on the socket, the first one first -/
  pending : List (Write σ)
  /-- the completion handlers to be run -/
  completions : List (Completion σ)
  /-- what is on the wire -/
  bytes : List UInt8
  /-- the messages written -/
  written : List Message
  /-- what the finished writes were offered and what they took -/
  transfers : List (Transfer UInt8)

namespace Connection
variable {σ : Type}

def opened (owner : σ) : Connection σ := ⟨owner, [], [], [], [], []⟩

/-- No write is pending, and all completion handlers have run. -/
def Settled (c : Connection σ) : Prop := c.pending = [] ∧ c.completions = []

/-- `async_tcp_connection::write`. -/
def write (w : Write σ) : EStateM Exception (Connection σ) Unit := fun c =>
  .ok () { c with pending := c.pending ++ [w], written := c.written ++ [w.message] }

/-- A message is serialized into a buffer of its own and written. -/
def writeBuffered (msg : Message) (handler : Except Exception Nat → σ → σ) : EStateM Exception (Connection σ) Unit := fun c =>
  match serialize msg (LinearBuffer.create outputCapacity) with
  | .ok _ outputBuff => write ⟨msg, outputBuff, handler⟩ c
  | .error e _ => .error e c

/-- The socket takes `n` bytes of the first write, or fails it. -/
def finish (result : Except Exception Nat) (c : Connection σ) : Connection σ :=
  match c.pending with
  | [] => c
  | w :: pending =>
    let n := result.toOption.getD 0
    { c with
      pending
      completions := c.completions ++ [⟨w, result⟩]
      bytes := c.bytes ++ w.outputBuff.content.take n
      transfers := c.transfers ++ [⟨w.outputBuff.content, n⟩] }

/-- `async_io_handler`: the index of the buffer is updated, then the handler is called. -/
def asyncIoHandler (done : Completion σ) (owner : σ) : LinearBuffer × σ :=
  match done.result with
  | .ok nbytes => (done.write.outputBuff.asyncReadSomeTo nbytes, done.write.handler (.ok nbytes) owner)
  | .error e => (done.write.outputBuff, done.write.handler (.error e) owner)

/-- A completion handler is run; its buffer goes with it. -/
def complete (before : List (Completion σ)) (done : Completion σ) (after : List (Completion σ)) (c : Connection σ) :
    Connection σ :=
  { c with owner := (asyncIoHandler done c.owner).2, completions := before ++ after }

end Connection

/-! ## The two ends -/

/-- `on_write_message`. Failures are logged. -/
def onWriteMessage (afterWrite : Server.Session → Server.Session) (bytesTransferred : Except Exception Nat)
    (s : Server.Session) : Server.Session :=
  match bytesTransferred with
  | .ok _ => afterWrite s
  | .error _ => s

/-- `flight_vars_server::write_message`. -/
def writeMessage (msg : Message) (afterWrite : Server.Session → Server.Session) :
    EStateM Exception (Connection Server.Session) Unit :=
  Connection.writeBuffered msg (onWriteMessage afterWrite)

/-- `connection_manager::send_message`, with `send_data`. -/
def sendMessage (msg : Message) : EStateM Exception (Connection Client.ConnectionManager) Unit :=
  Connection.writeBuffered msg Client.ConnectionManager.onDataSent

/-! ## Runs -/

variable {σ : Type}

inductive Event (σ : Type) where
  /-- a message is written, by a program of the owner -/
  | writes (program : EStateM Exception (Connection σ) Unit)
  /-- the socket has taken bytes of the first write -/
  | transferred (n : Nat)
  /-- the socket has failed the first write -/
  | failed (e : Exception)
  /-- a completion handler is run -/
  | completed
  /-- the owner does something else -/
  | others (owner : σ)

/-- The steps of a connection whose owner writes by the given programs. -/
def Step (programs : EStateM Exception (Connection σ) Unit → Prop) (c : Connection σ) (event : Event σ)
    (c' : Connection σ) : Prop :=
  match event with
  | .writes program => programs program ∧ c' = after (program c)
  | .transferred n => ∃ w pending, c.pending = w :: pending ∧ 1 ≤ n ∧ n ≤ w.outputBuff.content.length ∧
      c' = c.finish (.ok n)
  | .failed e => ∃ w pending, c.pending = w :: pending ∧ c' = c.finish (.error e)
  | .completed => ∃ before done after, c.completions = before ++ done :: after ∧ c' = c.complete before done after
  | .others owner => c' = { c with owner }

/-- What a session of the server writes. -/
def ByServer (program : EStateM Exception (Connection Server.Session) Unit) : Prop :=
  ∃ msg afterWrite, program = writeMessage msg afterWrite

/-- What a connection manager of the client writes. -/
def ByClient (program : EStateM Exception (Connection Client.ConnectionManager) Unit) : Prop :=
  ∃ msg, program = sendMessage msg

/-! ## What is on the wire -/

/-- The finished writes and the pending ones were offered the messages written. -/
structure Sound (c : Connection σ) : Prop where
  carried : c.bytes = c.transfers.flatMap Transfer.taken
  within : ∀ t ∈ c.transfers, t.count ≤ t.offered.length
  offered : c.transfers.flatMap Transfer.offered ++ c.pending.flatMap (fun w => w.outputBuff.content) = wires c.written

theorem opened_sound (owner : σ) : Sound (Connection.opened owner) where
  carried := rfl
  within := nofun
  offered := rfl

variable {c c' : Connection σ}

theorem Sound.writeBuffered (sound : Sound c) (msg : Message) (handler : Except Exception Nat → σ → σ) :
    Sound (after (Connection.writeBuffered msg handler c)) := by
  by_cases fits : Fits msg
  · obtain ⟨buff, executed, content⟩ := (serialize_output msg).1 fits
    simp only [Connection.writeBuffered, executed, Connection.write, after_ok]
    refine ⟨sound.carried, sound.within, ?_⟩
    have offered := sound.offered
    simp only [wires] at offered ⊢
    rw [List.flatMap_append, List.flatMap_append, ← List.append_assoc, offered]
    simp [content]
  · obtain ⟨buff, raised⟩ := (serialize_output msg).2 fits
    simp only [Connection.writeBuffered, raised, after_error]
    exact sound

theorem Sound.finish (sound : Sound c) {w : Write σ} {pending : List (Write σ)} (first : c.pending = w :: pending)
    {result : Except Exception Nat} (some : result.toOption.getD 0 ≤ w.outputBuff.content.length) :
    Sound (c.finish result) := by
  obtain ⟨carried, within, offered⟩ := sound
  simp only [Connection.finish, first]
  refine ⟨?_, ?_, ?_⟩
  · simp [carried, Transfer.taken]
  · intro t among
    rcases List.mem_append.mp among with before | new
    · exact within t before
    · rw [List.mem_singleton.mp new]
      exact some
  · rw [← offered, first]
    simp

theorem Sound.step {programs : EStateM Exception (Connection σ) Unit → Prop}
    (buffered : ∀ program, programs program → ∃ msg handler, program = Connection.writeBuffered msg handler)
    {event : Event σ} (sound : Sound c) (step : Step programs c event c') : Sound c' := by
  cases event with
  | writes program =>
    obtain ⟨may, rfl⟩ := step
    obtain ⟨msg, handler, rfl⟩ := buffered program may
    exact sound.writeBuffered msg handler
  | transferred n =>
    obtain ⟨w, pending, first, -, within, rfl⟩ := step
    exact sound.finish first within
  | failed e =>
    obtain ⟨w, pending, first, rfl⟩ := step
    exact sound.finish first (Nat.zero_le _)
  | completed =>
    obtain ⟨before, done, after, -, rfl⟩ := step
    exact ⟨sound.carried, sound.within, sound.offered⟩
  | others owner =>
    cases step
    exact ⟨sound.carried, sound.within, sound.offered⟩

theorem Sound.whole_iff (sound : Sound c) (settled : c.Settled) : c.bytes = wires c.written ↔ ∀ t ∈ c.transfers, t.Whole := by
  have offered := sound.offered
  rw [settled.1, List.flatMap_nil, List.append_nil] at offered
  rw [sound.carried, ← offered]
  exact Transfer.flatMap_taken_iff c.transfers sound.within

/-- Once everything has been carried out, the wire holds the messages that either end has
    written, whole and in their order, exactly if no write was a short one. -/
theorem whole_messages_iff (session : Server.Session) (manager : Client.ConnectionManager) :
    (∀ c, Run (Step ByServer) (.opened session) c → c.Settled → (c.bytes = wires c.written ↔ ∀ t ∈ c.transfers, t.Whole)) ∧
    ∀ c, Run (Step ByClient) (.opened manager) c → c.Settled → (c.bytes = wires c.written ↔ ∀ t ∈ c.transfers, t.Whole) := by
  constructor
  · intro c run
    have sound : Sound c := run.invariant (opened_sound session) fun sound last => by
      refine sound.step ?_ last
      rintro program ⟨msg, afterWrite, rfl⟩
      exact ⟨msg, onWriteMessage afterWrite, rfl⟩
    exact sound.whole_iff
  · intro c run
    have sound : Sound c := run.invariant (opened_sound manager) fun sound last => by
      refine sound.step ?_ last
      rintro program ⟨msg, rfl⟩
      exact ⟨msg, Client.ConnectionManager.onDataSent, rfl⟩
    exact sound.whole_iff

/-- The client asks for subscription 7 to end, and the socket takes `n` of the bytes. -/
theorem asked_once (manager : Client.ConnectionManager) {n : Nat} (some : 1 ≤ n)
    (within : n ≤ (wire (.unsubscriptionReq ⟨7⟩)).length) :
    ∃ c, Run (Step ByClient) (.opened manager) c ∧ c.Settled ∧ c.written = [.unsubscriptionReq ⟨7⟩] ∧
      c.transfers = [⟨wire (.unsubscriptionReq ⟨7⟩), n⟩] ∧ c.bytes = (wire (.unsubscriptionReq ⟨7⟩)).take n := by
  obtain ⟨w, content, quiet, wrote⟩ : ∃ w : Write Client.ConnectionManager,
      w.outputBuff.content = wire (.unsubscriptionReq ⟨7⟩) ∧ w.handler (.ok n) manager = manager ∧
      Step ByClient (.opened manager) (.writes (sendMessage (.unsubscriptionReq ⟨7⟩)))
        ⟨manager, [w], [], [], [.unsubscriptionReq ⟨7⟩], []⟩ := by
    obtain ⟨buff, executed, content⟩ := (serialize_output (.unsubscriptionReq ⟨7⟩)).1 (by decide)
    refine ⟨⟨.unsubscriptionReq ⟨7⟩, buff, Client.ConnectionManager.onDataSent⟩, content, rfl, ⟨_, rfl⟩, ?_⟩
    simp only [sendMessage, Connection.writeBuffered, executed]
    rfl
  have took : Step ByClient ⟨manager, [w], [], [], [.unsubscriptionReq ⟨7⟩], []⟩ (.transferred n)
      ⟨manager, [], [⟨w, .ok n⟩], w.outputBuff.content.take n, [.unsubscriptionReq ⟨7⟩], [⟨w.outputBuff.content, n⟩]⟩ :=
    ⟨w, [], rfl, some, content ▸ within, rfl⟩
  have ended : Step ByClient ⟨manager, [], [⟨w, .ok n⟩], w.outputBuff.content.take n, [.unsubscriptionReq ⟨7⟩],
      [⟨w.outputBuff.content, n⟩]⟩ .completed
      ⟨manager, [], [], w.outputBuff.content.take n, [.unsubscriptionReq ⟨7⟩], [⟨w.outputBuff.content, n⟩]⟩ := by
    refine ⟨[], ⟨w, .ok n⟩, [], rfl, ?_⟩
    simp only [Connection.complete, Connection.asyncIoHandler, quiet, List.append_nil]
  refine ⟨_, (((Run.refl _).next wrote).next took).next ended, ⟨rfl, rfl⟩, rfl, ?_, ?_⟩
  · show [Transfer.mk w.outputBuff.content n] = _
    rw [content]
  · show w.outputBuff.content.take n = _
    rw [content]

theorem asked_whole :
    ∃ c, Run (Step ByClient) (.opened Client.ConnectionManager.connecting) c ∧ c.Settled ∧
      c.bytes = wire (.unsubscriptionReq ⟨7⟩) := by
  obtain ⟨c, run, settled, written, transfers, -⟩ := asked_once Client.ConnectionManager.connecting (by decide) le_rfl
  refine ⟨c, run, settled, ?_⟩
  have whole := ((whole_messages_iff .accepted .connecting).2 c run settled).mpr
  rw [written, transfers] at whole
  exact (whole (by simp [Transfer.Whole])).trans (by simp [wires])

/-- The socket may take the first byte alone. -/
theorem asked_torn : ∃ c, Run (Step ByClient) (.opened Client.ConnectionManager.connecting) c ∧ c.Settled ∧
    (∀ t ∈ c.transfers, 1 ≤ t.count ∧ t.count ≤ t.offered.length) ∧ c.bytes ≠ wires c.written := by
  obtain ⟨c, run, settled, written, transfers, bytes⟩ := asked_once Client.ConnectionManager.connecting le_rfl (by decide)
  refine ⟨c, run, settled, ?_, ?_⟩
  · rw [transfers]
    simp only [List.forall_mem_singleton]
    exact ⟨le_rfl, by decide⟩
  · rw [bytes, written]
    decide

end Oac.Outgoing
