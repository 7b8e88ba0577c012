import Oac.Client.Receive
import Oac.Server.Receive

/-!
# Both receive loops

A message that was received in full waits in the buffer of either loop if a read brought
two messages, since both decode one message a read.
-/
namespace Oac
open Base Proto

namespace Client
open ConnectionManager

/-- A read leaves one message at the head of the buffer, and no second one behind it. -/
def Single (m : ConnectionManager) (e : Event) : Prop :=
  ∀ block, e = .read (.ok block) → m.Reading → Whole (m.filled block) ∧ ¬ BeginsWithTwo (m.filled block).content

/-- What a manager that reads has in its buffer: the rest of the stream, and no complete
    message. -/
structure Drained (ms : List Message) (m : ConnectionManager) : Prop where
  aligned : Aligned ms m
  incomplete : m.Reading → ¬ BeginsWithMessage m.inputBuffer.content

theorem Drained.step {ms : List Message} (valid : ∀ m ∈ ms, m.Valid) {m m' : ConnectionManager} {e : Event}
    (drained : Drained ms m) (step : Step m e m') (fed : Fed ms m e) (single : Single m e) : Drained ms m' := by
  obtain ⟨aligned, incomplete⟩ := drained
  refine ⟨aligned.step valid step fed fun block same reading => (single block same reading).1, ?_⟩
  rcases step.input aligned.unmarked with ⟨block, rfl, reading, transfers, effect⟩ | ⟨same, still⟩
  · obtain ⟨⟨⟨msg, rest, verdict⟩, fits⟩, one⟩ := single block rfl reading
    rintro - ⟨msg', rest', second⟩
    cases effect with
    | message msg rest fits verdict unmarked size content =>
      rw [content] at second
      exact one ⟨msg, rest, msg', rest', verdict, second⟩
    | undecoded e buff raised same =>
      obtain ⟨ready, -⟩ := aligned.filled reading transfers (fed block rfl)
      obtain ⟨buff', executed, -⟩ := deserializeFrom_unmarked ready fits
      rw [verdict, raised] at executed
      cases executed
  · intro reading
    rw [same.buffer]
    exact incomplete (still reading)

theorem manager_drains {ms : List Message} (valid : ∀ m ∈ ms, m.Valid) {m : ConnectionManager}
    (run : Run (Meeting (Meeting Step (Fed ms)) Single) connecting m) : Drained ms m := by
  have start : Drained ms connecting := ⟨connecting_aligned ms, fun _ => by
    rw [connecting_idle.content]
    exact not_beginsWithMessage_nil⟩
  exact run.invariant start fun drained step => drained.step valid step.1.1 step.1.2 step.2

end Client

/-- Whenever a session of the server or the client issues a read, every message received in
    full has been handled, as long as no read of the session leaves two messages in its
    buffer, and each read of the client leaves one. -/
theorem loops_drain {δ : Type} [FlightVars δ] {ms : List Message} (valid : ∀ m ∈ ms, m.Valid) :
    (∀ (delegate : δ) (p : Server.Peer δ),
      Run (Meeting (Meeting Server.Step (Server.Fed ms)) Server.Single) ⟨.accepted, delegate⟩ p → p.session.Reading →
        p.session.received = wires (p.session.handled.map Prod.snd) ++ p.session.inputBuffer.content ∧
          ¬ BeginsWithMessage p.session.inputBuffer.content) ∧
    ∀ m : Client.ConnectionManager,
      Run (Meeting (Meeting Client.Step (Client.Fed ms)) Client.Single) .connecting m → m.Reading →
        m.received = wires m.decoded ++ m.inputBuffer.content ∧ ¬ BeginsWithMessage m.inputBuffer.content := by
  constructor
  · intro delegate p run reading
    have drained := Server.session_drains valid run reading
    exact ⟨drained.aligned.stream, drained.incomplete⟩
  · intro m run reading
    have drained := Client.manager_drains valid run
    exact ⟨drained.aligned.stream reading, drained.incomplete reading⟩

theorem not_beginsWithTwo {m : Message} (valid : m.Valid) : ¬ BeginsWithTwo (wire m) := by
  rintro ⟨m', rest, m'', rest', first, second⟩
  have whole : deserialize.decode (wire m) = (.value m, []) := deserialize_accepts valid
  rw [whole] at first
  cases first
  exact not_beginsWithMessage_nil ⟨m'', rest', second⟩

/-- The answer to the greeting leaves the client with nothing to do. -/
theorem loops_drain_answer : ∃ m : Client.ConnectionManager,
    m.decoded = [.beginSession ⟨text "FlightVars Server", 0x0100⟩] ∧ m.received = wires m.decoded ++ m.inputBuffer.content ∧
      ¬ BeginsWithMessage m.inputBuffer.content := by
  have valid := Client.answers_valid _ List.mem_cons_self
  obtain ⟨buff, m, same, step, idle, whole⟩ :=
    Client.connecting_greeted ⟨text "FlightVars Server", 0x0100⟩ valid (by decide)
  have fed : Client.Fed Client.answers .connecting (.read (.ok (wire (.beginSession ⟨text "FlightVars Server", 0x0100⟩)))) := by
    intro block equal
    cases equal
    exact List.prefix_append _ _
  have single : Client.Single .connecting (.read (.ok (wire (.beginSession ⟨text "FlightVars Server", 0x0100⟩)))) := by
    intro block equal _
    cases equal
    refine ⟨whole, ?_⟩
    obtain ⟨-, -, -, content, -⟩ := Client.connecting_idle.filled _
      (List.ne_nil_of_length_pos (wire_length_pos (.beginSession ⟨text "FlightVars Server", 0x0100⟩))) (by decide)
    rw [content]
    exact not_beginsWithTwo valid
  have drains := (loops_drain (δ := FlightVars.Registry) Client.answers_valid).2 m ((Run.refl _).next ⟨⟨step, fed⟩, single⟩)
  exact ⟨m, by rw [same]; rfl, drains (.inr (by rw [same]))⟩

/-- A greeting that comes with a second message: the session waits for bytes with the
    message in its buffer. -/
theorem session_stalls : ∃ p : Server.Peer FlightVars.Registry,
    Run (Meeting Server.Step (Server.Fed [.beginSession ⟨text "fcu", 0x0100⟩, .endSession ⟨[]⟩])) ⟨.accepted, .empty⟩ p ∧
      p.session.Reading ∧ BeginsWithMessage p.session.inputBuffer.content := by
  have short : (text "fcu").length ≤ 0xffff := by decide
  obtain ⟨-, s₁, s₂, read, wrote, greeted⟩ := Server.accepted_fresh.greets rfl ⟨text "fcu", 0x0100⟩
    (wire (.endSession ⟨[]⟩)) FlightVars.Registry.empty short (by decide)
  have fed : Server.Fed [.beginSession ⟨text "fcu", 0x0100⟩, .endSession ⟨[]⟩] ⟨.accepted, FlightVars.Registry.empty⟩
      (.read (.ok (wire (.beginSession ⟨text "fcu", 0x0100⟩) ++ wire (.endSession ⟨[]⟩)))) := by
    intro block equal
    cases equal
    rw [Server.accepted_fresh.unread, wires_cons, wires_cons, wires_nil, List.append_nil, List.nil_append]
  refine ⟨⟨s₂, .empty⟩, ((Run.refl _).next ⟨read, fed⟩).next ⟨wrote, nofun⟩, .inr greeted.pending, .endSession ⟨[]⟩, [], ?_⟩
  rw [greeted.content]
  exact deserialize_accepts (Nat.zero_le _)

end Oac
