import Oac.Server.Requests

/-!
# One reply or no effect

A subscription or unsubscription request is answered by one reply that tells what took
place in the delegate, or changes nothing, and is never handled again
(`request_answered`), if the session has no id of its own to give away, the reply to a new
subscription fits into the output buffer, and a subscription that the delegate fails to
make leaves nothing behind.
-/
namespace Oac.Server
open Base Proto Session Peer FlightVars

section
variable {δ : Type}

/-- Neither the live subscriptions nor the mapper of the session have changed. -/
def Untouched (live : δ → Set SubscriptionId) (p p' : Peer δ) : Prop :=
  live p'.delegate = live p.delegate ∧ p'.session.subscriptions = p.session.subscriptions

/-- The reply that is written, if it fits. -/
theorem answered_fits {p : Peer δ} {rep : Message} (fits : Fits rep) :
    (answered p rep).session.written = p.session.written ++ [rep] := by
  rw [answered_written, if_pos fits]

theorem answered_long {p : Peer δ} {rep : Message} (long : ¬ Fits rep) :
    (answered p rep).session.written = p.session.written := by
  rw [answered_written, if_neg long]

variable {live : δ → Set SubscriptionId}

theorem untouched_answered {p q : Peer δ} {rep : Message} (untouched : Untouched live p q) :
    Untouched live p (answered q rep) :=
  ⟨by rw [answered_delegate, untouched.1], by rw [answered_subscriptions, untouched.2]⟩

variable [FlightVars δ]

/-- What the status of a SUBSCRIPTION_REP tells. -/
def TellsSubscription (live : δ → Set SubscriptionId) (p p' : Peer δ) (varId : VariableId) (subsId : SubscriptionId) :
    SubscriptionStatus → Prop
  | .subscribed => subsId ∉ live p.delegate ∧ live p'.delegate = insert subsId (live p.delegate) ∧
      p'.session.subscriptions.Maps varId subsId
  | .varAlreadySubscribed => p.session.subscriptions.Covers varId ∧ Untouched live p p'
  | .noSuchVar => (∃ unknown, subscribe varId p.delegate = .error (.noSuchVariable unknown) p'.delegate) ∧ Untouched live p p'
  | _ => False

/-- What the status of an UNSUBSCRIPTION_REP tells. -/
def TellsUnsubscription (live : δ → Set SubscriptionId) (p p' : Peer δ) (subsId : SubscriptionId) :
    SubscriptionStatus → Prop
  | .unsubscribed => subsId ∈ live p.delegate ∧ live p'.delegate = live p.delegate \ {subsId} ∧
      ¬ p'.session.subscriptions.Owns subsId
  | .noSuchSubscription => subsId ∉ live p.delegate ∧ Untouched live p p'
  | _ => Untouched live p p'

/-- The reply carries the variable or the id of the request and what took place. -/
def Tells (live : δ → Set SubscriptionId) (p p' : Peer δ) : Message → Message → Prop
  | .subscriptionReq req, .subscriptionRep rep => rep.varGrp = req.varGrp ∧ rep.varName = req.varName ∧
      TellsSubscription live p p' (variableId req.varGrp req.varName) rep.subsId rep.st
  | .unsubscriptionReq req, .unsubscriptionRep rep => rep.subsId = req.subsId ∧
      TellsUnsubscription live p p' req.subsId rep.st
  | _, _ => False

/-- One reply is written, or nothing is written and nothing changed. -/
def Answered (live : δ → Set SubscriptionId) (p : Peer δ) (req : Message) (p' : Peer δ) : Prop :=
  (∃ rep, p'.session.written = p.session.written ++ [rep] ∧ Tells live p p' req rep) ∨
    (p'.session.written = p.session.written ∧ Untouched live p p')

/-- What a new subscription comes to: one that is granted has an id that is new to the
    session, and its reply fits; one that fails changes no live subscription. -/
def Grantable (live : δ → Set SubscriptionId) (p : Peer δ) (req : SubscriptionRequestMessage) :
    EStateM.Result Exception δ SubscriptionId → Prop
  | .ok subsId _ => ¬ p.session.subscriptions.Owns subsId ∧ 15 + req.varGrp.length + req.varName.length ≤ outputCapacity
  | .error _ delegate => live delegate = live p.delegate

/-- A subscription request for a new variable is grantable; an unsubscription request for a
    live id is for one of the session. -/
def Answerable (live : δ → Set SubscriptionId) (p : Peer δ) : Message → Prop
  | .subscriptionReq req => ¬ p.session.subscriptions.Covers (variableId req.varGrp req.varName) →
      Grantable live p req (subscribe (variableId req.varGrp req.varName) p.delegate)
  | .unsubscriptionReq req => req.subsId ∈ live p.delegate → p.session.subscriptions.Owns req.subsId
  | _ => True

theorem insert_fresh_ne {ids : Set SubscriptionId} {id : SubscriptionId} (fresh : id ∉ ids) : insert id ids ≠ ids :=
  fun same => fresh (same ▸ Set.mem_insert id ids)

theorem sdiff_live_ne {ids : Set SubscriptionId} {id : SubscriptionId} (alive : id ∈ ids) : ids \ {id} ≠ ids := by
  intro same
  have kept : id ∈ ids \ {id} := by rw [same]; exact alive
  exact kept.2 rfl

/-- A reply that leaves everything as it was may be too long. -/
theorem answered_untouched {p q : Peer δ} {req rep : Message} (untouched : Untouched live p q)
    (written : q.session.written = p.session.written) (tells : Fits rep → Tells live p (answered q rep) req rep) :
    Answered live p req (answered q rep) := by
  by_cases fits : Fits rep
  · exact .inl ⟨rep, by rw [answered_fits fits, written], tells fits⟩
  · exact .inr ⟨by rw [answered_long fits, written], untouched_answered untouched⟩

/-- A request that changed the subscriptions without a reply is not answered. -/
theorem not_answered_silent {p p' : Peer δ} {req : Message} (silent : p'.session.written = p.session.written)
    (changed : live p'.delegate ≠ live p.delegate) : ¬ Answered live p req p' := by
  rintro (⟨rep, written, -⟩ | ⟨-, untouched⟩)
  · rw [silent] at written
    exact absurd written (by simp)
  · exact changed untouched.1

/-- A request that failed without a reply is answered exactly if it left no trace. -/
theorem silent_answered_iff {p p' : Peer δ} {req : Message} (silent : p'.session.written = p.session.written)
    (mapper : p'.session.subscriptions = p.session.subscriptions) :
    Answered live p req p' ↔ live p'.delegate = live p.delegate := by
  constructor
  · exact fun answered => not_not.mp fun changed => not_answered_silent silent changed answered
  · exact fun same => .inr ⟨silent, same, mapper⟩

theorem subscription_answered (ledger : Ledger live) (p : Peer δ) (req : SubscriptionRequestMessage) :
    Answered live p (.subscriptionReq req) (caught (dispatch (.subscriptionReq req) p)) ↔
      Answerable live p (.subscriptionReq req) := by
  cases subscription_effect p req with
  | known covers same =>
    rw [same]
    have untouched : Untouched live p p := ⟨rfl, rfl⟩
    constructor
    · intro _ unseen
      exact absurd covers unseen
    · intro _
      exact answered_untouched untouched rfl fun _ => ⟨rfl, rfl, covers, untouched_answered untouched⟩
  | refused varId delegate newVariable raised same =>
    have answerable : Answerable live p (.subscriptionReq req) ↔ live delegate = live p.delegate := by
      rw [Answerable, raised]
      exact ⟨fun grantable => grantable newVariable, fun kept _ => kept⟩
    rw [answerable, same]
    constructor
    · rintro (⟨rep, written, tells⟩ | ⟨-, untouched⟩)
      · by_cases fits : Fits (noSuchVar req)
        · rw [answered_fits fits] at written
          obtain rfl : noSuchVar req = rep := by simpa using written
          exact (answered_delegate .. ▸ tells.2.2.2.1 :)
        · rw [answered_long fits] at written
          exact absurd written (by simp)
      · exact (answered_delegate .. ▸ untouched.1 :)
    · intro kept
      have untouched : Untouched live p { p with delegate } := ⟨kept, rfl⟩
      refine answered_untouched untouched rfl fun _ => ⟨rfl, rfl, ⟨varId, ?_⟩, untouched_answered untouched⟩
      rw [answered_delegate]
      exact raised
  | failed e delegate newVariable raised undeclared same =>
    have silent : (caught (.error e { p with delegate })).session.written = p.session.written ∧
        (caught (.error e { p with delegate })).session.subscriptions = p.session.subscriptions ∧
        (caught (.error e { p with delegate })).delegate = delegate := by
      cases e <;> exact ⟨rfl, rfl, rfl⟩
    rw [same, silent_answered_iff silent.1 silent.2.1, silent.2.2, Answerable, raised]
    exact ⟨fun kept _ => kept, fun grantable => grantable newVariable⟩
  | clashing subsId delegate newVariable executed used same =>
    rw [same, Answerable, executed]
    obtain ⟨fresh, more⟩ := ledger.subscribe_fresh executed
    refine iff_of_false (not_answered_silent rfl ?_) fun grantable => ?_
    · rw [more]
      exact insert_fresh_ne fresh
    · exact (grantable newVariable).1 used
  | granted subsId delegate newVariable executed newSubscription same =>
    rw [same, Answerable, executed]
    obtain ⟨fresh, more⟩ := ledger.subscribe_fresh executed
    by_cases fits : Fits (subscribed req subsId)
    · refine iff_of_true (.inl ⟨subscribed req subsId, answered_fits fits, rfl, rfl, fresh, ?_, ?_⟩) fun _ => ?_
      · rw [answered_delegate]
        exact more
      · rw [answered_subscriptions]
        exact SubscriptionMapper.maps_insert_self newVariable newSubscription
      · exact ⟨newSubscription, (fits_subscribed req subsId).mp fits⟩
    · refine iff_of_false (not_answered_silent (answered_long fits) ?_) fun grantable => ?_
      · rw [answered_delegate, more]
        exact insert_fresh_ne fresh
      · exact fits ((fits_subscribed req subsId).mpr (grantable newVariable).2)

theorem unsubscription_answered (ledger : Ledger live) (p : Peer δ) (req : UnsubscriptionRequestMessage) :
    Answered live p (.unsubscriptionReq req) (caught (dispatch (.unsubscriptionReq req) p)) ↔
      Answerable live p (.unsubscriptionReq req) := by
  cases unsubscription_effect ledger p req with
  | removed delegate executed owned same =>
    rw [same]
    refine iff_of_true (.inl ⟨unsubscribed req.subsId, answered_fits (fits_unsubscribed _), rfl, ?_⟩) fun _ => owned
    obtain ⟨alive, less⟩ := ledger.unsubscribe_done executed
    refine ⟨alive, ?_, ?_⟩
    · rw [answered_delegate]
      exact less
    · rw [answered_subscriptions]
      exact fun owns => (SubscriptionMapper.owns_erase.mp owns).2 rfl
  | stolen delegate executed foreign same =>
    rw [same]
    obtain ⟨alive, less⟩ := ledger.unsubscribe_done executed
    refine iff_of_false ?_ fun answerable => foreign (answerable alive)
    have changed : live (answered { p with delegate } (serverError req.subsId)).delegate ≠ live p.delegate := by
      rw [answered_delegate]
      show live delegate ≠ _
      rw [less]
      exact sdiff_live_ne alive
    rintro (⟨rep, written, tells⟩ | ⟨-, untouched⟩)
    · rw [answered_fits (fits_serverError _)] at written
      obtain rfl : serverError req.subsId = rep := by simpa using written
      exact changed tells.2.1
    · exact changed untouched.1
  | missing delegate raised same =>
    rw [same]
    obtain ⟨dead, less⟩ := ledger.unsubscribe_refused raised
    refine iff_of_true ?_ fun alive => absurd alive dead
    have untouched : Untouched live p { p with delegate } := ⟨less, rfl⟩
    exact answered_untouched untouched rfl fun _ => ⟨rfl, dead, untouched_answered untouched⟩

/-! ## Handled once -/

/-- The bytes in the buffer are among those received. -/
structure Sound (s : Session) : Prop where
  atRest : s.inputBuffer.AtRest
  counted : s.inputBuffer.bytesWritten ≤ s.received.length

/-- What was handled after the first messages begins at the bound or behind it. -/
structure Onward (before : List (Nat × Message)) (bound : Nat) (s : Session) : Prop where
  handled : ∃ later, s.handled = before ++ later ∧ ∀ entry ∈ later, bound ≤ entry.1
  place : s.phase = .closed ∨ (Sound s ∧ bound ≤ s.position)

/-- A read moves no position. -/
theorem position_got (s : Session) (block : List UInt8) : (s.got block).position = s.position := by
  show (s.received ++ block).length - (s.inputBuffer.bytesWritten + block.length) = _
  rw [List.length_append, Nat.add_sub_add_right]
  rfl

theorem Sound.filled {s : Session} (sound : Sound s) {block : List UInt8} (transfers : s.Transfers (.ok block)) :
    (s.filled block).AtRest ∧ (s.filled block).content.length ≤ (s.received ++ block).length ∧
      s.position = (s.received ++ block).length - (s.filled block).content.length := by
  have ready := (sound.atRest.asyncWriteSomeFrom transfers.2).1
  have counted := sound.counted
  have total : (s.filled block).content.length = s.inputBuffer.bytesWritten + block.length :=
    RingBuffer.content_length ready.ok.layout
  refine ⟨ready, ?_, ?_⟩
  · rw [total, List.length_append]
    omega
  · rw [total, ← position_got s block]
    rfl

theorem Session.SameInput.position {s s' : Session} (same : SameInput s s') : s'.position = s.position := by
  show s'.received.length - s'.inputBuffer.availableForRead = _
  rw [same.buffer, same.received]
  rfl

theorem Sound.same {s s' : Session} (sound : Sound s) (same : SameInput s s') : Sound s' :=
  ⟨same.buffer ▸ sound.atRest, by rw [same.buffer, same.received]; exact sound.counted⟩

/-- A message that was taken off the buffer began where the session stood, and the session
    now stands behind it. -/
theorem Sound.took {s s' : Session} (sound : Sound s) {block rest : List UInt8} {msg : Message}
    (transfers : s.Transfers (.ok block)) (verdict : deserialize.decode (s.filled block).content = (.value msg, rest))
    (took : Took (s.filled block) rest s'.inputBuffer) (received : s'.received = s.received ++ block) :
    Sound s' ∧ s.position < s'.position := by
  obtain ⟨ready, counted, position⟩ := sound.filled transfers
  have shorter := deserialize_shorter verdict
  have left : s'.inputBuffer.bytesWritten = rest.length := by
    rw [← took.content]
    exact (RingBuffer.content_length took.atRest.ok.layout).symm
  refine ⟨⟨took.atRest, ?_⟩, ?_⟩
  · rw [left, received]
    omega
  · have place : s'.position = (s.received ++ block).length - rest.length := by
      show s'.received.length - s'.inputBuffer.bytesWritten = _
      rw [received, left]
    omega

theorem Onward.step {before : List (Nat × Message)} {bound : Nat} {p p' : Peer δ} {e : Event δ}
    (onward : Onward before bound p.session) (step : Step p e p') : Onward before bound p'.session := by
  obtain ⟨⟨later, order, beyond⟩, closed | ⟨sound, placed⟩⟩ := onward
  · obtain ⟨still, same⟩ := step.closed closed
    exact ⟨⟨later, same.handled.trans order, beyond⟩, .inl still⟩
  rcases step.input sound.atRest with ⟨block, rfl, -, transfers, effect⟩ | ⟨-, same, -⟩
  · cases effect with
    | straddled _ closed unhandled => exact ⟨⟨later, unhandled.trans order, beyond⟩, .inl closed⟩
    | rejected _ _ _ _ closed unhandled => exact ⟨⟨later, unhandled.trans order, beyond⟩, .inl closed⟩
    | incomplete _ _ restored received unhandled _ =>
      obtain ⟨ready, counted, position⟩ := sound.filled transfers
      have held : p'.session.inputBuffer.bytesWritten = (p.session.filled block).content.length := by
        rw [restored, RingBuffer.content_length ready.ok.layout]
        rfl
      have place : p'.session.position = (p.session.received ++ block).length - (p.session.filled block).content.length := by
        show p'.session.received.length - p'.session.inputBuffer.bytesWritten = _
        rw [received, held]
      refine ⟨⟨later, unhandled.trans order, beyond⟩, .inr ⟨⟨restored ▸ ready.setMark, ?_⟩, ?_⟩⟩
      · rw [held, received]
        exact counted
      · rw [place, ← position]
        exact placed
    | message msg rest _ verdict took received handled =>
      obtain ⟨sound', further⟩ := sound.took transfers verdict took received
      refine ⟨⟨later ++ [(p.session.position, msg)], ?_, ?_⟩, .inr ⟨sound', by omega⟩⟩
      · rw [handled, order, List.append_assoc, ← position_got p.session block]
        rfl
      · intro entry member
        rcases List.mem_append.mp member with old | new
        · exact beyond entry old
        · rw [List.mem_singleton.mp new]
          exact placed
  · exact ⟨⟨later, same.handled.trans order, beyond⟩, .inr ⟨sound.same same, by rw [same.position]; exact placed⟩⟩

/-- Every open session is sound. -/
theorem sound_of_run {delegate : δ} {p : Peer δ} (run : Run Step ⟨accepted, delegate⟩ p)
    (alive : p.session.phase ≠ .closed) : Sound p.session := by
  have start : Onward [] 0 accepted :=
    ⟨⟨[], rfl, fun _ member => absurd member List.not_mem_nil⟩, .inr ⟨⟨accepted_fresh.atRest, Nat.zero_le _⟩, Nat.zero_le _⟩⟩
  have onward := run.invariant (I := fun p => Onward [] 0 p.session) start fun onward step => onward.step step
  exact (onward.place.resolve_left alive).1

/-- The request is handled where the session stood, and whatever is handled later begins
    behind it. -/
def HandledOnce (p : Peer δ) (req : Message) (p' : Peer δ) : Prop :=
  p'.session.handled = p.session.handled ++ [(p.session.position, req)] ∧
    ∀ p'', Run Step p' p'' → ∃ later, p''.session.handled = p'.session.handled ++ later ∧
      ∀ entry ∈ later, p.session.position < entry.1

/-- The messages that a session replies to. -/
def IsRequest : Message → Prop
  | .subscriptionReq _ => True
  | .unsubscriptionReq _ => True
  | _ => False

theorem unmarshall_decoded {buff buff' : RingBuffer} (atRest : buff.AtRest) {msg : Message}
    (decoded : unmarshall buff = .ok msg buff') : ∃ rest, ¬ FillsAtEnd buff ∧
      deserialize.decode buff.content = (.value msg, rest) ∧ Took buff rest buff' := by
  by_cases fills : FillsAtEnd buff
  · rw [unmarshall_straddles atRest fills] at decoded
    cases decoded
  rcases verdict : deserialize.decode buff.content with ⟨outcome, rest⟩
  cases outcome with
  | value msg' =>
    obtain ⟨buff'', executed, took⟩ := unmarshall_value atRest fills verdict
    rw [executed] at decoded
    cases decoded
    exact ⟨rest, fills, rfl, took⟩
  | error e =>
    obtain ⟨-, buff'', raised⟩ := unmarshall_rejected atRest fills verdict
    rw [raised] at decoded
    cases decoded
  | starved =>
    obtain ⟨buff'', raised, -⟩ := unmarshall_starved atRest fills (by rw [verdict])
    rw [raised] at decoded
    cases decoded

section
variable {p : Peer δ} (sound : Sound p.session) {block : List UInt8} (transfers : p.session.Transfers (.ok block))
  {req : Message} {buff : RingBuffer} (decoded : unmarshall (p.session.filled block) = .ok req buff)
include sound transfers decoded

/-- The request that was decoded is dispatched, and the input is left alone. -/
theorem onReadRequest_decoded : ∃ rest,
    deserialize.decode (p.session.filled block).content = (.value req, rest) ∧ Took (p.session.filled block) rest buff ∧
      after (Peer.onReadRequest (.ok block) p) = caught (dispatch req ⟨p.session.taken block buff req, p.delegate⟩) ∧
      SameInput (p.session.taken block buff req) (after (Peer.onReadRequest (.ok block) p)).session := by
  obtain ⟨ready, -, -⟩ := sound.filled transfers
  obtain ⟨rest, -, verdict, took⟩ := unmarshall_decoded ready decoded
  have result : after (Peer.onReadRequest (.ok block) p) =
      caught (dispatch req ⟨p.session.taken block buff req, p.delegate⟩) := by
    rw [onReadRequest_ok, Peer.request, ok_bind (onSession_ok (unmarshallInput_ok decoded))]
  refine ⟨rest, verdict, took, result, ?_⟩
  rw [result]
  exact caught_input (p := ⟨p.session.taken block buff req, p.delegate⟩) took.unmarked (dispatch_input req _)

theorem onReadRequest_once : HandledOnce p req (after (Peer.onReadRequest (.ok block) p)) := by
  obtain ⟨rest, verdict, took, -, same⟩ := onReadRequest_decoded sound transfers decoded
  obtain ⟨sound', further⟩ : Sound (p.session.taken block buff req) ∧
      p.session.position < (p.session.taken block buff req).position := sound.took transfers verdict took rfl
  refine ⟨?_, ?_⟩
  · rw [same.handled, ← position_got p.session block]
    rfl
  · intro p'' run
    have start : Onward (after (Peer.onReadRequest (.ok block) p)).session.handled (p.session.position + 1)
        (after (Peer.onReadRequest (.ok block) p)).session :=
      ⟨⟨[], (List.append_nil _).symm, fun _ member => absurd member List.not_mem_nil⟩,
        .inr ⟨sound'.same same, by rw [same.position]; exact further⟩⟩
    exact (run.invariant (I := fun p'' => Onward _ _ p''.session) start fun onward step => onward.step step).handled

theorem onReadRequest_answered (ledger : Ledger live) (isRequest : IsRequest req) :
    Answered live p req (after (Peer.onReadRequest (.ok block) p)) ↔ Answerable live p req := by
  obtain ⟨-, -, -, result, -⟩ := onReadRequest_decoded sound transfers decoded
  rw [result]
  cases req with
  | subscriptionReq req =>
    exact subscription_answered ledger ⟨p.session.taken block buff (.subscriptionReq req), p.delegate⟩ req
  | unsubscriptionReq req =>
    exact unsubscription_answered ledger ⟨p.session.taken block buff (.unsubscriptionReq req), p.delegate⟩ req
  | _ => exact isRequest.elim

/-- A request that can be decoded gets one truthful reply, or has no effect, and is not
    handled again, exactly if it is answerable. -/
theorem request_answered (ledger : Ledger live) (isRequest : IsRequest req) :
    (Answered live p req (after (Peer.onReadRequest (.ok block) p)) ∧
      HandledOnce p req (after (Peer.onReadRequest (.ok block) p))) ↔ Answerable live p req := by
  rw [onReadRequest_answered sound transfers decoded ledger isRequest]
  exact and_iff_left_of_imp fun _ => onReadRequest_once sound transfers decoded

end

/-- A session that waits for a request and has nothing in its buffer. -/
structure Idle (s : Session) : Prop where
  pending : s.phase = .readingRequest
  sound : Sound s
  size : s.inputBuffer.capacity = inputCapacity
  content : s.inputBuffer.content = []
  subscriptions : s.subscriptions = .empty

/-- A greeting makes an accepted session idle. -/
theorem idle_reached (delegate : δ) : ∃ block s₁ s₂, Step ⟨accepted, delegate⟩ (.read (.ok block)) ⟨s₁, delegate⟩ ∧
    Step ⟨s₁, delegate⟩ (.wrote (.ok 0)) ⟨s₂, delegate⟩ ∧ Idle s₂ := by
  have short : (text "fcu").length ≤ 0xffff := by decide
  obtain ⟨-, s₁, s₂, read, wrote, greeted⟩ := accepted_fresh.greets rfl ⟨text "fcu", 0x0100⟩ []
    delegate short (by decide)
  have run : Run Step ⟨accepted, delegate⟩ ⟨s₂, delegate⟩ := ((Run.refl _).next read).next wrote
  have alive : s₂.phase ≠ .closed := by
    rw [greeted.pending]
    nofun
  exact ⟨_, s₁, s₂, read, wrote, greeted.pending, sound_of_run run alive, greeted.size, greeted.content,
    greeted.subscriptions⟩

/-- Any request that the buffer has room for can come next. -/
theorem Idle.decodes {s : Session} (idle : Idle s) {msg : Message} (valid : msg.Valid)
    (fits : (wire msg).length < inputCapacity) :
    s.Transfers (.ok (wire msg)) ∧ ∃ buff, unmarshall (s.filled (wire msg)) = .ok msg buff := by
  have free := idle.sound.atRest.availableForWrite
  have empty : s.inputBuffer.bytesWritten = 0 := by
    rw [← RingBuffer.content_length idle.sound.atRest.ok.layout, idle.content]
    rfl
  rw [idle.content, idle.size] at free
  have room : (wire msg).length ≤ s.inputBuffer.availableForWrite := by
    rw [show s.inputBuffer.availableForWrite = inputCapacity from free]
    omega
  obtain ⟨ready, size⟩ := idle.sound.atRest.asyncWriteSomeFrom room
  have unfull : ¬ FillsAtEnd (s.filled (wire msg)) := by
    rintro ⟨-, full⟩
    have total : s.inputBuffer.bytesWritten + (wire msg).length = s.inputBuffer.capacity := full.trans size
    rw [empty, idle.size] at total
    omega
  have content : (s.filled (wire msg)).content = wire msg := by
    have appended := RingBuffer.asyncWriteSomeFrom_content idle.sound.atRest.ok room
    rw [idle.content] at appended
    exact appended
  have verdict : deserialize.decode (s.filled (wire msg)).content = (.value msg, []) := by
    rw [content]
    exact deserialize_accepts valid
  obtain ⟨buff, executed, -⟩ := unmarshall_value ready unfull verdict
  refine ⟨⟨fun none => ?_, room⟩, buff, executed⟩
  have positive := wire_length_pos msg
  rw [none] at positive
  exact absurd positive (by decide)

/-- A request is dispatched, and no other message. -/
theorem Idle.reads {s : Session} (idle : Idle s) (delegate : δ) {msg : Message} (valid : msg.Valid)
    (fits : (wire msg).length < inputCapacity) :
    (∃ buff, Step ⟨s, delegate⟩ (.read (.ok (wire msg))) (caught (dispatch msg ⟨s.taken (wire msg) buff msg, delegate⟩))) ∧
      ∀ msg', Reads s (.ok (wire msg)) msg' → msg' = msg := by
  obtain ⟨transfers, buff, decoded⟩ := idle.decodes valid fits
  obtain ⟨-, -, -, result, -⟩ := onReadRequest_decoded (p := ⟨s, delegate⟩) idle.sound transfers decoded
  refine ⟨⟨buff, ?_⟩, ?_⟩
  · rw [← result]
    exact .readRequest idle.pending transfers
  · rintro msg' ⟨-, block, buff', same, decoded'⟩
    cases same
    rw [decoded] at decoded'
    cases decoded'
    rfl

end

theorem request_answered_short : ∃ (s : Session) (block : List UInt8) (buff : RingBuffer),
    unmarshall (s.filled block) = .ok (.subscriptionReq ⟨text "airbus", text "alt"⟩) buff ∧
      Answered Registry.live ⟨s, .empty⟩ (.subscriptionReq ⟨text "airbus", text "alt"⟩)
        (after (Peer.onReadRequest (.ok block) (⟨s, .empty⟩ : Peer Registry))) := by
  obtain ⟨_, _, s, -, -, idle⟩ := idle_reached Registry.empty
  have valid : (Message.subscriptionReq ⟨text "airbus", text "alt"⟩).Valid := by
    show (text "airbus").length ≤ 0xffff ∧ (text "alt").length ≤ 0xffff
    decide
  obtain ⟨transfers, buff, decoded⟩ := idle.decodes valid (by decide)
  have answerable : Answerable Registry.live ⟨s, .empty⟩ (.subscriptionReq ⟨text "airbus", text "alt"⟩) := by
    intro _
    refine ⟨?_, by decide⟩
    show ¬ s.subscriptions.Owns _
    rw [idle.subscriptions]
    exact SubscriptionMapper.not_owns_empty
  exact ⟨s, _, buff, decoded,
    ((request_answered (p := ⟨s, .empty⟩) idle.sound transfers decoded Registry.lawful.toLedger trivial).mpr answerable).1⟩

/-- A subscription with a reply of more than 1024 bytes is granted and not answered. -/
theorem longRequest_unanswered {grp name : Str} (sizeGrp : grp.length = 1000) (sizeName : name.length = 10) :
    ∃ (s : Session) (block : List UInt8) (buff : RingBuffer),
      Run Step ⟨accepted, Registry.empty⟩ ⟨s, Registry.empty⟩ ∧ s.phase = .readingRequest ∧ s.Transfers (.ok block) ∧
        unmarshall (s.filled block) = .ok (.subscriptionReq ⟨grp, name⟩) buff ∧
        ¬ Answered Registry.live ⟨s, .empty⟩ (.subscriptionReq ⟨grp, name⟩)
          (after (Peer.onReadRequest (.ok block) (⟨s, .empty⟩ : Peer Registry))) := by
  obtain ⟨_, _, s, read, wrote, idle⟩ := idle_reached Registry.empty
  have run : Run Step ⟨accepted, Registry.empty⟩ ⟨s, Registry.empty⟩ := ((Run.refl _).next read).next wrote
  have valid : (Message.subscriptionReq ⟨grp, name⟩).Valid := by
    show grp.length ≤ 0xffff ∧ name.length ≤ 0xffff
    omega
  have short : (wire (.subscriptionReq ⟨grp, name⟩)).length < inputCapacity := by
    rw [wire_length, Message.size, sizeGrp, sizeName]
    decide
  obtain ⟨transfers, buff, decoded⟩ := idle.decodes valid short
  refine ⟨s, _, buff, run, idle.pending, transfers, decoded, fun answered => ?_⟩
  rw [onReadRequest_answered (p := ⟨s, .empty⟩) idle.sound transfers decoded Registry.lawful.toLedger trivial] at answered
  have uncovered : ¬ s.subscriptions.Covers (variableId grp name) := by
    rw [idle.subscriptions]
    exact List.not_mem_nil
  have fits := (answered uncovered).2
  rw [sizeGrp, sizeName] at fits
  exact absurd fits (by decide)

theorem request_unanswered : ∃ (s : Session) (block : List UInt8) (buff : RingBuffer),
    Run Step ⟨accepted, Registry.empty⟩ ⟨s, Registry.empty⟩ ∧ s.phase = .readingRequest ∧ s.Transfers (.ok block) ∧
      unmarshall (s.filled block) = .ok (.subscriptionReq ⟨letters 1000, letters 10⟩) buff ∧
      ¬ Answered Registry.live ⟨s, .empty⟩ (.subscriptionReq ⟨letters 1000, letters 10⟩)
        (after (Peer.onReadRequest (.ok block) (⟨s, .empty⟩ : Peer Registry))) :=
  longRequest_unanswered (letters_length 1000) (letters_length 10)

end Oac.Server
