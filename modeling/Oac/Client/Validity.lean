import Oac.Client.Effects
import Oac.Proto.Validity

/-!
# Statuses in the client

What happens to the status of a reply behind the decoder: `to_string` and the handlers of
replies have a branch for values that are not declared, which raises an error of its own.
-/
namespace Oac.Client
open Proto

/-- Neither `to_string` nor a handler finds the status of the message out of range. -/
structure InRange (msg : Message) : Prop where
  named : ∀ st, msg.status = some st → ∃ name, st.toStr = .ok name
  handled : ∀ (m m' : ConnectionManager) code, ConnectionManager.dispatch msg m ≠ .error (.statusOutOfRange code) m'

/-- What a stream that holds the bytes is to give: messages whose enumerators are declared,
    and a protocol exception for others. -/
structure Validated {σ : Type} [InputStream σ] (bytes : List UInt8) (s : σ) : Prop where
  declared : ∀ m s', deserializeFrom s = .ok m s' → m.Declared ∧ InRange m
  refused : Undeclares bytes → ∃ e s', e.IsProtocol ∧ deserializeFrom s = .error e s'

theorem toStr_declared {st : SubscriptionStatus} (declared : st.code < 6) : ∃ name, st.toStr = .ok name := by
  cases st with
  | undeclared code outside => exact absurd declared (UInt8.not_lt.mpr outside)
  | _ => exact ⟨_, rfl⟩

theorem unexpectedStatus_declared {st : SubscriptionStatus} (declared : st.code < 6) (msgType : MessageType) :
    ConnectionManager.unexpectedStatus st msgType = .unexpectedMessage msgType := by
  obtain ⟨name, named⟩ := toStr_declared declared
  rw [ConnectionManager.unexpectedStatus, named]

theorem inRange_of_declared {msg : Message} (declared : msg.Declared) : InRange msg := by
  constructor
  · intro st carried
    cases msg with
    | subscriptionRep msg =>
      cases carried
      exact toStr_declared declared
    | unsubscriptionRep msg =>
      cases carried
      exact toStr_declared declared
    | _ => cases carried
  · intro m m' code raised
    have effect := ConnectionManager.dispatch_effect m msg
    cases msg with
    | subscriptionRep msg =>
      rw [raised] at effect
      generalize same : Exception.statusOutOfRange code = e at effect
      cases effect with
      | unasked => cases same
      | clashing => cases same
      | oddSubscription =>
        rw [unexpectedStatus_declared declared] at same
        cases same
      | unexpected e other noSubscription => exact noSubscription _ rfl
    | unsubscriptionRep msg =>
      rw [raised] at effect
      generalize same : Exception.statusOutOfRange code = e at effect
      cases effect with
      | unaskedEnd => cases same
      | oddEnd =>
        rw [unexpectedStatus_declared declared] at same
        cases same
      | unexpected e other noSubscription noUnsubscription => exact noUnsubscription _ rfl
    | varUpdate msg =>
      rw [raised] at effect
      cases effect with
      | unexpected e other noSubscription noUnsubscription noUpdate => exact noUpdate _ rfl
    | _ => cases raised

/-- The decoder lets no undeclared enumerator through, and refuses it by a protocol
    exception, if and only if the bytes begin no reply with an undeclared status or a
    wrong termination mark gives such a reply away. -/
theorem decoder_valid_iff {σ : Type} [InputStream σ] {R : σ → List UInt8 → Prop} (serves : Stream.Serves R)
    (bytes : List UInt8) (s : σ) (related : R s bytes) :
    Validated bytes s ↔ ∀ st, BeginsReply bytes st → 6 ≤ st → Misended bytes := by
  obtain ⟨s', executed, -⟩ := deserializeFrom_follows serves related
  rw [← validates_iff]
  rcases verdict : deserialize.decode bytes with ⟨outcome, rest⟩
  rw [verdict] at executed
  constructor
  · intro validated
    constructor
    · intro m rest' read
      rw [verdict] at read
      cases read
      exact (validated.declared m s' executed).1
    · intro undeclares
      obtain ⟨e, s'', isProtocol, raised⟩ := validated.refused undeclares
      rw [executed] at raised
      cases outcome with
      | value m => cases raised
      | error e' =>
        cases raised
        exact ⟨e, rest, isProtocol, verdict⟩
      | starved =>
        cases raised
        exact absurd isProtocol id
  · intro validates
    constructor
    · intro m s'' read
      rw [executed] at read
      cases outcome with
      | value m' =>
        cases read
        have declared := validates.declared m rest verdict
        exact ⟨declared, inRange_of_declared declared⟩
      | error e => cases read
      | starved => cases read
    · intro undeclares
      obtain ⟨e, rest', isProtocol, raised⟩ := validates.refused undeclares
      rw [verdict] at raised
      cases raised
      exact ⟨e, s', isProtocol, executed⟩

theorem decoder_valid_request : Validated (wire (.unsubscriptionReq ⟨7⟩)) (wire (.unsubscriptionReq ⟨7⟩)) := by
  apply (decoder_valid_iff Stream.bytes_serves _ _ rfl).mpr
  rintro st ⟨t, more, reply, same⟩
  rcases reply with rfl | rfl <;> cases same

/-- A reply to an unsubscription whose status byte is 6 gets through. -/
theorem decoder_not_valid : ¬ ∀ bytes : List UInt8, Validated bytes bytes := by
  intro valid
  let reply : Message := .unsubscriptionRep ⟨.undeclared 6 (by decide), 7, []⟩
  have read : deserializeFrom (wire reply) = .ok reply [] := by
    obtain ⟨s', executed, left⟩ := deserializeFrom_follows Stream.bytes_serves (rfl : wire reply = wire reply)
    have verdict : deserialize.decode (wire reply) = (.value reply, []) :=
      deserialize_accepts (m := reply) (Nat.zero_le _)
    rw [verdict] at executed left
    rw [executed, show s' = [] from left]
    rfl
  have declared : (6 : UInt8) < 6 := ((valid (wire reply)).declared _ _ read).1
  exact absurd declared (by decide)

end Oac.Client
