import Oac.Buffer.Linear
import Oac.Proto.Serial

/-!
# Messages in output buffers

Both ends serialize a message into a linear buffer of its own before they write it to the
connection.
-/
namespace Oac.Proto

/-- The size of an output buffer, on the server and on the client. -/
def outputCapacity : Nat := 1024

/-- A message that an output buffer has room for. -/
def Fits (msg : Message) : Prop := (wire msg).length ≤ outputCapacity
instance (msg : Message) : Decidable (Fits msg) := inferInstanceAs (Decidable (_ ≤ _))

theorem fits_iff (msg : Message) : Fits msg ↔ msg.size ≤ 1024 := by
  rw [Fits, wire_length]
  rfl

theorem serialize_output (msg : Message) :
    (Fits msg → ∃ buff, serialize msg (LinearBuffer.create outputCapacity) = .ok () buff ∧ buff.content = wire msg) ∧
      (¬ Fits msg → ∃ buff, serialize msg (LinearBuffer.create outputCapacity) = .error .eof buff) := by
  obtain ⟨short, long⟩ := serialize_emits (LinearBuffer.takes outputCapacity) msg _ []
    (LinearBuffer.create_wrote (by decide)) (Nat.cast_le.mpr (Nat.zero_le _))
  constructor
  · intro fits
    obtain ⟨buff, executed, wrote⟩ := short (Nat.cast_le.mpr fits)
    exact ⟨buff, executed, wrote.content⟩
  · intro exceeds
    exact long (Nat.cast_lt.mpr (not_le.mp exceeds))

end Oac.Proto
