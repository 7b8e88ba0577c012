import Oac.Proto.Messages
import Oac.Stream

/-!
# Deserialization

`binary_message_deserializer` and the functions that read a message field by field, as
programs that read blocks. `deserializeFrom` runs them on a stream.
-/
namespace Oac.Proto
open Base Oac.Stream

/-- `code_to_msg_type`: the value of the enumeration, which may be no enumerator. -/
def codeToMsgType (code : UInt16) : Int := code.toNat - 0x700

/-- The number that `read_float_value` makes of a significand and an exponent. -/
def floatOfFields (nsig exp : UInt32) : Single :=
  let sig := Single.round (Single.round (nsig.toNat * (1 / 2)) / Single.uint32Max + 1 / 2)
  Single.ldexp sig exp.toInt32.toInt

/-! ## The deserializer -/

namespace BinaryMessageDeserializer

def readMsgBegin : Decoder UInt8 Exception Int := do
  let code ← readAs UInt16
  pure (codeToMsgType (bigToNative16 code))
def readMsgEnd : Decoder UInt8 Exception Unit := do
  let mark ← readAs UInt16
  let eol := nativeToBig16 mark
  if eol ≠ 0x0d0a then .fail (.invalidTerminationMark eol) else pure ()
def readStringValue : Decoder UInt8 Exception Str := do
  let len ← readAs UInt16
  readAsString (bigToNative16 len)
def readUint16Value : Decoder UInt8 Exception UInt16 := do
  let value ← readAs UInt16
  pure (bigToNative16 value)
def readUint8Value : Decoder UInt8 Exception UInt8 := readAs UInt8
def readUint32Value : Decoder UInt8 Exception UInt32 := do
  let value ← readAs UInt32
  pure (bigToNative32 value)
def readFloatValue : Decoder UInt8 Exception Single := do
  let nsig ← readUint32Value
  let exp ← readUint32Value
  pure (floatOfFields nsig exp)

end BinaryMessageDeserializer
open BinaryMessageDeserializer

def deserializeBeginSessionContents : Decoder UInt8 Exception BeginSessionMessage := do
  let pname ← readStringValue
  let protoVer ← readUint16Value
  pure ⟨pname, protoVer⟩

def deserializeEndSessionContents : Decoder UInt8 Exception EndSessionMessage := do
  let cause ← readStringValue
  pure ⟨cause⟩

def deserializeSubscriptionRequestContents : Decoder UInt8 Exception SubscriptionRequestMessage := do
  let varGrp ← readStringValue
  let varName ← readStringValue
  pure ⟨varGrp, varName⟩

def deserializeSubscriptionReplyContents : Decoder UInt8 Exception SubscriptionReplyMessage := do
  let st ← readUint8Value
  let grp ← readStringValue
  let name ← readStringValue
  let subsId ← readUint32Value
  let cause ← readStringValue
  pure ⟨SubscriptionStatus.ofCode st, grp, name, subsId, cause⟩

def deserializeUnsubscriptionRequestContents : Decoder UInt8 Exception UnsubscriptionRequestMessage := do
  let subsId ← readUint32Value
  pure ⟨subsId⟩

def deserializeUnsubscriptionReplyContents : Decoder UInt8 Exception UnsubscriptionReplyMessage := do
  let st ← readUint8Value
  let subsId ← readUint32Value
  let cause ← readStringValue
  pure ⟨SubscriptionStatus.ofCode st, subsId, cause⟩

/-- The `switch` of `deserialize_var_update_contents`. -/
def deserializeVarValue (varType : UInt8) : Decoder UInt8 Exception VariableValue :=
  match VariableType.ofCode varType with
  | some .boolean => do
    let value ← readUint8Value
    pure (.bool (decide (0 < value)))
  | some .byte => do
    let value ← readUint8Value
    pure (.byte value)
  | some .word => do
    let value ← readUint16Value
    pure (.word value)
  | some .dword => do
    let value ← readUint32Value
    pure (.dword value)
  | some .float => do
    let value ← readFloatValue
    pure (.float value)
  | none => .fail (.invalidVariableType varType)

def deserializeVarUpdateContents : Decoder UInt8 Exception VarUpdateMessage := do
  let subsId ← readUint32Value
  let varType ← readUint8Value
  let varValue ← deserializeVarValue varType
  pure ⟨subsId, varValue⟩

/-- The contents of a message up to its termination mark. -/
def deserializeCase {α : Type} (contents : Decoder UInt8 Exception α) (message : α → Message) :
    Decoder UInt8 Exception Message := do
  let msg ← contents
  readMsgEnd
  pure (message msg)

/-- The `switch` of `deserialize`. -/
def deserializeContents (msgBegin : Int) : Decoder UInt8 Exception Message :=
  match MessageType.ofCode msgBegin with
  | some .beginSession => deserializeCase deserializeBeginSessionContents .beginSession
  | some .endSession => deserializeCase deserializeEndSessionContents .endSession
  | some .subscriptionReq => deserializeCase deserializeSubscriptionRequestContents .subscriptionReq
  | some .subscriptionRep => deserializeCase deserializeSubscriptionReplyContents .subscriptionRep
  | some .unsubscriptionReq => deserializeCase deserializeUnsubscriptionRequestContents .unsubscriptionReq
  | some .unsubscriptionRep => deserializeCase deserializeUnsubscriptionReplyContents .unsubscriptionRep
  | some .varUpdate => deserializeCase deserializeVarUpdateContents .varUpdate
  | none => .fail (.invalidMessageType (UInt16.ofInt msgBegin))

def deserialize : Decoder UInt8 Exception Message := do
  let msgBegin ← readMsgBegin
  deserializeContents msgBegin

/-- A message is not empty. -/
theorem deserialize_shorter {bytes rest : List UInt8} {msg : Message}
    (verdict : deserialize.decode bytes = (.value msg, rest)) : rest.length < bytes.length := by
  have fed : (deserialize.decode bytes).1 ≠ .starved := by
    rw [verdict]
    nofun
  have less : (deserialize.decode bytes).2.length < bytes.length := Decoder.decode_shorter (by decide) fed
  rw [verdict] at less
  exact less

/-- `deserialize` on a stream. -/
def deserializeFrom {σ : Type} [InputStream σ] : EStateM Exception σ Message := deserialize.run readAll

/-- `deserialize` called once for each of the messages expected. -/
def deserializeAll {σ : Type} [InputStream σ] (expected : Nat) : EStateM Exception σ (List Message) :=
  match expected with
  | 0 => pure []
  | n + 1 => do
    let msg ← deserializeFrom
    let rest ← deserializeAll n
    pure (msg :: rest)

/-! ## Errors -/

/-- The decoder fails with a protocol exception, if it fails. -/
def FailsByProtocol {α : Type} : Decoder UInt8 Exception α → Prop
  | .done _ => True
  | .fail e => e.IsProtocol
  | .read _ next => ∀ block, FailsByProtocol (next block)

theorem failsByProtocol_bind {α β : Type} {p : Decoder UInt8 Exception α} {f : α → Decoder UInt8 Exception β}
    (head : FailsByProtocol p) (tail : ∀ a, FailsByProtocol (f a)) : FailsByProtocol (p.bind f) := by
  induction p with
  | done a => exact tail a
  | fail e => exact head
  | read n next ih => exact fun block => ih block (head block)

theorem failsByProtocol_decode {α : Type} {p : Decoder UInt8 Exception α} (fails : FailsByProtocol p)
    {ts rest : List UInt8} {e : Exception} (raised : p.decode ts = (.error e, rest)) : e.IsProtocol := by
  induction p generalizing ts with
  | done a => simp at raised
  | fail e' =>
    simp only [Decoder.decode_fail, Prod.mk.injEq, Outcome.error.injEq] at raised
    exact raised.1 ▸ fails
  | read n next ih =>
    by_cases short : ts.length < n
    · simp [Decoder.decode_read_short short] at raised
    · rw [Decoder.decode_read_enough (by omega)] at raised
      exact ih _ (fails _) raised

theorem readMsgEnd_fails : FailsByProtocol readMsgEnd := by
  intro block
  show FailsByProtocol (if nativeToBig16 _ ≠ 0x0d0a then _ else _)
  split <;> trivial

theorem readUint8Value_fails : FailsByProtocol readUint8Value := fun _ => trivial
theorem readUint32Value_fails : FailsByProtocol readUint32Value := fun _ => trivial

theorem deserializeVarValue_fails (varType : UInt8) : FailsByProtocol (deserializeVarValue varType) := by
  unfold deserializeVarValue
  split
  · exact fun _ => trivial
  · exact fun _ => trivial
  · exact fun _ => trivial
  · exact fun _ => trivial
  · exact fun _ _ => trivial
  · trivial

theorem deserializeCase_fails {α : Type} {contents : Decoder UInt8 Exception α} {message : α → Message}
    (fails : FailsByProtocol contents) : FailsByProtocol (deserializeCase contents message) :=
  failsByProtocol_bind fails fun _ => failsByProtocol_bind readMsgEnd_fails fun _ => trivial

theorem deserializeContents_fails (msgBegin : Int) : FailsByProtocol (deserializeContents msgBegin) := by
  unfold deserializeContents
  split
  · exact deserializeCase_fails fun _ _ _ => trivial
  · exact deserializeCase_fails fun _ _ => trivial
  · exact deserializeCase_fails fun _ _ _ _ => trivial
  · exact deserializeCase_fails fun _ _ _ _ _ _ _ _ => trivial
  · exact deserializeCase_fails fun _ => trivial
  · exact deserializeCase_fails fun _ _ _ _ => trivial
  · exact deserializeCase_fails (failsByProtocol_bind readUint32Value_fails fun _ =>
      failsByProtocol_bind readUint8Value_fails fun varType =>
        failsByProtocol_bind (deserializeVarValue_fails varType) fun _ => trivial)
  · trivial

/-- `deserialize` itself raises protocol exceptions only; `eof_error` comes from the stream. -/
theorem deserialize_fails : FailsByProtocol deserialize :=
  failsByProtocol_bind (p := readMsgBegin) (fun _ => trivial) deserializeContents_fails

/-! ## Streams -/

/-- On a stream that holds the bytes `held`, `deserialize` ends with its verdict on them. -/
theorem deserializeFrom_follows {σ : Type} [InputStream σ] {R : σ → List UInt8 → Prop} (serves : Serves R)
    {s : σ} {held : List UInt8} (related : R s held) :
    ∃ s', deserializeFrom s = (deserialize.decode held).1.result .eof s' ∧ R s' (deserialize.decode held).2 :=
  Decoder.run_follows (readAll_delivers serves) deserialize related

end Oac.Proto
