import Oac.Proto.Messages
import Oac.Stream

/-!
# Serialization

`binary_message_serializer` and the functions that write a message field by field.
`wire` is the word of a message: what `serialize` appends to a stream with room for it,
however the stream splits the writes (`serialize_emits`).
-/
namespace Oac.Proto
open Oac.Stream Memory

/-- `msg_type_to_code`. -/
def msgTypeToCode (msgType : MessageType) : UInt16 := UInt16.ofInt msgType.code + 0x700
/-- `var_type_to_code`. -/
def varTypeToCode (varType : VariableType) : UInt8 := varType.code

/-- The significand and the exponent that `write_float_value` writes. -/
def floatFields (value : Single) : UInt32 × UInt32 :=
  let (sig, exp) := Single.frexp value
  (2 * Single.toUInt32 (Single.round (Single.round (sig - 1 / 2) * Single.uint32Max)), UInt32.ofInt exp)

/-! ## The serializer -/

namespace BinaryMessageSerializer
variable {τ : Type} [OutputStream τ]

def writeMsgBegin (msgType : MessageType) : EStateM Exception τ Unit :=
  writeAs (nativeToBig16 (msgTypeToCode msgType))
def writeMsgEnd : EStateM Exception τ Unit := writeAs (nativeToBig16 0x0d0a)
def writeStringValue (value : Str) : EStateM Exception τ Unit := do
  writeAs (nativeToBig16 (UInt16.ofNat value.length))
  writeAsString value
def writeUint8Value (value : UInt8) : EStateM Exception τ Unit := writeAs value
def writeUint16Value (value : UInt16) : EStateM Exception τ Unit := writeAs (nativeToBig16 value)
def writeUint32Value (value : UInt32) : EStateM Exception τ Unit := writeAs (nativeToBig32 value)
def writeFloatValue (value : Single) : EStateM Exception τ Unit := do
  let (nsig, exp) := floatFields value
  writeAs (nativeToBig32 nsig)
  writeAs (nativeToBig32 exp)

end BinaryMessageSerializer
open BinaryMessageSerializer

section
variable {τ : Type} [OutputStream τ]

def serializeBeginSession (msg : BeginSessionMessage) : EStateM Exception τ Unit := do
  writeMsgBegin .beginSession
  writeStringValue msg.pname
  writeUint16Value msg.protoVer
  writeMsgEnd

def serializeEndSession (msg : EndSessionMessage) : EStateM Exception τ Unit := do
  writeMsgBegin .endSession
  writeStringValue msg.cause
  writeMsgEnd

def serializeSubscriptionRequest (msg : SubscriptionRequestMessage) : EStateM Exception τ Unit := do
  writeMsgBegin .subscriptionReq
  writeStringValue msg.varGrp
  writeStringValue msg.varName
  writeMsgEnd

def serializeSubscriptionReply (msg : SubscriptionReplyMessage) : EStateM Exception τ Unit := do
  writeMsgBegin .subscriptionRep
  writeUint8Value msg.st.code
  writeStringValue msg.varGrp
  writeStringValue msg.varName
  writeUint32Value msg.subsId
  writeStringValue msg.cause
  writeMsgEnd

def serializeUnsubscriptionRequest (msg : UnsubscriptionRequestMessage) : EStateM Exception τ Unit := do
  writeMsgBegin .unsubscriptionReq
  writeUint32Value msg.subsId
  writeMsgEnd

def serializeUnsubscriptionReply (msg : UnsubscriptionReplyMessage) : EStateM Exception τ Unit := do
  writeMsgBegin .unsubscriptionRep
  writeUint8Value msg.st.code
  writeUint32Value msg.subsId
  writeStringValue msg.cause
  writeMsgEnd

/-- The `switch` of `serialize_var_update`. -/
def serializeVarValue (varValue : VariableValue) : EStateM Exception τ Unit :=
  match varValue with
  | .bool value => do
    writeUint8Value (varTypeToCode .boolean)
    writeUint8Value (if value then 1 else 0)
  | .byte value => do
    writeUint8Value (varTypeToCode .byte)
    writeUint8Value value
  | .word value => do
    writeUint8Value (varTypeToCode .word)
    writeUint16Value value
  | .dword value => do
    writeUint8Value (varTypeToCode .dword)
    writeUint32Value value
  | .float value => do
    writeUint8Value (varTypeToCode .float)
    writeFloatValue value

def serializeVarUpdate (msg : VarUpdateMessage) : EStateM Exception τ Unit := do
  writeMsgBegin .varUpdate
  writeUint32Value msg.subsId
  serializeVarValue msg.varValue
  writeMsgEnd

def serialize (msg : Message) : EStateM Exception τ Unit :=
  match msg with
  | .beginSession msg => serializeBeginSession msg
  | .endSession msg => serializeEndSession msg
  | .subscriptionReq msg => serializeSubscriptionRequest msg
  | .subscriptionRep msg => serializeSubscriptionReply msg
  | .unsubscriptionReq msg => serializeUnsubscriptionRequest msg
  | .unsubscriptionRep msg => serializeUnsubscriptionReply msg
  | .varUpdate msg => serializeVarUpdate msg

/-- Serialize messages one after another. -/
def serializeAll (msgs : List Message) : EStateM Exception τ Unit :=
  match msgs with
  | [] => pure ()
  | msg :: rest => do
    serialize msg
    serializeAll rest

end

/-! ## The word of a message -/

def beginWire (msgType : MessageType) : List UInt8 := toMemory (nativeToBig16 (msgTypeToCode msgType))
def endWire : List UInt8 := toMemory (nativeToBig16 0x0d0a)
def stringWire (value : Str) : List UInt8 := toMemory (nativeToBig16 (UInt16.ofNat value.length)) ++ value
def uint8Wire (value : UInt8) : List UInt8 := toMemory value
def uint16Wire (value : UInt16) : List UInt8 := toMemory (nativeToBig16 value)
def uint32Wire (value : UInt32) : List UInt8 := toMemory (nativeToBig32 value)

def valueWire : VariableValue → List UInt8
  | .bool value => uint8Wire (varTypeToCode .boolean) ++ uint8Wire (if value then 1 else 0)
  | .byte value => uint8Wire (varTypeToCode .byte) ++ uint8Wire value
  | .word value => uint8Wire (varTypeToCode .word) ++ uint16Wire value
  | .dword value => uint8Wire (varTypeToCode .dword) ++ uint32Wire value
  | .float value => uint8Wire (varTypeToCode .float) ++
      (uint32Wire (floatFields value).1 ++ uint32Wire (floatFields value).2)

/-- The fields of a message between its type and its termination mark. -/
def contentsWire : Message → List UInt8
  | .beginSession msg => stringWire msg.pname ++ uint16Wire msg.protoVer
  | .endSession msg => stringWire msg.cause
  | .subscriptionReq msg => stringWire msg.varGrp ++ stringWire msg.varName
  | .subscriptionRep msg => uint8Wire msg.st.code ++ (stringWire msg.varGrp ++ (stringWire msg.varName ++
      (uint32Wire msg.subsId ++ stringWire msg.cause)))
  | .unsubscriptionReq msg => uint32Wire msg.subsId
  | .unsubscriptionRep msg => uint8Wire msg.st.code ++ (uint32Wire msg.subsId ++ stringWire msg.cause)
  | .varUpdate msg => uint32Wire msg.subsId ++ valueWire msg.varValue

/-- The word of a message. -/
def wire (msg : Message) : List UInt8 := beginWire msg.getMessageType ++ (contentsWire msg ++ endWire)

/-- The word of a list of messages. -/
def wires (msgs : List Message) : List UInt8 := msgs.flatMap wire

@[simp] theorem beginWire_length (t : MessageType) : (beginWire t).length = 2 := rfl
@[simp] theorem endWire_length : endWire.length = 2 := rfl
@[simp] theorem stringWire_length (s : Str) : (stringWire s).length = 2 + s.length := by
  rw [stringWire, List.length_append, toMemory_length]
  rfl
@[simp] theorem uint8Wire_length (v : UInt8) : (uint8Wire v).length = 1 := rfl
@[simp] theorem uint16Wire_length (v : UInt16) : (uint16Wire v).length = 2 := rfl
@[simp] theorem uint32Wire_length (v : UInt32) : (uint32Wire v).length = 4 := rfl

@[simp] theorem wires_nil : wires [] = [] := rfl
@[simp] theorem wires_cons (m : Message) (ms : List Message) : wires (m :: ms) = wire m ++ wires ms := rfl
@[simp] theorem wires_append (first second : List Message) :
    wires (first ++ second) = wires first ++ wires second := List.flatMap_append

/-- The length of the word of a message. -/
def Message.size : Message → Nat
  | .beginSession msg => 8 + msg.pname.length
  | .endSession msg => 6 + msg.cause.length
  | .subscriptionReq msg => 8 + msg.varGrp.length + msg.varName.length
  | .subscriptionRep msg => 15 + msg.varGrp.length + msg.varName.length + msg.cause.length
  | .unsubscriptionReq _ => 8
  | .unsubscriptionRep msg => 11 + msg.cause.length
  | .varUpdate msg =>
    match msg.varValue with
    | .bool _ => 10
    | .byte _ => 10
    | .word _ => 11
    | .dword _ => 13
    | .float _ => 17

theorem wire_length (m : Message) : (wire m).length = m.size := by
  cases m with
  | varUpdate msg =>
    obtain ⟨subsId, varValue⟩ := msg
    cases varValue <;> simp [wire, contentsWire, valueWire, Message.size]
  | _ =>
    simp only [wire, contentsWire, Message.size, List.length_append, beginWire_length, endWire_length,
      stringWire_length, uint8Wire_length, uint16Wire_length, uint32Wire_length]
    try omega

theorem wire_length_pos (m : Message) : 0 < (wire m).length := by
  simp [wire]

section
variable {τ : Type} [OutputStream τ] {W : τ → List UInt8 → Prop} {limit : ℕ∞}

theorem writeStringValue_emits (takes : Takes W limit) (value : Str) :
    Emits W limit (writeStringValue value) (stringWire value) :=
  emits_bind (writeAll_emits takes _) (writeAll_emits takes value)

theorem serializeVarValue_emits (takes : Takes W limit) (value : VariableValue) :
    Emits W limit (serializeVarValue value) (valueWire value) := by
  cases value with
  | bool value => exact emits_bind (writeAll_emits takes _) (writeAll_emits takes _)
  | byte value => exact emits_bind (writeAll_emits takes _) (writeAll_emits takes _)
  | word value => exact emits_bind (writeAll_emits takes _) (writeAll_emits takes _)
  | dword value => exact emits_bind (writeAll_emits takes _) (writeAll_emits takes _)
  | float value =>
    exact emits_bind (writeAll_emits takes _) (emits_bind (writeAll_emits takes _) (writeAll_emits takes _))

/-- `serialize` appends the word of the message to a stream with room for it. -/
theorem serialize_emits (takes : Takes W limit) (msg : Message) : Emits W limit (serialize msg) (wire msg) := by
  have mark : Emits W limit writeMsgEnd endWire := writeAll_emits takes _
  refine msg.casesOn ?_ ?_ ?_ ?_ ?_ ?_ ?_
  all_goals
    intro msg
    simp only [wire, contentsWire, List.append_assoc]
  · exact emits_bind (writeAll_emits takes _) (emits_bind (writeStringValue_emits takes _)
      (emits_bind (writeAll_emits takes _) mark))
  · exact emits_bind (writeAll_emits takes _) (emits_bind (writeStringValue_emits takes _) mark)
  · exact emits_bind (writeAll_emits takes _) (emits_bind (writeStringValue_emits takes _)
      (emits_bind (writeStringValue_emits takes _) mark))
  · exact emits_bind (writeAll_emits takes _) (emits_bind (writeAll_emits takes _)
      (emits_bind (writeStringValue_emits takes _) (emits_bind (writeStringValue_emits takes _)
        (emits_bind (writeAll_emits takes _) (emits_bind (writeStringValue_emits takes _) mark)))))
  · exact emits_bind (writeAll_emits takes _) (emits_bind (writeAll_emits takes _) mark)
  · exact emits_bind (writeAll_emits takes _) (emits_bind (writeAll_emits takes _)
      (emits_bind (writeAll_emits takes _) (emits_bind (writeStringValue_emits takes _) mark)))
  · exact emits_bind (writeAll_emits takes _) (emits_bind (writeAll_emits takes _)
      (emits_bind (serializeVarValue_emits takes _) mark))

end

/-- A stream without a limit takes the words of all messages. -/
theorem serializeAll_emits {τ : Type} [OutputStream τ] {W : τ → List UInt8 → Prop} (takes : Takes W ⊤)
    (msgs : List Message) : Emits W ⊤ (serializeAll msgs) (wires msgs) := by
  induction msgs with
  | nil =>
    intro s taken related within
    simp only [wires_nil, List.append_nil]
    exact ⟨fun _ => ⟨s, rfl, related⟩, fun exceeds => absurd within (not_le.mpr exceeds)⟩
  | cons msg rest ih => exact emits_bind (serialize_emits takes msg) ih

end Oac.Proto
