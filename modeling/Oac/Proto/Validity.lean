import Oac.Proto.Codec

/-!
# Enumerators off the wire

The type of a value is compared with the enumerators when it is read, the status of a
reply is not: what byte it is shows in no error, unless the termination mark behind the
fields happens to be wrong (`Misended`).
-/
namespace Oac.Proto
open Base Oac.Stream BinaryMessageDeserializer

/-- The status that a message carries. -/
def Message.status : Message → Option SubscriptionStatus
  | .subscriptionRep msg => some msg.st
  | .unsubscriptionRep msg => some msg.st
  | _ => none

/-- The enumerators that a message carries are declared. -/
def Message.Declared : Message → Prop
  | .subscriptionRep msg => msg.st.code < 6
  | .unsubscriptionRep msg => msg.st.code < 6
  | .varUpdate msg => (variableType msg.varValue).code < 5
  | _ => True

def MessageType.IsReply (t : MessageType) : Prop := t = .subscriptionRep ∨ t = .unsubscriptionRep

/-- The bytes begin a reply up to its status byte. -/
def BeginsReply (bytes : List UInt8) (st : UInt8) : Prop :=
  ∃ t more, t.IsReply ∧ bytes = beginWire t ++ (uint8Wire st ++ more)

/-- The bytes begin an update up to the type byte of its value. -/
def BeginsUpdate (bytes : List UInt8) (varType : UInt8) : Prop :=
  ∃ subsId more, bytes = beginWire .varUpdate ++ (uint32Wire subsId ++ (uint8Wire varType ++ more))

/-- A status or type byte is the code of no enumerator. -/
def Undeclares (bytes : List UInt8) : Prop :=
  (∃ st, BeginsReply bytes st ∧ 6 ≤ st) ∨ ∃ varType, BeginsUpdate bytes varType ∧ 5 ≤ varType

/-- The bytes are a message with a wrong termination mark, and what follows it. -/
def Misended (bytes : List UInt8) : Prop := ∃ m : Message, ∃ mark rest, m.Valid ∧ mark.length = 2 ∧ mark ≠ endWire ∧
  bytes = beginWire m.getMessageType ++ (contentsWire m ++ (mark ++ rest))

/-! ## What was read -/

theorem readAs_spells {α : Type} [Memory α] {ts rest : List UInt8} {v : α} (read : (readAs α).decode ts = (.value v, rest)) :
    ∃ block, block.length = Memory.size α ∧ v = Memory.ofMemory block ∧ ts = block ++ rest := by
  rw [readAs] at read
  by_cases short : ts.length < Memory.size α
  · rw [Decoder.decode_read_short short] at read
    cases read
  · rw [Decoder.decode_read_enough (by omega)] at read
    cases read
    exact ⟨_, List.length_take_of_le (by omega), rfl, (List.take_append_drop _ _).symm⟩

theorem readUint8Value_spells {ts rest : List UInt8} {v : UInt8} (read : readUint8Value.decode ts = (.value v, rest)) :
    ts = uint8Wire v ++ rest := by
  obtain ⟨block, size, rfl, rfl⟩ := readAs_spells read
  obtain ⟨c, rfl⟩ := List.length_eq_one_iff.mp size
  rfl

theorem toMemory_bigToNative16 {block : List UInt8} (size : block.length = 2) :
    Memory.toMemory (nativeToBig16 (bigToNative16 (Memory.ofMemory block))) = block := by
  rw [show nativeToBig16 (bigToNative16 _) = _ from bigToNative16_nativeToBig16 _]
  exact toMemory16_ofMemory16 size

theorem readUint32Value_spells {ts rest : List UInt8} {v : UInt32} (read : readUint32Value.decode ts = (.value v, rest)) :
    ts = uint32Wire v ++ rest := by
  obtain ⟨raw, between, head, tail⟩ := Decoder.decode_bind_value read
  obtain ⟨block, size, rfl, rfl⟩ := readAs_spells head
  cases tail
  rw [uint32Wire, show nativeToBig32 (bigToNative32 _) = _ from bigToNative32_nativeToBig32 _]
  exact congrArg (· ++ rest) (toMemory32_ofMemory32 size).symm

theorem readStringValue_spells {ts rest : List UInt8} {s : Str} (read : readStringValue.decode ts = (.value s, rest)) :
    ts = stringWire s ++ rest ∧ s.length ≤ 0xffff := by
  obtain ⟨raw, between, head, tail⟩ := Decoder.decode_bind_value read
  obtain ⟨block, size, rfl, rfl⟩ := readAs_spells head
  have bound := (bigToNative16 (Memory.ofMemory block)).toNat_lt
  rw [readAsString] at tail
  by_cases short : between.length < (bigToNative16 (Memory.ofMemory block)).toNat
  · rw [Decoder.decode_read_short short] at tail
    cases tail
  · rw [Decoder.decode_read_enough (by omega)] at tail
    cases tail
    have length : (between.take (bigToNative16 (Memory.ofMemory block)).toNat).length =
        (bigToNative16 (Memory.ofMemory block)).toNat := List.length_take_of_le (by omega)
    refine ⟨?_, by rw [length]; omega⟩
    rw [stringWire, length, UInt16.ofNat_toNat, toMemory_bigToNative16 size, List.append_assoc, List.take_append_drop]

/-- Every block of two bytes but the right one is refused as a termination mark. -/
theorem readMsgEnd_decode {mark : List UInt8} (size : mark.length = 2) (rest : List UInt8) :
    readMsgEnd.decode (mark ++ rest) =
      (if mark = endWire then .value () else .error (.invalidTerminationMark (nativeToBig16 (ofMemory16 mark))), rest) := by
  have head := readAs_reads (ofMemory16 mark) rest
  rw [show Memory.toMemory (ofMemory16 mark) = mark from toMemory16_ofMemory16 size] at head
  by_cases right : mark = endWire
  · rw [if_pos right, right]
    exact readMsgEnd_reads rest
  · have odd : nativeToBig16 (ofMemory16 mark) ≠ 0x0d0a := by
      intro same
      apply right
      have back := congrArg (fun eol => toMemory16 (bigToNative16 eol)) same
      simp only [bigToNative16_nativeToBig16] at back
      rw [← toMemory16_ofMemory16 size, back]
      rfl
    show ((readAs UInt16).bind _).decode _ = _
    rw [Decoder.decode_bind, head, if_neg right]
    simp only [odd, ne_eq, not_false_eq_true, ↓reduceIte, Decoder.decode_fail]

theorem readMsgEnd_raises {ts rest : List UInt8} {e : Exception} (raised : readMsgEnd.decode ts = (.error e, rest)) :
    ∃ mark, mark.length = 2 ∧ mark ≠ endWire ∧ ts = mark ++ rest := by
  by_cases short : ts.length < 2
  · have starved : readMsgEnd.decode ts = (.starved, []) := Decoder.decode_read_short short
    rw [starved] at raised
    cases raised
  · have size : (ts.take 2).length = 2 := List.length_take_of_le (by omega)
    have verdict := readMsgEnd_decode size (ts.drop 2)
    rw [List.take_append_drop, raised] at verdict
    obtain ⟨outcome, left⟩ := Prod.mk.inj verdict
    by_cases right : ts.take 2 = endWire
    · rw [if_pos right] at outcome
      cases outcome
    · exact ⟨ts.take 2, size, right, by rw [left, List.take_append_drop]⟩

/-! ## Replies -/

theorem subscriptionReply_spells {ts rest : List UInt8} {msg : SubscriptionReplyMessage}
    (read : deserializeSubscriptionReplyContents.decode ts = (.value msg, rest)) :
    ts = contentsWire (.subscriptionRep msg) ++ rest ∧ (Message.subscriptionRep msg).Valid := by
  obtain ⟨st, ts₁, status, read⟩ := Decoder.decode_bind_value read
  obtain ⟨grp, ts₂, group, read⟩ := Decoder.decode_bind_value read
  obtain ⟨name, ts₃, named, read⟩ := Decoder.decode_bind_value read
  obtain ⟨subsId, ts₄, id, read⟩ := Decoder.decode_bind_value read
  obtain ⟨cause, ts₅, why, read⟩ := Decoder.decode_bind_value read
  cases read
  rw [readUint8Value_spells status, (readStringValue_spells group).1, (readStringValue_spells named).1,
    readUint32Value_spells id, (readStringValue_spells why).1]
  refine ⟨?_, (readStringValue_spells group).2, (readStringValue_spells named).2, (readStringValue_spells why).2⟩
  simp only [contentsWire, SubscriptionStatus.code_ofCode, List.append_assoc]

theorem unsubscriptionReply_spells {ts rest : List UInt8} {msg : UnsubscriptionReplyMessage}
    (read : deserializeUnsubscriptionReplyContents.decode ts = (.value msg, rest)) :
    ts = contentsWire (.unsubscriptionRep msg) ++ rest ∧ (Message.unsubscriptionRep msg).Valid := by
  obtain ⟨st, ts₁, status, read⟩ := Decoder.decode_bind_value read
  obtain ⟨subsId, ts₂, id, read⟩ := Decoder.decode_bind_value read
  obtain ⟨cause, ts₃, why, read⟩ := Decoder.decode_bind_value read
  cases read
  rw [readUint8Value_spells status, readUint32Value_spells id, (readStringValue_spells why).1]
  refine ⟨?_, (readStringValue_spells why).2⟩
  simp only [contentsWire, SubscriptionStatus.code_ofCode, List.append_assoc]

/-- Contents that raise nothing are followed by a wrong termination mark if the message
    raises something. -/
theorem deserializeCase_raises {α : Type} {contents : Decoder UInt8 Exception α} {message : α → Message}
    {ts rest : List UInt8} {e : Exception} (unfailing : contents.Unfailing)
    (raised : (deserializeCase contents message).decode ts = (.error e, rest)) :
    ∃ msg mark between, mark.length = 2 ∧ mark ≠ endWire ∧ contents.decode ts = (.value msg, mark ++ between) := by
  rcases Decoder.decode_bind_error raised with head | ⟨msg, between, read, tail⟩
  · exact absurd head (unfailing.decode _ _ _)
  · rcases Decoder.decode_bind_error tail with head | ⟨_, _, -, done⟩
    · obtain ⟨mark, size, wrong, rfl⟩ := readMsgEnd_raises head
      exact ⟨msg, mark, rest, size, wrong, read⟩
    · cases done

theorem subscriptionReply_unfailing : deserializeSubscriptionReplyContents.Unfailing := fun _ _ _ _ _ _ _ _ => trivial

theorem unsubscriptionReply_unfailing : deserializeUnsubscriptionReplyContents.Unfailing := fun _ _ _ _ => trivial

/-- A reply is refused for its termination mark only. -/
theorem reply_misended {t : MessageType} (reply : t.IsReply) {more rest : List UInt8} {e : Exception}
    (raised : deserialize.decode (beginWire t ++ more) = (.error e, rest)) : Misended (beginWire t ++ more) := by
  rw [deserialize_begins, deserializeContents, msgTypeToCode_back] at raised
  rcases reply with rfl | rfl
  · obtain ⟨msg, mark, between, size, wrong, read⟩ := deserializeCase_raises subscriptionReply_unfailing raised
    obtain ⟨spelled, valid⟩ := subscriptionReply_spells read
    exact ⟨.subscriptionRep msg, mark, between, valid, size, wrong, by rw [spelled]; rfl⟩
  · obtain ⟨msg, mark, between, size, wrong, read⟩ := deserializeCase_raises unsubscriptionReply_unfailing raised
    obtain ⟨spelled, valid⟩ := unsubscriptionReply_spells read
    exact ⟨.unsubscriptionRep msg, mark, between, valid, size, wrong, by rw [spelled]; rfl⟩

theorem Misended.refused {bytes : List UInt8} (misended : Misended bytes) :
    ∃ eol rest, deserialize.decode bytes = (.error (.invalidTerminationMark eol), rest) := by
  obtain ⟨m, mark, rest, valid, size, wrong, rfl⟩ := misended
  refine ⟨nativeToBig16 (ofMemory16 mark), rest, ?_⟩
  rw [deserialize_opens valid, Decoder.decode_bind, readMsgEnd_decode size, if_neg wrong]

/-! ## Messages -/

theorem beginsUpdate_refused {bytes : List UInt8} {varType : UInt8} (begins : BeginsUpdate bytes varType)
    (undeclared : 5 ≤ varType) : ∃ rest, deserialize.decode bytes = (.error (.invalidVariableType varType), rest) := by
  obtain ⟨subsId, more, rfl⟩ := begins
  have unknown : VariableType.ofCode varType = none := by
    have few : 5 ≤ varType.toNat := undeclared
    simp only [VariableType.ofCode, ← UInt8.toNat_inj, UInt8.reduceToNat]
    split_ifs <;> first | rfl | omega
  refine ⟨more, ?_⟩
  rw [deserialize_begins, deserializeContents, msgTypeToCode_back]
  show ((deserializeVarUpdateContents.bind _).decode _) = _
  have contents : deserializeVarUpdateContents.decode (uint32Wire subsId ++ (uint8Wire varType ++ more)) =
      (.error (.invalidVariableType varType), more) := by
    show (readUint32Value.bind fun subsId => (readUint8Value.bind fun varType =>
      (deserializeVarValue varType).bind fun varValue => .done (⟨subsId, varValue⟩ : VarUpdateMessage))).decode _ = _
    rw [Decoder.decode_bind, readUint32Value_reads]
    simp only
    rw [Decoder.decode_bind, readUint8Value_reads]
    simp only [deserializeVarValue, unknown, Decoder.fail_bind, Decoder.decode_fail]
  rw [Decoder.decode_bind, contents]

theorem msgTypeToCode_of_code {code : UInt16} {t : MessageType} (known : codeToMsgType code = t.code) :
    code = msgTypeToCode t := by
  have number : (code.toNat : Int) = 0x700 + t.code := by
    rw [← known, codeToMsgType]
    omega
  apply UInt16.toNat_inj.mp
  cases t <;> exact Int.ofNat_inj.mp number

/-- A message is read off bytes that begin with the code of its type. -/
theorem deserialize_typed {bytes rest : List UInt8} {m : Message} (read : deserialize.decode bytes = (.value m, rest)) :
    ∃ t more, bytes = beginWire t ++ more := by
  obtain ⟨code, more, typed, contents⟩ := Decoder.decode_bind_value read
  obtain ⟨raw, between, head, tail⟩ := Decoder.decode_bind_value typed
  obtain ⟨block, size, rfl, rfl⟩ := readAs_spells head
  cases tail
  cases known : MessageType.ofCode (codeToMsgType (bigToNative16 (Memory.ofMemory block))) with
  | none =>
    rw [deserializeContents, known] at contents
    cases contents
  | some t =>
    refine ⟨t, more, congrArg (· ++ more) ?_⟩
    rw [beginWire, ← msgTypeToCode_of_code (MessageType.code_of_ofCode known), toMemory_bigToNative16 size]

theorem deserializeCase_value {α : Type} {contents : Decoder UInt8 Exception α} {message : α → Message}
    {ts rest : List UInt8} {m : Message} (read : (deserializeCase contents message).decode ts = (.value m, rest)) :
    ∃ msg between, contents.decode ts = (.value msg, between) ∧ m = message msg := by
  obtain ⟨msg, between, head, tail⟩ := Decoder.decode_bind_value read
  obtain ⟨_, _, -, done⟩ := Decoder.decode_bind_value tail
  cases done
  exact ⟨msg, between, head, rfl⟩

/-- A message whose enumerators are not all declared is a reply that begins with such a
    status. -/
theorem declared_or_begins {bytes rest : List UInt8} {m : Message} (read : deserialize.decode bytes = (.value m, rest)) :
    m.Declared ∨ ∃ st, BeginsReply bytes st ∧ 6 ≤ st := by
  obtain ⟨t, more, rfl⟩ := deserialize_typed read
  rw [deserialize_begins, deserializeContents, msgTypeToCode_back] at read
  cases t with
  | subscriptionRep =>
    obtain ⟨msg, between, contents, rfl⟩ := deserializeCase_value read
    obtain ⟨rfl, -⟩ := subscriptionReply_spells contents
    by_cases declared : msg.st.code < 6
    · exact .inl declared
    · have begins : BeginsReply (beginWire .subscriptionRep ++ (contentsWire (.subscriptionRep msg) ++ between)) msg.st.code :=
        ⟨_, _, .inl rfl, congrArg _ (List.append_assoc _ _ _)⟩
      exact .inr ⟨msg.st.code, begins, UInt8.not_lt.mp declared⟩
  | unsubscriptionRep =>
    obtain ⟨msg, between, contents, rfl⟩ := deserializeCase_value read
    obtain ⟨rfl, -⟩ := unsubscriptionReply_spells contents
    by_cases declared : msg.st.code < 6
    · exact .inl declared
    · have begins : BeginsReply (beginWire .unsubscriptionRep ++ (contentsWire (.unsubscriptionRep msg) ++ between)) msg.st.code :=
        ⟨_, _, .inr rfl, congrArg _ (List.append_assoc _ _ _)⟩
      exact .inr ⟨msg.st.code, begins, UInt8.not_lt.mp declared⟩
  | varUpdate =>
    obtain ⟨msg, between, contents, rfl⟩ := deserializeCase_value read
    left
    show (variableType msg.varValue).code < 5
    cases variableType msg.varValue <;> decide
  | _ =>
    obtain ⟨msg, between, contents, rfl⟩ := deserializeCase_value read
    exact .inl trivial

/-- What `deserialize` is to do with bytes: return declared enumerators only, and refuse
    others by a protocol exception. -/
structure Validates (bytes : List UInt8) : Prop where
  declared : ∀ m rest, deserialize.decode bytes = (.value m, rest) → m.Declared
  refused : Undeclares bytes → ∃ e rest, e.IsProtocol ∧ deserialize.decode bytes = (.error e, rest)

theorem validates_iff {bytes : List UInt8} :
    Validates bytes ↔ ∀ st, BeginsReply bytes st → 6 ≤ st → Misended bytes := by
  constructor
  · intro validates st begins undeclared
    obtain ⟨e, rest, -, raised⟩ := validates.refused (.inl ⟨st, begins, undeclared⟩)
    obtain ⟨t, more, reply, rfl⟩ := begins
    exact reply_misended reply raised
  · intro misended
    constructor
    · intro m rest read
      rcases declared_or_begins read with declared | ⟨st, begins, undeclared⟩
      · exact declared
      · obtain ⟨eol, rest', raised⟩ := (misended st begins undeclared).refused
        rw [raised] at read
        cases read
    · rintro (⟨st, begins, undeclared⟩ | ⟨varType, begins, undeclared⟩)
      · obtain ⟨eol, rest, raised⟩ := (misended st begins undeclared).refused
        exact ⟨.invalidTerminationMark eol, rest, trivial, raised⟩
      · obtain ⟨rest, raised⟩ := beginsUpdate_refused begins undeclared
        exact ⟨.invalidVariableType varType, rest, trivial, raised⟩

end Oac.Proto
