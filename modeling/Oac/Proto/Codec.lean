import Oac.Proto.Deserial
import Oac.Proto.Serial

/-!
# The serializer and the deserializer together

`deserialize` reads every valid message off its word (`deserialize_reads`), so lists of
messages survive the trip over any two streams, and the decoder waits for more bytes
exactly while the bytes it has can still become a message.
-/
namespace Oac.Proto
open Base Oac.Stream BinaryMessageDeserializer

/-! ## Valid messages -/

/-- The value is the same after its trip over the wire. Only a `float` may change. -/
def Portable : VariableValue → Prop
  | .float value => floatOfFields (floatFields value).1 (floatFields value).2 = value
  | _ => True

/-- The strings fit their 16 bit lengths and the value is portable. -/
def Message.Valid : Message → Prop
  | .beginSession msg => msg.pname.length ≤ 0xffff
  | .endSession msg => msg.cause.length ≤ 0xffff
  | .subscriptionReq msg => msg.varGrp.length ≤ 0xffff ∧ msg.varName.length ≤ 0xffff
  | .subscriptionRep msg =>
    msg.varGrp.length ≤ 0xffff ∧ msg.varName.length ≤ 0xffff ∧ msg.cause.length ≤ 0xffff
  | .unsubscriptionReq _ => True
  | .unsubscriptionRep msg => msg.cause.length ≤ 0xffff
  | .varUpdate msg => Portable msg.varValue

/-! ## Fields -/

theorem msgTypeToCode_back (t : MessageType) : MessageType.ofCode (codeToMsgType (msgTypeToCode t)) = some t := by
  cases t <;> rfl

theorem nativeToBig16_length (s : Str) (short : s.length ≤ 0xffff) :
    (bigToNative16 (nativeToBig16 (UInt16.ofNat s.length))).toNat = s.length := by
  rw [bigToNative16_nativeToBig16, UInt16.toNat_ofNat']
  omega

theorem readMsgEnd_reads : readMsgEnd.Reads endWire () := by
  have mark := Decoder.reads_bind (readAs_reads (nativeToBig16 0x0d0a)) (f := fun mark =>
    if nativeToBig16 mark ≠ 0x0d0a then .fail (Exception.invalidTerminationMark (nativeToBig16 mark)) else .done ())
    (Decoder.reads_done ())
  exact mark

theorem readUint8Value_reads (v : UInt8) : readUint8Value.Reads (uint8Wire v) v := readAs_reads v

theorem readUint16Value_reads (v : UInt16) : readUint16Value.Reads (uint16Wire v) v := by
  have field : readUint16Value.Reads (uint16Wire v) (bigToNative16 (nativeToBig16 v)) :=
    Decoder.reads_map (readAs_reads (nativeToBig16 v))
  rwa [bigToNative16_nativeToBig16] at field

theorem readUint32Value_reads (v : UInt32) : readUint32Value.Reads (uint32Wire v) v := by
  have field : readUint32Value.Reads (uint32Wire v) (bigToNative32 (nativeToBig32 v)) :=
    Decoder.reads_map (readAs_reads (nativeToBig32 v))
  rwa [bigToNative32_nativeToBig32] at field

theorem readStringValue_reads {s : Str} (short : s.length ≤ 0xffff) : readStringValue.Reads (stringWire s) s :=
  Decoder.reads_bind (readAs_reads _) (readAsString_reads (nativeToBig16_length s short).symm)

theorem readFloatValue_reads (sig exp : UInt32) :
    readFloatValue.Reads (uint32Wire sig ++ uint32Wire exp) (floatOfFields sig exp) :=
  Decoder.reads_bind (readUint32Value_reads sig) (Decoder.reads_map (readUint32Value_reads exp))

/-! ## Messages -/

/-- A value after its type. -/
theorem deserializeVarValue_reads {value : VariableValue} (portable : Portable value) :
    (readUint8Value.bind deserializeVarValue).Reads (valueWire value) value := by
  cases value with
  | bool value =>
    have bit : (deserializeVarValue (varTypeToCode .boolean)).Reads (uint8Wire (if value then 1 else 0))
        (.bool (decide ((0 : UInt8) < if value then 1 else 0))) := Decoder.reads_map (readUint8Value_reads _)
    refine Decoder.reads_bind (readUint8Value_reads _) ?_
    cases value <;> exact bit
  | byte value =>
    exact Decoder.reads_bind (readUint8Value_reads _) (Decoder.reads_map (g := VariableValue.byte) (readUint8Value_reads value))
  | word value =>
    exact Decoder.reads_bind (readUint8Value_reads _) (Decoder.reads_map (g := VariableValue.word) (readUint16Value_reads value))
  | dword value =>
    exact Decoder.reads_bind (readUint8Value_reads _) (Decoder.reads_map (g := VariableValue.dword) (readUint32Value_reads value))
  | float value =>
    have fields := Decoder.reads_map (g := VariableValue.float)
      (readFloatValue_reads (floatFields value).1 (floatFields value).2)
    rw [show floatOfFields (floatFields value).1 (floatFields value).2 = value from portable] at fields
    exact Decoder.reads_bind (readUint8Value_reads _) fields

theorem deserializeCase_decode {α : Type} {contents : Decoder UInt8 Exception α} {message : α → Message}
    {word : List UInt8} {msg : α} (reads : contents.Reads word msg) (more : List UInt8) :
    (deserializeCase contents message).decode (word ++ more) =
      (readMsgEnd.bind fun _ => .done (message msg)).decode more := by
  show (contents.bind _).decode _ = _
  rw [Decoder.decode_bind, reads]
  rfl

/-- Behind the type of a message its contents are read. -/
theorem deserialize_begins (t : MessageType) (more : List UInt8) : deserialize.decode (beginWire t ++ more) =
    (deserializeContents (codeToMsgType (msgTypeToCode t))).decode more := by
  have typed : readMsgBegin.Reads (beginWire t) (codeToMsgType (bigToNative16 (nativeToBig16 (msgTypeToCode t)))) :=
    Decoder.reads_map (readAs_reads (nativeToBig16 (msgTypeToCode t)))
  rw [bigToNative16_nativeToBig16] at typed
  show (readMsgBegin.bind deserializeContents).decode _ = _
  rw [Decoder.decode_bind, typed]

/-- Behind the contents of a valid message its termination mark is read. -/
theorem deserialize_opens {m : Message} (valid : m.Valid) (more : List UInt8) :
    deserialize.decode (beginWire m.getMessageType ++ (contentsWire m ++ more)) =
      (readMsgEnd.bind fun _ => .done m).decode more := by
  rw [deserialize_begins, deserializeContents, msgTypeToCode_back]
  cases m with
  | beginSession msg =>
    exact deserializeCase_decode (Decoder.reads_bind (readStringValue_reads valid)
      (Decoder.reads_map (readUint16Value_reads _))) more
  | endSession msg => exact deserializeCase_decode (Decoder.reads_map (readStringValue_reads valid)) more
  | subscriptionReq msg =>
    exact deserializeCase_decode (Decoder.reads_bind (readStringValue_reads valid.1)
      (Decoder.reads_map (readStringValue_reads valid.2))) more
  | subscriptionRep msg =>
    have contents : deserializeSubscriptionReplyContents.Reads (contentsWire (.subscriptionRep msg))
        { msg with st := SubscriptionStatus.ofCode msg.st.code } :=
      Decoder.reads_bind (readUint8Value_reads _) (Decoder.reads_bind (readStringValue_reads valid.1)
        (Decoder.reads_bind (readStringValue_reads valid.2.1) (Decoder.reads_bind (readUint32Value_reads _)
          (Decoder.reads_map (readStringValue_reads valid.2.2)))))
    rw [SubscriptionStatus.ofCode_code] at contents
    exact deserializeCase_decode contents more
  | unsubscriptionReq msg => exact deserializeCase_decode (Decoder.reads_map (readUint32Value_reads _)) more
  | unsubscriptionRep msg =>
    have contents : deserializeUnsubscriptionReplyContents.Reads (contentsWire (.unsubscriptionRep msg))
        { msg with st := SubscriptionStatus.ofCode msg.st.code } :=
      Decoder.reads_bind (readUint8Value_reads _) (Decoder.reads_bind (readUint32Value_reads _)
        (Decoder.reads_map (readStringValue_reads valid)))
    rw [SubscriptionStatus.ofCode_code] at contents
    exact deserializeCase_decode contents more
  | varUpdate msg =>
    have contents : ((readUint8Value.bind deserializeVarValue).bind fun value =>
        .done (⟨msg.subsId, value⟩ : VarUpdateMessage)).Reads (valueWire msg.varValue) msg :=
      Decoder.reads_map (deserializeVarValue_reads valid)
    exact deserializeCase_decode (Decoder.reads_bind (readUint32Value_reads _) contents) more

/-- `deserialize` reads every valid message off its word. -/
theorem deserialize_reads {m : Message} (valid : m.Valid) : deserialize.Reads (wire m) m := by
  intro more
  rw [wire, List.append_assoc, List.append_assoc, deserialize_opens valid]
  exact Decoder.reads_map readMsgEnd_reads more

theorem deserialize_accepts {m : Message} (valid : m.Valid) : deserialize.Accepts (wire m) m :=
  Decoder.accepts_iff_reads.mpr (deserialize_reads valid)

theorem serializeAll_deserializeAll {σ : Type} [InputStream σ] {R : σ → List UInt8 → Prop} (serves : Serves R)
    {ms : List Message} (valid : ∀ m ∈ ms, m.Valid) {s : σ} {trailing : List UInt8}
    (related : R s (wires ms ++ trailing)) :
    ∃ s', deserializeAll ms.length s = .ok ms s' ∧ R s' trailing := by
  induction ms generalizing s with
  | nil => exact ⟨s, rfl, related⟩
  | cons m rest ih =>
    rw [wires_cons, List.append_assoc] at related
    obtain ⟨s', executed, left⟩ := deserializeFrom_follows serves related
    rw [deserialize_reads (valid m List.mem_cons_self)] at executed left
    obtain ⟨s'', continued, leftAll⟩ := ih (fun m' member => valid m' (List.mem_cons_of_mem m member)) left
    refine ⟨s'', ?_, leftAll⟩
    rw [List.length_cons, deserializeAll, ok_bind executed, ok_bind continued]
    rfl

/-- Messages written to any stream one after another are read back from any stream that
    holds what was written, and nothing behind them is read. -/
theorem codec_round_trip {σ τ : Type} [InputStream σ] [OutputStream τ] {R : σ → List UInt8 → Prop}
    {W : τ → List UInt8 → Prop} (serves : Serves R) (takes : Takes W ⊤) (ms : List Message)
    (valid : ∀ m ∈ ms, m.Valid) (t : τ) (taken : List UInt8) (empty : W t taken) :
    ∃ written t', serializeAll ms t = .ok () t' ∧ W t' (taken ++ written) ∧
      ∀ s trailing, R s (written ++ trailing) →
        ∃ s', deserializeAll ms.length s = .ok ms s' ∧ R s' trailing := by
  obtain ⟨t', executed, left⟩ := (serializeAll_emits takes ms t taken empty le_top).1 le_top
  exact ⟨wires ms, t', executed, left, fun s trailing related =>
    serializeAll_deserializeAll serves valid related⟩

theorem codec_round_trip_trickle : ∃ written t',
    serializeAll [.beginSession ⟨text "fcu", 0x100⟩, .varUpdate ⟨7, .word 0xbeef⟩] (⟨[]⟩ : Trickle) = .ok () t' ∧
      t'.bytes = [] ++ written ∧ ∀ (s : Trickle) (trailing : List UInt8), s.bytes = written ++ trailing →
        ∃ s', deserializeAll 2 s = .ok [.beginSession ⟨text "fcu", 0x100⟩, .varUpdate ⟨7, .word 0xbeef⟩] s' ∧
          s'.bytes = trailing :=
  codec_round_trip trickle_serves trickle_takes _ (by simp [Message.Valid, Portable]; decide) ⟨[]⟩ [] rfl

/-! ## Incomplete messages -/

open Decoder in
theorem readStringValue_steady : readStringValue.Steady := by
  have live : readStringValue.Live := live_of_reads (readStringValue_reads (s := []) (by simp))
  refine ⟨⟨live, fun block _ => ⟨?_, fun _ _ => trivial⟩⟩, live⟩
  exact live_of_reads (readAsString_reads (List.length_replicate (n := _) (a := 0)))

theorem readUint8Value_steady : readUint8Value.Steady :=
  have live := Decoder.live_of_reads (readUint8Value_reads 0)
  ⟨⟨live, fun _ _ => trivial⟩, live⟩

theorem readUint16Value_steady : readUint16Value.Steady :=
  have live := Decoder.live_of_reads (readUint16Value_reads 0)
  ⟨⟨live, fun _ _ => trivial⟩, live⟩

theorem readUint32Value_steady : readUint32Value.Steady :=
  have live := Decoder.live_of_reads (readUint32Value_reads 0)
  ⟨⟨live, fun _ _ => trivial⟩, live⟩

theorem readMsgEnd_steady : readMsgEnd.Steady := by
  have live := Decoder.live_of_reads readMsgEnd_reads
  refine ⟨⟨live, fun block _ => ?_⟩, live⟩
  show Decoder.Hopeful (if nativeToBig16 _ ≠ 0x0d0a then _ else _)
  split <;> trivial

theorem deserializeVarValue_hopeful (varType : UInt8) : (deserializeVarValue varType).Hopeful := by
  unfold deserializeVarValue
  split
  · exact (Decoder.steady_bind readUint8Value_steady fun _ => Decoder.steady_done _).hopeful
  · exact (Decoder.steady_bind readUint8Value_steady fun _ => Decoder.steady_done _).hopeful
  · exact (Decoder.steady_bind readUint16Value_steady fun _ => Decoder.steady_done _).hopeful
  · exact (Decoder.steady_bind readUint32Value_steady fun _ => Decoder.steady_done _).hopeful
  · exact (Decoder.steady_bind (Decoder.steady_bind readUint32Value_steady fun _ =>
      Decoder.steady_bind readUint32Value_steady fun _ => Decoder.steady_done _)
      fun _ => Decoder.steady_done _).hopeful
  · trivial

/-- Not every type byte can go on to a value, but before it is read every one can come. -/
theorem varValue_steady : (readUint8Value.bind deserializeVarValue).Steady := by
  have byte : Portable (.byte 0) := trivial
  have live := Decoder.live_of_reads (deserializeVarValue_reads byte)
  exact ⟨⟨live, fun _ _ => deserializeVarValue_hopeful _⟩, live⟩

theorem deserializeVarUpdateContents_steady : deserializeVarUpdateContents.Steady := by
  refine Decoder.steady_bind readUint32Value_steady fun subsId => ?_
  have contents : ((readUint8Value.bind deserializeVarValue).bind fun value =>
      .done (⟨subsId, value⟩ : VarUpdateMessage)).Steady :=
    Decoder.steady_bind varValue_steady fun _ => Decoder.steady_done _
  exact contents

theorem deserializeCase_steady {α : Type} {contents : Decoder UInt8 Exception α} {message : α → Message}
    (steady : contents.Steady) : (deserializeCase contents message).Steady :=
  Decoder.steady_bind steady fun _ => Decoder.steady_bind readMsgEnd_steady fun _ => Decoder.steady_done _

theorem deserializeContents_hopeful (msgBegin : Int) : (deserializeContents msgBegin).Hopeful := by
  unfold deserializeContents
  split
  · exact (deserializeCase_steady (Decoder.steady_bind readStringValue_steady fun _ =>
      Decoder.steady_bind readUint16Value_steady fun _ => Decoder.steady_done _)).hopeful
  · exact (deserializeCase_steady (Decoder.steady_bind readStringValue_steady fun _ =>
      Decoder.steady_done _)).hopeful
  · exact (deserializeCase_steady (Decoder.steady_bind readStringValue_steady fun _ =>
      Decoder.steady_bind readStringValue_steady fun _ => Decoder.steady_done _)).hopeful
  · exact (deserializeCase_steady (Decoder.steady_bind readUint8Value_steady fun _ =>
      Decoder.steady_bind readStringValue_steady fun _ => Decoder.steady_bind readStringValue_steady fun _ =>
        Decoder.steady_bind readUint32Value_steady fun _ => Decoder.steady_bind readStringValue_steady fun _ =>
          Decoder.steady_done _)).hopeful
  · exact (deserializeCase_steady (Decoder.steady_bind readUint32Value_steady fun _ =>
      Decoder.steady_done _)).hopeful
  · exact (deserializeCase_steady (Decoder.steady_bind readUint8Value_steady fun _ =>
      Decoder.steady_bind readUint32Value_steady fun _ => Decoder.steady_bind readStringValue_steady fun _ =>
        Decoder.steady_done _)).hopeful
  · exact (deserializeCase_steady deserializeVarUpdateContents_steady).hopeful
  · trivial

/-- While `deserialize` waits for a field, some continuation makes a message. -/
theorem deserialize_hopeful : deserialize.Hopeful :=
  ⟨Decoder.live_of_reads (deserialize_reads (m := .unsubscriptionReq ⟨0⟩) trivial),
    fun _ _ => deserializeContents_hopeful _⟩

/-- The bytes are one message, neither more nor less. -/
def Accepted (bytes : List UInt8) : Prop := ∃ m, deserializeFrom bytes = .ok m []

theorem accepted_iff {bytes : List UInt8} : Accepted bytes ↔ ∃ m, deserialize.Accepts bytes m := by
  obtain ⟨s', executed, left⟩ := deserializeFrom_follows bytes_serves (rfl : bytes = bytes)
  unfold Accepted Decoder.Accepts
  rw [executed]
  rcases verdict : deserialize.decode bytes with ⟨outcome, rest⟩
  rw [verdict] at left
  subst left
  cases outcome <;> simp [Outcome.result]

/-- The stream's `eof_error` is the only one: the decoder raises none of its own. -/
theorem deserializeFrom_eof {σ : Type} [InputStream σ] {R : σ → List UInt8 → Prop} (serves : Serves R) {s : σ}
    {held : List UInt8} (related : R s held) :
    (∃ t, deserializeFrom s = .error .eof t) ↔ (deserialize.decode held).1 = .starved := by
  obtain ⟨s', executed, left⟩ := deserializeFrom_follows serves related
  rw [executed]
  rcases verdict : deserialize.decode held with ⟨outcome, rest⟩
  cases outcome with
  | value m => simp [Outcome.result]
  | error e =>
    have raised := failsByProtocol_decode deserialize_fails verdict
    have other : e ≠ .eof := fun same => by subst same; exact raised
    simp [Outcome.result, other]
  | starved => simp [Outcome.result]

/-- The decoder says that its input is incomplete exactly when it is: a verdict on some
    bytes stays when more follow; the strict prefixes of a message are incomplete; and what
    is incomplete, less the field it stops in, begins a message. -/
theorem deserialize_incomplete {σ : Type} [InputStream σ] {R : σ → List UInt8 → Prop} (serves : Serves R) :
    (∀ b c s s', R s b → R s' (b ++ c) → (¬ ∃ t, deserializeFrom s = .error .eof t) →
      (∃ m rest t t', deserializeFrom s = .ok m t ∧ R t rest ∧
        deserializeFrom s' = .ok m t' ∧ R t' (rest ++ c)) ∨
      (∃ e rest t t', e.IsProtocol ∧ deserializeFrom s = .error e t ∧ R t rest ∧
        deserializeFrom s' = .error e t' ∧ R t' (rest ++ c))) ∧
    (∀ b c s, R s b → Accepted (b ++ c) → c ≠ [] → ∃ t, deserializeFrom s = .error .eof t) ∧
    (∀ b s, R s b → (∃ t, deserializeFrom s = .error .eof t) →
      ∃ field c, b = deserialize.completed b ++ field ∧ field.length < deserialize.awaited b ∧
        Accepted (deserialize.completed b ++ c)) := by
  refine ⟨?_, ?_, ?_⟩
  · intro b c s s' related extended fed
    rw [deserializeFrom_eof serves related] at fed
    obtain ⟨t, executed, left⟩ := deserializeFrom_follows serves related
    obtain ⟨t', executed', left'⟩ := deserializeFrom_follows serves extended
    rw [Decoder.decode_append deserialize b c fed] at executed' left'
    rcases verdict : deserialize.decode b with ⟨outcome, rest⟩
    rw [verdict] at fed executed left executed' left'
    cases outcome with
    | value m => exact .inl ⟨m, rest, t, t', executed, left, executed', left'⟩
    | error e =>
      exact .inr ⟨e, rest, t, t', failsByProtocol_decode deserialize_fails verdict, executed, left, executed', left'⟩
    | starved => exact absurd rfl fed
  · intro b c s related whole strict
    obtain ⟨m, accepted⟩ := accepted_iff.mp whole
    exact (deserializeFrom_eof serves related).mpr (Decoder.starved_of_prefix accepted strict)
  · intro b s related eof
    have starved := (deserializeFrom_eof serves related).mp eof
    obtain ⟨field, split, bound⟩ := Decoder.completed_starved starved
    obtain ⟨word, m, accepted, c, whole⟩ := Decoder.completed_extends deserialize_hopeful starved
    exact ⟨field, c, split, bound, accepted_iff.mpr ⟨m, by rw [whole]; exact accepted⟩⟩

theorem deserialize_incomplete_trickle : ∃ t, deserializeFrom (⟨[0x07, 0x04]⟩ : Trickle) = .error .eof t :=
  (deserialize_incomplete trickle_serves).2.1 [0x07, 0x04] [0, 0, 0, 7, 0x0d, 0x0a] _ rfl
    (accepted_iff.mpr ⟨_, deserialize_accepts (m := .unsubscriptionReq ⟨7⟩) trivial⟩) (by simp)

end Oac.Proto
