import Oac.Buffer.Ring
import Oac.Proto.Codec

/-!
# Messages in input buffers

What `deserialize` makes of the content of a ring buffer. A full buffer whose content
begins with the last byte of the memory cannot even be asked for a message type; every
other buffer gives the verdict of the decoder on its content.
-/
namespace Oac.Proto
open Base Oac.Stream

/-- The decoder after its first read. -/
theorem deserialize_first : deserialize =
    .read 2 fun block => deserializeContents (codeToMsgType (bigToNative16 (Memory.ofMemory block))) := rfl

theorem deserializeFrom_ring {s : RingBuffer} (ok : s.Ok) (large : 2 ≤ s.capacity) (fits : ¬ s.Straddles 2) :
    ∃ s', deserializeFrom s = (deserialize.decode s.content).1.result .eof s' ∧
      RingBuffer.Holds s s' (deserialize.decode s.content).2 := by
  have size := RingBuffer.content_length ok.layout
  by_cases unfull : s.bytesWritten < s.capacity
  · have holds : RingBuffer.Holds s s s.content := ⟨ok, rfl, by omega, rfl, rfl, rfl, fun _ => rfl⟩
    exact Decoder.run_follows (readAll_delivers (RingBuffer.serves s)) deserialize holds
  · have room := ok.room
    obtain ⟨s₁, executed, advanced⟩ := RingBuffer.read_advances ok.layout fits
    have two : min 2 s.bytesWritten = 2 := by omega
    rw [two] at advanced
    have taken : (s.content.take 2).length = 2 := by simp; omega
    have first : readAll 2 s = .ok (s.content.take 2) s₁ := by
      have once : InputStream.read 2 s = .ok (s.content.take 2) s₁ := executed
      have rest : readAll 0 s₁ = .ok [] s₁ := by rw [readAll]; rfl
      rw [readAll, if_neg (by decide), ok_bind once, taken, if_neg (by decide), ok_bind rest]
      simp only [pure, EStateM.pure, List.append_nil]
    have holds : RingBuffer.Holds s s₁ (s.content.drop 2) :=
      ⟨advanced.ok ok, advanced.content ok.layout, by rw [advanced.capacity, List.length_drop]; omega, advanced.capacity,
        advanced.behind, advanced.markKept, advanced.resets⟩
    obtain ⟨s', continued, left⟩ := Decoder.run_follows (readAll_delivers (RingBuffer.serves s))
      (deserializeContents (codeToMsgType (bigToNative16 (Memory.ofMemory (s.content.take 2))))) holds
    rw [deserialize_first, Decoder.decode_read_enough (by omega)]
    refine ⟨s', ?_, left⟩
    unfold deserializeFrom
    rw [deserialize_first]
    exact (ok_bind first).trans continued

/-- A read that straddles is refused before anything is read. -/
theorem deserializeFrom_straddles {s : RingBuffer} (ok : s.Ok) (straddles : s.Straddles 2) :
    deserializeFrom s = .error (s.fixedBuffer.outOfBounds s.readIndex (min 2 s.bytesWritten)) s := by
  have refused : InputStream.read 2 s = .error (s.fixedBuffer.outOfBounds s.readIndex (min 2 s.bytesWritten)) s :=
    RingBuffer.read_straddles ok.layout ok.addressable straddles
  have first : readAll 2 s = .error (s.fixedBuffer.outOfBounds s.readIndex (min 2 s.bytesWritten)) s := by
    rw [readAll, if_neg (by decide), error_bind refused]
  unfold deserializeFrom
  rw [deserialize_first]
  exact error_bind first

/-- The buffer is full and its content begins with the last byte of the memory. -/
def FillsAtEnd (s : RingBuffer) : Prop := s.readIndex + 1 = s.capacity ∧ s.bytesWritten = s.capacity

theorem straddles_iff {s : RingBuffer} (ok : s.Ok) (large : 2 ≤ s.capacity) : s.Straddles 2 ↔ FillsAtEnd s := by
  have readBound := ok.readBound
  have writeBound := ok.writeBound
  have room := ok.room
  unfold RingBuffer.Straddles RingBuffer.isBroken FillsAtEnd
  rcases ok.writeIndex_cases with h | h | h <;> omega

/-! ## Streams of messages -/

/-- The bytes begin with two complete messages. -/
def BeginsWithTwo (bytes : List UInt8) : Prop := ∃ m rest m' rest',
  deserialize.decode bytes = (.value m, rest) ∧ deserialize.decode rest = (.value m', rest')

/-- The bytes begin with a complete message. -/
def BeginsWithMessage (bytes : List UInt8) : Prop := ∃ m rest, deserialize.decode bytes = (.value m, rest)

theorem not_beginsWithMessage_nil : ¬ BeginsWithMessage [] := by
  rintro ⟨m, rest, verdict⟩
  exact absurd (deserialize_shorter verdict) (Nat.not_lt_zero _)

/-- The first bytes of the words of valid messages decode to the first of the messages, or
    not yet to any. -/
theorem decode_stream {content : List UInt8} {ms : List Message} (valid : ∀ m ∈ ms, m.Valid)
    (stream : content <+: wires ms) :
    (∃ m rest tail, ms = m :: rest ∧ content = wire m ++ tail ∧ tail <+: wires rest ∧
      deserialize.decode content = (.value m, tail)) ∨ (deserialize.decode content).1 = .starved := by
  cases ms with
  | nil =>
    rw [wires_nil, List.prefix_nil] at stream
    subst stream
    exact .inr rfl
  | cons m rest =>
    have read := deserialize_reads (valid m List.mem_cons_self)
    rcases List.prefix_or_prefix_of_prefix stream (List.prefix_append (wire m) (wires rest)) with short | long
    · obtain ⟨more, split⟩ := short
      by_cases whole : more = []
      · subst whole
        rw [List.append_nil] at split
        subst split
        exact .inl ⟨m, rest, [], rfl, (List.append_nil _).symm, List.nil_prefix,
          deserialize_accepts (valid m List.mem_cons_self)⟩
      · have accepted := deserialize_accepts (valid m List.mem_cons_self)
        rw [← split] at accepted
        exact .inr (Decoder.starved_of_prefix accepted whole)
    · obtain ⟨tail, split⟩ := long
      subst split
      rw [wires_cons, List.prefix_append_right_inj] at stream
      exact .inl ⟨m, rest, tail, rfl, rfl, stream, read tail⟩

theorem valid_later {ms before later : List Message} (valid : ∀ m ∈ ms, m.Valid) (split : ms = before ++ later) :
    ∀ m ∈ later, m.Valid := by
  intro m member
  apply valid
  rw [split]
  exact List.mem_append_right _ member

end Oac.Proto
