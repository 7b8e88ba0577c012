import Oac.Base.Decoder
import Oac.Endian
import Oac.Errors
import Mathlib.Data.ENat.Basic

/-!
# Streams

The functions of `liboac/stream/functions.h` over any stream. A read may return fewer
bytes than it was asked for and a write may take fewer than it was offered; the
functions here go on until all bytes are transferred.
-/
namespace Oac
open Base

/-- The InputStream concept: `read(dest, count)` stores at most `count` bytes. -/
class InputStream (σ : Type) where
  read : Nat → EStateM Exception σ (List UInt8)

/-- The OutputStream concept: `write(src, count)` returns the number of bytes taken. -/
class OutputStream (τ : Type) where
  write : List UInt8 → EStateM Exception τ Nat

namespace Stream
variable {σ τ : Type}

/-- `stream::read_all`. -/
def readAll [InputStream σ] (count : Nat) : EStateM Exception σ (List UInt8) :=
  if count = 0 then pure []
  else do
    let block ← InputStream.read count
    if block.length = 0 then throw .eof
    else
      let rest ← readAll (count - block.length)
      pure (block ++ rest)
termination_by count

/-- `stream::write_all`. -/
def writeAll [OutputStream τ] (src : List UInt8) : EStateM Exception τ Unit :=
  if src = [] then pure ()
  else do
    let nwrite ← OutputStream.write src
    if nwrite = 0 then throw .eof
    else writeAll (src.drop nwrite)
termination_by src.length
decreasing_by
  have := List.length_pos_iff.mpr ‹_›
  simp; omega

/-- `stream::read_as`, for a program that reads blocks. -/
def readAs (α : Type) [Memory α] : Decoder UInt8 Exception α :=
  .read (Memory.size α) fun block => .done (Memory.ofMemory block : α)
/-- `stream::read_as_string`, for a program that reads blocks. -/
def readAsString (len : UInt16) : Decoder UInt8 Exception Str :=
  .read len.toNat fun block => .done block
/-- `stream::write_as`. -/
def writeAs [OutputStream τ] {α : Type} [Memory α] (t : α) : EStateM Exception τ Unit :=
  writeAll (Memory.toMemory t)
/-- `stream::write_as_string`. -/
def writeAsString [OutputStream τ] (str : Str) : EStateM Exception τ Unit := writeAll str

/-! ## Reading -/

theorem readAs_reads {α : Type} [Memory α] (v : α) : (readAs α).Reads (Memory.toMemory v) v := by
  intro more
  rw [readAs, ← Memory.toMemory_length v, Decoder.decode_read_append, Memory.ofMemory_toMemory]
  rfl
theorem readAsString_reads {len : UInt16} {str : Str} (same : str.length = len.toNat) :
    (readAsString len).Reads str str := by
  intro more
  rw [readAsString, ← same, Decoder.decode_read_append]
  rfl

/-- A stream whose states `R` relates to the bytes they still hold: a read returns a
    non-empty part of them, unless none is left. -/
def Serves [InputStream σ] (R : σ → List UInt8 → Prop) : Prop :=
  ∀ s held count, R s held → 0 < count → ∃ block rest s', InputStream.read count s = .ok block s' ∧
    held = block ++ rest ∧ block.length ≤ count ∧ (block = [] → held = []) ∧ R s' rest

theorem readAll_enough [InputStream σ] {R : σ → List UInt8 → Prop} (serves : Serves R) (count : Nat) :
    ∀ {s held}, R s held → count ≤ held.length →
      ∃ s', readAll count s = .ok (held.take count) s' ∧ R s' (held.drop count) := by
  induction count using Nat.strong_induction_on with
  | _ count ih =>
    intro s held related enough
    rw [readAll]
    by_cases zero : count = 0
    · subst zero
      exact ⟨s, by simp [pure, EStateM.pure], by simpa using related⟩
    · simp only [zero, ↓reduceIte]
      obtain ⟨block, rest, s', executed, split, bound, empty, left⟩ := serves s held count related (by omega)
      rw [ok_bind executed]
      have some : block ≠ [] := by
        intro none
        have := empty none
        simp [this] at enough
        exact zero enough
      have size : 0 < block.length := List.length_pos_iff.mpr some
      have notZero : ¬ block.length = 0 := by omega
      obtain ⟨s'', continued, leftAll⟩ := ih (count - block.length) (by omega) left
        (by rw [split, List.length_append] at enough; omega)
      simp only [notZero, ↓reduceIte]
      rw [ok_bind continued]
      refine ⟨s'', ?_, ?_⟩
      · show EStateM.Result.ok _ _ = _
        rw [split, List.take_append, List.take_of_length_le bound]
      · rw [split, List.drop_append, List.drop_eq_nil_iff.mpr bound]
        exact leftAll

theorem readAll_short [InputStream σ] {R : σ → List UInt8 → Prop} (serves : Serves R) (count : Nat) :
    ∀ {s held}, R s held → held.length < count → ∃ s', readAll count s = .error .eof s' ∧ R s' [] := by
  induction count using Nat.strong_induction_on with
  | _ count ih =>
    intro s held related short
    rw [readAll]
    have notZero : ¬ count = 0 := by omega
    simp only [notZero, ↓reduceIte]
    obtain ⟨block, rest, s', executed, split, bound, empty, left⟩ := serves s held count related (by omega)
    rw [ok_bind executed]
    by_cases none : block = []
    · have heldNone := empty none
      subst none
      simp only [List.nil_append] at split
      simp only [List.length_nil, ↓reduceIte]
      exact ⟨s', rfl, by rw [← heldNone, split]; exact left⟩
    · have size : 0 < block.length := List.length_pos_iff.mpr none
      have notEmpty : ¬ block.length = 0 := by omega
      obtain ⟨s'', continued, leftAll⟩ := ih (count - block.length) (by omega) left
        (by rw [split, List.length_append] at short; omega)
      simp only [notEmpty, ↓reduceIte]
      exact ⟨s'', error_bind continued, leftAll⟩

theorem readAll_delivers [InputStream σ] {R : σ → List UInt8 → Prop} (serves : Serves R) :
    Decoder.Delivers R readAll .eof where
  enough := readAll_enough serves _
  short := readAll_short serves _

/-- A stream that holds a finite sequence of bytes and returns all it is asked for. -/
instance : InputStream (List UInt8) where
  read count := fun held => .ok (held.take count) (held.drop count)

theorem bytes_serves : Serves (σ := List UInt8) Eq := by
  rintro s held count rfl positive
  refine ⟨s.take count, s.drop count, s.drop count, rfl, by simp, by simp, ?_, rfl⟩
  intro none
  rcases List.take_eq_nil_iff.mp none with zero | nil
  · omega
  · exact nil

/-- A stream that transfers one byte at a time. -/
structure Trickle where
  bytes : List UInt8

instance : InputStream Trickle where
  read _ := fun s => .ok (s.bytes.take 1) ⟨s.bytes.drop 1⟩

theorem trickle_serves : Serves fun (s : Trickle) held => s.bytes = held := by
  rintro ⟨bytes⟩ held count rfl positive
  refine ⟨bytes.take 1, bytes.drop 1, ⟨bytes.drop 1⟩, rfl, (List.take_append_drop 1 bytes).symm, by simp; omega,
    ?_, rfl⟩
  intro none
  simpa using none

/-! ## Writing -/

/-- A stream whose states `W` relates to the bytes it has taken so far. It takes part
    of every offer until it has taken `limit` bytes in all. -/
def Takes [OutputStream τ] (W : τ → List UInt8 → Prop) (limit : ℕ∞) : Prop :=
  ∀ s taken src, W s taken → src ≠ [] → ∃ n s', OutputStream.write src s = .ok n s' ∧ n ≤ src.length ∧
    W s' (taken ++ src.take n) ∧ (0 < n ↔ (taken.length : ℕ∞) < limit) ∧ ((taken.length + n : ℕ) : ℕ∞) ≤ limit

/-- The program appends `block` to a stream that has room for it, and ends with
    `eof_error` on one that has not. -/
def Emits [OutputStream τ] (W : τ → List UInt8 → Prop) (limit : ℕ∞) (x : EStateM Exception τ Unit)
    (block : List UInt8) : Prop :=
  ∀ s taken, W s taken → (taken.length : ℕ∞) ≤ limit →
    (((taken ++ block).length : ℕ∞) ≤ limit → ∃ s', x s = .ok () s' ∧ W s' (taken ++ block)) ∧
    (limit < ((taken ++ block).length : ℕ∞) → ∃ s', x s = .error .eof s')

theorem writeAll_emits [OutputStream τ] {W : τ → List UInt8 → Prop} {limit : ℕ∞} (takes : Takes W limit)
    (src : List UInt8) : Emits W limit (writeAll src) src := by
  induction size : src.length using Nat.strong_induction_on generalizing src with
  | _ n ih =>
    intro s taken related within
    rw [writeAll]
    by_cases none : src = []
    · subst none
      simp only [↓reduceIte, List.append_nil]
      exact ⟨fun _ => ⟨s, rfl, related⟩, fun exceeds => absurd within (not_le.mpr exceeds)⟩
    · simp only [none, ↓reduceIte]
      obtain ⟨k, s', executed, bound, left, room, fits⟩ := takes s taken src related none
      rw [ok_bind executed]
      have positive : 0 < src.length := List.length_pos_iff.mpr none
      by_cases zero : k = 0
      · have full : limit ≤ taken.length := not_lt.mp fun more => by have := room.mpr more; omega
        simp only [zero, ↓reduceIte]
        refine ⟨fun fit => ?_, fun _ => ⟨s', rfl⟩⟩
        have impossible := fit.trans full
        simp only [List.length_append, Nat.cast_le] at impossible
        omega
      · simp only [zero, ↓reduceIte]
        have later := ih (src.drop k).length (by simp; omega) (src.drop k) rfl s' (taken ++ src.take k) left
          (by simpa [Nat.min_eq_left bound] using fits)
        simpa only [List.append_assoc, List.take_append_drop] using later

theorem emits_bind [OutputStream τ] {W : τ → List UInt8 → Prop} {limit : ℕ∞} {x y : EStateM Exception τ Unit}
    {first second : List UInt8} (head : Emits W limit x first) (tail : Emits W limit y second) :
    Emits W limit (x >>= fun _ => y) (first ++ second) := by
  intro s taken related within
  obtain ⟨fits, exceeds⟩ := head s taken related within
  by_cases room : ((taken ++ first).length : ℕ∞) ≤ limit
  · obtain ⟨s', executed, left⟩ := fits room
    rw [ok_bind executed, ← List.append_assoc]
    exact tail s' (taken ++ first) left room
  · obtain ⟨s', raised⟩ := exceeds (not_le.mp room)
    rw [error_bind raised]
    refine ⟨fun fit => absurd (le_trans ?_ fit) room, fun _ => ⟨s', rfl⟩⟩
    simp only [List.length_append, Nat.cast_le]
    omega

instance : OutputStream Trickle where
  write src := fun s => .ok (src.take 1).length ⟨s.bytes ++ src.take 1⟩

theorem trickle_takes : Takes (fun (s : Trickle) taken => s.bytes = taken) ⊤ := by
  rintro ⟨bytes⟩ taken src rfl some
  obtain ⟨head, tail, rfl⟩ := List.exists_cons_of_ne_nil some
  refine ⟨1, ⟨bytes ++ [head]⟩, rfl, by simp, rfl, ?_, le_top⟩
  exact ⟨fun _ => ENat.natCast_lt_top _, fun _ => Nat.one_pos⟩

end Stream
end Oac
