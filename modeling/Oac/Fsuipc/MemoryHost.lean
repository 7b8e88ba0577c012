import Oac.Fsuipc.Records

/-!
# A simulator that is a memory of bytes

It walks over the records as the library does, fills the areas of the reads and takes the
data of the writes. Nothing but the bytes of the view says where a record begins, so that
the format of the messages can be read back.
-/
namespace Oac.Fsuipc
open Base Library

namespace MemoryHost

/-- The records of a message are served, one after the other. -/
def serveView : Nat → Nat → (Nat → UInt8) → (Nat → UInt8) → (Nat → UInt8) × (Nat → UInt8)
  | 0, _, view, memory => (view, memory)
  | rounds + 1, place, view, memory =>
    let dwOffset := (dword view (place + 4)).toNat
    let nBytes := (dword view (place + 8)).toNat
    if dword view place = readId then
      serveView rounds (place + 16 + nBytes) (patch view (place + 16) (region memory dwOffset nBytes)) memory
    else if dword view place = writeId then
      serveView rounds (place + 12 + nBytes) view (patch memory dwOffset (region view (place + 12) nBytes))
    else (view, memory)

/-- What becomes of records and of the memory. -/
def serveRecords : List Record → (Nat → UInt8) → List Record × (Nat → UInt8)
  | [], memory => ([], memory)
  | .read dwOffset pDest data :: records, memory =>
    let (records', memory') := serveRecords records memory
    (.read dwOffset pDest (region memory dwOffset.toNat data.length) :: records', memory')
  | .write dwOffset data :: records, memory =>
    let (records', memory') := serveRecords records (patch memory dwOffset.toNat data)
    (.write dwOffset data :: records', memory')

instance : Host (Nat → UInt8) where
  findWindow _ := true
  sendMessage size view memory :=
    let (view, memory) := serveView (size.toNat + 1) 4 view memory
    (messageSuccess, view, memory)

theorem answers_serveRecords (records : List Record) (memory : Nat → UInt8) :
    List.Forall₂ Record.Answers records (serveRecords records memory).1 := by
  induction records generalizing memory with
  | nil => exact .nil
  | cons record records ih =>
    cases record with
    | read dwOffset pDest data => exact .cons (.read (region_length _ _ _)) (ih memory)
    | write dwOffset data => exact .cons (.write rfl) (ih _)

/-- The walk over a view serves the records that lie there. -/
theorem serveView_lies {records : List Record} {rounds place : Nat} {view : Nat → UInt8} (memory : Nat → UInt8)
    (lies : Lies view place (stream records ++ toMemory32 0)) (enough : records.length < rounds)
    (short : (stream records).length < 2 ^ 32) :
    Lies (serveView rounds place view memory).1 place (stream (serveRecords records memory).1 ++ toMemory32 0) ∧
      (∀ a < place, (serveView rounds place view memory).1 a = view a) ∧
      (serveView rounds place view memory).2 = (serveRecords records memory).2 := by
  induction records generalizing rounds place view memory with
  | nil =>
    obtain ⟨rounds, rfl⟩ : ∃ r, rounds = r + 1 := ⟨rounds - 1, by simp only [List.length_nil] at enough; omega⟩
    have terminated : dword view place = 0 := dword_lies lies
    rw [serveView, terminated]
    exact ⟨lies, fun _ _ => rfl, rfl⟩
  | cons record records ih =>
    obtain ⟨rounds, rfl⟩ : ∃ r, rounds = r + 1 := ⟨rounds - 1, by rw [List.length_cons] at enough; omega⟩
    have fuel : records.length < rounds := by
      rw [List.length_cons] at enough
      omega
    rw [stream_cons, List.append_assoc, Lies.append_iff] at lies
    rw [stream_cons, List.length_append] at short
    obtain ⟨here, behind⟩ := lies
    cases record with
    | read dwOffset pDest data =>
      obtain ⟨id, offset, size, -, -⟩ := read_lies here
      have length : (Record.read dwOffset pDest data).bytes.length = 16 + data.length := Record.bytes_length _
      rw [length] at short behind
      have nBytes : (UInt32.ofNat data.length).toNat = data.length := nBytes_toNat (by omega)
      let answer := region memory dwOffset.toNat data.length
      have same : answer.length = data.length := region_length _ _ _
      have filled : Lies (patch view (place + 16) answer) (place + (16 + data.length)) (stream records ++ toMemory32 0) :=
        behind.beside (.inr (by omega))
      obtain ⟨lies, before, served⟩ := ih memory filled fuel (by omega)
      have header : (Record.read dwOffset pDest answer).header = (Record.read dwOffset pDest data).header := by
        rw [Record.header, Record.header, same]
      have answered : Lies (patch view (place + 16) answer) place (Record.read dwOffset pDest answer).bytes := by
        rw [Record.bytes, header]
        exact (Lies.append_iff.mp here).1.extend rfl
      have length' : (Record.read dwOffset pDest answer).bytes.length = 16 + data.length := by rw [Record.bytes_length, header, ← same]; rfl
      have step : serveView (rounds + 1) place view memory =
          serveView rounds (place + (16 + data.length)) (patch view (place + 16) answer) memory := by
        simp only [serveView, id, offset, size, nBytes, if_true, Nat.add_assoc]
        rfl
      rw [step, serveRecords, stream_cons, List.append_assoc, Lies.append_iff, length']
      refine ⟨⟨answered.congr fun a _ inside => (before a (by omega)).symm, lies⟩, fun a inside => ?_, served⟩
      rw [before a (by omega), patch_outside (.inl (by omega))]
    | write dwOffset data =>
      obtain ⟨id, offset, size, written⟩ := write_lies here
      have length : (Record.write dwOffset data).bytes.length = 12 + data.length := Record.bytes_length _
      rw [length] at short behind
      have nBytes : (UInt32.ofNat data.length).toNat = data.length := nBytes_toNat (by omega)
      obtain ⟨lies, before, served⟩ := ih (patch memory dwOffset.toNat data) behind fuel (by omega)
      have step : serveView (rounds + 1) place view memory =
          serveView rounds (place + (12 + data.length)) view (patch memory dwOffset.toNat data) := by
        simp only [serveView, id, offset, size, nBytes, show region view (place + 12) data.length = data from written, if_true,
          if_neg (show writeId ≠ readId by decide), Nat.add_assoc]
      rw [step, serveRecords, stream_cons, List.append_assoc, Lies.append_iff, length]
      exact ⟨⟨here.congr fun a _ inside => (before a (by omega)).symm, lies⟩, fun a inside => before a (by omega), served⟩

theorem respectful : Respectful (Nat → UInt8) := by
  intro size view view' memory memory' records lies length sent
  have long := records_length records
  have short := size.toNat_lt
  obtain ⟨answered, -, -⟩ := serveView_lies memory lies (show _ < size.toNat + 1 by omega) (by omega)
  cases sent
  exact ⟨_, answers_serveRecords records memory, answered⟩

/-- Addresses that a linker may have given. -/
instance linked : Image where
  version := 0x401000
  fsVersion := 0x401004
  code := 0x402000
  notNull := by decide
  apart := by decide

/-- A library that was not opened yet, for a simulator with FSUIPC 3.990c. -/
def closedLibrary : Library (Nat → UInt8) where
  hWnd := false
  isOpen := false
  next := 0
  max := 0
  view _ := 0
  version := 0
  fsVersion := 0
  host a :=
    if a = 0x3304 then 3
    else if a = 0x3306 then 0x90
    else if a = 0x3307 then 0x39
    else if a = 0x3308 then 8
    else if a = 0x330a then 0xde
    else if a = 0x330b then 0xfa
    else 0

end MemoryHost
end Oac.Fsuipc
