import Oac.Fsuipc.View

/-!
# The records in the view

Between `m_pView + 4` and `m_pNext` lie the records of the requests that were made since
the last message. A host that answers into the records leaves their headers, so that the
walk of `FSUIPC_Process` finds every record where it was written. No access leaves the
memory then, unless the room of a request was added up beyond 32 bits.
-/
namespace Oac.Fsuipc
open Base

/-- A request as it lies in the view. The data of a read are the area for the answer. -/
inductive Record where
  | read (dwOffset pDest : UInt32) (data : List UInt8)
  | write (dwOffset : UInt32) (data : List UInt8)

namespace Record
open Library

def data : Record → List UInt8
  | read _ _ data => data
  | write _ data => data

def header : Record → List UInt8
  | read dwOffset pDest data => readHeader dwOffset (UInt32.ofNat data.length) pDest
  | write dwOffset data => writeHeader dwOffset (UInt32.ofNat data.length)

def bytes (record : Record) : List UInt8 := record.header ++ record.data

/-- What is copied for a record: the data of a read, unless there is no place or nothing
    to copy. -/
def copies : Record → List Copy
  | read _ pDest data => if pDest ≠ 0 ∧ data ≠ [] then [(pDest, data)] else []
  | write _ _ => []

/-- The second record is the first one with other data of the same length. -/
inductive Answers : Record → Record → Prop
  | read {dwOffset pDest : UInt32} {data data' : List UInt8} :
      data'.length = data.length → Answers (read dwOffset pDest data) (read dwOffset pDest data')
  | write {dwOffset : UInt32} {data data' : List UInt8} :
      data'.length = data.length → Answers (write dwOffset data) (write dwOffset data')

@[simp] theorem bytes_length (record : Record) : record.bytes.length = record.header.length + record.data.length :=
  List.length_append

theorem header_short (record : Record) : record.header.length ≤ 16 := by
  cases record with
  | read dwOffset pDest data => exact le_rfl
  | write dwOffset data => exact Nat.le_of_ble_eq_true rfl

theorem Answers.length {record record' : Record} (answers : Answers record record') :
    record'.bytes.length = record.bytes.length := by
  cases answers with
  | read same => simp [header, data, readHeader, toMemory32, same]
  | write same => simp [header, data, writeHeader, toMemory32, same]

end Record

/-- The records as they lie one behind the other. -/
def stream (records : List Record) : List UInt8 := records.flatMap Record.bytes

theorem stream_cons (record : Record) (records : List Record) : stream (record :: records) = record.bytes ++ stream records :=
  List.flatMap_cons ..

theorem stream_snoc (records : List Record) (record : Record) : stream (records ++ [record]) = stream records ++ record.bytes := by
  simp [stream]

theorem stream_answers {records records' : List Record} (answers : List.Forall₂ Record.Answers records records') :
    (stream records').length = (stream records).length := by
  induction answers with
  | nil => rfl
  | cons first _ ih => rw [stream_cons, stream_cons, List.length_append, List.length_append, first.length, ih]

/-- A host that leaves the headers of the records and the terminator as they are. -/
def Respectful (σ : Type) [Host σ] : Prop :=
  ∀ {size : UInt32} {view view' : Nat → UInt8} {host host' : σ} {records : List Record},
    Lies view 4 (stream records ++ toMemory32 0) → size.toNat = (stream records).length →
      Host.sendMessage size view host = (Library.messageSuccess, view', host') →
        ∃ records', List.Forall₂ Record.Answers records records' ∧ Lies view' 4 (stream records' ++ toMemory32 0)

namespace Library
variable {σ : Type}

/-- The requests since the last message are in the view, and there is room for a terminator. -/
structure Holding (records : List Record) (m : Library σ) : Prop where
  lies : Lies m.view 4 (stream records)
  next : m.next = 4 + (stream records).length
  room : m.next + 8 ≤ m.max.toNat
  small : m.max.toNat ≤ 0x7F00

theorem Holding.size {records : List Record} {m : Library σ} (holding : Holding records m) :
    (UInt32.ofNat (m.next - 4)).toNat = (stream records).length := by
  have next := holding.next
  have room := holding.room
  have small := holding.small
  rw [UInt32.toNat_ofNat']
  omega

/-! ## Requests -/

/-- The room of a request is added up beyond 32 bits, and what is left of the sum fits. -/
def Wraps (header : Nat) (dwSize : UInt32) (m : Library σ) : Prop :=
  m.isOpen ∧ 2 ^ 32 ≤ m.next + 8 + (dwSize.toNat + header) ∧ m.next + 8 + (dwSize.toNat + header) ≤ 2 ^ 32 + m.max.toNat

theorem sum_toNat {next header : Nat} {dwSize : UInt32} : (UInt32.ofNat next + 8 + (dwSize + UInt32.ofNat header)).toNat =
    (next + 8 + (dwSize.toNat + header)) % 2 ^ 32 := by
  have eight : (8 : UInt32).toNat = 8 := rfl
  simp only [UInt32.toNat_add, UInt32.toNat_ofNat', eight]
  omega

section
variable {records : List Record} {m : Library σ} {header : List UInt8}

/-- A request is accepted with all that is needed, refused, or accepted because the sum wraps. -/
theorem append_cases (open_ : m.isOpen) (holding : Holding records m) (dwSize : UInt32) (data : List UInt8) (short : header.length ≤ 16) :
    (m.next + 8 + (dwSize.toNat + header.length) ≤ m.max.toNat ∧ append dwSize header data m =
        .ok () { m with view := patch m.view m.next (header ++ data), next := m.next + header.length + dwSize.toNat }) ∨
      (m.max.toNat < m.next + 8 + (dwSize.toNat + header.length) ∧ ¬ Wraps header.length dwSize m ∧
        append dwSize header data m = .error (.code ModuleUser.errSize) m) ∨
      (Wraps header.length dwSize m ∧ append dwSize header data m = .error .overrun m) := by
  have room := holding.room
  have small := holding.small
  have bound := dwSize.toNat_lt
  unfold append Wraps
  simp only [open_, Bool.not_true, Bool.false_eq_true, if_false, UInt32.lt_iff_toNat_lt, sum_toNat, true_and]
  by_cases fits : m.next + 8 + (dwSize.toNat + header.length) ≤ m.max.toNat
  · refine .inl ⟨fits, ?_⟩
    rw [if_neg (by omega), if_neg (by omega)]
  · by_cases wraps : 2 ^ 32 ≤ m.next + 8 + (dwSize.toNat + header.length) ∧
        m.next + 8 + (dwSize.toNat + header.length) ≤ 2 ^ 32 + m.max.toNat
    · refine .inr (.inr ⟨wraps, ?_⟩)
      rw [if_neg (by omega), if_pos (by omega)]
    · refine .inr (.inl ⟨by omega, wraps, ?_⟩)
      rw [if_pos (by omega)]

/-- The library with a further record. -/
def put (record : Record) (m : Library σ) : Library σ :=
  { m with view := patch m.view m.next record.bytes, next := m.next + record.bytes.length }

@[simp] theorem put_isOpen (record : Record) (m : Library σ) : (m.put record).isOpen = m.isOpen := rfl
@[simp] theorem put_max (record : Record) (m : Library σ) : (m.put record).max = m.max := rfl
@[simp] theorem put_next (record : Record) (m : Library σ) : (m.put record).next = m.next + record.bytes.length := rfl
@[simp] theorem put_host (record : Record) (m : Library σ) : (m.put record).host = m.host := rfl

theorem append_put (open_ : m.isOpen) (holding : Holding records m) (record : Record) (dwSize : UInt32) (size : dwSize.toNat = record.data.length)
    (fits : m.next + 8 + record.bytes.length ≤ m.max.toNat) :
    append dwSize record.header record.data m = .ok () (m.put record) := by
  have small := holding.small
  have length := record.bytes_length
  rcases append_cases open_ holding dwSize record.data record.header_short with
    ⟨-, accepted⟩ | ⟨full, -, -⟩ | ⟨⟨-, wraps, -⟩, -⟩
  · rw [accepted, put, length, size, Nat.add_assoc]
    rfl
  · omega
  · omega

theorem append_full (open_ : m.isOpen) (holding : Holding records m) (record : Record) (dwSize : UInt32) (size : dwSize.toNat = record.data.length)
    (full : m.max.toNat < m.next + 8 + record.bytes.length) (small : record.bytes.length ≤ 2 ^ 16) :
    append dwSize record.header record.data m = .error (.code ModuleUser.errSize) m := by
  have room := holding.room
  have max := holding.small
  have length := record.bytes_length
  rcases append_cases open_ holding dwSize record.data record.header_short with
    ⟨fits, -⟩ | ⟨-, -, refused⟩ | ⟨⟨-, wraps, -⟩, -⟩
  · omega
  · exact refused
  · omega

/-- The record is there thereafter. -/
theorem Holding.put (holding : Holding records m) (record : Record)
    (fits : m.next + 8 + record.bytes.length ≤ m.max.toNat) : Holding (records ++ [record]) (m.put record) where
  lies := by
    rw [stream_snoc]
    exact holding.lies.extend holding.next
  next := by
    have next := holding.next
    rw [stream_snoc, List.length_append]
    show m.next + record.bytes.length = _
    omega
  room := by
    show m.next + record.bytes.length + 8 ≤ m.max.toNat
    omega
  small := holding.small

theorem readCommon_eq (fSpecial : Bool) (dwOffset dwSize pDest : UInt32) (dest : Nat → UInt8) :
    ∃ record : Record, record.data.length = dwSize.toNat ∧ record.header.length = 16 ∧
      (readCommon fSpecial dwOffset dwSize pDest dest : EStateM Fault (Library σ) Unit) =
        append dwSize record.header record.data := by
  refine ⟨.read dwOffset pDest (if fSpecial then region dest 0 dwSize.toNat else List.replicate dwSize.toNat 0), ?_, rfl, ?_⟩
  · cases fSpecial with
    | true => exact region_length _ _ _
    | false => exact List.length_replicate
  · have size : UInt32.ofNat (if fSpecial then region dest 0 dwSize.toNat else List.replicate dwSize.toNat 0).length = dwSize := by
      cases fSpecial with
      | true => simp
      | false => simp
    rw [Record.header, size]
    rfl

theorem read_eq (dwOffset dwSize pDest : UInt32) : (read dwOffset dwSize pDest : EStateM Fault (Library σ) Unit) =
    append dwSize (Record.read dwOffset pDest (List.replicate dwSize.toNat 0)).header
      (Record.read dwOffset pDest (List.replicate dwSize.toNat 0)).data := by
  rw [Record.header, List.length_replicate, UInt32.ofNat_toNat]
  rfl

theorem write_eq (dwOffset dwSize : UInt32) (source : Nat → UInt8) : (write dwOffset dwSize source : EStateM Fault (Library σ) Unit) =
    append dwSize (Record.write dwOffset (region source 0 dwSize.toNat)).header
      (Record.write dwOffset (region source 0 dwSize.toNat)).data := by
  rw [Record.header, region_length, UInt32.ofNat_toNat]
  rfl

end

/-! ## The walk over the records -/

theorem nBytes_toNat {data : List UInt8} (short : data.length < 2 ^ 32) : (UInt32.ofNat data.length).toNat = data.length := by
  rw [UInt32.toNat_ofNat']
  exact Nat.mod_eq_of_lt short

theorem toMemory32_length (value : UInt32) : (toMemory32 value).length = 4 := rfl

theorem dword_lies {view : Nat → UInt8} {place : Nat} {value : UInt32} (lies : Lies view place (toMemory32 value)) :
    dword view place = value := by
  unfold Lies at lies
  rw [toMemory32_length] at lies
  rw [dword, lies, ofMemory32_toMemory32]

theorem read_lies {view : Nat → UInt8} {place : Nat} {dwOffset pDest : UInt32} {data : List UInt8}
    (lies : Lies view place (Record.read dwOffset pDest data).bytes) :
    dword view place = readId ∧ dword view (place + 4) = dwOffset ∧ dword view (place + 8) = UInt32.ofNat data.length ∧
      dword view (place + 12) = pDest ∧ Lies view (place + 16) data := by
  simp only [Record.bytes, Record.header, Record.data, readHeader, Lies.append_iff, toMemory32_length, List.length_append] at lies
  obtain ⟨⟨⟨⟨id, offset⟩, size⟩, dest⟩, data⟩ := lies
  exact ⟨dword_lies id, dword_lies offset, dword_lies size, dword_lies dest, data⟩

theorem write_lies {view : Nat → UInt8} {place : Nat} {dwOffset : UInt32} {data : List UInt8}
    (lies : Lies view place (Record.write dwOffset data).bytes) :
    dword view place = writeId ∧ dword view (place + 4) = dwOffset ∧ dword view (place + 8) = UInt32.ofNat data.length ∧
      Lies view (place + 12) data := by
  simp only [Record.bytes, Record.header, Record.data, writeHeader, Lies.append_iff, toMemory32_length, List.length_append] at lies
  obtain ⟨⟨⟨id, offset⟩, size⟩, data⟩ := lies
  exact ⟨dword_lies id, dword_lies offset, dword_lies size, data⟩

variable [Image]

section
variable (m : Library σ) (copies : List Copy)

@[simp] theorem copies_view : (copies.foldl copyMemory m).view = m.view := by
  induction copies generalizing m with
  | nil => rfl
  | cons copy copies ih => exact ih (copyMemory m copy)

@[simp] theorem copies_max : (copies.foldl copyMemory m).max = m.max := by
  induction copies generalizing m with
  | nil => rfl
  | cons copy copies ih => exact ih (copyMemory m copy)

@[simp] theorem copies_isOpen : (copies.foldl copyMemory m).isOpen = m.isOpen := by
  induction copies generalizing m with
  | nil => rfl
  | cons copy copies ih => exact ih (copyMemory m copy)

@[simp] theorem copies_host : (copies.foldl copyMemory m).host = m.host := by
  induction copies generalizing m with
  | nil => rfl
  | cons copy copies ih => exact ih (copyMemory m copy)

theorem copies_next (next : Nat) :
    copies.foldl copyMemory { m with next } = { copies.foldl copyMemory m with next } := by
  induction copies generalizing m with
  | nil => rfl
  | cons copy copies ih => exact ih (copyMemory m copy)

end

section
variable {m : Library σ} {rounds : Nat} {rest : List Copy}

theorem decode_end (within : m.next + 4 ≤ m.max.toNat) (id : dword m.view m.next = 0) : decode (rounds + 1) m = .ok [] m := by
  rw [decode, get_bind, if_neg (by omega), if_pos id]
  rfl

theorem decode_read {m' : Library σ} (id : dword m.view m.next = readId)
    (within : m.next + 16 + (dword m.view (m.next + 8)).toNat ≤ m.max.toNat)
    (later : decode rounds { (copied m.view m.next).foldl copyMemory m with
      next := m.next + 16 + (dword m.view (m.next + 8)).toNat } = .ok rest m') :
    decode (rounds + 1) m = .ok (copied m.view m.next ++ rest) m' := by
  rw [decode, get_bind, if_neg (by omega), if_neg (by rw [id]; decide), if_pos id, if_neg (by omega)]
  exact (ok_bind later).trans rfl

theorem decode_write (id : dword m.view m.next = writeId) (within : m.next + 4 ≤ m.max.toNat) :
    decode (rounds + 1) m = decode rounds { m with next := m.next + 12 + (dword m.view (m.next + 8)).toNat } := by
  rw [decode, get_bind, if_neg (by omega), if_neg (by rw [id]; decide), if_neg (by rw [id]; decide), if_pos id]
  rfl

end

/-- All that is to be copied is copied, and the walk ends at the terminator. -/
theorem decode_eq {records : List Record} (rounds : Nat) (m : Library σ)
    (lies : Lies m.view m.next (stream records ++ toMemory32 0))
    (room : m.next + (stream records).length + 4 ≤ m.max.toNat) (enough : records.length < rounds) :
    decode rounds m = .ok (records.flatMap Record.copies)
      { (records.flatMap Record.copies).foldl copyMemory m with next := m.next + (stream records).length } := by
  induction records generalizing rounds m with
  | nil =>
    obtain ⟨rounds, rfl⟩ : ∃ r, rounds = r + 1 := ⟨rounds - 1, by simp only [List.length_nil] at enough; omega⟩
    exact decode_end room (dword_lies lies)
  | cons record records ih =>
    obtain ⟨rounds, rfl⟩ : ∃ r, rounds = r + 1 := ⟨rounds - 1, by rw [List.length_cons] at enough; omega⟩
    have fuel : records.length < rounds := by
      rw [List.length_cons] at enough
      omega
    have bound := m.max.toNat_lt
    rw [stream_cons, List.append_assoc, Lies.append_iff] at lies
    rw [stream_cons, List.length_append] at room
    obtain ⟨here, behind⟩ := lies
    cases record with
    | read dwOffset pDest data =>
      obtain ⟨id, -, size, dest, lies⟩ := read_lies here
      have length : (Record.read dwOffset pDest data).bytes.length = 16 + data.length := Record.bytes_length _
      rw [length] at room behind
      have nBytes : (UInt32.ofNat data.length).toNat = data.length := nBytes_toNat (by omega)
      have something : UInt32.ofNat data.length ≠ 0 ↔ data ≠ [] := by
        rw [← List.length_pos_iff_ne_nil, ne_eq, ← UInt32.toNat_inj, nBytes]
        exact Nat.pos_iff_ne_zero.symm
      have same : copied m.view m.next = (Record.read dwOffset pDest data).copies := by
        unfold copied Record.copies
        rw [dest, size, nBytes, lies]
        simp only [something]
      have rest := ih rounds { (copied m.view m.next).foldl copyMemory m with next := m.next + 16 + data.length }
        (by simpa [Nat.add_assoc] using behind) (by simp; omega) fuel
      rw [← nBytes, ← size] at rest
      rw [decode_read id (by rw [size, nBytes]; omega) rest, same, List.flatMap_cons, List.foldl_append, copies_next, size, nBytes,
        stream_cons, List.length_append, length]
      simp only [Nat.add_assoc]
    | write dwOffset data =>
      obtain ⟨id, -, size, -⟩ := write_lies here
      have length : (Record.write dwOffset data).bytes.length = 12 + data.length := Record.bytes_length _
      rw [length] at room behind
      have nBytes : (UInt32.ofNat data.length).toNat = data.length := nBytes_toNat (by omega)
      rw [decode_write id (by omega), size, nBytes, ih _ _ (by simpa [Nat.add_assoc] using behind) (by simp; omega) fuel, List.flatMap_cons,
        show (Record.write dwOffset data).copies = [] from rfl, List.nil_append, copies_next, stream_cons, List.length_append, length]
      simp only [Nat.add_assoc]

/-! ## Messages -/

section
variable {records records' : List Record} {m : Library σ}

omit [Image] in
theorem records_length (records : List Record) : 12 * records.length ≤ (stream records).length := by
  induction records with
  | nil => exact Nat.zero_le _
  | cons record records ih =>
    have header : 12 ≤ record.header.length := by
      cases record with
      | read dwOffset pDest data => exact Nat.le_of_ble_eq_true rfl
      | write dwOffset data => exact le_rfl
    rw [stream_cons, List.length_append, Record.bytes_length, List.length_cons]
    omega

/-- The requests and a terminator are sent. -/
theorem Holding.message (holding : Holding records m) : Lies (message m) 4 (stream records ++ toMemory32 0) :=
  (holding.lies.extend holding.next).beside (.inr le_rfl)

omit [Image] in
theorem Holding.emptied (holding : Holding records m) {m' : Library σ} (next : m'.next = 4) (same : m'.max = m.max) :
    Holding [] m' where
  lies := Lies.nil _ _
  next := next
  room := by
    have room := holding.room
    have place := holding.next
    rw [next, same]
    omega
  small := same ▸ holding.small

variable [Host σ] {result : UInt32} {view : Nat → UInt8} {host : σ}

theorem process_none (open_ : m.isOpen) (holding : Holding [] m) : process m = .error (.code ModuleUser.errNoData) m := by
  have next : m.next ≤ 4 := holding.next.le
  simp only [process, open_, Bool.not_true, Bool.false_eq_true, if_false, if_pos next]

theorem process_sent (open_ : m.isOpen) (holding : Holding records m) (some : records ≠ [])
    (sent : Host.sendMessage (UInt32.ofNat (m.next - 4)) (Library.message m) m.host = (result, view, host)) :
    process m = if result ≠ messageSuccess then .error (.code ModuleUser.errData) { m with view, host, next := 4 }
      else collect { m with view, host, next := 4 } := by
  have room := holding.room
  have next := holding.next
  have long := records_length records
  have many := List.length_pos_iff_ne_nil.mpr some
  unfold process
  simp only [open_, Bool.not_true, Bool.false_eq_true, if_false, sent]
  rw [if_neg (by omega), if_neg (by omega)]

/-- A message that is not taken. -/
theorem process_refused (open_ : m.isOpen) (holding : Holding records m) (some : records ≠ [])
    (sent : Host.sendMessage (UInt32.ofNat (m.next - 4)) (Library.message m) m.host = (result, view, host))
    (refused : result ≠ messageSuccess) :
    process m = .error (.code ModuleUser.errData) { m with view, host, next := 4 } := by
  rw [process_sent open_ holding some sent, if_pos refused]

/-- The answers to a message are copied to their places. -/
theorem process_answered (open_ : m.isOpen) (holding : Holding records m) (some : records ≠ [])
    (sent : Host.sendMessage (UInt32.ofNat (m.next - 4)) (Library.message m) m.host = (messageSuccess, view, host))
    (answers : List.Forall₂ Record.Answers records records') (answered : Lies view 4 (stream records' ++ toMemory32 0)) :
    process m = .ok (records'.flatMap Record.copies)
      { (records'.flatMap Record.copies).foldl copyMemory { m with view, host } with next := 4 } := by
  have room := holding.room
  have next := holding.next
  have length := stream_answers answers
  have long := records_length records'
  have walked := decode_eq m.max.toNat { m with view, host, next := 4 } answered (by simp; omega) (by omega)
  rw [process_sent open_ holding some sent, if_neg (not_not.mpr rfl)]
  refine (ok_bind walked).trans ?_
  rw [copies_next { m with view, host }]
  rfl

end
end Library
end Oac.Fsuipc
