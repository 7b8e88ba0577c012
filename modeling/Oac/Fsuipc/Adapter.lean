import Oac.Fsuipc.Dummy
import Oac.Fsuipc.Handshake

/-!
# The local adapter over the bytes

`local_user_adapter` calls the library with offsets of one, two or four bytes and with
pointers to the values. Against a simulator that answers in the view, the functions over
the bytes do what `ModuleUser` says of the requests, in every run of calls, and a library
is opened exactly when the answers to the handshake are right.
-/
namespace Oac.Fsuipc
open Base

namespace Request

/-- The record that the library writes for a request. -/
def record : Request → Record
  | .read offset pointer =>
    .read (UInt32.ofNat offset.address.toNat) (UInt32.ofNat pointer) (List.replicate offset.length.toNat 0)
  | .write valuedOffset =>
    .write (UInt32.ofNat valuedOffset.address.toNat) ((toMemory32 valuedOffset.value).take valuedOffset.length.toNat)

/-- The value is at an address that is not null. -/
def Placed : Request → Prop
  | .read _ pointer => 0 < pointer ∧ pointer < 2 ^ 32
  | .write _ => True

/-- The call of the library for a request: `local_user_adapter::read` and `write`. -/
def ask {σ : Type} : Request → EStateM Fault (Library σ) Unit
  | .read offset pointer =>
    Library.read (UInt32.ofNat offset.address.toNat) (UInt32.ofNat offset.length.toNat) (UInt32.ofNat pointer)
  | .write valuedOffset =>
    Library.write (UInt32.ofNat valuedOffset.address.toNat) (UInt32.ofNat valuedOffset.length.toNat)
      fun a => (toMemory32 valuedOffset.value).getD a 0

/-- The records with the answers of a simulator. -/
def answered {σ : Type} [Simulator σ] : List Request → σ → List Record
  | [], _ => []
  | .read offset pointer :: requests, simulator =>
    .read (UInt32.ofNat offset.address.toNat) (UInt32.ofNat pointer)
      ((toMemory32 (Simulator.read simulator offset)).take offset.length.toNat) :: answered requests simulator
  | .write valuedOffset :: requests, simulator =>
    (Request.write valuedOffset).record :: answered requests (Simulator.write simulator valuedOffset)

theorem record_bytes (request : Request) : request.record.bytes.length = ModuleUser.size request := by
  cases request with
  | read offset pointer =>
    rw [Record.bytes_length]
    show 16 + (List.replicate offset.length.toNat (0 : UInt8)).length = _
    rw [List.length_replicate]
    rfl
  | write valuedOffset =>
    obtain ⟨⟨address, length⟩, value⟩ := valuedOffset
    cases length with
    | byte => rfl
    | word => rfl
    | dword => rfl

theorem length_le (length : OffsetLength) : length.toNat ≤ 4 := by
  cases length <;> decide

theorem size_le (request : Request) : ModuleUser.size request ≤ 20 := by
  cases request with
  | read offset pointer => exact Nat.add_le_add_left (length_le offset.length) 16
  | write valuedOffset => exact (Nat.add_le_add_left (length_le valuedOffset.length) 12).trans (by decide)

theorem answers_answered {σ : Type} [Simulator σ] (requests : List Request) (simulator : σ) :
    List.Forall₂ Record.Answers (requests.map record) (answered requests simulator) := by
  induction requests generalizing simulator with
  | nil => exact .nil
  | cons request requests ih =>
    cases request with
    | read offset pointer =>
      obtain ⟨address, length⟩ := offset
      refine .cons (.read ?_) (ih simulator)
      cases length with
      | byte => rfl
      | word => rfl
      | dword => rfl
    | write valuedOffset => exact .cons (.write rfl) (ih _)

end Request

/-- A host that serves the requests in the view as a simulator does. -/
structure Conforms (σ : Type) [Host σ] [Simulator σ] : Prop where
  serves : ∀ {size : UInt32} {view} {host : σ} {requests : List Request},
    Lies view 4 (stream (requests.map Request.record) ++ toMemory32 0) → size.toNat = (stream (requests.map Request.record)).length →
    Simulator.refuses requests host = false → ∃ view', Lies view' 4 (stream (Request.answered requests host) ++ toMemory32 0) ∧
      Host.sendMessage size view host = (Library.messageSuccess, view', (ModuleUser.serve requests host).2)
  refuses : ∀ {size : UInt32} {view} {host : σ} {requests : List Request},
    Lies view 4 (stream (requests.map Request.record) ++ toMemory32 0) → size.toNat = (stream (requests.map Request.record)).length →
    Simulator.refuses requests host → ∃ result view', result ≠ Library.messageSuccess ∧
      Host.sendMessage size view host = (result, view', host)
  fits : ∀ (host : σ) (offset : Offset), (Simulator.read host offset).toNat < 256 ^ offset.length.toNat

/-- The calls of the adapter. -/
inductive AdapterCall where
  | issue (request : Request)
  | process

namespace AdapterCall
variable {σ : Type}

def Placed : AdapterCall → Prop
  | issue request => request.Placed
  | process => True

/-- What the copies store: the value of a read was 0. -/
def stores (copies : List Copy) : List (Pointer × UInt32) := copies.map fun copy => (copy.1.toNat, Library.overwritten 0 copy.2)

/-- The call over the bytes. -/
def onBytes [Image] [Host σ] : AdapterCall → EStateM Fault (Library σ) (List (Pointer × UInt32))
  | issue request => do
    request.ask
    pure []
  | process => do
    let copies ← Library.process
    pure (stores copies)

/-- The result code of the requests in a fault. -/
def coded {β : Type} (x : EStateM UInt32 (ModuleUser σ) β) : EStateM Fault (ModuleUser σ) β := fun m =>
  match x m with
  | .ok b m' => .ok b m'
  | .error result m' => .error (.code result) m'

/-- The call on the requests. -/
def onRequests [Simulator σ] : AdapterCall → EStateM Fault (ModuleUser σ) (List (Pointer × UInt32))
  | issue request => coded do
    ModuleUser.add request
    pure []
  | process => coded ModuleUser.process

end AdapterCall

/-- The requests that the library keeps are the records in the view. -/
structure Represents {σ : Type} (m : Library σ) (u : ModuleUser σ) : Prop where
  isOpen : m.isOpen
  isOpen' : u.isOpen
  max : m.max.toNat = u.max
  host : m.host = u.simulator
  holding : Library.Holding (u.requests.map Request.record) m
  placed : ∀ request ∈ u.requests, request.Placed

namespace AdapterCall
open Library
variable {σ : Type}

/-- The value whose first bytes are copied over 0. -/
theorem overwritten_take {value : UInt32} (length : OffsetLength) (fits : value.toNat < 256 ^ length.toNat) :
    overwritten 0 ((toMemory32 value).take length.toNat) = value := by
  apply UInt32.toNat_inj.mp
  cases length with
  | byte =>
    simp [overwritten, toMemory32, ofMemory32, OffsetLength.toNat] at fits ⊢
    omega
  | word =>
    simp [overwritten, toMemory32, ofMemory32, OffsetLength.toNat] at fits ⊢
    omega
  | dword =>
    simp [overwritten, toMemory32, ofMemory32, OffsetLength.toNat] at fits ⊢
    omega

theorem stores_answered [Host σ] [Simulator σ] (conforms : Conforms σ) {requests : List Request}
    (placed : ∀ request ∈ requests, request.Placed) (simulator : σ) :
    stores ((Request.answered requests simulator).flatMap Record.copies) = (ModuleUser.serve requests simulator).1 := by
  induction requests generalizing simulator with
  | nil => rfl
  | cons request requests ih =>
    obtain ⟨here, later⟩ := List.forall_mem_cons.mp placed
    cases request with
    | read offset pointer =>
      obtain ⟨positive, small⟩ := here
      have address : (UInt32.ofNat pointer).toNat = pointer := by
        rw [UInt32.toNat_ofNat']
        exact Nat.mod_eq_of_lt small
      have notNull : UInt32.ofNat pointer ≠ 0 := by
        rw [ne_eq, ← UInt32.toNat_inj, address]
        exact positive.ne'
      have some : (toMemory32 (Simulator.read simulator offset)).take offset.length.toNat ≠ [] := by
        cases offset.length <;> exact List.cons_ne_nil _ _
      have copied : (Record.read (UInt32.ofNat offset.address.toNat) (UInt32.ofNat pointer)
          ((toMemory32 (Simulator.read simulator offset)).take offset.length.toNat)).copies =
          [(UInt32.ofNat pointer, (toMemory32 (Simulator.read simulator offset)).take offset.length.toNat)] :=
        if_pos ⟨notNull, some⟩
      have stored := overwritten_take offset.length (conforms.fits simulator offset)
      rw [Request.answered, List.flatMap_cons, copied, stores, List.map_append, List.map_singleton, address, stored]
      exact congrArg (_ :: ·) (ih later simulator)
    | write valuedOffset => exact ih later _

theorem ask_eq (request : Request) : ∃ dwSize : UInt32, dwSize.toNat = request.record.data.length ∧
    (request.ask : EStateM Fault (Library σ) Unit) = append dwSize request.record.header request.record.data := by
  cases request with
  | read offset pointer =>
    obtain ⟨address, length⟩ := offset
    refine ⟨UInt32.ofNat length.toNat, ?_, ?_⟩
    · cases length <;> rfl
    · cases length <;> exact read_eq _ _ _
  | write valuedOffset =>
    obtain ⟨⟨address, length⟩, value⟩ := valuedOffset
    refine ⟨UInt32.ofNat length.toNat, ?_, ?_⟩
    · cases length <;> rfl
    · cases length <;> exact write_eq _ _ _

section
variable {m : Library σ} {u : ModuleUser σ}

theorem Represents.next (represents : Represents m u) : m.next = u.next := by
  rw [represents.holding.next, ModuleUser.next, stream, List.length_flatMap, List.map_map]
  exact congrArg (4 + ·) (congrArg List.sum (List.map_congr_left fun request _ => request.record_bytes))

theorem Represents.put (represents : Represents m u) {request : Request} (placed : request.Placed)
    (fits : m.next + 8 + request.record.bytes.length ≤ m.max.toNat) :
    Represents (m.put request.record) { u with requests := u.requests ++ [request] } where
  isOpen := represents.isOpen
  isOpen' := represents.isOpen'
  max := represents.max
  host := represents.host
  holding := by
    rw [List.map_append, List.map_singleton]
    exact represents.holding.put _ fits
  placed := List.forall_mem_append.mpr ⟨represents.placed, List.forall_mem_singleton.mpr placed⟩

theorem coded_ok {β : Type} {x : EStateM UInt32 (ModuleUser σ) β} {u' : ModuleUser σ} {b : β} (executed : x u = .ok b u') :
    coded x u = .ok b u' := by
  rw [coded, executed]

theorem coded_error {β : Type} {x : EStateM UInt32 (ModuleUser σ) β} {u' : ModuleUser σ} {result : UInt32}
    (raised : x u = .error result u') : coded x u = .error (.code result) u' := by
  rw [coded, raised]

variable [Image] [Host σ] [Simulator σ]

theorem lockstep_issue (represents : Represents m u) {request : Request} (placed : request.Placed) :
    Lockstep Represents ((issue request).onBytes m) ((issue request).onRequests u) := by
  have next := Represents.next represents
  have max := represents.max
  have length := request.record_bytes
  have short := request.size_le
  obtain ⟨dwSize, size, same⟩ : ∃ dwSize : UInt32, dwSize.toNat = request.record.data.length ∧
      (request.ask : EStateM Fault (Library σ) Unit) = append dwSize request.record.header request.record.data := ask_eq request
  by_cases fits : m.next + 8 + request.record.bytes.length ≤ m.max.toNat
  · have asked := append_put represents.isOpen represents.holding request.record dwSize size fits
    have added : ModuleUser.add request u = .ok () { u with requests := u.requests ++ [request] } := by
      rw [ModuleUser.add, represents.isOpen', if_neg (by simp), if_neg (by omega)]
    rw [← same] at asked
    have executed : (issue request).onBytes m = .ok [] (m.put request.record) := (ok_bind asked).trans rfl
    have executed' : (issue request).onRequests u = .ok [] { u with requests := u.requests ++ [request] } :=
      coded_ok ((ok_bind added).trans rfl)
    rw [executed, executed']
    exact ⟨rfl, Represents.put represents placed fits⟩
  · have refused := append_full represents.isOpen represents.holding request.record dwSize size (by omega) (by omega)
    have refused' : ModuleUser.add request u = .error ModuleUser.errSize u := by
      rw [ModuleUser.add, represents.isOpen', if_neg (by simp), if_pos (by omega)]
    rw [← same] at refused
    have raised : (issue request).onBytes m = .error (.code ModuleUser.errSize) m := error_bind refused
    have raised' : (issue request).onRequests u = .error (.code ModuleUser.errSize) u := coded_error (error_bind refused')
    rw [raised, raised']
    exact ⟨rfl, represents⟩

theorem lockstep_process (conforms : Conforms σ) (represents : Represents m u) :
    Lockstep Represents (process.onBytes m) (process.onRequests u) := by
  obtain ⟨isOpen, isOpen', max, host, holding, placed⟩ := represents
  by_cases none : u.requests = []
  · have noData : ModuleUser.process u = .error ModuleUser.errNoData u := by
      rw [ModuleUser.process, isOpen', if_neg (by simp), if_pos none]
    have noData' : Library.process m = .error (.code ModuleUser.errNoData) m := process_none isOpen (by simpa [none] using holding)
    rw [onBytes, onRequests, error_bind noData', coded_error noData]
    exact ⟨rfl, isOpen, isOpen', max, host, holding, placed⟩
  · have some : u.requests.map Request.record ≠ [] := by simpa using none
    cases refuses : Simulator.refuses u.requests u.simulator with
    | true =>
      obtain ⟨result, view', failure, sent⟩ := conforms.refuses holding.message holding.size (host ▸ refuses)
      have refused : ModuleUser.process u = .error ModuleUser.errData { u with requests := [] } := by
        rw [ModuleUser.process, isOpen', if_neg (by simp), if_neg none, if_pos refuses]
      rw [onBytes, onRequests, error_bind (process_refused isOpen holding some sent failure), coded_error refused]
      exact ⟨rfl, isOpen, isOpen', max, host, holding.emptied rfl rfl, nofun⟩
    | false =>
      obtain ⟨view', answered, sent⟩ := conforms.serves holding.message holding.size (host ▸ refuses)
      have taken : ModuleUser.process u = .ok (ModuleUser.serve u.requests u.simulator).1
          { u with requests := [], simulator := (ModuleUser.serve u.requests u.simulator).2 } := by
        rw [ModuleUser.process, isOpen', if_neg (by simp), if_neg none, if_neg (by simp [refuses])]
      have copied := process_answered isOpen holding some sent (Request.answers_answered u.requests m.host) answered
      have executed : process.onBytes m = _ := (ok_bind copied).trans rfl
      rw [executed, onRequests, coded_ok taken]
      refine ⟨?_, ?_⟩
      · rw [stores_answered conforms placed, host]
      · exact ⟨by simpa using isOpen, isOpen', by simpa using max, by simp [host], holding.emptied rfl (by simp), nofun⟩

/-- In every run of the adapter's calls the functions over the bytes return what the
    requests say, and fail where they do. -/
theorem alike (conforms : Conforms σ) (calls : List AdapterCall) (placed : ∀ call ∈ calls, call.Placed) (represents : Represents m u) :
    Alike Represents onBytes onRequests calls m u := by
  induction calls generalizing m u with
  | nil => trivial
  | cons call calls ih =>
    obtain ⟨here, later⟩ := List.forall_mem_cons.mp placed
    have lockstep : Lockstep Represents (call.onBytes m) (call.onRequests u) := by
      cases call with
      | issue request => exact lockstep_issue represents here
      | process => exact lockstep_process conforms represents
    exact ⟨lockstep, ih later lockstep.related⟩

end
end AdapterCall

/-! ## A memory of bytes as the simulator -/

namespace MemoryHost

open Library

theorem taken_eq (value : UInt32) (length : OffsetLength) : (toMemory32 value).take length.toNat = bytesOf length.toNat value.toNat := by
  cases length with
  | byte => rfl
  | word => rfl
  | dword => simp [toMemory32, bytesOf, OffsetLength.toNat, Nat.div_div_eq_div_mul]

theorem load_lt (memory : Nat → UInt8) (offset : Offset) :
    DummyUserAdapter.loading memory offset < 256 ^ offset.length.toNat := by
  have bound := valueOf_lt (region memory offset.address.toNat offset.length.toNat)
  rwa [region_length] at bound

theorem read_toNat (memory : Nat → UInt8) (offset : Offset) :
    (Simulator.read memory offset).toNat = DummyUserAdapter.loading memory offset := by
  have bound := load_lt memory offset
  have short : 256 ^ offset.length.toNat ≤ 2 ^ 32 := by cases offset.length <;> decide
  show (DummyUserAdapter.readValueFromBuffer memory offset).toNat = _
  rw [DummyUserAdapter.read_loading, UInt32.toNat_ofNat']
  exact Nat.mod_eq_of_lt (bound.trans_le short)

theorem address_toNat (offset : Offset) : (UInt32.ofNat offset.address.toNat).toNat = offset.address.toNat := by
  have bound := offset.address.toNat_lt
  rw [UInt32.toNat_ofNat']
  omega

theorem serveRecords_requests (requests : List Request) (memory : Nat → UInt8) :
    serveRecords (requests.map Request.record) memory =
      (Request.answered requests memory, (ModuleUser.serve requests memory).2) := by
  induction requests generalizing memory with
  | nil => rfl
  | cons request requests ih =>
    cases request with
    | read offset pointer =>
      have answer : (toMemory32 (Simulator.read memory offset)).take offset.length.toNat =
          region memory offset.address.toNat offset.length.toNat := by
        have back := bytesOf_valueOf (region memory offset.address.toNat offset.length.toNat)
        rw [region_length] at back
        rw [taken_eq, read_toNat]
        exact back
      rw [List.map_cons, Request.record, serveRecords, ih, List.length_replicate, address_toNat, Request.answered, answer]
      rfl
    | write valuedOffset =>
      have written : patch memory valuedOffset.address.toNat ((toMemory32 valuedOffset.value).take valuedOffset.length.toNat) =
          Simulator.write memory valuedOffset := by
        rw [taken_eq]
        exact (DummyUserAdapter.write_storing memory valuedOffset).symm
      rw [List.map_cons, Request.record, serveRecords, address_toNat, written, ih]
      rfl

theorem conforms : Conforms (Nat → UInt8) where
  serves := by
    intro size view memory requests lies length _
    have long := records_length (requests.map Request.record)
    have short := size.toNat_lt
    obtain ⟨answered, -, served⟩ := serveView_lies memory lies (show _ < size.toNat + 1 by omega) (by omega)
    rw [serveRecords_requests] at answered served
    exact ⟨_, answered, by rw [← served]; rfl⟩
  refuses _ _ refuses := absurd refuses Bool.false_ne_true
  fits memory offset := (read_toNat memory offset).trans_lt (load_lt memory offset)

end MemoryHost

/-! ## The handshake -/

namespace Library
variable {σ : Type} [Image]

/-- The requests of the handshake. -/
def greetingRequests : List Request :=
  [.read ⟨0x3304, .dword⟩ Image.version.toNat, .read ⟨0x3308, .dword⟩ Image.fsVersion.toNat, .write ⟨⟨0x330a, .word⟩, libVersion⟩]

theorem greeting_eq : greeting = greetingRequests.map Request.record := by
  simp only [greeting, greetingRequests, List.map_cons, List.map_nil, Request.record, UInt32.ofNat_toNat]
  rfl

omit [Image] in
theorem overwritten_all (old value : UInt32) : overwritten old (toMemory32 value) = value := ofMemory32_toMemory32 value

/-- What the handshake copies to the globals. -/
theorem greeted_versions [Simulator σ] (m : Library σ) (host : σ) :
    let copies := (Request.answered greetingRequests host).flatMap Record.copies
    (copies.foldl copyMemory m).version = Simulator.read host ⟨0x3304, .dword⟩ ∧
      (copies.foldl copyMemory m).fsVersion = Simulator.read host ⟨0x3308, .dword⟩ := by
  obtain ⟨version, fsVersion⟩ := Image.notNull
  have copies : (Request.answered greetingRequests host).flatMap Record.copies =
      [(Image.version, toMemory32 (Simulator.read host ⟨0x3304, .dword⟩)), (Image.fsVersion, toMemory32 (Simulator.read host ⟨0x3308, .dword⟩))] := by
    simp only [greetingRequests, Request.answered, UInt32.ofNat_toNat, List.flatMap_cons, List.flatMap_nil, Record.copies]
    rw [if_pos ⟨version, List.cons_ne_nil _ _⟩, if_pos ⟨fsVersion, List.cons_ne_nil _ _⟩]
    rfl
  intro copies'
  have same : copies' = _ := copies
  rw [same]
  simp only [List.foldl_cons, List.foldl_nil, copyMemory, if_pos, if_neg Image.apart, if_neg Image.apart.symm, overwritten_all, and_self]

variable [Host σ] [Simulator σ]

/-- What `FSUIPC_Open2` has to say of a closed library, with a memory of the given size. -/
def verdict (dwFSReq dwSize : UInt32) (host : σ) : UInt32 :=
  if dwSize < 32 then errView
  else if !Host.findWindow host then errNoFs
  else if dwSize < 66 then ModuleUser.errSize
  else if Simulator.refuses greetingRequests host then ModuleUser.errData
  else if Simulator.read host ⟨0x3304, .dword⟩ < 0x19980005 ∨ Simulator.read host ⟨0x3308, .dword⟩ &&& 0xFFFF0000 ≠ 0xFADE0000 then errVersion
  else if dwFSReq ≠ 0 ∧ dwFSReq ≠ Simulator.read host ⟨0x3308, .dword⟩ &&& 0xffff then errWrongFs
  else 0

/-- The library is open with what the simulator has answered, or closed again. -/
structure Concludes (mem : Nat) (code : UInt32) (host : σ) (result : EStateM.Result Fault (Library σ) Unit) : Prop where
  ok : ∀ {u m}, result = .ok u m → code = 0 ∧ m.version = Simulator.read host ⟨0x3304, .dword⟩ ∧
    m.fsVersion = Simulator.read host ⟨0x3308, .dword⟩ &&& 0xffff ∧
    Represents m ⟨true, mem, [], (ModuleUser.serve greetingRequests host).2⟩
  error : ∀ {fault m}, result = .error fault m → code ≠ 0 ∧ fault = .code code ∧ m.isOpen = false

section
variable {m : Library σ}

omit [Image] [Host σ] [Simulator σ] in
theorem checkVersions_eq (dwFSReq : UInt32) (m : Library σ) : orClose (checkVersions dwFSReq) m =
    if m.version < 0x19980005 ∨ m.fsVersion &&& 0xFFFF0000 ≠ 0xFADE0000 then
      .error (.code errVersion) { m with hWnd := false, isOpen := false }
    else if dwFSReq ≠ 0 ∧ dwFSReq ≠ m.fsVersion &&& 0xffff then
      .error (.code errWrongFs) { m with hWnd := false, isOpen := false, fsVersion := m.fsVersion &&& 0xffff }
    else .ok () { m with fsVersion := m.fsVersion &&& 0xffff } := by
  unfold orClose checkVersions
  dsimp only
  split_ifs <;> rfl

omit [Host σ] in
theorem concludes_error {mem : Nat} {code : UInt32} {host : σ} (failure : code ≠ 0) (closed : m.isOpen = false) :
    Concludes mem code host (.error (.code code) m) where
  ok := nofun
  error same := by
    cases same
    exact ⟨failure, rfl, closed⟩

/-- The handshake of a library that has just been given its memory. -/
theorem connect_concludes (conforms : Conforms σ) (dwFSReq dwSize : UInt32) (open_ : m.isOpen) (holding : Holding [] m)
    (enough : 32 ≤ dwSize.toNat) (max : m.max.toNat = min dwSize.toNat 0x7F00) (window : Host.findWindow m.host) :
    Concludes (min dwSize.toNat 0x7F00) (verdict dwFSReq dwSize m.host) m.host (connect dwFSReq m) := by
  have long : ¬ dwSize < 32 := by simpa [UInt32.lt_iff_toNat_lt] using enough
  have short : dwSize < 66 ↔ dwSize.toNat < 66 := UInt32.lt_iff_toNat_lt
  unfold verdict
  rw [if_neg long, if_neg (by simp [window])]
  rcases greet_eq open_ holding (by omega) with ⟨room, asked, held⟩ | ⟨full, m', refused, closed, -⟩
  · have open' : (greeted m).isOpen := open_
    have host : (greeted m).host = m.host := rfl
    have max' : (greeted m).max = m.max := rfl
    have some : greetingRequests.map Request.record ≠ [] := List.cons_ne_nil _ _
    rw [if_neg (by rw [short]; omega), connect, ok_bind asked]
    rw [greeting_eq] at held
    cases refuses : Simulator.refuses greetingRequests m.host with
    | true =>
      obtain ⟨result, view', failure, sent⟩ := conforms.refuses held.message held.size (host ▸ refuses)
      have refused := orClose_error (process_refused open' held some sent failure)
      refine (congrArg (Concludes _ _ _) (error_bind refused)).mpr ?_
      rw [if_pos rfl]
      exact concludes_error (by decide) rfl
    | false =>
      obtain ⟨view', answered, sent⟩ := conforms.serves held.message held.size (host ▸ refuses)
      have copied := orClose_ok (process_answered open' held some sent (Request.answers_answered _ _) answered)
      have versions := greeted_versions { greeted m with view := view', host := (ModuleUser.serve greetingRequests m.host).2 } m.host
      refine (congrArg (Concludes _ _ _) (ok_bind copied)).mpr ?_
      obtain ⟨version, fsVersion⟩ := versions
      rw [checkVersions_eq, if_neg Bool.false_ne_true]
      dsimp only
      rw [version, fsVersion]
      split_ifs with old wrong
      · exact concludes_error (by decide) rfl
      · exact concludes_error (by decide) rfl
      · refine ⟨fun same => ?_, nofun⟩
        cases same
        exact ⟨rfl, rfl, rfl, by simpa using open', rfl, by simpa [max'] using max, by simp, held.emptied rfl (by simp), nofun⟩
  · rw [if_pos (by rw [short]; omega), connect, error_bind refused]
    exact concludes_error (by decide) closed

/-- The library with its memory, before the handshake. -/
def given (dwSize : UInt32) (mem : Nat → UInt8) (m : Library σ) : Library σ :=
  { m with version := 0, fsVersion := 0, hWnd := true, max := min dwSize maxSize, isOpen := true, view := mem, next := 4 }

omit [Simulator σ] in
/-- `FSUIPC_Open2` on a closed library. -/
theorem open2_eq (dwFSReq dwSize : UInt32) (mem : Nat → UInt8) (closed : m.isOpen = false) :
    open2 dwFSReq (some mem) dwSize m = if dwSize < 32 then .error (.code errView) m
      else if !Host.findWindow m.host then .error (.code errNoFs) { m with version := 0, fsVersion := 0, hWnd := false }
      else connect dwFSReq (given dwSize mem m) := by
  unfold open2 given
  rw [if_neg (by simp [closed])]
  dsimp only
  split_ifs with short missing
  · rfl
  · simp_all
  · simp_all

theorem given_concludes (conforms : Conforms σ) (dwFSReq dwSize : UInt32) (mem : Nat → UInt8) (enough : ¬ dwSize < 32)
    (window : Host.findWindow m.host) :
    Concludes (min dwSize.toNat 0x7F00) (verdict dwFSReq dwSize m.host) m.host (connect dwFSReq (given dwSize mem m)) := by
  have long : 32 ≤ dwSize.toNat := by simpa [UInt32.lt_iff_toNat_lt] using enough
  have size : (min dwSize maxSize).toNat = min dwSize.toNat 0x7F00 := by
    rw [UInt32.toNat_min]
    rfl
  have room : (min dwSize maxSize).toNat ≤ 0x7F00 := by omega
  have holding : Holding [] (given dwSize mem m) := ⟨Lies.nil _ _, rfl, by show 4 + 8 ≤ (min dwSize maxSize).toNat; omega, room⟩
  exact connect_concludes (m := given dwSize mem m) conforms dwFSReq dwSize rfl holding long size window

/-- What `FSUIPC_Open2` says of a closed library. -/
theorem open2_concludes (conforms : Conforms σ) (dwFSReq dwSize : UInt32) (mem : Nat → UInt8) (closed : m.isOpen = false) :
    Concludes (min dwSize.toNat 0x7F00) (verdict dwFSReq dwSize m.host) m.host (open2 dwFSReq (some mem) dwSize m) := by
  rw [open2_eq dwFSReq dwSize mem closed]
  split_ifs with short missing
  · rw [verdict, if_pos short]
    exact concludes_error (by decide) closed
  · rw [verdict, if_neg short, if_pos missing]
    exact concludes_error (by decide) closed
  · exact given_concludes conforms dwFSReq dwSize mem short (by simpa using missing)

/-- A library that was opened does what the requests say. -/
theorem opened_alike (conforms : Conforms σ) (dwFSReq dwSize : UInt32) (mem : Nat → UInt8) (closed : m.isOpen = false) {m' : Library σ}
    (opened : open2 dwFSReq (some mem) dwSize m = .ok () m') (calls : List AdapterCall) (placed : ∀ call ∈ calls, call.Placed) :
    Alike Represents AdapterCall.onBytes AdapterCall.onRequests calls m'
      ⟨true, min dwSize.toNat 0x7F00, [], (ModuleUser.serve greetingRequests m.host).2⟩ := by
  rw [open2_eq dwFSReq dwSize mem closed] at opened
  split_ifs at opened with short missing
  have concluded := given_concludes conforms dwFSReq dwSize mem short (m := m) (by simpa using missing)
  exact AdapterCall.alike conforms calls placed (concluded.ok opened).2.2.2

end
end Library

namespace Library
open MemoryHost

theorem open2_concludes_memory : Concludes 0x7F00 0 closedLibrary.host
    (open2 8 (some fun _ => 0) (65 * 1024) closedLibrary) := by
  have right : verdict 8 (65 * 1024) closedLibrary.host = 0 := by decide
  have concluded := open2_concludes conforms 8 (65 * 1024) (fun _ => 0) (m := closedLibrary) rfl
  rwa [right] at concluded

/-- The library opens over a memory of bytes. -/
theorem opens_memory : ∃ m', open2 0 (some fun _ => 0) (65 * 1024) closedLibrary = .ok () m' := by
  have right : verdict 0 (65 * 1024) closedLibrary.host = 0 := by decide
  have concluded := given_concludes conforms 0 (65 * 1024) (fun _ => 0) (m := closedLibrary) (by decide) rfl
  have connects : open2 0 (some fun _ => 0) (65 * 1024) closedLibrary = connect 0 (given (65 * 1024) (fun _ => 0) closedLibrary) :=
    open2_eq 0 (65 * 1024) (fun _ => 0) rfl
  rw [connects]
  cases connected : connect 0 (given (65 * 1024) (fun _ => 0) closedLibrary) with
  | ok u m' => exact ⟨m', rfl⟩
  | error fault m' => exact absurd right (concluded.error connected).1

theorem opened_alike_memory : ∃ m', open2 0 (some fun _ => 0) (65 * 1024) closedLibrary = .ok () m' ∧
    Alike Represents AdapterCall.onBytes AdapterCall.onRequests
      [.issue (.write ⟨⟨0x200, .word⟩, 7⟩), .issue (.read ⟨0x200, .byte⟩ 0x500000), .process] m'
      ⟨true, 0x7F00, [], (ModuleUser.serve greetingRequests closedLibrary.host).2⟩ := by
  obtain ⟨m', opened⟩ := opens_memory
  exact ⟨m', opened, opened_alike conforms 0 (65 * 1024) (fun _ => 0) rfl opened _ (by simp [AdapterCall.Placed, Request.Placed])⟩

end Library
end Oac.Fsuipc
