import Oac.Fsuipc.Client
import Mathlib.Data.Multiset.Filter

/-!
# Requests that are kept

What a client asks of its adapter, as requests that the adapter keeps until they are
processed (`Contract`), and the local adapter: it wraps the functions of the ModuleUser
library, which keeps the requests in a memory of limited room and sends them to the
simulator in one message.
-/
namespace Oac.Fsuipc
open Base

/-- A request that an adapter keeps: to read into the value at a pointer, or to write. -/
inductive Request where
  | read (offset : Offset) (pointer : Pointer)
  | write (valuedOffset : ValuedOffset)
  deriving DecidableEq

namespace Request

/-- The pointer that the request stores through. -/
def pointer : Request → Option Pointer
  | .read _ pointer => some pointer
  | .write _ => none

variable {α : Type} [UserAdapter α]

/-- The call that makes the request. -/
def issue : Request → EStateM Exception α Unit
  | .read offset pointer => UserAdapter.read offset pointer
  | .write valuedOffset => UserAdapter.write valuedOffset

def issueAll : List Request → EStateM Exception α Unit
  | [] => pure ()
  | request :: requests => do
    request.issue
    issueAll requests

/-- All the requests are made, and processed. -/
def commit (requests : List Request) : EStateM Exception α (List (Pointer × UInt32)) := do
  issueAll requests
  UserAdapter.process

end Request

/-- The contract of the FsuipcUserAdapter concept, for an adapter that may fail at any call
    but does not drop what is pending. -/
structure UserAdapter.Contract {α : Type} [UserAdapter α] (pending : α → Multiset Request) : Prop where
  scheduled : ∀ {req : Request} {a u a'}, req.issue a = .ok u a' → pending a' = req ::ₘ pending a
  refused : ∀ {req : Request} {a e a'}, req.issue a = .error e a' → pending a' = pending a
  processed : ∀ {a stores a'}, UserAdapter.process a = .ok stores a' →
    pending a' = 0 ∧ (stores.map Prod.fst : Multiset Pointer) = (pending a).filterMap Request.pointer
  unprocessed : ∀ {a e a'}, UserAdapter.process a = .error e a' → pending a' = pending a

namespace Request
variable {α : Type} [UserAdapter α] {pending : α → Multiset Request}

/-- Requests are only added, also when one of them is refused. -/
theorem pending_issueAll (contract : UserAdapter.Contract pending) (requests : List Request) (a : α) :
    pending a ≤ pending (after (issueAll requests a)) := by
  induction requests generalizing a with
  | nil => exact le_rfl
  | cons request requests ih =>
    unfold issueAll
    cases issued : request.issue a with
    | ok u a₁ =>
      rw [ok_bind issued]
      have more : pending a ≤ pending a₁ := contract.scheduled issued ▸ Multiset.le_cons_self _ _
      exact more.trans (ih a₁)
    | error e a₁ =>
      rw [error_bind issued]
      exact (contract.refused issued).ge

theorem pending_issued (contract : UserAdapter.Contract pending) {requests : List Request} {a a' : α} {u : Unit}
    (issued : issueAll requests a = .ok u a') : pending a' = pending a + requests := by
  induction requests generalizing a with
  | nil =>
    cases issued
    exact (add_zero _).symm
  | cons request requests ih =>
    obtain ⟨v, a₁, first, rest⟩ := bind_ok issued
    rw [ih rest, contract.scheduled first, ← Multiset.cons_coe, Multiset.add_cons, Multiset.cons_add]

/-- A failure drops nothing. -/
theorem pending_failed (contract : UserAdapter.Contract pending) {requests : List Request} {a a' : α} {e : Exception}
    (failed : commit requests a = .error e a') : pending a ≤ pending a' := by
  have more := pending_issueAll contract requests a
  unfold commit at failed
  cases issued : issueAll requests a with
  | ok u a₁ =>
    rw [issued] at more
    rw [ok_bind issued] at failed
    rw [contract.unprocessed failed]
    exact more
  | error e' a₁ =>
    rw [issued] at more
    rw [error_bind issued] at failed
    cases failed
    exact more

theorem pending_committed (contract : UserAdapter.Contract pending) {requests : List Request} {a a' : α}
    {stores : List (Pointer × UInt32)} (committed : commit requests a = .ok stores a') : pending a' = 0 := by
  obtain ⟨u, a₁, -, processed⟩ := bind_ok committed
  exact (contract.processed processed).1

end Request

/-! ## The ModuleUser library -/

/-- What answers the messages of the library. -/
class Simulator (σ : Type) where
  refuses : List Request → σ → Bool
  read : σ → Offset → UInt32
  write : σ → ValuedOffset → σ

/-- The state of the library: `m_pView` is not null, `m_ulMax`, and the requests that lie
    between `m_pView + 4` and `m_pNext`. -/
structure ModuleUser (σ : Type) where
  isOpen : Bool
  max : Nat
  requests : List Request
  simulator : σ

namespace ModuleUser
variable {σ : Type}

def errNotOpen : UInt32 := 9
def errNoData : UInt32 := 10
def errData : UInt32 := 13
def errSize : UInt32 := 15

/-- The bytes of a request with its header. -/
def size : Request → Nat
  | .read offset _ => 16 + offset.length.toNat
  | .write valuedOffset => 12 + valuedOffset.length.toNat

/-- `m_pNext - m_pView`. -/
def next (m : ModuleUser σ) : Nat := 4 + (m.requests.map size).sum

/-- `FSUIPC_Read` and `FSUIPC_Write`. The room is that of the request and of a terminator. -/
def add (request : Request) : EStateM UInt32 (ModuleUser σ) Unit := fun m =>
  if !m.isOpen then .error errNotOpen m
  else if m.next + 8 + size request > m.max then .error errSize m
  else .ok () { m with requests := m.requests ++ [request] }

variable [Simulator σ]

/-- The requests are served in order. -/
def serve : List Request → σ → List (Pointer × UInt32) × σ
  | [], simulator => ([], simulator)
  | .read offset pointer :: requests, simulator =>
    let (stores, simulator') := serve requests simulator
    ((pointer, Simulator.read simulator offset) :: stores, simulator')
  | .write valuedOffset :: requests, simulator => serve requests (Simulator.write simulator valuedOffset)

/-- `FSUIPC_Process`. The requests are gone once the message was sent, whatever the answer. -/
def process : EStateM UInt32 (ModuleUser σ) (List (Pointer × UInt32)) := fun m =>
  if !m.isOpen then .error errNotOpen m
  else if m.requests = [] then .error errNoData m
  else if Simulator.refuses m.requests m.simulator then .error errData { m with requests := [] }
  else
    let (stores, simulator) := serve m.requests m.simulator
    .ok stores { m with requests := [], simulator }

omit [Simulator σ] in
/-- The error code in an exception. -/
def throwing {β : Type} (x : EStateM UInt32 (ModuleUser σ) β) : EStateM Exception (ModuleUser σ) β := fun m =>
  match x m with
  | .ok b m' => .ok b m'
  | .error code m' => .error (.fsuipc code.toNat) m'

/-- `local_user_adapter`. -/
instance : UserAdapter (ModuleUser σ) where
  read offset pointer := throwing (add (.read offset pointer))
  write valuedOffset := throwing (add (.write valuedOffset))
  process := throwing process

def pending (m : ModuleUser σ) : Multiset Request := m.requests

theorem issue_eq (request : Request) : (request.issue : EStateM Exception (ModuleUser σ) Unit) = throwing (add request) := by
  cases request <;> rfl

omit [Simulator σ] in
theorem throwing_ok {β : Type} {x : EStateM UInt32 (ModuleUser σ) β} {m m' : ModuleUser σ} {b : β}
    (executed : throwing x m = .ok b m') : x m = .ok b m' := by
  unfold throwing at executed
  split at executed
  · cases executed
    assumption
  · cases executed

omit [Simulator σ] in
theorem throwing_error {β : Type} {x : EStateM UInt32 (ModuleUser σ) β} {m m' : ModuleUser σ} {e : Exception}
    (raised : throwing x m = .error e m') : ∃ code, x m = .error code m' := by
  unfold throwing at raised
  split at raised
  · cases raised
  · cases raised
    exact ⟨_, ‹_›⟩

theorem serve_pointers (requests : List Request) (simulator : σ) :
    (serve requests simulator).1.map Prod.fst = requests.filterMap Request.pointer := by
  induction requests generalizing simulator with
  | nil => rfl
  | cons request requests ih =>
    cases request with
    | read offset pointer =>
      rw [List.filterMap_cons_some (show (Request.read offset pointer).pointer = some pointer from rfl), ← ih simulator]
      rfl
    | write valuedOffset =>
      rw [List.filterMap_cons_none (show (Request.write valuedOffset).pointer = none from rfl),
        ← ih (Simulator.write simulator valuedOffset)]
      rfl

/-- The library keeps the contract as long as the simulator takes its messages. -/
theorem contract (takes : ∀ requests (simulator : σ), Simulator.refuses requests simulator = false) :
    UserAdapter.Contract (pending (σ := σ)) where
  scheduled := by
    intro request m u m' issued
    rw [issue_eq] at issued
    have added := throwing_ok issued
    unfold add at added
    split_ifs at added
    cases added
    show ((m.requests ++ [request] : List Request) : Multiset Request) = request ::ₘ (m.requests : Multiset Request)
    rw [← Multiset.coe_add, Multiset.coe_singleton, add_comm, Multiset.singleton_add]
  refused := by
    intro request m e m' issued
    rw [issue_eq] at issued
    obtain ⟨code, added⟩ := throwing_error issued
    unfold add at added
    split_ifs at added <;> cases added <;> rfl
  processed := by
    intro m stores m' processed
    have sent := throwing_ok processed
    unfold process at sent
    split_ifs at sent
    cases sent
    refine ⟨rfl, ?_⟩
    rw [serve_pointers]
    rfl
  unprocessed := by
    intro m e m' processed
    obtain ⟨code, sent⟩ := throwing_error processed
    unfold process at sent
    rw [takes] at sent
    split_ifs at sent with closed none refusal
    · cases sent
      rfl
    · cases sent
      rfl
    · exact refusal.elim

end ModuleUser

/-- A simulator that is a memory of bytes. -/
instance : Simulator (Nat → UInt8) where
  refuses _ _ := false
  read := DummyUserAdapter.readValueFromBuffer
  write := DummyUserAdapter.writeValueToBuffer

end Oac.Fsuipc
