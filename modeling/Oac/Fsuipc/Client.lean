import Oac.Base.Program
import Oac.Fsuipc.Offset
import Mathlib.Logic.Function.Basic

/-!
# The FSUIPC client

A client reads and writes offsets through a user adapter, which collects requests and
commits them together. A read request keeps a pointer to the value that is to be filled.
-/
namespace Oac.Fsuipc
open Base

/-- The place of a value in the memory of the process. -/
abbrev Pointer := Nat

/-- The FsuipcUserAdapter concept. `process` returns what it stores through the pointers
    of the reads, in order. -/
class UserAdapter (α : Type) where
  read : Offset → Pointer → EStateM Exception α Unit
  write : ValuedOffset → EStateM Exception α Unit
  process : EStateM Exception α (List (Pointer × UInt32))

/-- An adapter that does not fail. -/
structure UserAdapter.Reliable (α : Type) [UserAdapter α] : Prop where
  read : ∀ offset pointer (a : α), ∃ a', UserAdapter.read offset pointer a = .ok () a'
  write : ∀ offset (a : α), ∃ a', UserAdapter.write offset a = .ok () a'
  process : ∀ a : α, ∃ stores a', UserAdapter.process a = .ok stores a'

/-- `allocated` counts the list nodes that queries have made, each at its own place. -/
structure FsuipcClient (α : Type) where
  userAdapter : α
  allocated : Nat

namespace FsuipcClient
variable {α : Type}

/-- A call of the adapter. -/
def onAdapter {β : Type} (x : EStateM Exception α β) : EStateM Exception (FsuipcClient α) β := fun c =>
  match x c.userAdapter with
  | .ok b a => .ok b { c with userAdapter := a }
  | .error e a => .error e { c with userAdapter := a }

variable [UserAdapter α]

/-- The loop of `query`: a node for each offset, and a request to fill it. -/
def schedule : List Offset → EStateM Exception (FsuipcClient α) (List (Pointer × Offset))
  | [] => pure []
  | offset :: offsets => do
    let pointer ← modifyGet fun c => (c.allocated, { c with allocated := c.allocated + 1 })
    onAdapter (UserAdapter.read offset pointer)
    let nodes ← schedule offsets
    pure ((pointer, offset) :: nodes)

/-- The value of a node after the stores: the last one through its pointer. -/
def fill (stores : List (Pointer × UInt32)) (node : Pointer × Offset) : ValuedOffset :=
  ⟨node.2, (stores.foldl (fun value store => if store.1 = node.1 then store.2 else value) 0)⟩

/-- The valued offsets that `query` evaluates, in order. -/
def query (offsets : List Offset) : EStateM Exception (FsuipcClient α) (List ValuedOffset) :=
  if offsets = [] then pure []
  else do
    let nodes ← schedule offsets
    let stores ← onAdapter UserAdapter.process
    pure (nodes.map (fill stores))

def writeAll : List ValuedOffset → EStateM Exception (FsuipcClient α) Unit
  | [] => pure ()
  | val :: valuedOffsets => do
    onAdapter (UserAdapter.write val)
    writeAll valuedOffsets

def update (valuedOffsets : List ValuedOffset) : EStateM Exception (FsuipcClient α) Unit :=
  if valuedOffsets = [] then pure ()
  else do
    writeAll valuedOffsets
    let _ ← onAdapter UserAdapter.process
    pure ()

/-! ## Adapters that do not fail -/

open UserAdapter

omit [UserAdapter α] in
theorem onAdapter_ok {β : Type} {x : EStateM Exception α β} {c : FsuipcClient α} {b : β} {a : α}
    (executed : x c.userAdapter = .ok b a) : onAdapter x c = .ok b { c with userAdapter := a } := by
  simp only [onAdapter, executed]

theorem schedule_returns (reliable : Reliable α) (offsets : List Offset) (c : FsuipcClient α) :
    ∃ nodes c', schedule offsets c = .ok nodes c' ∧ nodes.map Prod.snd = offsets := by
  induction offsets generalizing c with
  | nil => exact ⟨[], c, rfl, rfl⟩
  | cons offset offsets ih =>
    obtain ⟨a, executed⟩ := reliable.read offset c.allocated c.userAdapter
    obtain ⟨nodes, c', continued, same⟩ := ih { userAdapter := a, allocated := c.allocated + 1 }
    refine ⟨(c.allocated, offset) :: nodes, c', ?_, ?_⟩
    · have placed : (modifyGet fun c => (c.allocated, { c with allocated := c.allocated + 1 }) :
          EStateM Exception (FsuipcClient α) Nat) c = .ok c.allocated { c with allocated := c.allocated + 1 } := rfl
      have requested := onAdapter_ok (c := { c with allocated := c.allocated + 1 }) executed
      refine (ok_bind placed).trans ((ok_bind requested).trans ((ok_bind continued).trans rfl))
    · rw [List.map_cons, same]

/-- A query evaluates its offsets in order. -/
theorem query_returns (reliable : Reliable α) (offsets : List Offset) (c : FsuipcClient α) :
    ∃ values c', query offsets c = .ok values c' ∧ values.map ValuedOffset.toOffset = offsets := by
  by_cases none : offsets = []
  · subst none
    exact ⟨[], c, rfl, rfl⟩
  · obtain ⟨nodes, c₁, scheduled, same⟩ := schedule_returns reliable offsets c
    obtain ⟨stores, a, processed⟩ := reliable.process c₁.userAdapter
    refine ⟨nodes.map (fill stores), { c₁ with userAdapter := a }, ?_, ?_⟩
    · rw [query, if_neg none]
      exact (ok_bind scheduled).trans ((ok_bind (onAdapter_ok processed)).trans rfl)
    · rw [List.map_map, ← same]
      rfl

theorem update_returns (reliable : Reliable α) (valuedOffsets : List ValuedOffset) (c : FsuipcClient α) :
    ∃ c', update valuedOffsets c = .ok () c' := by
  by_cases none : valuedOffsets = []
  · subst none
    exact ⟨c, rfl⟩
  · have written : ∀ (vals : List ValuedOffset) (c : FsuipcClient α), ∃ c', writeAll vals c = .ok () c' := by
      intro vals
      induction vals with
      | nil => exact fun c => ⟨c, rfl⟩
      | cons val vals ih =>
        intro c
        obtain ⟨a, executed⟩ := reliable.write val c.userAdapter
        obtain ⟨c', continued⟩ := ih { c with userAdapter := a }
        exact ⟨c', (ok_bind (onAdapter_ok executed)).trans continued⟩
    obtain ⟨c₁, all⟩ := written valuedOffsets c
    obtain ⟨stores, a, processed⟩ := reliable.process c₁.userAdapter
    refine ⟨{ c₁ with userAdapter := a }, ?_⟩
    rw [update, if_neg none]
    exact (ok_bind all).trans ((ok_bind (onAdapter_ok processed)).trans rfl)

end FsuipcClient

/-! ## Adapters that read a memory -/

/-- The adapter reads a memory: it keeps the requests to read and fills them from the
    memory when they are processed. -/
structure UserAdapter.Faithful {α : Type} [UserAdapter α] (requests : α → List (Offset × Pointer))
    (memory : α → Offset → UInt32) : Prop where
  read : ∀ {offset pointer a u a'}, UserAdapter.read offset pointer a = .ok u a' →
    requests a' = requests a ++ [(offset, pointer)] ∧ memory a' = memory a
  process : ∀ {a stores a'}, UserAdapter.process a = .ok stores a' →
    stores = (requests a).map (fun req => (req.2, memory a req.1)) ∧ requests a' = [] ∧ memory a' = memory a

/-- An offset with its value in the memory. -/
def Offset.valued (memory : Offset → UInt32) (offset : Offset) : ValuedOffset := ⟨offset, memory offset⟩

@[simp] theorem Offset.valued_toOffset (memory : Offset → UInt32) (offset : Offset) :
    (offset.valued memory).toOffset = offset := rfl
@[simp] theorem Offset.valued_value (memory : Offset → UInt32) (offset : Offset) :
    (offset.valued memory).value = memory offset := rfl

namespace FsuipcClient
variable {α : Type} [UserAdapter α] {requests : α → List (Offset × Pointer)} {memory : α → Offset → UInt32}

omit [UserAdapter α] in
theorem onAdapter_inv {β : Type} {x : EStateM Exception α β} {c c' : FsuipcClient α} {b : β}
    (executed : onAdapter x c = .ok b c') : ∃ a, x c.userAdapter = .ok b a ∧ c' = { c with userAdapter := a } := by
  unfold onAdapter at executed
  split at executed
  · cases executed
    exact ⟨_, ‹_›, rfl⟩
  · cases executed

/-- The nodes are at places of their own, each with a request to fill it. -/
theorem schedule_requests (faithful : UserAdapter.Faithful requests memory) {offsets : List Offset}
    {c c' : FsuipcClient α} {nodes : List (Pointer × Offset)} (executed : schedule offsets c = .ok nodes c') :
    nodes.map Prod.snd = offsets ∧ (nodes.map Prod.fst).Nodup ∧ (∀ node ∈ nodes, c.allocated ≤ node.1) ∧
      requests c'.userAdapter = requests c.userAdapter ++ nodes.map (fun node => (node.2, node.1)) ∧
      memory c'.userAdapter = memory c.userAdapter := by
  induction offsets generalizing c nodes with
  | nil =>
    cases executed
    exact ⟨rfl, List.nodup_nil, nofun, (List.append_nil _).symm, rfl⟩
  | cons offset offsets ih =>
    have placed : (modifyGet fun c => (c.allocated, { c with allocated := c.allocated + 1 }) :
        EStateM Exception (FsuipcClient α) Nat) c = .ok c.allocated { c with allocated := c.allocated + 1 } := rfl
    have unfolded := (ok_bind placed).symm.trans executed
    obtain ⟨u, c₁, requested, continued⟩ := bind_ok unfolded
    obtain ⟨nodes', c₂, scheduled, last⟩ := bind_ok continued
    cases last
    obtain ⟨a, read, rfl⟩ := onAdapter_inv requested
    obtain ⟨asked, same⟩ := faithful.read read
    obtain ⟨offsets', distinct, later, all, same'⟩ := ih scheduled
    have later : ∀ node ∈ nodes', c.allocated + 1 ≤ node.1 := later
    refine ⟨?_, ?_, ?_, ?_, same'.trans same⟩
    · rw [List.map_cons, offsets']
    · rw [List.map_cons, List.nodup_cons]
      refine ⟨?_, distinct⟩
      intro again
      obtain ⟨node, member, here⟩ := List.mem_map.mp again
      have above := later node member
      rw [show node.1 = c.allocated from here] at above
      exact absurd above (Nat.not_succ_le_self _)
    · intro node member
      rcases List.mem_cons.mp member with rfl | member
      · exact le_rfl
      · have := later node member
        omega
    · rw [all, asked, List.map_cons, List.append_assoc]
      rfl

/-- A node holds the value of the one store through its pointer. -/
theorem fill_unique {stores : List (Pointer × UInt32)} {pointer : Pointer} {value : UInt32}
    (distinct : (stores.map Prod.fst).Nodup) (member : (pointer, value) ∈ stores) (offset : Offset) :
    fill stores (pointer, offset) = ⟨offset, value⟩ := by
  have last : ∀ (stores : List (Pointer × UInt32)) (init : UInt32), (stores.map Prod.fst).Nodup →
      (pointer, value) ∈ stores ∨ (pointer ∉ stores.map Prod.fst ∧ init = value) →
      stores.foldl (fun value store => if store.1 = pointer then store.2 else value) init = value := by
    intro stores
    induction stores with
    | nil =>
      rintro init - (member | ⟨-, same⟩)
      · exact absurd member List.not_mem_nil
      · exact same
    | cons store stores ih =>
      intro init distinct either
      obtain ⟨other, distinct⟩ := List.nodup_cons.mp distinct
      apply ih _ distinct
      by_cases here : store.1 = pointer
      · refine .inr ⟨here ▸ other, ?_⟩
        rcases either with member | ⟨missing, -⟩
        · rcases List.mem_cons.mp member with same | member
          · simp [← same]
          · exact absurd (here ▸ List.mem_map_of_mem member : store.1 ∈ stores.map Prod.fst) other
        · exact absurd (here ▸ List.mem_cons_self) missing
      · rcases either with member | ⟨missing, same⟩
        · rcases List.mem_cons.mp member with same | member
          · exact absurd (congrArg Prod.fst same).symm here
          · exact .inl member
        · refine .inr ⟨fun member => missing (List.mem_cons_of_mem _ member), ?_⟩
          simp [here, same]
  simp only [fill, last stores 0 distinct (.inl member)]

/-- A query that returns evaluates the offsets with their values in the memory. -/
theorem query_reads (faithful : UserAdapter.Faithful requests memory) {offsets : List Offset} {c c' : FsuipcClient α}
    {values : List ValuedOffset} (idle : requests c.userAdapter = []) (executed : query offsets c = .ok values c') :
    values = offsets.map (Offset.valued (memory c.userAdapter)) ∧ requests c'.userAdapter = [] ∧
      memory c'.userAdapter = memory c.userAdapter := by
  unfold query at executed
  by_cases none : offsets = []
  · rw [if_pos none] at executed
    cases executed
    rw [none]
    exact ⟨rfl, idle, rfl⟩
  · rw [if_neg none] at executed
    obtain ⟨nodes, c₁, scheduled, continued⟩ := bind_ok executed
    obtain ⟨stores, c₂, processed, last⟩ := bind_ok continued
    cases last
    obtain ⟨a, process, rfl⟩ := onAdapter_inv processed
    obtain ⟨same, distinct, -, all, kept⟩ := schedule_requests faithful scheduled
    obtain ⟨filled, done, kept'⟩ := faithful.process process
    rw [idle, List.nil_append] at all
    refine ⟨?_, done, kept'.trans kept⟩
    rw [← same, List.map_map]
    apply List.map_congr_left
    rintro ⟨pointer, offset⟩ member
    rw [all, List.map_map, kept] at filled
    apply fill_unique
    · rw [filled, List.map_map]
      exact distinct
    · rw [filled]
      exact List.mem_map.mpr ⟨(pointer, offset), member, rfl⟩

theorem update_requests (faithful : UserAdapter.Faithful requests memory) {vals : List ValuedOffset}
    {c c' : FsuipcClient α} {u : Unit} (idle : requests c.userAdapter = []) (executed : update vals c = .ok u c') :
    requests c'.userAdapter = [] := by
  unfold update at executed
  split at executed
  · cases executed
    exact idle
  · obtain ⟨v, c₁, written, continued⟩ := bind_ok executed
    obtain ⟨stores, c₂, processed, last⟩ := bind_ok continued
    cases last
    obtain ⟨a, process, rfl⟩ := onAdapter_inv processed
    exact (faithful.process process).2.1

end FsuipcClient

/-! ## The dummy adapter -/

/-- `dummy_user_adapter`. Its buffer begins at address 0. -/
structure DummyUserAdapter where
  buffer : Nat → UInt8
  readRequests : List (Offset × Pointer)
  writeRequests : List ValuedOffset

namespace DummyUserAdapter

def create : DummyUserAdapter := ⟨fun _ => 0, [], []⟩

def readValueFromBuffer (buffer : Nat → UInt8) (offset : Offset) : UInt32 :=
  let addr := offset.address.toNat
  let low := UInt32.ofNat (buffer addr).toNat
  let second := UInt32.ofNat (buffer (addr + 1)).toNat <<< 8
  match offset.length with
  | .byte => low
  | .word => second + low
  | .dword =>
    UInt32.ofNat (buffer (addr + 3)).toNat <<< 24 + UInt32.ofNat (buffer (addr + 2)).toNat <<< 16 + second + low

def writeValueToBuffer (buffer : Nat → UInt8) (valuedOffset : ValuedOffset) : Nat → UInt8 :=
  let addr := valuedOffset.address.toNat
  let value := valuedOffset.value
  let set (addr : Nat) (value : UInt32) (buffer : Nat → UInt8) : Nat → UInt8 :=
    Function.update buffer addr (UInt8.ofNat value.toNat)
  match valuedOffset.length with
  | .byte => set addr value buffer
  | .word => set addr value (set (addr + 1) (value >>> 8) buffer)
  | .dword => set addr value (set (addr + 1) (value >>> 8) (set (addr + 2) (value >>> 16)
      (set (addr + 3) (value >>> 24) buffer)))

instance : UserAdapter DummyUserAdapter where
  read offset pointer := fun a => .ok () { a with readRequests := a.readRequests ++ [(offset, pointer)] }
  write valuedOffset := fun a => .ok () { a with writeRequests := a.writeRequests ++ [valuedOffset] }
  process := fun a =>
    let buffer := a.writeRequests.foldl writeValueToBuffer a.buffer
    .ok (a.readRequests.map fun req => (req.2, readValueFromBuffer buffer req.1)) ⟨buffer, [], []⟩

theorem reliable : UserAdapter.Reliable DummyUserAdapter :=
  ⟨fun _ _ _ => ⟨_, rfl⟩, fun _ _ => ⟨_, rfl⟩, fun _ => ⟨_, _, rfl⟩⟩

/-- The buffer as it is once the writes are done. -/
def memory (a : DummyUserAdapter) : Offset → UInt32 :=
  readValueFromBuffer (a.writeRequests.foldl writeValueToBuffer a.buffer)

theorem faithful : UserAdapter.Faithful readRequests memory where
  read := by
    intro offset pointer a u a' executed
    cases executed
    exact ⟨rfl, rfl⟩
  process := by
    intro a stores a' executed
    cases executed
    exact ⟨rfl, rfl, rfl⟩

end DummyUserAdapter
end Oac.Fsuipc
