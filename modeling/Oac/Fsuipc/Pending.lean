import Oac.Base.Run
import Oac.Fsuipc.Local

/-!
# Requests of a call that failed

A query has its values read into a list of its own, which is gone when it ends. The
concept of an adapter has nothing to take requests back with, so that those of a call that
fails stay with the adapter as soon as one of them was accepted (`nothing_outlives_iff`).
-/
namespace Oac.Fsuipc
open Base

namespace FsuipcClient
variable {α β γ : Type}

inductive Call where
  | query (offsets : List Offset)
  | update (valuedOffsets : List ValuedOffset)

/-- The reads into nodes that are made from a place on. -/
def reads : List Offset → Pointer → List Request
  | [], _ => []
  | offset :: offsets, pointer => .read offset pointer :: reads offsets (pointer + 1)

/-- What a call asks of the adapter. -/
def Call.requests (c : FsuipcClient α) : Call → List Request
  | .query offsets => reads offsets c.allocated
  | .update valuedOffsets => valuedOffsets.map Request.write

/-- A program of the client ends as one of its adapter does. -/
def SameEnd : EStateM.Result Exception (FsuipcClient α) β → EStateM.Result Exception α γ → Prop
  | .ok _ c, .ok _ a => c.userAdapter = a
  | .error e c, .error e' a => e = e' ∧ c.userAdapter = a
  | _, _ => False

theorem SameEnd.adapter {result : EStateM.Result Exception (FsuipcClient α) β} {result' : EStateM.Result Exception α γ}
    (same : SameEnd result result') : (after result).userAdapter = after result' := by
  cases result with
  | ok b c =>
    cases result' with
    | ok d a => exact same
    | error e a => exact same.elim
  | error e c =>
    cases result' with
    | ok d a => exact same.elim
    | error e' a => exact same.2

theorem sameEnd_bind {β' γ' : Type} {x : EStateM Exception (FsuipcClient α) β} {y : EStateM Exception α γ}
    {f : β → EStateM Exception (FsuipcClient α) β'} {g : γ → EStateM Exception α γ'} {c : FsuipcClient α}
    (first : SameEnd (x c) (y c.userAdapter))
    (second : ∀ b d c', x c = .ok b c' → SameEnd (f b c') (g d c'.userAdapter)) :
    SameEnd ((x >>= f) c) ((y >>= g) c.userAdapter) := by
  cases executed : x c with
  | ok b c' =>
    cases executed' : y c.userAdapter with
    | ok d a =>
      rw [executed, executed'] at first
      obtain rfl : c'.userAdapter = a := first
      rw [ok_bind executed, ok_bind executed']
      exact second b d c' executed
    | error e a =>
      rw [executed, executed'] at first
      exact first.elim
  | error e c' =>
    cases executed' : y c.userAdapter with
    | ok d a =>
      rw [executed, executed'] at first
      exact first.elim
    | error e' a =>
      rw [executed, executed'] at first
      rw [error_bind executed, error_bind executed']
      exact first

/-- What is done with the result does not matter. -/
theorem SameEnd.returning {β' : Type} {x : EStateM Exception (FsuipcClient α) β} {y : EStateM Exception α γ}
    {c : FsuipcClient α} (f : β → β') (same : SameEnd (x c) (y c.userAdapter)) :
    SameEnd ((do let b ← x; pure (f b)) c) (y c.userAdapter) := by
  cases executed : x c with
  | ok b c' =>
    rw [executed] at same
    rw [ok_bind executed]
    cases executed' : y c.userAdapter with
    | ok d a =>
      rw [executed'] at same
      exact same
    | error e a =>
      rw [executed'] at same
      exact same
  | error e c' =>
    rw [executed] at same
    rw [error_bind executed]
    cases executed' : y c.userAdapter with
    | ok d a =>
      rw [executed'] at same
      exact same
    | error e' a =>
      rw [executed'] at same
      exact same

theorem sameEnd_onAdapter (x : EStateM Exception α β) (c : FsuipcClient α) :
    SameEnd (onAdapter x c) (x c.userAdapter) := by
  unfold onAdapter
  cases x c.userAdapter with
  | ok b a => rfl
  | error e a => exact ⟨rfl, rfl⟩

variable [UserAdapter α] {pending : α → Multiset Request} {c : FsuipcClient α} {call : Call}

/-- A call, without the values that a query evaluates. -/
def perform : Call → EStateM Exception (FsuipcClient α) Unit
  | .query offsets => do
    let _ ← query offsets
  | .update valuedOffsets => update valuedOffsets

theorem schedule_reads (offsets : List Offset) (c : FsuipcClient α) :
    SameEnd (schedule offsets c) (Request.issueAll (reads offsets c.allocated) c.userAdapter) := by
  induction offsets generalizing c with
  | nil => rfl
  | cons offset offsets ih =>
    have placed : (modifyGet fun c => (c.allocated, { c with allocated := c.allocated + 1 }) :
        EStateM Exception (FsuipcClient α) Nat) c = .ok c.allocated { c with allocated := c.allocated + 1 } := rfl
    unfold schedule reads Request.issueAll
    rw [ok_bind placed]
    apply sameEnd_bind (c := { c with allocated := c.allocated + 1 }) (sameEnd_onAdapter _ _)
    intro u v c' requested
    obtain ⟨a, -, rfl⟩ := onAdapter_inv requested
    exact (ih { userAdapter := a, allocated := c.allocated + 1 }).returning _

theorem writeAll_writes (valuedOffsets : List ValuedOffset) (c : FsuipcClient α) :
    SameEnd (writeAll valuedOffsets c) (Request.issueAll (valuedOffsets.map Request.write) c.userAdapter) := by
  induction valuedOffsets generalizing c with
  | nil => rfl
  | cons val valuedOffsets ih => exact sameEnd_bind (sameEnd_onAdapter _ _) fun _ _ c' _ => ih c'

/-- A call that asks for nothing does nothing. -/
theorem perform_none (none : call.requests c = []) : perform call c = .ok () c := by
  cases call with
  | query offsets =>
    cases offsets with
    | nil => rfl
    | cons offset offsets => cases none
  | update valuedOffsets =>
    cases valuedOffsets with
    | nil => rfl
    | cons val valuedOffsets => cases none

theorem query_commit {offsets : List Offset} (nonempty : offsets ≠ []) (c : FsuipcClient α) :
    SameEnd (query offsets c) (Request.commit (reads offsets c.allocated) c.userAdapter) := by
  unfold query
  rw [if_neg nonempty]
  apply sameEnd_bind (schedule_reads offsets c)
  intro nodes u c' scheduled
  exact (sameEnd_onAdapter _ _).returning _

theorem update_commit {valuedOffsets : List ValuedOffset} (nonempty : valuedOffsets ≠ []) (c : FsuipcClient α) :
    SameEnd (update valuedOffsets c) (Request.commit (valuedOffsets.map Request.write) c.userAdapter) := by
  unfold update
  rw [if_neg nonempty]
  apply sameEnd_bind (writeAll_writes valuedOffsets c)
  intro u v c' written
  exact (sameEnd_onAdapter _ _).returning _

/-- Any other call makes its requests and has them processed. -/
theorem perform_commit (some : call.requests c ≠ []) :
    SameEnd (perform call c) (Request.commit (call.requests c) c.userAdapter) := by
  cases call with
  | query offsets =>
    have nonempty : offsets ≠ [] := by
      rintro rfl
      exact some rfl
    exact (query_commit nonempty c).returning _
  | update valuedOffsets =>
    have nonempty : valuedOffsets ≠ [] := by
      rintro rfl
      exact some rfl
    exact update_commit nonempty c

/-- The adapter holds no request that the call has made. -/
def Clean (pending : α → Multiset Request) (call : Call) (c : FsuipcClient α) : Prop :=
  pending (after (perform call c)).userAdapter ≤ pending c.userAdapter

/-- The adapter refuses the first of the requests, or accepts all of them and processes
    them. -/
def AtOnce (requests : List Request) (a : α) : Prop :=
  ∀ request rest, requests = request :: rest →
    (∃ e a', request.issue a = .error e a') ∨ ∃ stores a', Request.commit requests a = .ok stores a'

theorem clean_iff (contract : UserAdapter.Contract pending) (c : FsuipcClient α) (call : Call) :
    Clean pending call c ↔ AtOnce (call.requests c) c.userAdapter := by
  unfold Clean AtOnce
  cases asked : call.requests c with
  | nil =>
    rw [perform_none asked]
    exact iff_of_true le_rfl nofun
  | cons request rest =>
    have some : call.requests c ≠ [] := by
      rw [asked]
      exact List.cons_ne_nil _ _
    have ends := (perform_commit some).adapter
    rw [asked] at ends
    rw [ends]
    constructor
    · rintro clean _ _ ⟨rfl, rfl⟩
      cases issued : request.issue c.userAdapter with
      | error e a => exact .inl ⟨e, a, rfl⟩
      | ok u a =>
        right
        cases committed : Request.commit (request :: rest) c.userAdapter with
        | ok stores a' => exact ⟨stores, a', rfl⟩
        | error e a' =>
          exfalso
          -- the first request was added, and nothing was dropped since
          have failed : Request.commit rest a = .error e a' := by
            unfold Request.commit Request.issueAll at committed
            rw [bind_assoc, ok_bind issued] at committed
            exact committed
          have kept := Request.pending_failed contract failed
          rw [committed] at clean
          rw [contract.scheduled issued] at kept
          have fewer := Multiset.card_le_card (kept.trans clean)
          rw [Multiset.card_cons] at fewer
          exact absurd fewer (Nat.not_succ_le_self _)
    · intro atOnce
      rcases atOnce request rest rfl with ⟨e, a, refused⟩ | ⟨stores, a, committed⟩
      · have failed : Request.commit (request :: rest) c.userAdapter = .error e a := by
          unfold Request.commit Request.issueAll
          rw [bind_assoc, error_bind refused]
        rw [failed]
        exact (contract.refused refused).le
      · rw [committed]
        exact (Request.pending_committed contract committed).trans_le (Multiset.zero_le _)

def Step (c : FsuipcClient α) (call : Call) (c' : FsuipcClient α) : Prop := c' = after (perform call c)

/-- The adapter holds nothing between the calls, so that what it processes then stores
    nothing, and what it processes in a call are the requests of this call. -/
structure Idle (pending : α → Multiset Request) (c : FsuipcClient α) : Prop where
  none : pending c.userAdapter = 0
  stores : ∀ stores a, UserAdapter.process c.userAdapter = .ok stores a → stores = []
  own : ∀ (call : Call) a, Request.issueAll (call.requests c) c.userAdapter = .ok () a →
    pending a = call.requests c

theorem Idle.of_none (contract : UserAdapter.Contract pending) (none : pending c.userAdapter = 0) : Idle pending c where
  none := none
  stores := by
    intro stores a processed
    have through := (contract.processed processed).2
    rw [none, Multiset.filterMap_zero, Multiset.coe_eq_zero, List.map_eq_nil_iff] at through
    exact through
  own := by
    intro call a issued
    rw [Request.pending_issued contract issued, none, zero_add]

/-- A request outlives its call exactly when the adapter fails after it has accepted one
    of the call. In a run without such a failure the adapter is idle between the calls. -/
theorem nothing_outlives_iff (contract : UserAdapter.Contract pending) :
    (∀ (c : FsuipcClient α) (call : Call), Clean pending call c ↔ AtOnce (call.requests c) c.userAdapter) ∧
      ∀ c₀ c : FsuipcClient α, pending c₀.userAdapter = 0 →
        Run (Meeting Step fun c call => AtOnce (call.requests c) c.userAdapter) c₀ c → Idle pending c := by
  refine ⟨clean_iff contract, ?_⟩
  intro c₀ c none run
  apply Idle.of_none contract
  refine run.invariant (I := fun c => pending c.userAdapter = 0) none ?_
  rintro c call c' none ⟨rfl, atOnce⟩
  have clean := (clean_iff contract c call).mpr atOnce
  unfold Clean at clean
  rw [none] at clean
  exact Multiset.le_zero.mp clean

/-- A client of the smallest library that can be opened. It has room for two reads. -/
def cramped : FsuipcClient (ModuleUser (Nat → UInt8)) := ⟨⟨true, 66, [], fun _ => 0⟩, 0⟩

theorem cramped_idle : Clean ModuleUser.pending (.query [⟨0x354, .word⟩]) cramped ∧
    Idle ModuleUser.pending (after (perform (.query [⟨0x354, .word⟩]) cramped)) := by
  have contract : UserAdapter.Contract (ModuleUser.pending (σ := Nat → UInt8)) := ModuleUser.contract fun _ _ => rfl
  have atOnce : AtOnce (Call.requests cramped (.query [⟨0x354, .word⟩])) cramped.userAdapter := by
    rintro _ _ ⟨rfl, rfl⟩
    exact .inr ⟨_, _, rfl⟩
  obtain ⟨clean, idle⟩ := nothing_outlives_iff contract
  exact ⟨(clean cramped _).mpr atOnce, idle cramped _ rfl ((Run.refl _).next ⟨rfl, atOnce⟩)⟩

/-- The third read is refused. The write of a byte still has room, and is processed with
    the reads into the first two nodes. -/
theorem cramped_not_clean :
    let query := Call.query [⟨0x354, .word⟩, ⟨0x2bc, .dword⟩, ⟨0x570, .dword⟩]
    let c := after (perform query cramped)
    UserAdapter.Contract (ModuleUser.pending (σ := Nat → UInt8)) ∧ ¬ Clean ModuleUser.pending query cramped ∧
      ∃ stores a, Request.commit (Call.requests c (.update [⟨⟨0x28c, .byte⟩, 1⟩])) c.userAdapter = .ok stores a ∧
        stores.map Prod.fst = [0, 1] := by
  refine ⟨ModuleUser.contract fun _ _ => rfl, ?_, _, _, rfl, rfl⟩
  intro clean
  have fewer := Multiset.card_le_card clean
  exact absurd fewer (by decide)

end FsuipcClient
end Oac.Fsuipc
