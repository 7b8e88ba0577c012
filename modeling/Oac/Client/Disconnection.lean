import Oac.Base.Promise
import Oac.Client.ConnectionManager

/-!
# Disconnection futures

The whole `connection_state`, with the promises of the futures that `disconnection` returns.
Of the calls that disconnect only the first one does anything, and every future has what it
left, whether it was asked for before or after (`disconnection_futures`).
-/
namespace Oac.Client.Disconnection
open Base

/-- A `connection_state`. `states` are the shared states of all promises it made; the ones
in the list have not been set. -/
structure ConnectionState (ε : Type) where
  connected : Bool
  error : Option ε
  promises : List Nat
  states : Shared ε Unit

variable {ε : Type}

/-- What a future gets after a disconnection. -/
def outcomeOf : Option ε → FutureResult ε Unit
  | some e => .exception e
  | none => .value ()

/-- What the methods do and raise. -/
abbrev Act (ε β : Type) := EStateM FutureError (ConnectionState ε) β

namespace ConnectionState

def initial (connected : Bool) : ConnectionState ε := { connected, error := none, promises := [], states := [] }

/-- An access to the promises. -/
def onStates {β : Type} (x : EStateM FutureError (Shared ε Unit) β) : Act ε β :=
  onShared states (fun states s => { s with states }) id x

/-- The future is known by the number of its promise. -/
def disconnection : Act ε Nat := do
  let s ← get
  let p := s.states.length
  if s.connected then
    set { s with promises := p :: s.promises, states := s.states.make }
    return p
  else
    set { s with states := s.states.make }
    onStates (Shared.settle p (outcomeOf s.error))
    -- the local promise is destroyed on return
    modify fun s => { s with states := s.states.destroy p }
    return p

/-- `_promises.clear()`. -/
def clear (s : ConnectionState ε) : ConnectionState ε :=
  { s with promises := [], states := s.states.destroyAll s.promises }

def disconnect : Act ε Unit := do
  let s ← get
  if s.connected then
    set { s with connected := false }
    onStates (Shared.settleAll (.value ()) s.promises)
    modify clear

def disconnectWithError (e : ε) : Act ε Unit := do
  let s ← get
  if s.connected then
    set { s with connected := false, error := some e }
    onStates (Shared.settleAll (.exception e) s.promises)
    modify clear

end ConnectionState

open Disconnection.ConnectionState

inductive Call (ε : Type) where
  | disconnection
  | disconnect
  | disconnectWithError (e : ε)

/-- How a call disconnects. -/
def Call.outcome : Call ε → Option (FutureResult ε Unit)
  | .disconnection => none
  | .disconnect => some (.value ())
  | .disconnectWithError e => some (.exception e)

/-- One call with the future it returns. -/
def perform : Call ε → Act ε (List Nat)
  | .disconnection => do return [← disconnection]
  | .disconnect => do
    disconnect
    return []
  | .disconnectWithError e => do
    disconnectWithError e
    return []

/-- Calls one after the other, with the futures that they return. -/
def performAll : List (Call ε) → Act ε (List Nat)
  | [] => return []
  | call :: calls => do
    let made ← perform call
    let later ← performAll calls
    return made ++ later

/-- The outcome of the first call that disconnects. -/
def firstOutcome (calls : List (Call ε)) : Option (FutureResult ε Unit) := calls.findSome? Call.outcome

/-! ## The connection manager -/

/-- The part that the model of the connection manager has. -/
def ConnectionState.manager (s : ConnectionState Exception) : Client.ConnectionState := ⟨s.connected, s.error⟩

theorem settling_manager (outcome : FutureResult Exception Unit) (s : ConnectionState Exception) :
    (after ((onStates (Shared.settleAll outcome s.promises) >>= fun _ => modify clear) s)).manager = s.manager := by
  have shared : Keeps (fun s s' => s'.manager = s.manager) (onStates (Shared.settleAll outcome s.promises)) := by
    intro s
    unfold onStates onShared
    split <;> rfl
  exact keeps_bind (fun first second => second.trans first) shared (fun _ _ => rfl) s

theorem disconnect_manager (s : ConnectionState Exception) : (after (disconnect s)).manager = s.manager.disconnect := by
  unfold disconnect
  rw [get_bind]
  cases c : s.connected with
  | true =>
    rw [if_pos rfl, set_bind, settling_manager (.value ()) { s with connected := false }]
    simp [manager, Client.ConnectionState.disconnect, c]
  | false =>
    rw [if_neg Bool.false_ne_true]
    show s.manager = _
    simp [manager, Client.ConnectionState.disconnect, c]

theorem disconnectWithError_manager (s : ConnectionState Exception) (e : Exception) :
    (after (disconnectWithError e s)).manager = s.manager.disconnectWithError e := by
  unfold disconnectWithError
  rw [get_bind]
  cases c : s.connected with
  | true =>
    rw [if_pos rfl, set_bind, settling_manager (.exception e) { s with connected := false, error := some e }]
    simp [manager, Client.ConnectionState.disconnectWithError, c]
  | false =>
    rw [if_neg Bool.false_ne_true]
    show s.manager = _
    simp [manager, Client.ConnectionState.disconnectWithError, c]

/-! ## One call -/

/-- The futures returned so far have the outcome of the first disconnection, if there was one. -/
structure Agree (s : ConnectionState ε) (futures : List Nat) (first : Option (FutureResult ε Unit)) : Prop where
  connected : s.connected = first.isNone
  error : outcomeOf s.error = first.getD (.value ())
  distinct : s.promises.Nodup
  pending : ∀ p ∈ s.promises, s.states[p]? = some none
  kept : s.connected = true → ∀ p ∈ futures, p ∈ s.promises
  each : ∀ p ∈ futures, s.states[p]? = some first

variable {s : ConnectionState ε} {futures : List Nat} {first : Option (FutureResult ε Unit)}

theorem agree_initial : Agree (.initial true : ConnectionState ε) [] none where
  connected := rfl
  error := rfl
  distinct := List.nodup_nil
  pending := by simp [initial]
  kept := by simp
  each := by simp

theorem onStates_ok {β : Type} {x : EStateM FutureError (Shared ε Unit) β} {b : β} {states : Shared ε Unit}
    (executed : x s.states = .ok b states) : onStates x s = .ok b { s with states } := onShared_ok executed

theorem outcomeOf_value {error : Option ε} (none_given : outcomeOf error = .value ()) : error = none := by
  cases error with
  | none => rfl
  | some e => cases none_given

theorem disconnection_open (c : s.connected = true) : disconnection s =
    .ok s.states.length { s with promises := s.states.length :: s.promises, states := s.states.make } := by
  unfold disconnection
  rw [get_bind, if_pos c]
  rfl

/-- The future of a promise that was set on the spot. -/
theorem disconnection_closed (c : s.connected = false) : disconnection s =
    .ok s.states.length { s with states := s.states.make.set s.states.length (some (outcomeOf s.error)) } := by
  have settled : onStates (Shared.settle s.states.length (outcomeOf s.error)) { s with states := s.states.make } =
      .ok ⟨⟩ { s with states := s.states.make.set s.states.length (some (outcomeOf s.error)) } :=
    onStates_ok (Shared.settle_pending (Shared.make_new s.states) _)
  have kept : Shared.destroy (s.states.make.set s.states.length (some (outcomeOf s.error))) s.states.length =
      s.states.make.set s.states.length (some (outcomeOf s.error)) :=
    Shared.destroy_settled ((Shared.settled (Shared.make_new s.states) _ _).trans (if_pos rfl))
  unfold disconnection
  rw [get_bind, if_neg (by simp [c]),
    set_bind, ok_bind settled]
  show EStateM.Result.ok s.states.length { s with
    states := Shared.destroy (s.states.make.set s.states.length (some (outcomeOf s.error))) s.states.length } = _
  rw [kept]

/-- What both ways of disconnecting do to an open connection. -/
def release (error : Option ε) : Act ε Unit := do
  let s ← get
  set { s with connected := false, error }
  onStates (Shared.settleAll (outcomeOf error) s.promises)
  modify clear

theorem disconnect_open (c : s.connected = true) (e : s.error = none) : disconnect s = release none s := by
  have unchanged : { s with connected := false } = { s with connected := false, error := none } := by rw [← e]
  unfold disconnect
  rw [get_bind, if_pos c, unchanged]
  rfl

theorem disconnectWithError_open (c : s.connected = true) (e : ε) : disconnectWithError e s = release (some e) s := by
  unfold disconnectWithError
  rw [get_bind, if_pos c]
  rfl

theorem disconnect_closed (c : s.connected = false) : disconnect s = .ok () s := by
  unfold disconnect
  rw [get_bind, if_neg (by simp [c])]
  rfl

theorem disconnectWithError_closed (c : s.connected = false) (e : ε) : disconnectWithError e s = .ok () s := by
  unfold disconnectWithError
  rw [get_bind, if_neg (by simp [c])]
  rfl

theorem release_agree (agree : Agree s futures none) (error : Option ε) :
    ∃ s', release error s = .ok () s' ∧ Agree s' futures (some (outcomeOf error)) := by
  obtain ⟨states, executed, -, each⟩ := Shared.settleAll_pending agree.distinct agree.pending (outcomeOf error)
  have set_all : ∀ p ∈ s.promises, states[p]? = some (some (outcomeOf error)) := fun p mem => by rw [each, if_pos mem]
  refine ⟨{ connected := false, error, promises := [], states }, ?_, ?_⟩
  · have settled : onStates (Shared.settleAll (outcomeOf error) s.promises) { s with connected := false, error } =
        .ok ⟨⟩ { s with connected := false, error, states } := onStates_ok executed
    unfold release
    rw [get_bind,
      set_bind, ok_bind settled]
    show EStateM.Result.ok () (clear { s with connected := false, error, states }) = _
    rw [clear, Shared.destroyAll_settled set_all]
  · exact
      { connected := rfl
        error := rfl
        distinct := List.nodup_nil
        pending := fun p mem => absurd mem List.not_mem_nil
        kept := fun c => absurd c Bool.false_ne_true
        each := fun p mem => set_all p (agree.kept agree.connected p mem) }

theorem disconnection_agree (agree : Agree s futures first) :
    ∃ p s', disconnection s = .ok p s' ∧ Agree s' (futures ++ [p]) first := by
  cases first with
  | none =>
    refine ⟨_, _, disconnection_open agree.connected, ?_⟩
    have old : ∀ p ∈ s.promises, p < s.states.length := fun p mem => Shared.lt_length (agree.pending p mem)
    have unset : ∀ p ∈ s.states.length :: s.promises, s.states.make[p]? = some none := by
      refine List.forall_mem_cons.mpr ⟨Shared.make_new s.states, fun p mem => ?_⟩
      rw [Shared.make_old (old p mem)]
      exact agree.pending p mem
    have kept : ∀ p ∈ futures ++ [s.states.length], p ∈ s.states.length :: s.promises := by
      intro p mem
      rcases List.mem_append.mp mem with before | new
      · exact List.mem_cons_of_mem _ (agree.kept agree.connected p before)
      · exact List.mem_cons.mpr (.inl (List.mem_singleton.mp new))
    exact
      { connected := agree.connected
        error := agree.error
        distinct := List.nodup_cons.mpr ⟨fun mem => lt_irrefl _ (old _ mem), agree.distinct⟩
        pending := unset
        kept := fun _ => kept
        each := fun p mem => unset p (kept p mem) }
  | some outcome =>
    refine ⟨_, _, disconnection_closed agree.connected, ?_⟩
    have now := Shared.settled (Shared.make_new s.states) (outcomeOf s.error)
    have same : outcomeOf s.error = outcome := agree.error
    have old : ∀ {p : Nat} {o}, s.states[p]? = some o →
        (s.states.make.set s.states.length (some (outcomeOf s.error)))[p]? = some o := by
      intro p o before
      have earlier := Shared.lt_length before
      rw [now, if_neg (by omega), Shared.make_old earlier]
      exact before
    exact
      { connected := agree.connected
        error := agree.error
        distinct := agree.distinct
        pending := fun p mem => old (agree.pending p mem)
        kept := fun c => absurd (agree.connected.symm.trans c) Bool.false_ne_true
        each := by
          intro p mem
          rcases List.mem_append.mp mem with before | new
          · exact old (agree.each p before)
          · rw [List.mem_singleton.mp new, now, if_pos rfl, same] }

/-- Of the ways of disconnecting the first one counts. -/
theorem close_agree {close : Act ε Unit} (agree : Agree s futures first) (error : Option ε)
    (opened : s.connected = true → s.error = none → close s = release error s)
    (closed : s.connected = false → close s = .ok () s) :
    ∃ s', close s = .ok () s' ∧ Agree s' futures (first.or (some (outcomeOf error))) := by
  cases first with
  | none =>
    rw [opened agree.connected (outcomeOf_value agree.error)]
    exact release_agree agree error
  | some outcome => exact ⟨s, closed agree.connected, agree⟩

theorem perform_agree (agree : Agree s futures first) (call : Call ε) :
    ∃ made s', perform call s = .ok made s' ∧ Agree s' (futures ++ made) (first.or call.outcome) := by
  cases call with
  | disconnection =>
    obtain ⟨p, s', executed, agree'⟩ := disconnection_agree agree
    refine ⟨[p], s', ?_, ?_⟩
    · rw [perform, ok_bind executed]
      rfl
    · rwa [Call.outcome, Option.or_none]
  | disconnect =>
    obtain ⟨s', executed, agree'⟩ := close_agree agree none
      (fun c e => disconnect_open c e) disconnect_closed
    refine ⟨[], s', ?_, by rwa [List.append_nil]⟩
    rw [perform, ok_bind executed]
    rfl
  | disconnectWithError e =>
    obtain ⟨s', executed, agree'⟩ := close_agree agree (some e)
      (fun c _ => disconnectWithError_open c e) (fun c => disconnectWithError_closed c e)
    refine ⟨[], s', ?_, by rwa [List.append_nil]⟩
    rw [perform, ok_bind executed]
    rfl

/-! ## Sequences of calls -/

theorem performAll_agree (agree : Agree s futures first) (calls : List (Call ε)) :
    ∃ made s', performAll calls s = .ok made s' ∧ Agree s' (futures ++ made) (first.or (firstOutcome calls)) := by
  induction calls generalizing s futures first with
  | nil => exact ⟨[], s, rfl, by rwa [List.append_nil, firstOutcome, List.findSome?_nil, Option.or_none]⟩
  | cons call calls ih =>
    obtain ⟨made, s₁, executed, agree₁⟩ := perform_agree agree call
    obtain ⟨later, s₂, executed', agree₂⟩ := ih agree₁
    refine ⟨made ++ later, s₂, ?_, ?_⟩
    · rw [performAll, ok_bind executed, ok_bind executed']
      rfl
    · have following : firstOutcome (call :: calls) = call.outcome.or (firstOutcome calls) := by
        unfold firstOutcome
        rw [List.findSome?_cons]
        cases call.outcome <;> rfl
      rwa [following, ← Option.or_assoc, ← List.append_assoc]

/-- No call raises, so no promise is set twice. A future is resolved just if the connection is
closed, and then all of them have the outcome of the first call that closed it. -/
theorem disconnection_futures (calls : List (Call ε)) :
    ∃ futures s, performAll calls (.initial true) = .ok futures s ∧
      s.connected = (firstOutcome calls).isNone ∧ ∀ p ∈ futures, s.states[p]? = some (firstOutcome calls) := by
  obtain ⟨futures, s, executed, agree⟩ := performAll_agree agree_initial calls
  exact ⟨futures, s, executed, agree.connected, agree.each⟩

end Oac.Client.Disconnection
