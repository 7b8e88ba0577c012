import Oac.Base.Lockstep
import Oac.Base.Run
import Oac.FlightVars
import Mathlib.Logic.Function.Basic

/-!
# The FlightVars core

The core hands a call on a variable to the master of its group, and a call on a
subscription to the master that the subscription was made with. It stands for a master
except where it is given an id that it does not know (`proxy_transparent_iff`). The ids
of all masters share one map: as long as no master issues an id that is in use with
another one, every subscription leads to its master (`routed_everywhere`).
-/
namespace Oac
open Base

namespace FlightVars
variable {δ : Type} [FlightVars δ]

/-- A call of the interface. -/
inductive Call where
  | subscribe (var : VariableId)
  | unsubscribe (id : SubscriptionId)
  | update (id : SubscriptionId) (value : VariableValue)

/-- The call on an implementation. Only a subscription returns something. -/
def call : Call → EStateM Exception δ (Option SubscriptionId)
  | .subscribe var => do
    let id ← FlightVars.subscribe var
    pure (some id)
  | .unsubscribe id => do
    FlightVars.unsubscribe id
    pure none
  | .update id value => do
    FlightVars.update id value
    pure none

/-- The call is not on a variable of another group. -/
def Call.On (grp : Str) : Call → Prop
  | .subscribe var => var.group = grp
  | .unsubscribe _ => True
  | .update _ _ => True

theorem call_subscribe (var : VariableId) (d : δ) : call (.subscribe var) d = match FlightVars.subscribe var d with
    | .ok id d' => .ok (some id) d'
    | .error e d' => .error e d' := by
  cases result : FlightVars.subscribe var d with
  | ok id d' => exact ok_bind result
  | error e d' => exact error_bind result

theorem call_unsubscribe (id : SubscriptionId) (d : δ) :
    call (.unsubscribe id) d = match FlightVars.unsubscribe id d with
      | .ok _ d' => .ok none d'
      | .error e d' => .error e d' := by
  cases result : FlightVars.unsubscribe id d with
  | ok a d' => exact ok_bind result
  | error e d' => exact error_bind result

theorem call_update (id : SubscriptionId) (value : VariableValue) (d : δ) :
    call (.update id value) d = match FlightVars.update id value d with
      | .ok _ d' => .ok none d'
      | .error e d' => .error e d' := by
  cases result : FlightVars.update id value d with
  | ok a d' => exact ok_bind result
  | error e d' => exact error_bind result

end FlightVars

/-- `flight_vars_core`, and the masters that its maps point to. -/
structure Core (ι δ : Type) where
  groupMasters : Str → Option ι
  subscriptions : SubscriptionId → Option ι
  masters : ι → δ

namespace Core
variable {ι δ : Type} [DecidableEq ι]

def create (masters : ι → δ) : Core ι δ := ⟨fun _ => none, fun _ => none, masters⟩

def setMaster (c : Core ι δ) (master : ι) (d : δ) : Core ι δ :=
  { c with masters := Function.update c.masters master d }

/-- A call on one of the masters. -/
def onMaster {α : Type} (master : ι) (x : EStateM Exception δ α) : EStateM Exception (Core ι δ) α := fun c =>
  match x (c.masters master) with
  | .ok a d => .ok a (c.setMaster master d)
  | .error e d => .error e (c.setMaster master d)

def registerGroupMaster (grp : Str) (master : ι) : EStateM Exception (Core ι δ) Unit := fun c =>
  match c.groupMasters grp with
  | some _ => .error (.masterAlreadyRegistered grp) c
  | none => .ok () { c with groupMasters := Function.update c.groupMasters grp (some master) }

def getMasterByVarId (var : VariableId) : EStateM Exception (Core ι δ) ι := fun c =>
  match c.groupMasters var.group with
  | some master => .ok master c
  | none => .error (.noSuchVariable var) c

def getMasterBySubsId (c : Core ι δ) (id : SubscriptionId) : Option ι := c.subscriptions id

def insertSubscription (id : SubscriptionId) (master : ι) (c : Core ι δ) : Core ι δ :=
  { c with subscriptions := Function.update c.subscriptions id (some master) }
def eraseSubscription (id : SubscriptionId) (c : Core ι δ) : Core ι δ :=
  { c with subscriptions := Function.update c.subscriptions id none }

instance [FlightVars δ] : FlightVars (Core ι δ) where
  subscribe var := do
    let master ← getMasterByVarId var
    let id ← onMaster master (FlightVars.subscribe var)
    modify (insertSubscription id master)
    pure id
  unsubscribe id := do
    match (← get).subscriptions id with
    | none => throw (.noSuchSubscription id)
    | some master =>
      onMaster master (FlightVars.unsubscribe id)
      modify (eraseSubscription id)
  update id value := do
    match (← get).getMasterBySubsId id with
    | some master => onMaster master (FlightVars.update id value)
    | none => pure ()

@[simp] theorem setMaster_masters (c : Core ι δ) (master : ι) (d : δ) : (c.setMaster master d).masters master = d :=
  Function.update_self ..
@[simp] theorem setMaster_groupMasters (c : Core ι δ) (master : ι) (d : δ) :
    (c.setMaster master d).groupMasters = c.groupMasters := rfl
@[simp] theorem setMaster_subscriptions (c : Core ι δ) (master : ι) (d : δ) :
    (c.setMaster master d).subscriptions = c.subscriptions := rfl

section
variable (c : Core ι δ) (id : SubscriptionId) (master : ι)
omit [DecidableEq ι]

@[simp] theorem insertSubscription_self : (c.insertSubscription id master).subscriptions id = some master :=
  Function.update_self ..
@[simp] theorem insertSubscription_masters : (c.insertSubscription id master).masters = c.masters := rfl
@[simp] theorem eraseSubscription_self : (c.eraseSubscription id).subscriptions id = none :=
  Function.update_self ..
@[simp] theorem eraseSubscription_masters : (c.eraseSubscription id).masters = c.masters := rfl
variable {c id master} {id' : SubscriptionId}
theorem insertSubscription_other (distinct : id' ≠ id) :
    (c.insertSubscription id master).subscriptions id' = c.subscriptions id' := Function.update_of_ne distinct ..
theorem eraseSubscription_other (distinct : id' ≠ id) :
    (c.eraseSubscription id).subscriptions id' = c.subscriptions id' := Function.update_of_ne distinct ..

end

/-! ## What the calls do -/

section
variable [FlightVars δ] {c : Core ι δ} {master : ι}

theorem subscribe_refused {var : VariableId} (unknown : c.groupMasters var.group = none) :
    FlightVars.subscribe var c = .error (.noSuchVariable var) c := by
  have missing : getMasterByVarId var c = .error (.noSuchVariable var) c := by
    simp only [getMasterByVarId, unknown]
  exact error_bind missing

theorem subscribe_registered {var : VariableId} (registered : c.groupMasters var.group = some master) :
    FlightVars.subscribe var c = match FlightVars.subscribe var (c.masters master) with
      | .ok id d => .ok id ((c.setMaster master d).insertSubscription id master)
      | .error e d => .error e (c.setMaster master d) := by
  have found : getMasterByVarId var c = .ok master c := by
    simp only [getMasterByVarId, registered]
  refine (ok_bind found).trans ?_
  cases result : FlightVars.subscribe var (c.masters master) with
  | ok id d =>
    have executed : onMaster master (FlightVars.subscribe var) c = .ok id (c.setMaster master d) := by
      simp only [onMaster, result]
    exact (ok_bind executed).trans rfl
  | error e d =>
    have raised : onMaster master (FlightVars.subscribe var) c = .error e (c.setMaster master d) := by
      simp only [onMaster, result]
    exact error_bind raised

theorem unsubscribe_unknown {id : SubscriptionId} (unknown : c.subscriptions id = none) :
    FlightVars.unsubscribe id c = .error (.noSuchSubscription id) c := by
  have found : (get : EStateM Exception (Core ι δ) _) c = .ok c c := rfl
  refine (ok_bind found).trans ?_
  rw [unknown]
  rfl

theorem unsubscribe_known {id : SubscriptionId} (known : c.subscriptions id = some master) :
    FlightVars.unsubscribe id c = match FlightVars.unsubscribe id (c.masters master) with
      | .ok _ d => .ok () ((c.setMaster master d).eraseSubscription id)
      | .error e d => .error e (c.setMaster master d) := by
  have found : (get : EStateM Exception (Core ι δ) _) c = .ok c c := rfl
  refine (ok_bind found).trans ?_
  rw [known]
  cases result : FlightVars.unsubscribe id (c.masters master) with
  | ok a d =>
    have executed : onMaster master (FlightVars.unsubscribe id) c = .ok a (c.setMaster master d) := by
      simp only [onMaster, result]
    exact (ok_bind executed).trans rfl
  | error e d =>
    have raised : onMaster master (FlightVars.unsubscribe id) c = .error e (c.setMaster master d) := by
      simp only [onMaster, result]
    exact error_bind raised

theorem update_unknown {id : SubscriptionId} {value : VariableValue} (unknown : c.subscriptions id = none) :
    FlightVars.update id value c = .ok () c := by
  have found : (get : EStateM Exception (Core ι δ) _) c = .ok c c := rfl
  refine (ok_bind found).trans ?_
  rw [getMasterBySubsId, unknown]
  rfl

theorem update_known {id : SubscriptionId} {value : VariableValue} (known : c.subscriptions id = some master) :
    FlightVars.update id value c = onMaster master (FlightVars.update id value) c := by
  have found : (get : EStateM Exception (Core ι δ) _) c = .ok c c := rfl
  refine (ok_bind found).trans ?_
  rw [getMasterBySubsId, known]

end

/-! ## One master -/

section
variable [FlightVars δ] {live : δ → Set SubscriptionId} {grp : Str} {master : ι} {others : Set SubscriptionId}

/-- Every call gives the same on the core as on the master, and leads the master to the
    same state. -/
def Transparent (grp : Str) (master : ι) (calls : List { call : FlightVars.Call // call.On grp }) (c : Core ι δ) :
    Prop :=
  Alike (fun (c : Core ι δ) (d : δ) => c.masters master = d) (fun call => FlightVars.call call.1)
    (fun call => FlightVars.call call.1) calls c (c.masters master)

/-- The core has an answer to the call that is the master's: it knows the subscription, or
    the master would do nothing with it either. The `others` are subscriptions of the
    master that were not made through the core. -/
def Passes (master : ι) (others : Set SubscriptionId) (c : Core ι δ) : FlightVars.Call → Prop
  | .subscribe _ => True
  | .unsubscribe id => id ∉ others
  | .update id value => c.subscriptions id = some master ∨
      FlightVars.update id value (c.masters master) = .ok () (c.masters master)

/-- The core knows all live subscriptions of the master but the `others`. -/
structure Tracks (live : δ → Set SubscriptionId) (grp : Str) (master : ι) (others : Set SubscriptionId)
    (c : Core ι δ) : Prop where
  registered : c.groupMasters grp = some master
  only : ∀ {id m}, c.subscriptions id = some m → m = master
  tracked : ∀ {id}, id ∈ live (c.masters master) ↔ c.subscriptions id = some master ∨ id ∈ others
  apart : ∀ {id}, id ∈ others → c.subscriptions id = none

omit [DecidableEq ι] [FlightVars δ] in
theorem Tracks.unknown {c : Core ι δ} {id : SubscriptionId} (tracks : Tracks live grp master others c)
    (unknown : ¬ c.subscriptions id = some master) : c.subscriptions id = none := by
  cases known : c.subscriptions id with
  | none => rfl
  | some m =>
    have same := tracks.only known
    subst same
    exact absurd known unknown

omit [FlightVars δ] in
theorem Tracks.kept {c : Core ι δ} {d : δ} (tracks : Tracks live grp master others c)
    (same : live d = live (c.masters master)) : Tracks live grp master others (c.setMaster master d) := by
  obtain ⟨registered, only, tracked, apart⟩ := tracks
  refine ⟨registered, only, ?_, apart⟩
  intro id
  rw [setMaster_masters, same]
  exact tracked

omit [FlightVars δ] in
theorem Tracks.subscribed {c : Core ι δ} {id : SubscriptionId} {d : δ} (tracks : Tracks live grp master others c)
    (fresh : id ∉ live (c.masters master)) (more : live d = insert id (live (c.masters master))) :
    Tracks live grp master others ((c.setMaster master d).insertSubscription id master) := by
  obtain ⟨registered, only, tracked, apart⟩ := tracks
  refine ⟨registered, ?_, ?_, ?_⟩
  · intro id' m known
    by_cases same : id' = id
    · subst same
      rw [insertSubscription_self] at known
      exact (Option.some.inj known).symm
    · rw [insertSubscription_other same] at known
      exact only known
  · intro id'
    rw [insertSubscription_masters, setMaster_masters, more, Set.mem_insert_iff]
    by_cases same : id' = id
    · subst same
      simp
    · rw [insertSubscription_other same]
      exact ⟨fun member => tracked.mp (member.resolve_left same), fun known => .inr (tracked.mpr known)⟩
  · intro id' other
    have distinct : id' ≠ id := by
      rintro rfl
      exact fresh (tracked.mpr (.inr other))
    rw [insertSubscription_other distinct]
    exact apart other

omit [FlightVars δ] in
theorem Tracks.unsubscribed {c : Core ι δ} {id : SubscriptionId} {d : δ} (tracks : Tracks live grp master others c)
    (known : c.subscriptions id = some master) (less : live d = live (c.masters master) \ {id}) :
    Tracks live grp master others ((c.setMaster master d).eraseSubscription id) := by
  obtain ⟨registered, only, tracked, apart⟩ := tracks
  refine ⟨registered, ?_, ?_, ?_⟩
  · intro id' m known'
    by_cases same : id' = id
    · subst same
      rw [eraseSubscription_self] at known'
      exact absurd known' nofun
    · rw [eraseSubscription_other same] at known'
      exact only known'
  · intro id'
    rw [eraseSubscription_masters, setMaster_masters, less, Set.mem_sdiff, Set.mem_singleton_iff]
    by_cases same : id' = id
    · subst same
      have mine : id' ∉ others := fun other => absurd (known.symm.trans (apart other)) nofun
      simp [mine]
    · rw [eraseSubscription_other same]
      exact ⟨fun member => tracked.mp member.1, fun known => ⟨tracked.mpr known, same⟩⟩
  · intro id' other
    have distinct : id' ≠ id := by
      rintro rfl
      exact absurd (known.symm.trans (apart other)) nofun
    rw [eraseSubscription_other distinct]
    exact apart other

/-- The core and the master beside it, call by call. -/
theorem proxy_compared (grp : Str) (master : ι) (others : Set SubscriptionId) (lawful : FlightVars.Lawful live)
    (inert : ∀ {id d}, id ∉ live d → FlightVars.unsubscribe id d = .error (.noSuchSubscription id) d) :
    Compared (fun (c : Core ι δ) d => Tracks live grp master others c ∧ c.masters master = d)
      (fun c d => c.masters master = d)
      (fun call : { call : FlightVars.Call // call.On grp } => FlightVars.call call.1)
      (fun call => FlightVars.call call.1) fun c call => Passes master others c call.1 where
  weaker := And.right
  met := by
    rintro c d ⟨call, on⟩ ⟨tracks, rfl⟩ passes
    cases call with
    | subscribe var =>
      have registered : c.groupMasters var.group = some master := by
        rw [show var.group = grp from on]
        exact tracks.registered
      simp only [FlightVars.call_subscribe, subscribe_registered registered]
      cases result : FlightVars.subscribe var (c.masters master) with
      | ok id d =>
        obtain ⟨fresh, more⟩ := lawful.subscribe_fresh result
        exact ⟨rfl, tracks.subscribed fresh more, setMaster_masters ..⟩
      | error e d => exact ⟨rfl, tracks.kept (lawful.subscribe_refused result).2, setMaster_masters ..⟩
    | unsubscribe id =>
      simp only [FlightVars.call_unsubscribe]
      by_cases known : c.subscriptions id = some master
      · rw [unsubscribe_known known]
        obtain ⟨d, executed, less⟩ := lawful.unsubscribe_live (tracks.tracked.mpr (.inl known))
        simp only [executed]
        exact ⟨rfl, tracks.unsubscribed known less, setMaster_masters ..⟩
      · have dead : id ∉ live (c.masters master) := fun alive => (tracks.tracked.mp alive).elim known passes
        rw [unsubscribe_unknown (tracks.unknown known), inert dead]
        exact ⟨rfl, tracks, rfl⟩
    | update id value =>
      simp only [FlightVars.call_update]
      by_cases known : c.subscriptions id = some master
      · rw [update_known known, onMaster]
        cases result : FlightVars.update id value (c.masters master) with
        | ok a d => exact ⟨rfl, tracks.kept (lawful.updated result), setMaster_masters ..⟩
        | error e d => exact ⟨rfl, tracks.kept (lawful.updated result), setMaster_masters ..⟩
      · rw [update_unknown (tracks.unknown known), passes.resolve_left known]
        exact ⟨rfl, tracks, rfl⟩
  unmet := by
    rintro c d ⟨call, on⟩ ⟨tracks, rfl⟩ stuck lockstep
    cases call with
    | subscribe var => exact stuck trivial
    | unsubscribe id =>
      have other : id ∈ others := not_not.mp stuck
      obtain ⟨d, executed, -⟩ := lawful.unsubscribe_live (tracks.tracked.mpr (.inr other))
      simp only [FlightVars.call_unsubscribe, unsubscribe_unknown (tracks.apart other), executed] at lockstep
      exact lockstep
    | update id value =>
      have unknown : ¬ c.subscriptions id = some master := fun known => stuck (.inl known)
      simp only [FlightVars.call_update, update_unknown (tracks.unknown unknown)] at lockstep
      cases result : FlightVars.update id value (c.masters master) with
      | ok a d =>
        rw [result] at lockstep
        have same : c.masters master = d := lockstep.2
        exact stuck (.inr (by rw [result, same]))
      | error e d =>
        rw [result] at lockstep
        exact lockstep

/-- For a master that obeys the contract the core is transparent on exactly the sequences
    of calls that it passes on. For a master without subscriptions of others these are the
    sequences in which every update is given the id of a live subscription. -/
theorem proxy_transparent_iff (lawful : FlightVars.Lawful live)
    (inert : ∀ {id d}, id ∉ live d → FlightVars.unsubscribe id d = .error (.noSuchSubscription id) d)
    (c : Core ι δ) (registered : c.groupMasters grp = some master) (unused : ∀ id, c.subscriptions id = none)
    (calls : List { call : FlightVars.Call // call.On grp }) :
    (Transparent grp master calls c ↔ Along (fun call => FlightVars.call call.1)
      (fun c' call => Passes master (live (c.masters master)) c' call.1) calls c) ∧
    (live (c.masters master) = ∅ →
      (Transparent grp master calls c ↔ Along (fun call => FlightVars.call call.1)
        (fun c' call => ∀ id value, call.1 = .update id value → id ∈ live (c'.masters master)) calls c)) := by
  have tracks : Tracks live grp master (live (c.masters master)) c := by
    refine ⟨registered, ?_, ?_, fun _ => unused _⟩
    · intro id m known
      rw [unused id] at known
      exact absurd known nofun
    · intro id
      simp [unused id]
  have compared := proxy_compared grp master (live (c.masters master)) lawful inert
  have passing : Transparent grp master calls c ↔ _ := compared.alike_iff calls ⟨tracks, rfl⟩
  refine ⟨passing, ?_⟩
  intro none
  rw [none] at tracks passing compared
  refine passing.trans ?_
  apply along_congr (I := Tracks live grp master ∅) _ _ calls tracks
  · rintro c' ⟨call, on⟩ tracks'
    cases call with
    | subscribe var => simp [Passes]
    | unsubscribe id => simp [Passes]
    | update id value =>
      constructor
      · rintro passes id' value' same
        cases same
        rcases passes with known | done
        · exact tracks'.tracked.mpr (.inl known)
        · exact lawful.update_done done
      · intro alive
        exact .inl ((tracks'.tracked.mp (alive id value rfl)).resolve_right (Set.notMem_empty id))
  · intro c' call tracks' passes
    exact (compared.met ⟨tracks', rfl⟩ passes).related.1

end

/-- A core with one master for a group. -/
def solo (grp : Str) : Core Unit FlightVars.Registry :=
  after (registerGroupMaster grp () (create fun _ => FlightVars.Registry.empty))

theorem solo_transparent : Transparent (text "a") () [⟨.subscribe (variableId (text "a") (text "x")), rfl⟩,
    ⟨.update 1 (.byte 7), trivial⟩, ⟨.unsubscribe 1, trivial⟩, ⟨.unsubscribe 1, trivial⟩] (solo (text "a")) := by
  have inert : ∀ {id : SubscriptionId} {r : FlightVars.Registry}, id ∉ FlightVars.Registry.live r →
      FlightVars.unsubscribe id r = .error (.noSuchSubscription id) r := fun missing => if_neg missing
  apply ((proxy_transparent_iff FlightVars.Registry.lawful inert _ rfl (fun _ => rfl) _).2 _).mpr
  · refine ⟨nofun, ?_, nofun, nofun, trivial⟩
    rintro id value same
    cases same
    exact List.mem_cons_self
  · exact Set.eq_empty_of_forall_notMem fun id member => absurd member List.not_mem_nil

/-- The core takes an update for a subscription that nobody has made. -/
theorem solo_not_transparent : ¬ Transparent (text "a") () [⟨.update 1 (.byte 7), trivial⟩] (solo (text "a")) :=
  fun transparent => transparent.1.elim

/-! ## What the core owes its users -/

section
variable [FlightVars δ] {live : δ → Set SubscriptionId}

/-- The subscriptions that the core knows and its one master holds live. -/
def liveThrough (live : δ → Set SubscriptionId) (c : Core Unit δ) : Set SubscriptionId :=
  { id | c.subscriptions id = some () ∧ id ∈ live (c.masters ()) }

omit [FlightVars δ] in
theorem after_onMaster {α : Type} (master : Unit) (x : EStateM Exception δ α) (c : Core Unit δ) :
    after (onMaster master x c) = c.setMaster master (after (x (c.masters master))) := by
  unfold onMaster
  cases x (c.masters master) <;> rfl

/-- A core with one master keeps a ledger if the master does. -/
theorem ledger (ledger : FlightVars.Ledger live) : FlightVars.Ledger (liveThrough live) where
  subscribe_fresh := by
    intro var c id c' executed
    cases registered : c.groupMasters var.group with
    | none =>
      rw [subscribe_refused registered] at executed
      cases executed
    | some master =>
      rw [subscribe_registered registered] at executed
      cases result : FlightVars.subscribe var (c.masters master) with
      | ok new d =>
        rw [result] at executed
        cases executed
        obtain ⟨fresh, more⟩ := ledger.subscribe_fresh result
        refine ⟨fun old => fresh old.2, Set.ext fun i => ?_⟩
        simp only [liveThrough, Set.mem_ofPred_eq, insertSubscription_masters, setMaster_masters, more, Set.mem_insert_iff]
        by_cases same : i = id
        · subst same
          simp
        · rw [insertSubscription_other same, setMaster_subscriptions]
          simp [same]
      | error e d =>
        rw [result] at executed
        cases executed
  unsubscribe_live := by
    rintro id c ⟨known, alive⟩
    obtain ⟨d, executed, less⟩ := ledger.unsubscribe_live alive
    refine ⟨(c.setMaster () d).eraseSubscription id, ?_, Set.ext fun i => ?_⟩
    · rw [unsubscribe_known known, executed]
    · simp only [liveThrough, Set.mem_ofPred_eq, eraseSubscription_masters, setMaster_masters, less, Set.mem_sdiff,
        Set.mem_singleton_iff]
      by_cases same : i = id
      · subst same
        simp
      · rw [eraseSubscription_other same, setMaster_subscriptions]
        simp [same]
  unsubscribe_dead := by
    intro id c dead
    cases known : c.subscriptions id with
    | none => exact ⟨c, unsubscribe_unknown known, rfl⟩
    | some master =>
      obtain ⟨d, raised, same⟩ := ledger.unsubscribe_dead fun alive => dead ⟨known, alive⟩
      refine ⟨c.setMaster () d, ?_, ?_⟩
      · rw [unsubscribe_known known, raised]
      · simp only [liveThrough, setMaster_masters, setMaster_subscriptions, same]
  update_kept := by
    intro id value c
    cases known : c.subscriptions id with
    | none => rw [update_unknown known, after_ok]
    | some master =>
      rw [update_known known, after_onMaster]
      simp only [liveThrough, setMaster_masters, setMaster_subscriptions, ledger.update_kept]

/-- A core with one master raises what the master raises, and what the interface declares. -/
theorem accountable (accountable : FlightVars.Accountable live) : FlightVars.Accountable (liveThrough live) where
  toLedger := ledger accountable.toLedger
  subscribe_refused := by
    intro var e c c' raised
    cases registered : c.groupMasters var.group with
    | none =>
      rw [subscribe_refused registered] at raised
      cases raised
      exact ⟨rfl, rfl⟩
    | some master =>
      rw [subscribe_registered registered] at raised
      cases result : FlightVars.subscribe var (c.masters master) with
      | ok new d =>
        rw [result] at raised
        cases raised
      | error e' d =>
        rw [result] at raised
        cases raised
        obtain ⟨declared, same⟩ := accountable.subscribe_refused result
        refine ⟨declared, ?_⟩
        simp only [liveThrough, setMaster_masters, setMaster_subscriptions, same]
  update_refused := by
    intro id value e c c' raised
    cases known : c.subscriptions id with
    | none =>
      rw [update_unknown known] at raised
      cases raised
    | some master =>
      rw [update_known known, onMaster] at raised
      cases result : FlightVars.update id value (c.masters master) with
      | ok a d =>
        rw [result] at raised
        cases raised
      | error e' d =>
        rw [result] at raised
        cases raised
        exact accountable.update_refused result

end

/-! ## Several masters -/

/-- The subscription is updated and removed at the given master. -/
structure Routed [FlightVars δ] (c : Core ι δ) (id : SubscriptionId) (master : ι) : Prop where
  update : ∀ value, FlightVars.update id value c = onMaster master (FlightVars.update id value) c
  unsubscribe : FlightVars.unsubscribe id c =
    (do onMaster master (FlightVars.unsubscribe id); modify (eraseSubscription id) : EStateM Exception (Core ι δ) Unit) c

/-- The subscriptions issued and not yet removed, each with its master, after a call that
    returned. -/
def record (c : Core ι δ) (issued : List (SubscriptionId × ι)) :
    FlightVars.Call → Option SubscriptionId → List (SubscriptionId × ι)
  | .subscribe var, some id =>
    match c.groupMasters var.group with
    | some master => (id, master) :: issued
    | none => issued
  | .unsubscribe id, _ =>
    match c.subscriptions id with
    | some master => issued.filter fun pair => pair ≠ (id, master)
    | none => issued
  | _, _ => issued

section
variable [FlightVars δ]

/-- A call, with the subscriptions issued so far. -/
def Step (before : Core ι δ × List (SubscriptionId × ι)) (call : FlightVars.Call)
    (now : Core ι δ × List (SubscriptionId × ι)) : Prop :=
  (∃ a, FlightVars.call call before.1 = .ok a now.1 ∧ now.2 = record before.1 before.2 call a) ∨
    ∃ e, FlightVars.call call before.1 = .error e now.1 ∧ now.2 = before.2

/-- The id that the call returns is not in use with any master. -/
def Fresh (before : Core ι δ × List (SubscriptionId × ι)) (call : FlightVars.Call) : Prop :=
  ∀ id c, FlightVars.call call before.1 = .ok (some id) c → ∀ master, (id, master) ∉ before.2

theorem routed_of_known {c : Core ι δ} {id : SubscriptionId} {master : ι} (known : c.subscriptions id = some master) :
    Routed c id master := by
  refine ⟨fun value => update_known known, ?_⟩
  have found : (get : EStateM Exception (Core ι δ) _) c = .ok c c := rfl
  refine (ok_bind found).trans ?_
  rw [known]

/-- The map leads every issued subscription to its master. -/
def Known (s : Core ι δ × List (SubscriptionId × ι)) : Prop :=
  ∀ id master, (id, master) ∈ s.2 → s.1.subscriptions id = some master

/-- What a call does to the map of subscriptions, by its result. -/
def Effect (c : Core ι δ) :
    FlightVars.Call → EStateM.Result Exception (Core ι δ) (Option SubscriptionId) → Prop
  | .subscribe var, .ok a c' => ∃ id master, a = some id ∧ c.groupMasters var.group = some master ∧
      c'.subscriptions = (c.insertSubscription id master).subscriptions
  | .unsubscribe id, .ok _ c' => ∃ master, c.subscriptions id = some master ∧
      c'.subscriptions = (c.eraseSubscription id).subscriptions
  | .update _ _, .ok _ c' => c'.subscriptions = c.subscriptions
  | _, .error _ c' => c'.subscriptions = c.subscriptions

theorem call_effect (call : FlightVars.Call) (c : Core ι δ) : Effect c call (FlightVars.call call c) := by
  cases call with
  | subscribe var =>
    rw [FlightVars.call_subscribe]
    cases registered : c.groupMasters var.group with
    | none =>
      rw [subscribe_refused registered]
      rfl
    | some master =>
      rw [subscribe_registered registered]
      cases FlightVars.subscribe var (c.masters master) with
      | ok id d => exact ⟨id, master, rfl, registered, rfl⟩
      | error e d => rfl
  | unsubscribe id =>
    rw [FlightVars.call_unsubscribe]
    cases known : c.subscriptions id with
    | none =>
      rw [unsubscribe_unknown known]
      rfl
    | some master =>
      rw [unsubscribe_known known]
      cases FlightVars.unsubscribe id (c.masters master) with
      | ok a d => exact ⟨master, known, rfl⟩
      | error e d => rfl
  | update id value =>
    rw [FlightVars.call_update]
    cases known : c.subscriptions id with
    | none =>
      rw [update_unknown known]
      rfl
    | some master =>
      rw [update_known known, onMaster]
      cases FlightVars.update id value (c.masters master) with
      | ok a d => rfl
      | error e d => rfl

theorem Known.step {s s' : Core ι δ × List (SubscriptionId × ι)} {call : FlightVars.Call} (known : Known s)
    (step : Step s call s') (fresh : Fresh s call) : Known s' := by
  obtain ⟨c, issued⟩ := s
  obtain ⟨c', issued'⟩ := s'
  have effect := call_effect call c
  rcases step with ⟨a, returned, recorded⟩ | ⟨e, refused, recorded⟩
  · simp only at returned recorded
    rw [returned] at effect
    intro id m member
    show c'.subscriptions id = some m
    cases call with
    | subscribe var =>
      obtain ⟨new, master, rfl, registered, same⟩ := effect
      simp only [recorded, record, registered, List.mem_cons, Prod.mk.injEq] at member
      rw [same]
      by_cases here : id = new
      · subst here
        rcases member with ⟨-, rfl⟩ | old
        · exact insertSubscription_self ..
        · exact absurd old (fresh id c' returned m)
      · rw [insertSubscription_other here]
        exact known id m (member.resolve_left fun new => here new.1)
    | unsubscribe gone =>
      obtain ⟨master, registered, same⟩ := effect
      simp only [recorded, record, registered, List.mem_filter, decide_eq_true_eq, ne_eq, Prod.mk.injEq] at member
      have here : id ≠ gone := by
        rintro rfl
        have mine := known id m member.1
        exact member.2 ⟨rfl, Option.some.inj (mine.symm.trans registered)⟩
      rw [same, eraseSubscription_other here]
      exact known id m member.1
    | update id' value =>
      simp only [recorded, record] at member
      have same : c'.subscriptions = c.subscriptions := effect
      rw [same]
      exact known id m member
  · simp only at refused recorded
    rw [refused] at effect
    have same : c'.subscriptions = c.subscriptions := by
      cases call <;> exact effect
    intro id m member
    simp only [recorded] at member
    show c'.subscriptions id = some m
    rw [same]
    exact known id m member

/-- In every run in which no master issues an id that is in use, every subscription leads
    to the master that issued it, and still does when another one is removed. -/
theorem routed_everywhere (c₀ c : Core ι δ)
    (issued : List (SubscriptionId × ι)) (run : Run (Meeting Step Fresh) (c₀, []) (c, issued)) :
    (∀ id master, (id, master) ∈ issued → Routed c id master) ∧
      ∀ gone c', FlightVars.unsubscribe gone c = .ok () c' →
        ∀ id master, (id, master) ∈ issued → id ≠ gone → Routed c' id master := by
  have known : Known (c, issued) := run.invariant (fun _ _ member => absurd member List.not_mem_nil)
    fun before last => before.step last.1 last.2
  constructor
  · intro id master member
    exact routed_of_known (known id master member)
  · intro gone c' removed id master member other
    have effect := call_effect (.unsubscribe gone) c
    rw [FlightVars.call_unsubscribe, removed] at effect
    obtain ⟨-, -, same⟩ := effect
    apply routed_of_known
    rw [same, eraseSubscription_other other]
    exact known id master member

/-- A call that returns, with an id that is not in use if it returns one. -/
theorem returned {c c' : Core ι δ} {issued issued' : List (SubscriptionId × ι)} {call : FlightVars.Call}
    {a : Option SubscriptionId} (executed : FlightVars.call call c = .ok a c') (recorded : record c issued call a = issued')
    (unused : ∀ id master, a = some id → (id, master) ∉ issued) :
    Meeting Step Fresh (c, issued) call (c', issued') := by
  refine ⟨.inl ⟨a, executed, recorded.symm⟩, fun id c'' executed' master => unused id master ?_⟩
  rw [executed] at executed'
  cases executed'
  rfl
end

/-- Two masters of which the second has a subscription of others, the id 10. -/
def busy : Core Bool FlightVars.Registry :=
  after (registerGroupMaster (text "b") true (after (registerGroupMaster (text "a") false
    (create fun master => if master then ⟨[10], List.nodup_singleton 10⟩ else FlightVars.Registry.empty))))

/-- The busy core after some calls. -/
def busyAfter (calls : List FlightVars.Call) : Core Bool FlightVars.Registry :=
  calls.foldl (fun c call => after (FlightVars.call call c)) busy

/-- A subscription to a variable of the first group, one to a variable of the second, and
    another to one of the first. -/
def subscribeAx : FlightVars.Call := .subscribe (variableId (text "a") (text "x"))
def subscribeBx : FlightVars.Call := .subscribe (variableId (text "b") (text "x"))
def subscribeAy : FlightVars.Call := .subscribe (variableId (text "a") (text "y"))

/-- Three subscriptions at two masters, and the first of them removed. -/
def busyCalls : List FlightVars.Call := [subscribeAx, subscribeBx, subscribeAy, .unsubscribe 1]

theorem busy_run : Run (Meeting Step Fresh) (busy, []) (busyAfter busyCalls, [(2, false), (11, true)]) := by
  have first : Meeting Step Fresh (busy, []) subscribeAx (busyAfter (busyCalls.take 1), [(1, false)]) :=
    returned (a := some 1) rfl rfl (by simp)
  have second : Meeting Step Fresh (busyAfter (busyCalls.take 1), [(1, false)]) subscribeBx
      (busyAfter (busyCalls.take 2), [(11, true), (1, false)]) := returned (a := some 11) rfl rfl (by simp)
  have third : Meeting Step Fresh (busyAfter (busyCalls.take 2), [(11, true), (1, false)]) subscribeAy
      (busyAfter (busyCalls.take 3), [(2, false), (11, true), (1, false)]) := returned (a := some 2) rfl rfl (by
        rintro id master ⟨⟩
        simp)
  have removed : Meeting Step Fresh (busyAfter (busyCalls.take 3), [(2, false), (11, true), (1, false)]) (.unsubscribe 1)
      (busyAfter busyCalls, [(2, false), (11, true)]) := returned (a := none) rfl rfl (by simp)
  exact ((((Run.refl _).next first).next second).next third).next removed

/-- Both masters have subscriptions that lead to them, and still do when another is removed. -/
theorem busy_routed : Routed (busyAfter busyCalls) 2 false ∧ Routed (busyAfter busyCalls) 11 true ∧
    ∃ c, FlightVars.unsubscribe 2 (busyAfter busyCalls) = .ok () c ∧ Routed c 11 true := by
  obtain ⟨routed, stays⟩ := routed_everywhere busy (busyAfter busyCalls) [(2, false), (11, true)] busy_run
  have ended : FlightVars.unsubscribe 2 (busyAfter busyCalls) = .ok () (busyAfter (busyCalls ++ [.unsubscribe 2])) := rfl
  exact ⟨routed 2 false (by simp), routed 11 true (by simp), _, ended, stays 2 _ ended 11 true (by simp) (by decide)⟩

/-- A core with a master for each of two groups. -/
def pair : Core Bool FlightVars.Registry :=
  after (registerGroupMaster (text "b") true
    (after (registerGroupMaster (text "a") false (create fun _ => FlightVars.Registry.empty))))

/-- The core after a subscription at the first master. -/
def pairOnce : Core Bool FlightVars.Registry := after (FlightVars.call (.subscribe (variableId (text "a") (text "x"))) pair)

theorem pair_once : Step (pair, []) (.subscribe (variableId (text "a") (text "x"))) (pairOnce, [(1, false)]) :=
  .inl ⟨some 1, rfl, rfl⟩

/-- Both masters issue the id 1, and the first of the two subscriptions leads to the
    wrong master. -/
theorem pair_misrouted : FlightVars.Lawful FlightVars.Registry.live ∧
    ∃ c issued, Run Step (pair, []) (c, issued) ∧ (1, false) ∈ issued ∧ ¬ Routed c 1 false := by
  have twice : Step (pairOnce, [(1, false)]) (.subscribe (variableId (text "b") (text "x")))
      (after (FlightVars.call (.subscribe (variableId (text "b") (text "x"))) pairOnce), [(1, true), (1, false)]) :=
    .inl ⟨some 1, rfl, rfl⟩
  refine ⟨FlightVars.Registry.lawful, _, _, ((Run.refl _).next pair_once).next twice, by simp, ?_⟩
  intro routed
  have kept := congrArg (fun result => ((after result).masters false).ids) routed.unsubscribe
  exact absurd kept (by decide)

end Core
end Oac
