import Oac.Client.Store

/-!
# The maps of the subscription DB

The `subscription_db` as the code keeps it: entries on the heap, and three maps that lead
to them by variable, by master subscription and by virtual subscription. A call to the DB
shows what the same call does to the store.
-/
namespace Oac.Client
open Base

/-- An `entry_ptr`. -/
abbrev EntryPtr := Nat

/-- `heap` is what the pointers below `unused` refer to. -/
structure SubscriptionMaps where
  varIdMap : VariableId → Option EntryPtr
  masterSubsIdMap : SubscriptionId → Option EntryPtr
  virtualSubsIdMap : SubscriptionId → Option EntryPtr
  heap : EntryPtr → Entry
  unused : EntryPtr

namespace SubscriptionMaps

abbrev DbM := EStateM Exception SubscriptionMaps

def empty : SubscriptionMaps where
  varIdMap := fun _ => none
  masterSubsIdMap := fun _ => none
  virtualSubsIdMap := fun _ => none
  heap := fun _ => ⟨variableId [] [], 0, []⟩
  unused := 0

/-- `e->virtual_subs` becomes another list. -/
def setVirtualSubs (e : EntryPtr) (f : List Subscription → List Subscription) (s : SubscriptionMaps) : SubscriptionMaps :=
  { s with heap := Function.update s.heap e { s.heap e with virtualSubs := f (s.heap e).virtualSubs } }

def variableDefined (varId : VariableId) : DbM Bool := do
  return ((← get).varIdMap varId).isSome

def masterSubscriptionDefined (subsId : SubscriptionId) : DbM Bool := do
  return ((← get).masterSubsIdMap subsId).isSome

/-- The entry behind a key of one of the maps. -/
def getEntry (key : SubscriptionMaps → Option EntryPtr) (missing : Exception) : DbM EntryPtr := do
  match key (← get) with
  | some e => return e
  | none => throw missing

def getEntryByVar (varId : VariableId) : DbM EntryPtr := getEntry (·.varIdMap varId) (.dbNoSuchVariable varId)

def getEntryByMaster (master : SubscriptionId) : DbM EntryPtr := getEntry (·.masterSubsIdMap master) (.dbNoSuchMaster master)

def getEntryByVirtual (virtSubsId : SubscriptionId) : DbM EntryPtr :=
  getEntry (·.virtualSubsIdMap virtSubsId) (.dbNoSuchVirtual virtSubsId)

/-- The copy of the list that `get_virtual_subscriptions` returns. -/
def getVirtualSubscriptions (varId : VariableId) : DbM (List Subscription) := do
  let e ← getEntryByVar varId
  return ((← get).heap e).virtualSubs

def initEntry (varId : VariableId) (masterSubsId : SubscriptionId) : DbM EntryPtr := do
  let e := (← get).unused
  modify fun s => { s with heap := Function.update s.heap e ⟨varId, masterSubsId, []⟩, unused := e + 1 }
  modify fun s => { s with varIdMap := Function.update s.varIdMap varId (some e) }
  modify fun s => { s with masterSubsIdMap := Function.update s.masterSubsIdMap masterSubsId (some e) }
  return e

/-- `remove_virtual`, which returns how many virtual subscriptions the entry has left. -/
def removeVirtual (virtualSubsId : SubscriptionId) : DbM Nat := do
  let e ← getEntryByVirtual virtualSubsId
  modify (setVirtualSubs e (·.filter fun s => s.id ≠ virtualSubsId))
  modify fun s => { s with virtualSubsIdMap := Function.update s.virtualSubsIdMap virtualSubsId none }
  return ((← get).heap e).virtualSubs.length

def addVirtualSubscription (varId : VariableId) (handler : Nat) (made : SubscriptionId) : DbM SubscriptionId := do
  if !(← variableDefined varId) then throw (.dbNoSuchVariable varId)
  let e ← getEntryByVar varId
  modify (setVirtualSubs e (· ++ [⟨made, handler⟩]))
  modify fun s => { s with virtualSubsIdMap := Function.update s.virtualSubsIdMap made (some e) }
  return made

def createEntry (varId : VariableId) (masterSubsId : SubscriptionId) (handler : Nat) (made : SubscriptionId) :
    DbM SubscriptionId := do
  if ← variableDefined varId then throw (.dbVariableExists varId)
  if ← masterSubscriptionDefined masterSubsId then throw (.dbMasterExists masterSubsId)
  discard (initEntry varId masterSubsId)
  addVirtualSubscription varId handler made

/-- The loop of `remove_entry`. -/
def removeVirtuals : List Subscription → DbM Unit
  | [] => pure ()
  | subs :: virtuals => do
    discard (removeVirtual subs.id)
    removeVirtuals virtuals

def removeEntry (varId : VariableId) : DbM Unit := do
  let e ← getEntryByVar varId
  removeVirtuals (← getVirtualSubscriptions varId)
  modify fun s => { s with masterSubsIdMap := Function.update s.masterSubsIdMap (s.heap e).masterSubsId none }
  modify fun s => { s with varIdMap := Function.update s.varIdMap varId none }

def removeVirtualSubscription (virtualSubsId : SubscriptionId) : DbM Bool := do
  let e ← getEntryByVirtual virtualSubsId
  if (← removeVirtual virtualSubsId) = 0 then
    removeEntry ((← get).heap e).varId
    return true
  return false

def getMasterSubscriptionIdOfVariable (varId : VariableId) : DbM SubscriptionId := do
  let e ← getEntryByVar varId
  return ((← get).heap e).masterSubsId

def getMasterSubscriptionId (virtualSubsId : SubscriptionId) : DbM SubscriptionId := do
  let e ← getEntryByVirtual virtualSubsId
  return ((← get).heap e).masterSubsId

/-- The loop of `invoke_handlers`, which shows the invocations. -/
def invoke (e : EntryPtr) (varValue : VariableValue) : List Subscription → DbM (List (Nat × VariableId × VariableValue))
  | [] => return []
  | s :: virtuals => do
    let varId := ((← get).heap e).varId
    return (s.handler, varId, varValue) :: (← invoke e varValue virtuals)

def invokeHandlers (masterSubsId : SubscriptionId) (varValue : VariableValue) :
    DbM (List (Nat × VariableId × VariableValue)) := do
  let e ← getEntryByMaster masterSubsId
  let virtuals ← getVirtualSubscriptions ((← get).heap e).varId
  invoke e varValue virtuals

def perform : DbCall → DbM DbAnswer
  | .createEntry v i handler made => .subscription <$> createEntry v i handler made
  | .removeEntry v => (fun _ => .done) <$> removeEntry v
  | .addVirtualSubscription v handler made => .subscription <$> addVirtualSubscription v handler made
  | .removeVirtualSubscription id => .flag <$> removeVirtualSubscription id
  | .entryDefined v => .flag <$> variableDefined v
  | .masterOfVariable v => .subscription <$> getMasterSubscriptionIdOfVariable v
  | .masterOfVirtual id => .subscription <$> getMasterSubscriptionId id
  | .invokeHandlers i value => .invoked <$> invokeHandlers i value

/-! ## Consistency of the maps -/

/-- The slot of a variable. -/
def slot (s : SubscriptionMaps) (v : VariableId) : Option Slot :=
  (s.varIdMap v).map fun e => ⟨(s.heap e).masterSubsId, (s.heap e).virtualSubs⟩

/-- The three maps lead to the same entries. -/
structure Indexed (s : SubscriptionMaps) : Prop where
  allocated : ∀ {v e}, s.varIdMap v = some e → e < s.unused
  named : ∀ {v e}, s.varIdMap v = some e → (s.heap e).varId = v
  masters : ∀ {i e}, s.masterSubsIdMap i = some e ↔ ∃ v, s.varIdMap v = some e ∧ (s.heap e).masterSubsId = i
  virtuals : ∀ {id e}, s.virtualSubsIdMap id = some e ↔
    ∃ v, s.varIdMap v = some e ∧ id ∈ (s.heap e).virtualSubs.map Subscription.id
  once : ∀ {v e}, s.varIdMap v = some e → ((s.heap e).virtualSubs.map Subscription.id).Nodup

/-- The maps are consistent and show the store. -/
structure Represents (s : SubscriptionMaps) (t : Store) : Prop where
  indexed : Indexed s
  shown : ∀ v, s.slot v = t.slot v

variable {s : SubscriptionMaps} {v : VariableId} {i id : SubscriptionId} {e : EntryPtr}

theorem Indexed.same_variable (indexed : Indexed s) {w : VariableId} (here : s.varIdMap v = some e)
    (there : s.varIdMap w = some e) : w = v :=
  (indexed.named there).symm.trans (indexed.named here)

/-- The state with another list in an entry, and the map of virtual subscriptions for it. -/
def relist (s : SubscriptionMaps) (e : EntryPtr) (list : List Subscription) (map : SubscriptionId → Option EntryPtr) :
    SubscriptionMaps :=
  { s with heap := Function.update s.heap e { s.heap e with virtualSubs := list }, virtualSubsIdMap := map }

variable {list : List Subscription} {map : SubscriptionId → Option EntryPtr}

theorem relist_masterSubsId (e' : EntryPtr) : ((s.relist e list map).heap e').masterSubsId = (s.heap e').masterSubsId := by
  by_cases same : e' = e
  · subst same
    simp [relist]
  · simp [relist, same]

theorem relist_varId (e' : EntryPtr) : ((s.relist e list map).heap e').varId = (s.heap e').varId := by
  by_cases same : e' = e
  · subst same
    simp [relist]
  · simp [relist, same]

theorem relist_self : ((s.relist e list map).heap e).virtualSubs = list := by
  simp [relist]

theorem relist_other {e' : EntryPtr} (other : e' ≠ e) : (s.relist e list map).heap e' = s.heap e' := by
  simp [relist, other]

theorem Indexed.slot_relist (indexed : Indexed s) (here : s.varIdMap v = some e) :
    (s.relist e list map).slot = Function.update s.slot v (some ⟨(s.heap e).masterSubsId, list⟩) := by
  funext w
  by_cases same : w = v
  · subst same
    simp [slot, relist, here]
  · rw [Function.update_of_ne same]
    show (s.varIdMap w).map _ = (s.varIdMap w).map _
    cases there : s.varIdMap w with
    | none => rfl
    | some e' =>
      have other : e' ≠ e := by
        rintro rfl
        exact same (indexed.same_variable here there)
      simp [relist_other other]

/-- The map of virtual subscriptions has to lead to the new list. -/
theorem Indexed.relist (indexed : Indexed s) (here : s.varIdMap v = some e)
    (listed : ∀ {id}, map id = some e ↔ id ∈ list.map Subscription.id)
    (kept : ∀ {id e'}, e' ≠ e → (map id = some e' ↔ s.virtualSubsIdMap id = some e'))
    (distinct : (list.map Subscription.id).Nodup) : Indexed (s.relist e list map) where
  allocated := indexed.allocated
  named := by
    intro w e' at_w
    rw [relist_varId]
    exact indexed.named at_w
  masters := by
    intro i e'
    rw [relist_masterSubsId]
    exact indexed.masters
  virtuals := by
    intro id e'
    show map id = some e' ↔ ∃ w, s.varIdMap w = some e' ∧ _
    by_cases same : e' = e
    · subst same
      rw [listed, relist_self]
      exact ⟨fun member => ⟨v, here, member⟩, fun ⟨_, _, member⟩ => member⟩
    · rw [kept same, relist_other same]
      exact indexed.virtuals
  once := by
    intro w e' at_w
    by_cases same : e' = e
    · subst same
      rw [relist_self]
      exact distinct
    · rw [relist_other same]
      exact indexed.once at_w

/-- The state after `init_entry`. -/
def opened (s : SubscriptionMaps) (v : VariableId) (i : SubscriptionId) : SubscriptionMaps where
  varIdMap := Function.update s.varIdMap v (some s.unused)
  masterSubsIdMap := Function.update s.masterSubsIdMap i (some s.unused)
  virtualSubsIdMap := s.virtualSubsIdMap
  heap := Function.update s.heap s.unused ⟨v, i, []⟩
  unused := s.unused + 1

theorem opened_heap (e : EntryPtr) (known : e < s.unused) : (s.opened v i).heap e = s.heap e := by
  have other : e ≠ s.unused := known.ne
  simp [opened, other]

theorem Indexed.slot_opened (indexed : Indexed s) :
    (s.opened v i).slot = Function.update s.slot v (some ⟨i, []⟩) := by
  funext w
  by_cases same : w = v
  · subst same
    simp [slot, opened]
  · rw [Function.update_of_ne same, slot, slot]
    have at_w : (s.opened v i).varIdMap w = s.varIdMap w := by simp [opened, same]
    rw [at_w]
    cases there : s.varIdMap w with
    | none => rfl
    | some e => simp [opened_heap e (indexed.allocated there)]

theorem Indexed.opened (indexed : Indexed s) (newVariable : s.varIdMap v = none) (newMaster : s.masterSubsIdMap i = none) :
    Indexed (s.opened v i) := by
  -- the new entry is the only one behind its pointer
  have cases_at {w : VariableId} {e : EntryPtr} (at_w : (s.opened v i).varIdMap w = some e) :
      (w = v ∧ e = s.unused) ∨ (w ≠ v ∧ e < s.unused ∧ s.varIdMap w = some e) := by
    by_cases same : w = v
    · subst same
      exact .inl ⟨rfl, by simpa [SubscriptionMaps.opened, eq_comm] using at_w⟩
    · have there : s.varIdMap w = some e := by simpa [SubscriptionMaps.opened, same] using at_w
      exact .inr ⟨same, indexed.allocated there, there⟩
  have at_v : (s.opened v i).varIdMap v = some s.unused := by simp [SubscriptionMaps.opened]
  have heap_v : (s.opened v i).heap s.unused = ⟨v, i, []⟩ := by simp [SubscriptionMaps.opened]
  have at_other {w : VariableId} {e : EntryPtr} (there : s.varIdMap w = some e) : (s.opened v i).varIdMap w = some e := by
    have other : w ≠ v := by
      rintro rfl
      exact absurd (newVariable.symm.trans there) nofun
    simpa [SubscriptionMaps.opened, other] using there
  refine ⟨?_, ?_, ?_, ?_, ?_⟩
  · intro w e at_w
    show e < s.unused + 1
    rcases cases_at at_w with ⟨-, rfl⟩ | ⟨-, known, -⟩
    · exact Nat.lt_succ_self _
    · exact Nat.lt_succ_of_lt known
  · intro w e at_w
    rcases cases_at at_w with ⟨rfl, rfl⟩ | ⟨-, known, there⟩
    · rw [heap_v]
    · rw [opened_heap e known]
      exact indexed.named there
  · intro i' e
    constructor
    · intro at_i
      by_cases same : i' = i
      · subst same
        have fresh : e = s.unused := by simpa [SubscriptionMaps.opened, eq_comm] using at_i
        subst fresh
        exact ⟨v, at_v, by rw [heap_v]⟩
      · have before : s.masterSubsIdMap i' = some e := by simpa [SubscriptionMaps.opened, same] using at_i
        obtain ⟨w, there, master⟩ := indexed.masters.mp before
        exact ⟨w, at_other there, by rw [opened_heap e (indexed.allocated there), master]⟩
    · rintro ⟨w, at_w, master⟩
      rcases cases_at at_w with ⟨rfl, rfl⟩ | ⟨-, known, there⟩
      · rw [heap_v] at master
        subst master
        simp [SubscriptionMaps.opened]
      · rw [opened_heap e known] at master
        have before := indexed.masters.mpr ⟨w, there, master⟩
        have other : i' ≠ i := by
          rintro rfl
          exact absurd (newMaster.symm.trans before) nofun
        simpa [SubscriptionMaps.opened, other] using before
  · intro id e
    refine (indexed.virtuals : s.virtualSubsIdMap id = some e ↔ _).trans ?_
    constructor
    · rintro ⟨w, there, member⟩
      exact ⟨w, at_other there, by rwa [opened_heap e (indexed.allocated there)]⟩
    · rintro ⟨w, at_w, member⟩
      rcases cases_at at_w with ⟨rfl, rfl⟩ | ⟨-, known, there⟩
      · rw [heap_v] at member
        exact absurd member List.not_mem_nil
      · rw [opened_heap e known] at member
        exact ⟨w, there, member⟩
  · intro w e at_w
    rcases cases_at at_w with ⟨rfl, rfl⟩ | ⟨-, known, there⟩
    · rw [heap_v]
      exact List.nodup_nil
    · rw [opened_heap e known]
      exact indexed.once there

/-- The state at the end of `remove_entry`. -/
def closed (s : SubscriptionMaps) (v : VariableId) (e : EntryPtr) : SubscriptionMaps :=
  { s with
    masterSubsIdMap := Function.update s.masterSubsIdMap (s.heap e).masterSubsId none
    varIdMap := Function.update s.varIdMap v none }

theorem slot_closed : (s.closed v e).slot = Function.update s.slot v none := by
  funext w
  by_cases same : w = v
  · subst same
    simp [slot, closed]
  · simp [slot, closed, same]

/-- An entry without virtual subscriptions may go. -/
theorem Indexed.closed (indexed : Indexed s) (here : s.varIdMap v = some e) (bare : (s.heap e).virtualSubs = []) :
    Indexed (s.closed v e) := by
  have at_other {w : VariableId} {e' : EntryPtr} :
      (s.closed v e).varIdMap w = some e' ↔ e' ≠ e ∧ s.varIdMap w = some e' := by
    by_cases same : w = v
    · subst same
      simp [SubscriptionMaps.closed, here, eq_comm]
    · have at_w : (s.closed v e).varIdMap w = s.varIdMap w := by simp [SubscriptionMaps.closed, same]
      rw [at_w]
      refine ⟨fun there => ⟨?_, there⟩, And.right⟩
      rintro rfl
      exact same (indexed.same_variable here there)
  refine ⟨?_, ?_, ?_, ?_, ?_⟩
  · intro w e' at_w
    exact indexed.allocated (at_other.mp at_w).2
  · intro w e' at_w
    exact indexed.named (at_other.mp at_w).2
  · intro i e'
    have mine : s.masterSubsIdMap (s.heap e).masterSubsId = some e := indexed.masters.mpr ⟨v, here, rfl⟩
    simp only [at_other]
    by_cases same : i = (s.heap e).masterSubsId
    · subst same
      have gone : (s.closed v e).masterSubsIdMap (s.heap e).masterSubsId = none := by simp [SubscriptionMaps.closed]
      rw [gone]
      refine ⟨nofun, ?_⟩
      rintro ⟨w, ⟨other, there⟩, master⟩
      have also := indexed.masters.mpr ⟨w, there, master⟩
      exact absurd (Option.some.inj (also.symm.trans mine)) other
    · have left : (s.closed v e).masterSubsIdMap i = s.masterSubsIdMap i := by simp [SubscriptionMaps.closed, same]
      rw [left, indexed.masters]
      constructor
      · rintro ⟨w, there, master⟩
        refine ⟨w, ⟨?_, there⟩, master⟩
        rintro rfl
        exact same master.symm
      · rintro ⟨w, ⟨-, there⟩, master⟩
        exact ⟨w, there, master⟩
  · intro id e'
    refine (indexed.virtuals : s.virtualSubsIdMap id = some e' ↔ _).trans ?_
    simp only [at_other]
    constructor
    · rintro ⟨w, there, member⟩
      refine ⟨w, ⟨?_, there⟩, member⟩
      rintro rfl
      rw [bare] at member
      exact absurd member List.not_mem_nil
    · rintro ⟨w, ⟨-, there⟩, member⟩
      exact ⟨w, there, member⟩
  · intro w e' at_w
    exact indexed.once (at_other.mp at_w).2

/-! ## What the functions do -/

variable {key : SubscriptionMaps → Option EntryPtr} {missing : Exception}

theorem getEntry_some (here : key s = some e) : getEntry key missing s = .ok e s := by
  show (match key s with | some e => pure e | none => throw missing : DbM EntryPtr) s = _
  rw [here]
  rfl

theorem getEntry_none (unknown : key s = none) : getEntry key missing s = .error missing s := by
  show (match key s with | some e => pure e | none => throw missing : DbM EntryPtr) s = _
  rw [unknown]
  rfl

theorem variableDefined_eq {defined : Bool} (same : (s.varIdMap v).isSome = defined) :
    variableDefined v s = .ok defined s := by
  rw [← same]
  rfl

theorem masterSubscriptionDefined_eq {defined : Bool} (same : (s.masterSubsIdMap i).isSome = defined) :
    masterSubscriptionDefined i s = .ok defined s := by
  rw [← same]
  rfl

theorem getEntryByVar_some (here : s.varIdMap v = some e) : getEntryByVar v s = .ok e s := getEntry_some here

theorem getEntryByVar_none (unknown : s.varIdMap v = none) : getEntryByVar v s = .error (.dbNoSuchVariable v) s :=
  getEntry_none unknown

theorem getEntryByMaster_some (here : s.masterSubsIdMap i = some e) : getEntryByMaster i s = .ok e s := getEntry_some here

theorem getEntryByMaster_none (unknown : s.masterSubsIdMap i = none) :
    getEntryByMaster i s = .error (.dbNoSuchMaster i) s :=
  getEntry_none unknown

theorem getEntryByVirtual_some (here : s.virtualSubsIdMap id = some e) : getEntryByVirtual id s = .ok e s :=
  getEntry_some here

theorem getEntryByVirtual_none (unknown : s.virtualSubsIdMap id = none) :
    getEntryByVirtual id s = .error (.dbNoSuchVirtual id) s :=
  getEntry_none unknown

theorem getVirtualSubscriptions_some (here : s.varIdMap v = some e) :
    getVirtualSubscriptions v s = .ok (s.heap e).virtualSubs s :=
  ok_bind (getEntryByVar_some here)

/-- A virtual subscription leaves its entry and its map. -/
theorem removeVirtual_some (indexed : Indexed s) (here : s.varIdMap v = some e)
    (member : id ∈ (s.heap e).virtualSubs.map Subscription.id) :
    ∃ s', removeVirtual id s = .ok ((s.heap e).virtualSubs.filter fun h => h.id ≠ id).length s' ∧ Indexed s' ∧
      s'.varIdMap = s.varIdMap ∧ s'.heap e = { s.heap e with virtualSubs := (s.heap e).virtualSubs.filter fun h => h.id ≠ id } ∧
      s'.slot = Function.update s.slot v (some (Slot.without ⟨(s.heap e).masterSubsId, (s.heap e).virtualSubs⟩ id)) := by
  have found := indexed.virtuals.mpr ⟨v, here, member⟩
  have shorter : ∀ id', id' ∈ ((s.heap e).virtualSubs.filter fun h => h.id ≠ id).map Subscription.id ↔
      id' ∈ (s.heap e).virtualSubs.map Subscription.id ∧ id' ≠ id := by
    intro id'
    simp only [List.mem_map, List.mem_filter, decide_eq_true_eq]
    constructor
    · rintro ⟨h, ⟨among, other⟩, rfl⟩
      exact ⟨⟨h, among, rfl⟩, other⟩
    · rintro ⟨⟨h, among, rfl⟩, other⟩
      exact ⟨h, ⟨among, other⟩, rfl⟩
  refine ⟨s.relist e ((s.heap e).virtualSubs.filter fun h => h.id ≠ id) (Function.update s.virtualSubsIdMap id none),
    ?_, indexed.relist here ?_ ?_ ?_, rfl, ?_, indexed.slot_relist here⟩
  · rw [removeVirtual, ok_bind (getEntryByVirtual_some found)]
    show EStateM.Result.ok _ _ = _
    simp [setVirtualSubs, SubscriptionMaps.relist]
  · intro id'
    rw [shorter id']
    by_cases same : id' = id
    · subst same
      simp
    · rw [Function.update_of_ne same, indexed.virtuals]
      constructor
      · rintro ⟨w, there, among⟩
        exact ⟨among, same⟩
      · rintro ⟨among, -⟩
        exact ⟨v, here, among⟩
  · intro id' e' other
    by_cases same : id' = id
    · subst same
      simp [found, Ne.symm other]
    · rw [Function.update_of_ne same]
  · exact (indexed.once here).sublist (List.filter_sublist.map _)
  · simp [SubscriptionMaps.relist]

/-- The loop of `remove_entry` empties the entry. -/
theorem removeVirtuals_empties (virtuals : List Subscription) :
    ∀ {s : SubscriptionMaps}, Indexed s → s.varIdMap v = some e → (s.heap e).virtualSubs = virtuals →
      ∃ s', removeVirtuals virtuals s = .ok () s' ∧ Indexed s' ∧ s'.varIdMap v = some e ∧
        s'.heap e = { s.heap e with virtualSubs := [] } ∧
        s'.slot = Function.update s.slot v (some ⟨(s.heap e).masterSubsId, []⟩) := by
  induction virtuals with
  | nil =>
    intro s indexed here list
    refine ⟨s, rfl, indexed, here, ?_, ?_⟩
    · rw [← list]
    · have at_v : s.slot v = some ⟨(s.heap e).masterSubsId, []⟩ := by simp [slot, here, list]
      rw [← at_v, Function.update_eq_self]
  | cons subs virtuals ih =>
    intro s indexed here list
    have member : subs.id ∈ (s.heap e).virtualSubs.map Subscription.id := by simp [list]
    obtain ⟨s₁, removed, indexed₁, same, entry, shown⟩ := removeVirtual_some indexed here member
    have once := indexed.once here
    rw [list, List.map_cons, List.nodup_cons] at once
    have left : (s.heap e).virtualSubs.filter (fun h => h.id ≠ subs.id) = virtuals := by
      rw [list, List.filter_cons_of_neg (by simp), List.filter_eq_self]
      intro h among
      rw [decide_eq_true_eq]
      intro clash
      exact once.1 (clash ▸ List.mem_map_of_mem among)
    rw [left] at removed entry
    obtain ⟨s₂, emptied, indexed₂, here₂, entry₂, shown₂⟩ := ih indexed₁ (same ▸ here) (by rw [entry])
    refine ⟨s₂, ?_, indexed₂, here₂, by rw [entry₂, entry], ?_⟩
    · rw [removeVirtuals, ok_bind (show discard (removeVirtual subs.id) s = .ok () s₁ from ok_bind removed)]
      exact emptied
    · rw [shown₂, shown, entry, Function.update_idem]

theorem removeEntry_some (indexed : Indexed s) (here : s.varIdMap v = some e) :
    ∃ s', removeEntry v s = .ok () s' ∧ Indexed s' ∧ s'.slot = Function.update s.slot v none := by
  obtain ⟨s₁, emptied, indexed₁, here₁, entry, shown⟩ := removeVirtuals_empties _ indexed here rfl
  refine ⟨s₁.closed v e, ?_, indexed₁.closed here₁ (by rw [entry]), ?_⟩
  · rw [removeEntry, ok_bind (getEntryByVar_some here), ok_bind (getVirtualSubscriptions_some here), ok_bind emptied]
    rfl
  · rw [slot_closed, shown, Function.update_idem]

/-- What a new virtual subscription changes, whether its id is in use or not. -/
theorem addVirtualSubscription_eq (here : s.varIdMap v = some e) (handler : Nat) (made : SubscriptionId) :
    addVirtualSubscription v handler made s = .ok made
      (s.relist e ((s.heap e).virtualSubs ++ [⟨made, handler⟩]) (Function.update s.virtualSubsIdMap made (some e))) := by
  rw [addVirtualSubscription, ok_bind (variableDefined_eq (by rw [here]))]
  show (getEntryByVar v >>= _) s = _
  rw [ok_bind (getEntryByVar_some here)]
  rfl

theorem createEntry_opened (newVariable : s.varIdMap v = none) (newMaster : s.masterSubsIdMap i = none) (handler : Nat)
    (made : SubscriptionId) : createEntry v i handler made s = addVirtualSubscription v handler made (s.opened v i) := by
  rw [createEntry, ok_bind (variableDefined_eq (by rw [newVariable]))]
  show (masterSubscriptionDefined i >>= _) s = _
  rw [ok_bind (masterSubscriptionDefined_eq (by rw [newMaster]))]
  rfl

theorem addVirtualSubscription_some (indexed : Indexed s) (here : s.varIdMap v = some e) (handler : Nat)
    {made : SubscriptionId} (fresh : ∀ w a, s.slot w = some a → ¬ a.Holds made) :
    ∃ s', addVirtualSubscription v handler made s = .ok made s' ∧ Indexed s' ∧
      s'.slot = Function.update s.slot v (some ⟨(s.heap e).masterSubsId, (s.heap e).virtualSubs ++ [⟨made, handler⟩]⟩) := by
  have unheld : ∀ {w e'}, s.varIdMap w = some e' → made ∉ (s.heap e').virtualSubs.map Subscription.id := by
    intro w e' there
    exact fresh w ⟨(s.heap e').masterSubsId, (s.heap e').virtualSubs⟩ (by simp [slot, there])
  refine ⟨s.relist e ((s.heap e).virtualSubs ++ [⟨made, handler⟩]) (Function.update s.virtualSubsIdMap made (some e)),
    addVirtualSubscription_eq here handler made, indexed.relist here ?_ ?_ ?_, indexed.slot_relist here⟩
  · intro id
    rw [List.map_append, List.mem_append]
    by_cases same : id = made
    · subst same
      simp
    · rw [Function.update_of_ne same, indexed.virtuals]
      constructor
      · rintro ⟨w, there, among⟩
        exact .inl among
      · rintro (among | new)
        · exact ⟨v, here, among⟩
        · exact absurd (List.mem_singleton.mp new) same
  · intro id e' other
    by_cases same : id = made
    · subst same
      rw [Function.update_self]
      refine ⟨fun there => absurd (Option.some.inj there).symm other, fun there => ?_⟩
      obtain ⟨w, at_w, member⟩ := indexed.virtuals.mp there
      exact absurd member (unheld at_w)
    · rw [Function.update_of_ne same]
  · rw [List.map_append, List.nodup_append]
    refine ⟨indexed.once here, List.nodup_singleton _, ?_⟩
    intro id among id' new same
    have clash : id = made := same.trans (List.mem_singleton.mp new)
    exact unheld here (clash ▸ among)

theorem createEntry_some (indexed : Indexed s) (newVariable : s.varIdMap v = none) (newMaster : s.masterSubsIdMap i = none)
    (handler : Nat) {made : SubscriptionId} (fresh : ∀ w a, s.slot w = some a → ¬ a.Holds made) :
    ∃ s', createEntry v i handler made s = .ok made s' ∧ Indexed s' ∧
      s'.slot = Function.update s.slot v (some ⟨i, [⟨made, handler⟩]⟩) := by
  have indexed₁ := indexed.opened newVariable newMaster
  have here : (s.opened v i).varIdMap v = some s.unused := by simp [SubscriptionMaps.opened]
  have entry : (s.opened v i).heap s.unused = ⟨v, i, []⟩ := by simp [SubscriptionMaps.opened]
  have fresh₁ : ∀ w a, (s.opened v i).slot w = some a → ¬ a.Holds made := by
    intro w a at_w
    rw [indexed.slot_opened] at at_w
    by_cases same : w = v
    · subst same
      rw [Function.update_self, Option.some.injEq] at at_w
      subst at_w
      exact List.not_mem_nil
    · rw [Function.update_of_ne same] at at_w
      exact fresh w a at_w
  obtain ⟨s', added, indexed', shown⟩ := addVirtualSubscription_some indexed₁ here handler fresh₁
  refine ⟨s', (createEntry_opened newVariable newMaster handler made).trans added, indexed', ?_⟩
  rw [shown, indexed.slot_opened, Function.update_idem, entry]
  rfl

/-- The entry goes with its last virtual subscription, and only then. -/
theorem removeVirtualSubscription_some (indexed : Indexed s) (here : s.varIdMap v = some e)
    (member : id ∈ (s.heap e).virtualSubs.map Subscription.id) :
    ∃ s', removeVirtualSubscription id s = .ok (decide ((s.heap e).virtualSubs.filter (fun h => h.id ≠ id) = [])) s' ∧
      Indexed s' ∧ s'.slot = Function.update s.slot v
        (if (s.heap e).virtualSubs.filter (fun h => h.id ≠ id) = [] then none
          else some (Slot.without ⟨(s.heap e).masterSubsId, (s.heap e).virtualSubs⟩ id)) := by
  have found := indexed.virtuals.mpr ⟨v, here, member⟩
  obtain ⟨s₁, removed, indexed₁, same, entry, shown⟩ := removeVirtual_some indexed here member
  have here₁ : s₁.varIdMap v = some e := same ▸ here
  rw [removeVirtualSubscription, ok_bind (getEntryByVirtual_some found), ok_bind removed]
  by_cases last : (s.heap e).virtualSubs.filter (fun h => h.id ≠ id) = []
  · obtain ⟨s₂, erased, indexed₂, shown₂⟩ := removeEntry_some indexed₁ here₁
    refine ⟨s₂, ?_, indexed₂, ?_⟩
    · rw [last, List.length_nil, if_pos rfl, decide_eq_true rfl]
      have named : (s₁.heap e).varId = v := indexed₁.named here₁
      show (removeEntry (s₁.heap e).varId >>= _) s₁ = _
      rw [named, ok_bind erased]
      rfl
    · rw [shown₂, shown, if_pos last, Function.update_idem]
  · refine ⟨s₁, ?_, indexed₁, ?_⟩
    · rw [if_neg (fun none => last (List.eq_nil_of_length_eq_zero none)), decide_eq_false last]
      rfl
    · rw [shown, if_neg last]

theorem invoke_all (varValue : VariableValue) (virtuals : List Subscription) :
    invoke e varValue virtuals s = .ok (virtuals.map fun h => (h.handler, (s.heap e).varId, varValue)) s := by
  induction virtuals with
  | nil => rfl
  | cons subs virtuals ih =>
    show (invoke e varValue virtuals >>= _) s = _
    rw [ok_bind ih]
    rfl

theorem invokeHandlers_some (indexed : Indexed s) (here : s.varIdMap v = some e) (value : VariableValue) :
    invokeHandlers (s.heap e).masterSubsId value s =
      .ok ((s.heap e).virtualSubs.map fun h => (h.handler, v, value)) s := by
  have named : (s.heap e).varId = v := indexed.named here
  rw [invokeHandlers, ok_bind (getEntryByMaster_some (indexed.masters.mpr ⟨v, here, rfl⟩))]
  show (getVirtualSubscriptions (s.heap e).varId >>= _) s = _
  rw [named, ok_bind (getVirtualSubscriptions_some here), invoke_all, named]

/-! ## The store that the maps show -/

variable {t t' : Store}

theorem Represents.at_none (shows : Represents s t) (unknown : s.varIdMap v = none) : t.slot v = none := by
  rw [← shows.shown, slot, unknown]
  rfl

theorem Represents.at_some (shows : Represents s t) (here : s.varIdMap v = some e) :
    t.slot v = some ⟨(s.heap e).masterSubsId, (s.heap e).virtualSubs⟩ := by
  rw [← shows.shown, slot, here]
  rfl

theorem Represents.of_slot (shows : Represents s t) {a : Slot} (there : t.slot v = some a) :
    ∃ e, s.varIdMap v = some e ∧ a = ⟨(s.heap e).masterSubsId, (s.heap e).virtualSubs⟩ := by
  cases here : s.varIdMap v with
  | none => cases (shows.at_none here).symm.trans there
  | some e => exact ⟨e, rfl, Option.some.inj (there.symm.trans (shows.at_some here))⟩

/-- A key that leads to one entry is found in the store at that entry alone. -/
theorem Represents.find_some (shows : Represents s t) {p : Slot → Prop} (here : s.varIdMap v = some e)
    (leads : ∀ w e', s.varIdMap w = some e' → p ⟨(s.heap e').masterSubsId, (s.heap e').virtualSubs⟩ → e' = e)
    (holds : p ⟨(s.heap e).masterSubsId, (s.heap e).virtualSubs⟩) :
    t.find p = some (v, ⟨(s.heap e).masterSubsId, (s.heap e).virtualSubs⟩) := by
  refine Store.find_only (shows.at_some here) holds ?_
  intro w b there holds'
  obtain ⟨e', at_w, rfl⟩ := shows.of_slot there
  have same := leads w e' at_w holds'
  subst same
  exact shows.indexed.same_variable here at_w

theorem Represents.find_none (shows : Represents s t) {p : Slot → Prop}
    (unknown : ∀ w e, s.varIdMap w = some e → ¬ p ⟨(s.heap e).masterSubsId, (s.heap e).virtualSubs⟩) : t.find p = none := by
  refine Store.find_nothing ?_
  intro w b there
  obtain ⟨e, at_w, rfl⟩ := shows.of_slot there
  exact unknown w e at_w

theorem Represents.master (shows : Represents s t) (here : s.masterSubsIdMap i = some e) :
    ∃ v, s.varIdMap v = some e ∧ (s.heap e).masterSubsId = i ∧
      t.find (fun a => a.masterSubsId = i) = some (v, ⟨(s.heap e).masterSubsId, (s.heap e).virtualSubs⟩) := by
  obtain ⟨v, at_v, same⟩ := shows.indexed.masters.mp here
  refine ⟨v, at_v, same, shows.find_some at_v ?_ same⟩
  intro w e' at_w same'
  have there := shows.indexed.masters.mpr ⟨w, at_w, same'⟩
  exact Option.some.inj (there.symm.trans here)

theorem Represents.no_master (shows : Represents s t) (unknown : s.masterSubsIdMap i = none) :
    t.find (fun a => a.masterSubsId = i) = none := by
  refine shows.find_none ?_
  intro w e at_w same
  exact absurd (unknown.symm.trans (shows.indexed.masters.mpr ⟨w, at_w, same⟩)) nofun

theorem Represents.virtual (shows : Represents s t) (here : s.virtualSubsIdMap id = some e) :
    ∃ v, s.varIdMap v = some e ∧ id ∈ (s.heap e).virtualSubs.map Subscription.id ∧
      t.find (Slot.Holds id) = some (v, ⟨(s.heap e).masterSubsId, (s.heap e).virtualSubs⟩) := by
  obtain ⟨v, at_v, member⟩ := shows.indexed.virtuals.mp here
  refine ⟨v, at_v, member, shows.find_some at_v ?_ member⟩
  intro w e' at_w member'
  have there := shows.indexed.virtuals.mpr ⟨w, at_w, member'⟩
  exact Option.some.inj (there.symm.trans here)

theorem Represents.no_virtual (shows : Represents s t) (unknown : s.virtualSubsIdMap id = none) :
    t.find (Slot.Holds id) = none := by
  refine shows.find_none ?_
  intro w e at_w member
  exact absurd (unknown.symm.trans (shows.indexed.virtuals.mpr ⟨w, at_w, member⟩)) nofun

/-- The same change on both sides. -/
theorem Represents.change (shows : Represents s t) {s' : SubscriptionMaps} {slot : Option Slot} (indexed : Indexed s')
    (maps : s'.slot = Function.update s.slot v slot) (store : t'.slot = Function.update t.slot v slot) :
    Represents s' t' := by
  refine ⟨indexed, ?_⟩
  intro w
  rw [maps, store, funext shows.shown]

/-- A call returns on both sides, or throws on both sides and changes nothing. -/
def Together (call : DbCall) (s : SubscriptionMaps) (t : Store) : Prop :=
  (∃ a s' t', perform call s = .ok a s' ∧ Store.perform call t = .ok a t' ∧ Represents s' t') ∨
    ∃ e, perform call s = .error e s ∧ Store.perform call t = .error e t

theorem createEntry_used (handler : Nat) (made : SubscriptionId) (here : s.varIdMap v = some e) :
    createEntry v i handler made s = .error (.dbVariableExists v) s := by
  rw [createEntry, ok_bind (variableDefined_eq (by rw [here]))]
  rfl

theorem createEntry_mastered (handler : Nat) (made : SubscriptionId) (here : s.varIdMap v = none)
    (used : s.masterSubsIdMap i = some e) : createEntry v i handler made s = .error (.dbMasterExists i) s := by
  rw [createEntry, ok_bind (variableDefined_eq (by rw [here]))]
  show (masterSubscriptionDefined i >>= _) s = _
  rw [ok_bind (masterSubscriptionDefined_eq (by rw [used]))]
  rfl

theorem addVirtualSubscription_unknown (handler : Nat) (made : SubscriptionId) (here : s.varIdMap v = none) :
    addVirtualSubscription v handler made s = .error (.dbNoSuchVariable v) s := by
  rw [addVirtualSubscription, ok_bind (variableDefined_eq (by rw [here]))]
  rfl

theorem Represents.createEntry (shows : Represents s t) (handler : Nat) {made : SubscriptionId}
    (fresh : t.Fresh (.createEntry v i handler made)) : Together (.createEntry v i handler made) s t := by
  cases here : s.varIdMap v with
  | some e =>
    refine .inr ⟨.dbVariableExists v, error_bind (createEntry_used handler made here), ?_⟩
    simp [Store.perform, shows.at_some here]
  | none =>
    cases used : s.masterSubsIdMap i with
    | some e =>
      obtain ⟨w, at_w, same, found⟩ := shows.master used
      refine .inr ⟨.dbMasterExists i, error_bind (createEntry_mastered handler made here used), ?_⟩
      simp only [Store.perform, shows.at_none here, ne_eq, not_true_eq_false, ↓reduceIte]
      split
      · rfl
      · rename_i missing
        cases missing.symm.trans found
    | none =>
      obtain ⟨s', created, indexed, maps⟩ := createEntry_some shows.indexed here used handler
        fun w a at_w => fresh w a ((shows.shown w).symm.trans at_w)
      obtain ⟨t', performed, store⟩ := Store.perform_createEntry handler made (shows.at_none here)
        (shows.no_master used)
      exact .inl ⟨_, s', t', ok_bind created, performed, shows.change indexed maps store⟩

theorem Represents.addVirtualSubscription (shows : Represents s t) (handler : Nat) {made : SubscriptionId}
    (fresh : t.Fresh (.addVirtualSubscription v handler made)) : Together (.addVirtualSubscription v handler made) s t := by
  cases here : s.varIdMap v with
  | some e =>
    obtain ⟨s', added, indexed, maps⟩ := addVirtualSubscription_some shows.indexed here handler
      fun w a at_w => fresh w a ((shows.shown w).symm.trans at_w)
    obtain ⟨t', performed, store⟩ := Store.perform_addVirtualSubscription handler made (shows.at_some here)
    exact .inl ⟨_, s', t', ok_bind added, performed, shows.change indexed maps store⟩
  | none =>
    refine .inr ⟨.dbNoSuchVariable v, error_bind (addVirtualSubscription_unknown handler made here), ?_⟩
    simp only [Store.perform]
    split
    · rename_i there
      cases (shows.at_none here).symm.trans there
    · rfl

theorem Represents.removeVirtualSubscription (shows : Represents s t) : Together (.removeVirtualSubscription id) s t := by
  cases here : s.virtualSubsIdMap id with
  | some e =>
    obtain ⟨v, at_v, member, found⟩ := shows.virtual here
    obtain ⟨s', removed, indexed, maps⟩ := removeVirtualSubscription_some shows.indexed at_v member
    obtain ⟨t', performed, store⟩ := Store.perform_removeVirtualSubscription found
    exact .inl ⟨_, s', t', ok_bind removed, performed, shows.change indexed maps store⟩
  | none =>
    refine .inr ⟨.dbNoSuchVirtual id, error_bind (error_bind (getEntryByVirtual_none here)), ?_⟩
    simp only [Store.perform]
    split
    · rename_i found
      cases (shows.no_virtual here).symm.trans found
    · rfl

theorem Represents.removeEntry (shows : Represents s t) : Together (.removeEntry v) s t := by
  cases here : s.varIdMap v with
  | some e =>
    obtain ⟨s', removed, indexed, maps⟩ := removeEntry_some shows.indexed here
    refine .inl ⟨.done, s', t.drop v, ok_bind removed, ?_, shows.change indexed maps (Store.drop_slot ..)⟩
    simp only [Store.perform, shows.at_some here]
  | none =>
    refine .inr ⟨.dbNoSuchVariable v, error_bind (error_bind (getEntryByVar_none here)), ?_⟩
    simp only [Store.perform, shows.at_none here]

/-- What a call does on both sides. -/
theorem Represents.perform (shows : Represents s t) (call : DbCall) (fresh : t.Fresh call) : Together call s t := by
  cases call with
  | createEntry v i handler made => exact shows.createEntry handler fresh
  | removeEntry v => exact shows.removeEntry
  | addVirtualSubscription v handler made => exact shows.addVirtualSubscription handler fresh
  | removeVirtualSubscription id => exact shows.removeVirtualSubscription
  | entryDefined v =>
    have same : (s.varIdMap v).isSome = (t.slot v).isSome := by
      rw [← shows.shown, slot, Option.isSome_map]
    exact .inl ⟨_, s, t, ok_bind (f := fun b => pure (DbAnswer.flag b)) (variableDefined_eq same), rfl, shows⟩
  | masterOfVariable v =>
    cases here : s.varIdMap v with
    | some e =>
      refine .inl ⟨_, s, t, ok_bind (ok_bind (getEntryByVar_some here)), ?_, shows⟩
      simp only [Store.perform, shows.at_some here]
    | none =>
      refine .inr ⟨.dbNoSuchVariable v, error_bind (error_bind (getEntryByVar_none here)), ?_⟩
      simp only [Store.perform, shows.at_none here]
  | masterOfVirtual id =>
    cases here : s.virtualSubsIdMap id with
    | some e =>
      obtain ⟨v, -, -, found⟩ := shows.virtual here
      refine .inl ⟨_, s, t, ok_bind (ok_bind (getEntryByVirtual_some here)), ?_, shows⟩
      simp only [Store.perform, found]
    | none =>
      refine .inr ⟨.dbNoSuchVirtual id, error_bind (error_bind (getEntryByVirtual_none here)), ?_⟩
      simp only [Store.perform, shows.no_virtual here]
  | invokeHandlers i value =>
    cases here : s.masterSubsIdMap i with
    | some e =>
      obtain ⟨v, at_v, rfl, found⟩ := shows.master here
      refine .inl ⟨_, s, t, ok_bind (invokeHandlers_some shows.indexed at_v value), ?_, shows⟩
      simp only [Store.perform, found]
    | none =>
      refine .inr ⟨.dbNoSuchMaster i, error_bind (error_bind (getEntryByMaster_none here)), ?_⟩
      simp only [Store.perform, shows.no_master here]

theorem empty_represents : Represents empty Store.empty where
  indexed := ⟨nofun, nofun, by simp [empty], by simp [empty], nofun⟩
  shown := fun _ => rfl

/-- The call throws nothing, or leaves the DB as it was. -/
def Untouched (s : SubscriptionMaps) (call : DbCall) : Prop := ∀ e s', perform call s = .error e s' → s' = s

theorem Together.lockstep {call : DbCall} (together : Together call s t) (shows : Represents s t) :
    Lockstep Represents (perform call s) (Store.perform call t) ∧ Untouched s call := by
  rcases together with ⟨a, s', t', performed, performed', shows'⟩ | ⟨e, raised, raised'⟩
  · rw [performed, performed']
    refine ⟨⟨rfl, shows'⟩, ?_⟩
    intro e s₁ raised
    exact absurd (performed.symm.trans raised) nofun
  · rw [raised, raised']
    refine ⟨⟨rfl, shows⟩, ?_⟩
    intro e' s₁ raised₁
    cases raised.symm.trans raised₁
    rfl

/-- Whatever calls are made, the maps answer as the store does and show the store
    afterwards, and no call that throws changes the DB. -/
theorem maps_refine_store (calls : List DbCall) (fresh : Along Store.perform Store.Fresh calls Store.empty) :
    Alike Represents perform Store.perform calls empty Store.empty ∧ Along perform Untouched calls empty := by
  refine alike_of_lockstep ?_ calls empty_represents fresh
  intro s t call shows fresh
  exact (shows.perform call fresh).lockstep shows

theorem maps_refine_store_one :
    let v := variableId (text "group") (text "name")
    let calls := [.createEntry v 7 0 1, .invokeHandlers 7 (.byte 3), .removeVirtualSubscription 1]
    Alike Represents perform Store.perform calls empty Store.empty ∧ Along perform Untouched calls empty :=
  maps_refine_store _ ⟨nofun, trivial, trivial, trivial⟩

end SubscriptionMaps
end Oac.Client
