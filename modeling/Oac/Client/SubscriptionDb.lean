import Oac.Errors

/-!
# The subscription DB of the client

Entries that tie a variable, its master subscription and its virtual subscriptions
together.
-/
namespace Oac.Client

/-- A virtual subscription. Handlers are told apart by numbers. -/
structure Subscription where
  id : SubscriptionId
  handler : Nat
  deriving DecidableEq

structure Entry where
  varId : VariableId
  masterSubsId : SubscriptionId
  virtualSubs : List Subscription

/-- A `subscription_db`. The entries are found by variable and by master subscription;
    `_virtual_subs_id_map` tells the variable of the entry. `nextId` is that of
    `make_subscription_id`. -/
structure SubscriptionDb where
  entries : List Entry
  virtualSubsIdMap : SubscriptionId → Option VariableId
  nextId : SubscriptionId
  distinctVariables : (entries.map Entry.varId).Nodup
  distinctMasters : (entries.map Entry.masterSubsId).Nodup
  /-- what the map refers to is in the entry -/
  listed : ∀ {subsId varId}, virtualSubsIdMap subsId = some varId →
    ∃ e ∈ entries, e.varId = varId ∧ subsId ∈ e.virtualSubs.map Subscription.id

namespace SubscriptionDb

def empty : SubscriptionDb where
  entries := []
  virtualSubsIdMap := fun _ => none
  nextId := 1
  distinctVariables := List.nodup_nil
  distinctMasters := List.nodup_nil
  listed := nofun

/-- `variable_defined`. -/
def Defined (db : SubscriptionDb) (varId : VariableId) : Prop := varId ∈ db.entries.map Entry.varId
instance (db : SubscriptionDb) (varId : VariableId) : Decidable (db.Defined varId) :=
  inferInstanceAs (Decidable (_ ∈ _))

/-- `master_subscription_defined`. -/
def MasterDefined (db : SubscriptionDb) (subsId : SubscriptionId) : Prop := subsId ∈ db.entries.map Entry.masterSubsId
instance (db : SubscriptionDb) (subsId : SubscriptionId) : Decidable (db.MasterDefined subsId) :=
  inferInstanceAs (Decidable (_ ∈ _))

def entryDefined (db : SubscriptionDb) (varId : VariableId) : Bool := decide (db.Defined varId)

/-- The entry with other virtual subscriptions, if it is the one of the variable. -/
def Entry.change (varId : VariableId) (f : List Subscription → List Subscription) (e : Entry) : Entry :=
  if e.varId = varId then { e with virtualSubs := f e.virtualSubs } else e

theorem Entry.change_varId (varId : VariableId) (f : List Subscription → List Subscription) (e : Entry) :
    (Entry.change varId f e).varId = e.varId := by
  unfold Entry.change
  split <;> rfl

theorem Entry.change_masterSubsId (varId : VariableId) (f : List Subscription → List Subscription) (e : Entry) :
    (Entry.change varId f e).masterSubsId = e.masterSubsId := by
  unfold Entry.change
  split <;> rfl

theorem Entry.change_self (f : List Subscription → List Subscription) (e : Entry) :
    (Entry.change e.varId f e).virtualSubs = f e.virtualSubs := by
  rw [Entry.change, if_pos rfl]

theorem map_change_varId (entries : List Entry) (varId : VariableId) (f : List Subscription → List Subscription) :
    (entries.map (Entry.change varId f)).map Entry.varId = entries.map Entry.varId := by
  rw [List.map_map]
  exact List.map_congr_left fun e _ => Entry.change_varId varId f e

theorem map_change_masterSubsId (entries : List Entry) (varId : VariableId) (f : List Subscription → List Subscription) :
    (entries.map (Entry.change varId f)).map Entry.masterSubsId = entries.map Entry.masterSubsId := by
  rw [List.map_map]
  exact List.map_congr_left fun e _ => Entry.change_masterSubsId varId f e

/-- The DB with a new virtual subscription in an entry. -/
def push (db : SubscriptionDb) (varId : VariableId) (handler : Nat) (defined : db.Defined varId) : SubscriptionDb where
  entries := db.entries.map (Entry.change varId (· ++ [⟨db.nextId, handler⟩]))
  virtualSubsIdMap := Function.update db.virtualSubsIdMap db.nextId (some varId)
  nextId := db.nextId + 1
  distinctVariables := map_change_varId db.entries varId _ ▸ db.distinctVariables
  distinctMasters := map_change_masterSubsId db.entries varId _ ▸ db.distinctMasters
  listed := by
    intro subsId varId' refers
    by_cases new : subsId = db.nextId
    · subst new
      rw [Function.update_self, Option.some.injEq] at refers
      subst refers
      obtain ⟨e, member, rfl⟩ := List.mem_map.mp defined
      refine ⟨_, List.mem_map_of_mem member, Entry.change_varId .., ?_⟩
      rw [Entry.change_self]
      simp
    · rw [Function.update_of_ne new] at refers
      obtain ⟨e, member, rfl, contains⟩ := db.listed refers
      refine ⟨_, List.mem_map_of_mem member, Entry.change_varId .., ?_⟩
      unfold Entry.change
      split
      · rw [List.map_append]
        exact List.mem_append_left _ contains
      · exact contains

def addVirtualSubscription (db : SubscriptionDb) (varId : VariableId) (handler : Nat) :
    Except Exception (SubscriptionId × SubscriptionDb) :=
  if defined : db.Defined varId then .ok (db.nextId, db.push varId handler defined)
  else .error (.dbNoSuchVariable varId)

def initEntry (db : SubscriptionDb) (varId : VariableId) (masterSubsId : SubscriptionId) (newVariable : ¬ db.Defined varId)
    (newMaster : ¬ db.MasterDefined masterSubsId) : SubscriptionDb where
  entries := ⟨varId, masterSubsId, []⟩ :: db.entries
  virtualSubsIdMap := db.virtualSubsIdMap
  nextId := db.nextId
  distinctVariables := List.nodup_cons.mpr ⟨newVariable, db.distinctVariables⟩
  distinctMasters := List.nodup_cons.mpr ⟨newMaster, db.distinctMasters⟩
  listed := by
    intro subsId varId' refers
    obtain ⟨e, member, found⟩ := db.listed refers
    exact ⟨e, List.mem_cons_of_mem _ member, found⟩

def createEntry (db : SubscriptionDb) (varId : VariableId) (masterSubsId : SubscriptionId) (handler : Nat) :
    Except Exception (SubscriptionId × SubscriptionDb) :=
  if usedVariable : db.Defined varId then .error (.dbVariableExists varId)
  else if usedMaster : db.MasterDefined masterSubsId then .error (.dbMasterExists masterSubsId)
  else (db.initEntry varId masterSubsId usedVariable usedMaster).addVirtualSubscription varId handler

/-- `remove_virtual` of a subscription in the entry of a variable. -/
def removeVirtual (db : SubscriptionDb) (varId : VariableId) (subsId : SubscriptionId) : SubscriptionDb where
  entries := db.entries.map (Entry.change varId (·.filter fun s => s.id ≠ subsId))
  virtualSubsIdMap := Function.update db.virtualSubsIdMap subsId none
  nextId := db.nextId
  distinctVariables := map_change_varId db.entries varId _ ▸ db.distinctVariables
  distinctMasters := map_change_masterSubsId db.entries varId _ ▸ db.distinctMasters
  listed := by
    intro subsId' varId' refers
    by_cases removed : subsId' = subsId
    · subst removed
      rw [Function.update_self] at refers
      cases refers
    · rw [Function.update_of_ne removed] at refers
      obtain ⟨e, member, rfl, contains⟩ := db.listed refers
      refine ⟨_, List.mem_map_of_mem member, Entry.change_varId .., ?_⟩
      unfold Entry.change
      split
      · obtain ⟨s, among, rfl⟩ := List.mem_map.mp contains
        exact List.mem_map_of_mem (List.mem_filter.mpr ⟨among, by simpa using removed⟩)
      · exact contains

/-- The virtual subscriptions of a variable. -/
def virtualSubs (db : SubscriptionDb) (varId : VariableId) : List Subscription :=
  match db.entries.find? fun e => e.varId = varId with
  | some e => e.virtualSubs
  | none => []

theorem find_entry (db : SubscriptionDb) {e : Entry} (member : e ∈ db.entries) :
    (db.entries.find? fun f => f.varId = e.varId) = some e := by
  cases found : db.entries.find? fun f => f.varId = e.varId with
  | none =>
    have missing := List.find?_eq_none.mp found e member
    simp at missing
  | some f =>
    have same : f.varId = e.varId := by simpa using List.find?_some found
    rw [List.inj_on_of_nodup_map db.distinctVariables (List.mem_of_find?_eq_some found) member same]

theorem virtualSubs_eq (db : SubscriptionDb) {e : Entry} (member : e ∈ db.entries) :
    db.virtualSubs e.varId = e.virtualSubs := by
  rw [virtualSubs, find_entry db member]

theorem distinctVariables_filter (db : SubscriptionDb) (varId : VariableId) :
    ((db.entries.filter fun e => e.varId ≠ varId).map Entry.varId).Nodup :=
  db.distinctVariables.sublist (List.filter_sublist.map _)

theorem distinctMasters_filter (db : SubscriptionDb) (varId : VariableId) :
    ((db.entries.filter fun e => e.varId ≠ varId).map Entry.masterSubsId).Nodup :=
  db.distinctMasters.sublist (List.filter_sublist.map _)

/-- `remove_entry` of an entry without virtual subscriptions. -/
def removeEntry (db : SubscriptionDb) (varId : VariableId) (unused : db.virtualSubs varId = []) : SubscriptionDb where
  entries := db.entries.filter fun e => e.varId ≠ varId
  virtualSubsIdMap := db.virtualSubsIdMap
  nextId := db.nextId
  distinctVariables := db.distinctVariables_filter varId
  distinctMasters := db.distinctMasters_filter varId
  listed := by
    intro subsId varId' refers
    obtain ⟨e, member, rfl, contains⟩ := db.listed refers
    refine ⟨e, List.mem_filter.mpr ⟨member, ?_⟩, rfl, contains⟩
    rw [decide_eq_true_iff]
    intro same
    rw [← virtualSubs_eq db member, same, unused] at contains
    exact absurd contains List.not_mem_nil

/-- `remove_virtual_subscription`, which tells whether the entry was removed, too. -/
def removeVirtualSubscription (db : SubscriptionDb) (subsId : SubscriptionId) : Except Exception (Bool × SubscriptionDb) :=
  match db.virtualSubsIdMap subsId with
  | some varId =>
    if unused : (db.removeVirtual varId subsId).virtualSubs varId = [] then
      .ok (true, (db.removeVirtual varId subsId).removeEntry varId unused)
    else .ok (false, db.removeVirtual varId subsId)
  | none => .error (.dbNoSuchVirtual subsId)

/-- `get_master_subscription_id` of a virtual subscription. -/
def getMasterSubscriptionId (db : SubscriptionDb) (subsId : SubscriptionId) : Except Exception SubscriptionId :=
  match db.virtualSubsIdMap subsId with
  | some varId =>
    match db.entries.find? fun e => e.varId = varId with
    | some e => .ok e.masterSubsId
    | none => .error (.dbNoSuchVariable varId)
  | none => .error (.dbNoSuchVirtual subsId)

/-- The calls of `invoke_handlers`. -/
def invokeHandlers (db : SubscriptionDb) (masterSubsId : SubscriptionId) (varValue : VariableValue) :
    Except Exception (List (Nat × VariableId × VariableValue)) :=
  match db.entries.find? fun e => e.masterSubsId = masterSubsId with
  | some e => .ok (e.virtualSubs.map fun s => (s.handler, e.varId, varValue))
  | none => .error (.dbNoSuchMaster masterSubsId)

/-! ## Variables and master subscriptions -/

/-- The variables with their master subscriptions. -/
def pairs (db : SubscriptionDb) : List (VariableId × SubscriptionId) := db.entries.map fun e => (e.varId, e.masterSubsId)

/-- The variable has the master subscription. -/
def Maps (db : SubscriptionDb) (varId : VariableId) (masterSubsId : SubscriptionId) : Prop :=
  (varId, masterSubsId) ∈ db.pairs

variable {db db' : SubscriptionDb} {v w : VariableId} {i j : SubscriptionId}

theorem pairs_variables (db : SubscriptionDb) : db.pairs.map Prod.fst = db.entries.map Entry.varId := by
  rw [pairs, List.map_map]
  rfl

theorem pairs_masters (db : SubscriptionDb) : db.pairs.map Prod.snd = db.entries.map Entry.masterSubsId := by
  rw [pairs, List.map_map]
  rfl

theorem defined_iff : db.Defined v ↔ ∃ i, db.Maps v i := by
  rw [Defined, ← pairs_variables]
  simp [Maps]

theorem masterDefined_iff : db.MasterDefined i ↔ ∃ v, db.Maps v i := by
  rw [MasterDefined, ← pairs_masters]
  simp [Maps]

theorem Maps.unique_master (first : db.Maps v i) (second : db.Maps v j) : i = j :=
  congrArg Prod.snd (List.inj_on_of_nodup_map (pairs_variables db ▸ db.distinctVariables) first second rfl)

theorem Maps.unique_variable (first : db.Maps v i) (second : db.Maps w i) : v = w :=
  congrArg Prod.fst (List.inj_on_of_nodup_map (pairs_masters db ▸ db.distinctMasters) first second rfl)

theorem map_change_pairs (entries : List Entry) (varId : VariableId) (f : List Subscription → List Subscription) :
    (entries.map (Entry.change varId f)).map (fun e => (e.varId, e.masterSubsId)) =
      entries.map fun e => (e.varId, e.masterSubsId) := by
  rw [List.map_map]
  exact List.map_congr_left fun e _ => Prod.ext (Entry.change_varId varId f e) (Entry.change_masterSubsId varId f e)

theorem createEntry_clash (handler : Nat) (newVariable : ¬ db.Defined v) (usedMaster : db.MasterDefined i) :
    db.createEntry v i handler = .error (.dbMasterExists i) := by
  rw [createEntry, dif_neg newVariable, dif_pos usedMaster]

/-- A virtual subscription that is known belongs to an entry. -/
theorem getMasterSubscriptionId_maps (refers : db.virtualSubsIdMap j = some v) :
    ∃ i, db.getMasterSubscriptionId j = .ok i ∧ db.Maps v i := by
  obtain ⟨e, member, rfl, -⟩ := db.listed refers
  refine ⟨e.masterSubsId, ?_, List.mem_map_of_mem member⟩
  simp only [getMasterSubscriptionId, refers, find_entry db member]

theorem getMasterSubscriptionId_missing (missing : db.virtualSubsIdMap j = none) :
    db.getMasterSubscriptionId j = .error (.dbNoSuchVirtual j) := by
  simp only [getMasterSubscriptionId, missing]

/-- The entry goes with its last virtual subscription. -/
theorem removeVirtualSubscription_pairs (refers : db.virtualSubsIdMap j = some v) :
    ∃ last db', db.removeVirtualSubscription j = .ok (last, db') ∧
      db'.pairs = if last then db.pairs.filter (fun pair => pair.1 ≠ v) else db.pairs := by
  have same : (db.removeVirtual v j).pairs = db.pairs := map_change_pairs ..
  by_cases unused : (db.removeVirtual v j).virtualSubs v = []
  · refine ⟨true, (db.removeVirtual v j).removeEntry v unused, ?_, ?_⟩
    · simp only [removeVirtualSubscription, refers, unused, ↓reduceDIte]
    · rw [if_pos rfl, ← same]
      show ((db.removeVirtual v j).entries.filter _).map _ = _
      rw [pairs, List.filter_map]
      rfl
  · refine ⟨false, db.removeVirtual v j, ?_, ?_⟩
    · simp only [removeVirtualSubscription, refers, unused, ↓reduceDIte]
    · rw [if_neg Bool.false_ne_true]
      exact same

/-- What is removed with its entry was the only virtual subscription of its variable. -/
theorem removeVirtualSubscription_last (removed : db.removeVirtualSubscription j = .ok (true, db')) :
    ∃ v, db.virtualSubsIdMap j = some v ∧ ∀ s ∈ db.virtualSubs v, s.id = j := by
  unfold removeVirtualSubscription at removed
  split at removed
  · rename_i v refers
    split at removed
    · rename_i unused
      obtain ⟨e, member, rfl, -⟩ := db.listed refers
      refine ⟨e.varId, refers, fun s among => ?_⟩
      rw [virtualSubs_eq db member] at among
      have changed : Entry.change e.varId (·.filter fun s => s.id ≠ j) e ∈ (db.removeVirtual e.varId j).entries :=
        List.mem_map_of_mem member
      have found := virtualSubs_eq _ changed
      rw [Entry.change_varId, unused, Entry.change_self] at found
      by_contra other
      exact List.not_mem_nil (found ▸ List.mem_filter.mpr ⟨among, by simpa using other⟩)
    · cases removed
  · cases removed

/-! ## Virtual subscriptions -/

/-- The virtual subscription is in the entry of the variable. -/
def Holds (db : SubscriptionDb) (varId : VariableId) (s : Subscription) : Prop :=
  ∃ e ∈ db.entries, e.varId = varId ∧ s ∈ e.virtualSubs

/-- The map leads to the entry of each virtual subscription. -/
def Indexed (db : SubscriptionDb) : Prop := ∀ varId s, db.Holds varId s → db.virtualSubsIdMap s.id = some varId

variable {s : Subscription} {handler : Nat}

/-- Only the entry of one variable changes. -/
theorem change_holds {entries : List Entry} {f : List Subscription → List Subscription} :
    (∃ e ∈ entries.map (Entry.change v f), e.varId = w ∧ s ∈ e.virtualSubs) ↔
      ∃ e ∈ entries, e.varId = w ∧ s ∈ if w = v then f e.virtualSubs else e.virtualSubs := by
  have changed : ∀ e : Entry, (Entry.change v f e).virtualSubs = if e.varId = v then f e.virtualSubs else e.virtualSubs := by
    intro e
    unfold Entry.change
    split <;> rfl
  constructor
  · rintro ⟨_, changed', rfl, contains⟩
    obtain ⟨e, member, rfl⟩ := List.mem_map.mp changed'
    rw [changed] at contains
    exact ⟨e, member, (Entry.change_varId v f e).symm, by rwa [Entry.change_varId]⟩
  · rintro ⟨e, member, rfl, contains⟩
    exact ⟨_, List.mem_map_of_mem member, Entry.change_varId v f e, by rwa [changed]⟩

theorem push_holds (defined : db.Defined v) :
    (db.push v handler defined).Holds w s ↔ db.Holds w s ∨ (w = v ∧ s = ⟨db.nextId, handler⟩) := by
  refine change_holds.trans ?_
  by_cases same : w = v
  · subst same
    simp only [↓reduceIte, List.mem_append, List.mem_singleton, true_and]
    constructor
    · rintro ⟨e, member, rfl, contains | new⟩
      · exact .inl ⟨e, member, rfl, contains⟩
      · exact .inr new
    · rintro (⟨e, member, equal, contains⟩ | new)
      · exact ⟨e, member, equal, .inl contains⟩
      · obtain ⟨e, member, equal⟩ := List.mem_map.mp defined
        exact ⟨e, member, equal, .inr new⟩
  · simp only [same, ↓reduceIte, false_and, or_false]
    rfl

theorem removeVirtual_holds : (db.removeVirtual v j).Holds w s ↔ db.Holds w s ∧ (w = v → s.id ≠ j) := by
  refine change_holds.trans ?_
  by_cases same : w = v
  · subst same
    simp only [↓reduceIte, List.mem_filter, decide_eq_true_eq, forall_const]
    constructor
    · rintro ⟨e, member, equal, contains, other⟩
      exact ⟨⟨e, member, equal, contains⟩, other⟩
    · rintro ⟨⟨e, member, equal, contains⟩, other⟩
      exact ⟨e, member, equal, contains, other⟩
  · simp only [same, ↓reduceIte, false_implies, and_true]
    rfl

/-- What is removed holds nothing. -/
theorem removeEntry_holds (unused : db.virtualSubs v = []) : (db.removeEntry v unused).Holds w s ↔ db.Holds w s := by
  constructor
  · rintro ⟨e, member, equal, contains⟩
    exact ⟨e, (List.mem_filter.mp member).1, equal, contains⟩
  · rintro ⟨e, member, rfl, contains⟩
    refine ⟨e, List.mem_filter.mpr ⟨member, ?_⟩, rfl, contains⟩
    rw [decide_eq_true_iff]
    intro same
    rw [← virtualSubs_eq db member, same, unused] at contains
    exact absurd contains List.not_mem_nil

theorem initEntry_holds (newVariable : ¬ db.Defined v) (newMaster : ¬ db.MasterDefined i) :
    (db.initEntry v i newVariable newMaster).Holds w s ↔ db.Holds w s := by
  constructor
  · rintro ⟨e, member, equal, contains⟩
    rcases List.mem_cons.mp member with rfl | member
    · exact absurd contains List.not_mem_nil
    · exact ⟨e, member, equal, contains⟩
  · rintro ⟨e, member, equal, contains⟩
    exact ⟨e, List.mem_cons_of_mem _ member, equal, contains⟩

/-- The DB with a virtual subscription more. -/
structure Added (db : SubscriptionDb) (varId : VariableId) (handler : Nat) (db' : SubscriptionDb) : Prop where
  holds : ∀ {w s}, db'.Holds w s ↔ db.Holds w s ∨ (w = varId ∧ s = ⟨db.nextId, handler⟩)
  map : db'.virtualSubsIdMap = Function.update db.virtualSubsIdMap db.nextId (some varId)
  nextId : db'.nextId = db.nextId + 1
  defined : db'.Defined varId

/-- A new virtual subscription leaves the variables and their masters alone. -/
theorem addVirtualSubscription_added (handler : Nat) (defined : db.Defined v) :
    ∃ db', db.addVirtualSubscription v handler = .ok (db.nextId, db') ∧ db.Added v handler db' ∧ db'.pairs = db.pairs := by
  refine ⟨db.push v handler defined, dif_pos defined, ⟨push_holds defined, rfl, rfl, ?_⟩, map_change_pairs ..⟩
  show v ∈ (db.entries.map (Entry.change v _)).map Entry.varId
  rw [map_change_varId]
  exact defined

theorem createEntry_added (handler : Nat) (newVariable : ¬ db.Defined v) (newMaster : ¬ db.MasterDefined i) :
    ∃ db', db.createEntry v i handler = .ok (db.nextId, db') ∧ db.Added v handler db' ∧ db'.pairs = (v, i) :: db.pairs := by
  have defined : (db.initEntry v i newVariable newMaster).Defined v := List.mem_cons_self
  obtain ⟨db', added, ⟨holds, map, nextId, defined'⟩, pairs⟩ := addVirtualSubscription_added handler defined
  refine ⟨db', ?_, ⟨?_, map, nextId, defined'⟩, pairs⟩
  · rw [createEntry, dif_neg newVariable, dif_neg newMaster]
    exact added
  · intro w s
    rw [holds, initEntry_holds]
    rfl

/-- An unused id keeps the map right. -/
theorem Added.indexed (added : db.Added v handler db') (unused : db.virtualSubsIdMap db.nextId = none)
    (indexed : db.Indexed) : db'.Indexed := by
  intro w s holds
  rw [added.map]
  rcases added.holds.mp holds with old | ⟨rfl, rfl⟩
  · have refers := indexed w s old
    have other : s.id ≠ db.nextId := by
      intro same
      rw [same, unused] at refers
      cases refers
    rw [Function.update_of_ne other]
    exact refers
  · exact Function.update_self ..

/-- The next ids are those of no virtual subscription. -/
def Roomy (db : SubscriptionDb) (count : Nat) : Prop :=
  count ≤ 2 ^ 32 ∧ ∀ k < count, db.virtualSubsIdMap (db.nextId + UInt32.ofNat k) = none

theorem Added.roomy {count : Nat} (added : db.Added v handler db') (roomy : db.Roomy (count + 1)) :
    db.virtualSubsIdMap db.nextId = none ∧ db'.Roomy count := by
  obtain ⟨few, unused⟩ := roomy
  refine ⟨by simpa using unused 0 (by omega), by omega, fun k bound => ?_⟩
  have next : db'.nextId + UInt32.ofNat k = db.nextId + UInt32.ofNat (k + 1) := by
    rw [added.nextId, UInt32.ofNat_add, UInt32.add_assoc, UInt32.add_comm 1]
    rfl
  have other : db.nextId + UInt32.ofNat (k + 1) ≠ db.nextId := by
    intro same
    have zero : (UInt32.ofNat (k + 1)).toNat = 0 := by
      rw [UInt32.add_eq_left.mp same]
      rfl
    rw [UInt32.toNat_ofNat', Nat.mod_eq_of_lt (by omega)] at zero
    omega
  rw [next, added.map, Function.update_of_ne other]
  exact unused (k + 1) (by omega)

/-- What is removed is removed from the entry that the map leads to. -/
theorem removeVirtualSubscription_removed {last : Bool} (removed : db.removeVirtualSubscription j = .ok (last, db')) :
    ∃ v, db.virtualSubsIdMap j = some v ∧ db'.virtualSubsIdMap = Function.update db.virtualSubsIdMap j none ∧
      ∀ {w s}, db'.Holds w s ↔ db.Holds w s ∧ (w = v → s.id ≠ j) := by
  unfold removeVirtualSubscription at removed
  split at removed
  · rename_i v refers
    split at removed
    · rename_i unused
      cases removed
      exact ⟨v, refers, rfl, (removeEntry_holds unused).trans removeVirtual_holds⟩
    · cases removed
      exact ⟨v, refers, rfl, removeVirtual_holds⟩
  · cases removed

theorem removeVirtualSubscription_holds {last : Bool} (removed : db.removeVirtualSubscription j = .ok (last, db'))
    (indexed : db.Indexed) : (∀ {w s}, db'.Holds w s ↔ db.Holds w s ∧ s.id ≠ j) ∧ db'.Indexed := by
  obtain ⟨v, refers, map, left⟩ := removeVirtualSubscription_removed removed
  have holds : ∀ {w s}, db'.Holds w s ↔ db.Holds w s ∧ s.id ≠ j := by
    intro w s
    rw [left, and_congr_right_iff]
    intro held
    constructor
    · intro other same
      have found := indexed w s held
      rw [same, refers, Option.some.injEq] at found
      exact other found.symm same
    · intro other _
      exact other
  refine ⟨holds, fun w s held => ?_⟩
  obtain ⟨held, other⟩ := holds.mp held
  rw [map, Function.update_of_ne other]
  exact indexed w s held

/-- Handlers are invoked for their virtual subscriptions, and told of the variable of the entry. -/
theorem invokeHandlers_holds {varValue : VariableValue} {calls : List (Nat × VariableId × VariableValue)}
    (invoked : db.invokeHandlers i varValue = .ok calls) {call : Nat × VariableId × VariableValue} (made : call ∈ calls) :
    ∃ s, db.Holds call.2.1 s ∧ s.handler = call.1 ∧ db.Maps call.2.1 i ∧ call.2.2 = varValue := by
  unfold invokeHandlers at invoked
  split at invoked
  · rename_i e found
    cases invoked
    obtain ⟨s, contains, rfl⟩ := List.mem_map.mp made
    have member := List.mem_of_find?_eq_some found
    have master : e.masterSubsId = i := by simpa using List.find?_some found
    subst master
    exact ⟨s, ⟨e, member, rfl, contains⟩, rfl, List.mem_map_of_mem member, rfl⟩
  · cases invoked

/-- Each virtual subscription of the entry is invoked. -/
theorem invokeHandlers_maps {s : Subscription} (maps : db.Maps v i) (holds : db.Holds v s) (varValue : VariableValue) :
    ∃ calls, db.invokeHandlers i varValue = .ok calls ∧ (s.handler, v, varValue) ∈ calls := by
  obtain ⟨e, member, rfl, contains⟩ := holds
  unfold invokeHandlers
  cases found : db.entries.find? fun e => e.masterSubsId = i with
  | none =>
    obtain ⟨e', member', equal⟩ := List.mem_map.mp maps
    have missing := List.find?_eq_none.mp found e' member'
    rw [decide_eq_true_iff] at missing
    exact absurd (congrArg Prod.snd equal) missing
  | some e' =>
    have member' := List.mem_of_find?_eq_some found
    have master : e'.masterSubsId = i := by simpa using List.find?_some found
    have maps' : db.Maps e'.varId i := master ▸ List.mem_map_of_mem member'
    have same : e' = e := List.inj_on_of_nodup_map db.distinctVariables member' member (maps'.unique_variable maps)
    subst same
    exact ⟨_, rfl, List.mem_map_of_mem contains⟩

end SubscriptionDb
end Oac.Client
