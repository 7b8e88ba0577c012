import Oac.Client.SubscriptionMaps

/-!
# Entries and maps

The DB of the connection manager is a list of entries (`SubscriptionDb`), and in the code
it is a heap with three maps (`SubscriptionMaps`). The entries show the store as the maps
do, so that both answer alike whatever calls are made (`entries_like_maps`).
-/
namespace Oac.Client
open Base
namespace SubscriptionDb

/-- `remove_entry`, with the virtual subscriptions of the variable. -/
def eraseEntry (db : SubscriptionDb) (varId : VariableId) : SubscriptionDb where
  entries := db.entries.filter fun e => e.varId ≠ varId
  virtualSubsIdMap := fun id => if (db.virtualSubs varId).any fun s => s.id = id then none else db.virtualSubsIdMap id
  nextId := db.nextId
  distinctVariables := db.distinctVariables_filter varId
  distinctMasters := db.distinctMasters_filter varId
  listed := by
    intro subsId varId' refers
    split at refers
    · cases refers
    · rename_i kept
      obtain ⟨e, member, rfl, contains⟩ := db.listed refers
      refine ⟨e, List.mem_filter.mpr ⟨member, ?_⟩, rfl, contains⟩
      rw [decide_eq_true_iff]
      intro same
      obtain ⟨s, among, rfl⟩ := List.mem_map.mp contains
      rw [← same, virtualSubs_eq db member] at kept
      exact kept (List.any_eq_true.mpr ⟨s, among, decide_eq_true rfl⟩)

/-- A function that returns the DB it leaves. One that throws leaves the DB as it is. -/
def onDb {α : Type} (f : SubscriptionDb → Except Exception (α × SubscriptionDb)) : EStateM Exception SubscriptionDb α := fun db =>
  match f db with
  | .ok (a, db') => .ok a db'
  | .error e => .error e db

theorem onDb_ok {α : Type} {f : SubscriptionDb → Except Exception (α × SubscriptionDb)} {db db' : SubscriptionDb} {a : α}
    (called : f db = .ok (a, db')) : onDb f db = .ok a db' := by
  simp only [onDb, called]

theorem onDb_error {α : Type} {f : SubscriptionDb → Except Exception (α × SubscriptionDb)} {db : SubscriptionDb} {e : Exception}
    (refused : f db = .error e) : onDb f db = .error e db := by
  simp only [onDb, refused]

/-- The next id is what `make_subscription_id` gives. -/
def withNext (db : SubscriptionDb) (made : SubscriptionId) : SubscriptionDb := { db with nextId := made }

/-- The calls that the maps know. The id that a call is given is the next one of the DB. -/
def perform : DbCall → EStateM Exception SubscriptionDb DbAnswer
  | .createEntry v i handler made => .subscription <$> onDb fun db => (db.withNext made).createEntry v i handler
  | .removeEntry v => fun db => if db.Defined v then .ok .done (db.eraseEntry v) else .error (.dbNoSuchVariable v) db
  | .addVirtualSubscription v handler made =>
    .subscription <$> onDb fun db => (db.withNext made).addVirtualSubscription v handler
  | .removeVirtualSubscription id => .flag <$> onDb fun db => db.removeVirtualSubscription id
  | .entryDefined v => fun db => .ok (.flag (db.entryDefined v)) db
  | .masterOfVariable v => fun db =>
    match db.entries.find? fun e => e.varId = v with
    | some e => .ok (.subscription e.masterSubsId) db
    | none => .error (.dbNoSuchVariable v) db
  | .masterOfVirtual id => fun db =>
    match db.getMasterSubscriptionId id with
    | .ok i => .ok (.subscription i) db
    | .error e => .error e db
  | .invokeHandlers i value => fun db =>
    match db.invokeHandlers i value with
    | .ok calls => .ok (.invoked calls) db
    | .error e => .error e db

/-! ## The store that the entries show -/

def Entry.slot (e : Entry) : Slot := ⟨e.masterSubsId, e.virtualSubs⟩

/-- The slot of a variable. -/
def slot (db : SubscriptionDb) (v : VariableId) : Option Slot := (db.entries.find? fun e => e.varId = v).map Entry.slot

/-- The entries are found by their virtual subscriptions and show the store. -/
structure Represents (db : SubscriptionDb) (t : Store) : Prop where
  indexed : db.Indexed
  shown : ∀ v, db.slot v = t.slot v

variable {db db' : SubscriptionDb} {t t' : Store} {v : VariableId} {i id : SubscriptionId} {e : Entry}

theorem slot_some (member : e ∈ db.entries) : db.slot e.varId = some (Entry.slot e) := by
  rw [slot, find_entry db member]
  rfl

theorem slot_none (unknown : ¬ db.Defined v) : db.slot v = none := by
  have missing : (db.entries.find? fun e => e.varId = v) = none := by
    refine List.find?_eq_none.mpr fun e member same => unknown ?_
    rw [decide_eq_true_iff] at same
    exact same ▸ List.mem_map_of_mem member
  rw [slot, missing]
  rfl

theorem of_slot {a : Slot} (there : db.slot v = some a) : ∃ e ∈ db.entries, e.varId = v ∧ Entry.slot e = a := by
  obtain ⟨e, found, shown⟩ := Option.map_eq_some_iff.mp there
  exact ⟨e, List.mem_of_find?_eq_some found, by simpa using List.find?_some found, shown⟩

theorem slot_change (f : List Subscription → List Subscription)
    (entries : db'.entries = db.entries.map (Entry.change v f)) (member : e ∈ db.entries) (here : e.varId = v) :
    db'.slot = Function.update db.slot v (some ⟨e.masterSubsId, f e.virtualSubs⟩) := by
  funext w
  have unchanged : ((fun e => decide (e.varId = w)) ∘ Entry.change v f) = fun e => decide (e.varId = w) := by
    funext e
    simp only [Function.comp_apply, Entry.change_varId]
  have found : db'.slot w = (db.entries.find? fun e => e.varId = w).map (Entry.slot ∘ Entry.change v f) := by
    rw [slot, entries, List.find?_map, unchanged, Option.map_map]
  rw [found]
  by_cases same : w = v
  · subst same
    subst here
    rw [Function.update_self, find_entry db member, Option.map_some, Function.comp_apply, Entry.slot, Entry.change_masterSubsId,
      Entry.change_self]
  · rw [Function.update_of_ne same, slot]
    refine Option.map_congr fun e' there => ?_
    have named : e'.varId = w := by simpa using List.find?_some there
    rw [Function.comp_apply, Entry.change, if_neg (named ▸ same)]

theorem slot_filter (entries : db'.entries = db.entries.filter fun e => e.varId ≠ v) :
    db'.slot = Function.update db.slot v none := by
  funext w
  by_cases same : w = v
  · subst same
    rw [Function.update_self]
    refine slot_none fun defined => ?_
    obtain ⟨e, member, equal⟩ := List.mem_map.mp defined
    rw [entries] at member
    exact absurd equal (by simpa using (List.mem_filter.mp member).2)
  · rw [Function.update_of_ne same, slot, slot, entries, List.find?_filter]
    congr 2
    funext e
    by_cases here : e.varId = w
    · simp [here, same]
    · simp [here]

theorem slot_init (newVariable : ¬ db.Defined v) (newMaster : ¬ db.MasterDefined i) :
    (db.initEntry v i newVariable newMaster).slot = Function.update db.slot v (some ⟨i, []⟩) := by
  funext w
  by_cases same : w = v
  · subst same
    simp [slot, initEntry, Entry.slot]
  · rw [Function.update_of_ne same, slot, initEntry, List.find?_cons_of_neg (by simpa using Ne.symm same)]
    rfl

theorem addVirtualSubscription_slot {handler : Nat} (member : e ∈ db.entries)
    (added : db.addVirtualSubscription e.varId handler = .ok (id, db')) :
    db'.slot = Function.update db.slot e.varId (some ⟨e.masterSubsId, e.virtualSubs ++ [⟨db.nextId, handler⟩]⟩) := by
  have defined : db.Defined e.varId := List.mem_map_of_mem member
  rw [addVirtualSubscription, dif_pos defined] at added
  cases added
  refine slot_change (· ++ [⟨db.nextId, handler⟩]) ?_ member rfl
  rfl

theorem createEntry_slot {handler : Nat} (newVariable : ¬ db.Defined v) (newMaster : ¬ db.MasterDefined i)
    (created : db.createEntry v i handler = .ok (id, db')) :
    db'.slot = Function.update db.slot v (some ⟨i, [⟨db.nextId, handler⟩]⟩) := by
  rw [createEntry, dif_neg newVariable, dif_neg newMaster] at created
  have first : ⟨v, i, []⟩ ∈ (db.initEntry v i newVariable newMaster).entries := List.mem_cons_self
  rw [addVirtualSubscription_slot first created, slot_init, Function.update_idem]
  rfl

theorem removeVirtualSubscription_slot {last : Bool} (member : e ∈ db.entries) (refers : db.virtualSubsIdMap id = some e.varId)
    (removed : db.removeVirtualSubscription id = .ok (last, db')) :
    last = decide (((Entry.slot e).without id).virtualSubs = []) ∧ db'.slot = Function.update db.slot e.varId
      (if ((Entry.slot e).without id).virtualSubs = [] then none else some ((Entry.slot e).without id)) := by
  have thinned : (db.removeVirtual e.varId id).slot = Function.update db.slot e.varId (some ((Entry.slot e).without id)) :=
    slot_change (·.filter fun s => s.id ≠ id) rfl member rfl
  have changed : Entry.change e.varId (·.filter fun s => s.id ≠ id) e ∈ (db.removeVirtual e.varId id).entries :=
    List.mem_map_of_mem member
  have left := virtualSubs_eq _ changed
  rw [Entry.change_varId, Entry.change_self] at left
  simp only [removeVirtualSubscription, refers] at removed
  split at removed
  · rename_i unused
    have none_left : ((Entry.slot e).without id).virtualSubs = [] := left.symm.trans unused
    cases removed
    rw [if_pos none_left, slot_filter rfl, thinned, Function.update_idem]
    exact ⟨(decide_eq_true none_left).symm, rfl⟩
  · rename_i used
    have some_left : ((Entry.slot e).without id).virtualSubs ≠ [] := fun none => used (left.trans none)
    cases removed
    rw [if_neg some_left, thinned]
    exact ⟨(decide_eq_false some_left).symm, rfl⟩

theorem eraseEntry_indexed (indexed : db.Indexed) (member : e ∈ db.entries) : (db.eraseEntry e.varId).Indexed := by
  rintro w s ⟨f, kept, rfl, among⟩
  obtain ⟨member', other⟩ := List.mem_filter.mp kept
  have refers := indexed f.varId s ⟨f, member', rfl, among⟩
  show (if _ then none else db.virtualSubsIdMap s.id) = _
  rw [if_neg, refers]
  intro erased
  rw [virtualSubs_eq db member] at erased
  obtain ⟨s', among', named⟩ := List.any_eq_true.mp erased
  have same : s'.id = s.id := of_decide_eq_true named
  have refers' := indexed e.varId s' ⟨e, member, rfl, among'⟩
  rw [same, refers, Option.some.injEq] at refers'
  exact absurd refers' (by simpa using other)

namespace Represents

theorem at_entry (shows : Represents db t) (member : e ∈ db.entries) : t.slot e.varId = some (Entry.slot e) := by
  rw [← shows.shown, slot_some member]

theorem at_none (shows : Represents db t) (unknown : ¬ db.Defined v) : t.slot v = none := by
  rw [← shows.shown, slot_none unknown]

theorem withNext (shows : Represents db t) (made : SubscriptionId) : Represents (db.withNext made) t := ⟨shows.indexed, shows.shown⟩

/-- A key that leads to one entry is found in the store at that entry alone. -/
theorem find_some {p : Slot → Prop} (shows : Represents db t) (member : e ∈ db.entries) (holds : p (Entry.slot e))
    (only : ∀ f ∈ db.entries, p (Entry.slot f) → f.varId = e.varId) : t.find p = some (e.varId, Entry.slot e) := by
  refine Store.find_only (shows.at_entry member) holds ?_
  intro w b there holds'
  obtain ⟨f, member', rfl, rfl⟩ := of_slot ((shows.shown w).trans there)
  exact only f member' holds'

theorem find_none {p : Slot → Prop} (shows : Represents db t) (unknown : ∀ e ∈ db.entries, ¬ p (Entry.slot e)) : t.find p = none := by
  refine Store.find_nothing ?_
  intro w b there
  obtain ⟨e, member, rfl, rfl⟩ := of_slot ((shows.shown w).trans there)
  exact unknown e member

theorem master (shows : Represents db t) (member : e ∈ db.entries) :
    t.find (fun a => a.masterSubsId = e.masterSubsId) = some (e.varId, Entry.slot e) := by
  refine shows.find_some (p := fun a => a.masterSubsId = e.masterSubsId) member rfl ?_
  intro f member' same
  rw [List.inj_on_of_nodup_map db.distinctMasters member' member same]

theorem no_master (shows : Represents db t) (unknown : ¬ db.MasterDefined i) : t.find (fun a => a.masterSubsId = i) = none := by
  refine shows.find_none fun e member same => unknown ?_
  exact same ▸ List.mem_map_of_mem member

theorem virtual (shows : Represents db t) (refers : db.virtualSubsIdMap id = some v) :
    ∃ e ∈ db.entries, e.varId = v ∧ t.find (Slot.Holds id) = some (e.varId, Entry.slot e) := by
  obtain ⟨e, member, rfl, contains⟩ := db.listed refers
  refine ⟨e, member, rfl, shows.find_some member contains ?_⟩
  intro f member' contains'
  obtain ⟨s, among, rfl⟩ := List.mem_map.mp contains'
  have refers' := shows.indexed f.varId s ⟨f, member', rfl, among⟩
  exact Option.some.inj (refers'.symm.trans refers)

theorem no_virtual (shows : Represents db t) (missing : db.virtualSubsIdMap id = none) : t.find (Slot.Holds id) = none := by
  refine shows.find_none fun e member contains => ?_
  obtain ⟨s, among, rfl⟩ := List.mem_map.mp contains
  have refers := shows.indexed e.varId s ⟨e, member, rfl, among⟩
  exact absurd (missing.symm.trans refers) nofun

/-- A fresh id is that of no virtual subscription. -/
theorem unused (shows : Represents db t) (fresh : ∀ v a, t.slot v = some a → ¬ a.Holds id) : db.virtualSubsIdMap id = none := by
  cases refers : db.virtualSubsIdMap id with
  | none => rfl
  | some v =>
    obtain ⟨e, member, rfl, contains⟩ := db.listed refers
    exact absurd contains (fresh _ _ (shows.at_entry member))

/-- The same change on both sides. -/
theorem change {slot : Option Slot} (shows : Represents db t) (indexed : db'.Indexed)
    (entries : db'.slot = Function.update db.slot v slot) (store : t'.slot = Function.update t.slot v slot) :
    Represents db' t' := by
  refine ⟨indexed, ?_⟩
  intro w
  rw [entries, store, funext shows.shown]

/-! ## Calls -/

theorem createEntry (shows : Represents db t) (handler : Nat) {made : SubscriptionId}
    (fresh : t.Fresh (.createEntry v i handler made)) :
    Lockstep Represents (perform (.createEntry v i handler made) db) (Store.perform (.createEntry v i handler made) t) := by
  by_cases usedVariable : db.Defined v
  · obtain ⟨e, member, rfl⟩ := List.mem_map.mp usedVariable
    have refused : (db.withNext made).createEntry e.varId i handler = .error (.dbVariableExists e.varId) := dif_pos usedVariable
    have failed : perform (.createEntry e.varId i handler made) db = .error (.dbVariableExists e.varId) db := error_bind (onDb_error refused)
    rw [failed]
    simp [Store.perform, shows.at_entry member, Lockstep, shows]
  · by_cases usedMaster : db.MasterDefined i
    · obtain ⟨e, member, rfl⟩ := List.mem_map.mp usedMaster
      have refused : (db.withNext made).createEntry v e.masterSubsId handler = .error (.dbMasterExists e.masterSubsId) :=
        createEntry_clash handler usedVariable usedMaster
      have failed : perform (.createEntry v e.masterSubsId handler made) db = .error (.dbMasterExists e.masterSubsId) db :=
        error_bind (onDb_error refused)
      rw [failed]
      simp only [Store.perform, shows.at_none usedVariable, ne_eq, not_true_eq_false, ↓reduceIte]
      split
      · exact ⟨rfl, shows⟩
      · rename_i missing
        cases missing.symm.trans (shows.master member)
    · have newVariable : ¬ (db.withNext made).Defined v := usedVariable
      have newMaster : ¬ (db.withNext made).MasterDefined i := usedMaster
      obtain ⟨db', created, added, -⟩ := createEntry_added handler newVariable newMaster
      have performed : perform (.createEntry v i handler made) db = .ok (.subscription made) db' :=
        ok_bind (onDb_ok created)
      obtain ⟨t', performed', store⟩ := Store.perform_createEntry handler made (shows.at_none usedVariable) (shows.no_master usedMaster)
      rw [performed, performed']
      refine ⟨rfl, shows.change (added.indexed (shows.unused fresh) shows.indexed) ?_ store⟩
      exact createEntry_slot newVariable newMaster created

theorem addVirtualSubscription (shows : Represents db t) (handler : Nat) {made : SubscriptionId}
    (fresh : t.Fresh (.addVirtualSubscription v handler made)) : Lockstep Represents
      (perform (.addVirtualSubscription v handler made) db) (Store.perform (.addVirtualSubscription v handler made) t) := by
  by_cases defined : db.Defined v
  · obtain ⟨e, member, rfl⟩ := List.mem_map.mp defined
    have known : (db.withNext made).Defined e.varId := defined
    obtain ⟨db', called, added, -⟩ := addVirtualSubscription_added handler known
    have performed : perform (.addVirtualSubscription e.varId handler made) db = .ok (.subscription made) db' :=
      ok_bind (onDb_ok called)
    obtain ⟨t', performed', store⟩ := Store.perform_addVirtualSubscription handler made (shows.at_entry member)
    rw [performed, performed']
    refine ⟨rfl, shows.change (added.indexed (shows.unused fresh) shows.indexed) ?_ store⟩
    have among : e ∈ (db.withNext made).entries := member
    exact addVirtualSubscription_slot among called
  · have refused : (db.withNext made).addVirtualSubscription v handler = .error (.dbNoSuchVariable v) := dif_neg defined
    have failed : perform (.addVirtualSubscription v handler made) db = .error (.dbNoSuchVariable v) db := error_bind (onDb_error refused)
    rw [failed]
    simp only [Store.perform]
    split
    · rename_i there
      cases (shows.at_none defined).symm.trans there
    · exact ⟨rfl, shows⟩

theorem removeEntry (shows : Represents db t) : Lockstep Represents (perform (.removeEntry v) db) (Store.perform (.removeEntry v) t) := by
  by_cases defined : db.Defined v
  · obtain ⟨e, member, rfl⟩ := List.mem_map.mp defined
    simp only [perform, Store.perform, defined, ↓reduceIte, shows.at_entry member]
    exact ⟨rfl, shows.change (eraseEntry_indexed shows.indexed member) (slot_filter rfl) (Store.drop_slot ..)⟩
  · simp only [perform, Store.perform, defined, ↓reduceIte, shows.at_none defined]
    exact ⟨rfl, shows⟩

theorem removeVirtualSubscription (shows : Represents db t) :
    Lockstep Represents (perform (.removeVirtualSubscription id) db) (Store.perform (.removeVirtualSubscription id) t) := by
  cases refers : db.virtualSubsIdMap id with
  | some v =>
    obtain ⟨e, member, rfl, found⟩ := shows.virtual refers
    obtain ⟨last, db', removed, -⟩ := removeVirtualSubscription_pairs refers
    obtain ⟨rfl, entries⟩ := removeVirtualSubscription_slot member refers removed
    obtain ⟨t', performed', store⟩ := Store.perform_removeVirtualSubscription found
    have performed : perform (.removeVirtualSubscription id) db = .ok (.flag _) db' := ok_bind (onDb_ok removed)
    rw [performed, performed']
    exact ⟨rfl, shows.change (removeVirtualSubscription_holds removed shows.indexed).2 entries store⟩
  | none =>
    have refused : db.removeVirtualSubscription id = .error (.dbNoSuchVirtual id) := by
      simp only [SubscriptionDb.removeVirtualSubscription, refers]
    have failed : perform (.removeVirtualSubscription id) db = .error (.dbNoSuchVirtual id) db := error_bind (onDb_error refused)
    rw [failed]
    simp only [Store.perform]
    split
    · rename_i found
      cases (shows.no_virtual refers).symm.trans found
    · exact ⟨rfl, shows⟩

/-- What a call does on both sides. -/
theorem perform (shows : Represents db t) (call : DbCall) (fresh : t.Fresh call) :
    Lockstep Represents (SubscriptionDb.perform call db) (Store.perform call t) := by
  cases call with
  | createEntry v i handler made => exact shows.createEntry handler fresh
  | removeEntry v => exact shows.removeEntry
  | addVirtualSubscription v handler made => exact shows.addVirtualSubscription handler fresh
  | removeVirtualSubscription id => exact shows.removeVirtualSubscription
  | entryDefined v =>
    refine ⟨congrArg DbAnswer.flag ?_, shows⟩
    by_cases defined : db.Defined v
    · obtain ⟨e, member, rfl⟩ := List.mem_map.mp defined
      rw [entryDefined, decide_eq_true defined, shows.at_entry member]
      rfl
    · rw [entryDefined, decide_eq_false defined, shows.at_none defined]
      rfl
  | masterOfVariable v =>
    have shown := shows.shown v
    simp only [SubscriptionDb.perform, Store.perform, ← shown, slot]
    cases db.entries.find? fun e => e.varId = v with
    | some e => exact ⟨rfl, shows⟩
    | none => exact ⟨rfl, shows⟩
  | masterOfVirtual id =>
    cases refers : db.virtualSubsIdMap id with
    | some v =>
      obtain ⟨e, member, rfl, found⟩ := shows.virtual refers
      simp only [SubscriptionDb.perform, getMasterSubscriptionId, refers, find_entry db member, Store.perform, found]
      exact ⟨rfl, shows⟩
    | none =>
      simp only [SubscriptionDb.perform, getMasterSubscriptionId, refers, Store.perform, shows.no_virtual refers]
      exact ⟨rfl, shows⟩
  | invokeHandlers i value =>
    cases found : db.entries.find? fun e => e.masterSubsId = i with
    | some e =>
      have same : e.masterSubsId = i := by simpa using List.find?_some found
      subst same
      have stored := shows.master (List.mem_of_find?_eq_some found)
      simp only [SubscriptionDb.perform, SubscriptionDb.invokeHandlers, found, Store.perform, stored]
      exact ⟨rfl, shows⟩
    | none =>
      have unknown : ¬ db.MasterDefined i := by
        intro used
        obtain ⟨e, member, same⟩ := List.mem_map.mp used
        exact List.find?_eq_none.mp found e member (decide_eq_true same)
      simp only [SubscriptionDb.perform, SubscriptionDb.invokeHandlers, found, Store.perform, shows.no_master unknown]
      exact ⟨rfl, shows⟩

end Represents

theorem empty_represents : Represents empty Store.empty where
  indexed := by
    rintro v s ⟨e, member, -⟩
    exact absurd member List.not_mem_nil
  shown := fun _ => rfl

/-- Whatever calls are made, the entries and the maps answer alike, and show one store
    afterwards. -/
theorem entries_like_maps (calls : List DbCall) (fresh : Along Store.perform Store.Fresh calls Store.empty) :
    Alike (fun db s => ∃ t, Represents db t ∧ s.Represents t) perform SubscriptionMaps.perform calls empty SubscriptionMaps.empty := by
  have entries : Alike Represents perform Store.perform calls empty Store.empty ∧ Along perform (fun _ _ => True) calls empty := by
    refine alike_of_lockstep ?_ calls empty_represents fresh
    intro db t call shows fresh
    exact ⟨shows.perform call fresh, trivial⟩
  have maps : Alike SubscriptionMaps.Represents SubscriptionMaps.perform Store.perform calls SubscriptionMaps.empty Store.empty ∧
      Along SubscriptionMaps.perform SubscriptionMaps.Untouched calls SubscriptionMaps.empty := by
    refine alike_of_lockstep ?_ calls SubscriptionMaps.empty_represents fresh
    intro s t call shows fresh
    exact (shows.perform call fresh).lockstep shows
  exact entries.1.join maps.1

end SubscriptionDb
end Oac.Client
