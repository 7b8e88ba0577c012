import Mathlib.Data.List.AList
import Oac.Fsuipc.Offset

/-!
# The offset DB

The subscriptions of FSUIPC variables, by their offsets. The known offsets are kept in a
list of their own beside the map. Removal of a subscription goes through the whole map and
erases the offsets that are left without subscriptions.
-/
namespace Oac.Fsuipc

/-- `subscription_meta`. Handlers are told apart by numbers. -/
structure SubscriptionMeta where
  varId : VariableId
  handler : Nat
  subsId : SubscriptionId
  deriving DecidableEq

/-- `fsuipc_offset_db`. `nextId` is that of `make_subscription_id`. -/
structure FsuipcOffsetDb where
  knownOffsets : List Offset
  offsetHandlers : AList fun _ : Offset => List SubscriptionMeta
  nextId : SubscriptionId

namespace FsuipcOffsetDb

def empty : FsuipcOffsetDb := ⟨[], ∅, 1⟩

/-- `_offset_handlers[offset]`. -/
def handlers (db : FsuipcOffsetDb) (offset : Offset) : List SubscriptionMeta :=
  (db.offsetHandlers.lookup offset).getD []

def insertKnownOffset (offset : Offset) (db : FsuipcOffsetDb) : FsuipcOffsetDb :=
  if offset ∈ db.knownOffsets then db else { db with knownOffsets := db.knownOffsets ++ [offset] }

def removeKnownOffset (offset : Offset) (db : FsuipcOffsetDb) : FsuipcOffsetDb :=
  { db with knownOffsets := db.knownOffsets.filter (· ≠ offset) }

def insertSubscription (offset : Offset) (varId : VariableId) (callback : Nat) (db : FsuipcOffsetDb) :
    SubscriptionMeta × FsuipcOffsetDb :=
  let subs : SubscriptionMeta := ⟨varId, callback, db.nextId⟩
  (subs, { db with
    offsetHandlers := db.offsetHandlers.insert offset (db.handlers offset ++ [subs])
    nextId := db.nextId + 1 })

def createSubscription (varId : VariableId) (callback : Nat) (db : FsuipcOffsetDb) :
    Except Exception (SubscriptionMeta × FsuipcOffsetDb) :=
  match toFsuipcOffset varId with
  | .error e => .error e
  | .ok offset => .ok ((db.insertKnownOffset offset).insertSubscription offset varId callback)

/-- The private `remove_subscription`, with the erasure that depends on its result. -/
def removeFrom (subs : SubscriptionId) (db : FsuipcOffsetDb) (offset : Offset) : FsuipcOffsetDb :=
  let list := (db.handlers offset).filter fun subscription => subscription.subsId ≠ subs
  if list.length = 0 then
    { db.removeKnownOffset offset with offsetHandlers := db.offsetHandlers.erase offset }
  else { db with offsetHandlers := db.offsetHandlers.insert offset list }

def removeSubscription (subs : SubscriptionId) (db : FsuipcOffsetDb) : FsuipcOffsetDb :=
  db.offsetHandlers.keys.foldl (removeFrom subs) db

def getAllOffsets (db : FsuipcOffsetDb) : List Offset := db.knownOffsets

def getSubscriptionsForOffset (db : FsuipcOffsetDb) (offset : Offset) : Except Exception (List SubscriptionMeta) :=
  match db.offsetHandlers.lookup offset with
  | some subscriptions => .ok subscriptions
  | none => .error (.offsetDbNoSuchOffset offset.address.toNat offset.length.toNat)

def getOffsetForSubscription (db : FsuipcOffsetDb) (subsId : SubscriptionId) : Except Exception Offset :=
  match db.offsetHandlers.entries.find? fun elem => elem.2.any fun subs => subs.subsId = subsId with
  | some elem => .ok elem.1
  | none => .error (.offsetDbNoSuchSubscription subsId)

/-! ## What the operations do -/

variable {db : FsuipcOffsetDb} {offset o : Offset} {subs : SubscriptionId}

@[simp] theorem insertKnownOffset_handlers : (db.insertKnownOffset offset).offsetHandlers = db.offsetHandlers := by
  unfold insertKnownOffset
  split <;> rfl
@[simp] theorem insertKnownOffset_nextId : (db.insertKnownOffset offset).nextId = db.nextId := by
  unfold insertKnownOffset
  split <;> rfl

theorem insertSubscription_handlers {varId : VariableId} {callback : Nat} :
    ((db.insertKnownOffset offset).insertSubscription offset varId callback).2.handlers o =
      if o = offset then db.handlers o ++ [⟨varId, callback, db.nextId⟩] else db.handlers o := by
  by_cases here : o = offset
  · subst here
    simp [insertSubscription, handlers]
  · simp [insertSubscription, handlers, here]

theorem mem_insertKnownOffset : o ∈ (db.insertKnownOffset offset).knownOffsets ↔ o = offset ∨ o ∈ db.knownOffsets := by
  unfold insertKnownOffset
  split
  · rename_i known
    constructor
    · exact Or.inr
    · rintro (rfl | member)
      · exact known
      · exact member
  · simp [or_comm]

theorem insertKnownOffset_nodup (nodup : db.knownOffsets.Nodup) : (db.insertKnownOffset offset).knownOffsets.Nodup := by
  unfold insertKnownOffset
  split
  · exact nodup
  · rename_i unknown
    exact nodup.append (List.nodup_singleton _) (by simpa using unknown)

/-- The list of an offset without a subscription, as far as something is left of it. -/
def without (subs : SubscriptionId) (list : List SubscriptionMeta) : Option (List SubscriptionMeta) :=
  if list.filter (fun subscription => subscription.subsId ≠ subs) = [] then none
  else some (list.filter fun subscription => subscription.subsId ≠ subs)

theorem removeFrom_lookup : (removeFrom subs db offset).offsetHandlers.lookup o =
    if o = offset then without subs (db.handlers offset) else db.offsetHandlers.lookup o := by
  unfold removeFrom without
  simp only [List.length_eq_zero_iff]
  by_cases same : o = offset
  · subst same
    split <;> simp
  · split <;> simp [same]

theorem removeFrom_known : (removeFrom subs db offset).knownOffsets =
    if without subs (db.handlers offset) = none then db.knownOffsets.filter (· ≠ offset) else db.knownOffsets := by
  unfold removeFrom without
  simp only [List.length_eq_zero_iff]
  split <;> simp_all [removeKnownOffset]

theorem removeFrom_nextId : (removeFrom subs db offset).nextId = db.nextId := by
  unfold removeFrom
  simp only
  split <;> rfl

theorem removeFrom_handlers (other : o ≠ offset) : (removeFrom subs db offset).handlers o = db.handlers o := by
  rw [handlers, removeFrom_lookup, if_neg other]
  rfl

/-- The walk over some offsets removes the subscription from each of them. -/
theorem foldl_removeFrom (offsets : List Offset) (db : FsuipcOffsetDb) (distinct : offsets.Nodup) :
    (∀ o, (offsets.foldl (removeFrom subs) db).offsetHandlers.lookup o =
      if o ∈ offsets then without subs (db.handlers o) else db.offsetHandlers.lookup o) ∧
    (∀ o, o ∈ (offsets.foldl (removeFrom subs) db).knownOffsets ↔
      o ∈ db.knownOffsets ∧ ¬ (o ∈ offsets ∧ without subs (db.handlers o) = none)) ∧
    List.Sublist (offsets.foldl (removeFrom subs) db).knownOffsets db.knownOffsets ∧
    (offsets.foldl (removeFrom subs) db).nextId = db.nextId := by
  induction offsets generalizing db with
  | nil => simp
  | cons offset offsets ih =>
    obtain ⟨unlisted, distinct⟩ := List.nodup_cons.mp distinct
    obtain ⟨lookups, known, sublist, next⟩ := ih (removeFrom subs db offset) distinct
    rw [List.foldl_cons]
    refine ⟨?_, ?_, ?_, next.trans removeFrom_nextId⟩
    · intro o
      rw [lookups o, removeFrom_lookup]
      by_cases same : o = offset
      · subst same
        simp [unlisted]
      · simp [same, removeFrom_handlers same]
    · intro o
      rw [known o, removeFrom_known]
      by_cases same : o = offset
      · subst same
        by_cases gone : without subs (db.handlers o) = none <;> simp [unlisted, gone]
      · rw [removeFrom_handlers same]
        by_cases gone : without subs (db.handlers offset) = none <;> simp [same, gone]
    · refine sublist.trans ?_
      rw [removeFrom_known]
      split
      · exact List.filter_sublist
      · exact List.Sublist.refl _

/-- Every key of the map is looked at once. -/
theorem removeSubscription_all (db : FsuipcOffsetDb) (id : SubscriptionId) :
    (∀ o, (db.removeSubscription id).offsetHandlers.lookup o =
      if o ∈ db.offsetHandlers.keys then without id (db.handlers o) else db.offsetHandlers.lookup o) ∧
    (∀ o, o ∈ (db.removeSubscription id).knownOffsets ↔
      o ∈ db.knownOffsets ∧ ¬ (o ∈ db.offsetHandlers.keys ∧ without id (db.handlers o) = none)) ∧
    List.Sublist (db.removeSubscription id).knownOffsets db.knownOffsets ∧
    (db.removeSubscription id).nextId = db.nextId :=
  foldl_removeFrom db.offsetHandlers.keys db db.offsetHandlers.keys_nodup

/-! ## Consistency -/

/-- The DB holds the live subscriptions, each with its variable: the known offsets are the
    keys of the map, and every subscription is once in the list of its offset. -/
structure Consistent (db : FsuipcOffsetDb) (live : List (SubscriptionId × VariableId)) : Prop where
  distinct : db.knownOffsets.Nodup
  known : ∀ {o}, o ∈ db.knownOffsets ↔ o ∈ db.offsetHandlers
  nonempty : ∀ {o list}, db.offsetHandlers.lookup o = some list → list ≠ []
  unique : (live.map Prod.fst).Nodup
  placed : ∀ {pair}, pair ∈ live → ∃ o, toFsuipcOffset pair.2 = .ok o
  occurs : ∀ id o, (db.handlers o).countP (fun subs => subs.subsId = id) =
    live.countP fun pair => pair.1 = id ∧ toFsuipcOffset pair.2 = .ok o

theorem empty_consistent : Consistent empty [] where
  distinct := List.nodup_nil
  known := by simp [empty]
  nonempty := by simp [empty]
  unique := List.nodup_nil
  placed := nofun
  occurs := by simp [empty, handlers]

variable {live : List (SubscriptionId × VariableId)} {id : SubscriptionId} {varId : VariableId}

/-- A live subscription is once under its offset, and nowhere else. -/
theorem Consistent.count (consistent : Consistent db live) (member : (id, varId) ∈ live)
    (converted : toFsuipcOffset varId = .ok offset) (o : Offset) :
    (db.handlers o).countP (fun subs => subs.subsId = id) = if o = offset then 1 else 0 := by
  rw [consistent.occurs]
  have unique := consistent.unique
  clear consistent
  induction live with
  | nil => exact absurd member List.not_mem_nil
  | cons pair live ih =>
    obtain ⟨first, rest⟩ := List.nodup_cons.mp unique
    rw [List.countP_cons]
    rcases List.mem_cons.mp member with rfl | later
    · have others : live.countP (fun pair => decide (pair.1 = id ∧ toFsuipcOffset pair.2 = .ok o)) = 0 := by
        rw [List.countP_eq_zero]
        intro pair among same
        have same := of_decide_eq_true same
        apply first
        show id ∈ live.map Prod.fst
        rw [← same.1]
        exact List.mem_map_of_mem among
      rw [others, converted]
      by_cases here : o = offset
      · simp [here]
      · simp [here, Ne.symm here]
    · have other : pair.1 ≠ id := by
        intro same
        apply first
        rw [same]
        exact List.mem_map_of_mem later
      have away : decide (pair.1 = id ∧ toFsuipcOffset pair.2 = .ok o) = false :=
        decide_eq_false fun both => other both.1
      rw [ih later rest, away]
      rfl

theorem Consistent.absent (consistent : Consistent db live) (dead : id ∉ live.map Prod.fst) (o : Offset) :
    (db.handlers o).countP (fun subs => subs.subsId = id) = 0 := by
  rw [consistent.occurs, List.countP_eq_zero]
  intro pair among same
  have same := of_decide_eq_true same
  apply dead
  rw [← same.1]
  exact List.mem_map_of_mem among

theorem handlers_of_entry {elem : Sigma fun _ : Offset => List SubscriptionMeta}
    (member : elem ∈ db.offsetHandlers.entries) : db.handlers elem.1 = elem.2 := by
  have found : elem.2 ∈ db.offsetHandlers.lookup elem.1 := AList.mem_lookup_iff.mpr member
  rw [handlers, found]
  rfl

theorem any_iff_count (list : List SubscriptionMeta) (id : SubscriptionId) :
    (list.any fun subs => subs.subsId = id) = true ↔ list.countP (fun subs => subs.subsId = id) ≠ 0 := by
  rw [ne_eq, List.countP_eq_zero, List.any_eq_true]
  push Not
  rfl

theorem Consistent.getOffset_live (consistent : Consistent db live) (member : (id, varId) ∈ live)
    (converted : toFsuipcOffset varId = .ok offset) : db.getOffsetForSubscription id = .ok offset := by
  have counted := consistent.count member converted
  unfold getOffsetForSubscription
  split
  · rename_i elem found
    have among := List.mem_of_find?_eq_some found
    have some := (any_iff_count _ _).mp (by simpa using List.find?_some found)
    rw [← handlers_of_entry among, counted] at some
    by_cases here : elem.1 = offset
    · rw [here]
    · exact absurd (if_neg here) some
  · rename_i missing
    have here := counted offset
    rw [if_pos rfl] at here
    cases listed : db.offsetHandlers.lookup offset with
    | none => simp [handlers, listed] at here
    | some list =>
      have entry : (⟨offset, list⟩ : Sigma fun _ : Offset => List SubscriptionMeta) ∈ db.offsetHandlers.entries :=
        AList.mem_lookup_iff.mp listed
      have none := List.find?_eq_none.mp missing _ entry
      rw [any_iff_count, ← handlers_of_entry entry] at none
      simp only [handlers, listed, Option.getD_some] at none here
      omega

theorem Consistent.getOffset_dead (consistent : Consistent db live) (dead : id ∉ live.map Prod.fst) :
    db.getOffsetForSubscription id = .error (.offsetDbNoSuchSubscription id) := by
  unfold getOffsetForSubscription
  split
  · rename_i elem found
    have among := List.mem_of_find?_eq_some found
    have some := (any_iff_count _ _).mp (by simpa using List.find?_some found)
    rw [← handlers_of_entry among] at some
    exact absurd (consistent.absent dead elem.1) some
  · rfl

/-- The DB with a new subscription. -/
theorem Consistent.create (consistent : Consistent db live) (fresh : db.nextId ∉ live.map Prod.fst)
    (converted : toFsuipcOffset varId = .ok offset) (callback : Nat) :
    Consistent ((db.insertKnownOffset offset).insertSubscription offset varId callback).2 ((db.nextId, varId) :: live) := by
  obtain ⟨distinct, known, nonempty, unique, placed, occurs⟩ := consistent
  refine ⟨insertKnownOffset_nodup distinct, ?_, ?_, List.nodup_cons.mpr ⟨fresh, unique⟩, ?_, ?_⟩
  · intro o
    simp only [insertSubscription, insertKnownOffset_handlers]
    rw [mem_insertKnownOffset, AList.mem_insert, known]
  · intro o list listed
    simp only [insertSubscription, insertKnownOffset_handlers] at listed
    by_cases here : o = offset
    · subst here
      rw [AList.lookup_insert] at listed
      cases listed
      simp
    · rw [AList.lookup_insert_ne here] at listed
      exact nonempty listed
  · intro pair member
    rcases List.mem_cons.mp member with rfl | later
    · exact ⟨offset, converted⟩
    · exact placed later
  · intro id o
    rw [List.countP_cons, ← occurs]
    rw [insertSubscription_handlers]
    by_cases here : o = offset
    · subst here
      by_cases new : db.nextId = id <;> simp [converted, new, List.countP_append]
    · simp [converted, here, Ne.symm here]

theorem countP_without {α : Type} {key : α → SubscriptionId} {q : α → Bool} {id gone : SubscriptionId} {list : List α}
    (about : ∀ a, q a → key a = id) :
    (list.filter fun a => key a ≠ gone).countP q = if id = gone then 0 else list.countP q := by
  rw [List.countP_filter]
  by_cases same : id = gone
  · rw [if_pos same, List.countP_eq_zero]
    intro a _ both
    simp only [Bool.and_eq_true, decide_eq_true_eq] at both
    exact both.2 ((about a both.1).trans same)
  · rw [if_neg same]
    apply List.countP_congr
    intro a _
    simp only [Bool.and_eq_true, decide_eq_true_eq]
    exact ⟨fun both => both.1, fun counted => ⟨counted, fun gone => same ((about a counted).symm.trans gone)⟩⟩

/-- The walk takes a subscription from every list. -/
theorem removeSubscription_lookup (db : FsuipcOffsetDb) (id : SubscriptionId) (o : Offset) :
    (db.removeSubscription id).offsetHandlers.lookup o = without id (db.handlers o) := by
  refine ((db.removeSubscription_all id).1 o).trans ?_
  by_cases key : o ∈ db.offsetHandlers.keys
  · rw [if_pos key]
  · have missing := AList.lookup_eq_none.mpr (fun member => key (AList.mem_keys.mp member))
    rw [if_neg key, missing, handlers, missing]
    rfl

theorem removeSubscription_handlers (db : FsuipcOffsetDb) (id : SubscriptionId) (o : Offset) :
    (db.removeSubscription id).handlers o = (db.handlers o).filter fun subs => subs.subsId ≠ id := by
  rw [handlers, removeSubscription_lookup, without]
  split
  · rename_i none
    exact none.symm
  · rfl

/-- The DB without a subscription. -/
theorem Consistent.remove (consistent : Consistent db live) (id : SubscriptionId) :
    Consistent (db.removeSubscription id) (live.filter fun pair => pair.1 ≠ id) := by
  obtain ⟨distinct, known, nonempty, unique, placed, occurs⟩ := consistent
  obtain ⟨-, left, sublist, -⟩ := db.removeSubscription_all id
  refine ⟨sublist.nodup distinct, ?_, ?_, unique.sublist (List.filter_sublist.map _), ?_, ?_⟩
  · intro o
    rw [← AList.lookup_isSome, removeSubscription_lookup, Option.isSome_iff_ne_none]
    refine (left o).trans ?_
    rw [known, ← AList.mem_keys]
    constructor
    · rintro ⟨key, kept⟩ gone
      exact kept ⟨AList.mem_keys.mp key, gone⟩
    · intro kept
      have key : o ∈ db.offsetHandlers := by
        by_contra missing
        apply kept
        rw [handlers, AList.lookup_eq_none.mpr missing]
        rfl
      exact ⟨key, fun gone => kept gone.2⟩
  · intro o list listed
    rw [removeSubscription_lookup, without] at listed
    split at listed
    · cases listed
    · cases listed
      assumption
  · intro pair member
    exact placed (List.mem_filter.mp member).1
  · intro id' o
    have handled (subs : SubscriptionMeta) (same : decide (subs.subsId = id') = true) : subs.subsId = id' :=
      of_decide_eq_true same
    have owned (pair : SubscriptionId × VariableId)
        (both : decide (pair.1 = id' ∧ toFsuipcOffset pair.2 = .ok o) = true) : pair.1 = id' :=
      (of_decide_eq_true both).1
    rw [removeSubscription_handlers, countP_without handled, countP_without owned, occurs]

theorem removeSubscription_known (known : o ∈ (db.removeSubscription id).knownOffsets) : o ∈ db.knownOffsets :=
  (db.removeSubscription_all id).2.2.1.subset known

/-- Only the offset of the subscription may become unknown. -/
theorem Consistent.remove_known (consistent : Consistent db live) (member : (id, varId) ∈ live)
    (converted : toFsuipcOffset varId = .ok offset) (other : o ≠ offset) :
    o ∈ (db.removeSubscription id).knownOffsets ↔ o ∈ db.knownOffsets := by
  obtain ⟨-, left, -, -⟩ := db.removeSubscription_all id
  refine (left o).trans (and_iff_left_of_imp ?_)
  rintro - ⟨key, gone⟩
  have counted := consistent.count member converted o
  rw [if_neg other, List.countP_eq_zero] at counted
  have kept : (db.handlers o).filter (fun subs => subs.subsId ≠ id) = db.handlers o :=
    List.filter_eq_self.mpr fun subs among => by simpa using counted subs among
  obtain ⟨list, listed⟩ := Option.isSome_iff_exists.mp (AList.lookup_isSome.mpr (AList.mem_keys.mpr key))
  rw [without, kept, handlers, listed] at gone
  have some := consistent.nonempty listed
  simp [some] at gone

end FsuipcOffsetDb
end Oac.Fsuipc
