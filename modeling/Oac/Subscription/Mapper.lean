import Oac.Errors

/-!
# The subscription mapper

A bidirectional map between variables and subscription ids.
-/
namespace Oac

/-- A `boost::bimap`: pairs with distinct variables and distinct ids. -/
structure SubscriptionMapper where
  entries : List (VariableId × SubscriptionId)
  left_unique : (entries.map Prod.fst).Nodup
  right_unique : (entries.map Prod.snd).Nodup

namespace SubscriptionMapper

def empty : SubscriptionMapper := ⟨[], List.nodup_nil, List.nodup_nil⟩

/-- The pair is in the map. -/
def Maps (m : SubscriptionMapper) (varId : VariableId) (subsId : SubscriptionId) : Prop := (varId, subsId) ∈ m.entries

/-- The id is in the map. -/
def Owns (m : SubscriptionMapper) (subsId : SubscriptionId) : Prop := subsId ∈ m.entries.map Prod.snd
instance (m : SubscriptionMapper) (subsId : SubscriptionId) : Decidable (m.Owns subsId) :=
  inferInstanceAs (Decidable (_ ∈ _))

/-- The variable is in the map. -/
def Covers (m : SubscriptionMapper) (varId : VariableId) : Prop := varId ∈ m.entries.map Prod.fst
instance (m : SubscriptionMapper) (varId : VariableId) : Decidable (m.Covers varId) :=
  inferInstanceAs (Decidable (_ ∈ _))

/-- `subscription_exists` of a variable. -/
def variableExists (m : SubscriptionMapper) (varId : VariableId) : Bool := decide (m.Covers varId)
/-- `subscription_exists` of a subscription. -/
def subscriptionExists (m : SubscriptionMapper) (subsId : SubscriptionId) : Bool := decide (m.Owns subsId)

/-- The map with one more pair. -/
def insert (m : SubscriptionMapper) (varId : VariableId) (subsId : SubscriptionId) (newVariable : ¬ m.Covers varId)
    (newSubscription : ¬ m.Owns subsId) : SubscriptionMapper where
  entries := (varId, subsId) :: m.entries
  left_unique := List.nodup_cons.mpr ⟨newVariable, m.left_unique⟩
  right_unique := List.nodup_cons.mpr ⟨newSubscription, m.right_unique⟩

def registerSubscription (m : SubscriptionMapper) (varId : VariableId) (subsId : SubscriptionId) :
    Except Exception SubscriptionMapper :=
  if usedVariable : m.Covers varId then .error (.mapperVariableExists varId)
  else if usedSubscription : m.Owns subsId then .error (.mapperSubscriptionExists subsId)
  else .ok (m.insert varId subsId usedVariable usedSubscription)

/-- The ids in the order of `for_each_subscription`. -/
def forEachSubscription (m : SubscriptionMapper) : List SubscriptionId :=
  (m.entries.map Prod.snd).mergeSort fun a b => decide (a ≤ b)

def getSubscriptionId (m : SubscriptionMapper) (varId : VariableId) : Except Exception SubscriptionId :=
  match m.entries.find? fun entry => entry.1 = varId with
  | some entry => .ok entry.2
  | none => .error (.mapperNoSuchVariable varId)

/-- The map without an id. -/
def erase (m : SubscriptionMapper) (subsId : SubscriptionId) : SubscriptionMapper where
  entries := m.entries.filter fun entry => entry.2 ≠ subsId
  left_unique := m.left_unique.sublist (List.filter_sublist.map Prod.fst)
  right_unique := m.right_unique.sublist (List.filter_sublist.map Prod.snd)

/-- `unregister` of a subscription. -/
def unregister (m : SubscriptionMapper) (subsId : SubscriptionId) : Except Exception SubscriptionMapper :=
  if m.Owns subsId then .ok (m.erase subsId) else .error (.mapperNoSuchSubscription subsId)

/-! ## Pairs -/

variable {m : SubscriptionMapper} {v w : VariableId} {i j : SubscriptionId}

theorem not_owns_empty : ¬ empty.Owns i := List.not_mem_nil

theorem owns_iff : m.Owns i ↔ ∃ v, m.Maps v i := by
  simp [Owns, Maps]

theorem covers_iff : m.Covers v ↔ ∃ i, m.Maps v i := by
  simp [Covers, Maps]

theorem Maps.unique_subscription (first : m.Maps v i) (second : m.Maps v j) : i = j :=
  congrArg Prod.snd (List.inj_on_of_nodup_map m.left_unique first second rfl)

theorem Maps.unique_variable (first : m.Maps v i) (second : m.Maps w i) : v = w :=
  congrArg Prod.fst (List.inj_on_of_nodup_map m.right_unique first second rfl)

theorem maps_insert (newVariable : ¬ m.Covers v) (newSubscription : ¬ m.Owns i) :
    (m.insert v i newVariable newSubscription).Maps w j ↔ (w = v ∧ j = i) ∨ m.Maps w j := by
  simp [Maps, insert]

theorem maps_insert_self (newVariable : ¬ m.Covers v) (newSubscription : ¬ m.Owns i) :
    (m.insert v i newVariable newSubscription).Maps v i := List.mem_cons_self

theorem owns_insert (newVariable : ¬ m.Covers v) (newSubscription : ¬ m.Owns i) :
    (m.insert v i newVariable newSubscription).Owns j ↔ j = i ∨ m.Owns j := by
  simp [Owns, insert]

theorem maps_erase : (m.erase i).Maps v j ↔ m.Maps v j ∧ j ≠ i := by
  simp [Maps, erase]

theorem owns_erase : (m.erase i).Owns j ↔ m.Owns j ∧ j ≠ i := by
  simp only [owns_iff, maps_erase, exists_and_right]

theorem maps_single (single : m.entries = [(v, i)]) : m.Maps w j ↔ w = v ∧ j = i := by
  simp [Maps, single]

theorem covers_single (single : m.entries = [(v, i)]) : m.Covers w ↔ w = v := by
  simp [Covers, single]

theorem mem_forEachSubscription : i ∈ m.forEachSubscription ↔ m.Owns i := List.mem_mergeSort

theorem forEachSubscription_nodup : m.forEachSubscription.Nodup :=
  (List.mergeSort_perm _ _).nodup_iff.mpr m.right_unique

theorem registerSubscription_new (newVariable : ¬ m.Covers v) (newSubscription : ¬ m.Owns i) :
    m.registerSubscription v i = .ok (m.insert v i newVariable newSubscription) := by
  rw [registerSubscription, dif_neg newVariable, dif_neg newSubscription]

theorem registerSubscription_used (newVariable : ¬ m.Covers v) (used : m.Owns i) :
    m.registerSubscription v i = .error (.mapperSubscriptionExists i) := by
  rw [registerSubscription, dif_neg newVariable, dif_pos used]

theorem getSubscriptionId_maps (maps : m.Maps v i) : m.getSubscriptionId v = .ok i := by
  unfold getSubscriptionId
  cases found : m.entries.find? fun entry => entry.1 = v with
  | none =>
    have missing := List.find?_eq_none.mp found (v, i) maps
    simp at missing
  | some entry =>
    have same : entry.1 = v := by simpa using List.find?_some found
    have member : m.Maps v entry.2 := by
      show (v, entry.2) ∈ m.entries
      rw [← same]
      exact List.mem_of_find?_eq_some found
    simp only [member.unique_subscription maps]

theorem getSubscriptionId_missing (missing : ¬ m.Covers v) : m.getSubscriptionId v = .error (.mapperNoSuchVariable v) := by
  unfold getSubscriptionId
  have none : (m.entries.find? fun entry => entry.1 = v) = .none := by
    rw [List.find?_eq_none]
    rintro ⟨w, i⟩ member same
    have same : w = v := by simpa using same
    exact missing (covers_iff.mpr ⟨i, same ▸ member⟩)
  rw [none]

end SubscriptionMapper
end Oac
