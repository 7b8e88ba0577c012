import Oac.Client.SubscriptionMaps
import Oac.Fsuipc.OffsetDb

/-!
# Subscription ids

`make_subscription_id` gives the numbers from 1 on, in 32 bits, to all stores of the
process. The subscription DB of a client and the offset DB of FSUIPC enter them without
looking whether they are in use, so they stay apart as long as no live subscription is a
multiple of 2^32 ids old when one is made for its store (`subscription_ids_fresh_iff`).
-/
namespace Oac.FreshIds
open Base Client Fsuipc

/-- The stores of a process and the counter that they share. `made` and `bornAt` only record
what has happened. -/
structure Process where
  nextId : SubscriptionId
  db : SubscriptionMaps
  offsets : FsuipcOffsetDb
  /-- how many ids were made -/
  made : Nat
  /-- how many were made before the last one with this value -/
  bornAt : SubscriptionId → Nat

def initial : Process := { nextId := 1, db := .empty, offsets := .empty, made := 0, bornAt := fun _ => 0 }

/-- `make_subscription_id`, which returns `nextId`. -/
def makeSubscriptionId (p : Process) : Process :=
  { p with nextId := p.nextId + 1, made := p.made + 1, bornAt := Function.update p.bornAt p.nextId p.made }

inductive Op where
  /-- a call to the subscription DB, whatever id it mentions as the one that it is given -/
  | db (call : DbCall)
  | createSubscription (varId : VariableId) (callback : Nat)
  | removeSubscription (subsId : SubscriptionId)
  /-- an id for another store -/
  | elsewhere

/-- The call with the id that is made for it. -/
def given (made : SubscriptionId) : DbCall → DbCall
  | .createEntry v i handler _ => .createEntry v i handler made
  | .addVirtualSubscription v handler _ => .addVirtualSubscription v handler made
  | call => call

/-- The calls that enter a virtual subscription. -/
def enters : DbCall → Bool
  | .createEntry .. => true
  | .addVirtualSubscription .. => true
  | _ => false

/-- The offset DB with the counter of the process. -/
def counted (p : Process) : FsuipcOffsetDb := { p.offsets with nextId := p.nextId }

def callDb (call : DbCall) : EStateM Exception Process (Option SubscriptionId) := fun p =>
  match SubscriptionMaps.perform (given p.nextId call) p.db with
  | .ok _ db => if enters call then .ok (some p.nextId) (makeSubscriptionId { p with db }) else .ok none { p with db }
  | .error e db => .error e { p with db }

def createSubscription (varId : VariableId) (callback : Nat) : EStateM Exception Process (Option SubscriptionId) := fun p =>
  match FsuipcOffsetDb.createSubscription varId callback (counted p) with
  | .ok (subs, offsets) => .ok (some subs.subsId) (makeSubscriptionId { p with offsets })
  | .error e => .error e p

/-- An operation, with the id that was made for its store. -/
def perform : Op → EStateM Exception Process (Option SubscriptionId)
  | .db call => callDb call
  | .createSubscription varId callback => createSubscription varId callback
  | .removeSubscription subsId => fun p => .ok none { p with offsets := p.offsets.removeSubscription subsId }
  | .elsewhere => fun p => .ok none (makeSubscriptionId p)

/-! ## Fresh ids -/

def LiveInDb (p : Process) (id : SubscriptionId) : Prop :=
  ∃ v e, p.db.varIdMap v = some e ∧ id ∈ (p.db.heap e).virtualSubs.map Subscription.id

def LiveInOffsets (p : Process) (id : SubscriptionId) : Prop := ∃ o, ∃ subs ∈ p.offsets.handlers o, subs.subsId = id

/-- The id is that of a subscription in the store that the operation is about. -/
def Live (p : Process) : Op → SubscriptionId → Prop
  | .db _ => LiveInDb p
  | .createSubscription .. => LiveInOffsets p
  | .removeSubscription _ => LiveInOffsets p
  | .elsewhere => fun _ => False

/-- The maps of the subscription DB lead to each virtual subscription in its own entry, and
each subscription of the offset DB is once in the list of its offset. -/
structure Apart (p : Process) : Prop where
  db : SubscriptionMaps.Indexed p.db
  offsets : ∃ live, p.offsets.Consistent live

/-- The operation enters no id that is live, and leaves the subscriptions apart. -/
def Fresh (p : Process) (op : Op) : Prop :=
  (∀ id p', perform op p = .ok (some id) p' → ¬ Live p op id) ∧ Apart (after (perform op p))

/-- The operation makes an id for its store. -/
def MakesId (p : Process) : Op → Prop
  | .db (.createEntry v i _ _) => p.db.varIdMap v = none ∧ p.db.masterSubsIdMap i = none
  | .db (.addVirtualSubscription v _ _) => p.db.varIdMap v ≠ none
  | .createSubscription varId _ => ∃ o, toFsuipcOffset varId = .ok o
  | _ => False

/-- When an id is made, no subscription of its store is a multiple of 2^32 ids old. -/
def Unrepeated (p : Process) (op : Op) : Prop := MakesId p op → ∀ id, Live p op id → ¬ 2 ^ 32 ∣ p.made - p.bornAt id

/-! ## The counter -/

/-- The stores are in order, and every live id is that of the number it was made as. -/
structure Numbered (p : Process) : Prop where
  db : ∃ t, SubscriptionMaps.Represents p.db t
  offsets : ∃ live, p.offsets.Consistent live
  counter : p.nextId = UInt32.ofNat (p.made + 1)
  born : ∀ i, LiveInDb p i ∨ LiveInOffsets p i → p.bornAt i < p.made ∧ i = UInt32.ofNat (p.bornAt i + 1)

variable {p p' : Process} {i : SubscriptionId} {op : Op}

theorem Numbered.apart (numbered : Numbered p) : Apart p := by
  obtain ⟨t, shows⟩ := numbered.db
  exact ⟨shows.indexed, numbered.offsets⟩

theorem ofNat_eq_iff {j k : Nat} (le : j ≤ k) : UInt32.ofNat (j + 1) = UInt32.ofNat (k + 1) ↔ 2 ^ 32 ∣ k - j := by
  rw [← UInt32.toNat_inj, UInt32.toNat_ofNat', UInt32.toNat_ofNat']
  omega

theorem Numbered.repeated_iff (numbered : Numbered p) (live : LiveInDb p i ∨ LiveInOffsets p i) :
    i = p.nextId ↔ 2 ^ 32 ∣ p.made - p.bornAt i := by
  obtain ⟨earlier, value⟩ := numbered.born i live
  rw [← ofNat_eq_iff earlier.le, ← value, numbered.counter]

theorem Live.somewhere (live : Live p op i) : LiveInDb p i ∨ LiveInOffsets p i := by
  cases op with
  | db call => exact .inl live
  | createSubscription varId callback => exact .inr live
  | removeSubscription subsId => exact .inr live
  | elsewhere => exact live.elim

/-- The condition says that the id that is made is not live. -/
theorem Numbered.unrepeated_iff (numbered : Numbered p) : Unrepeated p op ↔ (MakesId p op → ¬ Live p op p.nextId) := by
  constructor
  · intro unrepeated makes live
    exact unrepeated makes p.nextId live ((numbered.repeated_iff live.somewhere).mp rfl)
  · rintro unused makes i live whole
    have same := (numbered.repeated_iff live.somewhere).mpr whole
    exact unused makes (same ▸ live)

/-- A number more, and at most its id has become live. -/
theorem Numbered.next (numbered : Numbered p) (nextId : p'.nextId = p.nextId + 1) (made : p'.made = p.made + 1)
    (bornAt : p'.bornAt = Function.update p.bornAt p.nextId p.made) (db : ∃ t, SubscriptionMaps.Represents p'.db t)
    (offsets : ∃ live, p'.offsets.Consistent live)
    (live : ∀ i, LiveInDb p' i ∨ LiveInOffsets p' i → LiveInDb p i ∨ LiveInOffsets p i ∨ i = p.nextId) : Numbered p' where
  db := db
  offsets := offsets
  counter := by
    rw [nextId, made, numbered.counter, UInt32.ofNat_add (p.made + 1) 1]
    rfl
  born := by
    intro i here
    rw [bornAt, made]
    by_cases new : i = p.nextId
    · rw [new, Function.update_self]
      exact ⟨Nat.lt_succ_self _, numbered.counter⟩
    · rw [Function.update_of_ne new]
      have before : LiveInDb p i ∨ LiveInOffsets p i := by
        rcases live i here with inDb | inOffsets | same
        · exact .inl inDb
        · exact .inr inOffsets
        · exact absurd same new
      obtain ⟨earlier, value⟩ := numbered.born i before
      exact ⟨Nat.lt_succ_of_lt earlier, value⟩

/-! ## The subscription DB -/

/-- A virtual subscription of the store. -/
def Held (t : Store) (i : SubscriptionId) : Prop := ∃ v a, t.slot v = some a ∧ a.Holds i

theorem live_iff_held {t : Store} (shows : SubscriptionMaps.Represents p.db t) : LiveInDb p i ↔ Held t i := by
  constructor
  · rintro ⟨v, e, at_v, member⟩
    exact ⟨v, _, shows.at_some at_v, member⟩
  · rintro ⟨v, a, there, member⟩
    obtain ⟨e, at_v, rfl⟩ := shows.of_slot there
    exact ⟨v, e, at_v, member⟩

theorem held_update {t t' : Store} {v : VariableId} {slot : Option Slot} (changed : t'.slot = Function.update t.slot v slot)
    (held : Held t' i) : Held t i ∨ ∃ a, slot = some a ∧ a.Holds i := by
  obtain ⟨w, a, there, member⟩ := held
  rw [changed] at there
  by_cases same : w = v
  · rw [same, Function.update_self] at there
    exact .inr ⟨a, there, member⟩
  · rw [Function.update_of_ne same] at there
    exact .inl ⟨w, a, there, member⟩

theorem held_perform {t t' : Store} {call : DbCall} {made : SubscriptionId} {a : DbAnswer}
    (performed : Store.perform (given made call) t = .ok a t') (held : Held t' i) : Held t i ∨ (enters call = true ∧ i = made) := by
  cases call with
  | createEntry v master handler m =>
    simp only [given, Store.perform] at performed
    split at performed
    · cases performed
    · split at performed
      · cases performed
      · cases performed
        rcases held_update (Store.put_slot ..) held with before | ⟨a, same, member⟩
        · exact .inl before
        · cases same
          exact .inr ⟨rfl, List.mem_singleton.mp member⟩
  | addVirtualSubscription v handler m =>
    simp only [given, Store.perform] at performed
    split at performed
    · rename_i slot there
      cases performed
      rcases held_update (Store.put_slot ..) held with before | ⟨a, same, member⟩
      · exact .inl before
      · cases same
        rw [Slot.Holds, List.map_append] at member
        rcases List.mem_append.mp member with before | new
        · exact .inl ⟨v, slot, there, before⟩
        · exact .inr ⟨rfl, List.mem_singleton.mp new⟩
    · cases performed
  | removeEntry v =>
    simp only [given, Store.perform] at performed
    split at performed
    · cases performed
      rcases held_update (Store.drop_slot ..) held with before | ⟨a, same, member⟩
      · exact .inl before
      · cases same
    · cases performed
  | removeVirtualSubscription id =>
    simp only [given, Store.perform] at performed
    split at performed
    · rename_i v slot found
      split at performed
      · cases performed
        rcases held_update (Store.drop_slot ..) held with before | ⟨a, same, member⟩
        · exact .inl before
        · cases same
      · cases performed
        rcases held_update (Store.put_slot ..) held with before | ⟨a, same, member⟩
        · exact .inl before
        · cases same
          exact .inl ⟨v, slot, (Store.find_some found).1, (List.filter_sublist.map _).subset member⟩
    · cases performed
  | entryDefined v =>
    cases performed
    exact .inl held
  | masterOfVariable | masterOfVirtual | invokeHandlers =>
    simp only [given, Store.perform] at performed
    split at performed <;> cases performed
    exact .inl held

/-- A call that would enter an id makes one, or throws before. -/
theorem enters_cases {call : DbCall} (entering : enters call = true) :
    (MakesId p (.db call) ∧ ∃ a db, SubscriptionMaps.perform (given p.nextId call) p.db = .ok a db) ∨
      (¬ MakesId p (.db call) ∧ ∃ e, SubscriptionMaps.perform (given p.nextId call) p.db = .error e p.db) := by
  cases call with
  | createEntry v master handler m =>
    cases here : p.db.varIdMap v with
    | some e =>
      refine .inr ⟨fun makes => ?_, _, error_bind (SubscriptionMaps.createEntry_used handler p.nextId here)⟩
      cases here.symm.trans makes.1
    | none =>
      cases used : p.db.masterSubsIdMap master with
      | some e =>
        refine .inr ⟨fun makes => ?_, _, error_bind (SubscriptionMaps.createEntry_mastered handler p.nextId here used)⟩
        cases used.symm.trans makes.2
      | none =>
        have opened : (p.db.opened v master).varIdMap v = some p.db.unused := by simp [SubscriptionMaps.opened]
        have created := (SubscriptionMaps.createEntry_opened here used handler p.nextId).trans
          (SubscriptionMaps.addVirtualSubscription_eq opened handler p.nextId)
        exact .inl ⟨⟨here, used⟩, _, _, ok_bind created⟩
  | addVirtualSubscription v handler m =>
    cases here : p.db.varIdMap v with
    | some e =>
      refine .inl ⟨fun none => ?_, _, _, ok_bind (SubscriptionMaps.addVirtualSubscription_eq here handler p.nextId)⟩
      cases here.symm.trans none
    | none => exact .inr ⟨fun makes => makes here, _, error_bind (SubscriptionMaps.addVirtualSubscription_unknown handler p.nextId here)⟩
  | _ => cases entering

theorem perform_db_ok {call : DbCall} {a : DbAnswer} {db : SubscriptionMaps}
    (performed : SubscriptionMaps.perform (given p.nextId call) p.db = .ok a db) : perform (.db call) p =
      if enters call then .ok (some p.nextId) (makeSubscriptionId { p with db }) else .ok none { p with db } := by
  show callDb call p = _
  unfold callDb
  rw [performed]

theorem perform_db_error {call : DbCall} {e : Exception} {db : SubscriptionMaps}
    (raised : SubscriptionMaps.perform (given p.nextId call) p.db = .error e db) :
    perform (.db call) p = .error e { p with db } := by
  show callDb call p = _
  unfold callDb
  rw [raised]

theorem perform_createSubscription {varId : VariableId} {callback : Nat} {o : Offset} (converted : toFsuipcOffset varId = .ok o) :
    perform (.createSubscription varId callback) p = .ok (some p.nextId) (makeSubscriptionId { p with
      offsets := (((counted p).insertKnownOffset o).insertSubscription o varId callback).2 }) := by
  have created : FsuipcOffsetDb.createSubscription varId callback (counted p) =
      .ok (((counted p).insertKnownOffset o).insertSubscription o varId callback) := by
    unfold FsuipcOffsetDb.createSubscription
    rw [converted]
  show createSubscription varId callback p = _
  unfold createSubscription
  rw [created]
  have same : ((counted p).insertKnownOffset o).nextId = p.nextId := FsuipcOffsetDb.insertKnownOffset_nextId
  exact congrArg (fun i => EStateM.Result.ok (some i) _) same

theorem perform_createSubscription_refused {varId : VariableId} {e : Exception} (callback : Nat)
    (refused : toFsuipcOffset varId = .error e) : perform (.createSubscription varId callback) p = .error e p := by
  have raised : FsuipcOffsetDb.createSubscription varId callback (counted p) = .error e := by
    unfold FsuipcOffsetDb.createSubscription
    rw [refused]
  show createSubscription varId callback p = _
  unfold createSubscription
  rw [raised]

/-- What makes an id for its store returns it, and nothing else returns one. -/
theorem makesId_iff : MakesId p op ↔ ∃ i p', perform op p = .ok (some i) p' := by
  cases op with
  | db call =>
    cases entering : enters call with
    | true =>
      rcases enters_cases (p := p) entering with ⟨makes, a, db, performed⟩ | ⟨nothing, e, raised⟩
      · refine iff_of_true makes ⟨p.nextId, makeSubscriptionId { p with db }, ?_⟩
        rw [perform_db_ok performed, entering]
        rfl
      · refine iff_of_false nothing ?_
        rintro ⟨i, p', returned⟩
        cases (perform_db_error raised).symm.trans returned
    | false =>
      refine iff_of_false (fun makes => ?_) ?_
      · cases call <;> first | exact makes | cases entering
      · rintro ⟨i, p', returned⟩
        cases performed : SubscriptionMaps.perform (given p.nextId call) p.db with
        | ok a db =>
          rw [perform_db_ok performed, entering] at returned
          cases returned
        | error e db => cases (perform_db_error performed).symm.trans returned
  | createSubscription varId callback =>
    cases converted : toFsuipcOffset varId with
    | ok o => exact iff_of_true ⟨o, converted⟩ ⟨_, _, perform_createSubscription converted⟩
    | error e =>
      refine iff_of_false ?_ ?_
      · rintro ⟨o, other⟩
        cases converted.symm.trans other
      · rintro ⟨i, p', returned⟩
        cases (perform_createSubscription_refused callback converted).symm.trans returned
  | removeSubscription subsId =>
    refine iff_of_false id ?_
    rintro ⟨i, p', returned⟩
    cases returned
  | elsewhere =>
    refine iff_of_false id ?_
    rintro ⟨i, p', returned⟩
    cases returned

/-- The id that is returned is the next one. -/
theorem perform_id {p' : Process} (returned : perform op p = .ok (some i) p') : i = p.nextId := by
  cases op with
  | db call =>
    cases performed : SubscriptionMaps.perform (given p.nextId call) p.db with
    | ok a db =>
      rw [perform_db_ok performed] at returned
      split at returned <;> cases returned
      rfl
    | error e db => cases (perform_db_error performed).symm.trans returned
  | createSubscription varId callback =>
    cases converted : toFsuipcOffset varId with
    | ok o =>
      cases (perform_createSubscription converted).symm.trans returned
      rfl
    | error e => cases (perform_createSubscription_refused callback converted).symm.trans returned
  | removeSubscription subsId => cases returned
  | elsewhere => cases returned

/-! ## Steps -/

/-- No number more, and nothing more is live. -/
theorem Numbered.fewer (numbered : Numbered p) (nextId : p'.nextId = p.nextId) (made : p'.made = p.made)
    (bornAt : p'.bornAt = p.bornAt) (db : ∃ t, SubscriptionMaps.Represents p'.db t)
    (offsets : ∃ live, p'.offsets.Consistent live)
    (live : ∀ i, LiveInDb p' i ∨ LiveInOffsets p' i → LiveInDb p i ∨ LiveInOffsets p i) : Numbered p' where
  db := db
  offsets := offsets
  counter := by
    rw [nextId, made]
    exact numbered.counter
  born := by
    intro i here
    rw [bornAt, made]
    exact numbered.born i (live i here)

theorem Numbered.db_call (numbered : Numbered p) (call : DbCall) (unused : MakesId p (.db call) → ¬ LiveInDb p p.nextId) :
    Numbered (after (perform (.db call) p)) := by
  obtain ⟨t, shows⟩ := numbered.db
  have free_or_raised : t.Fresh (given p.nextId call) ∨
      ∃ e, SubscriptionMaps.perform (given p.nextId call) p.db = .error e p.db := by
    cases entering : enters call with
    | true =>
      rcases enters_cases (p := p) entering with ⟨makes, -⟩ | ⟨-, raised⟩
      · have free : ∀ v a, t.slot v = some a → ¬ a.Holds p.nextId := fun v a there holds =>
          unused makes ((live_iff_held shows).mpr ⟨v, a, there, holds⟩)
        refine .inl ?_
        cases call <;> first | exact free | cases entering
      · exact .inr raised
    | false => exact .inl (by cases call <;> trivial)
  have kept {e : Exception} (raised : SubscriptionMaps.perform (given p.nextId call) p.db = .error e p.db) :
      Numbered (after (perform (.db call) p)) := by
    rw [perform_db_error raised]
    exact numbered
  rcases free_or_raised with free | ⟨e, raised⟩
  · rcases shows.perform _ free with ⟨a, s', t', performed, performed', shows'⟩ | ⟨e, raised, -⟩
    · have live : ∀ i, Held t' i → LiveInDb p i ∨ (enters call = true ∧ i = p.nextId) := by
        intro i held
        rcases held_perform performed' held with before | new
        · exact .inl ((live_iff_held shows).mpr before)
        · exact .inr new
      rw [perform_db_ok performed]
      cases entering : enters call with
      | true =>
        refine numbered.next rfl rfl rfl ⟨t', shows'⟩ numbered.offsets fun i here => ?_
        rcases here with inDb | inOffsets
        · rcases live i ((live_iff_held shows').mp inDb) with before | ⟨-, new⟩
          · exact .inl before
          · exact .inr (.inr new)
        · exact .inr (.inl inOffsets)
      | false =>
        refine numbered.fewer rfl rfl rfl ⟨t', shows'⟩ numbered.offsets fun i here => ?_
        rcases here with inDb | inOffsets
        · rcases live i ((live_iff_held shows').mp inDb) with before | ⟨entered, -⟩
          · exact .inl before
          · cases entering.symm.trans entered
        · exact .inr inOffsets
    · exact kept raised
  · exact kept raised

theorem counted_consistent {live : List (SubscriptionId × VariableId)} (consistent : p.offsets.Consistent live) :
    (counted p).Consistent live :=
  ⟨consistent.distinct, consistent.known, consistent.nonempty, consistent.unique, consistent.placed, consistent.occurs⟩

/-- A live subscription is in the list of its offset. -/
theorem live_in_offsets {live : List (SubscriptionId × VariableId)} (consistent : p.offsets.Consistent live)
    (mem : i ∈ live.map Prod.fst) : LiveInOffsets p i := by
  obtain ⟨⟨id, varId⟩, member, rfl⟩ := List.mem_map.mp mem
  obtain ⟨o, converted⟩ := consistent.placed member
  have counted := consistent.count member converted o
  rw [if_pos rfl] at counted
  have some : 0 < (p.offsets.handlers o).countP fun subs => subs.subsId = id := by omega
  obtain ⟨subs, among, same⟩ := List.countP_pos_iff.mp some
  exact ⟨o, subs, among, of_decide_eq_true same⟩

theorem Numbered.create_subscription (numbered : Numbered p) (varId : VariableId) (callback : Nat)
    (unused : MakesId p (.createSubscription varId callback) → ¬ LiveInOffsets p p.nextId) :
    Numbered (after (perform (.createSubscription varId callback) p)) := by
  obtain ⟨live, consistent⟩ := numbered.offsets
  cases converted : toFsuipcOffset varId with
  | error e =>
    rw [perform_createSubscription_refused callback converted]
    exact numbered
  | ok o =>
    rw [perform_createSubscription converted]
    have fresh : (counted p).nextId ∉ live.map Prod.fst := fun mem =>
      unused ⟨o, converted⟩ (live_in_offsets consistent mem)
    refine numbered.next rfl rfl rfl numbered.db ⟨_, (counted_consistent consistent).create fresh converted callback⟩ ?_
    rintro i (inDb | ⟨o', subs, among, same⟩)
    · exact .inl inDb
    · have list : (((counted p).insertKnownOffset o).insertSubscription o varId callback).2.handlers o' =
          if o' = o then p.offsets.handlers o' ++ [⟨varId, callback, p.nextId⟩] else p.offsets.handlers o' :=
        FsuipcOffsetDb.insertSubscription_handlers
      have listed : subs ∈ (((counted p).insertKnownOffset o).insertSubscription o varId callback).2.handlers o' := among
      rw [list] at listed
      split at listed
      · rcases List.mem_append.mp listed with before | new
        · exact .inr (.inl ⟨o', subs, before, same⟩)
        · rw [List.mem_singleton.mp new] at same
          exact .inr (.inr same.symm)
      · exact .inr (.inl ⟨o', subs, listed, same⟩)

theorem Numbered.step (numbered : Numbered p) (op : Op) (unused : MakesId p op → ¬ Live p op p.nextId) :
    Numbered (after (perform op p)) := by
  cases op with
  | db call => exact numbered.db_call call unused
  | createSubscription varId callback => exact numbered.create_subscription varId callback unused
  | removeSubscription subsId =>
    obtain ⟨live, consistent⟩ := numbered.offsets
    refine numbered.fewer rfl rfl rfl numbered.db ⟨_, consistent.remove subsId⟩ ?_
    rintro i (inDb | ⟨o, subs, among, same⟩)
    · exact .inl inDb
    · have left : subs ∈ (p.offsets.removeSubscription subsId).handlers o := among
      rw [FsuipcOffsetDb.removeSubscription_handlers] at left
      exact .inr ⟨o, subs, (List.mem_filter.mp left).1, same⟩
  | elsewhere =>
    refine numbered.next rfl rfl rfl numbered.db numbered.offsets ?_
    rintro i (inDb | inOffsets)
    · exact .inl inDb
    · exact .inr (.inl inOffsets)

theorem initial_numbered : Numbered initial where
  db := ⟨Store.empty, SubscriptionMaps.empty_represents⟩
  offsets := ⟨[], FsuipcOffsetDb.empty_consistent⟩
  counter := rfl
  born := by
    rintro i (⟨v, e, at_v, -⟩ | ⟨o, subs, among, -⟩)
    · cases at_v
    · cases among

theorem Numbered.fresh_iff (numbered : Numbered p) : Fresh p op ↔ Unrepeated p op := by
  rw [numbered.unrepeated_iff]
  constructor
  · rintro ⟨free, -⟩ makes
    obtain ⟨i, p', returned⟩ := makesId_iff.mp makes
    rw [← perform_id returned]
    exact free i p' returned
  · intro unused
    refine ⟨fun i p' returned => ?_, (numbered.step op unused).apart⟩
    rw [perform_id returned]
    exact unused (makesId_iff.mpr ⟨i, p', returned⟩)

/-- The ids that are made are free and the subscriptions stay apart, in just the runs in which
no subscription lives until its id comes round for its store. -/
theorem subscription_ids_fresh_iff (ops : List Op) : Along perform Fresh ops initial ↔ Along perform Unrepeated ops initial :=
  along_congr (fun numbered => numbered.fresh_iff)
    (fun numbered fresh => numbered.step _ (numbered.unrepeated_iff.mp (numbered.fresh_iff.mp fresh))) ops initial_numbered

/-! ## An id that comes round -/

/-- Virtual subscriptions of a variable that are removed at once, with ids from `next` on. -/
def passing (v : VariableId) (next : Nat) : Nat → List Op
  | 0 => []
  | count + 1 => .db (.addVirtualSubscription v 0 0) :: .db (.removeVirtualSubscription (UInt32.ofNat next)) ::
      passing v (next + 1) count

/-- The DB holds one virtual subscription, with the id 1. -/
structure OnlyFirst (v : VariableId) (next : Nat) (p : Process) : Prop where
  nextId : p.nextId = UInt32.ofNat next
  indexed : SubscriptionMaps.Indexed p.db
  slot : p.db.slot = Function.update (fun _ => none) v (some ⟨7, [⟨1, 0⟩]⟩)

variable {v : VariableId} {next : Nat}

theorem entry_of_slot {db : SubscriptionMaps} {slot : Slot} (there : db.slot v = some slot) :
    ∃ e, db.varIdMap v = some e ∧ (db.heap e).masterSubsId = slot.masterSubsId ∧ (db.heap e).virtualSubs = slot.virtualSubs := by
  obtain ⟨e, here, rfl⟩ := Option.map_eq_some_iff.mp there
  exact ⟨e, here, rfl, rfl⟩

/-- One that passes leaves the next id behind. -/
theorem OnlyFirst.pass (only : OnlyFirst v next p) (other : UInt32.ofNat next ≠ 1) : ∃ p₁ p₂,
    perform (.db (.addVirtualSubscription v 0 0)) p = .ok (some p.nextId) p₁ ∧
      perform (.db (.removeVirtualSubscription (UInt32.ofNat next))) p₁ = .ok none p₂ ∧ OnlyFirst v (next + 1) p₂ := by
  have at_v : p.db.slot v = some ⟨7, [⟨1, 0⟩]⟩ := by rw [only.slot, Function.update_self]
  obtain ⟨e, here, master, virtuals⟩ := entry_of_slot at_v
  have free : ∀ w a, p.db.slot w = some a → ¬ a.Holds p.nextId := by
    intro w a there held
    rw [only.slot] at there
    by_cases same : w = v
    · rw [same, Function.update_self] at there
      cases there
      exact other (only.nextId.symm.trans (List.mem_singleton.mp held))
    · rw [Function.update_of_ne same] at there
      cases there
  obtain ⟨s₁, added, indexed₁, slot₁⟩ := SubscriptionMaps.addVirtualSubscription_some only.indexed here 0 free
  rw [master, virtuals] at slot₁
  have at_v₁ : s₁.slot v = some ⟨7, [⟨1, 0⟩, ⟨p.nextId, 0⟩]⟩ := by
    rw [slot₁, Function.update_self]
    rfl
  obtain ⟨e₁, here₁, master₁, virtuals₁⟩ := entry_of_slot at_v₁
  have left : ([⟨1, 0⟩, ⟨p.nextId, 0⟩] : List Subscription).filter (fun h => h.id ≠ p.nextId) = [⟨1, 0⟩] := by
    have stays : (1 : SubscriptionId) ≠ p.nextId := fun same => other (only.nextId.symm.trans same.symm)
    simp [stays]
  obtain ⟨s₂, removed, indexed₂, slot₂⟩ := SubscriptionMaps.removeVirtualSubscription_some indexed₁ here₁
    (show p.nextId ∈ (s₁.heap e₁).virtualSubs.map Subscription.id by simp [virtuals₁])
  rw [virtuals₁, left] at removed
  rw [virtuals₁, left, if_neg (List.cons_ne_nil _ _), Slot.without, left] at slot₂
  refine ⟨_, { makeSubscriptionId { p with db := s₁ } with db := s₂ }, (perform_db_ok (ok_bind added)).trans (if_pos rfl),
    ?_, ?_, indexed₂, ?_⟩
  · rw [← only.nextId]
    exact (perform_db_ok (ok_bind removed)).trans (if_neg Bool.false_ne_true)
  · show p.nextId + 1 = _
    rw [only.nextId, UInt32.ofNat_add next 1]
    rfl
  · show s₂.slot = _
    rw [slot₂, slot₁, Function.update_idem, only.slot, Function.update_idem, master₁]

/-- The ids up to 2^32 pass by. -/
theorem OnlyFirst.passing (count : Nat) : ∀ {next : Nat} {p : Process}, 1 < next → next + count ≤ 2 ^ 32 + 1 →
    OnlyFirst v next p → ∀ rest, Along perform Fresh (passing v next count ++ rest) p →
      ∃ p', OnlyFirst v (next + count) p' ∧ Along perform Fresh rest p' := by
  induction count with
  | zero => exact fun _ _ only rest along => ⟨_, only, along⟩
  | succ count ih =>
    intro next p later bound only rest along
    have other : UInt32.ofNat next ≠ 1 := by
      intro same
      have value := congrArg UInt32.toNat same
      have one : (1 : UInt32).toNat = 1 := rfl
      rw [UInt32.toNat_ofNat', one] at value
      omega
    obtain ⟨p₁, p₂, added, removed, only'⟩ := only.pass other
    obtain ⟨-, -, along'⟩ := along
    rw [added] at along'
    have along₂ : Along perform Fresh (FreshIds.passing v (next + 1) count ++ rest) p₂ := by
      have state : after (perform (.db (.removeVirtualSubscription (UInt32.ofNat next))) p₁) = p₂ := by rw [removed, after_ok]
      rwa [after_ok, state] at along'
    obtain ⟨p', only'', along''⟩ := ih (by omega) (by omega) only' rest along₂
    exact ⟨p', by rwa [Nat.add_right_comm, Nat.add_assoc] at only'', along''⟩

/-- After 2^32 ids the first one is made again, while its virtual subscription is still there. -/
theorem first_id_again : ∃ ops, ¬ Along perform Fresh ops initial := by
  let v := variableId (text "group") (text "name")
  refine ⟨.db (.createEntry v 7 0 0) :: (passing v 2 (2 ^ 32 - 1) ++ [.db (.addVirtualSubscription v 1 0)]), ?_⟩
  rintro ⟨-, along⟩
  obtain ⟨s, created, indexed, slot⟩ : ∃ s, SubscriptionMaps.createEntry v 7 0 1 .empty = .ok 1 s ∧
      SubscriptionMaps.Indexed s ∧ s.slot = Function.update SubscriptionMaps.empty.slot v (some ⟨7, [⟨1, 0⟩]⟩) :=
    SubscriptionMaps.createEntry_some SubscriptionMaps.empty_represents.indexed rfl rfl 0 fun w a there => by cases there
  have performed : SubscriptionMaps.perform (given initial.nextId (.createEntry v 7 0 0)) initial.db = .ok (.subscription 1) s :=
    ok_bind (f := fun i => pure (DbAnswer.subscription i)) created
  have first : perform (.db (.createEntry v 7 0 0)) initial = .ok (some 1) (makeSubscriptionId { initial with db := s }) :=
    (perform_db_ok performed).trans (if_pos rfl)
  rw [first, after_ok] at along
  have only : OnlyFirst v 2 (makeSubscriptionId { initial with db := s }) := ⟨rfl, indexed, slot⟩
  obtain ⟨p, only', ⟨free, -⟩, -⟩ := only.passing (2 ^ 32 - 1) (by omega) (by omega) _ along
  have at_v : p.db.slot v = some ⟨7, [⟨1, 0⟩]⟩ := by rw [only'.slot, Function.update_self]
  obtain ⟨e, here, -, virtuals⟩ := entry_of_slot at_v
  have again : p.nextId = 1 := only'.nextId
  have added : perform (.db (.addVirtualSubscription v 1 0)) p = .ok (some p.nextId) _ :=
    (perform_db_ok (ok_bind (SubscriptionMaps.addVirtualSubscription_eq here 1 p.nextId))).trans (if_pos rfl)
  refine free p.nextId _ added ⟨v, e, here, ?_⟩
  rw [virtuals, again]
  exact List.mem_singleton.mpr rfl

end Oac.FreshIds
