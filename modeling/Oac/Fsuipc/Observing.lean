import Oac.Base.Run
import Oac.Base.Watch
import Oac.Fsuipc.UpdateObserver

/-!
# What the observer tells

Over an adapter that reads a memory the update observer is a watch of that memory
(`Watches`): each poll evaluates once what is due, with its current value
(`observer_exact`).
-/
namespace Oac.Fsuipc
open Base

namespace UpdateObserver
variable {α ρ : Type}

/-- The condition of `check_for_updates` on a value that was queried. -/
def Tells (o : UpdateObserver α) (val : ValuedOffset) : Prop :=
  val.toOffset ∈ o.pendingWelcomes ∨ o.values val.toOffset ≠ some val.value
instance (o : UpdateObserver α) : DecidablePred o.Tells := fun _ => inferInstanceAs (Decidable (_ ∨ _))

/-! ## The cache -/

theorem store_other {o : UpdateObserver α} {val : ValuedOffset} {offset : Offset} (other : offset ≠ val.toOffset) :
    (o.store val).values offset = o.values offset := Function.update_of_ne other ..

theorem store_self (o : UpdateObserver α) (val : ValuedOffset) : (o.store val).values val.toOffset = some val.value :=
  Function.update_self ..

theorem foldl_store (vals : List ValuedOffset) (o : UpdateObserver α) :
    vals.foldl store o = { o with values := (vals.foldl store o).values } := by
  induction vals generalizing o with
  | nil => rfl
  | cons val vals ih =>
    rw [List.foldl_cons, ih]
    rfl

theorem foldl_store_other {vals : List ValuedOffset} {offset : Offset} (other : offset ∉ vals.map ValuedOffset.toOffset)
    (o : UpdateObserver α) : (vals.foldl store o).values offset = o.values offset := by
  induction vals generalizing o with
  | nil => rfl
  | cons val vals ih =>
    rw [List.map_cons, List.mem_cons, not_or] at other
    rw [List.foldl_cons, ih other.2, store_other other.1]

theorem foldl_store_valued {memory : Offset → UInt32} {offsets : List Offset} {offset : Offset} (member : offset ∈ offsets)
    (o : UpdateObserver α) : ((offsets.map (Offset.valued memory)).foldl store o).values offset = some (memory offset) := by
  induction offsets generalizing o with
  | nil => exact absurd member List.not_mem_nil
  | cons first offsets ih =>
    rw [List.map_cons, List.foldl_cons]
    by_cases later : offset ∈ offsets
    · exact ih later _
    · have here : offset = first := (List.mem_cons.mp member).resolve_right later
      subst here
      rw [foldl_store_other (by rw [List.map_map]; simpa [Function.comp_def] using later)]
      exact store_self _ _

/-! ## A poll -/

theorem tells_store {o : UpdateObserver α} {val val' : ValuedOffset} (other : val'.toOffset ≠ val.toOffset) :
    (o.store val).Tells val' ↔ o.Tells val' := by
  unfold Tells
  rw [store_other other]
  rfl

theorem filter_store {o : UpdateObserver α} {val : ValuedOffset} {vals : List ValuedOffset}
    (other : val.toOffset ∉ vals.map ValuedOffset.toOffset) :
    (vals.filter fun val' => (o.store val).Tells val') = vals.filter fun val' => o.Tells val' := by
  apply List.filter_congr
  intro val' member
  have distinct : val'.toOffset ≠ val.toOffset := by
    intro same
    apply other
    rw [← same]
    exact List.mem_map_of_mem member
  simp only [tells_store distinct]

theorem check_eq (updateEval : ValuedOffset → EStateM Exception ρ Unit) (val : ValuedOffset) (o : UpdateObserver α) (r : ρ) :
    check updateEval val (o, r) = if o.Tells val then
      match updateEval val r with
      | .ok _ r' => .ok () (o.store val, r')
      | .error e r' => .error e (o.store val, r')
    else .ok () (o, r) := rfl

/-- The evaluator is called for the values to tell, one after the other. -/
theorem checkAll_ok {updateEval : ValuedOffset → EStateM Exception ρ Unit} {vals : List ValuedOffset}
    (distinct : (vals.map ValuedOffset.toOffset).Nodup) {o o' : UpdateObserver α} {r r' : ρ} {u : Unit}
    (executed : checkAll updateEval vals (o, r) = .ok u (o', r')) :
    (vals.filter fun val => o.Tells val).forM updateEval r = .ok () r' ∧
      o' = (vals.filter fun val => o.Tells val).foldl store o := by
  induction vals generalizing o r with
  | nil =>
    cases executed
    exact ⟨rfl, rfl⟩
  | cons val vals ih =>
    obtain ⟨other, distinct⟩ := List.nodup_cons.mp distinct
    obtain ⟨v, ⟨o₁, r₁⟩, checked, continued⟩ := bind_ok executed
    obtain ⟨evaluated, same⟩ := ih distinct continued
    rw [check_eq] at checked
    by_cases tells : o.Tells val
    · rw [if_pos tells] at checked
      cases result : updateEval val r with
      | error e r₂ => simp [result] at checked
      | ok a r₂ =>
        simp only [result, EStateM.Result.ok.injEq, Prod.mk.injEq, true_and] at checked
        obtain ⟨rfl, rfl⟩ := checked
        rw [filter_store other] at evaluated same
        rw [List.filter_cons_of_pos (by simpa using tells)]
        exact ⟨(ok_bind (f := fun _ => List.forM _ updateEval) result).trans evaluated, same⟩
    · rw [if_neg tells] at checked
      cases checked
      rw [List.filter_cons_of_neg (by simpa using tells)]
      exact ⟨evaluated, same⟩

variable [UserAdapter α] {requests : α → List (Offset × Pointer)} {memory : α → Offset → UInt32}

omit [UserAdapter α] in
theorem onClient_inv {β : Type} {x : EStateM Exception (FsuipcClient α) β} {o o' : UpdateObserver α} {b : β}
    (executed : onClient x o = .ok b o') : ∃ c, x o.client = .ok b c ∧ o' = { o with client := c } := by
  unfold onClient at executed
  split at executed
  · cases executed
    exact ⟨_, ‹_›, rfl⟩
  · cases executed

theorem startObservingAll_inv {offsets : List Offset} {o o' : UpdateObserver α} {u : Unit}
    (executed : startObservingAll offsets o = .ok u o') : ∃ vals c, FsuipcClient.query offsets o.client = .ok vals c ∧
      o' = vals.foldl store { observe offsets o with client := c } := by
  unfold startObservingAll at executed
  obtain ⟨v, o₁, observed, continued⟩ := bind_ok executed
  cases observed
  obtain ⟨vals, o₂, queried, last⟩ := bind_ok continued
  cases last
  obtain ⟨c, query, rfl⟩ := onClient_inv queried
  exact ⟨vals, c, query, rfl⟩

theorem checkForUpdates_inv {updateEval : ValuedOffset → EStateM Exception ρ Unit} {o o' : UpdateObserver α} {r r' : ρ}
    {u : Unit} (executed : checkForUpdates updateEval (o, r) = .ok u (o', r')) : ∃ vals c s,
      FsuipcClient.query o.offsets o.client = .ok vals c ∧ checkAll updateEval vals ({ o with client := c }, r) = .ok () s ∧
        o' = { s.1 with pendingWelcomes := [] } ∧ r' = s.2 := by
  unfold checkForUpdates at executed
  cases queried : onClient (FsuipcClient.query o.offsets) o with
  | error e o₁ => simp [queried] at executed
  | ok vals o₁ =>
    simp only [queried] at executed
    obtain ⟨c, query, rfl⟩ := onClient_inv queried
    cases checked : checkAll updateEval vals ({ o with client := c }, r) with
    | error e s => simp [checked] at executed
    | ok a s =>
      simp only [checked, EStateM.Result.ok.injEq, Prod.mk.injEq, true_and] at executed
      exact ⟨vals, c, s, query, checked, executed.1.symm, executed.2.symm⟩

/-- What the adapter of the observer reads. -/
def current (memory : α → Offset → UInt32) (o : UpdateObserver α) : Offset → UInt32 := memory o.client.userAdapter

/-- The values to tell at the next poll. -/
def telling (memory : α → Offset → UInt32) (o : UpdateObserver α) : List ValuedOffset :=
  (o.offsets.map (Offset.valued (current memory o))).filter fun val => o.Tells val

/-- A poll that returns. -/
structure Polled (requests : α → List (Offset × Pointer)) (memory : α → Offset → UInt32) (o o' : UpdateObserver α) :
    Prop where
  idle : requests o'.client.userAdapter = []
  unchanged : current memory o' = current memory o
  kept : o'.offsets = o.offsets
  welcomed : o'.pendingWelcomes = []
  observed : ∀ offset ∈ o.offsets, o'.values offset = some (current memory o offset)
  others : ∀ offset ∉ o.offsets, o'.values offset = o.values offset

omit [UserAdapter α] in
theorem mem_telling {o : UpdateObserver α} {val : ValuedOffset} : val ∈ telling memory o ↔
    val.toOffset ∈ o.offsets ∧ val.value = current memory o val.toOffset ∧ o.Tells val := by
  unfold telling
  rw [List.mem_filter, List.mem_map, decide_eq_true_eq, ← and_assoc]
  apply and_congr_left'
  constructor
  · rintro ⟨offset, member, rfl⟩
    exact ⟨member, rfl⟩
  · rintro ⟨member, same⟩
    exact ⟨val.toOffset, member, by rw [Offset.valued, ← same]⟩

omit [UserAdapter α] in
theorem telling_distinct {o : UpdateObserver α} (distinct : o.offsets.Nodup) :
    ((telling memory o).map ValuedOffset.toOffset).Nodup := by
  refine List.Nodup.sublist (List.filter_sublist.map _) ?_
  rw [List.map_map]
  simpa [Function.comp_def] using distinct

theorem checkForUpdates_ok (faithful : UserAdapter.Faithful requests memory)
    {updateEval : ValuedOffset → EStateM Exception ρ Unit} {o o' : UpdateObserver α} {r r' : ρ} {u : Unit}
    (idle : requests o.client.userAdapter = []) (distinct : o.offsets.Nodup)
    (executed : checkForUpdates updateEval (o, r) = .ok u (o', r')) :
    (telling memory o).forM updateEval r = .ok () r' ∧ Polled requests memory o o' := by
  obtain ⟨vals, c, s, query, checked, rfl, rfl⟩ := checkForUpdates_inv executed
  obtain ⟨rfl, idle', kept⟩ := FsuipcClient.query_reads faithful idle query
  have different : ((o.offsets.map (Offset.valued (memory o.client.userAdapter))).map ValuedOffset.toOffset).Nodup := by
    rw [List.map_map]
    simpa [Function.comp_def] using distinct
  obtain ⟨evaluated, same⟩ := checkAll_ok different checked
  refine ⟨evaluated, ?_⟩
  have fields := foldl_store (telling memory o) { o with client := c }
  have same : s.1 = (telling memory o).foldl store { o with client := c } := same
  rw [same, fields]
  refine ⟨idle', kept, rfl, rfl, ?_, ?_⟩
  · intro offset member
    show ((telling memory o).foldl store { o with client := c }).values offset = _
    by_cases tells : o.Tells (offset.valued (current memory o))
    · have told : telling memory o = ((o.offsets.filter fun offset => o.Tells (offset.valued (current memory o))).map
          (Offset.valued (current memory o))) := by
        unfold telling
        rw [List.filter_map]
        rfl
      rw [told]
      exact foldl_store_valued (List.mem_filter.mpr ⟨member, decide_eq_true tells⟩) _
    · rw [foldl_store_other]
      · exact not_not.mp fun other => tells (.inr other)
      · intro told
        obtain ⟨val, among, here⟩ := List.mem_map.mp told
        obtain ⟨-, same, tells'⟩ := mem_telling.mp among
        rw [here] at same
        exact tells (by rw [Offset.valued, ← same, ← here]; exact tells')
  · intro offset other
    show ((telling memory o).foldl store { o with client := c }).values offset = _
    rw [foldl_store_other]
    intro told
    obtain ⟨val, among, here⟩ := List.mem_map.mp told
    exact other (here ▸ (mem_telling.mp among).1)

/-- A start that returns. -/
structure Started (requests : α → List (Offset × Pointer)) (memory : α → Offset → UInt32) (offsets : List Offset)
    (o o' : UpdateObserver α) : Prop where
  idle : requests o'.client.userAdapter = []
  unchanged : current memory o' = current memory o
  distinct : o.offsets.Nodup → o'.offsets.Nodup
  more : ∀ offset, offset ∈ o'.offsets ↔ offset ∈ o.offsets ∨ offset ∈ offsets
  welcomed : ∀ offset, offset ∈ o'.pendingWelcomes ↔ offset ∈ o.pendingWelcomes ∨ offset ∈ offsets
  asked : ∀ offset ∈ offsets, o'.values offset = some (current memory o offset)
  others : ∀ offset ∉ offsets, o'.values offset = o.values offset

theorem mem_foldl_insert {offsets : List Offset} {offset : Offset} (observed : List Offset) :
    offset ∈ offsets.foldl (fun observed offset => observed.insert offset) observed ↔
      offset ∈ observed ∨ offset ∈ offsets := by
  induction offsets generalizing observed with
  | nil => simp
  | cons first offsets ih =>
    rw [List.foldl_cons, ih, List.mem_insert_iff, List.mem_cons]
    tauto

theorem foldl_insert_nodup (offsets : List Offset) {observed : List Offset} (distinct : observed.Nodup) :
    (offsets.foldl (fun observed offset => observed.insert offset) observed).Nodup := by
  induction offsets generalizing observed with
  | nil => exact distinct
  | cons first offsets ih => exact ih distinct.insert

theorem startObservingAll_ok (faithful : UserAdapter.Faithful requests memory) {offsets : List Offset}
    {o o' : UpdateObserver α} {u : Unit} (idle : requests o.client.userAdapter = [])
    (executed : startObservingAll offsets o = .ok u o') : Started requests memory offsets o o' := by
  obtain ⟨vals, c, query, rfl⟩ := startObservingAll_inv executed
  obtain ⟨rfl, idle', kept⟩ := FsuipcClient.query_reads faithful idle query
  have fields := foldl_store (offsets.map (Offset.valued (memory o.client.userAdapter))) { observe offsets o with client := c }
  show Started requests memory offsets o
    ((offsets.map (Offset.valued (memory o.client.userAdapter))).foldl store { observe offsets o with client := c })
  rw [fields]
  refine ⟨idle', kept, foldl_insert_nodup offsets, fun offset => mem_foldl_insert _, fun offset => mem_foldl_insert _, ?_, ?_⟩
  · intro offset member
    exact foldl_store_valued member _
  · intro offset other
    refine foldl_store_other ?_ { observe offsets o with client := c }
    rw [List.map_map]
    simpa [Function.comp_def] using other

/-! ## Runs -/

/-- The evaluator, with a record of the values it is called with. -/
def recording (updateEval : ValuedOffset → EStateM Exception ρ Unit) (val : ValuedOffset) :
    EStateM Exception (List ValuedOffset × ρ) Unit := fun s =>
  match updateEval val s.2 with
  | .ok _ r => .ok () (s.1 ++ [val], r)
  | .error e r => .error e (s.1 ++ [val], r)

theorem forM_recording {updateEval : ValuedOffset → EStateM Exception ρ Unit} {vals : List ValuedOffset}
    {before after : List ValuedOffset} {r r' : ρ} {u : Unit}
    (executed : vals.forM (recording updateEval) (before, r) = .ok u (after, r')) : after = before ++ vals := by
  induction vals generalizing before r with
  | nil =>
    cases executed
    exact (List.append_nil _).symm
  | cons val vals ih =>
    obtain ⟨v, ⟨before', r₁⟩, recorded, continued⟩ := bind_ok (f := fun _ => vals.forM (recording updateEval)) executed
    unfold recording at recorded
    split at recorded
    · cases recorded
      rw [ih continued, List.append_assoc]
      rfl
    · cases recorded

/-- What happens to an observer. The evaluator works on a state of its own, whatever it is
    at a poll. -/
inductive Event (α ρ : Type) where
  | startObserving (offsets : List Offset)
  | stopObserving (offset : Offset)
  | checkForUpdates (r : ρ)
  /-- the memory changes -/
  | changed (userAdapter : α)

/-- The calls that return, beside the watch that they should be. -/
def Step (requests : α → List (Offset × Pointer)) (memory : α → Offset → UInt32)
    (updateEval : ValuedOffset → EStateM Exception ρ Unit) (before : UpdateObserver α × Watch Offset UInt32) :
    Event α ρ → UpdateObserver α × Watch Offset UInt32 → Prop
  | .startObserving offsets, now => startObservingAll offsets before.1 = .ok () now.1 ∧
      now.2 = before.2.start (current memory before.1) { offset | offset ∈ offsets }
  | .stopObserving offset, now => now = (before.1.stopObserving offset, before.2.stop offset)
  | .checkForUpdates r, now => (∃ r', checkForUpdates updateEval (before.1, r) = .ok () (now.1, r')) ∧
      now.2 = before.2.poll (current memory before.1)
  | .changed userAdapter, now => requests userAdapter = requests before.1.client.userAdapter ∧
      now = ({ before.1 with client := { before.1.client with userAdapter := userAdapter } }, before.2)

def create (userAdapter : α) : UpdateObserver α := ⟨⟨userAdapter, 0⟩, [], [], fun _ => none⟩

/-- The observer is a watch: its three containers are those of the watch. -/
structure Watches (requests : α → List (Offset × Pointer)) (o : UpdateObserver α) (watch : Watch Offset UInt32) :
    Prop where
  idle : requests o.client.userAdapter = []
  distinct : o.offsets.Nodup
  observed : ∀ offset, offset ∈ o.offsets ↔ offset ∈ watch.observed
  welcome : ∀ offset, offset ∈ o.pendingWelcomes ↔ offset ∈ watch.welcome
  seen : o.values = watch.seen
  primed : watch.Primed

omit [UserAdapter α] in
theorem create_watches {userAdapter : α} (idle : requests userAdapter = []) :
    Watches requests (create userAdapter) Watch.idle :=
  ⟨idle, List.nodup_nil, by simp [create, Watch.idle], by simp [create, Watch.idle], rfl, Watch.idle_primed⟩

variable {updateEval : ValuedOffset → EStateM Exception ρ Unit} {o o' : UpdateObserver α} {watch : Watch Offset UInt32}

omit [UserAdapter α] in
theorem Started.watches {offsets : List Offset} (started : Started requests memory offsets o o')
    (watches : Watches requests o watch) :
    Watches requests o' (watch.start (current memory o) { offset | offset ∈ offsets }) := by
  obtain ⟨idle, -, distinct, more, welcomed, asked, others⟩ := started
  refine ⟨idle, distinct watches.distinct, ?_, ?_, ?_, watches.primed.start⟩
  · intro offset
    rw [more, watches.observed]
    rfl
  · intro offset
    rw [welcomed, watches.welcome]
    rfl
  · funext offset
    by_cases member : offset ∈ ({ offset | offset ∈ offsets } : Set Offset)
    · exact (asked offset member).trans (Watch.reading_of_mem member _).symm
    · rw [others offset member, watches.seen]
      exact (Watch.reading_of_notMem member _).symm

omit [UserAdapter α] in
theorem Polled.watches (polled : Polled requests memory o o') (watches : Watches requests o watch) :
    Watches requests o' (watch.poll (current memory o)) := by
  obtain ⟨idle, -, kept, welcomed, observed, others⟩ := polled
  refine ⟨idle, kept ▸ watches.distinct, ?_, ?_, ?_, Watch.poll_primed⟩
  · intro offset
    rw [kept]
    exact watches.observed offset
  · intro offset
    rw [welcomed]
    exact iff_of_false List.not_mem_nil id
  · funext offset
    by_cases member : offset ∈ o.offsets
    · rw [observed offset member]
      exact (Watch.reading_of_mem ((watches.observed offset).mp member) _).symm
    · rw [others offset member, watches.seen]
      exact (Watch.reading_of_notMem (fun watched => member ((watches.observed offset).mpr watched)) _).symm

omit [UserAdapter α] in
theorem Watches.stop (watches : Watches requests o watch) (offset : Offset) :
    Watches requests (o.stopObserving offset) (watch.stop offset) := by
  obtain ⟨idle, distinct, observed, welcome, seen, primed⟩ := watches
  refine ⟨idle, distinct.filter _, ?_, welcome, seen, primed.stop⟩
  intro offset'
  show offset' ∈ o.offsets.filter (· ≠ offset) ↔ offset' ∈ watch.observed \ {offset}
  rw [List.mem_filter, decide_eq_true_eq, observed]
  rfl

theorem Watches.step (faithful : UserAdapter.Faithful requests memory) {before now : UpdateObserver α × Watch Offset UInt32}
    {event : Event α ρ} (watches : Watches requests before.1 before.2)
    (step : Step requests memory updateEval before event now) : Watches requests now.1 now.2 := by
  cases event with
  | startObserving offsets =>
    obtain ⟨executed, same⟩ := step
    rw [same]
    exact (startObservingAll_ok faithful watches.idle executed).watches watches
  | stopObserving offset =>
    cases step
    exact watches.stop offset
  | checkForUpdates r =>
    obtain ⟨⟨r', executed⟩, same⟩ := step
    rw [same]
    exact (checkForUpdates_ok faithful watches.idle watches.distinct executed).2.watches watches
  | changed userAdapter =>
    obtain ⟨still, rfl⟩ := step
    obtain ⟨idle, distinct, observed, welcome, seen, primed⟩ := watches
    exact ⟨still.trans idle, distinct, observed, welcome, seen, primed⟩

omit [UserAdapter α] in
theorem Watches.telling (watches : Watches requests o watch) (val : ValuedOffset) :
    val ∈ telling memory o ↔ val.toOffset ∈ watch.due (current memory o) ∧ val.value = current memory o val.toOffset := by
  rw [mem_telling, watches.observed]
  unfold Tells Watch.due
  rw [watches.welcome, watches.seen]
  constructor
  · rintro ⟨observed, same, tells⟩
    rw [same] at tells
    exact ⟨⟨observed, tells⟩, same⟩
  · rintro ⟨⟨observed, tells⟩, same⟩
    rw [← same] at tells
    exact ⟨observed, same, tells⟩

omit [UserAdapter α] in
theorem checkAll_returns {updateEval : ValuedOffset → EStateM Exception ρ Unit}
    (returns : ∀ val r, ∃ r', updateEval val r = .ok () r') (vals : List ValuedOffset) (o : UpdateObserver α) (r : ρ) :
    ∃ s, checkAll updateEval vals (o, r) = .ok () s := by
  induction vals generalizing o r with
  | nil => exact ⟨(o, r), rfl⟩
  | cons val vals ih =>
    have checked : ∃ s, check updateEval val (o, r) = .ok () s := by
      rw [check_eq]
      by_cases tells : o.Tells val
      · obtain ⟨r', evaluated⟩ := returns val r
        rw [if_pos tells, evaluated]
        exact ⟨_, rfl⟩
      · rw [if_neg tells]
        exact ⟨_, rfl⟩
    obtain ⟨s, checked⟩ := checked
    obtain ⟨s', continued⟩ := ih s.1 s.2
    exact ⟨s', (ok_bind checked).trans continued⟩

theorem checkForUpdates_returns (reliable : UserAdapter.Reliable α) {updateEval : ValuedOffset → EStateM Exception ρ Unit}
    (returns : ∀ val r, ∃ r', updateEval val r = .ok () r') (o : UpdateObserver α) (r : ρ) :
    ∃ s, checkForUpdates updateEval (o, r) = .ok () s := by
  obtain ⟨vals, c, result, -⟩ := FsuipcClient.query_returns reliable o.offsets o.client
  have queried : onClient (FsuipcClient.query o.offsets) o = .ok vals { o with client := c } := by
    simp only [onClient, result]
  obtain ⟨s, checked⟩ := checkAll_returns returns vals { o with client := c } r
  exact ⟨({ s.1 with pendingWelcomes := [] }, s.2), by simp only [checkForUpdates, queried, checked]⟩

/-- In every run every observed offset has a cached value, and a poll calls the evaluator
    once for each offset that is due, with its current value, and for no other. -/
theorem observer_exact (faithful : UserAdapter.Faithful requests memory)
    (updateEval : ValuedOffset → EStateM Exception ρ Unit) (userAdapter : α) (idle : requests userAdapter = [])
    (o : UpdateObserver α) (watch : Watch Offset UInt32)
    (run : Run (Step requests memory updateEval) (create userAdapter, Watch.idle) (o, watch)) :
    (∀ offset ∈ o.offsets, (o.values offset).isSome) ∧
      (∀ r r' o' calls, checkForUpdates (recording updateEval) (o, ([], r)) = .ok () (o', (calls, r')) →
        (calls.map ValuedOffset.toOffset).Nodup ∧ ∀ val, val ∈ calls ↔
          val.toOffset ∈ watch.due (current memory o) ∧ val.value = current memory o val.toOffset) ∧
      (UserAdapter.Reliable α → (∀ val r, ∃ r', updateEval val r = .ok () r') →
        ∀ r, ∃ s, checkForUpdates (recording updateEval) (o, ([], r)) = .ok () s) := by
  have watches : Watches requests o watch := run.invariant (I := fun s => Watches requests s.1 s.2)
    (create_watches idle) fun before last => before.step faithful last
  refine ⟨?_, ?_, ?_⟩
  · intro offset member
    rw [watches.seen]
    exact watches.primed offset ((watches.observed offset).mp member)
  · intro r r' o' calls executed
    obtain ⟨evaluated, -⟩ := checkForUpdates_ok faithful watches.idle watches.distinct executed
    have all := forM_recording evaluated
    rw [List.nil_append] at all
    subst all
    exact ⟨telling_distinct watches.distinct, watches.telling⟩
  · intro reliable returns r
    refine checkForUpdates_returns reliable ?_ o ([], r)
    rintro val ⟨calls, r⟩
    obtain ⟨r', evaluated⟩ := returns val r
    exact ⟨(calls ++ [val], r'), by simp only [recording, evaluated]⟩

/-- The transponder code is observed, over the dummy adapter. -/
theorem observer_exact_transponder : ∃ o : UpdateObserver DummyUserAdapter,
    o.offsets = [⟨0x354, .word⟩] ∧ (o.values ⟨0x354, .word⟩).isSome ∧ ∀ o' calls,
      checkForUpdates (recording fun _ => (pure () : EStateM Exception Unit Unit)) (o, ([], ())) =
        .ok () (o', (calls, ())) → ∀ val, val ∈ calls ↔ val = ⟨⟨0x354, .word⟩, 0⟩ := by
  obtain ⟨o, here⟩ : ∃ o, startObservingAll [⟨0x354, .word⟩] (create DummyUserAdapter.create) = .ok () o := ⟨_, rfl⟩
  have step : Step DummyUserAdapter.readRequests DummyUserAdapter.memory (fun _ => (pure () : EStateM Exception Unit Unit))
      (create DummyUserAdapter.create, Watch.idle) (.startObserving [⟨0x354, .word⟩])
      (o, Watch.idle.start (current DummyUserAdapter.memory (create DummyUserAdapter.create))
        { offset | offset ∈ [⟨0x354, .word⟩] }) := ⟨here, rfl⟩
  obtain ⟨cached, exact, -⟩ := observer_exact DummyUserAdapter.faithful _ _ rfl o _ ((Run.refl _).next step)
  cases here
  refine ⟨_, rfl, cached _ List.mem_cons_self, ?_⟩
  intro o' calls executed val
  rw [(exact () () o' calls executed).2 val]
  constructor
  · rintro ⟨⟨observed, -⟩, same⟩
    have asked : val.toOffset = ⟨0x354, .word⟩ := List.mem_singleton.mp (observed.resolve_left id)
    rw [asked] at same
    obtain ⟨offset, value⟩ := val
    cases asked
    cases same
    rfl
  · rintro rfl
    exact ⟨⟨.inr List.mem_cons_self, .inl (.inr List.mem_cons_self)⟩, rfl⟩

end UpdateObserver
end Oac.Fsuipc
