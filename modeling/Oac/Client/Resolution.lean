import Oac.Client.Receive

/-!
# Resolution of requests

Where each submitted request is: in a posted task, in the pool, or among the resolved
(`Conserved`). A request is lost when a handler pops it and then raises, and stays in the
pool for good when the receive loop ends other than by an error it reports.
-/
namespace Oac.Client
open Base Proto ConnectionManager

namespace ConnectionManager

/-- How often a request is found in the three places. -/
def places (m : ConnectionManager) (id : Nat) : Nat :=
  (m.tasks.map Task.id).count id + m.requestPool.ids.count id + (m.resolved.map Prod.fst).count id

/-- Every request that was submitted is in one place, and nothing waits for a reply once the
    receive loop has ended. -/
structure Conserved (m : ConnectionManager) : Prop where
  once : ∀ id, m.places id = if id < m.submitted then 1 else 0
  settled : ¬ m.Reading → m.requestPool = .empty
  connected : m.Reading → m.state.connected = true

/-- The requests that wait for the message are resolved by it. -/
def Acceptable (m : ConnectionManager) : Message → Prop
  | .subscriptionRep msg => m.requestPool.subscriptionRequests (variableId msg.varGrp msg.varName) ≠ [] →
      msg.st = .noSuchVar ∨ (msg.st = .subscribed ∧
        (m.db.Defined (variableId msg.varGrp msg.varName) ∨ ¬ m.db.MasterDefined msg.subsId))
  | .unsubscriptionRep msg => m.requestPool.unsubscriptionRequests msg.subsId ≠ [] →
      msg.st = .noSuchSubscription ∨ msg.st = .unsubscribed
  | _ => True

/-- The task resolves its request without the server. -/
def Immediate (m : ConnectionManager) : Task → Prop
  | .subscription req => m.db.Defined req.varId
  | .unsubscription req => ∀ varId, m.db.virtualSubsIdMap req.virtualSubsId = some varId →
      ∃ s ∈ m.db.virtualSubs varId, s.id ≠ req.virtualSubsId
  | .variableUpdate _ => True

/-- Replies are acceptable, nothing waits for one when the receive loop ends otherwise than
    by a reported error, and nothing starts to wait for one after that. -/
def Resolvable (m : ConnectionManager) : Event → Prop
  | .read (.ok block) => m.phase = .receiving → ∀ msg buff, deserializeFrom (m.filled block) = .ok msg buff → Acceptable m msg
  | .read (.error e) => m.phase = .receiving → e ≠ .connectionReset → m.requestPool = .empty
  | .ran task => ¬ m.Reading → Immediate m task
  | .closed => m.requestPool = .empty
  | _ => True

/-! ## Counting -/

theorem count_subscriptions (pool : RequestPool) (varId : VariableId) (id : Nat) :
    pool.ids.count id = ((pool.subscriptionRequests varId).map SubscriptionRequest.id).count id +
      (pool.popSubscriptionRequests varId).2.ids.count id := by
  have split : (pool.subsReqs.filter (fun req => req.varId = varId) ++ pool.subsReqs.filter fun req => req.varId ≠ varId).Perm
      pool.subsReqs := by
    simpa using List.filter_append_perm (fun req : SubscriptionRequest => decide (req.varId = varId)) pool.subsReqs
  have count := (split.map SubscriptionRequest.id).count_eq id
  rw [List.map_append, List.count_append] at count
  simp only [RequestPool.ids, RequestPool.popSubscriptionRequests, RequestPool.subscriptionRequests, List.count_append]
  omega

theorem count_unsubscriptions (pool : RequestPool) (subsId : SubscriptionId) (id : Nat) :
    pool.ids.count id = ((pool.unsubscriptionRequests subsId).map UnsubscriptionRequest.id).count id +
      (pool.popUnsubscriptionRequests subsId).2.ids.count id := by
  have split : (pool.unsubsReqs.filter (fun req => req.masterSubsId = subsId) ++
      pool.unsubsReqs.filter fun req => req.masterSubsId ≠ subsId).Perm pool.unsubsReqs := by
    simpa using List.filter_append_perm (fun req : UnsubscriptionRequest => decide (req.masterSubsId = subsId)) pool.unsubsReqs
  have count := (split.map UnsubscriptionRequest.id).count_eq id
  rw [List.map_append, List.count_append] at count
  simp only [RequestPool.ids, RequestPool.popUnsubscriptionRequests, RequestPool.unsubscriptionRequests, List.count_append]
  omega

/-- An error that disconnects takes every waiting request along. -/
theorem onError_places (e : Exception) (m : ConnectionManager) (id : Nat) : (onError e true m).places id = m.places id := by
  have failed : (m.requestPool.propagateError e).map Prod.fst = m.requestPool.ids := by
    simp [RequestPool.propagateError, Function.comp_def]
  have none : RequestPool.empty.ids.count id = 0 := rfl
  unfold places onError
  simp only [↓reduceIte, List.map_append, List.count_append, failed, none]
  omega

/-- A manager whose popped requests have been resolved. -/
theorem popped_places (m m' : ConnectionManager) {ids : List Nat} (answers : List (Nat × Resolution))
    (tasks : m'.tasks = m.tasks) (resolved : m'.resolved = m.resolved ++ answers) (answered : answers.map Prod.fst = ids)
    (popped : ∀ id, m.requestPool.ids.count id = ids.count id + m'.requestPool.ids.count id) (id : Nat) :
    m'.places id = m.places id := by
  have taken := popped id
  unfold places
  rw [tasks, resolved, List.map_append, List.count_append, answered]
  omega

theorem map_resolution (ids : List Nat) (resolution : Resolution) :
    (ids.map fun id => (id, resolution)).map Prod.fst = ids := by
  simp [Function.comp_def]

/-- What an acceptable message does leaves each request in one place. -/
theorem ReplyEffect.places {m : ConnectionManager} {msg : Message} {result : EStateM.Result Exception ConnectionManager Unit}
    (effect : ReplyEffect m msg result) (acceptable : Acceptable m msg) (id : Nat) : (after result).places id = m.places id := by
  cases effect with
  | unasked none =>
    refine popped_places m _ [] ?_ ?_ rfl ?_ id
    · rfl
    · exact (List.append_nil _).symm
    · intro id
      rw [count_subscriptions m.requestPool _ id, none]
      rfl
  | refused some status =>
    refine popped_places m _ _ ?_ rfl (map_resolution _ _) ?_ id
    · rfl
    · exact count_subscriptions m.requestPool _
  | granted some status bindable answered pairs =>
    refine popped_places m _ _ ?_ ?_ answered ?_ id
    · rfl
    · rfl
    · exact count_subscriptions m.requestPool _
  | clashing some status undefined used =>
    rcases acceptable some with refused | ⟨-, defined | unused⟩
    · rw [status] at refused
      cases refused
    · exact absurd defined undefined
    · exact absurd used unused
  | oddSubscription some status =>
    rcases acceptable some with refused | ⟨granted, -⟩
    · exact absurd refused status.1
    · exact absurd granted status.2
  | unaskedEnd none =>
    refine popped_places m _ [] ?_ ?_ rfl ?_ id
    · rfl
    · exact (List.append_nil _).symm
    · intro id
      rw [count_unsubscriptions m.requestPool _ id, none]
      rfl
  | ended resolution some status =>
    refine popped_places m _ _ ?_ rfl (map_resolution _ resolution) ?_ id
    · rfl
    · exact count_unsubscriptions m.requestPool _
  | oddEnd some status => exact absurd (acceptable some) (not_or.mpr status)
  | updated calls errors => rfl
  | unexpected e other => rfl

/-- A new request is in the tasks. -/
theorem submit_places (submission : Submission) (m : ConnectionManager) (id : Nat) :
    (submit submission m).places id = m.places id + [m.submitted].count id := by
  have number : (submission.task m.submitted).id = m.submitted := by cases submission <;> rfl
  unfold ConnectionManager.places submit
  simp only [List.map_append, List.count_append, List.map_cons, List.map_nil, number]
  omega

/-- A task that runs takes its request from the tasks to the pool or the resolved. -/
theorem TaskEffect.places {m m' : ConnectionManager} {task : Task} (effect : TaskEffect m task m') (id : Nat) :
    m'.places id = m.places id + [task.id].count id := by
  unfold ConnectionManager.places
  cases effect with
  | requested undefined =>
    simp only [RequestPool.insertSubscription, RequestPool.ids, List.map_append, List.count_append, List.map_cons,
      List.map_nil, Task.id]
    omega
  | ended maps removed less =>
    simp only [RequestPool.insertUnsubscription, RequestPool.ids, List.map_append, List.count_append, List.map_cons,
      List.map_nil, Task.id]
    omega
  | _ =>
    simp only [List.map_append, List.count_append, List.map_cons, List.map_nil, Task.id]
    omega

/-- Where the requests are, and whether the loop goes on, are as before. -/
def Quiet (m m' : ConnectionManager) : Prop :=
  m'.tasks = m.tasks ∧ m'.requestPool = m.requestPool ∧ m'.resolved = m.resolved ∧ m'.submitted = m.submitted ∧
    m'.state = m.state ∧ (m.Reading → m'.Reading)

theorem Quiet.trans {m m' m'' : ConnectionManager} (first : Quiet m m') (second : Quiet m' m'') : Quiet m m'' := by
  obtain ⟨tasks, pool, resolved, submitted, state, reading⟩ := first
  obtain ⟨tasks', pool', resolved', submitted', state', reading'⟩ := second
  exact ⟨tasks'.trans tasks, pool'.trans pool, resolved'.trans resolved, submitted'.trans submitted, state'.trans state,
    reading' ∘ reading⟩

theorem Quiet.places {m m' : ConnectionManager} (quiet : Quiet m m') (id : Nat) : m'.places id = m.places id := by
  obtain ⟨tasks, pool, resolved, -⟩ := quiet
  unfold ConnectionManager.places
  rw [tasks, pool, resolved]

theorem getValue_quiet (bytesRead : Except Exception (List UInt8)) : Keeps Quiet (getValue bytesRead) := by
  intro m
  cases bytesRead <;> exact ⟨rfl, rfl, rfl, rfl, rfl, id⟩

theorem deserializeInput_quiet : Keeps Quiet deserializeInput := by
  intro m
  unfold deserializeInput
  split <;> exact ⟨rfl, rfl, rfl, rfl, rfl, id⟩

theorem greeted_quiet (msg : Message) : Keeps Quiet (greeted msg) := by
  intro m
  cases msg with
  | beginSession msg => exact ⟨rfl, rfl, rfl, rfl, rfl, fun _ => .inr rfl⟩
  | _ => exact ⟨rfl, rfl, rfl, rfl, rfl, id⟩

theorem handshakeBody_quiet (bytesRead : Except Exception (List UInt8)) : Keeps Quiet (handshakeBody bytesRead) :=
  keeps_bind (R := Quiet) Quiet.trans (getValue_quiet bytesRead) fun _ =>
    keeps_bind (R := Quiet) Quiet.trans deserializeInput_quiet greeted_quiet

/-- A task that needs no server puts nothing into the pool. -/
theorem TaskEffect.immediate {m m' : ConnectionManager} {task : Task} (effect : TaskEffect m task m')
    (immediate : Immediate m task) : m'.requestPool = m.requestPool := by
  cases effect with
  | requested undefined => exact absurd immediate undefined
  | ended maps removed less =>
    obtain ⟨varId, refers, only⟩ := SubscriptionDb.removeVirtualSubscription_last removed
    obtain ⟨s, among, other⟩ := immediate varId refers
    exact absurd (only s among) other
  | _ => rfl

/-! ## Steps -/

/-- A loop that ends with a reported error. -/
theorem failed_conserved {m : ConnectionManager} (e : Exception)
    (once : ∀ id, m.places id = if id < m.submitted then 1 else 0) : Conserved (failed e m) where
  once id := (onError_places e m id).trans (once id)
  settled _ := rfl
  connected reading := absurd rfl reading.not_stopped

theorem caught_conserved {result : EStateM.Result Exception ConnectionManager Unit}
    (once : ∀ id, (after result).places id = if id < (after result).submitted then 1 else 0)
    (connected : (after result).state.connected = true) : Conserved (caught result) := by
  unfold caught
  split
  · exact ⟨once, fun stopped => absurd (.inr rfl) stopped, fun _ => connected⟩
  · exact ⟨once, fun stopped => absurd (.inr rfl) stopped, fun _ => connected⟩
  · exact failed_conserved _ once

theorem onHandshakeRead_conserved {m : ConnectionManager} (conserved : Conserved m) (reading : m.Reading)
    (bytesRead : Except Exception (List UInt8)) : Conserved (onHandshakeRead bytesRead m) := by
  have quiet : Quiet m (after (handshakeBody bytesRead m)) := handshakeBody_quiet bytesRead m
  obtain ⟨-, -, -, submitted, state, still⟩ := id quiet
  have once : ∀ id, (after (handshakeBody bytesRead m)).places id =
      if id < (after (handshakeBody bytesRead m)).submitted then 1 else 0 := fun id => by
    rw [quiet.places id, submitted]
    exact conserved.once id
  have going : Conserved (after (handshakeBody bytesRead m)) :=
    ⟨once, fun stopped => absurd (still reading) stopped, fun _ => state ▸ conserved.connected reading⟩
  unfold onHandshakeRead
  generalize handshakeBody bytesRead m = result at once going
  unfold caughtHandshake
  split
  · exact going
  · split
    · exact failed_conserved _ once
    · exact going
  · split <;> exact failed_conserved _ once

theorem onMessageReceived_conserved {m : ConnectionManager} (conserved : Conserved m) (pending : m.phase = .receiving)
    {bytesRead : Except Exception (List UInt8)} (resolvable : Resolvable m (.read bytesRead)) :
    Conserved (after (onMessageReceived bytesRead m)) := by
  have connected := conserved.connected (.inr pending)
  cases bytesRead with
  | ok block =>
    rw [onMessageReceived_ok pending, after_ok, receive]
    cases executed : deserializeFrom (m.filled block) with
    | ok msg buff =>
      rw [ok_bind (deserializeInput_ok executed)]
      have effect := dispatch_effect (m.taken block buff msg) msg
      obtain ⟨submitted, state⟩ := effect.session
      refine caught_conserved (fun id => ?_) (state ▸ connected)
      rw [effect.places (resolvable pending msg buff executed) id, submitted]
      exact conserved.once id
    | error e buff =>
      rw [error_bind (deserializeInput_error executed)]
      exact caught_conserved conserved.once connected
  | error e =>
    rw [onMessageReceived, if_neg (by simp [pending])]
    cases e with
    | connectionReset => exact failed_conserved _ conserved.once
    | _ => exact ⟨conserved.once, fun _ => resolvable pending (by simp), fun reading => absurd rfl reading.not_stopped⟩

end ConnectionManager

theorem conserved_step {m m' : ConnectionManager} {e : Event} (conserved : Conserved m) (step : Step m e m')
    (resolvable : Resolvable m e) : Conserved m' := by
  cases step with
  | handshake pending transfers => exact onHandshakeRead_conserved conserved (.inl pending) _
  | read pending transfers =>
    rename_i bytesRead
    by_cases closing : m.phase = .closing
    · have ignored : onMessageReceived bytesRead m = .ok () { m with phase := .stopped } := if_pos closing
      rw [ignored]
      exact ⟨conserved.once, fun _ => conserved.settled (by simp [Reading, closing]),
        fun reading => absurd rfl reading.not_stopped⟩
    · exact onMessageReceived_conserved conserved (pending.resolve_right closing) resolvable
  | submitted constructed =>
    rename_i submission
    refine ⟨fun id => ?_, conserved.settled, conserved.connected⟩
    have once := conserved.once id
    rw [submit_places, once]
    show _ = if id < m.submitted + 1 then 1 else 0
    by_cases new : id = m.submitted
    · subst new
      simp
    · have others : [m.submitted].count id = 0 := List.count_eq_zero.mpr (by simpa using new)
      rw [others]
      split <;> split <;> omega
  | ran posted =>
    rename_i task before later
    have effect := runTask_effect { m with tasks := before ++ later } task
    obtain ⟨submitted, state⟩ := effect.session
    have reading : (after (runTask task { m with tasks := before ++ later })).Reading ↔ m.Reading := by
      rw [Reading, effect.input.2, Reading]
    refine ⟨fun id => ?_, fun stopped => ?_, fun going => ?_⟩
    · rw [effect.places id, submitted]
      have once := conserved.once id
      unfold ConnectionManager.places at once ⊢
      rw [posted] at once
      simp only [List.map_append, List.map_cons, List.count_append, List.count_cons, List.count_nil] at once ⊢
      omega
    · rw [effect.immediate (resolvable (reading.not.mp stopped))]
      exact conserved.settled (reading.not.mp stopped)
    · rw [state]
      exact conserved.connected (reading.mp going)
  | dataSent =>
    rename_i bytesWritten
    cases bytesWritten <;> exact ⟨conserved.once, conserved.settled, conserved.connected⟩
  | closed constructed =>
    by_cases connected : m.state.connected = true
    · have stopped := close_not_reading connected
      rw [close, if_pos connected] at stopped ⊢
      exact ⟨conserved.once, fun _ => resolvable, fun reading => absurd reading stopped⟩
    · rw [close, if_neg connected]
      exact conserved

theorem connecting_conserved : Conserved connecting where
  once id := by
    have none : ¬ id < connecting.submitted := Nat.not_lt_zero id
    rw [if_neg none]
    rfl
  settled _ := rfl
  connected _ := rfl

/-- As long as the steps are resolvable, each submitted request is in one place; and once
    the loop has ended or the connection is down, and no task is left, its promise has
    been set. -/
theorem requests_resolved {m : ConnectionManager} (run : Run (Meeting Step Resolvable) connecting m) :
    (∀ id, m.places id = if id < m.submitted then 1 else 0) ∧
      ((¬ m.Reading ∨ m.state.connected = false) → m.tasks = [] →
        ∀ id < m.submitted, (m.resolved.map Prod.fst).count id = 1) := by
  have conserved : Conserved m := run.invariant connecting_conserved fun conserved step =>
    conserved_step conserved step.1 step.2
  refine ⟨conserved.once, fun ended finished id submitted => ?_⟩
  have stopped : ¬ m.Reading := by
    rcases ended with stopped | disconnected
    · exact stopped
    · intro reading
      rw [conserved.connected reading] at disconnected
      cases disconnected
  have once := conserved.once id
  have none : RequestPool.empty.ids.count id = 0 := rfl
  rw [if_pos submitted, places, finished, conserved.settled stopped, none] at once
  simpa using once

/-- A manager with a request in its pool. -/
theorem connecting_pooled : ∃ m : ConnectionManager, Run (Meeting Step Resolvable) connecting m ∧ m.phase = .receiving ∧
    m.tasks = [] ∧ m.submitted = 1 ∧ m.resolved = [] ∧ m.requestPool = ⟨[⟨0, variableId (text "fcu") (text "alt"), 0⟩], []⟩ := by
  obtain ⟨buff, m, same, step, -⟩ :=
    connecting_greeted ⟨text "FlightVars Server", 0x0100⟩ (answers_valid _ List.mem_cons_self) (by decide)
  have pending : m.phase = .receiving := by rw [same]
  have undefined : ¬ m.db.Defined (variableId (text "fcu") (text "alt")) := by
    rw [same]
    exact List.not_mem_nil
  have submitted : Step m (.submitted (.subscribe (variableId (text "fcu") (text "alt")) 0)) _ :=
    .submitted (by rw [pending]; nofun)
  have posted : (submit (.subscribe (variableId (text "fcu") (text "alt")) 0) m).tasks =
      [] ++ .subscription ⟨0, variableId (text "fcu") (text "alt"), 0⟩ :: [] := by
    rw [same]
    rfl
  have ran := Step.ran posted
  rw [runTask_subscription, onSubscriptionRequested_undefined _ undefined] at ran
  have greeted : Run (Meeting Step Resolvable) connecting m := (Run.refl _).next ⟨step, fun receiving => by cases receiving⟩
  have run := (greeted.next ⟨submitted, True.intro⟩).next ⟨ran, fun stopped => absurd (.inr pending) stopped⟩
  refine ⟨_, run, pending, rfl, ?_, ?_, ?_⟩
  · rw [same]
    rfl
  · rw [same]
    rfl
  · rw [same]
    rfl

/-- A reset connection resolves the request. -/
theorem requests_resolved_reset : ∃ m : ConnectionManager, Run (Meeting Step Resolvable) connecting m ∧
    m.state.connected = false ∧ m.tasks = [] ∧ m.submitted = 1 ∧ (m.resolved.map Prod.fst).count 0 = 1 := by
  obtain ⟨m, run, pending, finished, submitted, -⟩ := connecting_pooled
  have step : Step m (.read (.error .connectionReset)) (failed .communication m) := by
    have step : Step m (.read (.error .connectionReset)) _ := .read (.inl pending) True.intro
    rw [onMessageReceived, if_neg (by simp [pending])] at step
    exact step
  have last := run.next ⟨step, fun _ other => absurd rfl other⟩
  have disconnected : (failed .communication m).state.connected = false :=
    ConnectionState.disconnectWithError_connected ..
  refine ⟨_, last, disconnected, finished, submitted, (requests_resolved last).2 (.inr disconnected) finished 0 ?_⟩
  show 0 < m.submitted
  omega

/-- The end of the connection does not. -/
theorem request_forgotten : ∃ m : ConnectionManager, Run Step connecting m ∧ ¬ m.Reading ∧ m.state.connected = false ∧
    m.tasks = [] ∧ m.submitted = 1 ∧ (m.resolved.map Prod.fst).count 0 = 0 := by
  obtain ⟨m, run, pending, finished, submitted, unresolved, -⟩ := connecting_pooled
  have step : Step m (.read (.error .eof)) { m with
      state := m.state.disconnect
      phase := .stopped } := by
    have step : Step m (.read (.error .eof)) _ := .read (.inl pending) True.intro
    rw [onMessageReceived, if_neg (by simp [pending])] at step
    exact step
  refine ⟨_, run.forget.next step, fun reading => absurd rfl reading.not_stopped, ?_, finished, submitted, ?_⟩
  · exact ConnectionState.disconnect_connected m.state
  · show (m.resolved.map Prod.fst).count 0 = 0
    rw [unresolved]
    rfl

end Oac.Client
