import Oac.Client.Resolution

/-!
# Handlers of the client

Which handlers the DB of a manager holds, and what one step does to them (`Turn`): it binds
those of some requests that wait, and drops that of a subscription that is to end.
-/
namespace Oac.Client
open Base Proto

namespace ConnectionManager

/-- A virtual subscription has the handler. -/
def Live (m : ConnectionManager) (handler : Nat) : Prop := ∃ v s, m.db.Holds v s ∧ s.handler = handler

/-- The end of a subscription has been asked for, and the subscription is not there any more. -/
def Ended (m : ConnectionManager) (id : Nat) : Prop :=
  (id, .done) ∈ m.resolved ∨ id ∈ m.requestPool.unsubsReqs.map UnsubscriptionRequest.id

/-- The request is posted, or waits for a reply. -/
def Waits (m : ConnectionManager) (req : SubscriptionRequest) : Prop :=
  Task.subscription req ∈ m.tasks ∨ req ∈ m.requestPool.subsReqs

/-- The requests that a message gives virtual subscriptions. -/
def granted (m : ConnectionManager) : Message → List SubscriptionRequest
  | .subscriptionRep msg =>
    if msg.st = .subscribed ∧ (m.db.Defined (variableId msg.varGrp msg.varName) ∨ ¬ m.db.MasterDefined msg.subsId)
    then m.requestPool.subscriptionRequests (variableId msg.varGrp msg.varName) else []
  | _ => []

/-- The requests that an event gives virtual subscriptions. -/
def binding (m : ConnectionManager) : Event → List SubscriptionRequest
  | .ran (.subscription req) => if m.db.Defined req.varId then [req] else []
  | .read (.ok block) =>
    if m.phase = .receiving then
      match deserializeFrom (m.filled block) with
      | .ok msg _ => m.granted msg
      | .error _ _ => []
    else []
  | _ => []

/-- What becomes of the requests and the handlers when some requests are bound. -/
structure Turn (reqs : List SubscriptionRequest) (m m' : ConnectionManager) : Prop where
  submitted : m'.submitted = m.submitted
  places : ∀ id, m'.places id ≤ m.places id
  tasks : m'.tasks ⊆ m.tasks
  waiting : ∀ req ∈ m'.requestPool.subsReqs, m.Waits req
  resolved : m.resolved ⊆ m'.resolved
  asked : ∀ req ∈ reqs, m.Waits req
  bound : ∀ {v s}, m'.db.Holds v s → m.db.Holds v s ∨
    ∃ req ∈ reqs, req.varId = v ∧ s.handler = req.handler ∧ (req.id, .subscribed s.id) ∈ m'.resolved
  held : ∀ req ∈ reqs, m'.Live req.handler
  indexed : m.db.Roomy reqs.length → m.db.Indexed → m'.db.Indexed
  ended : ∀ {id}, m'.Ended id → m.Ended id ∨ (∃ req, Task.variableUpdate req ∈ m.tasks ∧ req.id = id) ∨
    ∃ req, Task.unsubscription req ∈ m.tasks ∧ req.id = id ∧
      (m.db.Indexed → ∀ {v s}, m'.db.Holds v s → s.id ≠ req.virtualSubsId)
  calls : ∃ calls, m'.invoked = m.invoked ++ calls ∧ ∀ call ∈ calls, m.Live call.1

/-- Requests are resolved or lost, and the handlers stay. -/
structure Settles (m m' : ConnectionManager) : Prop where
  submitted : m'.submitted = m.submitted
  places : ∀ id, m'.places id ≤ m.places id
  tasks : m'.tasks = m.tasks
  waiting : m'.requestPool.subsReqs ⊆ m.requestPool.subsReqs
  resolved : m.resolved ⊆ m'.resolved
  db : m'.db = m.db
  ended : ∀ {id}, m'.Ended id → m.Ended id
  invoked : m'.invoked = m.invoked

theorem Settles.turn {m m' : ConnectionManager} (settles : Settles m m') : Turn [] m m' where
  submitted := settles.submitted
  places := settles.places
  tasks := settles.tasks ▸ List.Subset.refl _
  waiting _ among := .inr (settles.waiting among)
  resolved := settles.resolved
  asked := nofun
  bound holds := .inl (settles.db ▸ holds)
  held := nofun
  indexed _ indexed := settles.db ▸ indexed
  ended gone := .inl (settles.ended gone)
  calls := ⟨[], by rw [settles.invoked, List.append_nil], nofun⟩

theorem Turn.then {reqs : List SubscriptionRequest} {m m' m'' : ConnectionManager} (turn : Turn reqs m m')
    (settles : Settles m' m'') : Turn reqs m m'' where
  submitted := settles.submitted.trans turn.submitted
  places id := (settles.places id).trans (turn.places id)
  tasks := settles.tasks ▸ turn.tasks
  waiting req among := turn.waiting req (settles.waiting among)
  resolved := List.Subset.trans turn.resolved settles.resolved
  asked := turn.asked
  bound holds := by
    rw [settles.db] at holds
    rcases turn.bound holds with old | ⟨req, among, about, same, answered⟩
    · exact .inl old
    · exact .inr ⟨req, among, about, same, settles.resolved answered⟩
  held req among := by
    have live := turn.held req among
    rwa [Live, settles.db]
  indexed roomy indexed := settles.db ▸ turn.indexed roomy indexed
  ended gone := by
    rw [settles.db]
    exact turn.ended (settles.ended gone)
  calls := settles.invoked ▸ turn.calls

/-- Neither the requests nor the handlers have changed. -/
structure SameRequests (m m' : ConnectionManager) : Prop where
  submitted : m'.submitted = m.submitted
  tasks : m'.tasks = m.tasks
  requestPool : m'.requestPool = m.requestPool
  resolved : m'.resolved = m.resolved
  db : m'.db = m.db
  invoked : m'.invoked = m.invoked

theorem SameRequests.settles {m m' : ConnectionManager} (same : SameRequests m m') : Settles m m' where
  submitted := same.submitted
  places id := by rw [ConnectionManager.places, same.tasks, same.requestPool, same.resolved, ConnectionManager.places]
  tasks := same.tasks
  waiting := same.requestPool ▸ List.Subset.refl _
  resolved := same.resolved ▸ List.Subset.refl _
  db := same.db
  ended gone := by rwa [Ended, same.resolved, same.requestPool] at gone
  invoked := same.invoked

theorem Settles.trans {m m' m'' : ConnectionManager} (first : Settles m m') (second : Settles m' m'') : Settles m m'' where
  submitted := second.submitted.trans first.submitted
  places id := (second.places id).trans (first.places id)
  tasks := second.tasks.trans first.tasks
  waiting := List.Subset.trans second.waiting first.waiting
  resolved := List.Subset.trans first.resolved second.resolved
  db := second.db.trans first.db
  ended gone := first.ended (second.ended gone)
  invoked := second.invoked.trans first.invoked

/-! ## Errors -/

theorem onError_settles (e : Exception) (disconnects : Bool) (m : ConnectionManager) : Settles m (onError e disconnects m) := by
  by_cases fatal : disconnects = true
  · subst fatal
    constructor
    · rfl
    · exact fun id => (onError_places e m id).le
    · rfl
    · exact List.nil_subset _
    · exact List.subset_append_left _ _
    · rfl
    · rintro id (done | waits)
      · rcases List.mem_append.mp done with done | failed
        · exact .inl done
        · obtain ⟨id', -, equal⟩ := List.mem_map.mp failed
          cases equal
      · cases waits
    · rfl
  · rw [onError, if_neg fatal]
    exact SameRequests.settles ⟨rfl, rfl, rfl, rfl, rfl, rfl⟩

/-! ## Tasks -/

theorem posted_mem {tasks before later : List Task} {task : Task} (posted : tasks = before ++ task :: later) : task ∈ tasks := by
  simp [posted]

theorem rest_subset {tasks before later : List Task} {task : Task} (posted : tasks = before ++ task :: later) :
    before ++ later ⊆ tasks := by
  intro other member
  simp only [posted, List.mem_append, List.mem_cons] at member ⊢
  tauto

/-- A task that resolves its request at once. -/
theorem answered_turn {m : ConnectionManager} {reqs : List SubscriptionRequest} (task : Task) {before later : List Task}
    {db : SubscriptionDb} {sent : List Message} {resolution : Resolution} (posted : m.tasks = before ++ task :: later)
    (asked : ∀ req ∈ reqs, m.Waits req)
    (bound : ∀ {v s}, db.Holds v s → m.db.Holds v s ∨
      ∃ req ∈ reqs, req.varId = v ∧ s.handler = req.handler ∧ (req.id, .subscribed s.id) = (task.id, resolution))
    (held : ∀ req ∈ reqs, ∃ v s, db.Holds v s ∧ s.handler = req.handler)
    (indexed : m.db.Roomy reqs.length → m.db.Indexed → db.Indexed)
    (ended : resolution = .done → (∃ req, Task.variableUpdate req ∈ m.tasks ∧ req.id = task.id) ∨
      ∃ req, Task.unsubscription req ∈ m.tasks ∧ req.id = task.id ∧
        (m.db.Indexed → ∀ {v s}, db.Holds v s → s.id ≠ req.virtualSubsId)) :
    Turn reqs m { m with
      tasks := before ++ later
      db
      sent
      resolved := m.resolved ++ [(task.id, resolution)] } := by
  constructor
  · rfl
  · intro id
    unfold ConnectionManager.places
    simp only [posted, List.map_append, List.map_cons, List.map_nil, List.count_append, List.count_cons, List.count_nil]
    omega
  · exact rest_subset posted
  · exact fun req waits => .inr waits
  · exact List.subset_append_left _ _
  · exact asked
  · intro v s holds
    rcases bound holds with old | ⟨req, among, about, same, answered⟩
    · exact .inl old
    · exact .inr ⟨req, among, about, same, List.mem_append_right _ (List.mem_singleton.mpr answered)⟩
  · exact held
  · exact indexed
  · rintro id (done | waits)
    · rcases List.mem_append.mp done with done | this
      · exact .inl (.inl done)
      · cases List.mem_singleton.mp this
        exact .inr (ended rfl)
    · exact .inl (.inr waits)
  · exact ⟨[], (List.append_nil _).symm, nofun⟩

/-- A request whose variable has an entry. -/
theorem ran_bound {m : ConnectionManager} {req : SubscriptionRequest} {before later : List Task}
    (posted : m.tasks = before ++ .subscription req :: later) (defined : m.db.Defined req.varId) :
    Turn [req] m (after (runTask (.subscription req) { m with tasks := before ++ later })) := by
  obtain ⟨db, executed, more, -⟩ := onSubscriptionRequested_defined { m with tasks := before ++ later } defined
  rw [runTask_subscription, executed]
  refine answered_turn (.subscription req) posted ?_ ?_ ?_ ?_ nofun
  · intro other member
    rw [List.mem_singleton.mp member]
    exact .inl (posted_mem posted)
  · intro v s holds
    rcases more.holds.mp holds with old | ⟨rfl, rfl⟩
    · exact .inl old
    · exact .inr ⟨req, List.mem_singleton_self _, rfl, rfl, rfl⟩
  · intro other member
    rw [List.mem_singleton.mp member]
    exact ⟨req.varId, ⟨m.db.nextId, req.handler⟩, more.holds.mpr (.inr ⟨rfl, rfl⟩), rfl⟩
  · exact fun roomy indexed => more.indexed (more.roomy roomy).1 indexed

/-- A request whose variable has none waits for the reply. -/
theorem ran_requested {m : ConnectionManager} {req : SubscriptionRequest} {before later : List Task}
    (posted : m.tasks = before ++ .subscription req :: later) (undefined : ¬ m.db.Defined req.varId) :
    Turn [] m (after (runTask (.subscription req) { m with tasks := before ++ later })) := by
  have executed := onSubscriptionRequested_undefined { m with tasks := before ++ later } undefined
  rw [runTask_subscription, executed]
  constructor
  · rfl
  · intro id
    unfold ConnectionManager.places
    simp only [posted, RequestPool.insertSubscription, RequestPool.ids, Task.id, List.map_append, List.map_cons, List.map_nil,
      List.count_append, List.count_cons, List.count_nil]
    omega
  · exact rest_subset posted
  · intro other waits
    rcases List.mem_append.mp waits with waits | new
    · exact .inr waits
    · rw [List.mem_singleton.mp new]
      exact .inl (posted_mem posted)
  · exact List.Subset.refl _
  · exact List.forall_mem_nil _
  · exact fun holds => .inl holds
  · exact List.forall_mem_nil _
  · exact fun _ indexed => indexed
  · exact fun gone => .inl gone
  · exact ⟨[], (List.append_nil _).symm, List.forall_mem_nil _⟩

/-- A subscription that is to end is dropped at once, whether or not the server is told. -/
theorem ran_ended {m : ConnectionManager} {req : UnsubscriptionRequest} {before later : List Task}
    (posted : m.tasks = before ++ .unsubscription req :: later) :
    Turn [] m (after (runTask (.unsubscription req) { m with tasks := before ++ later })) := by
  cases refers : m.db.virtualSubsIdMap req.virtualSubsId with
  | none =>
    have executed : runTask (.unsubscription req) { m with tasks := before ++ later } = .ok () { m with
        tasks := before ++ later
        resolved := m.resolved ++ [(req.id, .failed (.noSuchSubscription req.virtualSubsId))] } := by
      simp only [runTask, onUnsubscriptionRequested, SubscriptionDb.getMasterSubscriptionId_missing refers, resolve]
    rw [executed]
    exact answered_turn (.unsubscription req) posted (List.forall_mem_nil _) .inl (List.forall_mem_nil _) (fun _ => id)
      fun done => by cases done
  | some varId =>
    obtain ⟨masterSubsId, found, -⟩ := SubscriptionDb.getMasterSubscriptionId_maps refers
    obtain ⟨last, db, removed, -⟩ := SubscriptionDb.removeVirtualSubscription_pairs refers
    obtain ⟨v, -, -, left⟩ := SubscriptionDb.removeVirtualSubscription_removed removed
    have gone : m.db.Indexed → ∀ {v s}, db.Holds v s → s.id ≠ req.virtualSubsId := fun indexed _ _ holds =>
      ((SubscriptionDb.removeVirtualSubscription_holds removed indexed).1.mp holds).2
    have right : m.db.Indexed → db.Indexed := fun indexed => (SubscriptionDb.removeVirtualSubscription_holds removed indexed).2
    cases last with
    | false =>
      have executed : runTask (.unsubscription req) { m with tasks := before ++ later } = .ok () { m with
          tasks := before ++ later
          db
          resolved := m.resolved ++ [(req.id, .done)] } := by
        simp only [runTask, onUnsubscriptionRequested, found, removed, resolve]
      rw [executed]
      refine answered_turn (.unsubscription req) posted (List.forall_mem_nil _) (fun holds => .inl (left.mp holds).1)
        (List.forall_mem_nil _) (fun _ => right) ?_
      exact fun _ => .inr ⟨req, posted_mem posted, rfl, gone⟩
    | true =>
      have executed : runTask (.unsubscription req) { m with tasks := before ++ later } = .ok () { m with
          tasks := before ++ later
          db
          requestPool := m.requestPool.insertUnsubscription { req with masterSubsId }
          sent := m.sent ++ [.unsubscriptionReq ⟨masterSubsId⟩] } := by
        simp only [runTask, onUnsubscriptionRequested, found, removed]
        exact sendMessage_fits (fits_unsubscriptionReq masterSubsId) _
      rw [executed]
      constructor
      · rfl
      · intro id
        unfold ConnectionManager.places
        simp only [posted, RequestPool.insertUnsubscription, RequestPool.ids, Task.id, List.map_append, List.map_cons,
          List.map_nil, List.count_append, List.count_cons, List.count_nil, after_ok]
        omega
      · exact rest_subset posted
      · exact fun other waits => .inr waits
      · exact List.Subset.refl _
      · exact List.forall_mem_nil _
      · exact fun holds => .inl (left.mp holds).1
      · exact List.forall_mem_nil _
      · exact fun _ => right
      · rintro id (done | waits)
        · exact .inl (.inl done)
        · obtain ⟨other, among, rfl⟩ := List.mem_map.mp waits
          rcases List.mem_append.mp among with old | new
          · exact .inl (.inr (List.mem_map_of_mem old))
          · cases List.mem_singleton.mp new
            exact .inr (.inr ⟨req, posted_mem posted, rfl, gone⟩)
      · exact ⟨[], (List.append_nil _).symm, List.forall_mem_nil _⟩

theorem ran_updated {m : ConnectionManager} {req : VariableUpdateRequest} {before later : List Task}
    (posted : m.tasks = before ++ .variableUpdate req :: later) :
    Turn [] m (after (runTask (.variableUpdate req) { m with tasks := before ++ later })) := by
  have effect := runTask_effect { m with tasks := before ++ later } (.variableUpdate req)
  generalize after (runTask (.variableUpdate req) { m with tasks := before ++ later }) = m' at effect
  cases effect with
  | updated masterSubsId =>
    exact answered_turn (.variableUpdate req) posted nofun .inl nofun (fun _ => id) fun _ =>
      .inl ⟨req, posted_mem posted, rfl⟩
  | unknown e => exact answered_turn (.variableUpdate req) posted nofun .inl nofun (fun _ => id) nofun

theorem ran_turn {m : ConnectionManager} {task : Task} {before later : List Task} (posted : m.tasks = before ++ task :: later) :
    Turn (m.binding (.ran task)) m (after (runTask task { m with tasks := before ++ later })) := by
  cases task with
  | subscription req =>
    by_cases defined : m.db.Defined req.varId
    · rw [show m.binding (.ran (.subscription req)) = [req] from if_pos defined]
      exact ran_bound posted defined
    · rw [show m.binding (.ran (.subscription req)) = [] from if_neg defined]
      exact ran_requested posted defined
  | unsubscription req => exact ran_ended posted
  | variableUpdate req => exact ran_updated posted

/-! ## Replies -/

/-- Some of the requests that are popped are resolved, and none of them begins to end a subscription. -/
theorem popped_settles {m m' : ConnectionManager} {answers : List (Nat × Resolution)} (submitted : m'.submitted = m.submitted)
    (tasks : m'.tasks = m.tasks) (db : m'.db = m.db) (invoked : m'.invoked = m.invoked)
    (resolved : m'.resolved = m.resolved ++ answers) (subs : m'.requestPool.subsReqs ⊆ m.requestPool.subsReqs)
    (unsubs : m'.requestPool.unsubsReqs ⊆ m.requestPool.unsubsReqs)
    (popped : ∀ id, (answers.map Prod.fst).count id + m'.requestPool.ids.count id ≤ m.requestPool.ids.count id)
    (done : ∀ id, (id, .done) ∈ answers → m.Ended id) : Settles m m' := by
  constructor
  · exact submitted
  · intro id
    have fewer := popped id
    unfold ConnectionManager.places
    rw [tasks, resolved, List.map_append, List.count_append]
    omega
  · exact tasks
  · exact subs
  · exact resolved ▸ List.subset_append_left _ _
  · exact db
  · rintro id (finished | waits)
    · rw [resolved] at finished
      rcases List.mem_append.mp finished with old | new
      · exact .inl old
      · exact done id new
    · exact .inr (List.map_subset _ unsubs waits)
  · exact invoked

theorem poppedSubscriptions_settles (m : ConnectionManager) (varId : VariableId) (answers : List (Nat × Resolution))
    (few : ∀ id, (answers.map Prod.fst).count id ≤ (m.subscriptionIds varId).count id) (done : ∀ id, (id, .done) ∉ answers) :
    Settles m { m.poppedSubscriptions varId with resolved := m.resolved ++ answers } := by
  refine popped_settles rfl rfl rfl rfl rfl ?_ ?_ ?_ fun id answered => absurd answered (done id)
  · exact List.filter_subset_self _
  · exact List.Subset.refl _
  · intro id
    rw [count_subscriptions m.requestPool varId]
    exact Nat.add_le_add_right (few id) _

theorem poppedUnsubscriptions_settles (m : ConnectionManager) (subsId : SubscriptionId) (answers : List (Nat × Resolution))
    (few : ∀ id, (answers.map Prod.fst).count id ≤ (m.unsubscriptionIds subsId).count id) :
    Settles m { m.poppedUnsubscriptions subsId with resolved := m.resolved ++ answers } := by
  refine popped_settles rfl rfl rfl rfl rfl ?_ ?_ ?_ ?_
  · exact List.Subset.refl _
  · exact List.filter_subset_self _
  · intro id
    rw [count_unsubscriptions m.requestPool subsId]
    exact Nat.add_le_add_right (few id) _
  · intro id answered
    have resolved : id ∈ answers.map Prod.fst := List.mem_map_of_mem answered
    have counted : 0 < (m.unsubscriptionIds subsId).count id := lt_of_lt_of_le (List.count_pos_iff.mpr resolved) (few id)
    obtain ⟨req, among, rfl⟩ := List.mem_map.mp (List.count_pos_iff.mp counted)
    exact .inr (List.mem_map_of_mem (List.mem_filter.mp among).1)

theorem lostSubscriptions_settles (m : ConnectionManager) (varId : VariableId) : Settles m (m.poppedSubscriptions varId) := by
  have settles := poppedSubscriptions_settles m varId [] (fun _ => Nat.zero_le _) (fun _ => List.not_mem_nil)
  rw [List.append_nil] at settles
  exact settles

theorem lostUnsubscriptions_settles (m : ConnectionManager) (subsId : SubscriptionId) :
    Settles m (m.poppedUnsubscriptions subsId) := by
  have settles := poppedUnsubscriptions_settles m subsId [] (fun _ => Nat.zero_le _)
  rw [List.append_nil] at settles
  exact settles

/-- A message that gives nobody a virtual subscription. -/
theorem ReplyEffect.turn {m : ConnectionManager} {msg : Message} {result : EStateM.Result Exception ConnectionManager Unit}
    (effect : ReplyEffect m msg result) (nobody : m.granted msg = []) (update : ∀ msg', msg ≠ .varUpdate msg') :
    Turn [] m (after result) := by
  cases effect with
  | unasked none => exact (lostSubscriptions_settles m _).turn
  | refused some status =>
    refine (poppedSubscriptions_settles m _ _ (fun id => ?_) fun id answered => ?_).turn
    · rw [map_resolution]
    · obtain ⟨id', -, equal⟩ := List.mem_map.mp answered
      cases equal
  | granted some status bindable answered pairs =>
    rw [ConnectionManager.granted, if_pos ⟨status, bindable⟩] at nobody
    exact absurd nobody some
  | clashing some status undefined used => exact (lostSubscriptions_settles m _).turn
  | oddSubscription some status => exact (lostSubscriptions_settles m _).turn
  | unaskedEnd none => exact (lostUnsubscriptions_settles m _).turn
  | ended resolution some status =>
    refine (poppedUnsubscriptions_settles m _ _ fun id => ?_).turn
    rw [map_resolution]
  | oddEnd some status => exact (lostUnsubscriptions_settles m _).turn
  | updated calls errors => exact absurd rfl (update _)
  | unexpected e other => exact (SameRequests.settles ⟨rfl, rfl, rfl, rfl, rfl, rfl⟩).turn

/-- The requests for a variable are bound. -/
theorem granted_turn {m : ConnectionManager} {varId : VariableId} {db : SubscriptionDb} {grants : List Grant}
    (asked : grants.map Grant.req = m.requestPool.subscriptionRequests varId) (bound : Bound m.db varId grants db) :
    Turn (m.requestPool.subscriptionRequests varId) m { m.poppedSubscriptions varId with
      db
      resolved := m.resolved ++ grants.map Grant.answer } := by
  constructor
  · rfl
  · intro id
    refine (popped_places m { m.poppedSubscriptions varId with
      db
      resolved := m.resolved ++ grants.map Grant.answer } (grants.map Grant.answer) rfl rfl (answers_ids asked) ?_ id).le
    exact count_subscriptions m.requestPool varId
  · exact List.Subset.refl _
  · exact fun req waits => .inr (List.mem_filter.mp waits).1
  · exact List.subset_append_left _ _
  · exact fun req among => .inr (List.mem_filter.mp among).1
  · intro v s holds
    rcases bound.holds.mp holds with old | ⟨rfl, new⟩
    · exact .inl old
    · obtain ⟨g, among, rfl⟩ := List.mem_map.mp new
      have popped : g.req ∈ m.requestPool.subscriptionRequests v := asked ▸ List.mem_map_of_mem among
      have about : g.req.varId = v := of_decide_eq_true (List.mem_filter.mp popped).2
      exact .inr ⟨g.req, popped, about, rfl, List.mem_append_right _ (List.mem_map_of_mem among)⟩
  · intro req among
    rw [← asked] at among
    obtain ⟨g, member, rfl⟩ := List.mem_map.mp among
    exact ⟨varId, g.subscription, bound.holds.mpr (.inr ⟨rfl, List.mem_map_of_mem member⟩), rfl⟩
  · intro roomy indexed
    rw [← asked, List.length_map] at roomy
    exact bound.indexed roomy indexed
  · rintro id (done | waits)
    · rcases List.mem_append.mp done with done | new
      · exact .inl (.inl done)
      · obtain ⟨g, -, equal⟩ := List.mem_map.mp new
        cases equal
    · exact .inl (.inr waits)
  · exact ⟨[], (List.append_nil _).symm, nofun⟩

theorem subscriptionRep_turn (m : ConnectionManager) (msg : SubscriptionReplyMessage) :
    Turn (m.granted (.subscriptionRep msg)) m (after (dispatch (.subscriptionRep msg) m)) := by
  by_cases nobody : m.granted (.subscriptionRep msg) = []
  · rw [nobody]
    exact (dispatch_effect m (.subscriptionRep msg)).turn nobody nofun
  · have grants : msg.st = .subscribed ∧
        (m.db.Defined (variableId msg.varGrp msg.varName) ∨ ¬ m.db.MasterDefined msg.subsId) := by
      by_contra refused
      exact nobody (if_neg refused)
    have subs : m.granted (.subscriptionRep msg) = m.requestPool.subscriptionRequests (variableId msg.varGrp msg.varName) :=
      if_pos grants
    rw [subs] at nobody ⊢
    have popped : dispatch (.subscriptionRep msg) m = bindRequests (variableId msg.varGrp msg.varName) msg.subsId
        (m.requestPool.subscriptionRequests (variableId msg.varGrp msg.varName))
        (m.poppedSubscriptions (variableId msg.varGrp msg.varName)) := by
      refine (if_neg nobody).trans ?_
      rw [grants.1]
      rfl
    by_cases defined : m.db.Defined (variableId msg.varGrp msg.varName)
    · obtain ⟨db, grants, executed, asked, bound, -⟩ := bindRequests_defined msg.subsId
        (m.requestPool.subscriptionRequests (variableId msg.varGrp msg.varName))
        (m := m.poppedSubscriptions (variableId msg.varGrp msg.varName)) defined
      rw [popped, executed]
      exact granted_turn asked bound
    · obtain ⟨db, grants, executed, asked, bound, -⟩ := bindRequests_undefined nobody
        (m := m.poppedSubscriptions (variableId msg.varGrp msg.varName)) defined (grants.2.resolve_left defined)
      rw [popped, executed]
      exact granted_turn asked bound

theorem varUpdate_turn (m : ConnectionManager) (msg : VarUpdateMessage) :
    Turn [] m (after (dispatch (.varUpdate msg) m)) := by
  show Turn [] m (after (onVariableUpdateReceived msg m))
  cases invoked : m.db.invokeHandlers msg.subsId msg.varValue with
  | ok calls =>
    have executed : onVariableUpdateReceived msg m = .ok () { m with invoked := m.invoked ++ calls } := by
      simp only [onVariableUpdateReceived, invoked]
    rw [executed]
    have same : Turn [] m m := (SameRequests.settles ⟨rfl, rfl, rfl, rfl, rfl, rfl⟩).turn
    refine ⟨rfl, same.places, same.tasks, same.waiting, same.resolved, List.forall_mem_nil _, same.bound,
      List.forall_mem_nil _, same.indexed, same.ended, calls, rfl, ?_⟩
    intro call made
    obtain ⟨s, holds, same, -⟩ := SubscriptionDb.invokeHandlers_holds invoked made
    exact ⟨call.2.1, s, holds, same⟩
  | error e =>
    have executed : onVariableUpdateReceived msg m = .ok () (onError e false m) := by
      simp only [onVariableUpdateReceived, invoked]
    rw [executed]
    exact (onError_settles e false m).turn

theorem dispatch_turn (m : ConnectionManager) (msg : Message) : Turn (m.granted msg) m (after (dispatch msg m)) := by
  cases msg with
  | subscriptionRep msg => exact subscriptionRep_turn m msg
  | varUpdate msg => exact varUpdate_turn m msg
  | _ => exact (dispatch_effect m _).turn rfl nofun

/-! ## Steps -/

theorem Turn.of_same {reqs : List SubscriptionRequest} {m m' m'' : ConnectionManager} (same : SameRequests m m')
    (turn : Turn reqs m' m'') : Turn reqs m m'' := by
  obtain ⟨submitted, tasks, requestPool, resolved, db, invoked⟩ := id same
  have waits : ∀ req, m'.Waits req → m.Waits req := by
    intro req waits
    rwa [Waits, tasks, requestPool] at waits
  constructor
  · exact turn.submitted.trans submitted
  · exact fun id => (turn.places id).trans (same.settles.places id)
  · exact tasks ▸ turn.tasks
  · exact fun req among => waits req (turn.waiting req among)
  · exact resolved ▸ turn.resolved
  · exact fun req among => waits req (turn.asked req among)
  · exact db ▸ turn.bound
  · exact turn.held
  · exact db ▸ turn.indexed
  · intro id gone
    rcases turn.ended gone with old | ends
    · exact .inl (same.settles.ended old)
    · rw [tasks, db] at ends
      exact .inr ends
  · obtain ⟨calls, made, live⟩ := turn.calls
    refine ⟨calls, invoked ▸ made, fun call among => ?_⟩
    have called := live call among
    rwa [Live, db] at called

theorem failed_settles (e : Exception) (m : ConnectionManager) : Settles m (failed e m) :=
  (onError_settles e true m).trans (SameRequests.settles ⟨rfl, rfl, rfl, rfl, rfl, rfl⟩)

theorem caught_settles (result : EStateM.Result Exception ConnectionManager Unit) : Settles (after result) (caught result) := by
  unfold caught
  split
  · exact SameRequests.settles ⟨rfl, rfl, rfl, rfl, rfl, rfl⟩
  · exact SameRequests.settles ⟨rfl, rfl, rfl, rfl, rfl, rfl⟩
  · exact failed_settles .communication _

theorem caughtHandshake_settles (result : EStateM.Result Exception ConnectionManager Unit) :
    Settles (after result) (caughtHandshake result) := by
  unfold caughtHandshake
  split
  · exact SameRequests.settles ⟨rfl, rfl, rfl, rfl, rfl, rfl⟩
  · split
    · exact failed_settles _ _
    · exact SameRequests.settles ⟨rfl, rfl, rfl, rfl, rfl, rfl⟩
  · split <;> exact failed_settles _ _

theorem SameRequests.trans {m m' m'' : ConnectionManager} (first : SameRequests m m') (second : SameRequests m' m'') :
    SameRequests m m'' where
  submitted := second.submitted.trans first.submitted
  tasks := second.tasks.trans first.tasks
  requestPool := second.requestPool.trans first.requestPool
  resolved := second.resolved.trans first.resolved
  db := second.db.trans first.db
  invoked := second.invoked.trans first.invoked

theorem handshakeBody_same (bytesRead : Except Exception (List UInt8)) : Keeps SameRequests (handshakeBody bytesRead) := by
  refine keeps_bind (R := SameRequests) SameRequests.trans ?_ fun _ => keeps_bind (R := SameRequests) SameRequests.trans ?_ fun msg => ?_
  · intro m
    cases bytesRead <;> exact ⟨rfl, rfl, rfl, rfl, rfl, rfl⟩
  · intro m
    unfold deserializeInput
    split <;> exact ⟨rfl, rfl, rfl, rfl, rfl, rfl⟩
  · intro m
    cases msg <;> exact ⟨rfl, rfl, rfl, rfl, rfl, rfl⟩

theorem onMessageReceived_turn {m : ConnectionManager} (pending : m.phase = .receiving) (bytesRead : Except Exception (List UInt8)) :
    Turn (m.binding (.read bytesRead)) m (after (onMessageReceived bytesRead m)) := by
  cases bytesRead with
  | ok block =>
    rw [onMessageReceived_ok pending, after_ok, receive]
    cases executed : deserializeFrom (m.filled block) with
    | ok msg buff =>
      rw [ok_bind (deserializeInput_ok executed)]
      have binds : m.binding (.read (.ok block)) = m.granted msg := by
        simp only [binding, pending, ↓reduceIte, executed]
      have same : SameRequests m (m.taken block buff msg) := ⟨rfl, rfl, rfl, rfl, rfl, rfl⟩
      have turn : Turn (m.granted msg) (m.taken block buff msg) (after (dispatch msg (m.taken block buff msg))) :=
        dispatch_turn (m.taken block buff msg) msg
      rw [binds]
      exact (Turn.of_same same turn).then (caught_settles _)
    | error e buff =>
      rw [error_bind (deserializeInput_error executed)]
      have binds : m.binding (.read (.ok block)) = [] := by
        simp only [binding, pending, ↓reduceIte, executed]
      have same : SameRequests m { m.got block with inputBuffer := buff } := ⟨rfl, rfl, rfl, rfl, rfl, rfl⟩
      rw [binds]
      exact (same.settles.trans (caught_settles (.error e { m.got block with inputBuffer := buff }))).turn
  | error e =>
    refine Settles.turn ?_
    rw [onMessageReceived, if_neg (by simp [pending])]
    cases e with
    | connectionReset => exact failed_settles _ _
    | _ => exact SameRequests.settles ⟨rfl, rfl, rfl, rfl, rfl, rfl⟩

end ConnectionManager
open ConnectionManager

/-- What a step does to the requests and the handlers. -/
theorem Step.turn {m m' : ConnectionManager} {e : Event} (step : Step m e m') (inside : ∀ submission, e ≠ .submitted submission) :
    Turn (m.binding e) m m' := by
  cases step with
  | handshake pending transfers =>
    rename_i bytesRead
    have binds : m.binding (.read bytesRead) = [] := by
      cases bytesRead with
      | ok block => exact if_neg (by rw [pending]; nofun)
      | error e => rfl
    rw [binds]
    exact ((handshakeBody_same bytesRead m).settles.trans (caughtHandshake_settles _)).turn
  | read pending transfers =>
    rename_i bytesRead
    by_cases closing : m.phase = .closing
    · have ignored : onMessageReceived bytesRead m = .ok () { m with phase := .stopped } := if_pos closing
      have binds : m.binding (.read bytesRead) = [] := by
        cases bytesRead with
        | ok block => exact if_neg (by rw [closing]; nofun)
        | error e => rfl
      have same : SameRequests m { m with phase := .stopped } := ⟨rfl, rfl, rfl, rfl, rfl, rfl⟩
      rw [ignored, binds]
      exact same.settles.turn
    · exact onMessageReceived_turn (pending.resolve_right closing) bytesRead
  | submitted constructed => exact absurd rfl (inside _)
  | ran posted => exact ran_turn posted
  | dataSent =>
    rename_i bytesWritten
    cases bytesWritten with
    | ok count => exact (SameRequests.settles ⟨rfl, rfl, rfl, rfl, rfl, rfl⟩).turn
    | error e => exact (onError_settles _ _ _).turn
  | closed constructed =>
    refine (SameRequests.settles ?_).turn
    unfold close
    split <;> exact ⟨rfl, rfl, rfl, rfl, rfl, rfl⟩

end Oac.Client
