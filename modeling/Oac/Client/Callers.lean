import Oac.Base.History
import Oac.Client.Handlers

/-!
# Callers of the client

A `flight_vars_client` with the threads that call it. Each call posts its request and waits
for the promise, or gives up. The log tells what the callers have seen; an update handler
is told apart by the call that passed it.
-/
namespace Oac.Client
open Base Proto ConnectionManager

/-- A call of the client. -/
inductive Call where
  | subscribe (varId : VariableId)
  | unsubscribe (virtualSubsId : SubscriptionId)
  | update (virtualSubsId : SubscriptionId) (varValue : VariableValue)

/-- What the call submits. Its number stands for the handler it passes. -/
def Call.submission (number : Nat) : Call → Submission
  | .subscribe varId => .subscribe varId number
  | .unsubscribe virtualSubsId => .unsubscribe virtualSubsId
  | .update virtualSubsId varValue => .update virtualSubsId varValue

/-- What the callers see. A result that is a failure is thrown. -/
inductive Occurrence where
  | called (number : Nat) (call : Call)
  | returned (number : Nat) (result : Resolution)
  /-- `get_result` has run out of time, and `communication_error` is thrown -/
  | timedOut (number : Nat)
  | invoked (handler : Nat) (varId : VariableId) (varValue : VariableValue)

structure FlightVarsClient where
  connMngr : ConnectionManager
  /-- what has happened -/
  log : List Occurrence

/-- What happens to a client. -/
inductive ClientEvent where
  /-- in the IO service -/
  | io (event : Event)
  | called (call : Call)
  | returned (number : Nat) (result : Resolution)
  | timedOut (number : Nat)

namespace FlightVarsClient

/-- A client whose manager has sent its BEGIN_SESSION. -/
def connecting : FlightVarsClient := ⟨ConnectionManager.connecting, []⟩

/-- The call is still in `get_result`. -/
def Waiting (c : FlightVarsClient) (number : Nat) : Prop :=
  (∃ call, .called number call ∈ c.log) ∧ (∀ result, .returned number result ∉ c.log) ∧ .timedOut number ∉ c.log

/-- The calls of handlers that a manager has made since. -/
def invocations (m m' : ConnectionManager) : List Occurrence :=
  (m'.invoked.drop m.invoked.length).map fun call => .invoked call.1 call.2.1 call.2.2

end FlightVarsClient
open FlightVarsClient

/-- The steps of a client. Calls may come from any thread, and wait for any time. -/
inductive ClientStep : FlightVarsClient → ClientEvent → FlightVarsClient → Prop
  | io {c : FlightVarsClient} {e : Event} {m : ConnectionManager} (inside : ∀ submission, e ≠ .submitted submission)
      (step : Step c.connMngr e m) : ClientStep c (.io e) ⟨m, c.log ++ invocations c.connMngr m⟩
  | called {c : FlightVarsClient} {call : Call} {m : ConnectionManager}
      (step : Step c.connMngr (.submitted (call.submission c.connMngr.submitted)) m) :
      ClientStep c (.called call) ⟨m, c.log ++ [.called c.connMngr.submitted call]⟩
  | returned {c : FlightVarsClient} {number : Nat} {result : Resolution} (waiting : c.Waiting number)
      (resolved : (number, result) ∈ c.connMngr.resolved) :
      ClientStep c (.returned number result) { c with log := c.log ++ [.returned number result] }
  | timedOut {c : FlightVarsClient} {number : Nat} (waiting : c.Waiting number)
      (unresolved : ∀ result, (number, result) ∉ c.connMngr.resolved) :
      ClientStep c (.timedOut number) { c with log := c.log ++ [.timedOut number] }

/-! ## What handlers may expect -/

/-- The call has thrown. -/
def Thrown (log : List Occurrence) (number : Nat) : Prop :=
  .timedOut number ∈ log ∨ ∃ e, .returned number (.failed e) ∈ log

/-- A call of `unsubscribe` was made with the id that the call had returned. -/
def Revoked (log : List Occurrence) (number revoker : Nat) : Prop :=
  ∃ id before later, log = before ++ .called revoker (.unsubscribe id) :: later ∧ .returned number (.subscribed id) ∈ before

/-- The subscription of the call has been ended by a call that returned normally. -/
def Unsubscribed (log : List Occurrence) (number : Nat) : Prop := ∃ revoker, Revoked log number revoker ∧ .returned revoker .done ∈ log

/-- A handler is invoked only while its subscription is. -/
def InPlace (before : List Occurrence) : Occurrence → Prop
  | .invoked handler _ _ => ¬ Thrown before handler ∧ ¬ Unsubscribed before handler
  | _ => True

/-- No request is given a virtual subscription after its call has timed out. -/
def InTime (c : FlightVarsClient) : ClientEvent → Prop
  | .io e => ∀ req ∈ c.connMngr.binding e, .timedOut req.id ∉ c.log
  | _ => True

/-- Virtual subscriptions are given ids that are not in use. -/
def NoReuse (c : FlightVarsClient) : ClientEvent → Prop
  | .io e => c.connMngr.db.Roomy (c.connMngr.binding e).length
  | _ => True

/-! ## Managers -/

/-- Each request is in one place at most, and the DB holds what has been granted. -/
structure Accounted (m : ConnectionManager) : Prop where
  once : ∀ id, m.places id ≤ 1
  new : ∀ id, m.submitted ≤ id → m.places id = 0
  bound : ∀ {v s}, m.db.Holds v s → (s.handler, .subscribed s.id) ∈ m.resolved
  named : ∀ req, m.Waits req → req.handler = req.id

variable {m m' : ConnectionManager} {c c' : FlightVarsClient} {log events : List Occurrence} {number revoker : Nat}

theorem connecting_accounted : Accounted ConnectionManager.connecting where
  once _ := Nat.zero_le _
  new _ _ := rfl
  bound := by
    rintro v s ⟨e, member, -⟩
    cases member
  named := by
    rintro req (posted | pooled)
    · cases posted
    · cases pooled

theorem Accounted.unique (accounted : Accounted m) {a b : Resolution} (first : (number, a) ∈ m.resolved) (second : (number, b) ∈ m.resolved) :
    a = b := by
  have distinct : (m.resolved.map Prod.fst).Nodup := by
    rw [List.nodup_iff_count_le_one]
    intro id
    have once := accounted.once id
    unfold ConnectionManager.places at once
    omega
  exact congrArg Prod.snd (List.inj_on_of_nodup_map distinct first second rfl)

/-- What waits is not resolved. -/
theorem Accounted.unresolved (accounted : Accounted m) {req : SubscriptionRequest} (waits : m.Waits req) (resolution : Resolution) :
    (req.id, resolution) ∉ m.resolved := by
  intro resolved
  have once := accounted.once req.id
  have counted : 0 < (m.resolved.map Prod.fst).count req.id := List.count_pos_iff.mpr (List.mem_map_of_mem resolved)
  unfold ConnectionManager.places at once
  rcases waits with posted | pooled
  · have somewhere : 0 < (m.tasks.map Task.id).count req.id := List.count_pos_iff.mpr (List.mem_map_of_mem posted)
    omega
  · have somewhere : 0 < m.requestPool.ids.count req.id :=
      List.count_pos_iff.mpr (List.mem_append_left _ (List.mem_map_of_mem pooled))
    omega

/-- Two requests with one number are one. -/
theorem Accounted.alone (accounted : Accounted m) {req req' : SubscriptionRequest} (waits : m.Waits req) (waits' : m.Waits req')
    (same : req.id = req'.id) : req = req' := by
  have once : ∀ id, (m.tasks.map Task.id).count id + (m.requestPool.subsReqs.map SubscriptionRequest.id).count id ≤ 1 := by
    intro id
    have once := accounted.once id
    rw [ConnectionManager.places, RequestPool.ids, List.count_append] at once
    omega
  have apart : ∀ {req req' : SubscriptionRequest}, Task.subscription req ∈ m.tasks → req' ∈ m.requestPool.subsReqs →
      req.id ≠ req'.id := by
    intro req req' posted pooled same
    have first : 0 < (m.tasks.map Task.id).count req.id := List.count_pos_iff.mpr (List.mem_map_of_mem posted)
    have second : 0 < (m.requestPool.subsReqs.map SubscriptionRequest.id).count req'.id :=
      List.count_pos_iff.mpr (List.mem_map_of_mem pooled)
    have once := once req.id
    rw [← same] at second
    omega
  rcases waits with posted | pooled
  · rcases waits' with posted' | pooled'
    · have distinct : (m.tasks.map Task.id).Nodup := List.nodup_iff_count_le_one.mpr fun id => le_trans (Nat.le_add_right _ _) (once id)
      cases List.inj_on_of_nodup_map distinct posted posted' same
      rfl
    · exact absurd same (apart posted pooled')
  · rcases waits' with posted' | pooled'
    · exact absurd same.symm (apart posted' pooled)
    · have distinct : (m.requestPool.subsReqs.map SubscriptionRequest.id).Nodup :=
        List.nodup_iff_count_le_one.mpr fun id => le_trans (Nat.le_add_left _ _) (once id)
      exact List.inj_on_of_nodup_map distinct pooled pooled' same

theorem Accounted.turn {reqs : List SubscriptionRequest} (accounted : Accounted m) (turn : Turn reqs m m') : Accounted m' where
  once id := (turn.places id).trans (accounted.once id)
  new id later := by
    have fewer := turn.places id
    rw [accounted.new id (turn.submitted ▸ later)] at fewer
    exact Nat.le_zero.mp fewer
  bound holds := by
    rcases turn.bound holds with old | ⟨req, among, -, same, granted⟩
    · exact turn.resolved (accounted.bound old)
    · rw [same, accounted.named req (turn.asked req among)]
      exact granted
  named := by
    rintro req (posted | pooled)
    · exact accounted.named req (.inl (turn.tasks posted))
    · exact accounted.named req (turn.waiting req pooled)

theorem Accounted.submit (accounted : Accounted m) (call : Call) : Accounted (submit (call.submission m.submitted) m) where
  once id := by
    rw [submit_places]
    by_cases new : id = m.submitted
    · rw [new, accounted.new m.submitted le_rfl]
      simp
    · have others : [m.submitted].count id = 0 := List.count_eq_zero.mpr (by simpa using new)
      rw [others]
      exact accounted.once id
  new id later := by
    have later : m.submitted + 1 ≤ id := later
    have others : [m.submitted].count id = 0 := List.count_eq_zero.mpr (by simp; omega)
    rw [submit_places, others]
    exact accounted.new id (by omega)
  bound := accounted.bound
  named := by
    rintro req (posted | pooled)
    · rcases List.mem_append.mp posted with old | new
      · exact accounted.named req (.inl old)
      · cases call with
        | subscribe varId =>
          cases List.mem_singleton.mp new
          rfl
        | unsubscribe id => cases List.mem_singleton.mp new
        | update id varValue => cases List.mem_singleton.mp new
    · exact accounted.named req (.inr pooled)

/-! ## The log -/

def Occurrence.IsInvocation : Occurrence → Prop
  | .invoked _ _ _ => True
  | _ => False

theorem invocations_invoked {o : Occurrence} (among : o ∈ invocations m m') : o.IsInvocation := by
  obtain ⟨call, -, rfl⟩ := List.mem_map.mp among
  trivial

/-- Invocations add nothing else to a log. -/
theorem mem_quiet (quiet : ∀ o ∈ events, o.IsInvocation) {o : Occurrence} (other : ¬ o.IsInvocation) (among : o ∈ log ++ events) :
    o ∈ log :=
  (List.mem_append.mp among).resolve_right fun later => other (quiet o later)

theorem thrown_quiet (quiet : ∀ o ∈ events, o.IsInvocation) (thrown : Thrown (log ++ events) number) : Thrown log number := by
  rcases thrown with late | ⟨e, failed⟩
  · exact .inl (mem_quiet quiet id late)
  · exact .inr ⟨e, mem_quiet quiet id failed⟩

/-- What is asked for in the later events is not yet asked for. -/
theorem revoked_append (revoked : Revoked (log ++ events) number revoker) : Revoked log number revoker ∨
    ∃ id before later, events = before ++ .called revoker (.unsubscribe id) :: later ∧
      .returned number (.subscribed id) ∈ log ++ before := by
  obtain ⟨id, before, later, split, returned⟩ := revoked
  rcases List.append_eq_append_iff.mp split with ⟨more, rfl, rest⟩ | ⟨more, rfl, rest⟩
  · exact .inr ⟨id, more, later, rest, returned⟩
  · cases more with
    | nil => exact .inr ⟨id, [], later, rest.symm, List.mem_append_left _ (List.mem_append_left _ returned)⟩
    | cons o more =>
      obtain ⟨rfl, -⟩ := List.cons.inj rest
      exact .inl ⟨id, before, more, rfl, returned⟩

/-- Nothing is asked for where nothing is called. -/
theorem revoked_quiet (quiet : ∀ o ∈ events, o.IsInvocation) (revoked : Revoked (log ++ events) number revoker) :
    Revoked log number revoker := by
  rcases revoked_append revoked with old | ⟨id, before, later, split, -⟩
  · exact old
  · have among : Occurrence.called revoker (.unsubscribe id) ∈ events := split ▸ List.mem_append_right _ List.mem_cons_self
    exact (quiet _ among).elim

theorem Revoked.called (revoked : Revoked log number revoker) : ∃ id, .called revoker (.unsubscribe id) ∈ log ∧
    .returned number (.subscribed id) ∈ log := by
  obtain ⟨id, before, later, rfl, returned⟩ := revoked
  exact ⟨id, List.mem_append_right _ List.mem_cons_self, List.mem_append_left _ returned⟩

/-! ## Clients -/

/-- What the callers have seen fits the manager. -/
structure Kept (c : FlightVarsClient) : Prop where
  accounted : Accounted c.connMngr
  indexed : c.connMngr.db.Indexed
  unsubscribing : ∀ req, Task.unsubscription req ∈ c.connMngr.tasks → .called req.id (.unsubscribe req.virtualSubsId) ∈ c.log
  updating : ∀ req, Task.variableUpdate req ∈ c.connMngr.tasks → .called req.id (.update req.virtualSubsId req.varValue) ∈ c.log
  numbered : ∀ {number call}, .called number call ∈ c.log → number < c.connMngr.submitted
  single : ∀ {number call call'}, .called number call ∈ c.log → .called number call' ∈ c.log → call = call'
  told : ∀ {number result}, .returned number result ∈ c.log → (number, result) ∈ c.connMngr.resolved
  late : ∀ {number}, .timedOut number ∈ c.log → ¬ c.connMngr.Live number
  revoked : ∀ {number revoker}, Revoked c.log number revoker → c.connMngr.Ended revoker → ¬ c.connMngr.Live number
  order : Ordered InPlace c.log

theorem connecting_kept : Kept FlightVarsClient.connecting where
  accounted := connecting_accounted
  indexed := by
    rintro v s ⟨e, member, -⟩
    cases member
  unsubscribing := nofun
  updating := nofun
  numbered := nofun
  single := nofun
  told := nofun
  late := nofun
  revoked := by
    intro number revoker revoked
    obtain ⟨id, called, -⟩ := revoked.called
    cases called
  order := ordered_nil

/-- The handler of a call that has thrown, or whose subscription has been ended, is not held. -/
theorem Kept.dead (kept : Kept c) : (Thrown c.log number → ¬ c.connMngr.Live number) ∧
    (Unsubscribed c.log number → ¬ c.connMngr.Live number) := by
  constructor
  · rintro (late | ⟨e, failed⟩)
    · exact kept.late late
    · rintro ⟨v, s, holds, rfl⟩
      cases kept.accounted.unique (kept.told failed) (kept.accounted.bound holds)
  · rintro ⟨revoker, revoked, done⟩
    exact kept.revoked revoked (.inl (kept.told done))

theorem Kept.io (kept : Kept c) {e : Event} (inside : ∀ submission, e ≠ .submitted submission) (step : Step c.connMngr e m)
    (inTime : InTime c (.io e)) (roomy : NoReuse c (.io e)) : Kept ⟨m, c.log ++ invocations c.connMngr m⟩ := by
  have turn := step.turn inside
  have accounted : Accounted m := kept.accounted.turn turn
  have quiet : ∀ o ∈ invocations c.connMngr m, o.IsInvocation := fun _ => invocations_invoked
  -- A handler that is held now was held before or is that of a request that waited.
  have live : ∀ {number}, m.Live number → c.connMngr.Live number ∨
      ∃ req ∈ c.connMngr.binding e, c.connMngr.Waits req ∧ req.id = number := by
    rintro number ⟨v, s, holds, rfl⟩
    rcases turn.bound holds with old | ⟨req, among, -, same, -⟩
    · exact .inl ⟨v, s, old, rfl⟩
    · have waits := turn.asked req among
      exact .inr ⟨req, among, waits, by rw [same, kept.accounted.named req waits]⟩
  constructor
  · exact accounted
  · exact turn.indexed roomy kept.indexed
  · exact fun req posted => List.mem_append_left _ (kept.unsubscribing req (turn.tasks posted))
  · exact fun req posted => List.mem_append_left _ (kept.updating req (turn.tasks posted))
  · intro number call called
    show number < m.submitted
    rw [turn.submitted]
    exact kept.numbered (mem_quiet quiet id called)
  · exact fun called called' => kept.single (mem_quiet quiet id called) (mem_quiet quiet id called')
  · exact fun returned => turn.resolved (kept.told (mem_quiet quiet id returned))
  · intro number late held
    have late := mem_quiet quiet id late
    rcases live held with old | ⟨req, among, -, rfl⟩
    · exact kept.late late old
    · exact inTime req among late
  · intro number revoker revoked ended held
    have revoked := revoked_quiet quiet revoked
    obtain ⟨id, called, returned⟩ := revoked.called
    have granted := kept.told returned
    rcases turn.ended ended with old | ⟨req, posted, rfl⟩ | ⟨req, posted, rfl, gone⟩
    · rcases live held with before | ⟨req, among, waits, rfl⟩
      · exact kept.revoked revoked old before
      · exact kept.accounted.unresolved waits _ granted
    · cases kept.single called (kept.updating req posted)
    · -- The subscription that the task has removed is that of the call.
      cases kept.single called (kept.unsubscribing req posted)
      obtain ⟨v, s, holds, rfl⟩ := held
      have same := accounted.unique (turn.resolved granted) (accounted.bound holds)
      rw [Resolution.subscribed.injEq] at same
      exact gone kept.indexed holds same.symm
  · refine kept.order.extend fun before o later split => ?_
    obtain ⟨calls, made, called⟩ := turn.calls
    have quiet' : ∀ o ∈ before, o.IsInvocation := fun o among => quiet o (split ▸ List.mem_append_left _ among)
    have among : o ∈ invocations c.connMngr m := split ▸ List.mem_append_right _ List.mem_cons_self
    rw [invocations, made, List.drop_left] at among
    obtain ⟨call, member, rfl⟩ := List.mem_map.mp among
    have held := called call member
    constructor
    · exact fun thrown => kept.dead.1 (thrown_quiet quiet' thrown) held
    · rintro ⟨revoker, revoked, done⟩
      exact kept.dead.2 ⟨revoker, revoked_quiet quiet' revoked, mem_quiet quiet' id done⟩ held

theorem Kept.called (kept : Kept c) {call : Call} (step : Step c.connMngr (.submitted (call.submission c.connMngr.submitted)) m) :
    Kept ⟨m, c.log ++ [.called c.connMngr.submitted call]⟩ := by
  cases step with
  | submitted constructed =>
  have new : ∀ {o}, o ∈ c.log ++ [.called c.connMngr.submitted call] → o ∈ c.log ∨ o = .called c.connMngr.submitted call := by
    intro o among
    simpa using among
  constructor
  · exact kept.accounted.submit call
  · exact kept.indexed
  · intro req posted
    rcases List.mem_append.mp posted with old | this
    · exact List.mem_append_left _ (kept.unsubscribing req old)
    · cases call with
      | unsubscribe id =>
        cases List.mem_singleton.mp this
        exact List.mem_append_right _ (List.mem_singleton_self _)
      | subscribe varId => cases List.mem_singleton.mp this
      | update id varValue => cases List.mem_singleton.mp this
  · intro req posted
    rcases List.mem_append.mp posted with old | this
    · exact List.mem_append_left _ (kept.updating req old)
    · cases call with
      | update id varValue =>
        cases List.mem_singleton.mp this
        exact List.mem_append_right _ (List.mem_singleton_self _)
      | subscribe varId => cases List.mem_singleton.mp this
      | unsubscribe id => cases List.mem_singleton.mp this
  · intro number call' called
    show number < c.connMngr.submitted + 1
    rcases new called with old | this
    · have before := kept.numbered old
      omega
    · cases this
      omega
  · intro number call₁ call₂ first second
    rcases new first with old | this
    · rcases new second with old' | this'
      · exact kept.single old old'
      · cases this'
        exact absurd (kept.numbered old) (lt_irrefl _)
    · cases this
      rcases new second with old' | this'
      · exact absurd (kept.numbered old') (lt_irrefl _)
      · cases this'
        rfl
  · intro number result returned
    rcases new returned with old | this
    · exact kept.told old
    · cases this
  · intro number late
    rcases new late with old | this
    · exact kept.late old
    · cases this
  · intro number revoker revoked ended
    rcases revoked_append revoked with old | ⟨id, before, later, split, -⟩
    · exact kept.revoked old ended
    · -- The call has only just been made.
      have called : Occurrence.called revoker (.unsubscribe id) ∈ [Occurrence.called c.connMngr.submitted call] :=
        split ▸ List.mem_append_right _ List.mem_cons_self
      cases List.mem_singleton.mp called
      have nowhere := kept.accounted.new c.connMngr.submitted le_rfl
      unfold ConnectionManager.places at nowhere
      rcases ended with done | waits
      · have somewhere : 0 < (c.connMngr.resolved.map Prod.fst).count c.connMngr.submitted :=
          List.count_pos_iff.mpr (List.mem_map_of_mem done)
        omega
      · have somewhere : 0 < c.connMngr.requestPool.ids.count c.connMngr.submitted :=
          List.count_pos_iff.mpr (List.mem_append_right _ waits)
        omega
  · exact kept.order.concat trivial

/-- A caller that stops to wait. -/
theorem Kept.stopped (kept : Kept c) {o : Occurrence} (other : ¬ o.IsInvocation) (uncalled : ∀ number call, o ≠ .called number call)
    (told : ∀ number result, o = .returned number result → (number, result) ∈ c.connMngr.resolved)
    (late : ∀ number, o = .timedOut number → ∀ result, (number, result) ∉ c.connMngr.resolved) :
    Kept { c with log := c.log ++ [o] } := by
  have new : ∀ {o'}, o' ∈ c.log ++ [o] → o' ∈ c.log ∨ o = o' := by
    intro o' among
    rcases List.mem_append.mp among with old | this
    · exact .inl old
    · exact .inr (List.mem_singleton.mp this).symm
  constructor
  · exact kept.accounted
  · exact kept.indexed
  · exact fun req posted => List.mem_append_left _ (kept.unsubscribing req posted)
  · exact fun req posted => List.mem_append_left _ (kept.updating req posted)
  · exact fun called => kept.numbered ((new called).resolve_right (uncalled _ _))
  · exact fun called called' =>
      kept.single ((new called).resolve_right (uncalled _ _)) ((new called').resolve_right (uncalled _ _))
  · intro number result returned
    rcases new returned with old | this
    · exact kept.told old
    · exact told number result this
  · intro number timedOut
    rcases new timedOut with old | this
    · exact kept.late old
    · rintro ⟨v, s, holds, rfl⟩
      exact late _ this _ (kept.accounted.bound holds)
  · intro number revoker revoked
    rcases revoked_append revoked with old | ⟨id, before, later, split, -⟩
    · exact kept.revoked old
    · have called : Occurrence.called revoker (.unsubscribe id) ∈ [o] := split ▸ List.mem_append_right _ List.mem_cons_self
      exact absurd (List.mem_singleton.mp called).symm (uncalled _ _)
  · refine kept.order.concat ?_
    cases o with
    | invoked => exact absurd trivial other
    | _ => trivial

theorem Kept.step {e : ClientEvent} (kept : Kept c) (step : ClientStep c e c') (inTime : InTime c e) (roomy : NoReuse c e) :
    Kept c' := by
  cases step with
  | io inside step => exact kept.io inside step inTime roomy
  | called step => exact kept.called step
  | returned waiting resolved =>
    refine kept.stopped id nofun ?_ nofun
    intro number result same
    cases same
    exact resolved
  | timedOut waiting unresolved =>
    refine kept.stopped id nofun nofun ?_
    intro number same
    cases same
    exact unresolved

/-- A late grant leaves a handler whose call has thrown. -/
theorem Kept.late_grant {e : ClientEvent} (kept : Kept c) (step : ClientStep c e c') (late : ¬ InTime c e) :
    ∃ number, Thrown c'.log number ∧ c'.connMngr.Live number := by
  cases step with
  | io inside step =>
    rename_i e m
    have turn := step.turn inside
    obtain ⟨req, among, thrown⟩ : ∃ req ∈ c.connMngr.binding e, .timedOut req.id ∈ c.log := by
      by_contra none
      exact late fun req among thrown => none ⟨req, among, thrown⟩
    refine ⟨req.id, .inl (List.mem_append_left _ thrown), ?_⟩
    have held := turn.held req among
    rwa [kept.accounted.named req (turn.asked req among)] at held
  | called step => exact absurd trivial late
  | returned waiting resolved => exact absurd trivial late
  | timedOut waiting unresolved => exact absurd trivial late

/-- As long as no request is given a virtual subscription after its call has timed out, a
    handler is invoked only before its call has thrown and before its subscription has been
    ended, and from then on the DB does not hold it. The first step that gives such a request
    a virtual subscription leaves its handler in the DB. -/
theorem handlers_in_place (run : Run (Meeting (Meeting ClientStep InTime) NoReuse) FlightVarsClient.connecting c) :
    Ordered InPlace c.log ∧ (∀ number, Thrown c.log number ∨ Unsubscribed c.log number → ¬ c.connMngr.Live number) ∧
      ∀ {e c'}, ClientStep c e c' → ¬ InTime c e → ∃ number, Thrown c'.log number ∧ c'.connMngr.Live number := by
  have kept : Kept c := run.invariant connecting_kept fun kept step => kept.step step.1.1 step.1.2 step.2
  refine ⟨kept.order, ?_, fun step late => kept.late_grant step late⟩
  rintro number (thrown | unsubscribed)
  · exact kept.dead.1 thrown
  · exact kept.dead.2 unsubscribed

/-! ## A subscription -/

def altitude : VariableId := variableId (text "fcu") (text "alt")

/-- The reply to the first request for it. -/
def subscribedReply : SubscriptionReplyMessage := ⟨.subscribed, text "fcu", text "alt", 1, []⟩

/-- The DB with the virtual subscription of call 0. -/
def boundDb : SubscriptionDb :=
  (SubscriptionDb.empty.initEntry altitude 1 List.not_mem_nil List.not_mem_nil).push altitude 0 List.mem_cons_self

theorem roomy_empty {count : Nat} (few : count ≤ 2 ^ 32) : SubscriptionDb.empty.Roomy count := ⟨few, fun _ _ => rfl⟩

/-- A step that invokes nothing. -/
theorem ClientStep.quiet {e : Event} (inside : ∀ submission, e ≠ .submitted submission) (step : Step m e m')
    (same : m'.invoked = m.invoked) : ClientStep ⟨m, log⟩ (.io e) ⟨m', log⟩ := by
  have quiet : invocations m m' = [] := by
    rw [invocations, same, List.drop_length]
    rfl
  have step : ClientStep ⟨m, log⟩ (.io e) _ := .io inside step
  rwa [quiet, List.append_nil] at step

/-- A step that gives nobody a virtual subscription. -/
theorem nobody_bound {e : Event} (nobody : m.binding e = []) : InTime ⟨m, log⟩ (.io e) ∧ NoReuse ⟨m, log⟩ (.io e) := by
  constructor
  · intro req among
    rw [nobody] at among
    cases among
  · show m.db.Roomy (m.binding e).length
    rw [nobody]
    exact ⟨Nat.zero_le _, nofun⟩

/-- A run that goes on with such a step. -/
theorem goes_on {start : FlightVarsClient} {e : Event} (run : Run (Meeting (Meeting ClientStep InTime) NoReuse) start ⟨m, log⟩)
    (step : ClientStep ⟨m, log⟩ (.io e) c) (nobody : m.binding e = []) :
    Run (Meeting (Meeting ClientStep InTime) NoReuse) start c :=
  run.next ⟨⟨step, (nobody_bound nobody).1⟩, (nobody_bound nobody).2⟩

/-- A client whose call of `subscribe` waits for the reply of the server. -/
theorem connecting_asked : ∃ m : ConnectionManager,
    Run (Meeting (Meeting ClientStep InTime) NoReuse) FlightVarsClient.connecting ⟨m, [.called 0 (.subscribe altitude)]⟩ ∧
      Idle m ∧ m.phase = .receiving ∧ m.db = .empty ∧ m.requestPool = ⟨[⟨0, altitude, 0⟩], []⟩ ∧ m.resolved = [] ∧
      m.invoked = [] := by
  obtain ⟨buff, m, same, step, idle, -⟩ :=
    connecting_greeted ⟨text "FlightVars Server", 0x0100⟩ (answers_valid _ List.mem_cons_self) (by decide)
  have pending : m.phase = .receiving := by rw [same]
  have submitted : m.submitted = 0 := by rw [same]; rfl
  have posted : m.tasks ++ [(Call.subscribe altitude).submission m.submitted |>.task m.submitted] =
      [] ++ .subscription ⟨0, altitude, 0⟩ :: [] := by rw [same]; rfl
  have undefined : ¬ m.db.Defined altitude := by
    rw [same]
    exact List.not_mem_nil
  have greeted : ClientStep FlightVarsClient.connecting (.io _) ⟨m, []⟩ := .quiet (by nofun) step (by rw [same]; rfl)
  have called : ClientStep ⟨m, []⟩ (.called (.subscribe altitude)) _ := .called (.submitted (by rw [pending]; nofun))
  have ran := Step.ran (m := submit ((Call.subscribe altitude).submission m.submitted) m) posted
  rw [runTask_subscription, onSubscriptionRequested_undefined _ undefined] at ran
  have asked : ClientStep ⟨_, [.called m.submitted (.subscribe altitude)]⟩ (.io _) ⟨_, _⟩ := .quiet (by nofun) ran rfl
  have run := goes_on ((goes_on (Run.refl _) greeted rfl).next ⟨⟨called, trivial⟩, trivial⟩) asked (if_neg undefined)
  rw [submitted] at run
  refine ⟨_, run, ⟨idle.unmarked, idle.size, idle.content⟩, pending, ?_, ?_, ?_, ?_⟩
  · rw [same]
    rfl
  · rw [same]
    rfl
  · rw [same]
    rfl
  · rw [same]
    rfl

theorem dispatch_subscribed (unknown : m.db = .empty) (pooled : m.requestPool = ⟨[⟨0, altitude, 0⟩], []⟩)
    (unresolved : m.resolved = []) : dispatch (.subscriptionRep subscribedReply) m = .ok () { m with
      db := boundDb
      requestPool := .empty
      resolved := [(0, .subscribed 1)] } := by
  obtain ⟨state, phase, inputBuffer, db, requestPool, tasks, submitted, resolved, sent, reported, invoked, received, decoded⟩ := m
  cases unknown
  cases pooled
  cases unresolved
  rfl

/-- The reply gives the request its virtual subscription. -/
theorem asked_bound (idle : Idle m) (pending : m.phase = .receiving) (unknown : m.db = .empty)
    (pooled : m.requestPool = ⟨[⟨0, altitude, 0⟩], []⟩) (unresolved : m.resolved = []) : ∃ m',
      Step m (.read (.ok (wire (.subscriptionRep subscribedReply)))) m' ∧ Idle m' ∧ m'.phase = .receiving ∧ m'.db = boundDb ∧
      m'.resolved = [(0, .subscribed 1)] ∧ m'.invoked = m.invoked ∧
      m.binding (.read (.ok (wire (.subscriptionRep subscribedReply)))) = [⟨0, altitude, 0⟩] := by
  have valid : (Message.subscriptionRep subscribedReply).Valid := by
    refine ⟨?_, ?_, ?_⟩ <;> decide
  obtain ⟨buff, executed, step, unmarked, size, left⟩ := idle.reads pending valid (by decide)
  rw [dispatch_subscribed (m := m.taken _ _ _) unknown pooled unresolved] at step
  refine ⟨_, step, ⟨unmarked, size, left⟩, rfl, rfl, rfl, rfl, ?_⟩
  have grants : subscribedReply.st = .subscribed ∧ (m.db.Defined altitude ∨ ¬ m.db.MasterDefined subscribedReply.subsId) := by
    rw [unknown]
    exact ⟨rfl, .inr List.not_mem_nil⟩
  simp only [binding, pending, ↓reduceIte, executed]
  refine (if_pos grants).trans ?_
  rw [pooled]
  rfl

theorem dispatch_updated (known : m.db = boundDb) : dispatch (.varUpdate ⟨1, .bool true⟩) m = .ok () { m with
    invoked := m.invoked ++ [(0, altitude, .bool true)] } := by
  obtain ⟨state, phase, inputBuffer, db, requestPool, tasks, submitted, resolved, sent, reported, invoked, received, decoded⟩ := m
  cases known
  rfl

/-- An update reaches the handler. -/
theorem bound_updated (idle : Idle m) (pending : m.phase = .receiving) (known : m.db = boundDb) (uninvoked : m.invoked = []) :
    ∃ m', Step m (.read (.ok (wire (.varUpdate ⟨1, .bool true⟩)))) m' ∧ m'.db = boundDb ∧
      m'.invoked = [(0, altitude, .bool true)] ∧ m.binding (.read (.ok (wire (.varUpdate ⟨1, .bool true⟩)))) = [] := by
  obtain ⟨buff, executed, step, -⟩ := idle.reads pending (show (Message.varUpdate ⟨1, .bool true⟩).Valid from trivial) (by decide)
  rw [dispatch_updated (m := m.taken _ _ _) known] at step
  refine ⟨_, step, known, ?_, ?_⟩
  · show m.invoked ++ _ = _
    rw [uninvoked]
    rfl
  · simp only [binding, pending, ↓reduceIte, executed]
    rfl

/-- A step that calls the handler once. -/
theorem ClientStep.invokes {e : Event} (inside : ∀ submission, e ≠ .submitted submission) (step : Step m e m')
    (none : m.invoked = []) (once : m'.invoked = [(0, altitude, .bool true)]) :
    ClientStep ⟨m, log⟩ (.io e) ⟨m', log ++ [.invoked 0 altitude (.bool true)]⟩ := by
  have made : invocations m m' = [.invoked 0 altitude (.bool true)] := by
    rw [invocations, none, once]
    rfl
  have step : ClientStep ⟨m, log⟩ (.io e) _ := .io inside step
  rwa [made] at step

/-- A subscription that is granted in time, and an update. -/
theorem handlers_in_place_granted : ∃ c, Run (Meeting (Meeting ClientStep InTime) NoReuse) FlightVarsClient.connecting c ∧
    c.log = [.called 0 (.subscribe altitude), .returned 0 (.subscribed 1), .invoked 0 altitude (.bool true)] ∧
    Ordered InPlace c.log := by
  obtain ⟨m, asked, idle, pending, unknown, pooled, unresolved, uninvoked⟩ := connecting_asked
  obtain ⟨m₁, bound, idle₁, pending₁, known, resolved, uninvoked₁, binds⟩ := asked_bound idle pending unknown pooled unresolved
  obtain ⟨m₂, updated, -, invoked, nobody⟩ := bound_updated idle₁ pending₁ known (uninvoked₁.trans uninvoked)
  have granted : ClientStep ⟨m, [.called 0 (.subscribe altitude)]⟩ (.io _) ⟨m₁, _⟩ := .quiet (by nofun) bound uninvoked₁
  have inTime : InTime ⟨m, [.called 0 (.subscribe altitude)]⟩ (.io (.read (.ok (wire (.subscriptionRep subscribedReply))))) := by
    intro req among late
    cases List.mem_singleton.mp late
  have roomy : NoReuse ⟨m, [.called 0 (.subscribe altitude)]⟩ (.io (.read (.ok (wire (.subscriptionRep subscribedReply))))) := by
    show m.db.Roomy (m.binding _).length
    rw [unknown, binds]
    exact roomy_empty (by decide)
  have returned : ClientStep ⟨m₁, [.called 0 (.subscribe altitude)]⟩ (.returned 0 (.subscribed 1)) ⟨m₁, _⟩ :=
    .returned ⟨⟨_, List.mem_singleton_self _⟩, by simp, by simp⟩ (resolved ▸ List.mem_singleton_self _)
  have invokes : ClientStep ⟨m₁, [.called 0 (.subscribe altitude)] ++ [.returned 0 (.subscribed 1)]⟩ (.io _) ⟨m₂, _⟩ :=
    .invokes (by nofun) updated (uninvoked₁.trans uninvoked) invoked
  have run := goes_on ((asked.next ⟨⟨granted, inTime⟩, roomy⟩).next ⟨⟨returned, trivial⟩, trivial⟩) invokes nobody
  exact ⟨_, run, rfl, (handlers_in_place run).1⟩

/-- A subscription that is granted after its call has timed out: the handler of a call that
    has thrown is in the DB, and an update invokes it. -/
theorem handlers_late : ∃ c, Run (Meeting ClientStep NoReuse) FlightVarsClient.connecting c ∧ ¬ Ordered InPlace c.log ∧
    Thrown c.log 0 ∧ c.connMngr.Live 0 := by
  obtain ⟨m, asked, idle, pending, unknown, pooled, unresolved, uninvoked⟩ := connecting_asked
  obtain ⟨m₁, bound, idle₁, pending₁, known, resolved, uninvoked₁, binds⟩ := asked_bound idle pending unknown pooled unresolved
  obtain ⟨m₂, updated, known', invoked, nobody⟩ := bound_updated idle₁ pending₁ known (uninvoked₁.trans uninvoked)
  have late : ClientStep ⟨m, [.called 0 (.subscribe altitude)]⟩ (.timedOut 0) ⟨m, _⟩ :=
    .timedOut ⟨⟨_, List.mem_singleton_self _⟩, by simp, by simp⟩ (by simp [unresolved])
  have granted : ClientStep ⟨m, [.called 0 (.subscribe altitude)] ++ [.timedOut 0]⟩ (.io _) ⟨m₁, _⟩ :=
    .quiet (by nofun) bound uninvoked₁
  have roomy : NoReuse ⟨m, [.called 0 (.subscribe altitude)] ++ [.timedOut 0]⟩
      (.io (.read (.ok (wire (.subscriptionRep subscribedReply))))) := by
    show m.db.Roomy (m.binding _).length
    rw [unknown, binds]
    exact roomy_empty (by decide)
  have invokes : ClientStep ⟨m₁, [.called 0 (.subscribe altitude)] ++ [.timedOut 0]⟩ (.io _) ⟨m₂, _⟩ :=
    .invokes (by nofun) updated (uninvoked₁.trans uninvoked) invoked
  have before : Run (Meeting ClientStep NoReuse) FlightVarsClient.connecting ⟨m, [.called 0 (.subscribe altitude)]⟩ :=
    asked.invariant (Run.refl _) fun run step => run.next ⟨step.1.1, step.2⟩
  have run := ((before.next ⟨late, trivial⟩).next ⟨granted, roomy⟩).next ⟨invokes, (nobody_bound nobody).2⟩
  refine ⟨_, run, fun ordered => ?_, .inl (by simp), ?_⟩
  · exact (ordered _ _ [] rfl).1 (.inl (by simp))
  · rw [Live, known']
    exact ⟨altitude, ⟨1, 0⟩, ⟨_, List.mem_cons_self, rfl, List.mem_cons_self⟩, rfl⟩

end Oac.Client
