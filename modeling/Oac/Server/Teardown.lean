import Oac.Server.Sessions

/-!
# The end of a session

The destructor of a session unsubscribes all ids of its mapper. It releases exactly what
the session registered if none of these ids has been removed through another session
(`teardown_exact`): the first one that has makes the delegate throw, from a destructor.
-/
namespace Oac.Server
open Base Proto Session FlightVars FlightVarsServer

variable {δ : Type} [FlightVars δ]

/-- `session::unsubscribe_all`, called by the destructor. -/
def Peer.unsubscribeAll : EStateM Exception (Peer δ) Unit := fun p =>
  match FlightVarsServer.unsubscribeAll p.session.subscriptions p.delegate with
  | .ok () delegate => .ok () ⟨{ p.session with subscriptions := .empty }, delegate⟩
  | .error e delegate => .error e ⟨p.session, delegate⟩

/-- A server, and the session that each live subscription was registered by. -/
abbrev Accounts (δ : Type) := FlightVarsServer δ × (SubscriptionId → Option Nat)

/-- The session that an event registers subscriptions for. -/
def registrant : ServerEvent δ → Option Nat
  | .read k _ => some k
  | _ => none

/-- A step of the server. The ids that it adds to the delegate are registered by the
    session that it is a step of. -/
def AccountedStep (live : δ → Set SubscriptionId) (before : Accounts δ) (e : ServerEvent δ) (now : Accounts δ) : Prop :=
  FlightVarsServer.Step live before.1 e now.1 ∧
    (∀ id ∈ live now.1.delegate \ live before.1.delegate, now.2 id = registrant e) ∧
    ∀ id ∉ live now.1.delegate \ live before.1.delegate, now.2 id = before.2 id

/-- The end of the session `k` removes from the delegate all that it registered and no
    more, empties its mapper and throws nothing. -/
def EndsCleanly (live : δ → Set SubscriptionId) (registrar : SubscriptionId → Option Nat) (k : Nat) (p : Peer δ) : Prop :=
  ∃ p', Peer.unsubscribeAll p = .ok () p' ∧
    live p'.delegate = live p.delegate \ { id | registrar id = some k } ∧ p'.session.subscriptions = .empty

/-- The ids of the session are live, and not registered by another one since. -/
def Untaken (live : δ → Set SubscriptionId) (registrar : SubscriptionId → Option Nat) (k : Nat) (p : Peer δ) : Prop :=
  ∀ id, p.session.subscriptions.Owns id → id ∈ live p.delegate ∧ registrar id = some k

/-! ## The loop -/

section
variable {live : δ → Set SubscriptionId}

theorem forM_unsubscribe_cons {id : SubscriptionId} {ids : List SubscriptionId} {d d' : δ} {a : Unit}
    (executed : unsubscribe id d = .ok a d') :
    (id :: ids).forM (m := EStateM Exception δ) unsubscribe d = ids.forM (m := EStateM Exception δ) unsubscribe d' :=
  ok_bind (f := fun _ => ids.forM unsubscribe) executed

/-- The loop gets through if and only if all ids are live. -/
theorem forM_unsubscribe_ok_iff (accountable : Accountable live) {ids : List SubscriptionId} (unique : ids.Nodup) {d : δ} :
    (∃ d', ids.forM (m := EStateM Exception δ) unsubscribe d = .ok () d') ↔ ∀ id ∈ ids, id ∈ live d := by
  induction ids generalizing d with
  | nil => exact ⟨nofun, fun _ => ⟨d, rfl⟩⟩
  | cons id ids ih =>
    obtain ⟨other, unique⟩ := List.nodup_cons.mp unique
    by_cases alive : id ∈ live d
    · obtain ⟨next, executed, less⟩ := accountable.unsubscribe_live alive
      rw [forM_unsubscribe_cons executed, ih unique, less, List.forall_mem_cons]
      constructor
      · intro rest
        exact ⟨alive, fun i member => (rest i member).1⟩
      · rintro ⟨-, rest⟩ i member
        exact ⟨rest i member, fun same => other (same ▸ member)⟩
    · obtain ⟨next, raised, -⟩ := accountable.unsubscribe_dead alive
      have failed : (id :: ids).forM (m := EStateM Exception δ) unsubscribe d = .error (.noSuchSubscription id) next :=
        error_bind raised
      rw [failed]
      constructor
      · rintro ⟨d', executed⟩
        cases executed
      · intro all
        exact absurd (all id List.mem_cons_self) alive

/-- An id that has been removed stops the loop: it is the exception that escapes, and the
    ids behind it stay. -/
theorem forM_unsubscribe_stops (accountable : Accountable live) {before after : List SubscriptionId} {id : SubscriptionId}
    (unique : (before ++ id :: after).Nodup) {d : δ} (alive : ∀ i ∈ before, i ∈ live d) (dead : id ∉ live d) :
    ∃ d', (before ++ id :: after).forM (m := EStateM Exception δ) unsubscribe d = .error (.noSuchSubscription id) d' ∧
      live d' = live d \ { i | i ∈ before } := by
  induction before generalizing d with
  | nil =>
    obtain ⟨d', raised, same⟩ := accountable.unsubscribe_dead dead
    exact ⟨d', error_bind raised, by simp [same]⟩
  | cons i before ih =>
    obtain ⟨other, unique⟩ := List.nodup_cons.mp (List.cons_append ▸ unique)
    obtain ⟨next, executed, less⟩ := accountable.unsubscribe_live (alive i List.mem_cons_self)
    have still : ∀ j ∈ before, j ∈ live next := by
      intro j member
      rw [less]
      exact ⟨alive j (List.mem_cons_of_mem _ member), fun same => other (same ▸ List.mem_append_left _ member)⟩
    have dead' : id ∉ live next := by
      rw [less]
      exact fun member => dead member.1
    obtain ⟨d', raised, left⟩ := ih unique still dead'
    refine ⟨d', (forM_unsubscribe_cons executed).trans raised, ?_⟩
    rw [left, less]
    ext j
    simp only [Set.mem_sdiff, Set.mem_singleton_iff, Set.mem_ofPred_eq, List.mem_cons, not_or, and_assoc]

theorem unsubscribeAll_ok {p p' : Peer δ} (executed : Peer.unsubscribeAll p = .ok () p') :
    FlightVarsServer.unsubscribeAll p.session.subscriptions p.delegate = .ok () p'.delegate ∧
      p'.session.subscriptions = .empty := by
  unfold Peer.unsubscribeAll at executed
  split at executed
  · cases executed
    exact ⟨‹_›, rfl⟩
  · cases executed

theorem unsubscribeAll_returns {p : Peer δ} {d : δ}
    (executed : FlightVarsServer.unsubscribeAll p.session.subscriptions p.delegate = .ok () d) :
    Peer.unsubscribeAll p = .ok () ⟨{ p.session with subscriptions := .empty }, d⟩ := by
  simp only [Peer.unsubscribeAll, executed]

theorem unsubscribeAll_ok_iff (accountable : Accountable live) (p : Peer δ) :
    (∃ p', Peer.unsubscribeAll p = .ok () p') ↔ ∀ id, p.session.subscriptions.Owns id → id ∈ live p.delegate := by
  have loop := forM_unsubscribe_ok_iff accountable (d := p.delegate) p.session.subscriptions.forEachSubscription_nodup
  simp only [SubscriptionMapper.mem_forEachSubscription] at loop
  rw [← loop]
  constructor
  · rintro ⟨p', executed⟩
    exact ⟨p'.delegate, (unsubscribeAll_ok executed).1⟩
  · rintro ⟨d, executed⟩
    exact ⟨_, unsubscribeAll_returns executed⟩

/-! ## Accounts -/

/-- The sessions know what they have registered. -/
def Known (live : δ → Set SubscriptionId) (accounts : Accounts δ) : Prop :=
  ∀ k id, accounts.2 id = some k → id ∈ live accounts.1.delegate → accounts.1.Owner k id

/-- What is new in the delegate belongs to the session, and what stays in the delegate
    stays with it. -/
def Retains (live : δ → Set SubscriptionId) (p p' : Peer δ) : Prop :=
  ∀ id ∈ live p'.delegate, id ∉ live p.delegate ∨ p.session.subscriptions.Owns id →
    p'.session.subscriptions.Owns id

omit [FlightVars δ] in
theorem retains_of_same {p p' : Peer δ} (mapper : p'.session.subscriptions = p.session.subscriptions)
    (same : live p'.delegate = live p.delegate) : Retains live p p' := by
  intro id alive had
  rw [same] at alive
  rw [mapper]
  exact had.resolve_left fun dead => dead alive

theorem dispatch_retains (accountable : Accountable live) (p : Peer δ) (msg : Message) :
    Retains live p (Peer.caught (Peer.dispatch msg p)) := by
  cases msg with
  | subscriptionReq req =>
    cases subscription_effect p req with
    | known covers same =>
      rw [same]
      exact retains_of_same (answered_subscriptions ..) (congrArg live (answered_delegate ..))
    | granted subsId delegate newVariable executed newSubscription same =>
      rw [same]
      intro id alive had
      rw [answered_delegate] at alive
      rw [answered_subscriptions]
      simp only at alive ⊢
      rw [(accountable.subscribe_fresh executed).2] at alive
      rw [SubscriptionMapper.owns_insert]
      rcases alive with new | old
      · exact .inl new
      · exact .inr (had.resolve_left fun dead => dead old)
    | clashing subsId delegate newVariable executed used same =>
      rw [same]
      intro id alive had
      show p.session.subscriptions.Owns id
      have more := (accountable.subscribe_fresh executed).2
      rcases (more ▸ alive : id ∈ insert subsId (live p.delegate)) with new | old
      · exact new ▸ used
      · exact had.resolve_left fun dead => dead old
    | refused varId delegate newVariable raised same =>
      rw [same]
      refine retains_of_same (answered_subscriptions ..) ?_
      rw [answered_delegate]
      exact (accountable.subscribe_refused raised).2
    | failed e delegate newVariable raised undeclared same =>
      exact absurd (accountable.subscribe_refused raised).1 (undeclared _)
  | unsubscriptionReq req =>
    cases unsubscription_effect accountable.toLedger p req with
    | removed delegate executed owned same =>
      rw [same]
      intro id alive had
      rw [answered_delegate] at alive
      rw [answered_subscriptions]
      simp only at alive ⊢
      rw [(accountable.unsubscribe_done executed).2] at alive
      rw [SubscriptionMapper.owns_erase]
      exact ⟨had.resolve_left fun dead => dead alive.1, alive.2⟩
    | stolen delegate executed foreign same =>
      rw [same]
      intro id alive had
      rw [answered_delegate] at alive
      rw [answered_subscriptions]
      simp only at alive ⊢
      rw [(accountable.unsubscribe_done executed).2] at alive
      exact had.resolve_left fun dead => dead alive.1
    | missing delegate raised same =>
      rw [same]
      refine retains_of_same (answered_subscriptions ..) ?_
      rw [answered_delegate]
      exact (accountable.unsubscribe_refused raised).2
  | varUpdate req =>
    obtain ⟨updates, mapper, -⟩ := update_effect p req
    exact retains_of_same mapper ((congrArg live updates).trans accountable.update_kept)
  | _ => exact retains_of_same rfl rfl

theorem read_retains (accountable : Accountable live) {p p' : Peer δ} {bytesTransferred : Except Exception (List UInt8)}
    (step : Server.Step p (.read bytesTransferred) p') : Retains live p p' := by
  cases step with
  | readBegin pending transfers => exact retains_of_same (onReadBeginSession_mapper _ _) rfl
  | readRequest pending transfers =>
    rcases onReadRequest_dispatches pending bytesTransferred with ⟨mapper, same⟩ | ⟨msg, block, buff, -, result⟩
    · exact retains_of_same mapper (congrArg live same)
    · rw [result]
      exact dispatch_retains accountable ⟨p.session.taken block buff msg, p.delegate⟩ msg

omit [FlightVars δ] in
/-- A step that adds nothing to the delegate and keeps the owners of what stays there. -/
theorem Known.kept {before now : Accounts δ} (known : Known live before)
    (less : live now.1.delegate ⊆ live before.1.delegate)
    (same : ∀ id ∉ live now.1.delegate \ live before.1.delegate, now.2 id = before.2 id)
    (owner : ∀ j id, id ∈ live now.1.delegate → before.1.Owner j id → now.1.Owner j id) : Known live now := by
  intro j id registered alive
  have old := less alive
  rw [same id fun new => new.2 old] at registered
  exact owner j id alive (known j id registered old)

theorem Known.step (accountable : Accountable live) {before now : Accounts δ} {e : ServerEvent δ}
    (known : Known live before) (step : AccountedStep live before e now) : Known live now := by
  obtain ⟨sv, registrar⟩ := before
  obtain ⟨sv', registrar'⟩ := now
  obtain ⟨step, new, old⟩ := step
  simp only at step new old
  cases step with
  | accepted fresh =>
    rename_i k
    refine known.kept le_rfl old fun j id _ owner => ?_
    rw [owner_updated (s := Session.accepted) rfl]
    refine .inr ⟨?_, owner⟩
    rintro rfl
    obtain ⟨s, present, -⟩ := owner
    rw [fresh] at present
    cases present
  | read present step =>
    rename_i k s bytesTransferred p
    have keeps := read_retains accountable step
    intro j id registered alive
    simp only at registered
    by_cases was : id ∈ live sv.delegate
    · rw [old id fun new => new.2 was] at registered
      have owner := known j id registered was
      rw [owner_updated rfl]
      by_cases self : j = k
      · subst self
        obtain ⟨t, found, owns⟩ := owner
        cases present.symm.trans found
        exact .inl ⟨rfl, keeps id alive (.inr owns)⟩
      · exact .inr ⟨self, owner⟩
    · have here : j = k := Option.some.inj (registered.symm.trans (new id ⟨alive, was⟩))
      rw [owner_updated rfl]
      exact .inl ⟨here, keeps id alive (.inl was)⟩
  | wrote present step =>
    refine known.kept le_rfl old fun j id _ owner => ?_
    refine (owner_kept present ?_ rfl).mpr owner
    cases step with
    | wrote pending =>
      show (onWriteMessage _ _).subscriptions = _
      unfold onWriteMessage
      split <;> rfl
  | notified present => exact known.kept le_rfl old fun _ _ _ owner => owner
  | ran next present =>
    refine known.kept le_rfl old fun j id _ owner => ?_
    refine (owner_kept present ?_ rfl).mpr owner
    obtain ⟨written, same⟩ := sendVarUpdate_written _ _ _
    rw [same]
  | destroyed present closed unused executed =>
    rename_i k s delegate
    have less : live delegate = live sv.delegate \ { id | s.subscriptions.Owns id } := by
      rw [unsubscribeAll_live accountable.toLedger executed]
      simp only [SubscriptionMapper.mem_forEachSubscription]
    refine known.kept (less ▸ Set.sdiff_subset) old fun j id alive owner => ?_
    rw [owner_removed]
    refine ⟨?_, owner⟩
    rintro rfl
    obtain ⟨t, found, owns⟩ := owner
    cases present.symm.trans found
    exact (less ▸ alive : id ∈ live sv.delegate \ { id | s.subscriptions.Owns id }).2 owns
  | others kept =>
    intro j id registered alive
    simp only at registered
    by_cases was : id ∈ live sv.delegate
    · rw [old id fun new => new.2 was] at registered
      exact known j id registered was
    · rw [new id ⟨alive, was⟩] at registered
      cases registered

/-- In every state that a server can reach, the end of a session is clean if and only if
    all ids of its mapper are still live and its own. -/
theorem teardown_exact (accountable : Accountable live) (delegate : δ) (sv : FlightVarsServer δ)
    (registrar : SubscriptionId → Option Nat)
    (run : Run (AccountedStep live) (start delegate, fun _ => none) (sv, registrar)) (k : Nat) (s : Session)
    (present : sv.sessions k = some s) :
    EndsCleanly live registrar k ⟨s, sv.delegate⟩ ↔ Untaken live registrar k ⟨s, sv.delegate⟩ := by
  have known : Known live (sv, registrar) := run.invariant (fun _ _ registered => nomatch registered)
    fun before last => before.step accountable last
  have knows {id : SubscriptionId} (registered : registrar id = some k) (alive : id ∈ live sv.delegate) :
      s.subscriptions.Owns id := by
    obtain ⟨t, found, owns⟩ := known k id registered alive
    cases present.symm.trans found
    exact owns
  have removes {p' : Peer δ} (executed : Peer.unsubscribeAll ⟨s, sv.delegate⟩ = .ok () p') :
      live p'.delegate = live sv.delegate \ { id | s.subscriptions.Owns id } := by
    rw [unsubscribeAll_live accountable.toLedger (unsubscribeAll_ok executed).1]
    simp only [SubscriptionMapper.mem_forEachSubscription]
  constructor
  · rintro ⟨p', executed, less, -⟩ id owns
    have alive := (unsubscribeAll_ok_iff accountable ⟨s, sv.delegate⟩).mp ⟨p', executed⟩ id owns
    refine ⟨alive, ?_⟩
    by_contra foreign
    have stays : id ∈ live p'.delegate := by
      rw [less]
      exact ⟨alive, foreign⟩
    rw [removes executed] at stays
    exact stays.2 owns
  · intro untaken
    obtain ⟨p', executed⟩ :=
      (unsubscribeAll_ok_iff accountable ⟨s, sv.delegate⟩).mpr fun id owns => (untaken id owns).1
    refine ⟨p', executed, ?_, (unsubscribeAll_ok executed).2⟩
    rw [removes executed]
    ext id
    constructor
    · rintro ⟨alive, foreign⟩
      exact ⟨alive, fun registered => foreign (knows registered alive)⟩
    · rintro ⟨alive, foreign⟩
      exact ⟨alive, fun owns => foreign (untaken id owns).2⟩

omit [FlightVars δ] in
/-- The accounts of a step can be kept. -/
theorem exists_registrar (live : δ → Set SubscriptionId) (sv sv' : FlightVarsServer δ)
    (registrar : SubscriptionId → Option Nat) (k : Option Nat) :
    ∃ registrar' : SubscriptionId → Option Nat, (∀ id ∈ live sv'.delegate \ live sv.delegate, registrar' id = k) ∧
      ∀ id ∉ live sv'.delegate \ live sv.delegate, registrar' id = registrar id := by
  classical
  refine ⟨fun id => if id ∈ live sv'.delegate \ live sv.delegate then k else registrar id, ?_, ?_⟩
  · intro id new
    exact if_pos new
  · intro id old
    exact if_neg old

/-- The accounts of a run can be kept. -/
theorem accounted {sv₀ sv : FlightVarsServer δ} (registrar₀ : SubscriptionId → Option Nat)
    (run : Run (FlightVarsServer.Step live) sv₀ sv) :
    ∃ registrar, Run (AccountedStep live) (sv₀, registrar₀) (sv, registrar) := by
  refine run.invariant (I := fun sv => ∃ registrar, Run (AccountedStep live) (sv₀, registrar₀) (sv, registrar))
    ⟨_, Run.refl _⟩ ?_
  rintro sv e sv' ⟨registrar, before⟩ step
  obtain ⟨registrar', new, old⟩ := exists_registrar live sv sv' registrar (registrant e)
  exact ⟨registrar', before.next ⟨step, new, old⟩⟩

end

/-- A session that has subscribed to a variable. -/
theorem teardown_exact_one : ∃ (sv : FlightVarsServer Registry) (registrar : SubscriptionId → Option Nat) (s : Session),
    s.subscriptions.Owns 1 ∧ (EndsCleanly Registry.live registrar 0 ⟨s, sv.delegate⟩ ↔
      Untaken Registry.live registrar 0 ⟨s, sv.delegate⟩) := by
  obtain ⟨sv, s, run, sessions, owns, -⟩ := session_subscribes
  obtain ⟨registrar, accounts⟩ := accounted (fun _ => none) run.forget
  have present : sv.sessions 0 = some s := by
    rw [sessions, Function.update_self]
  exact ⟨sv, registrar, s, owns,
    teardown_exact Registry.lawful.toAccountable Registry.empty sv registrar accounts 0 s present⟩

/-- After another session has ended the subscription of a session, the end of that session
    throws. -/
theorem teardown_throws : ¬ ∀ (sv : FlightVarsServer Registry) (registrar : SubscriptionId → Option Nat),
    Run (AccountedStep Registry.live) (start Registry.empty, fun _ => none) (sv, registrar) →
      ∀ k s, sv.sessions k = some s → EndsCleanly Registry.live registrar k ⟨s, sv.delegate⟩ := by
  intro clean
  obtain ⟨sv, s, t, run, first, second, owns, idle, ids⟩ := sessions_meet
  have alive : 1 ∈ sv.delegate.ids := ids ▸ List.mem_singleton_self 1
  obtain ⟨bytesTransferred, sv', step, dead⟩ := idle_steals second idle alive
  obtain ⟨registrar, accounts⟩ := accounted (fun _ => none) (run.forget.next step)
  obtain ⟨s, present, owns⟩ := step.owner (k := 1) rfl Nat.zero_ne_one ⟨s, first, owns⟩
  obtain ⟨p', executed, -⟩ := clean sv' registrar accounts 0 s present
  exact dead ((unsubscribeAll_ok_iff Registry.lawful.toAccountable ⟨s, sv'.delegate⟩).mp ⟨p', executed⟩ 1 owns)

end Oac.Server
