import Oac.Server.Replies

/-!
# The sessions of a server

The server with all its sessions over one delegate. Which session owns which live
subscription stays settled (`Isolated`) as long as every request for a live subscription
comes from the session that owns it, and no subscription that fails leaves one behind.
-/
namespace Oac.Server
open Base Proto Session FlightVars

/-- A `flight_vars_server`. `through` only records which live subscriptions were created
    through it. -/
structure FlightVarsServer (δ : Type) where
  delegate : δ
  sessions : Nat → Option Session
  /-- the updates posted to the IO service -/
  posted : List (Nat × VariableId × VariableValue)
  through : Set SubscriptionId

/-- What happens to a server. Sessions are told apart by numbers. -/
inductive ServerEvent (δ : Type) where
  | accepted (k : Nat)
  | read (k : Nat) (bytesTransferred : Except Exception (List UInt8))
  | wrote (k : Nat) (bytesTransferred : Except Exception Nat)
  | notified (k : Nat) (varId : VariableId) (varValue : VariableValue)
  | ran
  | destroyed (k : Nat)
  | others (delegate : δ)

namespace FlightVarsServer
variable {δ : Type}

def start (delegate : δ) : FlightVarsServer δ := ⟨delegate, fun _ => none, [], ∅⟩

/-- The server after its session `k` has become another. -/
def withSession (sv : FlightVarsServer δ) (k : Nat) (s : Session) : FlightVarsServer δ :=
  { sv with sessions := Function.update sv.sessions k (some s) }

/-- The server after its session `k` has acted on the delegate. -/
def withPeer (live : δ → Set SubscriptionId) (sv : FlightVarsServer δ) (k : Nat) (p : Peer δ) : FlightVarsServer δ where
  delegate := p.delegate
  sessions := Function.update sv.sessions k (some p.session)
  posted := sv.posted
  through := (sv.through ∩ live p.delegate) ∪ (live p.delegate \ live sv.delegate)

/-- The server after its session `k` is gone. -/
def withoutSession (live : δ → Set SubscriptionId) (sv : FlightVarsServer δ) (k : Nat) (delegate : δ) :
    FlightVarsServer δ where
  delegate := delegate
  sessions := Function.update sv.sessions k none
  posted := sv.posted
  through := sv.through ∩ live delegate

@[simp] theorem withSession_self (sv : FlightVarsServer δ) (k : Nat) (s : Session) :
    (sv.withSession k s).sessions k = some s := Function.update_self ..
@[simp] theorem withPeer_self (live : δ → Set SubscriptionId) (sv : FlightVarsServer δ) (k : Nat) (p : Peer δ) :
    (sv.withPeer live k p).sessions k = some p.session := Function.update_self ..

/-! ## Ownership -/

/-- The session `k` owns the subscription. -/
def Owner (sv : FlightVarsServer δ) (k : Nat) (subsId : SubscriptionId) : Prop :=
  ∃ s, sv.sessions k = some s ∧ s.subscriptions.Owns subsId

/-- Every live subscription created through the server has one owner, and the sessions own
    nothing else. -/
structure Isolated (live : δ → Set SubscriptionId) (sv : FlightVarsServer δ) : Prop where
  disjoint : ∀ {j k id}, sv.Owner j id → sv.Owner k id → j = k
  union : { id | ∃ k, sv.Owner k id } = sv.through
  alive : sv.through ⊆ live sv.delegate

variable {live : δ → Set SubscriptionId} {sv sv' : FlightVarsServer δ} {j k : Nat} {s : Session} {id : SubscriptionId}

theorem owner_updated (same : sv'.sessions = Function.update sv.sessions k (some s)) :
    sv'.Owner j id ↔ (j = k ∧ s.subscriptions.Owns id) ∨ (j ≠ k ∧ sv.Owner j id) := by
  unfold Owner
  rw [same]
  by_cases own : j = k
  · subst own
    simp
  · simp [own]

theorem owner_removed (delegate : δ) : (sv.withoutSession live k delegate).Owner j id ↔ j ≠ k ∧ sv.Owner j id := by
  unfold Owner withoutSession
  by_cases own : j = k
  · subst own
    simp
  · simp [own]

/-- A session that keeps its mapper keeps its ownership. -/
theorem owner_kept {s' : Session} (present : sv.sessions k = some s) (mapper : s'.subscriptions = s.subscriptions)
    (same : sv'.sessions = Function.update sv.sessions k (some s')) : sv'.Owner j id ↔ sv.Owner j id := by
  rw [owner_updated same, mapper]
  by_cases own : j = k
  · subst own
    simp [Owner, present]
  · simp [own]

theorem Isolated.owned_alive (isolated : Isolated live sv) (owner : sv.Owner k id) : id ∈ live sv.delegate := by
  have member : id ∈ { id | ∃ k, sv.Owner k id } := ⟨k, owner⟩
  rw [isolated.union] at member
  exact isolated.alive member

theorem start_isolated (delegate : δ) : Isolated live (start delegate) where
  disjoint := by
    rintro j k id ⟨s, none, -⟩
    cases none
  union := by
    refine Set.eq_empty_iff_forall_notMem.mpr ?_
    rintro id ⟨k, s, none, -⟩
    cases none
  alive := Set.empty_subset _

theorem Isolated.same (isolated : Isolated live sv) (owner : ∀ j id, sv'.Owner j id ↔ sv.Owner j id)
    (through : sv'.through = sv.through) (alive : sv.through ⊆ live sv'.delegate) : Isolated live sv' where
  disjoint first second := isolated.disjoint ((owner _ _).mp first) ((owner _ _).mp second)
  union := by
    rw [through, ← isolated.union]
    exact Set.ext fun id => exists_congr fun k => owner k id
  alive := by
    rw [through]
    exact alive

/-- The message is for a subscription of the session, or for none that is live; if it asks
    for a new one and the delegate fails, nothing is left behind. -/
structure Entitled [FlightVars δ] (live : δ → Set SubscriptionId) (p : Peer δ) (msg : Message) : Prop where
  presents : ∀ {id}, Presents msg id → p.session.subscriptions.Owns id ∨ id ∉ live p.delegate
  fails : ∀ {delegate}, Fails p msg delegate → live delegate = live p.delegate

/-- What a session does with a message leaves everyone with what they own. -/
theorem Isolated.peer [FlightVars δ] (isolated : Isolated live sv) (present : sv.sessions k = some s) {msg : Message} {p : Peer δ}
    (entitled : Entitled live ⟨s, sv.delegate⟩ msg) (effect : MapperEffect live ⟨s, sv.delegate⟩ msg p) :
    Isolated live (sv.withPeer live k p) := by
  have own {id : SubscriptionId} (owns : s.subscriptions.Owns id) : sv.Owner k id := ⟨s, present, owns⟩
  -- the sessions and the live subscriptions stay as they are
  have unchanged (mapper : p.session.subscriptions = s.subscriptions) (same : live p.delegate = live sv.delegate) :
      Isolated live (sv.withPeer live k p) := by
    have through : (sv.withPeer live k p).through = sv.through := by
      show (sv.through ∩ live p.delegate) ∪ (live p.delegate \ live sv.delegate) = _
      rw [same, Set.sdiff_self, Set.union_empty, Set.inter_eq_left]
      exact isolated.alive
    exact isolated.same (fun j id => owner_kept present mapper rfl) through (same ▸ isolated.alive)
  cases effect with
  | kept mapper same => exact unchanged mapper same
  | failed delegate fails mapper same =>
    refine unchanged mapper ?_
    rw [same]
    exact entitled.fails fails
  | granted subsId fresh more owns =>
    have unowned : ∀ j, ¬ sv.Owner j subsId := fun j owner => fresh (isolated.owned_alive owner)
    have owner (j : Nat) (id : SubscriptionId) :
        (sv.withPeer live k p).Owner j id ↔ sv.Owner j id ∨ (j = k ∧ id = subsId) := by
      rw [owner_updated rfl, owns]
      by_cases self : j = k
      · subst self
        simp [Owner, present, or_comm]
      · simp [self]
    have through : (sv.withPeer live k p).through = insert subsId sv.through := by
      show (sv.through ∩ live p.delegate) ∪ (live p.delegate \ live sv.delegate) = _
      rw [more]
      ext id
      have alive := @isolated.alive id
      by_cases new : id = subsId
      · subst new
        simp [fresh]
      · simpa [new] using alive
    constructor
    · intro i j id first second
      rw [owner] at first second
      rcases first with first | ⟨atFirst, new⟩
      · rcases second with second | ⟨-, new⟩
        · exact isolated.disjoint first second
        · exact absurd (new ▸ first) (unowned i)
      · rcases second with second | ⟨atSecond, -⟩
        · exact absurd (new ▸ second) (unowned j)
        · exact atFirst.trans atSecond.symm
    · rw [through, ← isolated.union]
      ext id
      simp only [owner, Set.mem_ofPred_eq, Set.mem_insert_iff, exists_or, exists_eq_left, or_comm]
    · rw [through]
      show _ ⊆ live p.delegate
      rw [more]
      exact Set.insert_subset_insert isolated.alive
  | clashing subsId fresh used => exact absurd (isolated.owned_alive (own used)) fresh
  | removed subsId alive owned less owns =>
    have owner (j : Nat) (id : SubscriptionId) :
        (sv.withPeer live k p).Owner j id ↔ sv.Owner j id ∧ id ≠ subsId := by
      rw [owner_updated rfl, owns]
      by_cases self : j = k
      · subst self
        simp [Owner, present]
      · have other : sv.Owner j id → id ≠ subsId := by
          rintro owner rfl
          exact self (isolated.disjoint owner (own owned))
        simpa [self] using other
    have through : (sv.withPeer live k p).through = sv.through \ {subsId} := by
      show (sv.through ∩ live p.delegate) ∪ (live p.delegate \ live sv.delegate) = _
      rw [less]
      ext id
      have alive := @isolated.alive id
      simp only [Set.mem_union, Set.mem_inter_iff, Set.mem_sdiff, Set.mem_singleton_iff]
      tauto
    constructor
    · exact fun first second => isolated.disjoint ((owner _ _).mp first).1 ((owner _ _).mp second).1
    · rw [through, ← isolated.union]
      ext id
      simp only [owner, Set.mem_ofPred_eq, Set.mem_sdiff, Set.mem_singleton_iff, exists_and_right]
    · rw [through]
      show _ ⊆ live p.delegate
      rw [less]
      exact Set.sdiff_subset_sdiff_left isolated.alive
  | stolen subsId presents alive foreign => exact absurd alive ((entitled.presents presents).resolve_left foreign)

/-- A session that ends takes its subscriptions along. -/
theorem Isolated.ended (isolated : Isolated live sv) (present : sv.sessions k = some s) {delegate : δ}
    (less : live delegate = live sv.delegate \ { id | s.subscriptions.Owns id }) :
    Isolated live (sv.withoutSession live k delegate) := by
  have through : (sv.withoutSession live k delegate).through = sv.through \ { id | s.subscriptions.Owns id } := by
    show sv.through ∩ live delegate = _
    rw [less, ← Set.inter_sdiff_assoc, Set.inter_eq_left.mpr isolated.alive]
  constructor
  · intro i j id first second
    rw [owner_removed] at first second
    exact isolated.disjoint first.2 second.2
  · rw [through, ← isolated.union]
    ext id
    simp only [owner_removed, Set.mem_ofPred_eq, Set.mem_sdiff]
    constructor
    · rintro ⟨j, other, owner⟩
      exact ⟨⟨j, owner⟩, fun owns => other (isolated.disjoint owner ⟨s, present, owns⟩)⟩
    · rintro ⟨⟨j, owner⟩, foreign⟩
      refine ⟨j, ?_, owner⟩
      rintro rfl
      obtain ⟨t, found, owns⟩ := owner
      rw [present] at found
      cases found
      exact foreign owns
  · show sv.through ∩ live delegate ⊆ live delegate
    exact Set.inter_subset_right

/-! ## Steps -/

variable [FlightVars δ]

/-- `session::unsubscribe_all`. -/
def unsubscribeAll (subscriptions : SubscriptionMapper) : EStateM Exception δ Unit :=
  subscriptions.forEachSubscription.forM unsubscribe

/-- The steps of a server. A session that nothing is pending for is destroyed; an exception
    there would end the process. Others subscribe and unsubscribe for themselves. -/
inductive Step (live : δ → Set SubscriptionId) : FlightVarsServer δ → ServerEvent δ → FlightVarsServer δ → Prop
  | accepted {sv : FlightVarsServer δ} {k : Nat} (new : sv.sessions k = none) :
      Step live sv (.accepted k) (sv.withSession k Session.accepted)
  | read {sv : FlightVarsServer δ} {k : Nat} {s : Session} {bytesTransferred : Except Exception (List UInt8)} {p : Peer δ}
      (present : sv.sessions k = some s) (step : Server.Step ⟨s, sv.delegate⟩ (.read bytesTransferred) p) :
      Step live sv (.read k bytesTransferred) (sv.withPeer live k p)
  | wrote {sv : FlightVarsServer δ} {k : Nat} {s : Session} {bytesTransferred : Except Exception Nat} {p : Peer δ}
      (present : sv.sessions k = some s) (step : Server.Step ⟨s, sv.delegate⟩ (.wrote bytesTransferred) p) :
      Step live sv (.wrote k bytesTransferred) (sv.withSession k p.session)
  | notified {sv : FlightVarsServer δ} {k : Nat} {s : Session} {varId : VariableId} {varValue : VariableValue}
      (present : sv.sessions k = some s) :
      Step live sv (.notified k varId varValue) { sv with posted := sv.posted ++ [(k, varId, varValue)] }
  | ran {sv : FlightVarsServer δ} {k : Nat} {s : Session} {varId : VariableId} {varValue : VariableValue}
      {later : List (Nat × VariableId × VariableValue)} (next : sv.posted = (k, varId, varValue) :: later)
      (present : sv.sessions k = some s) :
      Step live sv .ran { sv.withSession k (after (sendVarUpdate varId varValue s)) with posted := later }
  | destroyed {sv : FlightVarsServer δ} {k : Nat} {s : Session} {delegate : δ} (present : sv.sessions k = some s)
      (closed : s.phase = .closed) (unused : ∀ task ∈ sv.posted, task.1 ≠ k)
      (executed : unsubscribeAll s.subscriptions sv.delegate = .ok () delegate) :
      Step live sv (.destroyed k) (sv.withoutSession live k delegate)
  | others {sv : FlightVarsServer δ} {delegate : δ} (kept : sv.through ⊆ live delegate) :
      Step live sv (.others delegate) { sv with delegate }

/-- Every session is entitled to the request that it decodes. -/
def Rightful (live : δ → Set SubscriptionId) (sv : FlightVarsServer δ) (e : ServerEvent δ) : Prop :=
  ∀ k bytesTransferred s msg, e = .read k bytesTransferred → sv.sessions k = some s → Reads s bytesTransferred msg →
    Entitled live ⟨s, sv.delegate⟩ msg

/-- The delegate carries out a message on the subscription: it ends it, or writes to it
    while it is live. -/
def Applies (live : δ → Set SubscriptionId) (delegate : δ) : Message → SubscriptionId → Prop
  | .unsubscriptionReq req, subsId => req.subsId = subsId ∧ ∃ delegate', unsubscribe subsId delegate = .ok () delegate'
  | .varUpdate req, subsId => req.subsId = subsId ∧ subsId ∈ live delegate
  | _, _ => False

variable {e : ServerEvent δ}

/-- The ids of a mapper that were all live are so no longer. -/
theorem unsubscribeAll_live (ledger : Ledger live) {ids : List SubscriptionId} {delegate delegate' : δ}
    (executed : ids.forM (m := EStateM Exception δ) unsubscribe delegate = .ok () delegate') :
    live delegate' = live delegate \ { id | id ∈ ids } := by
  induction ids generalizing delegate with
  | nil =>
    cases executed
    simp
  | cons id ids ih =>
    cases outcome : (unsubscribe id : EStateM Exception δ Unit) delegate with
    | ok a next =>
      have rest : ids.forM (m := EStateM Exception δ) unsubscribe next = .ok () delegate' := by
        rw [← executed]
        exact (ok_bind (f := fun _ => ids.forM unsubscribe) outcome).symm
      rw [ih rest, (ledger.unsubscribe_done outcome).2]
      ext i
      simp only [Set.mem_sdiff, Set.mem_singleton_iff, Set.mem_ofPred_eq, List.mem_cons, not_or, and_assoc]
    | error e next =>
      have raised : (id :: ids).forM (m := EStateM Exception δ) unsubscribe delegate = .error e next := error_bind outcome
      rw [executed] at raised
      cases raised

/-- What the completion of a read does to subscriptions. -/
theorem read_mapper (ledger : Ledger live) {p p' : Peer δ} {bytesTransferred : Except Exception (List UInt8)}
    (step : Server.Step p (.read bytesTransferred) p') :
    (p'.session.subscriptions = p.session.subscriptions ∧ p'.delegate = p.delegate) ∨
      ∃ msg, Reads p.session bytesTransferred msg ∧ MapperEffect live p msg p' := by
  cases step with
  | readBegin pending transfers => exact .inl ⟨onReadBeginSession_mapper _ _, rfl⟩
  | readRequest pending transfers => exact onReadRequest_mapper ledger pending bytesTransferred

theorem Isolated.step (isolated : Isolated live sv) (ledger : Ledger live) (step : Step live sv e sv')
    (rightful : Rightful live sv e) : Isolated live sv' := by
  cases step with
  | accepted new =>
    rename_i k
    refine isolated.same (fun j id => ?_) rfl isolated.alive
    rw [owner_updated (s := Session.accepted) rfl]
    by_cases self : j = k
    · subst self
      simp [Owner, new, Session.accepted, SubscriptionMapper.not_owns_empty]
    · simp [self]
  | read present step =>
    rename_i k s bytesTransferred p
    rcases read_mapper ledger step with ⟨mapper, same⟩ | ⟨msg, reads, effect⟩
    · have harmless : Entitled live ⟨s, sv.delegate⟩ (.endSession ⟨[]⟩) := by
        refine ⟨fun presents => presents.elim, ?_⟩
        rintro delegate ⟨_, _, other, -⟩
        cases other
      exact isolated.peer present harmless (.kept mapper (congrArg live same))
    · exact isolated.peer present (rightful _ _ _ _ rfl present reads) effect
  | wrote present step =>
    refine isolated.same (fun j id => owner_kept present ?_ rfl) rfl isolated.alive
    cases step with
    | wrote pending =>
      show (onWriteMessage _ _).subscriptions = _
      unfold onWriteMessage
      split <;> rfl
  | notified present => exact isolated.same (fun _ _ => Iff.rfl) rfl isolated.alive
  | ran next present =>
    refine isolated.same (fun j id => owner_kept present ?_ rfl) rfl isolated.alive
    obtain ⟨written, same⟩ := sendVarUpdate_written _ _ _
    rw [same]
  | destroyed present closed unused executed =>
    refine isolated.ended present ?_
    rw [unsubscribeAll_live ledger executed]
    simp only [SubscriptionMapper.mem_forEachSubscription]
  | others kept => exact isolated.same (fun _ _ => Iff.rfl) rfl kept

/-- The event is a message of the session or its end. -/
def By (k : Nat) : ServerEvent δ → Prop
  | .read j _ => j = k
  | .destroyed j => j = k
  | _ => False

theorem Step.owner (step : Step live sv e sv') (by_k : By k e) (other : j ≠ k) (owner : sv.Owner j id) : sv'.Owner j id := by
  cases step with
  | read present step =>
    cases by_k
    exact (owner_updated rfl).mpr (.inr ⟨other, owner⟩)
  | destroyed present closed unused executed =>
    cases by_k
    exact (owner_removed _).mpr ⟨other, owner⟩
  | _ => exact by_k.elim

/-- Whatever the sessions of a server send, each live subscription created through it has
    one owner, and no session touches what is not its own, as long as every session is
    entitled to its requests. -/
theorem sessions_isolated (ledger : Ledger live) {delegate : δ}
    (run : Run (Meeting (Step live) (Rightful live)) (start delegate) sv) :
    Isolated live sv ∧ ∀ {k : Nat} {e : ServerEvent δ} {sv' : FlightVarsServer δ}, By k e → Step live sv e sv' →
      Rightful live sv e →
        (∀ j id, j ≠ k → sv.Owner j id → (id ∈ live sv.delegate ↔ id ∈ live sv'.delegate)) ∧
          ∀ bytesTransferred s msg id, e = .read k bytesTransferred → sv.sessions k = some s →
            Reads s bytesTransferred msg → Applies live sv.delegate msg id → s.subscriptions.Owns id := by
  have isolated : Isolated live sv := run.invariant (I := Isolated live) (start_isolated delegate)
    fun isolated step => isolated.step ledger step.1 step.2
  refine ⟨isolated, fun by_k step rightful => ⟨fun j id other owner => ?_, ?_⟩⟩
  · have kept := (isolated.step ledger step rightful).owned_alive (step.owner by_k other owner)
    exact iff_of_true (isolated.owned_alive owner) kept
  · intro bytesTransferred s msg id same present reads applies
    subst same
    have entitled := rightful _ _ _ _ rfl present reads
    cases msg with
    | unsubscriptionReq req =>
      obtain ⟨presents, delegate', executed⟩ := applies
      have alive := (ledger.unsubscribe_done executed).1
      exact (entitled.presents presents).resolve_right fun dead => dead alive
    | varUpdate req =>
      obtain ⟨presents, alive⟩ := applies
      exact (entitled.presents presents).resolve_right fun dead => dead alive
    | _ => exact applies.elim

theorem rightful_of_ne (other : ∀ k bytesTransferred, e ≠ .read k bytesTransferred) : Rightful live sv e :=
  fun k bytesTransferred _ _ same => absurd same (other k bytesTransferred)

/-- A new session is greeted. -/
theorem session_idles (live : δ → Set SubscriptionId) (sv : FlightVarsServer δ) (k : Nat) (new : sv.sessions k = none) :
    ∃ sv' s, Run (Meeting (Step live) (Rightful live)) sv sv' ∧ Idle s ∧ sv'.delegate = sv.delegate ∧
      sv'.sessions = Function.update sv.sessions k (some s) := by
  obtain ⟨block, s₁, s₂, read, wrote, idle⟩ := idle_reached sv.delegate
  obtain ⟨one, first⟩ : ∃ one, one = sv.withSession k Session.accepted := ⟨_, rfl⟩
  obtain ⟨two, second⟩ : ∃ two, two = one.withPeer live k ⟨s₁, sv.delegate⟩ := ⟨_, rfl⟩
  have opened : Step live sv (.accepted k) one := first ▸ .accepted new
  have greets : Step live one (.read k (.ok block)) two := by
    rw [second, first]
    exact .read (withSession_self ..) read
  have answers : Step live two (.wrote k (.ok 0)) (two.withSession k s₂) := by
    rw [second]
    exact .wrote (s := s₁) (withPeer_self live one k ⟨s₁, sv.delegate⟩) wrote
  have rightful : Rightful live one (.read k (.ok block)) := by
    intro j bytesTransferred s msg same present reads
    cases same
    rw [first, withSession_self, Option.some.injEq] at present
    have begins : s.phase = .readingBegin := present ▸ rfl
    rw [reads.1] at begins
    cases begins
  have run : Run (Meeting (Step live) (Rightful live)) sv (two.withSession k s₂) :=
    (((Run.refl sv).next ⟨opened, rightful_of_ne nofun⟩).next ⟨greets, rightful⟩).next ⟨answers, rightful_of_ne nofun⟩
  refine ⟨_, s₂, run, idle, ?_, ?_⟩
  · rw [second]
    rfl
  · rw [second, first]
    simp only [withSession, withPeer, Function.update_idem]

/-- A session without subscriptions ends one. -/
theorem subscription_stolen {s : Session} (none : s.subscriptions = .empty) {r : Registry} (alive : 1 ∈ Registry.live r) :
    1 ∉ Registry.live (Peer.caught (Peer.dispatch (.unsubscriptionReq ⟨1⟩) (⟨s, r⟩ : Peer Registry))).delegate := by
  cases unsubscription_effect Registry.lawful.toLedger ⟨s, r⟩ ⟨1⟩ with
  | removed delegate executed owned same =>
    have owned : s.subscriptions.Owns 1 := owned
    rw [none] at owned
    exact absurd owned SubscriptionMapper.not_owns_empty
  | stolen delegate executed foreign same =>
    rw [same, answered_delegate]
    show 1 ∉ Registry.live delegate
    rw [(Registry.lawful.unsubscribe_done executed).2]
    exact fun member => member.2 rfl
  | missing delegate raised same => exact absurd alive (Registry.lawful.unsubscribe_refused raised).1

/-- A session that has subscribed to a variable. -/
theorem session_subscribes : ∃ sv s, Run (Meeting (Step Registry.live) (Rightful Registry.live)) (start Registry.empty) sv ∧
    sv.sessions = Function.update (fun _ => none) 0 (some s) ∧ s.subscriptions.Owns 1 ∧ sv.delegate.ids = [1] := by
  obtain ⟨sv, s, run, idle, delegate, sessions⟩ :=
    session_idles Registry.live (start Registry.empty) 0 rfl
  obtain ⟨msg, named⟩ : ∃ msg : SubscriptionRequestMessage, msg = ⟨text "airbus", text "alt"⟩ := ⟨_, rfl⟩
  have valid : (Message.subscriptionReq msg).Valid := by
    subst named
    show (text "airbus").length ≤ 0xffff ∧ (text "alt").length ≤ 0xffff
    decide
  have short : (wire (.subscriptionReq msg)).length < inputCapacity := by
    subst named
    decide
  obtain ⟨⟨buff, step⟩, only⟩ := idle.reads Registry.empty valid short
  obtain ⟨q, same, -, single, ids⟩ := first_subscription
    (p := ⟨s.taken (wire (.subscriptionReq msg)) buff (.subscriptionReq msg), Registry.empty⟩) idle.subscriptions rfl msg
  have present : sv.sessions 0 = some s := by rw [sessions, Function.update_self]
  have rightful : Rightful Registry.live sv (.read 0 (.ok (wire (.subscriptionReq msg)))) := by
    intro k bytesTransferred t msg' same found reads
    cases same
    rw [present] at found
    cases found
    rw [only msg' reads]
    refine ⟨fun presents => presents.elim, fun {r} fails => ?_⟩
    obtain ⟨_, _, _, _, raised⟩ := fails
    exact (Registry.lawful.subscribe_refused raised).2
  rw [same, show Registry.empty = sv.delegate from delegate.symm] at step
  refine ⟨_, (answered q (subscribed msg 1)).session, run.next ⟨.read present step, rightful⟩, ?_, ?_, ?_⟩
  · show Function.update sv.sessions 0 _ = _
    rw [sessions, Function.update_idem]
    rfl
  · rw [answered_subscriptions]
    exact SubscriptionMapper.owns_iff.mpr ⟨_, (SubscriptionMapper.maps_single single).mpr ⟨rfl, rfl⟩⟩
  · show (answered q _).delegate.ids = [1]
    rw [answered_delegate]
    exact ids

/-- Beside a session that has subscribed to a variable there is one that has not. -/
theorem sessions_meet : ∃ sv s t, Run (Meeting (Step Registry.live) (Rightful Registry.live)) (start Registry.empty) sv ∧
    sv.sessions 0 = some s ∧ sv.sessions 1 = some t ∧ s.subscriptions.Owns 1 ∧ Idle t ∧ sv.delegate.ids = [1] := by
  obtain ⟨first, s, subscribed, mapped, owns, ids⟩ := session_subscribes
  obtain ⟨sv, t, greeted, idle, delegate, sessions⟩ := session_idles Registry.live first 1 (by
    rw [mapped]
    rfl)
  refine ⟨sv, s, t, subscribed.trans greeted, ?_, ?_, owns, idle, delegate ▸ ids⟩
  · rw [sessions, mapped]
    rfl
  · rw [sessions, Function.update_self]

/-- A session that has subscribed to nothing can end a subscription. -/
theorem idle_steals {sv : FlightVarsServer Registry} {k : Nat} {s : Session} (present : sv.sessions k = some s)
    (idle : Idle s) (alive : 1 ∈ Registry.live sv.delegate) : ∃ bytesTransferred sv',
      Step Registry.live sv (.read k bytesTransferred) sv' ∧ 1 ∉ Registry.live sv'.delegate := by
  have valid : (Message.unsubscriptionReq ⟨1⟩).Valid := trivial
  obtain ⟨⟨buff, step⟩, -⟩ := idle.reads sv.delegate valid (by decide)
  exact ⟨_, _, .read present step, subscription_stolen (s := s.taken _ buff _) idle.subscriptions alive⟩

/-- The one subscription of a server with two sessions belongs to the first of them. -/
theorem sessions_isolated_two : ∃ sv : FlightVarsServer Registry,
    Run (Meeting (Step Registry.live) (Rightful Registry.live)) (start Registry.empty) sv ∧ sv.Owner 0 1 ∧ ¬ sv.Owner 1 1 ∧
      sv.through = {1} := by
  obtain ⟨sv, s, t, run, first, second, owns, idle, ids⟩ := sessions_meet
  have isolated := (sessions_isolated Registry.lawful.toLedger run).1
  have owner : sv.Owner 0 1 := ⟨s, first, owns⟩
  refine ⟨sv, run, owner, fun other => absurd (isolated.disjoint owner other) (by decide), ?_⟩
  refine Set.Subset.antisymm (fun id created => ?_) ?_
  · have alive : id ∈ sv.delegate.ids := isolated.alive created
    rw [ids] at alive
    exact List.mem_singleton.mp alive
  · rw [Set.singleton_subset_iff, ← isolated.union]
    exact ⟨0, owner⟩

/-- A session ends the subscription of another. -/
theorem session_steals : ∃ (sv sv' : FlightVarsServer Registry) (bytesTransferred : Except Exception (List UInt8)),
    Run (Step Registry.live) (start Registry.empty) sv ∧ Step Registry.live sv (.read 1 bytesTransferred) sv' ∧
      sv.Owner 0 1 ∧ 1 ∈ Registry.live sv.delegate ∧ 1 ∉ Registry.live sv'.delegate := by
  obtain ⟨sv, s, t, run, first, second, owns, idle, ids⟩ := sessions_meet
  have alive : 1 ∈ sv.delegate.ids := ids ▸ List.mem_singleton_self 1
  obtain ⟨bytesTransferred, sv', step, dead⟩ := idle_steals second idle alive
  exact ⟨sv, sv', bytesTransferred, run.forget, step, ⟨s, first, owns⟩, alive, dead⟩

end FlightVarsServer
end Oac.Server
