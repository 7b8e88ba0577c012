import Oac.Agreement

/-!
# Joined ends

What the session has registered for the entries of the client. Unlike the agreement of the
two ends, it stays true when the connection goes down with messages on their way.
-/
namespace Oac
open Base Proto FlightVars
set_option linter.unusedSectionVars false

namespace Duplex
variable {δ : Type}

/-- The values on their way, under their master subscriptions. -/
def updates (msgs : List Message) : List (SubscriptionId × VariableValue) :=
  msgs.filterMap fun
    | .varUpdate msg => some (msg.subsId, msg.varValue)
    | _ => none

theorem updates_append (msgs msgs' : List Message) : updates (msgs ++ msgs') = updates msgs ++ updates msgs' :=
  List.filterMap_append

/-- Each entry of the client is registered, and its subscription is not about to end. -/
structure Registered (d : Duplex δ) : Prop where
  holding : ∀ {v i}, d.manager.db.Maps v i → d.peer.session.subscriptions.Maps v i
  releasing : ∀ {v i}, d.manager.db.Maps v i → Message.unsubscriptionReq ⟨i⟩ ∉ d.toServer

section
variable [FlightVars δ] {live : δ → Set SubscriptionId} {d d' : Duplex δ} {e : Event} {l : Link VariableId SubscriptionId}

theorem said_among {α β : Type} {R : α → β → Prop} {as : List α} {bs : List β} (related : List.Forall₂ R as bs) {a : α}
    (among : a ∈ as) : ∃ b ∈ bs, R a b := by
  induction related with
  | nil => cases among
  | cons first _ ih =>
    rcases List.mem_cons.mp among with rfl | later
    · exact ⟨_, List.mem_cons_self, first⟩
    · obtain ⟨b, member, holds⟩ := ih later
      exact ⟨b, List.mem_cons_of_mem _ member, holds⟩

theorem linked_registered (abstracts : Abstracts live d l) (agreed : Link.Agreed capacity l) : Registered d where
  holding maps := by
    rw [SubscriptionMapper.Maps, abstracts.registered]
    exact agreed.holding _ (abstracts.held ▸ maps)
  releasing := by
    intro v i maps among
    obtain ⟨request, member, heard⟩ := said_among abstracts.toServer among
    have held : i ∈ l.held.map Prod.snd := abstracts.held ▸ List.mem_map_of_mem (f := Prod.snd) maps
    cases heard
    exact agreed.kept held member

/-- What is granted on the way is registered. -/
theorem linked_granting (abstracts : Abstracts live d l) (agreed : Link.Agreed capacity l) {msg : SubscriptionReplyMessage}
    (among : .subscriptionRep msg ∈ d.toClient) (status : msg.st = .subscribed) :
    d.peer.session.subscriptions.Maps (variableId msg.varGrp msg.varName) msg.subsId := by
  obtain ⟨reply, member, heard⟩ := said_among abstracts.toClient among
  rw [SubscriptionMapper.Maps, abstracts.registered]
  cases heard with
  | granted status' => exact agreed.granting member
  | refused status' =>
    rw [status] at status'
    cases status'
  | duplicate status' =>
    rw [status] at status'
    cases status'

/-- The two ends are linked, or the connection is down with the entries of the client as they were. -/
def Joined (live : δ → Set SubscriptionId) (d : Duplex δ) : Prop := Linked live (fun _ => True) d ∨ (d.Down ∧ Registered d)

theorem Joined.registered (joined : Joined live d) : Registered d := by
  rcases joined with ⟨-, l, abstracts, agreed, -⟩ | ⟨-, registered⟩
  · exact linked_registered abstracts agreed
  · exact registered

theorem Joined.granting (joined : Joined live d) (up : d.Up) {msg : SubscriptionReplyMessage}
    (among : .subscriptionRep msg ∈ d.toClient) (status : msg.st = .subscribed) :
    d.peer.session.subscriptions.Maps (variableId msg.varGrp msg.varName) msg.subsId := by
  rcases joined with ⟨-, l, abstracts, agreed, -⟩ | ⟨down, -⟩
  · exact linked_granting abstracts agreed among status
  · rw [Up, down.1] at up
    cases up.1

/-! ## Requests -/

/-- What a session says to a request: no value, and it grants only what it did not cover. -/
def Answers (p p' : Server.Peer δ) : Prop := ∃ replies, p'.session.written = p.session.written ++ replies ∧ updates replies = [] ∧
  ∀ rep, .subscriptionRep rep ∈ replies → rep.st = .subscribed →
    ¬ p.session.subscriptions.Covers (variableId rep.varGrp rep.varName)

theorem silent_answers {p p' : Server.Peer δ} (same : p'.session.written = p.session.written) : Answers p p' :=
  ⟨[], by rw [same, List.append_nil], rfl, nofun⟩

theorem answered_answers {p q : Server.Peer δ} (same : q.session.written = p.session.written) {rep : Message}
    (valueless : updates [rep] = []) (grants : ∀ msg, .subscriptionRep msg = rep → msg.st = .subscribed →
      ¬ p.session.subscriptions.Covers (variableId msg.varGrp msg.varName)) : Answers p (Server.answered q rep) := by
  by_cases fits : Fits rep
  · refine ⟨[rep], by rw [Server.answered_written, if_pos fits, same], valueless, fun msg among => ?_⟩
    exact grants msg (List.mem_singleton.mp among)
  · exact silent_answers (by rw [Server.answered_written, if_neg fits, same])

/-- A request ends no other subscription than its own. -/
theorem dispatch_answers (accountable : Accountable live) (p : Server.Peer δ) (msg : Message) :
    (∀ {v i}, p.session.subscriptions.Maps v i → msg ≠ .unsubscriptionReq ⟨i⟩ →
      (Server.Peer.caught (Server.Peer.dispatch msg p)).session.subscriptions.Maps v i) ∧
    Answers p (Server.Peer.caught (Server.Peer.dispatch msg p)) := by
  cases msg with
  | subscriptionReq req =>
    cases Server.subscription_effect p req with
    | known covers same =>
      rw [same]
      constructor
      · intro v i maps _
        rwa [Server.answered_subscriptions]
      · refine answered_answers rfl rfl fun msg equal status => ?_
        cases equal
        cases status
    | granted subsId delegate newVariable executed newSubscription same =>
      rw [same]
      constructor
      · intro v i maps _
        rw [Server.answered_subscriptions]
        exact (SubscriptionMapper.maps_insert newVariable newSubscription).mpr (.inr maps)
      · refine answered_answers ?_ ?_ fun msg equal status => ?_
        · rfl
        · rfl
        · cases equal
          exact newVariable
    | clashing subsId delegate newVariable executed used same =>
      rw [same]
      exact ⟨fun maps _ => maps, silent_answers rfl⟩
    | failed e delegate newVariable raised undeclared same =>
      exact absurd (accountable.subscribe_refused raised).1 (undeclared _)
    | refused unknown delegate newVariable raised same =>
      rw [same]
      constructor
      · intro v i maps _
        rwa [Server.answered_subscriptions]
      · refine answered_answers ?_ ?_ fun msg equal status => ?_
        · rfl
        · rfl
        · cases equal
          cases status
  | unsubscriptionReq req =>
    -- The reply is about no variable.
    have ends : ∀ {q : Server.Peer δ} {rep : UnsubscriptionReplyMessage}, q.session.written = p.session.written →
        Answers p (Server.answered q (.unsubscriptionRep rep)) := fun same => answered_answers same rfl (by nofun)
    cases Server.unsubscription_effect accountable.toLedger p req with
    | removed delegate executed owned same =>
      rw [same]
      refine ⟨fun {v i} maps other => ?_, ends rfl⟩
      rw [Server.answered_subscriptions]
      refine SubscriptionMapper.maps_erase.mpr ⟨maps, ?_⟩
      rintro rfl
      exact other rfl
    | stolen delegate executed foreign same =>
      rw [same]
      refine ⟨fun maps _ => ?_, ends rfl⟩
      rwa [Server.answered_subscriptions]
    | missing delegate raised same =>
      rw [same]
      refine ⟨fun maps _ => ?_, ends rfl⟩
      rwa [Server.answered_subscriptions]
  | varUpdate req =>
    obtain ⟨-, mapper, silent⟩ := Server.update_effect p req
    exact ⟨fun maps _ => by rwa [mapper], silent_answers silent⟩
  | _ => exact ⟨fun maps _ => maps, silent_answers rfl⟩

/-! ## Steps of the connection -/

/-- A task ends the subscription of no entry that stays. -/
theorem ran_registered (registered : Registered d) {task : Client.Task} {tasks : List Client.Task}
    {m : Client.ConnectionManager} (effect : Client.ConnectionManager.TaskEffect { d.manager with tasks := tasks } task m) :
    Registered (d.withManager m) := by
  obtain ⟨holding, releasing⟩ := registered
  have quiet : m.sent = d.manager.sent → d.withManager m = { d with manager := m } := withManager_quiet d
  have sends := @withManager_sent _ d m
  -- An entry that stays, and a message that ends no subscription.
  have kept : ∀ {more : List Message}, (∀ {v i}, m.db.Maps v i → d.manager.db.Maps v i) →
      (∀ {v i}, m.db.Maps v i → Message.unsubscriptionReq ⟨i⟩ ∉ more) →
      Registered { d with
        manager := m
        toServer := d.toServer ++ more } := by
    intro more fewer harmless
    refine ⟨fun maps => holding (fewer maps), fun maps among => ?_⟩
    rcases List.mem_append.mp among with before | last
    · exact releasing (fewer maps) before
    · exact harmless maps last
  have unchanged : ∀ {db : Client.SubscriptionDb} {v i}, db.pairs = d.manager.db.pairs → db.Maps v i → d.manager.db.Maps v i := by
    intro db v i same maps
    rwa [Client.SubscriptionDb.Maps, same] at maps
  cases effect with
  | bound virtSubsId same =>
    rw [quiet rfl]
    exact ⟨fun maps => holding (unchanged same maps), fun maps => releasing (unchanged same maps)⟩
  | requested undefined =>
    rw [sends rfl]
    refine kept id fun _ among => ?_
    split at among
    · cases List.mem_singleton.mp among
    · cases among
  | unbound same =>
    rw [quiet rfl]
    exact ⟨fun maps => holding (unchanged same maps), fun maps => releasing (unchanged same maps)⟩
  | ended maps removed less =>
    rename_i req db varId masterSubsId
    rw [sends rfl]
    have fewer : ∀ {v i}, db.Maps v i → d.manager.db.Maps v i ∧ v ≠ varId := by
      intro v i stays
      rw [Client.SubscriptionDb.Maps, less] at stays
      obtain ⟨before, other⟩ := List.mem_filter.mp stays
      exact ⟨before, of_decide_eq_true other⟩
    refine kept (fun stays => (fewer stays).1) fun stays among => ?_
    cases List.mem_singleton.mp among
    exact (fewer stays).2 ((fewer stays).1.unique_variable maps)
  | updated masterSubsId =>
    rw [sends rfl]
    refine kept id fun _ among => ?_
    cases List.mem_singleton.mp among
  | unknown e =>
    rw [quiet rfl]
    exact ⟨holding, releasing⟩

/-- A reply that raises leaves the entries as they were. -/
theorem raised_registered (registered : Registered d) {e : Exception} {msg : Message} {later : List Message}
    {m m' : Client.ConnectionManager} (effect : Client.ConnectionManager.ReplyEffect m msg (.error e m'))
    (sameDb : m.db = d.manager.db) (sameSent : m.sent = d.manager.sent) :
    Registered ({ d with toClient := later }.withManager (Client.ConnectionManager.caught (.error e m'))) := by
  have kept : m'.db = m.db ∧ m'.sent = m.sent := by
    cases effect <;> exact ⟨rfl, rfl⟩
  have stopped : Client.ConnectionManager.caught (.error e m') = Client.ConnectionManager.failed .communication m' := by
    cases e <;> first | rfl | exact absurd rfl effect.not_eof
  have quiet : (Client.ConnectionManager.failed .communication m').sent = d.manager.sent := kept.2.trans sameSent
  have same : (Client.ConnectionManager.failed .communication m').db = d.manager.db := kept.1.trans sameDb
  rw [stopped, withManager_quiet { d with toClient := later } quiet]
  constructor
  · intro v i maps
    exact registered.holding (same ▸ maps)
  · intro v i maps
    exact registered.releasing (same ▸ maps)

theorem Registered.step (accountable : Accountable live) (registered : Registered d) (step : Step d e d') (down : d'.Down) : Registered d' := by
  cases step with
  | submitted => exact ⟨registered.holding, registered.releasing⟩
  | ran posted => exact ran_registered registered (Client.ConnectionManager.runTask_effect _ _)
  | requested pending head =>
    rename_i msg later inputBuffer received handled
    obtain ⟨keeps, -⟩ := dispatch_answers accountable ⟨served d.peer.session inputBuffer received handled, d.peer.delegate⟩ msg
    refine ⟨fun {v i} maps => keeps (registered.holding maps) ?_, fun {v i} maps among => ?_⟩
    · rintro rfl
      exact registered.releasing maps (Link.mem_first head)
    · exact registered.releasing maps (Link.mem_later head among)
  | wrote pending => exact ⟨registered.holding, registered.releasing⟩
  | notified =>
    rename_i varId varValue
    rcases sendVarUpdate_updates varId varValue d.peer.session with same | ⟨msg, same⟩
    · rw [same]
      exact ⟨registered.holding, registered.releasing⟩
    · rw [same]
      exact ⟨registered.holding, registered.releasing⟩
  | replied pending head =>
    rename_i msg later inputBuffer received decoded
    have effect := Client.ConnectionManager.dispatch_effect (advanced d.manager inputBuffer received decoded) msg
    generalize Client.ConnectionManager.dispatch msg (advanced d.manager inputBuffer received decoded) = result at effect down ⊢
    cases result with
    | ok a m =>
      have stopped : Client.Phase.receiving = .stopped := down.2
      cases stopped
    | error e m => exact raised_registered registered effect rfl rfl

theorem Joined.step (accountable : Accountable live) (joined : Joined live d) (step : Step d e d') : Joined live d' := by
  have registered := joined.registered
  rcases joined with ⟨up, l, abstracts, agreed, -⟩ | ⟨down, -⟩
  · rcases step.simulated accountable abstracts agreed up with ⟨up', l', abstracts', rfl | ⟨a, next, -⟩⟩ | ⟨down, -⟩
    · exact .inl ⟨up', l', abstracts', agreed, trivial⟩
    · exact .inl ⟨up', l', abstracts', agreed.step next, trivial⟩
    · exact .inr ⟨down, registered.step accountable step down⟩
  · exact .inr ⟨step.down down, registered.step accountable step (step.down down)⟩

end
end Duplex
end Oac
