import Oac.Base.Link

/-!
# Replies over a link

When every grant and refusal can be said, what the client waits for is on its way
(`Answered`), so that both ends agree once nothing is on its way (`Answered.settled`). When
the client asks again only where nobody can tell it that it did, it can make sense of every
reply (`Orderly.unbroken`).
-/
namespace Oac.Base
set_option linter.unusedSectionVars false
universe u v

namespace Link
variable {V : Type u} {I : Type v} [DecidableEq V] [DecidableEq I] {c : Capacity V} {l l' : Link V I} {a : Action V}

/-- The reply is one to a question about the subject. -/
def Reply.Answers (v : V) : Reply V I → Prop
  | .granted w _ => w = v
  | .refused w => w = v
  | .duplicate w => w = v
  | _ => False

/-! ## Answers -/

/-- What is said can be heard. -/
def Audible (c : Capacity V) : Action V → Prop
  | .ask v => c.asks v = true
  | .grant v => c.grants v = true
  | .refuse v => c.refuses v = true
  | .other => True

/-- The server has not yet seen a question after which no ticket of the subject comes back. -/
def Open (registered : List (V × I)) (toServer : List (Request V I)) (v : V) : Prop :=
  ∃ before later, toServer = before ++ .ask v :: later ∧ ∀ {i}, (v, i) ∈ registered → .release i ∉ later

theorem Open.append {registered : List (V × I)} {toServer : List (Request V I)} {v : V} (isOpen : Open registered toServer v)
    {more : List (Request V I)} (others : ∀ {i}, (v, i) ∈ registered → .release i ∉ more) :
    Open registered (toServer ++ more) v := by
  obtain ⟨before, later, rfl, free⟩ := isOpen
  refine ⟨before, later ++ more, by simp, fun member among => ?_⟩
  rcases List.mem_append.mp among with first | last
  · exact free member first
  · exact others member last

theorem Open.tail {registered : List (V × I)} {msg : Request V I} {toServer : List (Request V I)} {v : V}
    (isOpen : Open registered (msg :: toServer) v) :
    (msg = .ask v ∧ ∀ {i}, (v, i) ∈ registered → .release i ∉ toServer) ∨ Open registered toServer v := by
  obtain ⟨before, later, split, free⟩ := isOpen
  cases before with
  | nil =>
    cases split
    exact .inl ⟨rfl, free⟩
  | cons first before =>
    cases split
    exact .inr ⟨before, later, rfl, free⟩

theorem Open.mono {registered registered' : List (V × I)} {toServer : List (Request V I)} {v : V}
    (isOpen : Open registered toServer v) (less : ∀ {i}, (v, i) ∈ registered' → (v, i) ∈ registered) :
    Open registered' toServer v := by
  obtain ⟨before, later, split, free⟩ := isOpen
  exact ⟨before, later, split, fun member => free (less member)⟩

/-- Every grant was said, and for every subject the client waits for there is a reply or a
    question on its way. -/
structure Answered (c : Capacity V) (l : Link V I) : Prop where
  spoken : ∀ {p}, p ∈ l.registered → c.grants p.1 = true
  awaited : ∀ {v}, v ∈ l.asked → (∃ reply ∈ l.toClient, reply.Answers v) ∨ Open l.registered l.toServer v

theorem empty_answered (c : Capacity V) : Answered c (empty : Link V I) where
  spoken := nofun
  awaited := nofun

/-- A ticket that does not come back is held or brought to the client. -/
theorem Agreed.used_unreleased (agreed : Agreed c l) {v : V} {i : I} (registered : (v, i) ∈ l.registered)
    (can : c.grants v = true) (unreleased : .release i ∉ l.toServer) : (v, i) ∈ l.held ∨ .granted v i ∈ l.toClient := by
  have used := agreed.used registered can
  unfold uses at used
  rw [List.count_eq_zero.mpr unreleased] at used
  have same : ∀ {w}, (w, i) ∈ l.registered → w = v := fun registered' =>
    congrArg Prod.fst (List.inj_on_of_nodup_map agreed.tickets registered' registered rfl)
  by_cases holds : i ∈ l.held.map Prod.snd
  · obtain ⟨⟨w, j⟩, held, rfl⟩ := List.mem_map.mp holds
    exact .inl (same (agreed.holding _ held) ▸ held)
  · rw [List.count_eq_zero.mpr holds, Nat.zero_add, Nat.add_zero, List.countP_pos_iff] at used
    obtain ⟨reply, among, brings⟩ := used
    cases reply with
    | granted w j =>
      have ticket : j = i := by simpa [Reply.brings] using brings
      subst ticket
      exact .inr (same (agreed.granting among) ▸ among)
    | _ => cases brings

theorem Answered.step (agreed : Agreed c l) (answered : Answered c l) (step : Step c l a l') (audible : Audible c a) :
    Answered c l' := by
  obtain ⟨spoken, awaited⟩ := answered
  -- replies are added at the end, or the first is taken that answers something else
  have more : ∀ {v : V} {extra : List (Reply V I)}, (∃ reply ∈ l.toClient, reply.Answers v) →
      ∃ reply ∈ l.toClient ++ extra, reply.Answers v := by
    rintro v extra ⟨reply, among, answers⟩
    exact ⟨reply, List.mem_append_left _ among, answers⟩
  have rest : ∀ {v : V} {first : Reply V I} {later}, l.toClient = first :: later → ¬ first.Answers v →
      (∃ reply ∈ l.toClient, reply.Answers v) → ∃ reply ∈ later, reply.Answers v := by
    rintro v first later head other ⟨reply, among, answers⟩
    rw [head] at among
    rcases List.mem_cons.mp among with rfl | among
    · exact absurd answers other
    · exact ⟨reply, among, answers⟩
  cases step with
  | ask new =>
    rename_i v
    have can : c.asks v = true := audible
    refine ⟨spoken, fun {w} asked => ?_⟩
    rcases List.mem_append.mp asked with before | last
    · refine (awaited before).imp id fun isOpen => isOpen.append fun _ among => ?_
      cases (mem_said.mp among).2
    · rw [List.mem_singleton.mp last]
      refine .inr ⟨l.toServer, [], ?_, fun _ => List.not_mem_nil⟩
      rw [said, if_pos can]
  | release holds =>
    rename_i v i
    refine ⟨spoken, fun {w} asked => (awaited asked).imp id fun isOpen => isOpen.append fun {j} registered among => ?_⟩
    cases List.mem_singleton.mp among
    have same := List.inj_on_of_nodup_map agreed.tickets registered (agreed.holding _ holds) rfl
    have subject : w = v := congrArg Prod.fst same
    exact agreed.waiting (List.mem_map_of_mem (f := Prod.fst) holds) (subject ▸ asked)
  | tell =>
    refine ⟨spoken, fun asked => (awaited asked).imp id fun isOpen => isOpen.append fun _ among => ?_⟩
    cases List.mem_singleton.mp among
  | duplicate head known =>
    rename_i v later
    refine ⟨spoken, fun {w} asked => ?_⟩
    rcases awaited asked with reply | isOpen
    · exact .inl (more reply)
    · rw [head] at isOpen
      rcases isOpen.tail with ⟨first, free⟩ | isOpen
      · cases first
        obtain ⟨⟨_, i⟩, registered, rfl⟩ := List.mem_map.mp known
        have unreleased : .release i ∉ l.toServer := by
          rw [head]
          simpa using free registered
        rcases agreed.used_unreleased registered (spoken registered) unreleased with held | granted
        · exact absurd asked (agreed.waiting (List.mem_map_of_mem (f := Prod.fst) held))
        · exact .inl ⟨_, List.mem_append_left _ granted, rfl⟩
      · exact .inr isOpen
  | grant head new unused =>
    rename_i v i later
    have can : c.grants v = true := audible
    refine ⟨fun {p} registered => ?_, fun {w} asked => ?_⟩
    · rcases List.mem_cons.mp registered with rfl | before
      · exact can
      · exact spoken before
    · by_cases same : v = w
      · exact .inl ⟨.granted v i, List.mem_append_right _ (mem_said.mpr ⟨can, rfl⟩), same⟩
      · rcases awaited asked with reply | isOpen
        · exact .inl (more reply)
        · rw [head] at isOpen
          rcases isOpen.tail with ⟨first, -⟩ | isOpen
          · cases first
            exact absurd rfl same
          · refine .inr (isOpen.mono fun registered => ?_)
            rcases List.mem_cons.mp registered with equal | before
            · cases equal
              exact absurd rfl same
            · exact before
  | refuse head new =>
    rename_i v later
    have can : c.refuses v = true := audible
    refine ⟨spoken, fun {w} asked => ?_⟩
    by_cases same : v = w
    · exact .inl ⟨.refused v, List.mem_append_right _ (mem_said.mpr ⟨can, rfl⟩), same⟩
    · rcases awaited asked with reply | isOpen
      · exact .inl (more reply)
      · rw [head] at isOpen
        rcases isOpen.tail with ⟨first, -⟩ | isOpen
        · cases first
          exact absurd rfl same
        · exact .inr isOpen
  | unregister head known =>
    refine ⟨fun registered => spoken (List.mem_of_mem_filter registered), fun {w} asked => ?_⟩
    rcases awaited asked with reply | isOpen
    · exact .inl (more reply)
    · rw [head] at isOpen
      rcases isOpen.tail with ⟨first, -⟩ | isOpen
      · cases first
      · exact .inr (isOpen.mono List.mem_of_mem_filter)
  | hear head =>
    refine ⟨spoken, fun asked => (awaited asked).imp id fun isOpen => ?_⟩
    rw [head] at isOpen
    rcases isOpen.tail with ⟨first, -⟩ | isOpen
    · cases first
    · exact isOpen
  | notify => exact ⟨spoken, fun asked => (awaited asked).imp more id⟩
  | granted head asked usable =>
    refine ⟨spoken, fun {w} still => ?_⟩
    obtain ⟨before, other⟩ := List.mem_filter.mp still
    have apart : _ ≠ w := Ne.symm (by simpa using other)
    exact (awaited before).imp (rest head apart) id
  | refused head asked =>
    refine ⟨spoken, fun {w} still => ?_⟩
    obtain ⟨before, other⟩ := List.mem_filter.mp still
    have apart : _ ≠ w := Ne.symm (by simpa using other)
    exact (awaited before).imp (rest head apart) id
  | released head ending =>
    exact ⟨spoken, fun asked => (awaited asked).imp (rest head fun answers => by cases answers) id⟩
  | told head => exact ⟨spoken, fun asked => (awaited asked).imp (rest head fun answers => by cases answers) id⟩

/-- When nothing is on its way, nobody waits and both ends have the same tickets. -/
theorem Answered.settled (agreed : Agreed c l) (answered : Answered c l) (noRequest : l.toServer = [])
    (noReply : l.toClient = []) : l.asked = [] ∧ l.ending = [] ∧ ∀ p, p ∈ l.held ↔ p ∈ l.registered := by
  refine ⟨?_, ?_, fun p => ⟨agreed.holding p, fun registered => ?_⟩⟩
  · refine List.eq_nil_iff_forall_not_mem.mpr fun v asked => ?_
    rcases answered.awaited asked with ⟨reply, among, -⟩ | ⟨before, later, split, -⟩
    · rw [noReply] at among
      exact absurd among List.not_mem_nil
    · rw [noRequest] at split
      simp at split
  · refine List.eq_nil_iff_forall_not_mem.mpr fun i ending => ?_
    have ended := agreed.ended i
    rw [noRequest, noReply] at ended
    exact List.count_eq_zero.mp ended ending
  · have unreleased : .release p.2 ∉ l.toServer := by simp [noRequest]
    rcases agreed.used_unreleased (v := p.1) registered (answered.spoken registered) unreleased with held | granted
    · exact held
    · rw [noReply] at granted
      exact absurd granted List.not_mem_nil

/-! ## Order -/

/-- The client asks again only where it would not be told. -/
def Patient (c : Capacity V) (l : Link V I) : Action V → Prop
  | .ask v => v ∉ l.asked ∨ c.duplicates v = false
  | _ => True

/-- Each reply answers one question that was asked, and grants or refuses. -/
structure Orderly (c : Capacity V) (l : Link V I) : Prop where
  expected : ∀ {v reply}, reply ∈ l.toClient → reply.Answers v → v ∈ l.asked
  distinct : l.toClient.Pairwise fun a b => ∀ {v}, a.Answers v → ¬ b.Answers v
  alone : ∀ {v}, c.duplicates v = true → .ask v ∈ l.toServer → v ∈ l.asked ∧ ∀ reply ∈ l.toClient, ¬ reply.Answers v
  asksOnce : l.toServer.Pairwise fun a b => ∀ {v}, c.duplicates v = true → a = .ask v → b ≠ .ask v
  /-- what is registered when a question arrives has come back before -/
  cleared : ∀ {v i before later}, c.duplicates v = true → l.toServer = before ++ .ask v :: later →
    (v, i) ∈ l.registered → .release i ∈ before
  /-- a question that arrives unregistered is still waited for -/
  wanted : ∀ {v before later}, l.toServer = before ++ .ask v :: later →
    v ∈ l.asked ∨ ∃ i, (v, i) ∈ l.registered ∧ .release i ∉ before
  unrepeated : ∀ {v}, .duplicate v ∉ l.toClient
  short : ∀ {v}, .refused v ∈ l.toClient → c.duplicates v = true

theorem empty_orderly (c : Capacity V) : Orderly c (empty : Link V I) where
  expected := nofun
  distinct := List.Pairwise.nil
  alone _ := nofun
  asksOnce := List.Pairwise.nil
  cleared _ split := by simp [empty] at split
  wanted split := by simp [empty] at split
  unrepeated := nofun
  short := nofun

/-- The client can make sense of the next reply. -/
theorem Orderly.unbroken (agreed : Agreed c l) (orderly : Orderly c l) : ¬ l.Broken := by
  rintro ⟨reply, later, head, odd⟩
  have first := mem_first head
  cases reply with
  | granted v i => exact odd ⟨orderly.expected first rfl, .inr (agreed.brought first).1⟩
  | refused v => exact odd (orderly.expected first rfl)
  | duplicate v => exact orderly.unrepeated first
  | released i =>
    have some := List.count_pos_iff.mpr first
    have ended := agreed.ended i
    exact odd (List.count_pos_iff.mp (by omega))
  | other => exact odd True.intro

theorem split_concat {α : Type*} {items before later : List α} {x y : α} (split : items ++ [x] = before ++ y :: later) :
    (before = items ∧ y = x) ∨ ∃ later', items = before ++ y :: later' := by
  rcases later.eq_nil_or_concat with rfl | ⟨later', last, rfl⟩
  · obtain ⟨same, equal⟩ := List.append_inj' split rfl
    cases equal
    exact .inl ⟨same.symm, rfl⟩
  · rw [List.concat_eq_append, ← List.cons_append, ← List.append_assoc] at split
    exact .inr ⟨later', (List.append_inj' split rfl).1⟩

/-- The client says something that is no question. -/
theorem Orderly.tell (orderly : Orderly c l) {msg : Request V I} (other : ∀ {v}, msg ≠ .ask v) {held : List (V × I)}
    {ending : List I} : Orderly c { l with held := held, ending := ending, toServer := l.toServer ++ [msg] } := by
  have before : ∀ {v}, .ask v ∈ l.toServer ++ [msg] → .ask v ∈ l.toServer := by
    intro v among
    rcases List.mem_append.mp among with before | last
    · exact before
    · exact absurd (List.mem_singleton.mp last).symm other
  exact { orderly with
    alone := fun said among => orderly.alone said (before among)
    asksOnce := by
      refine List.pairwise_append.mpr ⟨orderly.asksOnce, List.pairwise_singleton .., fun a _ b last v _ _ => ?_⟩
      rw [List.mem_singleton.mp last]
      exact other
    cleared := fun said split registered => by
      rcases split_concat split with ⟨-, equal⟩ | ⟨later', split'⟩
      · exact absurd equal.symm other
      · exact orderly.cleared said split' registered
    wanted := fun split => by
      rcases split_concat split with ⟨-, equal⟩ | ⟨later', split'⟩
      · exact absurd equal.symm other
      · exact orderly.wanted split' }

theorem Orderly.ask (agreed : Agreed c l) (orderly : Orderly c l) {v : V} (new : v ∉ l.held.map Prod.fst)
    (patient : v ∉ l.asked ∨ c.duplicates v = false) : Orderly c { l with
      asked := l.asked ++ [v]
      toServer := l.toServer ++ said (c.asks v) (.ask v) } := by
  have unasked : c.duplicates v = true → v ∉ l.asked := fun said => patient.resolve_right (by simp [said])
  have quiet : c.duplicates v = true → ∀ reply ∈ l.toClient, ¬ reply.Answers v :=
    fun said reply among answers => unasked said (orderly.expected among answers)
  have waits : Orderly c { l with asked := l.asked ++ [v] } := { orderly with
    expected := fun among answers => List.mem_append_left _ (orderly.expected among answers)
    alone := fun said among => (orderly.alone said among).imp (List.mem_append_left _) id
    wanted := fun split => (orderly.wanted split).imp (List.mem_append_left _) id }
  cases can : c.asks v with
  | false =>
    rw [said, if_neg Bool.false_ne_true, List.append_nil]
    exact waits
  | true =>
    rw [said, if_pos rfl]
    exact { waits with
      alone := fun {w} said among => by
        rcases List.mem_append.mp among with before | last
        · exact waits.alone said before
        · cases List.mem_singleton.mp last
          exact ⟨List.mem_append_right _ List.mem_cons_self, quiet said⟩
      asksOnce := by
        refine List.pairwise_append.mpr ⟨orderly.asksOnce, List.pairwise_singleton .., fun a before b last w said same => ?_⟩
        rw [List.mem_singleton.mp last]
        rintro equal
        cases equal
        exact unasked said (orderly.alone said (same ▸ before)).1
      cleared := fun {w i before later} said split registered => by
        rcases split_concat split with ⟨rfl, equal⟩ | ⟨later', split'⟩
        · cases equal
          by_contra unreleased
          rcases agreed.used_unreleased registered (c.grants_of_duplicates said) unreleased with held | granted
          · exact new (List.mem_map_of_mem (f := Prod.fst) held)
          · exact quiet said _ granted rfl
        · exact orderly.cleared said split' registered
      wanted := fun {w before later} split => by
        rcases split_concat split with ⟨-, equal⟩ | ⟨later', split'⟩
        · cases equal
          exact .inl (List.mem_append_right _ List.mem_cons_self)
        · exact waits.wanted split' }

/-- The server takes a message off; what it says afterwards is shown apart. -/
theorem Orderly.take (orderly : Orderly c l) {msg : Request V I} {later : List (Request V I)}
    (head : l.toServer = msg :: later) (registered : List (V × I))
    (fewer : ∀ {v i}, c.duplicates v = true → .ask v ∈ later → (v, i) ∈ registered → (v, i) ∈ l.registered ∧ msg ≠ .release i)
    (more : ∀ {v i}, (v, i) ∈ l.registered → msg ≠ .release i → (v, i) ∈ registered) :
    Orderly c { l with registered := registered, toServer := later } := by
  have asksOnce := orderly.asksOnce
  rw [head, List.pairwise_cons] at asksOnce
  exact { orderly with
    alone := fun said among => orderly.alone said (mem_later head among)
    asksOnce := asksOnce.2
    cleared := fun {v i before later'} said split member => by
      have among : .ask v ∈ later := by
        rw [show later = _ from split]
        simp
      obtain ⟨kept, other⟩ := fewer said among member
      have split' : l.toServer = (msg :: before) ++ .ask v :: later' := by
        rw [head, show later = _ from split]
        rfl
      rcases List.mem_cons.mp (orderly.cleared said split' kept) with equal | released
      · exact absurd equal.symm other
      · exact released
    wanted := fun {v before later'} split => by
      have split' : l.toServer = (msg :: before) ++ .ask v :: later' := by
        rw [head, show later = _ from split]
        rfl
      rcases orderly.wanted split' with asked | ⟨i, member, unreleased⟩
      · exact .inl asked
      · rw [List.mem_cons, not_or] at unreleased
        exact .inr ⟨i, more member (Ne.symm unreleased.1), unreleased.2⟩ }

/-- The server says something that answers no question. -/
theorem Orderly.say (orderly : Orderly c l) {reply : Reply V I} (other : ∀ v, ¬ reply.Answers v) :
    Orderly c { l with toClient := l.toClient ++ [reply] } := by
  exact { orderly with
    expected := fun among answers => by
      rcases List.mem_append.mp among with before | last
      · exact orderly.expected before answers
      · rw [List.mem_singleton.mp last] at answers
        exact absurd answers (other _)
    distinct := by
      refine List.pairwise_append.mpr ⟨orderly.distinct, List.pairwise_singleton .., fun a _ b last v _ => ?_⟩
      rw [List.mem_singleton.mp last]
      exact other v
    alone := fun said among => by
      obtain ⟨asked, quiet⟩ := orderly.alone said among
      refine ⟨asked, fun reply' among' => ?_⟩
      rcases List.mem_append.mp among' with before | last
      · exact quiet reply' before
      · rw [List.mem_singleton.mp last]
        exact other _
    unrepeated := fun {v} among => by
      rcases List.mem_append.mp among with before | last
      · exact orderly.unrepeated before
      · exact other v (List.mem_singleton.mp last ▸ rfl)
    short := fun {v} among => by
      rcases List.mem_append.mp among with before | last
      · exact orderly.short before
      · exact absurd (List.mem_singleton.mp last ▸ rfl) (other v) }

/-- The server answers a question that is still open. -/
theorem Orderly.answer (orderly : Orderly c l) {v : V} (asked : v ∈ l.asked)
    (quiet : ∀ reply ∈ l.toClient, ¬ reply.Answers v) (once : c.duplicates v = true → .ask v ∉ l.toServer) {can : Bool}
    {reply : Reply V I} (about : ∀ {w}, reply.Answers w → w = v) (new : ∀ {w}, reply ≠ .duplicate w)
    (short : ∀ {w}, can = true → reply = .refused w → c.duplicates w = true) :
    Orderly c { l with toClient := l.toClient ++ said can reply } := by
  have last : ∀ {extra}, extra ∈ l.toClient ++ said can reply → extra ∈ l.toClient ∨ can = true ∧ extra = reply :=
    fun among => (List.mem_append.mp among).imp id mem_said.mp
  exact { orderly with
    expected := fun among answers => by
      rcases last among with before | ⟨-, rfl⟩
      · exact orderly.expected before answers
      · exact about answers ▸ asked
    distinct := by
      refine List.pairwise_append.mpr ⟨orderly.distinct, ?_, fun a before b among w first second => ?_⟩
      · cases can <;> simp [said]
      · rw [(mem_said.mp among).2] at second
        exact quiet a before (about second ▸ first)
    alone := fun {w} said among => by
      obtain ⟨waits, others⟩ := orderly.alone said among
      refine ⟨waits, fun extra member answers => ?_⟩
      rcases last member with before | ⟨-, rfl⟩
      · exact others extra before answers
      · cases about answers
        exact once said among
    unrepeated := fun among => by
      rcases last among with before | ⟨-, equal⟩
      · exact orderly.unrepeated before
      · exact new equal.symm
    short := fun among => by
      rcases last among with before | ⟨can, equal⟩
      · exact orderly.short before
      · exact short can equal.symm }

/-- A question about a subject that is not registered is still open. -/
theorem Orderly.unanswered (agreed : Agreed c l) (orderly : Orderly c l) {v : V} {later : List (Request V I)}
    (head : l.toServer = .ask v :: later) (new : v ∉ l.registered.map Prod.fst) :
    v ∈ l.asked ∧ (∀ reply ∈ l.toClient, ¬ reply.Answers v) ∧ (c.duplicates v = true → .ask v ∉ later) := by
  have unregistered : ∀ {i}, (v, i) ∉ l.registered := fun member => new (List.mem_map_of_mem (f := Prod.fst) member)
  refine ⟨?_, fun reply among answers => ?_, fun said among => ?_⟩
  · have first : l.toServer = [] ++ .ask v :: later := head
    rcases orderly.wanted first with asked | ⟨i, member, -⟩
    · exact asked
    · exact absurd member unregistered
  · cases reply with
    | granted w i =>
      cases answers
      exact unregistered (agreed.granting among)
    | refused w =>
      cases answers
      exact (orderly.alone (orderly.short among) (mem_first head)).2 _ among rfl
    | duplicate w => exact orderly.unrepeated among
    | _ => exact answers
  · have asksOnce := orderly.asksOnce
    rw [head, List.pairwise_cons] at asksOnce
    exact asksOnce.1 _ among said rfl rfl

/-- The client takes a reply and waits as before. -/
theorem Orderly.skip (orderly : Orderly c l) {reply : Reply V I} {later : List (Reply V I)}
    (head : l.toClient = reply :: later) (ending : List I) : Orderly c { l with ending := ending, toClient := later } := by
  have distinct := orderly.distinct
  rw [head, List.pairwise_cons] at distinct
  exact { orderly with
    expected := fun among answers => orderly.expected (mem_later head among) answers
    distinct := distinct.2
    alone := fun said among => (orderly.alone said among).imp id fun quiet extra member => quiet extra (mem_later head member)
    unrepeated := fun among => orderly.unrepeated (mem_later head among)
    short := fun among => orderly.short (mem_later head among) }

/-- The client takes the answer to a question. -/
theorem Orderly.hear (orderly : Orderly c l) {v : V} {reply : Reply V I} {later : List (Reply V I)}
    (head : l.toClient = reply :: later) (answers : reply.Answers v)
    (kept : .ask v ∈ l.toServer → ∃ i, (v, i) ∈ l.registered ∧ .release i ∉ l.toServer) {held : List (V × I)} :
    Orderly c { l with
      held := held
      asked := l.asked.filter fun w => w ≠ v
      toClient := later } := by
  have first := mem_first head
  have distinct := orderly.distinct
  rw [head, List.pairwise_cons] at distinct
  have others := orderly.skip head l.ending
  exact { others with
    expected := fun {w extra} among answers' => List.mem_filter.mpr ⟨others.expected among answers', by
      have apart : w ≠ v := by
        rintro rfl
        exact distinct.1 extra among answers answers'
      simpa using apart⟩
    alone := fun {w} said among => by
      obtain ⟨asked, quiet⟩ := orderly.alone said among
      have apart : w ≠ v := by
        rintro rfl
        exact quiet reply first answers
      exact ⟨List.mem_filter.mpr ⟨asked, by simpa using apart⟩, (others.alone said among).2⟩
    wanted := fun {w before later'} split => by
      by_cases same : w = v
      · subst same
        have member : .ask w ∈ l.toServer := by
          rw [show l.toServer = _ from split]
          simp
        obtain ⟨i, registered, unreleased⟩ := kept member
        refine .inr ⟨i, registered, fun among => unreleased ?_⟩
        rw [show l.toServer = _ from split]
        exact List.mem_append_left _ among
      · exact (orderly.wanted split).imp (fun asked => List.mem_filter.mpr ⟨asked, by simpa using same⟩) id }

theorem Orderly.step (agreed : Agreed c l) (orderly : Orderly c l) (step : Step c l a l') (patient : Patient c l a) :
    Orderly c l' := by
  cases step with
  | ask new => exact orderly.ask agreed new patient
  | release holds => exact orderly.tell fun equal => by cases equal
  | tell => exact orderly.tell fun equal => by cases equal
  | duplicate head known =>
    rename_i v later
    cases can : c.duplicates v with
    | true =>
      -- the ticket that is registered would have had to come back before
      obtain ⟨⟨_, i⟩, registered, rfl⟩ := List.mem_map.mp known
      have first : l.toServer = [] ++ .ask _ :: later := head
      exact absurd (orderly.cleared can first registered) List.not_mem_nil
    | false =>
      rw [said, if_neg Bool.false_ne_true, List.append_nil]
      exact orderly.take head l.registered (fun _ _ member => ⟨member, fun equal => by cases equal⟩) fun member _ => member
  | grant head new unused =>
    rename_i v i later
    obtain ⟨asked, quiet, once⟩ := orderly.unanswered agreed head new
    have taken := orderly.take head ((v, i) :: l.registered) (fun {w j} said among member => by
      rcases List.mem_cons.mp member with equal | before
      · cases equal
        exact absurd among (once said)
      · exact ⟨before, fun equal => by cases equal⟩) fun member _ => List.mem_cons_of_mem _ member
    exact taken.answer asked quiet once (fun answers => answers.symm) (fun equal => by cases equal) fun _ equal => by cases equal
  | refuse head new =>
    rename_i v later
    obtain ⟨asked, quiet, once⟩ := orderly.unanswered agreed head new
    have taken := orderly.take head l.registered (fun _ _ member => ⟨member, fun equal => by cases equal⟩) fun member _ => member
    refine taken.answer asked quiet once (fun answers => answers.symm) (fun equal => by cases equal) fun {w} can equal => ?_
    cases equal
    exact c.duplicates_of_refuses can
  | unregister head known =>
    rename_i i later
    have taken := orderly.take head (l.registered.filter fun pair => pair.2 ≠ i)
      (fun {w j} _ _ member => by
        obtain ⟨before, other⟩ := List.mem_filter.mp member
        refine ⟨before, fun equal => ?_⟩
        cases equal
        simp at other)
      fun {w j} member other => List.mem_filter.mpr ⟨member, by
        have apart : j ≠ i := fun equal => other (by rw [equal])
        simpa using apart⟩
    exact taken.say fun _ => id
  | hear head => exact orderly.take head l.registered (fun _ _ member => ⟨member, fun equal => by cases equal⟩) fun member _ => member
  | notify => exact orderly.say fun _ => id
  | granted head asked usable =>
    rename_i v i later
    have first := mem_first head
    exact orderly.hear head rfl fun _ => ⟨i, agreed.granting first, (agreed.brought first).2⟩
  | refused head asked =>
    rename_i v later
    have first := mem_first head
    refine orderly.hear head rfl fun among => ?_
    exact absurd rfl ((orderly.alone (orderly.short first) among).2 _ first)
  | released head ending => exact orderly.skip head _
  | told head => exact orderly.skip head _

end Link
end Oac.Base
