import Oac.Base.Run
import Mathlib.Data.List.Nodup

/-!
# Links

A client that asks a server for tickets to subjects, over two channels that keep the order.
Either end may be unable to say something about a subject (`Capacity`); then it stays
silent. The tickets that are registered at the server are held by the client, or on their
way from one end to the other (`Agreed`). When nothing is on its way, both ends agree as
long as no silence falls (`Answered`); and the client can make sense of every reply as
long as it does not ask twice (`Orderly`).
-/
namespace Oac.Base
set_option linter.unusedSectionVars false
universe u v

namespace Link
variable {V : Type u} {I : Type v}

/-- What a client says. -/
inductive Request (V : Type u) (I : Type v) where
  | ask (v : V)
  | release (i : I)
  | other
  deriving DecidableEq

/-- What a server says. -/
inductive Reply (V : Type u) (I : Type v) where
  | granted (v : V) (i : I)
  | refused (v : V)
  | duplicate (v : V)
  | released (i : I)
  | other
  deriving DecidableEq

/-- What can be said about a subject. Refusals are the longest replies and grants the shortest. -/
structure Capacity (V : Type u) where
  asks : V → Bool
  grants : V → Bool
  duplicates : V → Bool
  refuses : V → Bool
  duplicates_of_refuses : ∀ {v}, refuses v = true → duplicates v = true
  grants_of_duplicates : ∀ {v}, duplicates v = true → grants v = true

/-- What is sent of a message. -/
def said {α : Type*} (can : Bool) (msg : α) : List α := if can then [msg] else []

theorem mem_said {α : Type*} {can : Bool} {msg a : α} : a ∈ said can msg ↔ can = true ∧ a = msg := by
  cases can <;> simp [said]

theorem mem_first {α : Type*} {items later : List α} {first : α} (head : items = first :: later) : first ∈ items := by
  rw [head]
  exact List.mem_cons_self

theorem mem_later {α : Type*} {items later : List α} {first a : α} (head : items = first :: later) (among : a ∈ later) :
    a ∈ items := by
  rw [head]
  exact List.mem_cons_of_mem _ among

end Link

/-- A client and a server, and what is on its way between them. -/
structure Link (V : Type u) (I : Type v) where
  /-- the subjects and tickets of the client -/
  held : List (V × I)
  /-- the subjects that the client waits for -/
  asked : List V
  /-- the tickets that the client has given back without an answer yet -/
  ending : List I
  /-- the subjects and tickets of the server -/
  registered : List (V × I)
  toServer : List (Link.Request V I)
  toClient : List (Link.Reply V I)

namespace Link
variable {V : Type u} {I : Type v} [DecidableEq V] [DecidableEq I]

def empty : Link V I := ⟨[], [], [], [], [], []⟩

inductive Action (V : Type u) where
  | ask (v : V)
  | grant (v : V)
  | refuse (v : V)
  | other

inductive Step (c : Capacity V) : Link V I → Action V → Link V I → Prop
  | ask {l : Link V I} {v : V} (new : v ∉ l.held.map Prod.fst) : Step c l (.ask v) { l with
      asked := l.asked ++ [v]
      toServer := l.toServer ++ said (c.asks v) (.ask v) }
  | release {l : Link V I} {v : V} {i : I} (holds : (v, i) ∈ l.held) : Step c l .other { l with
      held := l.held.filter fun pair => pair.1 ≠ v
      ending := l.ending ++ [i]
      toServer := l.toServer ++ [.release i] }
  | tell {l : Link V I} : Step c l .other { l with toServer := l.toServer ++ [.other] }
  | duplicate {l : Link V I} {v : V} {later : List (Request V I)} (head : l.toServer = .ask v :: later)
      (known : v ∈ l.registered.map Prod.fst) : Step c l .other { l with
      toServer := later
      toClient := l.toClient ++ said (c.duplicates v) (.duplicate v) }
  | grant {l : Link V I} {v : V} {i : I} {later : List (Request V I)} (head : l.toServer = .ask v :: later)
      (new : v ∉ l.registered.map Prod.fst) (unused : i ∉ l.registered.map Prod.snd) : Step c l (.grant v) { l with
      registered := (v, i) :: l.registered
      toServer := later
      toClient := l.toClient ++ said (c.grants v) (.granted v i) }
  | refuse {l : Link V I} {v : V} {later : List (Request V I)} (head : l.toServer = .ask v :: later)
      (new : v ∉ l.registered.map Prod.fst) : Step c l (.refuse v) { l with
      toServer := later
      toClient := l.toClient ++ said (c.refuses v) (.refused v) }
  | unregister {l : Link V I} {i : I} {later : List (Request V I)} (head : l.toServer = .release i :: later)
      (known : i ∈ l.registered.map Prod.snd) : Step c l .other { l with
      registered := l.registered.filter fun pair => pair.2 ≠ i
      toServer := later
      toClient := l.toClient ++ [.released i] }
  | hear {l : Link V I} {later : List (Request V I)} (head : l.toServer = .other :: later) :
      Step c l .other { l with toServer := later }
  | notify {l : Link V I} : Step c l .other { l with toClient := l.toClient ++ [.other] }
  | granted {l : Link V I} {v : V} {i : I} {later : List (Reply V I)} (head : l.toClient = .granted v i :: later)
      (asked : v ∈ l.asked) (usable : v ∈ l.held.map Prod.fst ∨ i ∉ l.held.map Prod.snd) : Step c l .other { l with
      held := if v ∈ l.held.map Prod.fst then l.held else (v, i) :: l.held
      asked := l.asked.filter fun w => w ≠ v
      toClient := later }
  | refused {l : Link V I} {v : V} {later : List (Reply V I)} (head : l.toClient = .refused v :: later)
      (asked : v ∈ l.asked) : Step c l .other { l with
      asked := l.asked.filter fun w => w ≠ v
      toClient := later }
  | released {l : Link V I} {i : I} {later : List (Reply V I)} (head : l.toClient = .released i :: later)
      (ending : i ∈ l.ending) : Step c l .other { l with
      ending := l.ending.filter fun j => j ≠ i
      toClient := later }
  | told {l : Link V I} {later : List (Reply V I)} (head : l.toClient = .other :: later) :
      Step c l .other { l with toClient := later }

/-- The client can make sense of the reply. -/
def Acceptable (l : Link V I) : Reply V I → Prop
  | .granted v i => v ∈ l.asked ∧ (v ∈ l.held.map Prod.fst ∨ i ∉ l.held.map Prod.snd)
  | .refused v => v ∈ l.asked
  | .duplicate _ => False
  | .released i => i ∈ l.ending
  | .other => True

/-- The next reply breaks the link. -/
def Broken (l : Link V I) : Prop := ∃ reply later, l.toClient = reply :: later ∧ ¬ l.Acceptable reply

/-! ## Tickets -/

/-- The reply brings the ticket. -/
def Reply.brings (i : I) : Reply V I → Bool
  | .granted _ j => j = i
  | _ => false

/-- How often a ticket is held, or on its way from one end to the other. -/
def uses (l : Link V I) (i : I) : Nat :=
  (l.held.map Prod.snd).count i + l.toClient.countP (Reply.brings i) + l.toServer.count (.release i)

/-- No ticket is used twice or after it was given back. -/
structure Agreed (c : Capacity V) (l : Link V I) : Prop where
  subjects : (l.registered.map Prod.fst).Nodup
  tickets : (l.registered.map Prod.snd).Nodup
  holding : ∀ p ∈ l.held, p ∈ l.registered
  granting : ∀ {v i}, .granted v i ∈ l.toClient → (v, i) ∈ l.registered
  once : ∀ i, l.uses i ≤ (l.registered.map Prod.snd).count i
  used : ∀ {v i}, (v, i) ∈ l.registered → c.grants v = true → 0 < l.uses i
  ended : ∀ i, l.ending.count i = l.toServer.count (.release i) + l.toClient.count (.released i)
  single : ∀ i, l.ending.count i ≤ 1
  settled : ∀ {i}, i ∈ l.held.map Prod.snd → .released i ∉ l.toClient
  ordered : l.toClient.Pairwise fun a b => ∀ {v i}, a = .granted v i → b ≠ .released i
  waiting : ∀ {v}, v ∈ l.held.map Prod.fst → v ∉ l.asked

theorem empty_agreed (c : Capacity V) : Agreed c (empty : Link V I) where
  subjects := List.nodup_nil
  tickets := List.nodup_nil
  holding := nofun
  granting := nofun
  once _ := Nat.le_refl 0
  used := nofun
  ended _ := rfl
  single _ := Nat.zero_le 1
  settled := nofun
  ordered := List.Pairwise.nil
  waiting := nofun

theorem Agreed.registered_once {c : Capacity V} {l : Link V I} (agreed : Agreed c l) (i : I) :
    (l.registered.map Prod.snd).count i ≤ 1 := List.nodup_iff_count_le_one.mp agreed.tickets i

/-- A ticket that is not registered is used nowhere. -/
theorem Agreed.unused {c : Capacity V} {l : Link V I} (agreed : Agreed c l) {i : I} (none : i ∉ l.registered.map Prod.snd) :
    l.uses i = 0 := by
  have once := agreed.once i
  rw [List.count_eq_zero.mpr none] at once
  omega

theorem uses_held {l : Link V I} {i : I} (none : l.uses i = 0) : i ∉ l.held.map Prod.snd := by
  unfold uses at none
  exact List.count_eq_zero.mp (by omega)

theorem uses_toServer {l : Link V I} {i : I} (none : l.uses i = 0) : .release i ∉ l.toServer := by
  unfold uses at none
  exact List.count_eq_zero.mp (by omega)

theorem uses_toClient {l : Link V I} {i : I} (none : l.uses i = 0) (v : V) : .granted v i ∉ l.toClient := by
  intro member
  have some : 0 < l.toClient.countP (Reply.brings i) := List.countP_pos_iff.mpr ⟨_, member, by simp [Reply.brings]⟩
  unfold uses at none
  omega

/-- A ticket that is brought to the client is neither there nor on its way back. -/
theorem Agreed.brought {c : Capacity V} {l : Link V I} (agreed : Agreed c l) {v : V} {i : I}
    (among : .granted v i ∈ l.toClient) : i ∉ l.held.map Prod.snd ∧ .release i ∉ l.toServer := by
  have once := agreed.once i
  have registered := agreed.registered_once i
  have brings : 0 < l.toClient.countP (Reply.brings i) := List.countP_pos_iff.mpr ⟨_, among, by simp [Reply.brings]⟩
  unfold uses at once
  constructor
  · exact List.count_eq_zero.mp (by omega)
  · exact List.count_eq_zero.mp (by omega)

/-- A ticket that the client holds is not on its way back. -/
theorem Agreed.kept {c : Capacity V} {l : Link V I} (agreed : Agreed c l) {i : I} (holds : i ∈ l.held.map Prod.snd) :
    .release i ∉ l.toServer := by
  have once := agreed.once i
  have registered := agreed.registered_once i
  have some : 0 < (l.held.map Prod.snd).count i := List.count_pos_iff.mpr holds
  unfold uses at once
  exact List.count_eq_zero.mp (by omega)

/-- Only registered tickets come back. -/
theorem Agreed.releasing {c : Capacity V} {l : Link V I} (agreed : Agreed c l) {i : I} (among : .release i ∈ l.toServer) :
    i ∈ l.registered.map Prod.snd := by
  by_contra none
  exact uses_toServer (agreed.unused none) among

/-- The reply is about a ticket. -/
def Reply.tied : Reply V I → Bool
  | .granted _ _ => true
  | .released _ => true
  | _ => false

theorem tied_brings (toClient : List (Reply V I)) (i : I) :
    (toClient.filter Reply.tied).countP (Reply.brings i) = toClient.countP (Reply.brings i) := by
  rw [List.countP_filter]
  refine List.countP_congr fun reply _ => ?_
  cases reply <;> simp [Reply.brings, Reply.tied]

theorem tied_ordered {toClient : List (Reply V I)} :
    ((toClient.filter Reply.tied).Pairwise fun a b => ∀ {v i}, a = .granted v i → b ≠ .released i) ↔
      toClient.Pairwise fun a b => ∀ {v i}, a = .granted v i → b ≠ .released i := by
  rw [List.pairwise_filter]
  constructor
  · refine fun ordered => ordered.imp fun apart v i first second => ?_
    subst first second
    exact apart rfl rfl rfl rfl
  · exact fun ordered => ordered.imp fun apart _ _ => apart

/-- What is not about tickets changes nothing about them. -/
theorem Agreed.frame {c : Capacity V} {l : Link V I} (agreed : Agreed c l) {asked : List V}
    {toServer : List (Request V I)} {toClient : List (Reply V I)}
    (releases : ∀ i, toServer.count (.release i) = l.toServer.count (.release i))
    (replies : toClient.filter Reply.tied = l.toClient.filter Reply.tied)
    (waiting : ∀ {v}, v ∈ l.held.map Prod.fst → v ∉ asked) :
    Agreed c { l with asked := asked, toServer := toServer, toClient := toClient } := by
  have uses : ∀ i, ({ l with asked := asked, toServer := toServer, toClient := toClient } : Link V I).uses i = l.uses i := by
    intro i
    unfold Link.uses
    rw [← tied_brings toClient, replies, tied_brings, releases]
  have member : ∀ {reply : Reply V I}, reply.tied = true → reply ∈ toClient → reply ∈ l.toClient := by
    intro reply tied among
    have kept := List.mem_filter.mpr ⟨among, tied⟩
    rw [replies] at kept
    exact (List.mem_filter.mp kept).1
  exact { agreed with
    granting := fun among => agreed.granting (member rfl among)
    once := fun i => by
      rw [uses]
      exact agreed.once i
    used := fun among can => by
      rw [uses]
      exact agreed.used among can
    ended := fun i => by
      have ended := agreed.ended i
      rw [← List.count_filter (p := Reply.tied) rfl, ← replies, List.count_filter rfl, ← releases] at ended
      exact ended
    settled := fun holds among => agreed.settled holds (member rfl among)
    ordered := by
      rw [← tied_ordered, replies, tied_ordered]
      exact agreed.ordered
    waiting := waiting }

/-! ## Steps about tickets -/

theorem count_concat {α : Type*} [DecidableEq α] (items : List α) (a b : α) :
    (items ++ [a]).count b = items.count b + if a = b then 1 else 0 := by
  rw [List.count_append, List.count_singleton]
  simp

theorem count_without (tickets : List I) (i j : I) :
    (tickets.filter fun k => k ≠ i).count j = if j = i then 0 else tickets.count j := by
  split
  · rename_i same
    rw [same]
    exact List.count_eq_zero.mpr (by simp)
  · rename_i other
    exact List.count_filter (by simpa using other)

theorem tickets_without (pairs : List (V × I)) (i : I) :
    (pairs.filter fun pair => pair.2 ≠ i).map Prod.snd = (pairs.map Prod.snd).filter fun k => k ≠ i := by
  rw [List.filter_map]
  rfl

/-- The client knows a ticket by its subject. -/
theorem Agreed.held_without {c : Capacity V} {l : Link V I} (agreed : Agreed c l) {v : V} {i : I}
    (holds : (v, i) ∈ l.held) : (l.held.filter fun pair => pair.1 ≠ v) = l.held.filter fun pair => pair.2 ≠ i := by
  refine List.filter_congr fun pair member => ?_
  have registered := agreed.holding pair member
  have registered' := agreed.holding _ holds
  by_cases same : pair.1 = v
  · have equal := List.inj_on_of_nodup_map agreed.subjects registered registered' same
    simp [equal]
  · have other : pair.2 ≠ i := fun equal =>
      same (congrArg Prod.fst (List.inj_on_of_nodup_map agreed.tickets registered registered' equal))
    simp [same, other]

theorem Agreed.release {c : Capacity V} {l : Link V I} (agreed : Agreed c l) {v : V} {i : I} (holds : (v, i) ∈ l.held) :
    Agreed c { l with
      held := l.held.filter fun pair => pair.1 ≠ v
      ending := l.ending ++ [i]
      toServer := l.toServer ++ [.release i] } := by
  have member : i ∈ l.held.map Prod.snd := List.mem_map_of_mem (f := Prod.snd) holds
  have once := agreed.once i
  have registered := agreed.registered_once i
  have some : 0 < (l.held.map Prod.snd).count i := List.count_pos_iff.mpr member
  unfold uses at once
  have gone : ∀ j, ((l.held.filter fun pair => pair.1 ≠ v).map Prod.snd).count j =
      if j = i then 0 else (l.held.map Prod.snd).count j := by
    intro j
    rw [agreed.held_without holds, tickets_without, count_without]
  have sent : ∀ j, (l.toServer ++ [Request.release i]).count (Request.release j) =
      l.toServer.count (Request.release j) + if i = j then 1 else 0 := by
    intro j
    rw [count_concat]
    simp
  have less : ∀ {w}, w ∈ (l.held.filter fun pair => pair.1 ≠ v).map Prod.fst → w ∈ l.held.map Prod.fst := by
    intro w among
    exact (List.filter_sublist.map Prod.fst).subset among
  have waits : ∀ j, ({ l with
      held := l.held.filter fun pair => pair.1 ≠ v
      ending := l.ending ++ [i]
      toServer := l.toServer ++ [.release i] } : Link V I).uses j = l.uses j := by
    intro j
    unfold uses
    rw [gone, sent]
    dsimp only
    by_cases same : j = i
    · subst same
      rw [if_pos rfl, if_pos rfl]
      omega
    · rw [if_neg same, if_neg (Ne.symm same)]
      omega
  exact { agreed with
    holding := fun pair among => agreed.holding pair (List.mem_of_mem_filter among)
    once := fun j => by
      rw [waits]
      exact agreed.once j
    used := fun among can => by
      rw [waits]
      exact agreed.used among can
    ended := fun j => by
      have ended := agreed.ended j
      show (l.ending ++ [i]).count j = (l.toServer ++ [Request.release i]).count (Request.release j) + l.toClient.count (.released j)
      rw [count_concat, sent]
      omega
    single := fun j => by
      have single := agreed.single j
      rw [count_concat]
      by_cases same : i = j
      · subst same
        have none := List.count_eq_zero.mpr (agreed.settled member)
        have ended := agreed.ended i
        rw [if_pos rfl]
        omega
      · rw [if_neg same]
        exact single
    settled := fun among => agreed.settled ((List.filter_sublist.map Prod.snd).subset among)
    waiting := fun among => agreed.waiting (less among) }

theorem Agreed.grant {c : Capacity V} {l : Link V I} (agreed : Agreed c l) {v : V} {i : I} {later : List (Request V I)}
    (head : l.toServer = .ask v :: later) (new : v ∉ l.registered.map Prod.fst) (unused : i ∉ l.registered.map Prod.snd) :
    Agreed c { l with
      registered := (v, i) :: l.registered
      toServer := later
      toClient := l.toClient ++ said (c.grants v) (.granted v i) } := by
  have none := agreed.unused unused
  have releases : ∀ j, later.count (Request.release j) = l.toServer.count (.release j) := by
    intro j
    rw [head]
    simp
  have brings : ∀ j, (l.toClient ++ said (c.grants v) (Reply.granted v i)).countP (Reply.brings j) =
      l.toClient.countP (Reply.brings j) + if i = j ∧ c.grants v = true then 1 else 0 := by
    intro j
    rw [List.countP_append]
    cases can : c.grants v <;> simp [said, Reply.brings, List.countP_singleton]
  have counts : ∀ j, (((v, i) :: l.registered).map Prod.snd).count j =
      (l.registered.map Prod.snd).count j + if i = j then 1 else 0 := by
    intro j
    rw [List.map_cons, List.count_cons]
    simp
  have uses : ∀ j, ({ l with
      registered := (v, i) :: l.registered
      toServer := later
      toClient := l.toClient ++ said (c.grants v) (.granted v i) } : Link V I).uses j =
        l.uses j + if i = j ∧ c.grants v = true then 1 else 0 := by
    intro j
    unfold Link.uses
    rw [brings, releases]
    dsimp only
    omega
  have releasedSame : ∀ j, (l.toClient ++ said (c.grants v) (Reply.granted v i)).count (.released j) =
      l.toClient.count (.released j) := by
    intro j
    cases can : c.grants v <;> simp [said]
  exact { agreed with
    subjects := List.nodup_cons.mpr ⟨new, agreed.subjects⟩
    tickets := List.nodup_cons.mpr ⟨unused, agreed.tickets⟩
    holding := fun pair among => List.mem_cons_of_mem _ (agreed.holding pair among)
    granting := fun among => by
      rcases List.mem_append.mp among with before | last
      · exact List.mem_cons_of_mem _ (agreed.granting before)
      · cases (mem_said.mp last).2
        exact List.mem_cons_self
    once := fun j => by
      have once := agreed.once j
      rw [uses, counts]
      by_cases same : i = j
      · rw [if_pos same]
        split <;> omega
      · rw [if_neg same, if_neg fun both => same both.1]
        exact once
    used := fun {w j} among can => by
      rw [uses]
      rcases List.mem_cons.mp among with new | before
      · cases new
        simp [can]
      · have used := agreed.used before can
        omega
    ended := fun j => by
      rw [releases, releasedSame]
      exact agreed.ended j
    settled := fun {j} holds among => by
      rcases List.mem_append.mp among with before | last
      · exact agreed.settled holds before
      · cases (mem_said.mp last).2
    ordered := by
      refine List.pairwise_append.mpr ⟨agreed.ordered, ?_, fun a _ b among w j _ => ?_⟩
      · cases can : c.grants v <;> simp [said]
      · rw [(mem_said.mp among).2]
        nofun }

theorem Agreed.unregister {c : Capacity V} {l : Link V I} (agreed : Agreed c l) {i : I} {later : List (Request V I)}
    (head : l.toServer = .release i :: later) : Agreed c { l with
      registered := l.registered.filter fun pair => pair.2 ≠ i
      toServer := later
      toClient := l.toClient ++ [.released i] } := by
  have releases : ∀ j, l.toServer.count (.release j) = later.count (Request.release j) + if i = j then 1 else 0 := by
    intro j
    rw [head, List.count_cons]
    simp
  have counts : ∀ j, ((l.registered.filter fun pair => pair.2 ≠ i).map Prod.snd).count j =
      if j = i then 0 else (l.registered.map Prod.snd).count j := by
    intro j
    rw [tickets_without, count_without]
  have uses : ∀ j, l.uses j = ({ l with
      registered := l.registered.filter fun pair => pair.2 ≠ i
      toServer := later
      toClient := l.toClient ++ [.released i] } : Link V I).uses j + if i = j then 1 else 0 := by
    intro j
    unfold Link.uses
    rw [releases, List.countP_append]
    simp only [List.countP_singleton, Reply.brings, Bool.false_eq_true, ↓reduceIte]
    omega
  -- the ticket was on its way to the server, and so it is nowhere else
  have none : ({ l with
      registered := l.registered.filter fun pair => pair.2 ≠ i
      toServer := later
      toClient := l.toClient ++ [.released i] } : Link V I).uses i = 0 := by
    have once := agreed.once i
    have registered := agreed.registered_once i
    rw [uses, if_pos rfl] at once
    omega
  have notGranted : ∀ v, .granted v i ∉ l.toClient := fun v among => uses_toClient none v (List.mem_append_left _ among)
  have keeps : ∀ {pair : V × I}, pair ∈ l.registered → pair.2 ≠ i → pair ∈ l.registered.filter fun pair => pair.2 ≠ i :=
    fun among other => List.mem_filter.mpr ⟨among, by simpa using other⟩
  exact { agreed with
    subjects := agreed.subjects.sublist (List.filter_sublist.map Prod.fst)
    tickets := agreed.tickets.sublist (List.filter_sublist.map Prod.snd)
    holding := fun pair among => keeps (agreed.holding pair among) fun same =>
      uses_held none (same ▸ List.mem_map_of_mem (f := Prod.snd) among)
    granting := fun {v j} among => by
      rcases List.mem_append.mp among with before | last
      · exact keeps (agreed.granting before) fun same => notGranted v (by
          rw [← show j = i from same]
          exact before)
      · cases List.mem_singleton.mp last
    once := fun j => by
      have once := agreed.once j
      rw [uses] at once
      rw [counts]
      by_cases same : j = i
      · rw [if_pos same, same]
        exact Nat.le_of_eq none
      · rw [if_neg (Ne.symm same)] at once
        rw [if_neg same]
        exact once
    used := fun {v j} among can => by
      obtain ⟨before, other⟩ := List.mem_filter.mp among
      have used := agreed.used before can
      have apart : ¬ i = j := fun same => by simp [same] at other
      rw [uses, if_neg apart] at used
      exact used
    ended := fun j => by
      have replied : (l.toClient ++ [Reply.released i]).count (Reply.released j) =
          l.toClient.count (.released j) + if i = j then 1 else 0 := by
        rw [count_concat]
        simp
      have ended := agreed.ended j
      rw [releases] at ended
      show l.ending.count j = later.count (Request.release j) + (l.toClient ++ [Reply.released i]).count (Reply.released j)
      rw [replied]
      omega
    settled := fun {j} holds among => by
      rcases List.mem_append.mp among with before | last
      · exact agreed.settled holds before
      · cases List.mem_singleton.mp last
        exact uses_held none holds
    ordered := by
      refine List.pairwise_append.mpr ⟨agreed.ordered, List.pairwise_singleton .., fun a granted b last v j same => ?_⟩
      rw [List.mem_singleton.mp last]
      rintro equal
      cases equal
      exact notGranted v (same ▸ granted) }

theorem Agreed.granted {c : Capacity V} {l : Link V I} (agreed : Agreed c l) {v : V} {i : I} {later : List (Reply V I)}
    (head : l.toClient = .granted v i :: later) (asked : v ∈ l.asked) : Agreed c { l with
      held := if v ∈ l.held.map Prod.fst then l.held else (v, i) :: l.held
      asked := l.asked.filter fun w => w ≠ v
      toClient := later } := by
  have new : v ∉ l.held.map Prod.fst := fun holds => agreed.waiting holds asked
  have registered : (v, i) ∈ l.registered := agreed.granting (mem_first head)
  have uses : ∀ j, ({ l with
      held := (v, i) :: l.held
      asked := l.asked.filter fun w => w ≠ v
      toClient := later } : Link V I).uses j = l.uses j := by
    intro j
    unfold Link.uses
    rw [head, List.map_cons, List.count_cons, List.countP_cons]
    simp only [Reply.brings, beq_iff_eq, decide_eq_true_eq]
    omega
  have ordered := agreed.ordered
  rw [head, List.pairwise_cons] at ordered
  rw [if_neg new]
  exact { agreed with
    holding := fun pair among => by
      rcases List.mem_cons.mp among with rfl | before
      · exact registered
      · exact agreed.holding pair before
    granting := fun among => agreed.granting (mem_later head among)
    once := fun j => by
      rw [uses]
      exact agreed.once j
    used := fun among can => by
      rw [uses]
      exact agreed.used among can
    ended := fun j => by
      have ended := agreed.ended j
      rw [head] at ended
      simpa using ended
    settled := fun {j} holds among => by
      rw [List.map_cons] at holds
      rcases List.mem_cons.mp holds with rfl | before
      · exact ordered.1 _ among rfl rfl
      · exact agreed.settled before (mem_later head among)
    ordered := ordered.2
    waiting := fun {w} holds asked => by
      obtain ⟨before, other⟩ := List.mem_filter.mp asked
      rw [List.map_cons] at holds
      rcases List.mem_cons.mp holds with rfl | held
      · simp at other
      · exact agreed.waiting held before }

theorem Agreed.released {c : Capacity V} {l : Link V I} (agreed : Agreed c l) {i : I} {later : List (Reply V I)}
    (head : l.toClient = .released i :: later) : Agreed c { l with
      ending := l.ending.filter fun j => j ≠ i
      toClient := later } := by
  have uses : ∀ j, ({ l with
      ending := l.ending.filter fun j => j ≠ i
      toClient := later } : Link V I).uses j = l.uses j := by
    intro j
    unfold Link.uses
    rw [head, List.countP_cons]
    rfl
  have replied : ∀ j, l.toClient.count (Reply.released j) = later.count (.released j) + if i = j then 1 else 0 := by
    intro j
    rw [head, List.count_cons]
    simp
  have ordered := agreed.ordered
  rw [head, List.pairwise_cons] at ordered
  exact { agreed with
    granting := fun among => agreed.granting (mem_later head among)
    once := fun j => by
      rw [uses]
      exact agreed.once j
    used := fun among can => by
      rw [uses]
      exact agreed.used among can
    ended := fun j => by
      have ended := agreed.ended j
      have single := agreed.single j
      rw [replied] at ended
      rw [count_without]
      dsimp only
      by_cases same : j = i
      · subst same
        rw [if_pos rfl] at ended ⊢
        omega
      · rw [if_neg (Ne.symm same)] at ended
        rw [if_neg same]
        exact ended
    single := fun j => by
      have single := agreed.single j
      rw [count_without]
      split <;> omega
    settled := fun holds among => agreed.settled holds (mem_later head among)
    ordered := ordered.2 }

theorem Agreed.step {c : Capacity V} {l l' : Link V I} {a : Action V} (agreed : Agreed c l) (step : Step c l a l') :
    Agreed c l' := by
  have fewer : ∀ {v w}, w ∈ l.held.map Prod.fst → w ∉ l.asked.filter fun w => w ≠ v :=
    fun holds asked => agreed.waiting holds (List.mem_of_mem_filter asked)
  cases step with
  | ask new =>
    rename_i v
    refine agreed.frame (fun i => ?_) rfl fun {w} holds asked => ?_
    · cases can : c.asks v <;> simp [said]
    · rcases List.mem_append.mp asked with before | last
      · exact agreed.waiting holds before
      · rw [List.mem_singleton.mp last] at holds
        exact new holds
  | tell => exact agreed.frame (fun i => by simp) rfl agreed.waiting
  | duplicate head known =>
    rename_i v later
    refine agreed.frame (fun i => ?_) ?_ agreed.waiting
    · rw [head]
      simp
    · cases can : c.duplicates v <;> simp [said, Reply.tied]
  | refuse head new =>
    rename_i v later
    refine agreed.frame (fun i => ?_) ?_ agreed.waiting
    · rw [head]
      simp
    · cases can : c.refuses v <;> simp [said, Reply.tied]
  | hear head => exact agreed.frame (fun i => by rw [head]; simp) rfl agreed.waiting
  | notify => exact agreed.frame (fun _ => rfl) (by simp [Reply.tied]) agreed.waiting
  | refused head asked => exact agreed.frame (fun _ => rfl) (by rw [head]; simp [Reply.tied]) fewer
  | told head => exact agreed.frame (fun _ => rfl) (by rw [head]; simp [Reply.tied]) agreed.waiting
  | release holds => exact agreed.release holds
  | grant head new unused => exact agreed.grant head new unused
  | unregister head known => exact agreed.unregister head
  | granted head asked usable => exact agreed.granted head asked
  | released head ending => exact agreed.released head

end Link
end Oac.Base
