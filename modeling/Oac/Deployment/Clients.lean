import Oac.Deployment.Stack
import Oac.Feed
import Oac.Server.Service

/-!
# What the clients of the module have been told

The server of the module over its stack, with ticks between the completions of the IO
service. At a tick the FSUIPC variables call the handlers of the sessions, which post the
updates; each is written when it has come to the front. What is posted and what is written
are together as recent as the last tick (`clients_up_to_date`), and the offsets that are
polled are those of the variables that sessions are subscribed to
(`polled_for_clients`).

The code runs ticks and the IO service on two threads without a lock. It is assumed here
that they do not overlap: a tick finds each handler done or not begun, and a session that
nothing refers to any more already destroyed.
-/
namespace Oac.Deployment
open Base Fsuipc Proto Server
open FsuipcFlightVars (Book UpToDate deliveries invocation)

/-- The server of the module, while no thread is in a handler or a tick. `due` only records
    what the memory held at the last tick for the variables that sessions had subscribed to
    by then. -/
structure FlightVarsModule (α : Type) where
  server : FlightVarsServer (Stack α)
  due : Nat × VariableId → Option VariableValue

/-- What happens to the module. -/
inductive Event (α : Type) where
  | served (e : ServerEvent (Stack α))
  | ticked
  | outside (userAdapter : α) (nextId : SubscriptionId)

/-- The session is there and has a subscription for the variable. -/
def Covers {δ : Type} (sv : FlightVarsServer δ) (key : Nat × VariableId) : Prop :=
  ∃ s ∈ sv.sessions key.1, s.subscriptions.Covers key.2
instance {δ : Type} (sv : FlightVarsServer δ) (key : Nat × VariableId) : Decidable (Covers sv key) :=
  inferInstanceAs (Decidable (∃ s ∈ sv.sessions key.1, s.subscriptions.Covers key.2))

/-- `handle_var_update`, of the sessions that are still there. -/
def handleVarUpdate {δ : Type} (sv : FlightVarsServer δ) (calls : List (Nat × VariableId × VariableValue)) :
    List (Nat × VariableId × VariableValue) := calls.filter fun call => (sv.sessions call.1).isSome

/-- Updates under their sessions and variables. -/
def keyed (calls : List (Nat × VariableId × VariableValue)) : List ((Nat × VariableId) × VariableValue) :=
  calls.map fun call => ((call.1, call.2.1), call.2.2)

namespace FlightVarsModule
variable {α : Type}

def start (userAdapter : α) : FlightVarsModule α := ⟨.start (Stack.start userAdapter), fun _ => none⟩

/-- The handlers that the FSUIPC variables get in a read are those of the session that reads. -/
def attending : ServerEvent (Stack α) → Stack α → Stack α
  | .read k _, c => c.attend k
  | _, c => c

/-- Nobody but the sessions calls the core, and the handlers are called by ticks. -/
def OfSessions : ServerEvent (Stack α) → Prop
  | .notified _ _ _ => False
  | .others _ => False
  | _ => True

/-- What the memory holds for a variable. -/
def held (memory : α → Offset → UInt32) (c : Stack α) (varId : VariableId) : Option VariableValue :=
  match toFsuipcOffset varId with
  | .ok offset => some (toVariableValue (offset.valued (c.reading memory)))
  | .error _ => none

/-- Nothing is due to a new subscription. -/
def stillDue (d : FlightVarsModule α) (key : Nat × VariableId) : Option VariableValue :=
  if Covers d.server key then d.due key else none

/-- What is due after a tick. -/
def newlyDue (memory : α → Offset → UInt32) (d : FlightVarsModule α) (key : Nat × VariableId) : Option VariableValue :=
  if Covers d.server key then held memory d.server.delegate key.2 else none

def known (c : Stack α) : Set SubscriptionId := { id | c.subscriptions id = some () }

section
variable [UserAdapter α]

/-- The server after a tick. -/
def ticked (sv : FlightVarsServer (Stack α)) : FlightVarsServer (Stack α) :=
  { sv with
    delegate := after (Stack.tick sv.delegate)
    posted := sv.posted ++ handleVarUpdate sv
      ((after (Stack.tick sv.delegate)).vars.invoked.drop sv.delegate.vars.invoked.length) }

/-- A completion of the IO service, a tick, or a change from the outside. None overlaps with
    another one. -/
inductive Step (memory : α → Offset → UInt32) : FlightVarsModule α → Event α → FlightVarsModule α → Prop
  | served {d : FlightVarsModule α} {e : ServerEvent (Stack α)} {sv : FlightVarsServer (Stack α)} (own : OfSessions e)
      (step : FlightVarsServer.Step known { d.server with delegate := attending e d.server.delegate } e sv) :
      Step memory d (.served e) ⟨sv, d.stillDue⟩
  | ticked {d : FlightVarsModule α} : Step memory d .ticked ⟨ticked d.server, d.newlyDue memory⟩
  | outside {d : FlightVarsModule α} {userAdapter : α} {nextId : SubscriptionId} :
      Step memory d (.outside userAdapter nextId)
        { d with server := { d.server with delegate := d.server.delegate.outside userAdapter nextId } }

end

/-- The next subscription gets an id that no session has, and a session ends no
    subscription of another one. -/
def Admits (sv : FlightVarsServer (Stack α)) (k : Nat) : Message → Prop
  | .subscriptionReq _ => ∀ j, ¬ sv.Owner j sv.delegate.vars.db.nextId
  | .unsubscriptionReq req => ∀ j, sv.Owner j req.subsId → j = k
  | _ => True

/-- Sessions read what they may, and from the outside only the memory changes. -/
def Proper (requests : α → List (Offset × Pointer)) (d : FlightVarsModule α) : Event α → Prop
  | .served (.read k bytesTransferred) => ∀ s msg, d.server.sessions k = some s → Reads s bytesTransferred msg →
      Admits d.server k msg
  | .outside userAdapter _ => requests userAdapter = requests d.server.delegate.vars.updateObserver.client.userAdapter
  | _ => True

/-- No update is read, and the memory does not change from the outside. -/
def Undisturbed (d : FlightVarsModule α) : Event α → Prop
  | .served (.read k bytesTransferred) => ∀ s msg, d.server.sessions k = some s → Reads s bytesTransferred msg →
      ∀ req, msg ≠ .varUpdate req
  | .outside _ _ => False
  | _ => True

/-! ## What is kept -/

/-- The last value that a session has on its way to its client, or has written. -/
def lastFor (sv : FlightVarsServer (Stack α)) (k : Nat) (s : Session) (varId : VariableId) (subsId : SubscriptionId) :
    Option VariableValue := (latest (k, varId) (keyed sv.posted)).or (latest subsId (Duplex.updates s.written))

/-- The live subscriptions are those of the sessions, with their handlers, and what a
    subscription has been told last is posted or written. -/
structure Wired (requests : α → List (Offset × Pointer)) (d : FlightVarsModule α) (book : Book) : Prop where
  serves : Stack.Serves requests d.server.delegate book
  mapped : ∀ {k v i}, ⟨v, k, i⟩ ∈ book.live ↔ ∃ s, d.server.sessions k = some s ∧ s.subscriptions.Maps v i
  carried : ∀ {k s v i x}, d.server.sessions k = some s → s.subscriptions.Maps v i → (book.told i).getLast? = some x →
    lastFor d.server k s v i = some x
  due : ∀ {k v i x}, ⟨v, k, i⟩ ∈ book.live → d.due (k, v) = some x → (book.told i).getLast? = some x

variable {requests : α → List (Offset × Pointer)} {memory : α → Offset → UInt32} {d : FlightVarsModule α}
  {sv' : FlightVarsServer (Stack α)} {book book' : Book} {k : Nat} {s s' : Session} {v : VariableId}
  {i : SubscriptionId}

theorem covers_iff {sv : FlightVarsServer (Stack α)} :
    Covers sv (k, v) ↔ ∃ s, sv.sessions k = some s ∧ ∃ i, s.subscriptions.Maps v i := by
  unfold Covers
  simp only [Option.mem_def, SubscriptionMapper.covers_iff]

theorem stillDue_some {key : Nat × VariableId} {x : VariableValue} (due : d.stillDue key = some x) :
    Covers d.server key ∧ d.due key = some x := by
  unfold stillDue at due
  split at due
  · exact ⟨‹_›, due⟩
  · cases due

theorem newlyDue_some {key : Nat × VariableId} {x : VariableValue} (due : d.newlyDue memory key = some x) :
    held memory d.server.delegate key.2 = some x := by
  unfold newlyDue at due
  split at due
  · exact due
  · cases due

theorem held_ok {c : Stack α} {offset : Offset} (converted : toFsuipcOffset v = .ok offset) :
    held memory c v = some (toVariableValue (offset.valued (c.reading memory))) := by
  unfold held
  rw [converted]

theorem updates_plain {msgs : List Message} (plain : ∀ msg ∈ msgs, Plain msg) : Duplex.updates msgs = [] := by
  refine List.filterMap_eq_nil_iff.mpr fun msg among => ?_
  have here := plain msg among
  cases msg with
  | varUpdate msg => exact here.elim
  | _ => rfl

theorem start_wired {userAdapter : α} (idle : requests userAdapter = []) :
    Wired requests (start userAdapter) Book.empty where
  serves := Stack.start_serves idle
  mapped := by
    intro k v i
    refine iff_of_false List.not_mem_nil ?_
    rintro ⟨s, none, -⟩
    cases none
  carried := nofun
  due := nofun

theorem Wired.live_of_maps (wired : Wired requests d book) (present : d.server.sessions k = some s)
    (maps : s.subscriptions.Maps v i) : ⟨v, k, i⟩ ∈ book.live := wired.mapped.mpr ⟨s, present, maps⟩

theorem Wired.maps_of_live (wired : Wired requests d book) (present : d.server.sessions k = some s)
    (live : ⟨v, k, i⟩ ∈ book.live) : s.subscriptions.Maps v i := by
  obtain ⟨s', present', maps⟩ := wired.mapped.mp live
  cases present.symm.trans present'
  exact maps

/-- The ids of the live subscriptions are those that sessions own. -/
theorem Wired.owned (wired : Wired requests d book) :
    i ∈ book.live.map SubscriptionMeta.subsId ↔ ∃ k, d.server.Owner k i := by
  constructor
  · intro among
    obtain ⟨⟨v, k, i⟩, live, rfl⟩ := List.mem_map.mp among
    obtain ⟨s, present, maps⟩ := wired.mapped.mp live
    exact ⟨k, s, present, SubscriptionMapper.owns_iff.mpr ⟨v, maps⟩⟩
  · rintro ⟨k, s, present, owns⟩
    obtain ⟨v, maps⟩ := SubscriptionMapper.owns_iff.mp owns
    exact List.mem_map_of_mem (f := SubscriptionMeta.subsId) (wired.live_of_maps present maps)

/-- No two sessions own the same subscription. -/
theorem Wired.one_owner (wired : Wired requests d book) {j : Nat} (first : d.server.Owner j i) (second : d.server.Owner k i) :
    j = k := by
  obtain ⟨s, present, owns⟩ := first
  obtain ⟨t, present', owns'⟩ := second
  obtain ⟨v, maps⟩ := SubscriptionMapper.owns_iff.mp owns
  obtain ⟨w, maps'⟩ := SubscriptionMapper.owns_iff.mp owns'
  exact congrArg SubscriptionMeta.handler
    (wired.serves.informed.ids_unique (wired.live_of_maps present maps) (wired.live_of_maps present' maps') rfl)

theorem lastFor_same {sv : FlightVarsServer (Stack α)} (posted : sv'.posted = sv.posted)
    (same : Duplex.updates s'.written = Duplex.updates s.written) : lastFor sv' k s' v i = lastFor sv k s v i := by
  unfold lastFor
  rw [posted, same]

/-- One session changes, and what the others have and are told stays. -/
theorem Wired.renewed (wired : Wired requests d book)
    (sessions : sv'.sessions = Function.update d.server.sessions k (some s')) (serves : Stack.Serves requests sv'.delegate book')
    (mapped : ∀ {v i}, ⟨v, k, i⟩ ∈ book'.live ↔ s'.subscriptions.Maps v i)
    (others : ∀ {j v i}, j ≠ k → (⟨v, j, i⟩ ∈ book'.live ↔ ⟨v, j, i⟩ ∈ book.live))
    (carried : ∀ {v i x}, s'.subscriptions.Maps v i → (book'.told i).getLast? = some x → lastFor sv' k s' v i = some x)
    (elsewhere : ∀ {j t v i x}, j ≠ k → d.server.sessions j = some t → t.subscriptions.Maps v i →
      (book'.told i).getLast? = some x → lastFor sv' j t v i = some x)
    (due : ∀ {j v i x}, ⟨v, j, i⟩ ∈ book'.live → d.stillDue (j, v) = some x → (book'.told i).getLast? = some x) :
    Wired requests ⟨sv', d.stillDue⟩ book' := by
  refine ⟨serves, ?_, ?_, due⟩
  · intro j v i
    show _ ↔ ∃ t, sv'.sessions j = some t ∧ _
    rw [sessions]
    by_cases self : j = k
    · subst self
      simp [mapped]
    · rw [others self, Function.update_of_ne self]
      exact wired.mapped
  · intro j t v i x present maps told
    simp only [sessions] at present
    by_cases self : j = k
    · subst self
      simp only [Function.update_self, Option.some.injEq] at present
      subst present
      exact carried maps told
    · rw [Function.update_of_ne self] at present
      exact elsewhere self present maps told

/-- A session that keeps its subscriptions and writes no update. -/
theorem Wired.quiet (wired : Wired requests d book) (present : d.server.sessions k = some s) (quiet : Quiet s s')
    (sessions : sv'.sessions = Function.update d.server.sessions k (some s')) (posted : sv'.posted = d.server.posted)
    (serves : Stack.Serves requests sv'.delegate book) : Wired requests ⟨sv', d.stillDue⟩ book := by
  obtain ⟨mapper, msgs, written, plain⟩ := quiet
  have same : Duplex.updates s'.written = Duplex.updates s.written := by
    rw [written, Duplex.updates_append, updates_plain plain, List.append_nil]
  refine wired.renewed sessions serves ?_ (fun _ => Iff.rfl) ?_ ?_ fun live due => wired.due live (stillDue_some due).2
  · intro v i
    rw [mapper]
    exact ⟨wired.maps_of_live present, wired.live_of_maps present⟩
  · intro v i x maps told
    rw [mapper] at maps
    exact (lastFor_same posted same).trans (wired.carried present maps told)
  · intro j t v i x _ present' maps told
    exact (lastFor_same posted rfl).trans (wired.carried present' maps told)

/-- A session gets a subscription for a variable that it had none for. -/
theorem Wired.granted (wired : Wired requests d book) (present : d.server.sessions k = some s)
    (fresh : ∀ j, ¬ d.server.Owner j i) (newVariable : ¬ s.subscriptions.Covers v)
    (maps : ∀ w j, s'.subscriptions.Maps w j ↔ (w = v ∧ j = i) ∨ s.subscriptions.Maps w j) {msgs : List Message}
    (written : s'.written = s.written ++ msgs) (plain : ∀ msg ∈ msgs, Plain msg)
    (sessions : sv'.sessions = Function.update d.server.sessions k (some s')) (posted : sv'.posted = d.server.posted)
    (serves : Stack.Serves requests sv'.delegate ⟨⟨v, k, i⟩ :: book.live, Function.update book.told i []⟩) :
    Wired requests ⟨sv', d.stillDue⟩ ⟨⟨v, k, i⟩ :: book.live, Function.update book.told i []⟩ := by
  have same : Duplex.updates s'.written = Duplex.updates s.written := by
    rw [written, Duplex.updates_append, updates_plain plain, List.append_nil]
  have unowned : ∀ {j t w}, d.server.sessions j = some t → ¬ t.subscriptions.Maps w i := fun present' maps' =>
    fresh _ ⟨_, present', SubscriptionMapper.owns_iff.mpr ⟨_, maps'⟩⟩
  -- the new subscription has not been told anything, and the others have what they had
  have old : ∀ {i' x}, (Function.update book.told i [] i').getLast? = some x → i' ≠ i ∧ (book.told i').getLast? = some x := by
    intro i' x told
    by_cases new : i' = i
    · subst new
      simp at told
    · rw [Function.update_of_ne new] at told
      exact ⟨new, told⟩
  refine wired.renewed sessions serves ?_ ?_ ?_ ?_ ?_
  · intro w i'
    rw [List.mem_cons, maps, wired.mapped]
    simp [present]
  · intro j w i' self
    rw [List.mem_cons]
    exact or_iff_right fun same => self (congrArg SubscriptionMeta.handler same)
  · intro w i' x maps' told
    obtain ⟨other, told⟩ := old told
    have before := ((maps w i').mp maps').resolve_left fun same => other same.2
    exact (lastFor_same posted same).trans (wired.carried present before told)
  · intro j t w i' x _ present' maps' told
    exact (lastFor_same posted rfl).trans (wired.carried present' maps' (old told).2)
  · intro j w i' x live due
    obtain ⟨covered, due⟩ := stillDue_some due
    obtain ⟨t, present', i₀, before⟩ := covers_iff.mp covered
    rcases List.mem_cons.mp live with same | among
    · cases same
      cases present.symm.trans present'
      exact absurd (SubscriptionMapper.covers_iff.mpr ⟨i₀, before⟩) newVariable
    · have other : i' ≠ i := by
        rintro rfl
        obtain ⟨t', present₁, maps₁⟩ := wired.mapped.mp among
        exact unowned present₁ maps₁
      simp only [Function.update_of_ne other]
      exact wired.due among due

/-- Subscriptions end. -/
theorem Wired.ended (wired : Wired requests d book) (ended : SubscriptionId → Prop) [DecidablePred ended]
    (sessions : ∀ {j t w i}, sv'.sessions j = some t → t.subscriptions.Maps w i →
      ∃ t', d.server.sessions j = some t' ∧ t'.subscriptions.Maps w i ∧ ¬ ended i ∧
        Duplex.updates t.written = Duplex.updates t'.written)
    (others : ∀ {j t w i}, d.server.sessions j = some t → t.subscriptions.Maps w i → ¬ ended i →
      ∃ t', sv'.sessions j = some t' ∧ t'.subscriptions.Maps w i)
    (posted : sv'.posted = d.server.posted)
    (serves : Stack.Serves requests sv'.delegate { book with live := book.live.filter fun subs => ¬ ended subs.subsId }) :
    Wired requests ⟨sv', d.stillDue⟩ { book with live := book.live.filter fun subs => ¬ ended subs.subsId } := by
  refine ⟨serves, ?_, ?_, ?_⟩
  · intro j w i
    rw [List.mem_filter, decide_eq_true_eq, wired.mapped]
    constructor
    · rintro ⟨⟨t, present', maps⟩, alive⟩
      exact others present' maps alive
    · rintro ⟨t, present', maps⟩
      obtain ⟨t', before, maps', alive, -⟩ := sessions present' maps
      exact ⟨⟨t', before, maps'⟩, alive⟩
  · intro j t w i x present' maps told
    obtain ⟨t', before, maps', -, same⟩ := sessions present' maps
    unfold lastFor
    simp only [posted]
    rw [same]
    exact wired.carried before maps' told
  · intro j w i x live due
    exact wired.due (List.mem_filter.mp live).1 (stillDue_some due).2

/-- The update that has come to the front is written. -/
theorem Wired.ran (wired : Wired requests d book) (present : d.server.sessions k = some s) {x : VariableValue}
    {later : List (Nat × VariableId × VariableValue)} (next : d.server.posted = (k, v, x) :: later) :
    Wired requests ⟨{ d.server.withSession k (after (s.sendVarUpdate v x)) with posted := later }, d.stillDue⟩ book := by
  obtain ⟨s', become⟩ : ∃ s', s' = after (s.sendVarUpdate v x) := ⟨_, rfl⟩
  have wrote : s'.subscriptions = s.subscriptions := by
    rw [become]
    rcases sendVarUpdate_cases v x s with same | ⟨i, -, same⟩ <;> rw [same]
  have front : ∀ {j w}, latest (j, w) (keyed d.server.posted) =
      (latest (j, w) (keyed later)).or (latest (j, w) [((k, v), x)]) := by
    intro j w
    rw [next]
    show latest (j, w) ([((k, v), x)] ++ keyed later) = _
    exact latest_append
  have apart : ∀ {j w}, (k, v) ≠ (j, w) → latest (j, w) [((k, v), x)] = none := fun other =>
    latest_other (List.forall_mem_singleton.mpr other)
  rw [← become]
  refine wired.renewed rfl wired.serves ?_ (fun _ => Iff.rfl) ?_ ?_ fun live due => wired.due live (stillDue_some due).2
  · intro w i
    rw [wrote]
    exact ⟨wired.maps_of_live present, wired.live_of_maps present⟩
  · intro w i y maps told
    rw [wrote] at maps
    have before := wired.carried present maps told
    rw [lastFor, front, Option.or_assoc] at before
    rw [← before, lastFor]
    congr 1
    by_cases here : w = v
    · subst here
      rw [become, Feed.sendVarUpdate_maps maps x, Duplex.updates_append, latest_self, Option.some_or]
      exact latest_concat_self
    · rw [apart fun same => here (congrArg Prod.snd same).symm, Option.none_or, become]
      rcases sendVarUpdate_cases v x s with same | ⟨i', maps', same⟩
      · rw [same]
      · have other : i' ≠ i := by
          rintro rfl
          exact here (maps.unique_variable maps')
        rw [same, Duplex.updates_append]
        exact latest_append_other (by simpa [Duplex.updates] using other)
  · intro j t w i y self present' maps told
    have before := wired.carried present' maps told
    rwa [lastFor, front, apart fun same => self (congrArg Prod.fst same).symm, Option.or_none] at before

/-- The handler and the variable of a live subscription stand for its id. -/
theorem Wired.alike (wired : Wired requests d book) (present : d.server.sessions k = some s) (maps : s.subscriptions.Maps v i)
    {subs : SubscriptionMeta} (live : subs ∈ book.live) : (subs.handler, subs.varId) = (k, v) ↔ subs.subsId = i := by
  constructor
  · intro same
    obtain ⟨rfl, rfl⟩ := Prod.mk.inj same
    exact (wired.maps_of_live present live).unique_subscription maps
  · rintro rfl
    rw [wired.serves.informed.ids_unique live (wired.live_of_maps present maps) rfl]

theorem Wired.latest_deliveries (wired : Wired requests d book) (present : d.server.sessions k = some s)
    (maps : s.subscriptions.Maps v i) {delivered : List (SubscriptionMeta × VariableValue)}
    (own : ∀ delivery ∈ delivered, delivery.1 ∈ book.live) :
    latest (k, v) (keyed (delivered.map invocation)) =
      (Book.valuesFor i delivered).getLast? := by
  rw [latest_eq_getLast?, keyed, List.map_map, List.filter_map, List.map_map]
  unfold Book.valuesFor
  congr 2
  refine List.filter_congr fun delivery among => decide_eq_decide.mpr ?_
  exact wired.alike present maps (own delivery among)

variable [UserAdapter α]

/-- Everybody who is called at a tick is there. -/
theorem Wired.calls (reliable : UserAdapter.Reliable α) (faithful : UserAdapter.Faithful requests memory)
    (wired : Wired requests d book) : ∃ c, Stack.tick d.server.delegate = .ok () c ∧
      UpToDate memory d.server.delegate.vars book c.vars ∧
      ticked d.server = { d.server with
        delegate := c
        posted := d.server.posted ++ (deliveries d.server.delegate.vars).map invocation } ∧
      c.reading memory = d.server.delegate.reading memory ∧ Stack.Serves requests c (book.tell (deliveries d.server.delegate.vars)) := by
  obtain ⟨c, executed, told, unchanged, serves⟩ := wired.serves.ticks reliable faithful
  refine ⟨c, executed, told, ?_, unchanged, serves⟩
  have all : handleVarUpdate d.server ((deliveries d.server.delegate.vars).map invocation) =
      (deliveries d.server.delegate.vars).map invocation := by
    refine List.filter_eq_self.mpr fun call among => ?_
    obtain ⟨⟨⟨v, k, i⟩, x⟩, delivered, rfl⟩ := List.mem_map.mp among
    obtain ⟨s, present, -⟩ := wired.mapped.mp (told.own _ delivered)
    exact Option.isSome_iff_exists.mpr ⟨s, present⟩
  rw [ticked, executed, after_ok, told.invoked, List.drop_left, all]

theorem Wired.ticked (reliable : UserAdapter.Reliable α) (faithful : UserAdapter.Faithful requests memory)
    (wired : Wired requests d book) : Wired requests ⟨ticked d.server, d.newlyDue memory⟩
      (book.tell (deliveries d.server.delegate.vars)) := by
  obtain ⟨c, -, told, same, -, serves⟩ := wired.calls reliable faithful
  rw [same]
  refine ⟨serves, wired.mapped, ?_, ?_⟩
  · intro k s v i x present maps told'
    replace told' : (book.told i ++ Book.valuesFor i
      (deliveries d.server.delegate.vars)).getLast? = some x := told'
    rw [List.getLast?_append] at told'
    have posted := wired.latest_deliveries present maps told.own
    unfold keyed at posted
    simp only [lastFor, keyed, List.map_append, latest_append, Option.or_assoc, posted]
    cases last : (Book.valuesFor i (deliveries d.server.delegate.vars)).getLast? with
    | some y => rwa [last] at told'
    | none =>
      rw [last, Option.none_or] at told'
      exact wired.carried present maps told'
  · intro k v i x live due
    obtain ⟨offset, converted, heard⟩ := told.told _ live
    rw [heard]
    exact (held_ok converted).symm.trans (newlyDue_some due)

/-! ## Steps -/

theorem Wired.read (reliable : UserAdapter.Reliable α) (faithful : UserAdapter.Faithful requests memory)
    (wired : Wired requests d book) (present : d.server.sessions k = some s)
    {bytesTransferred : Except Exception (List UInt8)} {p : Peer (Stack α)}
    (step : Server.Step ⟨s, d.server.delegate.attend k⟩ (.read bytesTransferred) p)
    (admits : ∀ msg, Reads s bytesTransferred msg → Admits d.server k msg)
    (sessions : sv'.sessions = Function.update d.server.sessions k (some p.session)) (posted : sv'.posted = d.server.posted)
    (delegate : sv'.delegate = p.delegate) : (∃ book', Wired requests ⟨sv', d.stillDue⟩ book') ∧
      ((∀ msg, Reads s bytesTransferred msg → ∀ req, msg ≠ .varUpdate req) →
        sv'.delegate.reading memory = d.server.delegate.reading memory) := by
  have unattended : (d.server.delegate.attend k).reading memory = d.server.delegate.reading memory := by
    rw [Stack.reading, Stack.attend_vars]
    rfl
  rw [← unattended, delegate]
  have attended := wired.serves.attended k
  have unused (fresh : ∀ j, ¬ d.server.Owner j d.server.delegate.vars.db.nextId) :
      (d.server.delegate.attend k).vars.db.nextId ∉ book.live.map SubscriptionMeta.subsId := by
    rw [Stack.attend_vars]
    exact fun among => (wired.owned.mp among).elim fresh
  rcases read_service step with ⟨quiet, same⟩ | ⟨msg, reads, service⟩
  · rw [same]
    exact ⟨⟨book, wired.quiet present quiet sessions posted (by rw [delegate, same]; exact attended)⟩, fun _ => rfl⟩
  have admitted := admits msg reads
  cases service with
  | kept other quiet same =>
    rw [same]
    exact ⟨⟨book, wired.quiet present quiet sessions posted (by rw [delegate, same]; exact attended)⟩, fun _ => rfl⟩
  | granted req asks varId named subsId subscribed newVariable maps msgs written plain =>
    subst asks
    obtain ⟨c, unchanged, ⟨executed, serves⟩ | ⟨raised, -⟩⟩ :=
      attended.subscribes reliable faithful (unused admitted) varId
    · cases executed.symm.trans subscribed
      rw [Stack.attend_caller] at serves
      refine ⟨⟨_, wired.granted present ?_ newVariable maps written plain sessions posted
        (by rw [delegate]; exact serves)⟩, fun _ => unchanged⟩
      rw [Stack.attend_vars]
      exact admitted
    · cases raised.symm.trans subscribed
  | clashed req asks subsId delegate' subscribed used =>
    subst asks
    obtain ⟨c, -, ⟨executed, -⟩ | ⟨raised, -⟩⟩ := attended.subscribes reliable faithful (unused admitted) _
    · cases executed.symm.trans subscribed
      rw [Stack.attend_vars] at used
      exact absurd ⟨s, present, used⟩ (admitted k)
    · cases raised.symm.trans subscribed
  | refused req asks e raised quiet =>
    subst asks
    obtain ⟨c, unchanged, ⟨executed, -⟩ | ⟨raised', serves⟩⟩ := attended.subscribes reliable faithful (unused admitted) _
    · cases executed.symm.trans raised
    · cases raised'.symm.trans raised
      exact ⟨⟨book, wired.quiet present quiet sessions posted (by rw [delegate]; exact serves)⟩, fun _ => unchanged⟩
  | removed req asks ended owned maps written =>
    obtain ⟨c, executed, unchanged, serves⟩ := attended.unsubscribes (wired.owned.mpr ⟨k, s, present, owned⟩)
    cases executed.symm.trans ended
    refine ⟨⟨_, wired.ended (· = req.subsId) ?_ ?_ posted (by rw [delegate]; exact serves)⟩,
      fun _ => unchanged memory⟩
    · intro j t w i present' maps'
      rw [sessions] at present'
      by_cases self : j = k
      · subst self
        simp only [Function.update_self, Option.some.injEq] at present'
        subst present'
        obtain ⟨before, other⟩ := (maps w i).mp maps'
        exact ⟨s, present, before, other, by rw [written, Duplex.updates_append]; exact List.append_nil _⟩
      · rw [Function.update_of_ne self] at present'
        refine ⟨t, present', maps', ?_, rfl⟩
        rintro rfl
        exact self (wired.one_owner ⟨t, present', SubscriptionMapper.owns_iff.mpr ⟨w, maps'⟩⟩ ⟨s, present, owned⟩)
    · intro j t w i present' maps' other
      rw [sessions]
      by_cases self : j = k
      · subst self
        cases present.symm.trans present'
        exact ⟨p.session, Function.update_self .., (maps w i).mpr ⟨maps', other⟩⟩
      · exact ⟨t, by rw [Function.update_of_ne self, present'], maps'⟩
  | stolen req asks ended foreign =>
    subst asks
    by_cases alive : req.subsId ∈ book.live.map SubscriptionMeta.subsId
    · obtain ⟨j, owner⟩ := wired.owned.mp alive
      cases admitted j owner
      obtain ⟨s', present', owns⟩ := owner
      cases present.symm.trans present'
      exact absurd owns foreign
    · cases (attended.unsubscribe_dead alive).symm.trans ended
  | dead req asks e raised quiet =>
    by_cases alive : req.subsId ∈ book.live.map SubscriptionMeta.subsId
    · obtain ⟨c, executed, -⟩ := attended.unsubscribes alive
      cases executed.symm.trans raised
    · have same := (attended.unsubscribe_dead alive).symm.trans raised
      injection same with _ same
      rw [← same]
      exact ⟨⟨book, wired.quiet present quiet sessions posted (by rw [delegate, ← same]; exact attended)⟩, fun _ => rfl⟩
  | updated req asks same quiet =>
    refine ⟨⟨book, wired.quiet present quiet sessions posted ?_⟩, fun none => absurd asks (none msg reads req)⟩
    rw [delegate, same]
    exact attended.updates reliable faithful req.subsId req.varValue

/-- A session that nothing is pending for takes its subscriptions along, and does not fail. -/
theorem Wired.destroys (wired : Wired requests d book) (present : d.server.sessions k = some s) :
    ∃ c, FlightVarsServer.unsubscribeAll s.subscriptions d.server.delegate = .ok () c ∧
      (∀ memory, c.reading memory = d.server.delegate.reading memory) ∧ ∃ book', ∀ (through : Set SubscriptionId), Wired requests
        ⟨⟨c, Function.update d.server.sessions k none, d.server.posted, through⟩, d.stillDue⟩ book' := by
  have alive : ∀ i ∈ s.subscriptions.forEachSubscription, i ∈ book.live.map SubscriptionMeta.subsId := fun i among =>
    wired.owned.mpr ⟨k, s, present, SubscriptionMapper.mem_forEachSubscription.mp among⟩
  obtain ⟨c, executed, unchanged, serves⟩ :=
    wired.serves.unsubscribesAll SubscriptionMapper.forEachSubscription_nodup alive
  refine ⟨c, executed, unchanged, _, fun through =>
    wired.ended (· ∈ s.subscriptions.forEachSubscription) ?_ ?_ rfl serves⟩
  · intro j t w i present' maps
    by_cases self : j = k
    · subst self
      simp at present'
    · simp only [Function.update_of_ne self] at present'
      refine ⟨t, present', maps, fun among => self ?_, rfl⟩
      exact wired.one_owner ⟨t, present', SubscriptionMapper.owns_iff.mpr ⟨w, maps⟩⟩
        ⟨s, present, SubscriptionMapper.mem_forEachSubscription.mp among⟩
  · intro j t w i present' maps other
    refine ⟨t, ?_, maps⟩
    have self : j ≠ k := by
      rintro rfl
      cases present.symm.trans present'
      exact other (SubscriptionMapper.mem_forEachSubscription.mpr (SubscriptionMapper.owns_iff.mpr ⟨w, maps⟩))
    simp only [Function.update_of_ne self, present']

theorem Wired.step (reliable : UserAdapter.Reliable α) (faithful : UserAdapter.Faithful requests memory)
    (wired : Wired requests d book) {event : Event α} {d' : FlightVarsModule α} (step : Step memory d event d')
    (proper : Proper requests d event) : (∃ book', Wired requests d' book') ∧
      (Undisturbed d event → d'.server.delegate.reading memory = d.server.delegate.reading memory) := by
  cases step with
  | ticked =>
    obtain ⟨c, -, -, same, unchanged, -⟩ := wired.calls reliable faithful
    refine ⟨⟨_, wired.ticked reliable faithful⟩, fun _ => ?_⟩
    simp only [same]
    exact unchanged
  | outside =>
    exact ⟨⟨book, wired.serves.outside reliable faithful proper _, wired.mapped, wired.carried, wired.due⟩, False.elim⟩
  | served own step =>
    cases step with
    | accepted new =>
      rename_i k
      have absent : d.server.sessions k = none := new
      refine ⟨⟨book, wired.renewed rfl wired.serves ?_ (fun _ => Iff.rfl) ?_ ?_ fun live due =>
        wired.due live (stillDue_some due).2⟩, fun _ => rfl⟩
      · intro v i
        rw [wired.mapped]
        simp [absent, Session.accepted, SubscriptionMapper.empty, SubscriptionMapper.Maps]
      · exact fun maps => absurd maps List.not_mem_nil
      · exact fun _ present maps told => wired.carried present maps told
    | read present step =>
      refine And.imp_right ?_ (wired.read reliable faithful present step (fun msg => proper _ msg present) rfl rfl rfl)
      exact fun unchanged undisturbed => unchanged fun msg => undisturbed _ msg present
    | wrote present step =>
      rename_i k s bytesTransferred p
      have quiet : Quiet s p.session := by
        cases step with
        | wrote pending =>
          show Quiet s (Session.onWriteMessage _ _)
          unfold Session.onWriteMessage
          split <;> exact Quiet.refl s
      exact ⟨⟨book, wired.quiet present quiet rfl rfl wired.serves⟩, fun _ => rfl⟩
    | notified present => exact own.elim
    | ran next present => exact ⟨⟨book, wired.ran present next⟩, fun _ => rfl⟩
    | destroyed present closed unused executed =>
      obtain ⟨c, executed', unchanged, book', wired'⟩ := wired.destroys present
      cases executed'.symm.trans executed
      exact ⟨⟨book', wired' _⟩, fun _ => unchanged memory⟩
    | others kept => exact own.elim

theorem wired_of_run (reliable : UserAdapter.Reliable α) (faithful : UserAdapter.Faithful requests memory) {userAdapter : α}
    (idle : requests userAdapter = []) (run : Run (Meeting (Step memory) (Proper requests)) (start userAdapter) d) :
    ∃ book, Wired requests d book :=
  run.invariant (I := fun d => ∃ book, Wired requests d book) ⟨_, start_wired idle⟩ fun wired last =>
    wired.elim fun _ wired => (wired.step reliable faithful last.1 last.2).1

/-- In every run in which no subscription is given the id of a live one, and no session ends
    a subscription of another one: a tick returns, the memory has a value for each variable
    that a session is subscribed to, and once there has been a tick since the subscription,
    the last update that is posted for the session, or else the last one that it has
    written, is the value that the memory held at the last tick. -/
theorem clients_up_to_date (reliable : UserAdapter.Reliable α) (faithful : UserAdapter.Faithful requests memory)
    {userAdapter : α} (idle : requests userAdapter = [])
    (run : Run (Meeting (Step memory) (Proper requests)) (start userAdapter) d) :
    (∃ c, Stack.tick d.server.delegate = .ok () c) ∧
      ∀ k s v i, d.server.sessions k = some s → s.subscriptions.Maps v i →
        (∃ x, held memory d.server.delegate v = some x) ∧
        ∀ x, d.due (k, v) = some x → lastFor d.server k s v i = some x := by
  obtain ⟨book, wired⟩ := wired_of_run reliable faithful idle run
  obtain ⟨c, executed, told, -⟩ := wired.calls reliable faithful
  refine ⟨⟨c, executed⟩, fun k s v i present maps => ?_⟩
  have live := wired.live_of_maps present maps
  obtain ⟨offset, converted, -⟩ := told.told _ live
  exact ⟨⟨_, held_ok converted⟩, fun x due => wired.carried present maps (wired.due live due)⟩

/-- The stack has the subscriptions of the sessions, and no others. -/
structure InStep (sv : FlightVarsServer (Stack α)) : Prop where
  polled : ∀ {offset}, offset ∈ sv.delegate.vars.updateObserver.offsets ↔
    ∃ k s v i, sv.sessions k = some s ∧ s.subscriptions.Maps v i ∧ toFsuipcOffset v = .ok offset
  routed : ∀ {i}, sv.delegate.subscriptions i = some () ↔ ∃ k, sv.Owner k i
  apart : ∀ {j k i}, sv.Owner j i → sv.Owner k i → j = k
  called : ∀ call ∈ (after (Stack.tick sv.delegate)).vars.invoked.drop sv.delegate.vars.invoked.length,
    Covers sv (call.1, call.2.1)
  ends : ∀ {k s}, sv.sessions k = some s → ∃ c, FlightVarsServer.unsubscribeAll s.subscriptions sv.delegate = .ok () c

/-- In every such run the offsets that are polled are those of the variables that the
    sessions are subscribed to, a tick calls only handlers of sessions that are still there
    and have the variable, and a session can be destroyed at any time. -/
theorem polled_for_clients (reliable : UserAdapter.Reliable α) (faithful : UserAdapter.Faithful requests memory)
    {userAdapter : α} (idle : requests userAdapter = [])
    (run : Run (Meeting (Step memory) (Proper requests)) (start userAdapter) d) : InStep d.server := by
  obtain ⟨book, wired⟩ := wired_of_run reliable faithful idle run
  obtain ⟨c, executed, told, -⟩ := wired.calls reliable faithful
  refine ⟨?_, wired.serves.routed.trans wired.owned, wired.one_owner, ?_, ?_⟩
  · intro offset
    rw [wired.serves.polled_iff]
    constructor
    · rintro ⟨⟨v, k, i⟩, live, converted⟩
      obtain ⟨s, present, maps⟩ := wired.mapped.mp live
      exact ⟨k, s, v, i, present, maps, converted⟩
    · rintro ⟨k, s, v, i, present, maps, converted⟩
      exact ⟨_, wired.live_of_maps present maps, converted⟩
  · rw [executed, after_ok, told.invoked, List.drop_left]
    intro call among
    obtain ⟨⟨⟨v, k, i⟩, x⟩, delivered, rfl⟩ := List.mem_map.mp among
    obtain ⟨s, present, maps⟩ := wired.mapped.mp (told.own _ delivered)
    exact covers_iff.mpr ⟨s, present, i, maps⟩
  · intro k s present
    obtain ⟨c, executed, -⟩ := wired.destroys present
    exact ⟨c, executed⟩

/-- A new session is greeted. -/
theorem opens (requests : α → List (Offset × Pointer)) (memory : α → Offset → UInt32) {d : FlightVarsModule α}
    (new : d.server.sessions k = none) : ∃ d' s, Run (Meeting (Step memory) (Proper requests)) d d' ∧ Idle s ∧
      d'.server.delegate = d.server.delegate.attend k ∧
      d'.server.sessions = Function.update d.server.sessions k (some s) := by
  obtain ⟨block, s₁, s₂, read, wrote, idle⟩ := idle_reached (d.server.delegate.attend k)
  obtain ⟨one, first⟩ : ∃ one : FlightVarsModule α, one = ⟨d.server.withSession k Session.accepted, d.stillDue⟩ := ⟨_, rfl⟩
  obtain ⟨two, second⟩ : ∃ two : FlightVarsModule α, two = ⟨{ one.server with
    delegate := one.server.delegate.attend k }.withPeer known k ⟨s₁, d.server.delegate.attend k⟩, one.stillDue⟩ := ⟨_, rfl⟩
  have same : one.server.delegate = d.server.delegate := by rw [first]; rfl
  have at_one : one.server.sessions k = some Session.accepted := by rw [first]; exact FlightVarsServer.withSession_self ..
  have at_two : two.server.sessions k = some s₁ := by rw [second]; exact FlightVarsServer.withPeer_self ..
  have reached : two.server.delegate = d.server.delegate.attend k := by rw [second]; rfl
  have opened : Step memory d (.served (.accepted k)) one := first ▸ .served trivial (.accepted new)
  have greets : Step memory one (.served (.read k (.ok block))) two := by
    rw [second]
    refine .served trivial (.read at_one ?_)
    show Server.Step ⟨_, one.server.delegate.attend k⟩ _ _
    rw [same]
    exact read
  have answers : Step memory two (.served (.wrote k (.ok 0))) ⟨two.server.withSession k s₂, two.stillDue⟩ := by
    have writes : FlightVarsServer.Step known two.server (.wrote k (.ok 0)) (two.server.withSession k s₂) := by
      refine .wrote (p := ⟨s₂, d.server.delegate.attend k⟩) at_two ?_
      rw [reached]
      exact wrote
    exact .served trivial writes
  have proper : Proper requests one (.served (.read k (.ok block))) := by
    intro s msg present reads
    cases at_one.symm.trans present
    cases reads.1
  refine ⟨_, s₂, (((Run.refl d).next ⟨opened, trivial⟩).next ⟨greets, proper⟩).next ⟨answers, trivial⟩, idle, reached, ?_⟩
  show Function.update two.server.sessions k (some s₂) = _
  rw [second]
  show Function.update (Function.update one.server.sessions k (some s₁)) k (some s₂) = _
  rw [Function.update_idem, first]
  exact Function.update_idem ..

/-! ## Over the dummy adapter -/

/-- A session subscribes to the transponder code. -/
theorem transponder_subscribed : ∃ (d : FlightVarsModule DummyUserAdapter) (s : Session) (i : SubscriptionId),
    Run (Meeting (Step DummyUserAdapter.memory) (Proper DummyUserAdapter.readRequests)) (start DummyUserAdapter.create) d ∧
      d.server.sessions 0 = some s ∧ s.subscriptions.Maps FsuipcFlightVars.transponder i ∧ d.server.sessions 1 = none := by
  obtain ⟨req, named⟩ : ∃ req : SubscriptionRequestMessage, req = ⟨text "fsuipc/offset", text "0x0354:2"⟩ := ⟨_, rfl⟩
  have isVariable : FsuipcFlightVars.transponder = variableId req.varGrp req.varName := by
    rw [named]
    rfl
  have valid : (Message.subscriptionReq req).Valid := by
    subst named
    show (text "fsuipc/offset").length ≤ 0xffff ∧ (text "0x0354:2").length ≤ 0xffff
    decide
  have short : (wire (.subscriptionReq req)).length < inputCapacity := by
    subst named
    decide
  have converted : toFsuipcOffset FsuipcFlightVars.transponder = .ok ⟨0x354, .word⟩ := by decide
  obtain ⟨one, s, run, idle, same, sessions⟩ := opens DummyUserAdapter.readRequests DummyUserAdapter.memory (k := 0)
    (d := start DummyUserAdapter.create) rfl
  have here : one.server.sessions 0 = some s := by
    rw [sessions]
    exact Function.update_self ..
  have none : ¬ ∃ j i, one.server.Owner j i := by
    rintro ⟨j, i, t, present, owns⟩
    rw [sessions] at present
    by_cases self : j = 0
    · subst self
      simp only [Function.update_self, Option.some.injEq] at present
      subst present
      rw [idle.subscriptions] at owns
      exact SubscriptionMapper.not_owns_empty owns
    · rw [Function.update_of_ne self] at present
      cases present
  have fresh : ¬ s.subscriptions.Owns (one.server.delegate.attend 0).vars.db.nextId := fun owns => none ⟨0, _, s, here, owns⟩
  have newVariable : ¬ s.subscriptions.Covers FsuipcFlightVars.transponder := by
    rw [idle.subscriptions]
    exact List.not_mem_nil
  have serves : Stack.Serves DummyUserAdapter.readRequests (one.server.delegate.attend 0) Book.empty := by
    rw [same]
    exact ((Stack.start_serves rfl).attended 0).attended 0
  have subscribed : ∃ c, FlightVars.subscribe FsuipcFlightVars.transponder (one.server.delegate.attend 0) =
      .ok (one.server.delegate.attend 0).vars.db.nextId c := by
    have registered := serves.registered.mpr (show FsuipcFlightVars.transponder.group = varGroupTag from rfl)
    obtain ⟨t, executed, -⟩ := FsuipcFlightVars.subscribe_returns DummyUserAdapter.reliable serves.informed.sound
      List.not_mem_nil _ converted
    exact ⟨_, Stack.subscribe_ok registered executed⟩
  obtain ⟨c, subscribed⟩ := subscribed
  obtain ⟨⟨buff, asks⟩, only⟩ := idle.reads (one.server.delegate.attend 0) valid short
  have granted := dispatch_granted
    (p := ⟨s.taken (wire (.subscriptionReq req)) buff (.subscriptionReq req), one.server.delegate.attend 0⟩)
    isVariable newVariable fresh subscribed
  rw [granted] at asks
  obtain ⟨p, answers⟩ : ∃ p, p = Peer.caught (Peer.dispatch (.subscriptionReq req)
    ⟨s.taken (wire (.subscriptionReq req)) buff (.subscriptionReq req), one.server.delegate.attend 0⟩) := ⟨_, rfl⟩
  rw [granted] at answers
  rw [← answers] at asks
  obtain ⟨two, second⟩ : ∃ two : FlightVarsModule DummyUserAdapter, two = ⟨{ one.server with
    delegate := one.server.delegate.attend 0 }.withPeer known 0 p, one.stillDue⟩ := ⟨_, rfl⟩
  have at_two : two.server.sessions 0 = some p.session := by
    rw [second]
    exact FlightVarsServer.withPeer_self ..
  have maps : p.session.subscriptions.Maps FsuipcFlightVars.transponder
      (one.server.delegate.attend 0).vars.db.nextId := by
    rw [answers, answered_subscriptions]
    exact SubscriptionMapper.maps_insert_self newVariable fresh
  have subscribes : Step DummyUserAdapter.memory one (.served (.read 0 (.ok (wire (.subscriptionReq req))))) two := by
    rw [second]
    exact .served trivial (.read here asks)
  have proper : Proper DummyUserAdapter.readRequests one (.served (.read 0 (.ok (wire (.subscriptionReq req))))) := by
    intro t msg present reads
    cases here.symm.trans present
    rw [only msg reads]
    exact fun j owner => none ⟨j, _, owner⟩
  refine ⟨two, p.session, _, run.next ⟨subscribes, proper⟩, at_two, maps, ?_⟩
  rw [second]
  show Function.update one.server.sessions 0 (some p.session) 1 = _
  rw [sessions]
  rfl

/-- After a tick the value of the transponder code is due. -/
theorem transponder_due : ∃ (d : FlightVarsModule DummyUserAdapter) (s : Session) (i : SubscriptionId),
    Run (Meeting (Step DummyUserAdapter.memory) (Proper DummyUserAdapter.readRequests)) (start DummyUserAdapter.create) d ∧
      d.server.sessions 0 = some s ∧ s.subscriptions.Maps FsuipcFlightVars.transponder i ∧
      ∃ x, d.due (0, FsuipcFlightVars.transponder) = some x := by
  obtain ⟨d, s, i, run, present, maps, -⟩ := transponder_subscribed
  have converted : toFsuipcOffset FsuipcFlightVars.transponder = .ok ⟨0x354, .word⟩ := by decide
  have covers : Covers d.server (0, FsuipcFlightVars.transponder) := covers_iff.mpr ⟨s, present, i, maps⟩
  have ticks : Step DummyUserAdapter.memory d .ticked ⟨ticked d.server, d.newlyDue DummyUserAdapter.memory⟩ := .ticked
  exact ⟨_, s, i, run.next ⟨ticks, trivial⟩, present, maps, _, (if_pos covers).trans (held_ok converted)⟩

theorem clients_up_to_date_transponder : ∃ (d : FlightVarsModule DummyUserAdapter) (s : Session) (i : SubscriptionId)
    (x : VariableValue), d.server.sessions 0 = some s ∧ d.due (0, FsuipcFlightVars.transponder) = some x ∧
      lastFor d.server 0 s FsuipcFlightVars.transponder i = some x := by
  obtain ⟨d, s, i, run, present, maps, x, due⟩ := transponder_due
  have upToDate := (clients_up_to_date DummyUserAdapter.reliable DummyUserAdapter.faithful rfl run).2 0 s _ i present maps
  exact ⟨d, s, i, x, present, due, upToDate.2 x due⟩

theorem polled_for_clients_transponder : ∃ d : FlightVarsModule DummyUserAdapter,
    InStep d.server ∧ ⟨0x354, .word⟩ ∈ d.server.delegate.vars.updateObserver.offsets := by
  obtain ⟨d, s, i, run, present, maps, -⟩ := transponder_due
  have inStep := polled_for_clients DummyUserAdapter.reliable DummyUserAdapter.faithful rfl run
  exact ⟨d, inStep, inStep.polled.mpr ⟨0, s, _, i, present, maps, by decide⟩⟩

end FlightVarsModule
end Oac.Deployment
