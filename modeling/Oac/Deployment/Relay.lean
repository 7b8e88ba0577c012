import Oac.Deployment.Clients
import Oac.Fsuipc.Fidelity

/-!
# What clients tell each other

A client updates a variable under the id of a subscription. The value goes into the memory,
as far as the offset has room for it, and from there at the next tick to every session that
is subscribed to the variable (`update_relayed`). The runs are those of
`FlightVarsModule.Step`: no tick overlaps with a handler of the IO service.
-/
namespace Oac.Fsuipc
open Base

/-- What is written is what the memory then holds, as far as there is room for it. -/
structure UserAdapter.Stores {α : Type} [UserAdapter α] (memory : α → Offset → UInt32) : Prop where
  written : ∀ {val a u a'}, UserAdapter.write val a = .ok u a' →
    (memory a' val.toOffset).toNat = val.value.toNat % val.length.limit

theorem DummyUserAdapter.stores : UserAdapter.Stores DummyUserAdapter.memory where
  written := by
    intro val a u a' executed
    cases executed
    rw [memory, List.foldl_append]
    exact read_write _ val

theorem FsuipcClient.update_stores {α : Type} [UserAdapter α] {requests : α → List (Offset × Pointer)}
    {memory : α → Offset → UInt32} (faithful : UserAdapter.Faithful requests memory) (stores : UserAdapter.Stores memory)
    {val : ValuedOffset} {c c' : FsuipcClient α} {u : Unit} (executed : update [val] c = .ok u c') :
    (memory c'.userAdapter val.toOffset).toNat = val.value.toNat % val.length.limit := by
  rw [update, if_neg (List.cons_ne_nil _ _)] at executed
  obtain ⟨v, c₁, all, continued⟩ := bind_ok executed
  obtain ⟨w, c₂, written, last⟩ := bind_ok all
  cases last
  obtain ⟨stored, c₃, processed, last⟩ := bind_ok continued
  cases last
  obtain ⟨a, write, rfl⟩ := onAdapter_inv written
  obtain ⟨a', process, rfl⟩ := onAdapter_inv processed
  rw [(faithful.process process).2.2]
  exact stores.written write

end Oac.Fsuipc

namespace Oac.Deployment
open Base Fsuipc Proto Server
open FsuipcFlightVars (Book)

variable {α : Type} [UserAdapter α] {requests : α → List (Offset × Pointer)} {memory : α → Offset → UInt32}

/-- An update under the id of a live subscription. -/
theorem Stack.Serves.stores {c : Stack α} {book : Book} (reliable : UserAdapter.Reliable α)
    (faithful : UserAdapter.Faithful requests memory) (stores : UserAdapter.Stores memory)
    (serves : Serves requests c book) {subs : SubscriptionMeta} (live : subs ∈ book.live) {offset : Offset}
    (converted : toFsuipcOffset subs.varId = .ok offset) (value : VariableValue) :
    ((after (FlightVars.update subs.subsId value c)).reading memory offset).toNat =
      (toFsuipcOffsetValue value).toNat % offset.length.limit := by
  have pair := FsuipcFlightVars.Informed.pair live
  obtain ⟨s, executed, -⟩ := FsuipcFlightVars.update_returns reliable serves.informed.sound pair value
  obtain ⟨offset', client, found, written, become⟩ := FsuipcFlightVars.update_inv executed
  cases (serves.informed.sound.consistent.getOffset_live pair converted).symm.trans found
  have known := serves.routed.mpr (List.mem_map_of_mem (f := SubscriptionMeta.subsId) live)
  rw [update_ok known executed, after_ok, reading, withVars_vars, become]
  exact FsuipcClient.update_stores faithful stores written

namespace FlightVarsModule
variable {d d' : FlightVarsModule α} {book : Book} {k : Nat} {s : Session} {v : VariableId} {i : SubscriptionId}

omit [UserAdapter α] in
theorem reads_unique {bytesTransferred : Except Exception (List UInt8)} {msg msg' : Message}
    (first : Reads s bytesTransferred msg) (second : Reads s bytesTransferred msg') : msg = msg' := by
  obtain ⟨-, block, buff, rfl, decoded⟩ := first
  obtain ⟨-, block', buff', same, decoded'⟩ := second
  cases same
  cases decoded.symm.trans decoded'
  rfl

/-- The update that a session reads, whoever the subscription is of. -/
theorem Wired.stores (reliable : UserAdapter.Reliable α) (faithful : UserAdapter.Faithful requests memory)
    (stores : UserAdapter.Stores memory) (wired : Wired requests d book) {subs : SubscriptionMeta} (live : subs ∈ book.live)
    {offset : Offset} (converted : toFsuipcOffset subs.varId = .ok offset) (present : d.server.sessions k = some s)
    {bytesTransferred : Except Exception (List UInt8)} {value : VariableValue}
    (reads : Reads s bytesTransferred (.varUpdate ⟨subs.subsId, value⟩))
    (step : Step memory d (.served (.read k bytesTransferred)) d') :
    (d'.server.delegate.reading memory offset).toNat = (toFsuipcOffsetValue value).toNat % offset.length.limit := by
  cases step with
  | served own step =>
    cases step with
    | read present' step =>
      cases present.symm.trans present'
      cases reads_service (p := ⟨s, d.server.delegate.attend k⟩) reads step with
      | updated req asks same =>
        cases asks
        show (Stack.reading memory _ offset).toNat = _
        rw [FlightVarsServer.withPeer, same]
        exact (wired.serves.attended k).stores reliable faithful stores live converted value
      | kept other => exact absurd rfl (other _)
      | granted req asks => cases asks
      | clashed req asks => cases asks
      | refused req asks => cases asks
      | removed req asks => cases asks
      | stolen req asks => cases asks
      | dead req asks => cases asks

/-- In every run as above, when a session reads an update under the id of a subscription,
    whosever it is, and no other update is read and the memory does not change from the
    outside until the next tick: with that tick the last update that is posted for a session
    that is subscribed to the variable, or else the last one that it has written, is the
    value of the update, as far as the offset has room for it. -/
theorem update_relayed (reliable : UserAdapter.Reliable α) (faithful : UserAdapter.Faithful requests memory)
    (stores : UserAdapter.Stores memory) {userAdapter : α} (idle : requests userAdapter = [])
    {before now later : FlightVarsModule α} (run : Run (Meeting (Step memory) (Proper requests)) (start userAdapter) before)
    {j : Nat} {t : Session} (subscribed : before.server.sessions j = some t) (maps : t.subscriptions.Maps v i)
    (present : before.server.sessions k = some s) {bytesTransferred : Except Exception (List UInt8)} {value : VariableValue}
    (reads : Reads s bytesTransferred (.varUpdate ⟨i, value⟩))
    (step : Step memory before (.served (.read k bytesTransferred)) now)
    (rest : Run (Meeting (Step memory) fun d event => Proper requests d event ∧ Undisturbed d event) now later) :
    ∃ offset, toFsuipcOffset v = .ok offset ∧ ∀ k' s' i', (ticked later.server).sessions k' = some s' →
      s'.subscriptions.Maps v i' → ∃ x, lastFor (ticked later.server) k' s' v i' = some x ∧
        VariableValue.number x = some ((toFsuipcOffsetValue value).toNat % offset.length.limit) := by
  obtain ⟨book, wired⟩ := wired_of_run reliable faithful idle run
  have live := wired.live_of_maps subscribed maps
  obtain ⟨offset, converted⟩ := wired.serves.informed.sound.consistent.placed (FsuipcFlightVars.Informed.pair live)
  have written := wired.stores reliable faithful stores live converted present reads step
  have proper : Proper requests before (.served (.read k bytesTransferred)) := by
    intro s' msg present' reads'
    cases present.symm.trans present'
    rw [reads_unique reads' reads]
    trivial
  have kept : (∃ book, Wired requests later book) ∧
      later.server.delegate.reading memory = now.server.delegate.reading memory := by
    refine rest.invariant (I := fun d => (∃ book, Wired requests d book) ∧
      d.server.delegate.reading memory = now.server.delegate.reading memory)
      ⟨(wired.step reliable faithful step proper).1, rfl⟩ fun kept last => ?_
    obtain ⟨⟨book, wired⟩, same⟩ := kept
    obtain ⟨wired', unchanged⟩ := wired.step reliable faithful last.1 last.2.1
    exact ⟨wired', (unchanged last.2.2).trans same⟩
  obtain ⟨⟨book', wired'⟩, same⟩ := kept
  have told := wired'.ticked reliable faithful
  refine ⟨offset, converted, fun k' s' i' present' maps' => ?_⟩
  have covers : Covers later.server (k', v) := covers_iff.mpr ⟨s', present', i', maps'⟩
  have due : later.newlyDue memory (k', v) = some (toVariableValue (offset.valued (later.server.delegate.reading memory))) :=
    (if_pos covers).trans (held_ok converted)
  refine ⟨_, told.carried present' maps' (told.due (told.live_of_maps present' maps') due), ?_⟩
  rw [number_toVariableValue, Offset.valued_value, same]
  show some ((now.server.delegate.reading memory offset).toNat % offset.length.limit) = _
  rw [written, Nat.mod_mod]

/-- A second session sets the transponder code. -/
theorem update_relayed_transponder : ∃ (sv : FlightVarsServer (Stack DummyUserAdapter)) (s : Session) (i : SubscriptionId)
    (x : VariableValue), sv.sessions 0 = some s ∧ lastFor sv 0 s FsuipcFlightVars.transponder i = some x ∧
      VariableValue.number x = some 0x1200 := by
  obtain ⟨one, s, i, run, present, maps, new⟩ := transponder_subscribed
  obtain ⟨two, t, opened, idle, same, sessions⟩ := opens DummyUserAdapter.readRequests DummyUserAdapter.memory new
  have here : two.server.sessions 1 = some t := by
    rw [sessions]
    exact Function.update_self ..
  have subscribed : two.server.sessions 0 = some s := by
    rw [sessions]
    exact (Function.update_of_ne (by decide) ..).trans present
  have valid : (Message.varUpdate ⟨i, .dword 0x1200⟩).Valid := trivial
  have short : (wire (.varUpdate ⟨i, .dword 0x1200⟩)).length < inputCapacity :=
    lt_of_le_of_lt (Client.ConnectionManager.fits_varUpdate i (.dword 0x1200)) (by decide)
  obtain ⟨-, buff, decoded⟩ := idle.decodes valid short
  have reads : Reads t (.ok (wire (.varUpdate ⟨i, .dword 0x1200⟩))) (.varUpdate ⟨i, .dword 0x1200⟩) :=
    ⟨idle.pending, _, buff, rfl, decoded⟩
  obtain ⟨⟨buff', asks⟩, -⟩ := idle.reads (two.server.delegate.attend 1) valid short
  obtain ⟨p, named⟩ : ∃ p, p = Peer.caught (Peer.dispatch (.varUpdate ⟨i, .dword 0x1200⟩)
    ⟨t.taken (wire (.varUpdate ⟨i, .dword 0x1200⟩)) buff' (.varUpdate ⟨i, .dword 0x1200⟩),
      two.server.delegate.attend 1⟩) := ⟨_, rfl⟩
  rw [← named] at asks
  obtain ⟨now, third⟩ : ∃ now : FlightVarsModule DummyUserAdapter, now =
    ⟨{ two.server with delegate := two.server.delegate.attend 1 }.withPeer known 1 p, two.stillDue⟩ := ⟨_, rfl⟩
  have step : Step DummyUserAdapter.memory two (.served (.read 1 (.ok (wire (.varUpdate ⟨i, .dword 0x1200⟩))))) now := by
    rw [third]
    exact .served trivial (.read here asks)
  have still : now.server.sessions 0 = some s := by
    rw [third]
    show Function.update two.server.sessions 1 (some p.session) 0 = some s
    rw [Function.update_of_ne (by decide), subscribed]
  obtain ⟨offset, converted, relayed⟩ := update_relayed DummyUserAdapter.reliable DummyUserAdapter.faithful
    DummyUserAdapter.stores rfl (run.trans opened) subscribed maps here reads step (Run.refl _)
  have word : toFsuipcOffset FsuipcFlightVars.transponder = .ok ⟨0x354, .word⟩ := by decide
  cases word.symm.trans converted
  obtain ⟨x, last, number⟩ := relayed 0 s i still maps
  exact ⟨ticked now.server, s, i, x, still, last, number⟩

end FlightVarsModule
end Oac.Deployment
