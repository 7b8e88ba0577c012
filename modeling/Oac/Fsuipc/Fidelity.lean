import Oac.Fsuipc.Delivery

/-!
# Updates of the dummy adapter

An update writes the number of its value into the bytes of the offset, and only there. The
number is read back as far as the offset has room for it (`update_faithful_iff`).
-/
namespace Oac.Fsuipc
open Base

/-- The number that a value denotes. A float is not taken for one. -/
def VariableValue.number : VariableValue → Option Nat
  | .bool value => some value.toNat
  | .byte value => some value.toNat
  | .word value => some value.toNat
  | .dword value => some value.toNat
  | .float _ => none

/-- The numbers that there is room for in an offset are those below. -/
def OffsetLength.limit (length : OffsetLength) : Nat := 256 ^ length.toNat

/-- The byte is one of the offset. -/
def Offset.Covers (offset : Offset) (addr : Nat) : Prop :=
  offset.address.toNat ≤ addr ∧ addr < offset.address.toNat + offset.length.toNat

theorem number_toFsuipcOffsetValue {value : VariableValue} {n : Nat} (denotes : VariableValue.number value = some n) :
    (toFsuipcOffsetValue value).toNat = n := by
  cases value with
  | bool value =>
    cases denotes
    cases value <;> rfl
  | byte value =>
    cases denotes
    have := value.toNat_lt
    simp [toFsuipcOffsetValue]
  | word value =>
    cases denotes
    have := value.toNat_lt
    simp [toFsuipcOffsetValue]
  | dword value =>
    cases denotes
    rfl
  | float value => cases denotes

theorem number_toVariableValue (val : ValuedOffset) :
    VariableValue.number (toVariableValue val) = some (val.value.toNat % val.length.limit) := by
  unfold toVariableValue OffsetLength.limit
  cases val.length with
  | byte => simp [VariableValue.number, OffsetLength.toNat]
  | word => simp [VariableValue.number, OffsetLength.toNat]
  | dword =>
    have := val.value.toNat_lt
    simp only [VariableValue.number, OffsetLength.toNat]
    congr 1
    omega

namespace DummyUserAdapter

/-- What is written is read back, as far as there is room for it. -/
theorem read_write (buffer : Nat → UInt8) (val : ValuedOffset) :
    (readValueFromBuffer (writeValueToBuffer buffer val) val.toOffset).toNat = val.value.toNat % val.length.limit := by
  obtain ⟨⟨address, length⟩, value⟩ := val
  have bound := value.toNat_lt
  cases length with
  | byte =>
    simp [readValueFromBuffer, writeValueToBuffer, OffsetLength.limit, OffsetLength.toNat]
    omega
  | word =>
    simp [readValueFromBuffer, writeValueToBuffer, OffsetLength.limit, OffsetLength.toNat, Nat.shiftLeft_eq,
      Nat.shiftRight_eq_div_pow]
    omega
  | dword =>
    simp [readValueFromBuffer, writeValueToBuffer, OffsetLength.limit, OffsetLength.toNat, Nat.shiftLeft_eq,
      Nat.shiftRight_eq_div_pow]
    omega

theorem write_other {buffer : Nat → UInt8} {val : ValuedOffset} {addr : Nat} (outside : ¬ val.Covers addr) :
    writeValueToBuffer buffer val addr = buffer addr := by
  obtain ⟨⟨address, length⟩, value⟩ := val
  simp only [Offset.Covers, not_and, not_lt] at outside
  cases length with
  | byte =>
    simp only [OffsetLength.toNat] at outside
    simp only [writeValueToBuffer]
    rw [Function.update_of_ne (by omega)]
  | word =>
    simp only [OffsetLength.toNat] at outside
    simp only [writeValueToBuffer]
    rw [Function.update_of_ne (by omega), Function.update_of_ne (by omega)]
  | dword =>
    simp only [OffsetLength.toNat] at outside
    simp only [writeValueToBuffer]
    rw [Function.update_of_ne (by omega), Function.update_of_ne (by omega), Function.update_of_ne (by omega),
      Function.update_of_ne (by omega)]

/-- Nothing is left to be processed. -/
structure Settled (a : DummyUserAdapter) : Prop where
  readRequests : a.readRequests = []
  writeRequests : a.writeRequests = []

theorem process_settled {a a' : DummyUserAdapter} {stores : List (Pointer × UInt32)}
    (executed : UserAdapter.process a = .ok stores a') : a'.Settled := by
  cases executed
  exact ⟨rfl, rfl⟩

theorem query_settled {offsets : List Offset} {c c' : FsuipcClient DummyUserAdapter} {vals : List ValuedOffset}
    (executed : FsuipcClient.query offsets c = .ok vals c') (settled : c.userAdapter.Settled) :
    c'.userAdapter.Settled := by
  unfold FsuipcClient.query at executed
  split at executed
  · cases executed
    exact settled
  · obtain ⟨nodes, c₁, -, continued⟩ := bind_ok executed
    obtain ⟨stores, c₂, processed, last⟩ := bind_ok continued
    cases last
    obtain ⟨a, process, rfl⟩ := FsuipcClient.onAdapter_inv processed
    exact process_settled process

/-- An update of one offset. -/
theorem update_one {val : ValuedOffset} {c c' : FsuipcClient DummyUserAdapter} {u : Unit}
    (settled : c.userAdapter.Settled) (executed : FsuipcClient.update [val] c = .ok u c') :
    c'.userAdapter = ⟨writeValueToBuffer c.userAdapter.buffer val, [], []⟩ := by
  have here : FsuipcClient.update [val] c = .ok () { c with userAdapter :=
      ⟨(c.userAdapter.writeRequests ++ [val]).foldl writeValueToBuffer c.userAdapter.buffer, [], []⟩ } := rfl
  rw [settled.writeRequests] at here
  cases here.symm.trans executed
  rfl

end DummyUserAdapter

namespace FsuipcFlightVars

/-- The memory of the dummy adapter. -/
def buffer (s : FsuipcFlightVars DummyUserAdapter) : Nat → UInt8 := s.updateObserver.client.userAdapter.buffer

/-- The value that is read back for an offset. -/
def readBack (offset : Offset) (s : FsuipcFlightVars DummyUserAdapter) : Option VariableValue :=
  match FsuipcClient.query [offset] s.updateObserver.client with
  | .ok [val] _ => some (toVariableValue val)
  | _ => none

/-- The update is done in full, or refused without a trace. -/
def Performed (s : FsuipcFlightVars DummyUserAdapter) (id : SubscriptionId) (offset : Offset) (value : VariableValue) : Prop :=
  (∃ s', update id value s = .ok () s' ∧
      (∃ value', readBack offset s' = some value' ∧ VariableValue.number value' = VariableValue.number value) ∧
      ∀ addr, ¬ offset.Covers addr → s'.buffer addr = s.buffer addr) ∨
    ∃ e s', update id value s = .error e s' ∧ (e = .noSuchSubscription id ∨ e = .illegalValue id) ∧ s'.buffer = s.buffer

/-- From the outside only the buffer changes, and the ids stay distinct. -/
def Kept (before : FsuipcFlightVars DummyUserAdapter × List (SubscriptionId × VariableId)) (event : Event DummyUserAdapter) :
    Prop :=
  Fresh before event ∧ match event with
    | .outside userAdapter _ => userAdapter.Settled
    | .call _ => True

/-- The state between calls. -/
structure Steady (s : FsuipcFlightVars DummyUserAdapter × List (SubscriptionId × VariableId)) : Prop where
  sound : Sound s
  settled : s.1.updateObserver.client.userAdapter.Settled

variable {s s' : FsuipcFlightVars DummyUserAdapter} {live : List (SubscriptionId × VariableId)} {id : SubscriptionId}
  {var : VariableId} {offset : Offset} {value : VariableValue} {n : Nat}

theorem checkForUpdates_settled {u : Unit} (settled : s.updateObserver.client.userAdapter.Settled)
    (executed : checkForUpdates s = .ok u s') : s'.updateObserver.client.userAdapter.Settled := by
  unfold checkForUpdates at executed
  split at executed
  · rename_i o db invoked result
    cases executed
    obtain ⟨vals, c, t, query, checked, rfl, -⟩ := UpdateObserver.checkForUpdates_inv result
    have frame := UpdateObserver.checkAll_frame onOffsetUpdate vals ({ s.updateObserver with client := c }, (s.db, s.invoked))
    rw [checked] at frame
    have same : t.1.client = c := frame.2
    show t.1.client.userAdapter.Settled
    rw [same]
    exact DummyUserAdapter.query_settled query settled
  · cases executed

theorem Steady.performed (steady : Steady (s, live)) {call : Call} (fresh : Fresh (s, live) (.call call))
    {a : Option SubscriptionId} (executed : perform call s = .ok a s') :
    s'.updateObserver.client.userAdapter.Settled := by
  cases call with
  | subscribe var handler =>
    obtain ⟨id, s₁, subscribed, last⟩ := bind_ok executed
    cases last
    obtain ⟨offset, o, -, -, started, rfl⟩ := subscribe_inv steady.sound fresh subscribed
    obtain ⟨vals, c, query, rfl⟩ := UpdateObserver.startObservingAll_inv started
    have same : (vals.foldl UpdateObserver.store { UpdateObserver.observe [offset] s.updateObserver with client := c }).client =
        c := by
      rw [UpdateObserver.foldl_store]
    rw [same]
    exact DummyUserAdapter.query_settled query steady.settled
  | unsubscribe id =>
    obtain ⟨u, s₁, unsubscribed, last⟩ := bind_ok executed
    cases last
    obtain ⟨offset, rfl⟩ := unsubscribe_inv unsubscribed
    unfold stopUnlessKnown
    split <;> exact steady.settled
  | update id value =>
    obtain ⟨u, s₁, updated, last⟩ := bind_ok executed
    cases last
    obtain ⟨offset, c, -, written, rfl⟩ := update_inv updated
    show c.userAdapter.Settled
    rw [DummyUserAdapter.update_one steady.settled written]
    exact ⟨rfl, rfl⟩
  | checkForUpdates =>
    obtain ⟨u, s₁, polled, last⟩ := bind_ok executed
    cases last
    exact checkForUpdates_settled steady.settled polled

theorem Steady.step {before now : FsuipcFlightVars DummyUserAdapter × List (SubscriptionId × VariableId)}
    {event : Event DummyUserAdapter} (steady : Steady before) (step : Step before event now) (kept : Kept before event) :
    Steady now := by
  refine ⟨steady.sound.step DummyUserAdapter.reliable step kept.1, ?_⟩
  obtain ⟨s, live⟩ := before
  obtain ⟨s', live'⟩ := now
  cases event with
  | outside userAdapter nextId =>
    cases step
    exact kept.2
  | call call =>
    rcases step with ⟨a, executed, -⟩ | ⟨e, raised, -⟩
    · exact steady.performed kept.1 executed
    · rcases steady.sound.perform DummyUserAdapter.reliable call kept.1 with ⟨a, s₁, executed, -⟩ | ⟨e', raised'⟩
      · exact absurd (executed.symm.trans raised) nofun
      · cases raised'.symm.trans raised
        exact steady.settled

/-- What a live subscription's update does. -/
theorem Steady.update (steady : Steady (s, live)) (member : (id, var) ∈ live) (converted : toFsuipcOffset var = .ok offset)
    (value : VariableValue) : ∃ s', FsuipcFlightVars.update id value s = .ok () s' ∧
      s'.updateObserver.client.userAdapter.Settled ∧
      s'.buffer = DummyUserAdapter.writeValueToBuffer s.buffer ⟨offset, toFsuipcOffsetValue value⟩ := by
  obtain ⟨s', executed, -⟩ := update_returns DummyUserAdapter.reliable steady.sound member value
  refine ⟨s', executed, ?_⟩
  obtain ⟨offset', c, found, written, rfl⟩ := update_inv executed
  cases (steady.sound.consistent.getOffset_live member converted).symm.trans found
  have adapter := DummyUserAdapter.update_one steady.settled written
  constructor
  · show c.userAdapter.Settled
    rw [adapter]
    exact ⟨rfl, rfl⟩
  · show c.userAdapter.buffer = _
    rw [adapter]
    rfl

theorem readBack_eq (settled : s.updateObserver.client.userAdapter.Settled) (offset : Offset) :
    readBack offset s = some (toVariableValue (offset.valued (DummyUserAdapter.readValueFromBuffer s.buffer))) := by
  obtain ⟨vals, c, executed, -⟩ := FsuipcClient.query_returns DummyUserAdapter.reliable [offset] s.updateObserver.client
  obtain ⟨rfl, -⟩ := FsuipcClient.query_reads DummyUserAdapter.faithful settled.readRequests executed
  simp only [readBack, executed, List.map_cons, List.map_nil]
  rw [DummyUserAdapter.memory, settled.writeRequests]
  rfl

theorem Steady.performed_iff (steady : Steady (s, live)) (member : (id, var) ∈ live)
    (converted : toFsuipcOffset var = .ok offset) (denotes : VariableValue.number value = some n) :
    Performed s id offset value ↔ n < offset.length.limit := by
  obtain ⟨s', executed, settled, written⟩ := steady.update member converted value
  have number : VariableValue.number (toVariableValue (offset.valued (DummyUserAdapter.readValueFromBuffer s'.buffer))) =
      some (n % offset.length.limit) := by
    rw [number_toVariableValue, Offset.valued_value, written]
    rw [DummyUserAdapter.read_write s.buffer ⟨offset, toFsuipcOffsetValue value⟩, number_toFsuipcOffsetValue denotes]
    simp
  have positive : 0 < offset.length.limit := Nat.pow_pos (by decide)
  constructor
  · rintro (⟨s₁, executed', ⟨value', read, same⟩, -⟩ | ⟨e, s₁, raised, -⟩)
    · cases executed.symm.trans executed'
      rw [readBack_eq settled] at read
      cases read
      rw [number, denotes] at same
      rw [← Option.some.inj same]
      exact Nat.mod_lt _ positive
    · exact absurd (executed.symm.trans raised) nofun
  · intro fits
    refine .inl ⟨s', executed, ⟨_, readBack_eq settled offset, ?_⟩, ?_⟩
    · rw [number, denotes, Nat.mod_eq_of_lt fits]
    · intro addr outside
      rw [written]
      exact DummyUserAdapter.write_other outside

/-- In every run over the dummy adapter, an update is done in full exactly if the offset
    has room for the number. -/
theorem update_faithful_iff (userAdapter : DummyUserAdapter) (settled : userAdapter.Settled)
    (s : FsuipcFlightVars DummyUserAdapter) (live : List (SubscriptionId × VariableId))
    (run : Run (Meeting Step Kept) (create userAdapter, []) (s, live)) (id : SubscriptionId) (var : VariableId)
    (member : (id, var) ∈ live) (offset : Offset) (converted : toFsuipcOffset var = .ok offset) (value : VariableValue)
    (n : Nat) (denotes : VariableValue.number value = some n) :
    Performed s id offset value ↔ n < offset.length.limit := by
  have steady : Steady (s, live) := run.invariant ⟨create_sound userAdapter, settled⟩ fun before last =>
    before.step last.1 last.2
  exact steady.performed_iff member converted denotes

/-- A subscription to the transponder code. -/
theorem transponder_run : ∃ s : FsuipcFlightVars DummyUserAdapter,
    Run (Meeting Step Kept) (create DummyUserAdapter.create, []) (s, [(1, transponder)]) := by
  have converted : toFsuipcOffset transponder = .ok ⟨0x354, .word⟩ := by decide
  obtain ⟨s, executed, -⟩ := subscribe_returns DummyUserAdapter.reliable (create_sound DummyUserAdapter.create)
    List.not_mem_nil 0 converted
  have step : Step (create DummyUserAdapter.create, []) (.call (.subscribe transponder 0)) (s, [(1, transponder)]) :=
    .inl ⟨some 1, (ok_bind executed).trans rfl, rfl⟩
  exact ⟨s, (Run.refl _).next ⟨step, List.not_mem_nil, trivial⟩⟩

theorem update_faithful_transponder : ∃ s : FsuipcFlightVars DummyUserAdapter,
    Performed s 1 ⟨0x354, .word⟩ (.dword 0x1200) ∧ ¬ Performed s 1 ⟨0x354, .word⟩ (.dword 0x11200) := by
  obtain ⟨s, run⟩ := transponder_run
  have exact (value : VariableValue) (n : Nat) (denotes : VariableValue.number value = some n) :=
    update_faithful_iff DummyUserAdapter.create ⟨rfl, rfl⟩ s _ run 1 transponder List.mem_cons_self ⟨0x354, .word⟩
      (by decide) value n denotes
  exact ⟨s, (exact _ 0x1200 rfl).mpr (by decide), fun performed => absurd ((exact _ 0x11200 rfl).mp performed) (by decide)⟩

/-- A number for which there is no room is cut without an exception. -/
theorem update_cut : ¬ ∀ (s : FsuipcFlightVars DummyUserAdapter) (live : List (SubscriptionId × VariableId)),
    Run (Meeting Step Kept) (create DummyUserAdapter.create, []) (s, live) → ∀ id var, (id, var) ∈ live → ∀ offset,
      toFsuipcOffset var = .ok offset → ∀ value, (VariableValue.number value).isSome → Performed s id offset value := by
  intro performed
  obtain ⟨s, run⟩ := transponder_run
  have steady : Steady (s, [(1, transponder)]) := run.invariant ⟨create_sound _, rfl, rfl⟩ fun before last =>
    before.step last.1 last.2
  have converted : toFsuipcOffset transponder = .ok ⟨0x354, .word⟩ := by decide
  have cut := performed s _ run 1 transponder List.mem_cons_self _ converted (.dword 0x11200) rfl
  exact absurd ((steady.performed_iff List.mem_cons_self converted rfl).mp cut) (by decide)

end FsuipcFlightVars
end Oac.Fsuipc
