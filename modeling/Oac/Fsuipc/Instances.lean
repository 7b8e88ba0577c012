import Oac.Fsuipc.Adapter

/-!
# Who holds the library

The library is one for the whole process. The first `local_user_adapter` opens it and the
last one closes it, and the first `local_fsuipc` opens it for good. Whatever is made and
destroyed in which order, one of the two holds the library or none.
-/
namespace Oac.Fsuipc
open Base

/-- The statics of `local.cpp`. `alive` counts the adapters that exist, and `singleton`
    says that there is a handler for `local_fsuipc`. -/
structure Instances (σ : Type) where
  library : Library σ
  instanceCount : UInt32
  singleton : Bool
  alive : Nat

namespace Instances
variable {σ : Type} [Image] [Host σ]

/-- A call of the library. -/
def onLibrary {β : Type} (x : EStateM Fault (Library σ) β) : EStateM Fault (Instances σ) β := fun s =>
  match x s.library with
  | .ok b library => .ok b { s with library }
  | .error fault library => .error fault { s with library }

omit [Image] [Host σ] in
theorem after_onLibrary {β : Type} (x : EStateM Fault (Library σ) β) (s : Instances σ) :
    ∃ library, after (onLibrary x s) = { s with library } := by
  unfold onLibrary
  cases x s.library with
  | ok b library => exact ⟨library, rfl⟩
  | error fault library => exact ⟨library, rfl⟩

/-- The constructor of `local_user_adapter`, with the memory of its buffer. -/
def construct (buffer : Nat → UInt8) : EStateM Fault (Instances σ) Unit := do
  if (← get).instanceCount = 0 then onLibrary (Library.open2 0 (some buffer) (65 * 1024))
  modify fun s => { s with instanceCount := s.instanceCount + 1, alive := s.alive + 1 }

omit [Image] [Host σ] in
def copy : EStateM Fault (Instances σ) Unit :=
  modify fun s => { s with instanceCount := s.instanceCount + 1, alive := s.alive + 1 }

omit [Image] [Host σ] in
/-- The destructor of `local_user_adapter`. -/
def destroy : EStateM Fault (Instances σ) Unit := do
  modify fun s => { s with instanceCount := s.instanceCount - 1, alive := s.alive - 1 }
  if (← get).instanceCount = 0 then onLibrary Library.close

omit [Image] [Host σ] in
theorem destroy_eq (s : Instances σ) :
    destroy s = (if s.instanceCount - 1 = 0 then onLibrary Library.close else pure ⟨⟩)
      { s with instanceCount := s.instanceCount - 1, alive := s.alive - 1 } := rfl

/-- The constructor of `local_fsuipc`: `local_fsuipc_handler::init`. -/
def init (buffer : Nat → UInt8) : EStateM Fault (Instances σ) Unit := do
  if !(← get).singleton then
    onLibrary (Library.open2 0 (some buffer) (65 * 1024))
    modify fun s => { s with singleton := true }

/-- `local_fsuipc::read`, with the place of the destination. -/
def readFsuipc (offset length : UInt32) (dst : UInt32) : EStateM Fault (Instances σ) Unit := onLibrary do
  Library.read offset length dst
  let _ ← Library.process

/-- `local_fsuipc::write`, with the memory of the source. -/
def writeFsuipc (offset length : UInt32) (src : Nat → UInt8) : EStateM Fault (Instances σ) Unit := onLibrary do
  Library.write offset length src
  let _ ← Library.process

end Instances

/-- What the process does with adapters and with `local_fsuipc`. -/
inductive Deed where
  | construct (buffer : Nat → UInt8)
  | copy
  | destroy
  | adapter (call : AdapterCall)
  | init (buffer : Nat → UInt8)
  | readFsuipc (offset length dst : UInt32)
  | writeFsuipc (offset length : UInt32) (src : Nat → UInt8)

namespace Deed
variable {σ : Type} [Image] [Host σ]

def run : Deed → EStateM Fault (Instances σ) Unit
  | construct buffer => Instances.construct buffer
  | copy => Instances.copy
  | destroy => Instances.destroy
  | adapter call => Instances.onLibrary do
    let _ ← call.onBytes
  | init buffer => Instances.init buffer
  | readFsuipc offset length dst => Instances.readFsuipc offset length dst
  | writeFsuipc offset length src => Instances.writeFsuipc offset length src

/-- Only what exists is copied, called or destroyed, and the adapters have addresses of
    their own in a memory of 32 bits. -/
def Possible (s : Instances σ) : Deed → Prop
  | construct _ => s.alive + 1 < 2 ^ 32
  | copy => 0 < s.alive ∧ s.alive + 1 < 2 ^ 32
  | destroy => 0 < s.alive
  | adapter _ => 0 < s.alive
  | init _ => True
  | readFsuipc _ _ _ => s.singleton
  | writeFsuipc _ _ _ => s.singleton

/-- The deed is done, however it ends. -/
def Step (s : Instances σ) (deed : Deed) (s' : Instances σ) : Prop := deed.Possible s ∧ s' = after (deed.run s)

end Deed

/-- The library is open for the adapters or for the handler. -/
structure Held {σ : Type} (s : Instances σ) : Prop where
  count : s.instanceCount.toNat = s.alive
  open_iff : s.library.isOpen = true ↔ 0 < s.alive ∨ s.singleton = true
  one : ¬ (0 < s.alive ∧ s.singleton = true)

/-! ## Calls of an open library -/

namespace Library
variable {σ : Type}

/-- The function leaves the library open, or closed. -/
abbrev KeepsOpen {β : Type} (x : EStateM Fault (Library σ) β) : Prop := Keeps (fun m m' => m'.isOpen = m.isOpen) x

theorem keepsOpen_bind {β γ : Type} {x : EStateM Fault (Library σ) β} {f : β → EStateM Fault (Library σ) γ} (first : KeepsOpen x)
    (second : ∀ b, KeepsOpen (f b)) : KeepsOpen (x >>= f) :=
  keeps_bind (fun before behind => behind.trans before) first second

theorem append_keepsOpen (dwSize : UInt32) (header data : List UInt8) : KeepsOpen (append (σ := σ) dwSize header data) := by
  intro m
  unfold append
  split_ifs <;> rfl

variable [Image]

theorem decode_keepsOpen (rounds : Nat) : KeepsOpen (decode (σ := σ) rounds) := by
  induction rounds with
  | zero => exact fun m => rfl
  | succ rounds ih =>
    intro m
    rw [decode, get_bind]
    split_ifs
    · rfl
    · rfl
    · rfl
    · exact (keepsOpen_bind ih (fun rest m => rfl) _).trans (copies_isOpen m _)
    · exact ih _
    · rfl

theorem collect_keepsOpen : KeepsOpen (collect (σ := σ)) := by
  unfold collect
  refine keepsOpen_bind (fun m => rfl) fun m => keepsOpen_bind (decode_keepsOpen _) fun copies => keepsOpen_bind ?_ fun _ m => rfl
  exact fun m => rfl

variable [Host σ]

theorem process_keepsOpen : KeepsOpen (process (σ := σ)) := by
  intro m
  unfold process
  dsimp only
  split_ifs
  · rfl
  · rfl
  · rfl
  · rfl
  · exact collect_keepsOpen _

omit [Image] [Host σ] in
/-- The library is open after a success and closed after a failure. -/
def Settles {β : Type} : EStateM.Result Fault (Library σ) β → Prop
  | .ok _ m => m.isOpen = true
  | .error _ m => m.isOpen = false

section
variable {β γ : Type} {m : Library σ} {x : EStateM Fault (Library σ) β}

omit [Image] [Host σ] in
theorem settles_orClose (keeps : KeepsOpen x) (open_ : m.isOpen = true) : Settles (orClose x m) := by
  have kept := keeps m
  cases executed : x m with
  | ok b m' =>
    rw [executed] at kept
    rw [orClose_ok executed]
    exact kept.trans open_
  | error fault m' =>
    rw [orClose_error executed]
    rfl

omit [Image] [Host σ] in
theorem settles_bind {f : β → EStateM Fault (Library σ) γ} (first : Settles (x m))
    (second : ∀ b {m' : Library σ}, m'.isOpen = true → Settles (f b m')) : Settles ((x >>= f) m) := by
  cases executed : x m with
  | ok b m' =>
    rw [executed] at first
    rw [ok_bind executed]
    exact second b first
  | error fault m' =>
    rw [executed] at first
    rw [error_bind executed]
    exact first

end

/-- `FSUIPC_Open2` ends with an open library or with a closed one. -/
theorem open2_settles {m : Library σ} (closed : m.isOpen = false) (dwFSReq : UInt32) (pMem : Option (Nat → UInt8)) (dwSize : UInt32) :
    Settles (open2 dwFSReq pMem dwSize m) := by
  have versions : KeepsOpen (checkVersions (σ := σ) dwFSReq) := by
    intro m
    unfold checkVersions
    dsimp only
    split_ifs <;> rfl
  unfold open2
  rw [if_neg (by simp [closed])]
  cases pMem with
  | none => exact closed
  | some mem =>
    dsimp only
    split_ifs
    · exact closed
    · exact closed
    · refine settles_bind ?_ fun _ m open_ => settles_bind (settles_orClose process_keepsOpen open_) fun _ m open_ =>
        settles_orClose versions open_
      refine settles_bind (settles_orClose (append_keepsOpen _ _ _) rfl) fun _ m open_ =>
        settles_bind (settles_orClose (append_keepsOpen _ _ _) open_) fun _ m open_ => settles_orClose (append_keepsOpen _ _ _) open_

theorem open2_already {m : Library σ} (open_ : m.isOpen = true) (dwFSReq : UInt32) (pMem : Option (Nat → UInt8)) (dwSize : UInt32) :
    open2 dwFSReq pMem dwSize m = .error (.code errOpen) m := by
  unfold open2
  exact if_pos open_

theorem onBytes_keepsOpen (call : AdapterCall) : KeepsOpen (call.onBytes (σ := σ)) := by
  cases call with
  | issue request =>
    refine keepsOpen_bind ?_ fun _ m => rfl
    cases request with
    | read offset pointer => exact append_keepsOpen _ _ _
    | write valuedOffset => exact append_keepsOpen _ _ _
  | process => exact keepsOpen_bind process_keepsOpen fun _ m => rfl

/-! ## What an open library says -/

omit [Image] [Host σ] in
/-- If the function fails, then in a way that meets a condition. -/
def Raises {β : Type} (P : Fault → Prop) : EStateM.Result Fault (Library σ) β → Prop
  | .ok _ _ => True
  | .error fault _ => P fault

omit [Image] [Host σ] in
theorem raises_bind {β γ : Type} {P : Fault → Prop} {m : Library σ} {x : EStateM Fault (Library σ) β}
    {f : β → EStateM Fault (Library σ) γ} (first : Raises P (x m)) (second : ∀ b m', Raises P (f b m')) : Raises P ((x >>= f) m) := by
  cases executed : x m with
  | ok b m' =>
    rw [ok_bind executed]
    exact second b m'
  | error fault m' =>
    rw [executed] at first
    rw [error_bind executed]
    exact first

omit [Image] [Host σ] in
theorem Raises.mono {β : Type} {P Q : Fault → Prop} {result : EStateM.Result Fault (Library σ) β} (raises : Raises P result)
    (weaker : ∀ {fault}, P fault → Q fault) : Raises Q result := by
  cases result with
  | ok b m' => trivial
  | error fault m' => exact weaker raises

omit [Host σ] in
/-- The walk over the records fails only where it leaves the memory. -/
theorem decode_raises (rounds : Nat) (m : Library σ) : Raises (· = .overrun) (decode rounds m) := by
  induction rounds generalizing m with
  | zero => rfl
  | succ rounds ih =>
    rw [decode, get_bind]
    split_ifs
    · rfl
    · trivial
    · rfl
    · refine raises_bind (by trivial) fun _ m' => raises_bind (ih m') fun _ _ => by trivial
    · exact ih _
    · trivial

omit [Host σ] in
theorem collect_raises (m : Library σ) : Raises (· = .overrun) (collect m) := by
  unfold collect
  rw [get_bind]
  exact raises_bind (decode_raises _ _) fun _ _ => trivial

/-- An open library never says that it is not. -/
theorem onBytes_raises {m : Library σ} (open_ : m.isOpen = true) (call : AdapterCall) :
    Raises (· ≠ .code ModuleUser.errNotOpen) (call.onBytes m) := by
  have opened : ¬ (!m.isOpen) = true := by simp [open_]
  have outside : Fault.overrun ≠ .code ModuleUser.errNotOpen := fun same => Fault.noConfusion same
  cases call with
  | issue request =>
    refine raises_bind ?_ fun _ _ => trivial
    obtain ⟨dwSize, -, same⟩ := AdapterCall.ask_eq (σ := σ) request
    rw [same, append, if_neg opened]
    split_ifs
    · exact (by decide : Fault.code ModuleUser.errSize ≠ .code ModuleUser.errNotOpen)
    · exact outside
    · trivial
  | process =>
    refine raises_bind ?_ fun _ _ => trivial
    unfold process
    rw [if_neg opened]
    dsimp only
    split_ifs
    · exact (by decide : Fault.code ModuleUser.errNoData ≠ .code ModuleUser.errNotOpen)
    · exact outside
    · exact (by decide : Fault.code ModuleUser.errData ≠ .code ModuleUser.errNotOpen)
    · exact (collect_raises _).mono fun overrun => overrun ▸ outside

end Library

/-! ## Runs -/

namespace Held
variable {σ : Type} [Image] [Host σ] {s s' : Instances σ} {deed : Deed}

omit [Image] [Host σ] in
/-- A call of the library that leaves it open. -/
theorem onLibrary {β : Type} {x : EStateM Fault (Library σ) β} (keeps : Library.KeepsOpen x) (held : Held s) :
    Held (after (Instances.onLibrary x s)) := by
  have kept := keeps s.library
  unfold Instances.onLibrary
  cases executed : x s.library with
  | ok b library =>
    rw [executed] at kept
    exact ⟨held.count, kept ▸ held.open_iff, held.one⟩
  | error fault library =>
    rw [executed] at kept
    exact ⟨held.count, kept ▸ held.open_iff, held.one⟩

omit [Image] [Host σ] in
theorem counted (held : Held s) (room : s.alive + 1 < 2 ^ 32) : (s.instanceCount + 1).toNat = s.alive + 1 := by
  rw [UInt32.toNat_add, held.count]
  exact Nat.mod_eq_of_lt room

omit [Image] [Host σ] in
theorem none_iff (held : Held s) : s.instanceCount = 0 ↔ s.alive = 0 := by
  rw [← held.count, ← UInt32.toNat_inj]
  rfl

omit [Image] [Host σ] in
/-- A further adapter while there is one. -/
theorem more (held : Held s) (some : 0 < s.alive) (room : s.alive + 1 < 2 ^ 32) :
    Held { s with instanceCount := s.instanceCount + 1, alive := s.alive + 1 } where
  count := held.counted room
  open_iff := by
    rw [held.open_iff]
    simp [some]
  one := by
    rintro ⟨-, singleton⟩
    exact held.one ⟨some, singleton⟩

/-- The library is opened for the one who needs it. -/
theorem opening (s : Instances σ) (buffer : Nat → UInt8) (closed : s.library.isOpen = false) :
    (∃ library, Instances.onLibrary (Library.open2 0 (some buffer) (65 * 1024)) s = .ok () { s with library } ∧ library.isOpen = true) ∨
      ∃ fault library, Instances.onLibrary (Library.open2 0 (some buffer) (65 * 1024)) s = .error fault { s with library } ∧
        library.isOpen = false := by
  have settles := Library.open2_settles closed 0 (some buffer) (65 * 1024)
  unfold Instances.onLibrary
  cases opened : Library.open2 0 (some buffer) (65 * 1024) s.library with
  | ok u library =>
    rw [opened] at settles
    exact .inl ⟨library, rfl, settles⟩
  | error fault library =>
    rw [opened] at settles
    exact .inr ⟨fault, library, rfl, settles⟩

theorem refused (s : Instances σ) (buffer : Nat → UInt8) (open_ : s.library.isOpen = true) :
    Instances.onLibrary (Library.open2 0 (some buffer) (65 * 1024)) s = .error (.code Library.errOpen) s := by
  rw [Instances.onLibrary, Library.open2_already open_]

omit [Image] [Host σ] in
/-- A library that was not held and could not be opened. -/
theorem unopened (held : Held s) (closed : s.library.isOpen = false) {library : Library σ} (failed : library.isOpen = false) :
    Held { s with library } where
  count := held.count
  open_iff := by
    rw [← held.open_iff, closed]
    exact failed ▸ Iff.rfl
  one := held.one

theorem construct (held : Held s) (buffer : Nat → UInt8) (room : s.alive + 1 < 2 ^ 32) :
    Held (after (Instances.construct buffer s)) := by
  unfold Instances.construct
  rw [get_bind]
  by_cases zero : s.instanceCount = 0
  · have none := held.none_iff.mp zero
    rw [if_pos zero]
    cases open_ : s.library.isOpen with
    | true =>
      rw [error_bind (refused s buffer open_)]
      exact held
    | false =>
      have free : ¬ s.singleton = true := by simpa [open_, none] using held.open_iff
      rcases opening s buffer open_ with ⟨library, opened, now⟩ | ⟨fault, library, failed, still⟩
      · rw [ok_bind opened]
        exact ⟨held.counted room, iff_of_true now (.inl (Nat.succ_pos _)), fun both => free both.2⟩
      · rw [error_bind failed]
        exact held.unopened open_ still
  · rw [if_neg zero]
    exact held.more (Nat.pos_of_ne_zero (mt held.none_iff.mpr zero)) room

theorem init (held : Held s) (buffer : Nat → UInt8) : Held (after (Instances.init buffer s)) := by
  unfold Instances.init
  rw [get_bind]
  by_cases singleton : s.singleton = true
  · rw [if_neg (by simp [singleton])]
    exact held
  · rw [if_pos (by simp [singleton])]
    cases open_ : s.library.isOpen with
    | true =>
      rw [error_bind (refused s buffer open_)]
      exact held
    | false =>
      have none : ¬ 0 < s.alive := fun some => absurd (held.open_iff.mpr (.inl some)) (by simp [open_])
      rcases opening s buffer open_ with ⟨library, opened, now⟩ | ⟨fault, library, failed, still⟩
      · rw [ok_bind opened]
        exact ⟨held.count, iff_of_true now (.inr rfl), fun both => none both.1⟩
      · rw [error_bind failed]
        exact held.unopened open_ still

omit [Image] [Host σ] in
theorem destroy (held : Held s) (some : 0 < s.alive) : Held (after (Instances.destroy s)) := by
  have bound := s.instanceCount.toNat_lt
  have count := held.count
  have fewer : (s.instanceCount - 1).toNat = s.alive - 1 := by
    rw [UInt32.toNat_sub_of_le _ _ (by rw [UInt32.le_iff_toNat_le, count]; exact some), count]
    rfl
  have free : ¬ s.singleton = true := fun singleton => held.one ⟨some, singleton⟩
  rw [Instances.destroy_eq]
  by_cases last : s.instanceCount - 1 = 0
  · have none : s.alive - 1 = 0 := by
      rw [← fewer, last]
      rfl
    rw [if_pos last]
    refine ⟨fewer, iff_of_false Bool.false_ne_true ?_, fun both => free both.2⟩
    rintro (some | singleton)
    · exact some.ne' none
    · exact free singleton
  · have others : 0 < s.alive - 1 := by
      rw [← fewer]
      exact Nat.pos_of_ne_zero fun zero => last (UInt32.toNat_inj.mp zero)
    rw [if_neg last]
    exact ⟨fewer, iff_of_true (held.open_iff.mpr (.inl some)) (.inl others), fun both => free both.2⟩

theorem step (held : Held s) (step : deed.Step s s') : Held s' := by
  obtain ⟨possible, rfl⟩ := step
  cases deed with
  | construct buffer => exact held.construct buffer possible
  | copy => exact held.more possible.1 possible.2
  | destroy => exact held.destroy possible
  | adapter call => exact held.onLibrary (Library.keepsOpen_bind (Library.onBytes_keepsOpen call) fun _ m => rfl)
  | init buffer => exact held.init buffer
  | readFsuipc offset length dst =>
    exact held.onLibrary (Library.keepsOpen_bind (Library.append_keepsOpen _ _ _) fun _ =>
      Library.keepsOpen_bind Library.process_keepsOpen fun _ m => rfl)
  | writeFsuipc offset length src =>
    exact held.onLibrary (Library.keepsOpen_bind (Library.append_keepsOpen _ _ _) fun _ =>
      Library.keepsOpen_bind Library.process_keepsOpen fun _ m => rfl)

end Held

namespace Deed
variable {σ : Type} [Image] [Host σ] {s s' : Instances σ}

/-- In every run, from when there is no adapter and no handler, the library is open exactly
    for the adapters that exist or for the handler, and never for both. An adapter that
    exists is never told that the library is not open, and while it exists `local_fsuipc`
    cannot be made. -/
theorem held_of_run (closed : s.library.isOpen = false) (count : s.instanceCount = 0) (alive : s.alive = 0)
    (singleton : s.singleton = false) (run : Run Step s s') :
    Held s' ∧ (0 < s'.alive → (∀ (call : AdapterCall) s'', (adapter call).run s' ≠ .error (.code ModuleUser.errNotOpen) s'') ∧
      ∀ buffer, (init buffer).run s' = .error (.code Library.errOpen) s') := by
  have held : Held s' := by
    refine run.invariant ⟨?_, ?_, ?_⟩ Held.step
    · rw [count, alive]
      rfl
    · simp [closed, alive, singleton]
    · simp [alive]
  refine ⟨held, fun some => ⟨fun call s'' failed => ?_, fun buffer => ?_⟩⟩
  · have raises := Library.raises_bind (f := fun _ => pure ()) (Library.onBytes_raises (held.open_iff.mpr (.inl some)) call)
      fun _ _ => trivial
    have same : (adapter call).run s' = Instances.onLibrary (do let _ ← call.onBytes) s' := rfl
    rw [same, Instances.onLibrary] at failed
    split at failed
    · cases failed
    · rename_i told
      cases failed
      rw [told] at raises
      exact raises rfl
  · have free : ¬ s'.singleton = true := fun singleton => held.one ⟨some, singleton⟩
    have refused := Held.refused s' buffer (held.open_iff.mpr (.inl some))
    show Instances.init buffer s' = _
    unfold Instances.init
    rw [get_bind, if_pos (by simp [free])]
    exact error_bind refused

end Deed

/-- An adapter, a copy of it, an access, and the destruction of one of the two. -/
theorem Deed.copied_run : ∃ library, Run Step ⟨MemoryHost.closedLibrary, 0, false, 0⟩
    (⟨library, 1, false, 1⟩ : Instances (Nat → UInt8)) := by
  obtain ⟨library, opened⟩ := Library.opens_memory
  let start : Instances (Nat → UInt8) := ⟨MemoryHost.closedLibrary, 0, false, 0⟩
  have called : Instances.onLibrary (Library.open2 0 (some fun _ => 0) (65 * 1024)) start = .ok () ⟨library, 0, false, 0⟩ := by
    rw [Instances.onLibrary, opened]
  have constructed : (construct fun _ => 0).run start = .ok () ⟨library, 1, false, 1⟩ := by
    show Instances.construct _ _ = _
    unfold Instances.construct
    rw [get_bind, if_pos rfl, ok_bind called]
    rfl
  let access : AdapterCall := .issue (.read ⟨0x200, .word⟩ 0x500000)
  obtain ⟨library', accessed⟩ := Instances.after_onLibrary (do let _ ← access.onBytes) (⟨library, 2, false, 2⟩ : Instances (Nat → UInt8))
  have first : Step start (construct fun _ => 0) ⟨library, 1, false, 1⟩ := ⟨by show 0 + 1 < 2 ^ 32; decide, by rw [constructed]; rfl⟩
  have second : Step ⟨library, 1, false, 1⟩ copy ⟨library, 2, false, 2⟩ := ⟨⟨Nat.one_pos, by show 1 + 1 < 2 ^ 32; decide⟩, rfl⟩
  have third : Step ⟨library, 2, false, 2⟩ (adapter access) ⟨library', 2, false, 2⟩ := ⟨Nat.two_pos, accessed.symm⟩
  have fourth : Step ⟨library', 2, false, 2⟩ destroy ⟨library', 1, false, 1⟩ := by
    refine ⟨Nat.two_pos, ?_⟩
    show _ = after (Instances.destroy _)
    rw [Instances.destroy_eq]
    simp only [show (2 : UInt32) - 1 = 1 by decide]
    rw [if_neg (by decide)]
    rfl
  exact ⟨library', ((((Run.refl _).next first).next second).next third).next fourth⟩

/-- The other one still holds the library. -/
theorem Deed.held_of_run_memory : ∃ s : Instances (Nat → UInt8),
    Run Step ⟨MemoryHost.closedLibrary, 0, false, 0⟩ s ∧ s.alive = 1 ∧ Held s ∧
    (init fun _ => 0).run s = .error (.code Library.errOpen) s := by
  obtain ⟨library, run⟩ := copied_run
  have held := Deed.held_of_run rfl rfl rfl rfl run
  exact ⟨_, run, rfl, held.1, (held.2 Nat.one_pos).2 _⟩

end Oac.Fsuipc
