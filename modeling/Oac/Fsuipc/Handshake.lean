import Oac.Fsuipc.MemoryHost

/-!
# Opening the library, and runs of its calls

`FSUIPC_Open2` asks for the versions of FSUIPC and of the simulator. Every run of calls
keeps the requests in the view, from opening to closing, and leaves the memory only by a
request whose room wraps.
-/
namespace Oac.Fsuipc
open Base
namespace Library
variable {σ : Type}

/-! ## The requests of the handshake -/

section
variable {m : Library σ} {β : Type} {x : EStateM Fault (Library σ) β}

theorem orClose_ok {m' : Library σ} {b : β} (executed : x m = .ok b m') : orClose x m = .ok b m' := by
  rw [orClose, executed]

theorem orClose_error {m' : Library σ} {fault : Fault} (raised : x m = .error fault m') :
    orClose x m = .error fault { m' with hWnd := false, isOpen := false } := by
  rw [orClose, raised]

end

variable [Image]

/-- The requests of `FSUIPC_Open2`, as records. -/
def greeting : List Record :=
  [.read 0x3304 Image.version (List.replicate 4 0), .read 0x3308 Image.fsVersion (List.replicate 4 0),
    .write 0x330a [0xd1, 0x07]]

/-- The library with the records of the handshake. -/
def greeted (m : Library σ) : Library σ := greeting.foldl (fun m record => m.put record) m

/-- The handshake needs 66 bytes. -/
theorem greet_eq {m : Library σ} (open_ : m.isOpen) (holding : Holding [] m) (enough : 32 ≤ m.max.toNat) :
    (66 ≤ m.max.toNat ∧ greet m = .ok () (greeted m) ∧ Holding greeting (greeted m)) ∨
      (m.max.toNat < 66 ∧ ∃ m', greet m = .error (.code ModuleUser.errSize) m' ∧ m'.isOpen = false ∧ m'.host = m.host) := by
  have next : m.next = 4 := holding.next
  let first : Record := .read 0x3304 Image.version (List.replicate 4 0)
  let second : Record := .read 0x3308 Image.fsVersion (List.replicate 4 0)
  let third : Record := .write 0x330a [0xd1, 0x07]
  have length : first.bytes.length = 20 := rfl
  have length' : second.bytes.length = 20 := rfl
  have length'' : third.bytes.length = 14 := rfl
  have open₁ : (m.put first).isOpen := open_
  have open₂ : ((m.put first).put second).isOpen := open_
  have next₁ : (m.put first).next = 24 := by rw [put_next, next, length]
  have next₂ : ((m.put first).put second).next = 44 := by rw [put_next, next₁, length']
  have max₁ : (m.put first).max = m.max := rfl
  have max₂ : ((m.put first).put second).max = m.max := rfl
  have asked : greet m = (do orClose (append 4 second.header second.data); orClose (append 2 third.header third.data)) (m.put first) := by
    rw [greet, read_eq, read_eq, write_eq]
    exact ok_bind (orClose_ok (append_put open_ holding first 4 rfl (by omega)))
  have held₁ := holding.put first (by omega)
  by_cases room : m.max.toNat < 52
  · have full := append_full open₁ held₁ second 4 rfl (by rw [max₁]; omega) (by omega)
    exact .inr ⟨by omega, _, asked.trans (error_bind (orClose_error full)), rfl, rfl⟩
  · have put₂ := append_put open₁ held₁ second 4 rfl (by rw [max₁]; omega)
    have held₂ := held₁.put second (by rw [max₁]; omega)
    have asked' := asked.trans (ok_bind (orClose_ok put₂))
    by_cases room' : m.max.toNat < 66
    · have full := append_full open₂ held₂ third 2 rfl (by rw [max₂]; omega) (by omega)
      exact .inr ⟨room', _, asked'.trans (orClose_error full), rfl, rfl⟩
    · have put₃ := append_put open₂ held₂ third 2 rfl (by rw [max₂]; omega)
      exact .inl ⟨by omega, asked'.trans (orClose_ok put₃), held₂.put third (by rw [max₂]; omega)⟩

/-! ## Runs -/

omit [Image] in
/-- While the library is open, requests are in the view. -/
def Sound (m : Library σ) : Prop := m.isOpen → ∃ records, Holding records m

omit [Image] in
/-- Nothing behind the end of the memory was accessed. -/
def Fine {β : Type} : EStateM.Result Fault (Library σ) β → Prop
  | .ok _ m => Sound m
  | .error (.code _) m => Sound m
  | .error .overrun _ => False

section
variable {β γ : Type} {m : Library σ} {x : EStateM Fault (Library σ) β}

omit [Image] in
theorem fine_orClose (fine : Fine (x m)) : Fine (orClose x m) := by
  cases executed : x m with
  | ok b m' =>
    rw [orClose_ok executed, ← executed]
    exact fine
  | error fault m' =>
    rw [executed] at fine
    rw [orClose_error executed]
    cases fault with
    | code result => exact nofun
    | overrun => exact fine

omit [Image] in
theorem fine_bind {f : β → EStateM Fault (Library σ) γ} (first : Fine (x m)) (second : ∀ {b m'}, x m = .ok b m' → Fine (f b m')) :
    Fine ((x >>= f) m) := by
  cases executed : x m with
  | ok b m' =>
    rw [ok_bind executed]
    exact second executed
  | error fault m' =>
    rw [error_bind executed]
    rw [executed] at first
    cases fault with
    | code result => exact first
    | overrun => exact first

omit [Image] in
theorem Fine.not_overrun (fine : Fine (x m)) (m' : Library σ) : x m ≠ .error .overrun m' := by
  intro overrun
  rw [overrun] at fine
  exact fine

end

section
variable {records : List Record} {m : Library σ}

omit [Image] in
theorem Holding.sound (holding : Holding records m) : Sound m := fun _ => ⟨records, holding⟩

omit [Image] in
/-- A request is made, refused, or leaves the memory because its room wraps. -/
theorem append_fine (sound : Sound m) (record : Record) (dwSize : UInt32) (size : record.data.length = dwSize.toNat) :
    (¬ Wraps record.header.length dwSize m ∧ Fine (append dwSize record.header record.data m)) ∨
      (Wraps record.header.length dwSize m ∧ append dwSize record.header record.data m = .error .overrun m) := by
  by_cases open_ : m.isOpen
  · obtain ⟨records, holding⟩ := sound open_
    have room := holding.small
    rcases append_cases open_ holding dwSize record.data record.header_short with ⟨fits, -⟩ | ⟨-, bounded, refused⟩ | wraps
    · have length := record.bytes_length
      refine .inl ⟨by rintro ⟨-, wraps, -⟩; omega, ?_⟩
      rw [append_put open_ holding record dwSize size.symm (by omega)]
      exact (holding.put record (by omega)).sound
    · rw [refused]
      exact .inl ⟨bounded, holding.sound⟩
    · exact .inr wraps
  · refine .inl ⟨fun wraps => open_ wraps.1, ?_⟩
    rw [append, if_pos (by simpa using open_)]
    exact sound

variable [Host σ]

theorem process_fine (respectful : Respectful σ) (sound : Sound m) : Fine (process m) := by
  by_cases open_ : m.isOpen
  · obtain ⟨records, holding⟩ := sound open_
    by_cases none : records = []
    · subst none
      rw [process_none open_ holding]
      exact sound
    · obtain ⟨result, view, host, sent⟩ : ∃ result view host,
          Host.sendMessage (UInt32.ofNat (m.next - 4)) (message m) m.host = (result, view, host) := ⟨_, _, _, rfl⟩
      by_cases success : result = messageSuccess
      · subst success
        obtain ⟨records', answers, answered⟩ := respectful holding.message holding.size sent
        rw [process_answered open_ holding none sent answers answered]
        exact Holding.sound (holding.emptied (by rfl) (by simp))
      · rw [process_refused open_ holding none sent success]
        exact Holding.sound (holding.emptied (by rfl) (by rfl))
  · rw [process, if_pos (by simpa using open_)]
    exact sound

omit [Image] [Host σ] in
theorem checkVersions_fine (dwFSReq : UInt32) (sound : Sound m) : Fine (checkVersions dwFSReq m) := by
  have kept : Sound { m with fsVersion := m.fsVersion &&& 0xffff } := by
    intro open_
    obtain ⟨records, holding⟩ := sound open_
    exact ⟨records, holding.lies, holding.next, holding.room, holding.small⟩
  unfold checkVersions
  dsimp only
  split_ifs
  · exact sound
  · exact kept
  · exact kept

theorem connect_fine (respectful : Respectful σ) (dwFSReq : UInt32) (open_ : m.isOpen) (holding : Holding [] m)
    (enough : 32 ≤ m.max.toNat) : Fine (connect dwFSReq m) := by
  have asked : Fine (greet m) := by
    rcases greet_eq open_ holding enough with ⟨-, greeted, held⟩ | ⟨-, m', refused, closed, -⟩
    · rw [greeted]
      exact held.sound
    · rw [refused]
      exact fun open_ => absurd (closed ▸ open_) Bool.false_ne_true
  refine fine_bind asked fun {u m₁} greeted => ?_
  rw [greeted] at asked
  have answered := fine_orClose (process_fine respectful asked)
  refine fine_bind answered fun {copies m₂} processed => ?_
  rw [processed] at answered
  exact fine_orClose (checkVersions_fine dwFSReq answered)

theorem open2_fine (respectful : Respectful σ) (dwFSReq : UInt32) (pMem : Option (Nat → UInt8)) (dwSize : UInt32)
    (sound : Sound m) : Fine (open2 dwFSReq pMem dwSize m) := by
  unfold open2
  by_cases open_ : m.isOpen
  · rw [if_pos open_]
    exact sound
  · rw [if_neg open_]
    cases pMem with
    | none => exact sound
    | some mem =>
      dsimp only
      split_ifs with short window
      · exact sound
      · exact fun opened => absurd opened open_
      · have least : 32 ≤ dwSize.toNat := by simpa [UInt32.lt_iff_toNat_lt] using short
        have size : (min dwSize maxSize).toNat = min dwSize.toNat 0x7F00 := by
          rw [UInt32.toNat_min]
          rfl
        refine connect_fine respectful dwFSReq rfl ⟨Lies.nil _ _, rfl, ?_, ?_⟩ ?_
        · dsimp only
          omega
        · dsimp only
          omega
        · dsimp only
          omega

end
end Library

namespace Call
open Library

section
variable {σ : Type} [Image] [Host σ] {m : Library σ}

/-- The call is a request whose room wraps. -/
def Wraps : Call → Library σ → Prop
  | .read _ dwSize _, m => Library.Wraps 16 dwSize m
  | .readSpecial _ dwSize _ _, m => Library.Wraps 16 dwSize m
  | .write _ dwSize _, m => Library.Wraps 12 dwSize m
  | _, _ => False

/-- The call accesses what is behind the end of the memory. -/
def Overruns (call : Call) (m : Library σ) : Prop := ∃ m', call.run m = .error .overrun m'

omit [Image] [Host σ] in
theorem request_fine {x : EStateM Fault (Library σ) Unit} {wraps : Prop}
    (alternatives : (¬ wraps ∧ Fine (x m)) ∨ (wraps ∧ x m = .error .overrun m)) :
    (wraps → ∃ m', (do x; pure [] : EStateM Fault (Library σ) (List Copy)) m = .error .overrun m') ∧
      (¬ wraps → Fine ((do x; pure [] : EStateM Fault (Library σ) (List Copy)) m)) := by
  rcases alternatives with ⟨bounded, fine⟩ | ⟨wrapped, overrun⟩
  · refine ⟨fun wrapped => absurd wrapped bounded, fun _ => fine_bind fine fun {u m'} executed => ?_⟩
    rw [executed] at fine
    exact fine
  · exact ⟨fun _ => ⟨m, error_bind overrun⟩, fun bounded => absurd wrapped bounded⟩

theorem run_cases (respectful : Respectful σ) (sound : m.Sound) (call : Call) :
    (call.Wraps m → call.Overruns m) ∧ (¬ call.Wraps m → Fine (call.run m)) := by
  cases call with
  | open2 dwFSReq pMem dwSize =>
    have fine := open2_fine respectful dwFSReq pMem dwSize sound
    refine ⟨False.elim, fun _ => fine_bind fine fun {u m'} executed => ?_⟩
    rw [executed] at fine
    exact fine
  | read dwOffset dwSize pDest =>
    have requested := append_fine sound (.read dwOffset pDest (List.replicate dwSize.toNat 0)) dwSize List.length_replicate
    rw [← read_eq] at requested
    exact request_fine requested
  | readSpecial dwOffset dwSize pDest dest =>
    obtain ⟨record, size, header, same⟩ := readCommon_eq (σ := σ) true dwOffset dwSize pDest dest
    have requested := append_fine sound record dwSize size
    rw [header, ← same] at requested
    exact request_fine requested
  | write dwOffset dwSize source =>
    have requested := append_fine sound (.write dwOffset (region source 0 dwSize.toNat)) dwSize (region_length _ _ _)
    rw [← write_eq] at requested
    exact request_fine requested
  | process => exact ⟨False.elim, fun _ => process_fine respectful sound⟩
  | close => exact ⟨False.elim, fun _ open_ => absurd open_ Bool.false_ne_true⟩

theorem overruns_iff (respectful : Respectful σ) (sound : m.Sound) (call : Call) : call.Overruns m ↔ call.Wraps m := by
  obtain ⟨overruns, fine⟩ := run_cases respectful sound call
  refine ⟨?_, overruns⟩
  rintro ⟨m', overrun⟩
  by_contra bounded
  exact (fine bounded).not_overrun m' overrun

theorem sound_after (respectful : Respectful σ) (sound : m.Sound) (call : Call) (bounded : ¬ call.Wraps m) :
    Library.Sound (after (call.run m)) := by
  have fine := (run_cases respectful sound call).2 bounded
  cases executed : call.run m with
  | ok copies m' =>
    rw [executed] at fine
    exact fine
  | error fault m' =>
    rw [executed] at fine
    cases fault with
    | code result => exact fine
    | overrun => exact fine.elim

/-- A run of calls on a library that was closed leaves the memory exactly when a request is
    made whose room wraps. -/
theorem within_iff (respectful : Respectful σ) (calls : List Call) (closed : m.isOpen = false) :
    Along Call.run (fun m call => ¬ call.Overruns m) calls m ↔ Along Call.run (fun m call => ¬ call.Wraps m) calls m := by
  refine along_congr (I := Library.Sound) ?_ ?_ calls ?_
  · intro m call sound
    rw [overruns_iff respectful sound call]
  · intro m call sound within
    rw [overruns_iff respectful sound call] at within
    exact sound_after respectful sound call within
  · exact fun open_ => absurd (closed ▸ open_) Bool.false_ne_true

end

theorem within_iff_memory : Along Call.run (fun m call => ¬ call.Overruns m)
      [.open2 0 (some fun _ => 0) 0x1000, .write 0x200 4 fun _ => 1, .process, .read 0x200 0xfffffff0 0x500000] MemoryHost.closedLibrary ↔
    Along Call.run (fun m call => ¬ call.Wraps m)
      [.open2 0 (some fun _ => 0) 0x1000, .write 0x200 4 fun _ => 1, .process, .read 0x200 0xfffffff0 0x500000] MemoryHost.closedLibrary :=
  within_iff MemoryHost.respectful _ rfl

end Call
end Oac.Fsuipc
