import Oac.Base.Run
import Oac.Buffer.Bounds
import Oac.Cockpit.Cycle

/-!
# Failures of `sync_down`

FSUIPC may fail to open and at each of its reads and writes. A `sync_down` that fails while
it opens FSUIPC leaves the buffer as it was. One that fails later has swapped the halves of
the buffer, or made a new one, and the next poll compares with the wrong half: the events
are the same only where the halves agree on all values (`sync_failure_iff`).
-/
namespace Oac.Cockpit
open Base FsuipcCockpitBack

/-! ## FSUIPC that fails -/

/-- A memory with the exceptions to come: `refusal` is that of `create`, and `answers` are
    those of the reads and writes, in their order. None is left at the end of the list. -/
structure Faulty where
  cells : Cells
  refusal : Option Exception
  answers : List (Option Exception)

namespace Faulty

def answer : EStateM Exception Faulty Unit := fun f =>
  match f.answers with
  | [] => .ok () f
  | none :: answers => .ok () { f with answers }
  | some e :: answers => .error e { f with answers }

instance : LocalFsuipc Faulty where
  create := fun f =>
    match f.refusal with
    | none => .ok () f
    | some e => .error e f
  read offset length := do
    answer
    pure (region (← get).cells offset length)
  write src offset := do
    answer
    modify fun f => { f with cells := patch f.cells offset src }

theorem read_cases (f : Faulty) (offset length : Nat) :
    (∃ f', LocalFsuipc.read offset length f = .ok (region f.cells offset length) f' ∧ f'.cells = f.cells ∧
      (f.answers = [] → f' = f)) ∨
    (f.answers ≠ [] ∧ ∃ e f', (LocalFsuipc.read offset length f : EStateM.Result Exception Faulty (List UInt8)) = .error e f') := by
  obtain ⟨cells, refusal, answers⟩ := f
  cases answers with
  | nil => exact .inl ⟨_, rfl, rfl, fun _ => rfl⟩
  | cons answer answers =>
    cases answer with
    | none => exact .inl ⟨_, rfl, rfl, nofun⟩
    | some e => exact .inr ⟨nofun, e, _, rfl⟩

theorem write_cases (f : Faulty) (src : List UInt8) (offset : Nat) :
    (∃ f', (LocalFsuipc.write src offset f : EStateM.Result Exception Faulty Unit) = .ok () f' ∧
      f'.cells = patch f.cells offset src) ∨
    (f.answers ≠ [] ∧ ∃ e f', (LocalFsuipc.write src offset f : EStateM.Result Exception Faulty Unit) = .error e f') := by
  obtain ⟨cells, refusal, answers⟩ := f
  cases answers with
  | nil => exact .inl ⟨_, rfl, rfl⟩
  | cons answer answers =>
    cases answer with
    | none => exact .inl ⟨_, rfl, rfl⟩
    | some e => exact .inr ⟨nofun, e, _, rfl⟩

end Faulty

/-- A range of the block may be copied to. -/
theorem Shows.copyFailed {buff : Buffer} {m m' : Cells} {σ : Type} {read : Nat → Nat → EStateM Exception σ (List UInt8)}
    {e : Exception} {s s' : σ} (shows' : Shows buff m m') (raised : read 0x5600 512 s = .error e s') :
    RandomAccess.copy read 0x5600 0x5600 512 buff s = .error e s' := by
  obtain ⟨⟨backed, capacity, offsetShift⟩, -⟩ := shows'
  have access := buff.current.access (buff.current.backedBuffer.access (buff.current.shift 0x5600) 512)
  refine error_bind (access.copyFailed ⟨?_, ?_⟩ raised)
  · rw [ShiftedBuffer.OutOfBounds, ShiftedBuffer.shift, capacity, offsetShift]
    decide
  · rw [ShiftedBuffer.shift, offsetShift]
    refine FixedBuffer.not_outOfBounds ?_
    rw [FixedBuffer.capacity, backed, region_length]
    decide

namespace FsuipcCockpitBack
variable {b b' c c' : FsuipcCockpitBack Faulty} {buff : Buffer} {m m' now before : Cells}

theorem copyDown_cases (here : b.buffer = some buff) (shows' : Shows buff m m') :
    (∃ buff' f', copyDown b = .ok () ⟨f', b.fsuipc, some buff'⟩ ∧ Shows buff' b.memory.cells m' ∧
      f'.cells = b.memory.cells ∧ (b.memory.answers = [] → f' = b.memory)) ∨
    (b.memory.answers ≠ [] ∧ ∃ e f', copyDown b = .error e ⟨f', b.fsuipc, some buff⟩) := by
  rcases b.memory.read_cases 0x5600 512 with ⟨f', executed, same, untouched⟩ | ⟨scripted, e, f', raised⟩
  · obtain ⟨buff', copied, shows''⟩ := copyDown_shows executed here shows'
    exact .inl ⟨buff', f', copied, shows'', same, untouched⟩
  · refine .inr ⟨scripted, e, f', ?_⟩
    simp only [copyDown, here, shows'.copyFailed raised]

/-- FSUIPC is open, or opens. -/
def Opens (b : FsuipcCockpitBack Faulty) : Prop := b.fsuipc = true ∨ b.memory.refusal = none

theorem Opens.created (opens : Opens b) : b.fsuipc = true ∨ LocalFsuipc.create b.memory = .ok () b.memory := by
  refine opens.imp id fun none => ?_
  simp only [LocalFsuipc.create, none]

/-- Nothing has happened yet. -/
theorem syncDown_refused {e : Exception} (closed : b.fsuipc = false) (refuses : b.memory.refusal = some e) :
    syncDown b = .error .sync b := by
  obtain ⟨⟨cells, refusal, answers⟩, fsuipc, buffer⟩ := b
  cases closed
  cases refuses
  rfl

theorem refused_of_not_opens (closed : ¬ Opens b) : b.fsuipc = false ∧ syncDown b = .error .sync b := by
  obtain ⟨shut, refuses⟩ := not_or.mp closed
  obtain ⟨e, refusal⟩ := Option.ne_none_iff_exists'.mp refuses
  have shut := Bool.eq_false_of_not_eq_true shut
  exact ⟨shut, syncDown_refused shut refusal⟩

theorem syncDown_of_ok {x : BackM Faulty Unit} (same : (do prepare; refresh : BackM Faulty Unit) b = x c)
    (executed : x c = .ok () c') : syncDown b = .ok () c' := by
  simp only [syncDown, same, executed]

theorem syncDown_of_error {x : BackM Faulty Unit} {e : Exception} (same : (do prepare; refresh : BackM Faulty Unit) b = x c)
    (raised : x c = .error e c') : syncDown b = .error .sync { c' with fsuipc := false } := by
  simp only [syncDown, same, raised]

/-- The halves are swapped before the block is read. -/
theorem syncDown_again (opens : Opens b) (here : b.buffer = some buff) (shows' : Shows buff now before) :
    (∃ buff' f', syncDown b = .ok () ⟨f', true, some buff'⟩ ∧ Shows buff' b.memory.cells now) ∨
    (b.memory.answers ≠ [] ∧ ∃ f', syncDown b = .error .sync ⟨f', false, some buff.swap⟩) := by
  have same : (do prepare; refresh : BackM Faulty Unit) b = copyDown ⟨b.memory, true, some buff.swap⟩ :=
    (ok_bind (prepare_again opens.created here)).trans (refresh_swaps here)
  rcases copyDown_cases (b := ⟨b.memory, true, some buff.swap⟩) rfl shows'.swap with
    ⟨buff', f', copied, shows'', -, -⟩ | ⟨scripted, e, f', raised⟩
  · exact .inl ⟨buff', f', syncDown_of_ok same copied, shows''⟩
  · exact .inr ⟨scripted, f', syncDown_of_error same raised⟩

/-- The first call reads the block into either half. A half that it has not read is zero,
    and this one is current if the call fails. -/
theorem syncDown_first (opens : Opens b) (fresh : b.buffer = none) :
    (∃ buff f', syncDown b = .ok () ⟨f', true, some buff⟩ ∧ Shows buff b.memory.cells b.memory.cells) ∨
    (b.memory.answers ≠ [] ∧ ∃ buff f' before, syncDown b = .error .sync ⟨f', false, some buff⟩ ∧
      Shows buff (fun _ => 0) before) := by
  obtain ⟨first, begun, zero⟩ := prepare_new opens.created fresh
  rcases copyDown_cases (b := ⟨b.memory, true, some first⟩) rfl zero with
    ⟨buff, f₁, copied, shows', same, untouched⟩ | ⟨scripted, e, f', raised⟩
  · have refreshed : (do prepare; refresh : BackM Faulty Unit) b = copyDown ⟨f₁, true, some buff.swap⟩ :=
      (ok_bind (begun.trans copied)).trans (refresh_swaps rfl)
    rcases copyDown_cases (b := ⟨f₁, true, some buff.swap⟩) rfl shows'.swap with
      ⟨buff', f', again, shows'', -, -⟩ | ⟨scripted, e, f', raised⟩
    · rw [same] at shows''
      exact .inl ⟨buff', f', syncDown_of_ok refreshed again, shows''⟩
    · exact .inr ⟨fun none => scripted ((congrArg Faulty.answers (untouched none)).trans none), buff.swap, f', _,
        syncDown_of_error refreshed raised, shows'.swap⟩
  · have stopped : (do prepare; refresh : BackM Faulty Unit) b = .error e ⟨f', true, some first⟩ :=
      error_bind (begun.trans raised)
    refine .inr ⟨scripted, first, f', _, ?_, zero⟩
    simp only [syncDown, stopped]

theorem opens_of_ok (executed : syncDown b = .ok () b') : Opens b := by
  by_contra closed
  exact absurd ((refused_of_not_opens closed).2.symm.trans executed) nofun

/-- The first call fails with its first read. -/
theorem first_fails {e : Exception} {f' : Faulty} (opens : Opens b) (fresh : b.buffer = none)
    (raised : LocalFsuipc.read 0x5600 512 b.memory = .error e f') : ∃ b', syncDown b = .error .sync b' := by
  obtain ⟨first, begun, zero⟩ := prepare_new opens.created fresh
  have failed : copyDown ⟨b.memory, true, some first⟩ = .error e ⟨f', true, some first⟩ := by
    simp only [copyDown, zero.copyFailed raised]
  have stopped : (do prepare; refresh : BackM Faulty Unit) b = .error e ⟨f', true, some first⟩ := error_bind (begun.trans failed)
  exact ⟨_, syncDown_of_error rfl stopped⟩

/-- A later call fails with its read. -/
theorem again_fails {e : Exception} {f' : Faulty} (opens : Opens b) (here : b.buffer = some buff) (shows' : Shows buff now before)
    (raised : LocalFsuipc.read 0x5600 512 b.memory = .error e f') : ∃ b', syncDown b = .error .sync b' := by
  have failed : copyDown ⟨b.memory, true, some buff.swap⟩ = .error e ⟨f', true, some buff.swap⟩ := by
    simp only [copyDown, shows'.swap.copyFailed raised]
  exact ⟨_, syncDown_of_error ((ok_bind (prepare_again opens.created here)).trans (refresh_swaps here)) failed⟩

theorem again_of_ok (executed : syncDown b = .ok () b') (here : b.buffer = some buff) (shows' : Shows buff now before) :
    ∃ buff', b'.buffer = some buff' ∧ Shows buff' b.memory.cells now := by
  rcases syncDown_again (opens_of_ok executed) here shows' with ⟨buff', f', ends, shows''⟩ | ⟨-, f', ends⟩
  · cases ends.symm.trans executed
    exact ⟨buff', rfl, shows''⟩
  · exact absurd (ends.symm.trans executed) nofun

theorem first_of_ok (executed : syncDown b = .ok () b') (fresh : b.buffer = none) :
    ∃ buff', b'.buffer = some buff' ∧ Shows buff' b.memory.cells b.memory.cells := by
  rcases syncDown_first (opens_of_ok executed) fresh with ⟨buff', f', ends, shows'⟩ | ⟨-, buff, f', before, ends, -⟩
  · cases ends.symm.trans executed
    exact ⟨buff', rfl, shows'⟩
  · exact absurd (ends.symm.trans executed) nofun

theorem again_of_error {e : Exception} (opens : Opens b) (raised : syncDown b = .error e b') (here : b.buffer = some buff)
    (shows' : Shows buff now before) : b'.buffer = some buff.swap := by
  rcases syncDown_again opens here shows' with ⟨buff', f', ends, -⟩ | ⟨-, f', ends⟩
  · exact absurd (ends.symm.trans raised) nofun
  · cases ends.symm.trans raised
    rfl

theorem first_of_error {e : Exception} (opens : Opens b) (raised : syncDown b = .error e b') (fresh : b.buffer = none) :
    ∃ buff' before, b'.buffer = some buff' ∧ Shows buff' (fun _ => 0) before := by
  rcases syncDown_first opens fresh with ⟨buff, f', ends, -⟩ | ⟨-, buff, f', before, ends, shows'⟩
  · exact absurd (ends.symm.trans raised) nofun
  · cases ends.symm.trans raised
    exact ⟨buff, before, rfl, shows'⟩

/-- What an open FSUIPC does is the same however long it has been open. -/
theorem syncDown_opens (opens : Opens b) : syncDown b = syncDown { b with fsuipc := true } := by
  have prepared : prepare b = prepare { b with fsuipc := true } :=
    (open_first _ opens.created).trans (open_first (b := { b with fsuipc := true }) _ (.inl rfl)).symm
  have same : (do prepare; refresh : BackM Faulty Unit) b = (do prepare; refresh) { b with fsuipc := true } := by
    show EStateM.bind prepare _ b = EStateM.bind prepare _ _
    simp only [EStateM.bind, prepared]
  simp only [syncDown, same]

theorem after_onBuffer {α : Type} (x : BufferM α) (b : FsuipcCockpitBack Faulty) :
    (after (onBuffer x b)).buffer = b.buffer.map fun buff => after (x buff) := by
  cases here : b.buffer with
  | none => simp only [onBuffer, here, after_error, Option.map_none]
  | some buff =>
    cases executed : x buff with
    | ok a buff' => simp only [onBuffer, here, executed, after_ok, Option.map_some]
    | error e buff' => simp only [onBuffer, here, executed, after_error, Option.map_some]

theorem copyUp_buffer (b : FsuipcCockpitBack Faulty) : (after (copyUp b)).buffer = b.buffer := by
  unfold copyUp
  split
  · rfl
  · split <;> rfl

theorem syncUp_refused (closed : ¬ Opens b) (here : b.buffer = some buff) : syncUp b = .error .sync b := by
  obtain ⟨shut, -⟩ := refused_of_not_opens closed
  obtain ⟨e, refusal⟩ := Option.ne_none_iff_exists'.mp (not_or.mp closed).2
  obtain ⟨⟨cells, _, answers⟩, _, buffer⟩ := b
  cases shut
  cases refusal
  cases here
  rfl

/-- `sync_up` leaves the mark in the buffer, or fails before. -/
theorem syncUp_buffer (b : FsuipcCockpitBack Faulty) : (after (syncUp b)).buffer = b.buffer ∨
    (after (syncUp b)).buffer = b.buffer.map fun buff => after (store (1 : UInt8) 0x5600 buff) := by
  cases here : b.buffer with
  | none =>
    have idle : syncUp b = .ok () b := by
      obtain ⟨memory, fsuipc, buffer⟩ := b
      cases here
      rfl
    rw [idle]
    exact .inl here
  | some buff =>
    have begun : syncUp b = (mark >>= fun _ => copyUp) b := by
      obtain ⟨memory, fsuipc, buffer⟩ := b
      cases here
      rfl
    by_cases opens : Opens b
    · have marks : mark b = onBuffer (store (1 : UInt8) 0x5600) { b with fsuipc := true } := open_first _ opens.created
      have marked := after_onBuffer (store (1 : UInt8) 0x5600) { b with fsuipc := true }
      rw [← marks, here] at marked
      right
      rw [begun, ← marked]
      cases executed : mark b with
      | ok u b' =>
        rw [ok_bind executed, copyUp_buffer]
        rfl
      | error e b' => rw [error_bind executed]
    · left
      rw [syncUp_refused opens here]
      exact here

end FsuipcCockpitBack

/-! ## Runs -/

namespace Faulty

/-- What is called. Each call that copies finds an FSUIPC of its own. -/
inductive Act where
  | down (f : Faulty)
  /-- a `sync_down` that fails while it opens FSUIPC -/
  | refused (f : Faulty)
  /-- one that fails later -/
  | interrupted (f : Faulty)
  | pollFcu
  | pollEfis
  | set (s : Setting)
  | up (f : Faulty)

def Act.SyncsDown : Act → Prop
  | .down _ | .refused _ | .interrupted _ => True
  | _ => False

def Act.Succeeds : Act → Prop
  | .down _ => True
  | _ => False

inductive Step : FsuipcCockpitBack Faulty → Act → FsuipcCockpitBack Faulty → Prop where
  | down {b b' : FsuipcCockpitBack Faulty} {f : Faulty} (executed : syncDown { b with memory := f } = .ok () b') :
      Step b (.down f) b'
  | refused {b b' : FsuipcCockpitBack Faulty} {f : Faulty} {e : Exception} (closed : ¬ Opens { b with memory := f })
      (raised : syncDown { b with memory := f } = .error e b') : Step b (.refused f) b'
  | interrupted {b b' : FsuipcCockpitBack Faulty} {f : Faulty} {e : Exception} (opens : Opens { b with memory := f })
      (raised : syncDown { b with memory := f } = .error e b') : Step b (.interrupted f) b'
  | pollFcu {b : FsuipcCockpitBack Faulty} :
      Step b .pollFcu (after (onBuffer (pollEvents FlightControlUnitBack.events) b))
  | pollEfis {b : FsuipcCockpitBack Faulty} :
      Step b .pollEfis (after (onBuffer (pollEvents EfisControlPanelBack.events) b))
  | set {b : FsuipcCockpitBack Faulty} {s : Setting} (front : CockpitFront) (among : s ∈ mapUp front) :
      Step b (.set s) (after (onBuffer s.run b))
  | up {b : FsuipcCockpitBack Faulty} {f : Faulty} : Step b (.up f) (after (syncUp { b with memory := f }))

/-! ### Steps -/

/-- What an act does to the memory that the buffer holds. -/
def Act.Moves (now now' : Cells) : Act → Prop
  | .down _ | .interrupted _ => True
  | .refused _ => now' = now
  | .pollFcu => now' = FlightControlUnitBack.events.foldl Import.cleared now
  | .pollEfis => now' = EfisControlPanelBack.events.foldl Import.cleared now
  | .set s => now' = patch now s.offset s.data
  | .up _ => ∀ a, a ≠ 0x5600 → now' a = now a

section
variable {b c : FsuipcCockpitBack Faulty} {buff : Buffer} {now before : Cells} {e : Act}

theorem step_shows (here : b.buffer = some buff) (shows' : Shows buff now before) (step : Step b e c) :
    ∃ buff' now' before', c.buffer = some buff' ∧ Shows buff' now' before' ∧ e.Moves now now' ∧
      (¬ e.SyncsDown → before' = before) := by
  cases step with
  | down executed =>
    obtain ⟨buff', here', shows''⟩ := again_of_ok executed here shows'
    exact ⟨buff', _, _, here', shows'', trivial, fun between => absurd trivial between⟩
  | refused closed raised =>
    cases (refused_of_not_opens closed).2.symm.trans raised
    exact ⟨buff, _, _, here, shows', rfl, fun _ => rfl⟩
  | interrupted opens raised =>
    exact ⟨_, _, _, again_of_error opens raised here shows', shows'.swap, trivial, fun between => absurd trivial between⟩
  | pollFcu =>
    obtain ⟨buff', executed, shows''⟩ := pollEvents_shows fcu_separate shows'
    rw [after_onBuffer, here, Option.map_some, executed]
    exact ⟨buff', _, _, rfl, shows'', rfl, fun _ => rfl⟩
  | pollEfis =>
    obtain ⟨buff', executed, shows''⟩ := pollEvents_shows efis_separate shows'
    rw [after_onBuffer, here, Option.map_some, executed]
    exact ⟨buff', _, _, rfl, shows'', rfl, fun _ => rfl⟩
  | set front among =>
    have fits := mapUp_fits front _ among
    obtain ⟨buff', executed, shows''⟩ := Setting.run_shows _ shows' fits.after fits.before
    rw [after_onBuffer, here, Option.map_some, executed]
    exact ⟨buff', _, _, rfl, shows'', rfl, fun _ => rfl⟩
  | @up f =>
    rcases syncUp_buffer { b with memory := f } with kept | marked
    · exact ⟨buff, _, _, kept.trans here, shows', fun _ _ => rfl, fun _ => rfl⟩
    · obtain ⟨buff', stored, shows''⟩ := store_shows (1 : UInt8) shows' le_rfl (by decide)
      rw [marked, here, Option.map_some, stored]
      refine ⟨buff', _, _, rfl, shows'', fun a other => ?_, fun _ => rfl⟩
      rw [show Memory.toMemory (1 : UInt8) = [1] from rfl, patch_one, Function.update_of_ne other]

/-- Only `sync_down` makes a buffer. -/
theorem step_none (here : b.buffer = none) (between : ¬ e.SyncsDown) (step : Step b e c) : c.buffer = none := by
  cases step with
  | down executed => exact absurd trivial between
  | refused closed raised => exact absurd trivial between
  | interrupted opens raised => exact absurd trivial between
  | pollFcu => simp [after_onBuffer, here]
  | pollEfis => simp [after_onBuffer, here]
  | set front among => simp [after_onBuffer, here]
  | @up f =>
    rcases syncUp_buffer { b with memory := f } with kept | marked
    · exact kept.trans here
    · rw [marked, here, Option.map_none]

/-- The mark apart, the same act keeps two memories the same. -/
theorem Act.Moves.same {S : List Nat} {n n' now' : Cells} (moves' : e.Moves n' now') (moves : e.Moves n now)
    (between : ¬ e.SyncsDown) (unmarked : 0x5600 ∉ S) (same : ∀ a ∈ S, n' a = n a) : ∀ a ∈ S, now' a = now a := by
  intro a among
  cases e with
  | down f => exact absurd trivial between
  | refused f => exact absurd trivial between
  | interrupted f => exact absurd trivial between
  | pollFcu => rw [show now' = _ from moves', show now = _ from moves, cleared_apply, cleared_apply, same a among]
  | pollEfis => rw [show now' = _ from moves', show now = _ from moves, cleared_apply, cleared_apply, same a among]
  | set s =>
    rw [show now' = _ from moves', show now = _ from moves]
    unfold patch
    rw [same a among]
  | up f =>
    have other : a ≠ 0x5600 := fun here => unmarked (here ▸ among)
    rw [moves' a other, moves a other, same a among]

end

/-! ### Two runs -/

/-- The addresses of the values of both panels. -/
def watched : List Nat := unaryCells FlightControlUnitBack.events ++ unaryCells EfisControlPanelBack.events

/-- All addresses that are polled. -/
def polled : List Nat := FlightControlUnitBack.events.flatMap Import.cells ++ EfisControlPanelBack.events.flatMap Import.cells

/-- Two runs have buffers that hold the same at the addresses of `S`, and in the other half
    the same values. -/
inductive Resembles (S : List Nat) : Option Buffer → Option Buffer → Prop where
  | none : Resembles S none none
  | some {buff' buff : Buffer} {now' before' now before : Cells} (shows' : Shows buff' now' before')
      (shows : Shows buff now before) (same : ∀ a ∈ S, now' a = now a) (same' : ∀ a ∈ watched, before' a = before a) :
      Resembles S (some buff') (some buff)

section
variable {S : List Nat} {b b' c c' : FsuipcCockpitBack Faulty}

theorem Resembles.between {e : Act} (unmarked : 0x5600 ∉ S) (between : ¬ e.SyncsDown) (resembles : Resembles S b'.buffer b.buffer)
    (step' : Step b' e c') (step : Step b e c) : Resembles S c'.buffer c.buffer := by
  obtain ⟨_, _, buffer'⟩ := b'
  obtain ⟨_, _, buffer⟩ := b
  cases resembles with
  | none =>
    rw [step_none rfl between step', step_none rfl between step]
    exact .none
  | some shows' shows same same' =>
    obtain ⟨buff₁', now₁', before₁', here', shows₁', moves', stays'⟩ := step_shows rfl shows' step'
    obtain ⟨buff₁, now₁, before₁, here, shows₁, moves, stays⟩ := step_shows rfl shows step
    rw [here', here]
    refine .some shows₁' shows₁ (moves'.same moves between unmarked same) fun a among => ?_
    rw [stays' between, stays between, same' a among]

/-- After a `sync_down` both runs show the memory that it has read. -/
theorem Resembles.down {f : Faulty} (resembles : Resembles watched b'.buffer b.buffer)
    (executed' : syncDown { b' with memory := f } = .ok () c') (executed : syncDown { b with memory := f } = .ok () c) :
    Resembles S c'.buffer c.buffer := by
  obtain ⟨_, _, buffer'⟩ := b'
  obtain ⟨_, _, buffer⟩ := b
  cases resembles with
  | none =>
    obtain ⟨buff₁', here', shows₁'⟩ := first_of_ok executed' rfl
    obtain ⟨buff₁, here, shows₁⟩ := first_of_ok executed rfl
    rw [here', here]
    exact .some shows₁' shows₁ (fun _ _ => rfl) fun _ _ => rfl
  | some shows' shows same same' =>
    obtain ⟨buff₁', here', shows₁'⟩ := again_of_ok executed' rfl shows'
    obtain ⟨buff₁, here, shows₁⟩ := again_of_ok executed rfl shows
    rw [here', here]
    exact .some shows₁' shows₁ (fun _ _ => rfl) same

/-- If both fail behind the opening of FSUIPC the runs stay as they were to each other. -/
theorem Resembles.interrupted {f : Faulty} {e' e : Exception} (resembles : Resembles watched b'.buffer b.buffer)
    (opens' : Opens { b' with memory := f }) (opens : Opens { b with memory := f })
    (raised' : syncDown { b' with memory := f } = .error e' c') (raised : syncDown { b with memory := f } = .error e c) :
    Resembles watched c'.buffer c.buffer := by
  obtain ⟨_, _, buffer'⟩ := b'
  obtain ⟨_, _, buffer⟩ := b
  cases resembles with
  | none =>
    rw [syncDown_opens opens'] at raised'
    rw [syncDown_opens opens] at raised
    cases raised'.symm.trans raised
    obtain ⟨buff', before, here, shows'⟩ := first_of_error (.inl rfl) raised rfl
    rw [here]
    exact .some shows' shows' (fun _ _ => rfl) fun _ _ => rfl
  | some shows' shows same same' =>
    rw [again_of_error opens' raised' rfl shows', again_of_error opens raised rfl shows]
    exact .some shows'.swap shows.swap same' same

theorem watched_unmarked : 0x5600 ∉ watched := by decide +kernel
theorem polled_unmarked : 0x5600 ∉ polled := by decide +kernel

theorem Resembles.step {e : Act} (resembles : Resembles watched b'.buffer b.buffer) (step' : Step b' e c') (step : Step b e c) :
    Resembles watched c'.buffer c.buffer := by
  by_cases between : e.SyncsDown
  · cases step' with
    | down executed' =>
      cases step with
      | down executed => exact resembles.down executed' executed
    | refused closed' raised' =>
      cases step with
      | refused closed raised =>
        cases (refused_of_not_opens closed').2.symm.trans raised'
        cases (refused_of_not_opens closed).2.symm.trans raised
        exact resembles
    | interrupted opens' raised' =>
      cases step with
      | interrupted opens raised => exact resembles.interrupted opens' opens raised' raised
    | pollFcu => exact between.elim
    | pollEfis => exact between.elim
    | set front among => exact between.elim
    | up => exact between.elim
  · exact resembles.between watched_unmarked between step' step

theorem Resembles.trace {es : List Act} (resembles : Resembles watched b'.buffer b.buffer) (trace' : Trace Step b' es c')
    (trace : Trace Step b es c) : Resembles watched c'.buffer c.buffer :=
  trace'.alongside (P := fun _ => True) (R := fun b' b => Resembles watched b'.buffer b.buffer) trace
    (fun _ resembles step' step => resembles.step step' step) (fun _ _ => trivial) resembles

theorem Resembles.trace_between {es : List Act} (unmarked : 0x5600 ∉ S) (between : ∀ e ∈ es, ¬ e.SyncsDown)
    (resembles : Resembles S b'.buffer b.buffer) (trace' : Trace Step b' es c') (trace : Trace Step b es c) :
    Resembles S c'.buffer c.buffer :=
  trace'.alongside (P := fun e => ¬ e.SyncsDown) (R := fun b' b => Resembles S b'.buffer b.buffer) trace
    (fun between resembles step' step => resembles.between unmarked between step' step) between resembles

end

/-! ## Events -/

section
variable {b b' c c' : FsuipcCockpitBack Faulty} {buff : Buffer} {now before : Cells} {f : Faulty}

/-- The events that are polled next. There are none if the poll throws. -/
def fcuEvents : FsuipcCockpitBack Faulty → Option (List (Event FcuEventType)) :=
  (onBuffer (pollEvents FlightControlUnitBack.events)).run'

def efisEvents : FsuipcCockpitBack Faulty → Option (List (Event EfisEventType)) :=
  (onBuffer (pollEvents EfisControlPanelBack.events)).run'

/-- After `b'` and after `b` the same is polled, once the next `sync_down` has succeeded in
    either run and as long as no other is called. -/
def SameEvents (b' b : FsuipcCockpitBack Faulty) : Prop :=
  ∀ (es es' : List Act) (f : Faulty) (c' c : FsuipcCockpitBack Faulty), (∀ e ∈ es, ¬ e.Succeeds) → (∀ e ∈ es', ¬ e.SyncsDown) →
    Trace Step b' (es ++ .down f :: es') c' → Trace Step b (es ++ .down f :: es') c →
    fcuEvents c' = fcuEvents c ∧ efisEvents c' = efisEvents c

/-- The call fails while it opens FSUIPC, or the halves of the buffer hold the same values. -/
def Harmless (b : FsuipcCockpitBack Faulty) (f : Faulty) : Prop :=
  ¬ Opens { b with memory := f } ∨ ∃ buff, b.buffer = some buff ∧ ∀ a ∈ watched, buff.isModifiedAs UInt8 a = .ok false

theorem events_shows (here : b.buffer = some buff) (shows' : Shows buff now before) :
    fcuEvents b = some (FlightControlUnitBack.events.flatMap (Import.polled now before)) ∧
    efisEvents b = some (EfisControlPanelBack.events.flatMap (Import.polled now before)) := by
  obtain ⟨buff₁, executed₁, -⟩ := pollEvents_shows fcu_separate shows'
  obtain ⟨buff₂, executed₂, -⟩ := pollEvents_shows efis_separate shows'
  exact ⟨run'_of_ok (onBuffer_ok here executed₁), run'_of_ok (onBuffer_ok here executed₂)⟩

theorem Resembles.events (resembles : Resembles polled c'.buffer c.buffer) :
    fcuEvents c' = fcuEvents c ∧ efisEvents c' = efisEvents c := by
  obtain ⟨_, _, buffer'⟩ := c'
  obtain ⟨_, _, buffer⟩ := c
  cases resembles with
  | none => exact ⟨rfl, rfl⟩
  | some shows' shows same same' =>
    obtain ⟨fcu', efis'⟩ := events_shows (b := ⟨_, _, .some _⟩) rfl shows'
    obtain ⟨fcu, efis⟩ := events_shows (b := ⟨_, _, .some _⟩) rfl shows
    rw [fcu', efis', fcu, efis, polled_congr_before fun a among => same' a (List.mem_append_left _ among),
      polled_congr_before fun a among => same' a (List.mem_append_right _ among)]
    refine ⟨congrArg Option.some (List.flatMap_congr fun line among => ?_), congrArg Option.some (List.flatMap_congr fun line among => ?_)⟩
    · exact Import.polled_congr fun a here => same a (List.mem_append_left _ (List.mem_flatMap.mpr ⟨line, among, here⟩))
    · exact Import.polled_congr fun a here => same a (List.mem_append_right _ (List.mem_flatMap.mpr ⟨line, among, here⟩))

theorem Resembles.sameEvents (resembles : Resembles watched b'.buffer b.buffer) : SameEvents b' b := by
  intro es es' f c' c _ between trace' trace
  obtain ⟨d', first', second'⟩ := trace'.split
  obtain ⟨d, first, second⟩ := trace.split
  obtain ⟨_, down', rest'⟩ := second'.uncons
  obtain ⟨_, down, rest⟩ := second.uncons
  cases down' with
  | down executed' =>
    cases down with
    | down executed =>
      have last : Resembles polled _ _ := (resembles.trace first' first).down executed' executed
      exact (last.trace_between polled_unmarked between rest' rest).events

/-! ## Failed calls -/

theorem unmodified_iff {a : Nat} (shows' : Shows buff now before) (within : InBlock a) :
    buff.isModifiedAs UInt8 a = .ok false ↔ now a = before a := by
  have compared := DoubleBuffer.isModified_eq (ShiftedBuffer.holding (by decide) (LinearBuffer.holding 512)) shows' within.1
    (show a + 1 ≤ 0x5600 + 512 from within.2)
  rw [DoubleBuffer.isModifiedAs, show Memory.size UInt8 = 1 from rfl, compared]
  simp

theorem watched_inBlock : ∀ a ∈ watched, InBlock a := by decide +kernel

/-- A call that fails harmlessly keeps the buffer as it was, or swaps halves that are alike. -/
theorem resembles_of_harmless {e : Exception} (resembles : Resembles watched b.buffer b.buffer)
    (raised : syncDown { b with memory := f } = .error e b') (harmless : Harmless b f) : Resembles watched b'.buffer b.buffer := by
  by_cases opens : Opens { b with memory := f }
  · obtain ⟨buff, here, unmodified⟩ := harmless.resolve_left (not_not.mpr opens)
    rw [here] at resembles ⊢
    cases resembles with
    | some shows' shows same same' =>
      rw [again_of_error opens raised here shows]
      have alike := fun a among => (unmodified_iff shows (watched_inBlock a among)).mp (unmodified a among)
      exact .some shows.swap shows (fun a among => (alike a among).symm) alike
  · cases (refused_of_not_opens opens).2.symm.trans raised
    exact resembles

theorem down_again (here : b.buffer = some buff) (shows' : Shows buff now before) (cells : Cells) :
    ∃ c buff', Step b (.down ⟨cells, none, []⟩) c ∧ c.buffer = some buff' ∧ Shows buff' cells now := by
  rcases syncDown_again (b := { b with memory := ⟨cells, none, []⟩ }) (.inr rfl) here shows' with
    ⟨buff', f', executed, shows''⟩ | ⟨scripted, -⟩
  · exact ⟨_, buff', .down executed, rfl, shows''⟩
  · exact absurd rfl scripted

theorem down_first (fresh : b.buffer = none) (cells : Cells) :
    ∃ c buff', Step b (.down ⟨cells, none, []⟩) c ∧ c.buffer = some buff' ∧ Shows buff' cells cells := by
  rcases syncDown_first (b := { b with memory := ⟨cells, none, []⟩ }) (.inr rfl) fresh with
    ⟨buff', f', executed, shows''⟩ | ⟨scripted, -⟩
  · exact ⟨_, buff', .down executed, rfl, shows''⟩
  · exact absurd rfl scripted

/-- Where the same is polled after one call, the halves that it compared with agree. -/
theorem SameEvents.agree {buff' : Buffer} {cells n' : Cells} (same : SameEvents b' b) (step' : Step b' (.down f) c')
    (step : Step b (.down f) c) (here' : c'.buffer = some buff') (shows' : Shows buff' cells n') (here : c.buffer = some buff)
    (shows : Shows buff cells cells) : ∀ a ∈ watched, cells a = n' a := by
  obtain ⟨fcu, efis⟩ := same [] [] f c' c (fun _ none => absurd none List.not_mem_nil) (fun _ none => absurd none List.not_mem_nil)
    (.single step') (.single step)
  obtain ⟨fcu', efis'⟩ := events_shows here' shows'
  obtain ⟨fcu'', efis''⟩ := events_shows here shows
  have fcu := Option.some.inj (fcu'.symm.trans (fcu.trans fcu''))
  have efis := Option.some.inj (efis'.symm.trans (efis.trans efis''))
  intro a among
  rcases List.mem_append.mp among with here | here
  · exact unchanged_of_length (congrArg List.length fcu).le a here
  · exact unchanged_of_length (congrArg List.length efis).le a here

theorem watched_speed : 0x5638 ∈ watched := by decide +kernel

/-- Behind a first call that has failed later than at the opening, zeros are compared with. -/
theorem first_not_same {e : Exception} (fresh : b.buffer = none) (opens : Opens { b with memory := f })
    (raised : syncDown { b with memory := f } = .error e b') : ¬ SameEvents b' b := by
  intro same
  obtain ⟨buff', before, here', shows'⟩ := first_of_error opens raised fresh
  obtain ⟨c', buff₁', step', here₁', shows₁'⟩ := down_again here' shows' fun _ => 1
  obtain ⟨c, buff₁, step, here₁, shows₁⟩ := down_first fresh fun _ => 1
  exact absurd (same.agree step' step here₁' shows₁' here₁ shows₁ 0x5638 watched_speed) (by decide)

theorem harmless_of_same {e : Exception} (resembles : Resembles watched b.buffer b.buffer)
    (raised : syncDown { b with memory := f } = .error e b') (same : SameEvents b' b) : Harmless b f := by
  by_cases opens : Opens { b with memory := f }
  · cases here : b.buffer with
    | none => exact absurd same (first_not_same here opens raised)
    | some buff =>
      rw [here] at resembles
      cases resembles with
      | @some _ _ _ _ now before _ shows =>
        have swapped := again_of_error opens raised here shows
        obtain ⟨c', buff₁', step', here₁', shows₁'⟩ := down_again swapped shows.swap now
        obtain ⟨c, buff₁, step, here₁, shows₁⟩ := down_again here shows now
        have alike := same.agree step' step here₁' shows₁' here₁ shows₁
        exact .inr ⟨buff, here, fun a among => (unmodified_iff shows (watched_inBlock a among)).mpr (alike a among)⟩
  · exact .inl opens

/-- A `sync_down` that fails has no effect on the events exactly if it fails while it opens
    FSUIPC or the halves of the buffer agree on all values. -/
theorem sync_failure_iff {memory f : Faulty} {es : List Act} {b b' : FsuipcCockpitBack Faulty} {e : Exception}
    (run : Trace Step ⟨memory, false, none⟩ es b) (raised : syncDown { b with memory := f } = .error e b') :
    SameEvents b' b ↔ Harmless b f := by
  have resembles := Resembles.none.trace run run
  constructor
  · exact harmless_of_same resembles raised
  · intro harmless
    exact (resembles_of_harmless resembles raised harmless).sameEvents

/-- Two calls that read what is in the memory then. -/
def twoCalls (cells : Cells) : List Act := [.down ⟨fun _ => 0, none, []⟩, .down ⟨cells, none, []⟩]

/-- They succeed, and the third one fails at its first read. -/
theorem third_fails (cells : Cells) : ∃ (b b' : FsuipcCockpitBack Faulty) (buff : Buffer),
    Trace Step ⟨⟨fun _ => 0, none, []⟩, false, none⟩ (twoCalls cells) b ∧
    syncDown { b with memory := ⟨cells, none, [some (.fsuipc 12)]⟩ } = .error .sync b' ∧
    b.buffer = some buff ∧ Shows buff cells fun _ => 0 := by
  obtain ⟨b₁, buff₁, first, here₁, shows₁⟩ := down_first (b := ⟨⟨fun _ => 0, none, []⟩, false, none⟩) rfl fun _ => 0
  obtain ⟨b, buff, second, here, shows⟩ := down_again here₁ shows₁ cells
  obtain ⟨b', raised⟩ := again_fails (b := { b with memory := ⟨cells, none, [some (.fsuipc 12)]⟩ }) (.inr rfl) here shows rfl
  exact ⟨b, b', buff, .cons first (.single second), raised, here, shows⟩

/-- The third call has no effect on the events where the second one has read the same as the
    first, and one where it has read something else. -/
theorem sync_failure_third :
    (∃ b b' : FsuipcCockpitBack Faulty, Trace Step ⟨⟨fun _ => 0, none, []⟩, false, none⟩ (twoCalls fun _ => 0) b ∧
      syncDown { b with memory := ⟨fun _ => 0, none, [some (.fsuipc 12)]⟩ } = .error .sync b' ∧ SameEvents b' b) ∧
    ∃ b b' : FsuipcCockpitBack Faulty, Trace Step ⟨⟨fun _ => 0, none, []⟩, false, none⟩ (twoCalls fun _ => 1) b ∧
      syncDown { b with memory := ⟨fun _ => 1, none, [some (.fsuipc 12)]⟩ } = .error .sync b' ∧ ¬ SameEvents b' b := by
  constructor
  · obtain ⟨b, b', buff, run, raised, here, shows⟩ := third_fails fun _ => 0
    refine ⟨b, b', run, raised, (sync_failure_iff run raised).mpr (.inr ⟨buff, here, fun a among => ?_⟩)⟩
    exact (unmodified_iff shows (watched_inBlock a among)).mpr rfl
  · obtain ⟨b, b', buff, run, raised, here, shows⟩ := third_fails fun _ => 1
    refine ⟨b, b', run, raised, mt (sync_failure_iff run raised).mp ?_⟩
    rintro (closed | ⟨buff', here', unmodified⟩)
    · exact closed (.inr rfl)
    · cases here.symm.trans here'
      have alike := (unmodified_iff shows (watched_inBlock _ watched_speed)).mp (unmodified _ watched_speed)
      exact absurd alike (by decide)

/-- The first call of a run fails at its first read. -/
theorem sync_failure_seen : ∃ b', syncDown ⟨Faulty.mk (fun _ => 1) none [some (.fsuipc 12)], false, none⟩ = .error .sync b' ∧
    ¬ SameEvents b' ⟨⟨fun _ => 1, none, [some (.fsuipc 12)]⟩, false, none⟩ := by
  obtain ⟨b', raised⟩ := first_fails (b := ⟨⟨fun _ => 1, none, [some (.fsuipc 12)]⟩, false, none⟩) (.inr rfl) rfl rfl
  exact ⟨b', raised, first_not_same rfl (.inr rfl) raised⟩

end

end Faulty
end Oac.Cockpit
