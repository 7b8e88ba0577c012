import Oac.Base.Run
import Oac.Cockpit.Polling

/-!
# Cycles

The cockpit is mapped again and again while a panel writes to the bytes of its buttons. A
step is a write or the next step of `Map`. No step of `Map` ever fails (`finishes`), and
the buffer shows the memory in between (`Pictured`).
-/
namespace Oac.Cockpit
open Base FsuipcCockpitBack

/-- A nullary event of one of the panels. -/
inductive Button where
  | fcu (ev : Event FcuEventType)
  | efis (ev : Event EfisEventType)
  deriving DecidableEq

/-- The bytes of the nullary events. -/
def buttons : List (Nat × Button) :=
  (nullaryEvents FlightControlUnitBack.events).map (fun p => (p.1, .fcu p.2)) ++
    (nullaryEvents EfisControlPanelBack.events).map (fun p => (p.1, .efis p.2))

/-- What `Map` has done last. -/
inductive Phase where
  | idle
  | begun
  | prepared
  | refreshed
  | fcuPolled
  /-- the setters are yet to be called -/
  | setting (settings : List Setting)
  | marked

structure World where
  back : FsuipcCockpitBack Cells
  phase : Phase

namespace World

def start (memory : Cells) : World := ⟨⟨memory, false, none⟩, .idle⟩

abbrev memory (w : World) : Cells := w.back.memory

end World

inductive Moment where
  | wrote (offset : Nat) (value : UInt8)
  | began
  | prepared
  | refreshed
  | polledFcu (events : List (Event FcuEventType))
  | polledEfis (events : List (Event EfisEventType))
  | set
  | marked
  | ended

/-- A write of the panel finds the byte of a button zero and does not leave it so. All other
    steps are those of `Map`. What the front side returns is left open. -/
inductive Step : World → Moment → World → Prop where
  | wrote {b : FsuipcCockpitBack Cells} {phase : Phase} {offset : Nat} {value : UInt8}
      (button : offset ∈ buttons.map Prod.fst) (zero : b.memory offset = 0) (pressed : value ≠ 0) :
      Step ⟨b, phase⟩ (.wrote offset value) ⟨{ b with memory := Function.update b.memory offset value }, phase⟩
  | began {b : FsuipcCockpitBack Cells} : Step ⟨b, .idle⟩ .began ⟨b, .begun⟩
  | prepared {b b' : FsuipcCockpitBack Cells} (executed : prepare b = .ok () b') : Step ⟨b, .begun⟩ .prepared ⟨b', .prepared⟩
  | refreshed {b b' : FsuipcCockpitBack Cells} (executed : refresh b = .ok () b') :
      Step ⟨b, .prepared⟩ .refreshed ⟨b', .refreshed⟩
  | polledFcu {b b' : FsuipcCockpitBack Cells} {events : List (Event FcuEventType)}
      (executed : onBuffer (pollEvents FlightControlUnitBack.events) b = .ok events b') :
      Step ⟨b, .refreshed⟩ (.polledFcu events) ⟨b', .fcuPolled⟩
  | polledEfis {b b' : FsuipcCockpitBack Cells} {events : List (Event EfisEventType)} (front : CockpitFront)
      (executed : onBuffer (pollEvents EfisControlPanelBack.events) b = .ok events b') :
      Step ⟨b, .fcuPolled⟩ (.polledEfis events) ⟨b', .setting (mapUp front)⟩
  | set {b b' : FsuipcCockpitBack Cells} {s : Setting} {settings : List Setting} (executed : onBuffer s.run b = .ok () b') :
      Step ⟨b, .setting (s :: settings)⟩ .set ⟨b', .setting settings⟩
  | marked {b b' : FsuipcCockpitBack Cells} (executed : mark b = .ok () b') : Step ⟨b, .setting []⟩ .marked ⟨b', .marked⟩
  | ended {b b' : FsuipcCockpitBack Cells} (executed : copyUp b = .ok () b') : Step ⟨b, .marked⟩ .ended ⟨b', .idle⟩

/-- An address of the block without a button. -/
def Steady (a : Nat) : Prop := InBlock a ∧ a ∉ buttons.map Prod.fst
instance : DecidablePred Steady := fun _ => inferInstanceAs (Decidable (_ ∧ _))

/-- The setter keeps to the addresses without a button. -/
structure Setting.Fits (s : Setting) : Prop where
  after : 0x5600 ≤ s.offset
  before : s.offset + s.data.length ≤ 0x5800
  steady : ∀ a ∈ List.range' s.offset s.data.length, Steady a

/-! ## The buffer of a cycle -/

/-- There is a buffer, and it shows two memories. -/
def Has (b : FsuipcCockpitBack Cells) (now before : Cells) : Prop := ∃ buff, b.buffer = some buff ∧ Shows buff now before

section
variable {b b' : FsuipcCockpitBack Cells} {now before : Cells}

theorem Has.refresh (has : Has b now before) :
    ∃ b', FsuipcCockpitBack.refresh b = .ok () b' ∧ b'.memory = b.memory ∧ Has b' b.memory now := by
  obtain ⟨buff, here, shows'⟩ := has
  obtain ⟨buff', executed, shows''⟩ := refresh_shows here shows'
  exact ⟨_, executed, rfl, buff', rfl, shows''⟩

theorem Has.poll {τ : Type} {lines : List (Import τ)} (separate : Separate lines) (has : Has b now before) :
    ∃ b', onBuffer (pollEvents lines) b = .ok (lines.flatMap (Import.polled now before)) b' ∧ b'.memory = b.memory ∧
      Has b' (lines.foldl Import.cleared now) before := by
  obtain ⟨buff, here, shows'⟩ := has
  obtain ⟨buff', executed, shows''⟩ := pollEvents_shows separate shows'
  exact ⟨_, onBuffer_ok here executed, rfl, buff', rfl, shows''⟩

theorem Has.set {s : Setting} (fits : s.Fits) (has : Has b now before) :
    ∃ b', onBuffer s.run b = .ok () b' ∧ b'.memory = b.memory ∧ Has b' (patch now s.offset s.data) before := by
  obtain ⟨buff, here, shows'⟩ := has
  obtain ⟨buff', executed, shows''⟩ := s.run_shows shows' fits.after fits.before
  exact ⟨_, onBuffer_ok here executed, rfl, buff', rfl, shows''⟩

theorem Has.mark (has : Has b now before) :
    ∃ b', FsuipcCockpitBack.mark b = .ok () b' ∧ b'.memory = b.memory ∧ Has b' (patch now 0x5600 [1]) before := by
  obtain ⟨buff, here, shows'⟩ := has
  obtain ⟨buff', executed, shows''⟩ := mark_shows here shows'
  exact ⟨_, executed, rfl, buff', rfl, shows''⟩

theorem Has.copyUp (has : Has b now before) :
    ∃ b', FsuipcCockpitBack.copyUp b = .ok () b' ∧ b'.memory = patch b.memory 0x5600 (region now 0x5600 512) ∧
      Has b' now before := by
  obtain ⟨buff, here, shows'⟩ := has
  exact ⟨_, copyUp_shows here shows', rfl, buff, here, shows'⟩

theorem Has.write (has : Has b now before) (memory : Cells) : Has { b with memory } now before := has

end

/-- The places that `mapUp` sets, whatever the front side returns. -/
def settingPlaces : List (Nat × Nat) :=
  [(0x562F, 1), (0x5630, 1), (0x5631, 1), (0x5614, 1), (0x5617, 1), (0x5618, 1), (0x5619, 1), (0x5615, 1), (0x5616, 1),
    (0x5632, 1), (0x5633, 1), (0x5634, 1), (0x5638, 4), (0x563C, 4), (0x5640, 4), (0x5644, 4), (0x5648, 4), (0x564C, 4),
    (0x5650, 4), (0x561F, 1), (0x561C, 1), (0x560E, 1), (0x560F, 1), (0x5610, 1), (0x5611, 1), (0x5612, 1), (0x5613, 1),
    (0x5623, 1), (0x5624, 1), (0x5625, 1), (0x5626, 1)]

theorem mapUp_places (front : CockpitFront) : (mapUp front).map (fun s => (s.offset, s.data.length)) = settingPlaces := rfl

theorem mapUp_fits (front : CockpitFront) : ∀ s ∈ mapUp front, s.Fits := by
  have fits : ∀ p ∈ settingPlaces, 0x5600 ≤ p.1 ∧ p.1 + p.2 ≤ 0x5800 ∧ ∀ a ∈ List.range' p.1 p.2, Steady a := by
    decide +kernel
  intro s among
  obtain ⟨after, before, steady⟩ := fits _ (mapUp_places front ▸ List.mem_map_of_mem among)
  exact ⟨after, before, steady⟩

theorem fcu_separate : Separate FlightControlUnitBack.events := by decide +kernel
theorem efis_separate : Separate EfisControlPanelBack.events := by decide +kernel

/-- Apart from the buttons, two memories have the same block. -/
def Matches (m n : Cells) : Prop := ∀ a, Steady a → m a = n a

/-- There is no buffer yet, or it shows the memory apart from the buttons. -/
def Ready (b : FsuipcCockpitBack Cells) (now before : Cells) : Prop :=
  b.buffer = none ∨ (Has b now before ∧ Matches now b.memory)

/-- What the buffer shows in a phase: between two cycles the memory, apart from the buttons,
    and before the setters are called the same as in the last cycle. -/
def Pictured (w : World) (now before : Cells) : Prop :=
  match w.phase with
  | .idle => Ready w.back now before
  | .begun => Ready w.back now before
  | .prepared => Has w.back now before ∧ Matches now w.memory
  | .refreshed => Has w.back now before ∧ Matches now before
  | .fcuPolled => Has w.back now before ∧ Matches now before
  | .setting settings => Has w.back now before ∧ ∀ s ∈ settings, s.Fits
  | .marked => Has w.back now before

theorem Ready.prepare {b : FsuipcCockpitBack Cells} {now before : Cells} (ready : Ready b now before) :
    ∃ b' now' before', FsuipcCockpitBack.prepare b = .ok () b' ∧ b'.memory = b.memory ∧ Has b' now' before' ∧
      Matches now' b'.memory := by
  rcases ready with fresh | ⟨⟨buff, here, shows'⟩, same⟩
  · obtain ⟨buff, m', executed, shows'⟩ := prepare_fresh fresh
    exact ⟨_, b.memory, m', executed, rfl, ⟨buff, rfl, shows'⟩, fun _ _ => rfl⟩
  · exact ⟨_, now, before, prepare_again (.inr rfl) here, rfl, ⟨buff, here, shows'⟩, same⟩

theorem Matches.update {m n : Cells} {offset : Nat} (same : Matches m n) (button : offset ∈ buttons.map Prod.fst) (value : UInt8) :
    Matches m (Function.update n offset value) := by
  intro a steady
  have other : a ≠ offset := by
    rintro rfl
    exact steady.2 button
  rw [same a steady, Function.update_of_ne other]

/-- What the panel writes is not seen before the next copy. -/
theorem Pictured.write {b : FsuipcCockpitBack Cells} {phase : Phase} {offset : Nat} {now before : Cells}
    (pictured : Pictured ⟨b, phase⟩ now before) (button : offset ∈ buttons.map Prod.fst) (value : UInt8) :
    Pictured ⟨{ b with memory := Function.update b.memory offset value }, phase⟩ now before := by
  cases phase with
  | idle => exact pictured.imp id fun ⟨has, same⟩ => ⟨has, same.update button value⟩
  | begun => exact pictured.imp id fun ⟨has, same⟩ => ⟨has, same.update button value⟩
  | prepared => exact ⟨pictured.1, pictured.2.update button value⟩
  | refreshed => exact pictured
  | fcuPolled => exact pictured
  | setting settings => exact pictured
  | marked => exact pictured

theorem fcu_buttons : ∀ offset ∈ (nullaryEvents FlightControlUnitBack.events).map Prod.fst, offset ∈ buttons.map Prod.fst := by
  decide +kernel

/-- A poll clears nothing but buttons. -/
theorem Matches.cleared {τ : Type} {lines : List (Import τ)} {m n : Cells} (same : Matches m n)
    (clears : ∀ offset ∈ (nullaryEvents lines).map Prod.fst, offset ∈ buttons.map Prod.fst) :
    Matches (lines.foldl Import.cleared m) n := by
  intro a steady
  rw [cleared_apply, if_neg fun among => steady.2 (clears a among), same a steady]

/-! ## Whole cycles -/

/-- Some steps of `Map` lead to the end of a cycle. -/
def Finishes (w : World) : Prop :=
  ∃ es w', Trace Step w (es ++ [.ended]) w' ∧ w'.phase = .idle ∧ ∃ now before, Ready w'.back now before

theorem Finishes.step {w w' : World} {e : Moment} (finishes : Finishes w') (step : Step w e w') : Finishes w := by
  obtain ⟨es, w'', rest, idle, ready⟩ := finishes
  exact ⟨e :: es, w'', .cons step rest, idle, ready⟩

section
variable {b : FsuipcCockpitBack Cells} {now before : Cells}

theorem finishes_marked (has : Has b now before) : Finishes ⟨b, .marked⟩ := by
  obtain ⟨b', executed, memory, has'⟩ := has.copyUp
  refine ⟨[], ⟨b', .idle⟩, .single (.ended executed), rfl, now, before, .inr ⟨has', fun a steady => ?_⟩⟩
  rw [memory, patch_region steady.1.1 steady.1.2]

theorem finishes_setting {settings : List Setting} (fits : ∀ s ∈ settings, s.Fits) (has : Has b now before) :
    Finishes ⟨b, .setting settings⟩ := by
  induction settings generalizing b now with
  | nil =>
    obtain ⟨b', executed, -, has'⟩ := has.mark
    exact (finishes_marked has').step (.marked executed)
  | cons s settings ih =>
    obtain ⟨b', executed, -, has'⟩ := has.set (fits s List.mem_cons_self)
    exact (ih (fun s' among => fits s' (List.mem_cons_of_mem _ among)) has').step (.set executed)

theorem finishes_fcuPolled (front : CockpitFront) (has : Has b now before) : Finishes ⟨b, .fcuPolled⟩ := by
  obtain ⟨b', executed, -, has'⟩ := has.poll efis_separate
  exact (finishes_setting (mapUp_fits front) has').step (.polledEfis front executed)

theorem finishes_refreshed (front : CockpitFront) (has : Has b now before) : Finishes ⟨b, .refreshed⟩ := by
  obtain ⟨b', executed, -, has'⟩ := has.poll fcu_separate
  exact (finishes_fcuPolled front has').step (.polledFcu executed)

theorem finishes_prepared (front : CockpitFront) (has : Has b now before) : Finishes ⟨b, .prepared⟩ := by
  obtain ⟨b', executed, -, has'⟩ := has.refresh
  exact (finishes_refreshed front has').step (.refreshed executed)

theorem finishes_begun (front : CockpitFront) (ready : Ready b now before) : Finishes ⟨b, .begun⟩ := by
  obtain ⟨b', now', before', executed, -, has, -⟩ := ready.prepare
  exact (finishes_prepared front has).step (.prepared executed)

end

/-- No step of `Map` fails: from any phase a cycle comes to its end. -/
theorem finishes (front : CockpitFront) {w : World} {now before : Cells} (pictured : Pictured w now before) : Finishes w := by
  obtain ⟨b, phase⟩ := w
  cases phase with
  | idle => exact (finishes_begun front pictured).step .began
  | begun => exact finishes_begun front pictured
  | prepared => exact finishes_prepared front pictured.1
  | refreshed => exact finishes_refreshed front pictured.1
  | fcuPolled => exact finishes_fcuPolled front pictured.1
  | setting settings => exact finishes_setting pictured.2 pictured.1
  | marked => exact finishes_marked pictured

/-! ## Cycles without writes -/

theorem set_of_trace {b : FsuipcCockpitBack Cells} {settings : List Setting} {n : Nat} {w : World}
    (trace : Trace Step ⟨b, .setting settings⟩ (List.replicate n .set) w) :
    ∃ b' settings', w = ⟨b', .setting settings'⟩ ∧ (settings' = [] → set settings b = .ok () b') := by
  induction n generalizing b settings with
  | zero =>
    cases trace
    exact ⟨b, settings, rfl, fun none => none ▸ rfl⟩
  | succ n ih =>
    cases trace with
    | cons first rest =>
      cases first with
      | set executed =>
        obtain ⟨b', settings', rfl, continued⟩ := ih rest
        exact ⟨b', settings', rfl, fun none => (ok_bind executed).trans (continued none)⟩

theorem buffer_of_mark {b b' : FsuipcCockpitBack Cells} (executed : mark b = .ok () b') : b.buffer.isSome := by
  have opened : onBuffer (store (1 : UInt8) 0x5600) { b with fsuipc := true } = .ok () b' :=
    (open_first _ (.inr rfl)).symm.trans executed
  cases none : b.buffer with
  | some buff => rfl
  | none =>
    simp only [onBuffer, none] at opened
    cases opened

/-- A cycle that is not interrupted is `Map`. -/
theorem map_of_cycle {b b' : FsuipcCockpitBack Cells} {fcuEvents : List (Event FcuEventType)}
    {efisEvents : List (Event EfisEventType)} {n : Nat}
    (trace : Trace Step ⟨b, .idle⟩ ([.began, .prepared, .refreshed, .polledFcu fcuEvents, .polledEfis efisEvents] ++
      List.replicate n .set ++ [.marked, .ended]) ⟨b', .idle⟩) :
    ∃ front, map (fun _ _ => front) b = .ok (fcuEvents, efisEvents) b' := by
  obtain ⟨w, trace, last⟩ := trace.split
  obtain ⟨w', polls, setters⟩ := trace.split
  obtain ⟨_, began, polls⟩ := polls.uncons
  cases began
  obtain ⟨_, prepared, polls⟩ := polls.uncons
  cases prepared with | prepared prepared =>
  obtain ⟨_, refreshed, polls⟩ := polls.uncons
  cases refreshed with | @refreshed _ b₂ refreshed =>
  obtain ⟨_, fcu, polls⟩ := polls.uncons
  cases fcu with | polledFcu fcu =>
  obtain ⟨_, efis, polls⟩ := polls.uncons
  cases efis with | polledEfis front efis =>
  cases polls
  obtain ⟨b₅, settings, rfl, set⟩ := set_of_trace setters
  obtain ⟨_, marked, last⟩ := last.uncons
  cases marked with | marked marked =>
  obtain ⟨_, ended, last⟩ := last.uncons
  cases ended with | ended ended =>
  cases last
  have copied : (do prepare; refresh : BackM Cells Unit) b = .ok () b₂ := (ok_bind prepared).trans refreshed
  have down : syncDown b = .ok () b₂ := by simp only [syncDown, copied]
  have present := buffer_of_mark marked
  have up : syncUp b₅ = .ok () b' := by
    obtain ⟨memory, fsuipc, _ | buffer⟩ := b₅
    · cases present
    · exact (ok_bind marked).trans ended
  refine ⟨front, (ok_bind down).trans ((ok_bind fcu).trans ((ok_bind efis).trans ?_))⟩
  exact (ok_bind (set rfl)).trans (ok_bind up)

end Oac.Cockpit
