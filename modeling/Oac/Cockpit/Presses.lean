import Oac.Base.Signal
import Oac.Cockpit.Cycle
import Mathlib.Data.List.TakeWhile

/-!
# Presses

The byte of a button is a signal that the panel raises and the cockpit polls. A press is
reported once if it is written while no cycle is between the copy of `sync_down` and that
of `sync_up`, and else it is lost (`press_reported_iff`).
-/
namespace Oac.Cockpit
open Base FsuipcCockpitBack

namespace Button

/-- How often a step reports the event of a button. -/
def reports : Button → Moment → Nat
  | .fcu ev, .polledFcu events => events.count ev
  | .efis ev, .polledEfis events => events.count ev
  | _, _ => 0

/-- What a step does to the signal at `offset`. -/
def moves (offset : Nat) (button : Button) : Moment → List Signal.Move
  | .wrote offset' _ => if offset' = offset then [.raise] else []
  | .refreshed => [.take]
  | .polledFcu events =>
    match button with
    | .fcu ev => [.report (decide (ev ∈ events))]
    | .efis _ => []
  | .polledEfis events =>
    match button with
    | .fcu _ => []
    | .efis ev => [.report (decide (ev ∈ events))]
  | .ended => [.back]
  | _ => []

def stage (button : Button) : Phase → Stage
  | .idle => .idle
  | .begun => .idle
  | .prepared => .idle
  | .refreshed => .taken
  | .fcuPolled =>
    match button with
    | .fcu _ => .reported
    | .efis _ => .taken
  | .setting _ => .reported
  | .marked => .reported

end Button

/-- The signal of a button between the memory and what the buffer shows. -/
structure Tracks (offset : Nat) (button : Button) (w : World) (f : Signal) : Prop where
  pictured : ∃ now before, Pictured w now before ∧ (f.stage ≠ .idle → f.copy = decide (now offset ≠ 0))
  raised : f.raised = decide (w.memory offset ≠ 0)
  stage : f.stage = button.stage w.phase

theorem fcu_distinct : ((nullaryEvents FlightControlUnitBack.events).map Prod.snd).Nodup := by decide +kernel
theorem efis_distinct : ((nullaryEvents EfisControlPanelBack.events).map Prod.snd).Nodup := by decide +kernel
theorem fcu_steady : ∀ a ∈ unaryCells FlightControlUnitBack.events, Steady a := by decide +kernel
theorem efis_steady : ∀ a ∈ unaryCells EfisControlPanelBack.events, Steady a := by decide +kernel

variable {offset : Nat} {button : Button} {w w' : World} {f : Signal} {now before : Cells}

theorem button_inBlock (here : (offset, button) ∈ buttons) : InBlock offset ∧ offset ≠ 0x5600 := by
  have all : ∀ p ∈ buttons, InBlock p.1 ∧ p.1 ≠ 0x5600 := by decide +kernel
  exact all _ here

theorem mem_fcu {ev : Event FcuEventType} (here : (offset, .fcu ev) ∈ buttons) :
    (offset, ev) ∈ nullaryEvents FlightControlUnitBack.events := by simpa [buttons] using here

theorem mem_efis {ev : Event EfisEventType} (here : (offset, .efis ev) ∈ buttons) :
    (offset, ev) ∈ nullaryEvents EfisControlPanelBack.events := by simpa [buttons] using here

/-- No byte is a button of both panels. -/
theorem panels_apart : ∀ offset ∈ (nullaryEvents FlightControlUnitBack.events).map Prod.fst,
    offset ∉ (nullaryEvents EfisControlPanelBack.events).map Prod.fst := by decide +kernel

section
variable {τ : Type} {lines : List (Import τ)}

theorem cleared_here {ev : Event τ} (here : (offset, ev) ∈ nullaryEvents lines) : lines.foldl Import.cleared now offset = 0 := by
  rw [cleared_apply, if_pos (List.mem_map_of_mem here)]

theorem cleared_other (other : offset ∉ (nullaryEvents lines).map Prod.fst) :
    lines.foldl Import.cleared now offset = now offset := by
  rw [cleared_apply, if_neg other]

theorem mem_polled [DecidableEq τ] {ev : Event τ} (distinct : ((nullaryEvents lines).map Prod.snd).Nodup)
    (here : (offset, ev) ∈ nullaryEvents lines) (same : ∀ a ∈ unaryCells lines, now a = before a) :
    decide (ev ∈ lines.flatMap (Import.polled now before)) = decide (now offset ≠ 0) := by
  have counted := count_polled distinct here same
  rw [decide_eq_decide]
  by_cases pressed : now offset ≠ 0
  · rw [if_pos pressed] at counted
    exact iff_of_true (List.count_pos_iff.mp (by omega)) pressed
  · rw [if_neg pressed] at counted
    exact iff_of_false (List.count_eq_zero.mp counted) pressed

/-- The poll of a panel reports the copies of the signals of its buttons. -/
theorem polled_signal [DecidableEq τ] {ev : Event τ} (distinct : ((nullaryEvents lines).map Prod.snd).Nodup)
    (here : (offset, ev) ∈ nullaryEvents lines) (same : ∀ a ∈ unaryCells lines, now a = before a) (taken : f.stage = .taken)
    (copied : f.stage ≠ .idle → f.copy = decide (now offset ≠ 0)) :
    Trace Signal.Step f [.report (decide (ev ∈ lines.flatMap (Import.polled now before)))]
      { f with copy := false, stage := .reported } := by
  rw [mem_polled distinct here same, ← copied (by rw [taken]; nofun)]
  exact .single (.report taken)

theorem count_report [DecidableEq τ] {ev : Event τ} (distinct : ((nullaryEvents lines).map Prod.snd).Nodup)
    (here : (offset, ev) ∈ nullaryEvents lines) (same : ∀ a ∈ unaryCells lines, now a = before a) :
    (lines.flatMap (Import.polled now before)).count ev =
      [Signal.Move.report (decide (ev ∈ lines.flatMap (Import.polled now before)))].count (.report true) := by
  rw [count_polled distinct here same, mem_polled distinct here same]
  by_cases pressed : now offset ≠ 0 <;> simp [pressed]

end

/-- Every step is one of the signal, or none. -/
theorem Tracks.step {e : Moment} (here : (offset, button) ∈ buttons) (tracks : Tracks offset button w f) (step : Step w e w') :
    ∃ f', Trace Signal.Step f (button.moves offset e) f' ∧ Tracks offset button w' f' := by
  obtain ⟨⟨now, before, pictured, copied⟩, raised, stage⟩ := tracks
  cases step with
  | @wrote b phase offset' value button' zero pressed =>
    have raised : f.raised = decide (b.memory offset ≠ 0) := raised
    by_cases same : offset' = offset
    · subst same
      have lowered : f.raised = false := by simpa [zero] using raised
      refine ⟨{ f with raised := true }, ?_, ⟨now, before, pictured.write button' value, copied⟩, ?_, stage⟩
      · simpa [Button.moves] using Trace.single (Signal.Step.raise lowered)
      · show true = decide (Function.update b.memory offset' value offset' ≠ 0)
        simp [pressed]
    · refine ⟨f, ?_, ⟨now, before, pictured.write button' value, copied⟩, ?_, stage⟩
      · simpa [Button.moves, same] using Trace.nil f
      · show f.raised = decide (Function.update b.memory offset' value offset ≠ 0)
        rw [Function.update_of_ne (Ne.symm same), raised]
  | began => exact ⟨f, .nil f, ⟨now, before, pictured, copied⟩, raised, stage⟩
  | @prepared b b' executed =>
    obtain ⟨_, now', before', executed', memory, has, same⟩ := Ready.prepare pictured
    cases executed.symm.trans executed'
    have idle : f.stage = .idle := stage
    refine ⟨f, .nil f, ⟨now', before', ⟨has, same⟩, fun busy => absurd idle busy⟩, ?_, stage⟩
    show f.raised = decide (b'.memory offset ≠ 0)
    rw [memory, raised]
  | @refreshed b b' executed =>
    obtain ⟨has, same⟩ := pictured
    obtain ⟨_, executed', memory, has'⟩ := has.refresh
    cases executed.symm.trans executed'
    refine ⟨_, .single (.take stage), ⟨b.memory, now, ⟨has', fun a steady => (same a steady).symm⟩, fun _ => raised⟩, ?_, rfl⟩
    show f.raised = decide (b'.memory offset ≠ 0)
    rw [memory, raised]
  | @polledFcu b b' _ executed =>
    obtain ⟨has, same⟩ := pictured
    obtain ⟨_, executed', memory, has'⟩ := has.poll fcu_separate
    cases executed.symm.trans executed'
    have pictured' : Pictured ⟨b', .fcuPolled⟩ _ before := ⟨has', same.cleared fcu_buttons⟩
    have raised' : f.raised = decide (b'.memory offset ≠ 0) := by rw [memory, raised]
    cases button with
    | fcu ev =>
      have unary (a : Nat) (among : a ∈ unaryCells _) : now a = before a := same a (fcu_steady a among)
      refine ⟨_, polled_signal fcu_distinct (mem_fcu here) unary stage copied, ⟨_, before, pictured', fun _ => ?_⟩, raised', rfl⟩
      rw [cleared_here (mem_fcu here)]
      rfl
    | efis ev =>
      refine ⟨f, .nil f, ⟨_, before, pictured', fun busy => ?_⟩, raised', stage⟩
      rw [copied busy, cleared_other fun among => panels_apart _ among (List.mem_map_of_mem (mem_efis here))]
  | @polledEfis b b' _ front executed =>
    obtain ⟨has, same⟩ := pictured
    obtain ⟨_, executed', memory, has'⟩ := has.poll efis_separate
    cases executed.symm.trans executed'
    have pictured' : Pictured ⟨b', .setting (mapUp front)⟩ _ before := ⟨has', mapUp_fits front⟩
    have raised' : f.raised = decide (b'.memory offset ≠ 0) := by rw [memory, raised]
    cases button with
    | fcu ev =>
      refine ⟨f, .nil f, ⟨_, before, pictured', fun busy => ?_⟩, raised', stage⟩
      rw [copied busy, cleared_other (panels_apart _ (List.mem_map_of_mem (mem_fcu here)))]
    | efis ev =>
      have unary (a : Nat) (among : a ∈ unaryCells _) : now a = before a := same a (efis_steady a among)
      refine ⟨_, polled_signal efis_distinct (mem_efis here) unary stage copied, ⟨_, before, pictured', fun _ => ?_⟩, raised', rfl⟩
      rw [cleared_here (mem_efis here)]
      rfl
  | @set b b' s settings executed =>
    obtain ⟨has, fits⟩ := pictured
    have first := fits s List.mem_cons_self
    obtain ⟨_, executed', memory, has'⟩ := has.set first
    cases executed.symm.trans executed'
    refine ⟨f, .nil f, ⟨_, before, ⟨has', fun s' among => fits s' (List.mem_cons_of_mem _ among)⟩, fun busy => ?_⟩, ?_, stage⟩
    · rw [copied busy, patch_outside]
      by_contra inside
      have steady := first.steady offset (List.mem_range'_1.mpr ⟨by omega, by omega⟩)
      exact steady.2 (List.mem_map_of_mem here)
    · show f.raised = decide (b'.memory offset ≠ 0)
      rw [memory, raised]
  | @marked b b' executed =>
    obtain ⟨has, -⟩ := pictured
    obtain ⟨_, executed', memory, has'⟩ := has.mark
    cases executed.symm.trans executed'
    obtain ⟨⟨after, -⟩, other⟩ := button_inBlock here
    refine ⟨f, .nil f, ⟨_, before, has', fun busy => ?_⟩, ?_, stage⟩
    · rw [copied busy, patch_outside (.inr (by simp only [List.length_singleton]; omega))]
    · show f.raised = decide (b'.memory offset ≠ 0)
      rw [memory, raised]
  | @ended b b' executed =>
    obtain ⟨_, executed', memory, has'⟩ := Has.copyUp pictured
    cases executed.symm.trans executed'
    obtain ⟨⟨after, before'⟩, -⟩ := button_inBlock here
    have block (a : Nat) (within : InBlock a) : b'.memory a = now a := by
      rw [memory, patch_region within.1 within.2]
    refine ⟨_, .single (.back stage), ⟨now, before, .inr ⟨has', fun a steady => (block a steady.1).symm⟩, nofun⟩, ?_, rfl⟩
    show f.copy = decide (b'.memory offset ≠ 0)
    rw [block offset ⟨after, before'⟩, copied (by rw [stage]; nofun)]

/-- A poll reports the event of a button as often as its signal. -/
theorem Tracks.reports {e : Moment} (here : (offset, button) ∈ buttons) (tracks : Tracks offset button w f) (step : Step w e w') :
    button.reports e = (button.moves offset e).count (.report true) := by
  obtain ⟨⟨now, before, pictured, -⟩, -, -⟩ := tracks
  cases step with
  | @wrote _ _ offset' =>
    by_cases same : offset' = offset <;> cases button <;> simp [Button.reports, Button.moves, same]
  | polledFcu executed =>
    obtain ⟨has, same⟩ := pictured
    obtain ⟨_, executed', -⟩ := has.poll fcu_separate
    cases executed.symm.trans executed'
    cases button with
    | fcu ev => exact count_report fcu_distinct (mem_fcu here) fun a among => same a (fcu_steady a among)
    | efis ev => rfl
  | polledEfis front executed =>
    obtain ⟨has, same⟩ := pictured
    obtain ⟨_, executed', -⟩ := has.poll efis_separate
    cases executed.symm.trans executed'
    cases button with
    | fcu ev => rfl
    | efis ev => exact count_report efis_distinct (mem_efis here) fun a among => same a (efis_steady a among)
  | _ => cases button <;> rfl

/-! ## Runs -/

/-- The steps up to the next write to the byte. -/
def untilWritten (offset : Nat) (es : List Moment) : List Moment :=
  es.takeWhile fun
    | .wrote offset' _ => offset' ≠ offset
    | _ => true

/-- One event of the button is reported for a write that these steps follow. -/
def Reported (offset : Nat) (button : Button) (since : List Moment) : Prop :=
  ((untilWritten offset since).map button.reports).sum = 1

/-- A cycle has copied the block and not yet written it back. -/
def Late (before : List Moment) : Prop := Trace.Opened .refreshed .ended before

theorem tracks_start (offset : Nat) (button : Button) (memory : Cells) :
    Tracks offset button (.start memory) ⟨decide (memory offset ≠ 0), false, .idle⟩ :=
  ⟨⟨memory, memory, .inl rfl, fun busy => absurd rfl busy⟩, rfl, rfl⟩

theorem Tracks.run {es : List Moment} (here : (offset, button) ∈ buttons) (tracks : Tracks offset button w f)
    (run : Trace Step w es w') :
    ∃ f', Trace Signal.Step f (es.flatMap (button.moves offset)) f' ∧ Tracks offset button w' f' ∧
      (es.map button.reports).sum = (es.flatMap (button.moves offset)).count (.report true) := by
  obtain ⟨f', trace, tracks'⟩ := run.follow (fun related step => Tracks.step here related step) tracks
  have each := run.forall_mem (I := fun w => ∃ f, Tracks offset button w f)
    (P := fun e => button.reports e = (button.moves offset e).count (.report true)) ⟨f, tracks⟩
    (fun ⟨f, tracks⟩ step => (tracks.step here step).imp fun _ => And.right) (fun ⟨f, tracks⟩ step => tracks.reports here step)
  refine ⟨f', trace, tracks', ?_⟩
  rw [List.count_flatMap]
  exact congrArg List.sum (List.map_congr_left each)

theorem late_iff {memory : Cells} {before : List Moment} (run : Trace Step (.start memory) before w) :
    button.stage w.phase ≠ .idle ↔ Late before := by
  have differ : Moment.refreshed ≠ .ended := nofun
  refine run.opened_iff (P := fun w => button.stage w.phase ≠ .idle) differ ?_ ?_ ?_ (by simp [World.start, Button.stage])
  · intro a b step
    cases step
    exact nofun
  · intro a b step
    cases step
    simp [Button.stage]
  · intro a e b notRefreshed notEnded step
    cases step with
    | refreshed => exact absurd rfl notRefreshed
    | ended => exact absurd rfl notEnded
    | _ => cases button <;> simp [Button.stage]

theorem not_raised {es : List Moment} (others : ∀ e ∈ es, ∀ value, e ≠ .wrote offset value) :
    .raise ∉ es.flatMap (button.moves offset) := by
  intro among
  obtain ⟨e, here, move⟩ := List.mem_flatMap.mp among
  cases e with
  | wrote offset' value =>
    by_cases same : offset' = offset
    · exact others _ here value (by rw [same])
    · simp [Button.moves, same] at move
  | _ => cases button <;> simp [Button.moves] at move

theorem untilWritten_others (offset : Nat) (es : List Moment) : ∀ e ∈ untilWritten offset es, ∀ value, e ≠ .wrote offset value := by
  rintro e among value rfl
  simpa using List.mem_takeWhile_imp among

/-- Either the byte is not written any more or the steps go on with a write to it. -/
theorem untilWritten_split (offset : Nat) (es : List Moment) : untilWritten offset es = es ∨
    ∃ value rest, es = untilWritten offset es ++ .wrote offset value :: rest := by
  induction es with
  | nil => exact .inl rfl
  | cons e es ih =>
    by_cases stops : ∃ value, e = .wrote offset value
    · obtain ⟨value, rfl⟩ := stops
      exact .inr ⟨value, es, by simp [untilWritten]⟩
    · have goes : untilWritten offset (e :: es) = e :: untilWritten offset es := by
        cases e with
        | wrote offset' value =>
          have other : offset' ≠ offset := fun same => stops ⟨value, by rw [same]⟩
          simp [untilWritten, other]
        | _ => rfl
      rw [goes]
      rcases ih with all | ⟨value, rest, parted⟩
      · exact .inl (by rw [all])
      · exact .inr ⟨value, rest, by rw [List.cons_append, ← parted]⟩

/-- What follows a write up to the next one, or to the end of a cycle. In both cases the byte
    is zero by then. -/
theorem until_lowered {since : List Moment} (here : (offset, button) ∈ buttons) (tracks : Tracks offset button w f)
    (coherent : f.Coherent) (run : Trace Step w (since ++ [.ended]) w') :
    ∃ (es : List Moment) (f' : Signal), Trace Signal.Step f (es.flatMap (button.moves offset)) f' ∧ f'.raised = false ∧
      (∀ e ∈ es, ∀ value, e ≠ Moment.wrote offset value) ∧
      ((untilWritten offset since).map button.reports).sum = (es.flatMap (button.moves offset)).count (.report true) := by
  obtain ⟨w₁, first, second⟩ := run.split
  have others := untilWritten_others offset since
  rcases untilWritten_split offset since with all | ⟨value, rest, parted⟩
  · obtain ⟨f₁, trace, tracks₁, counted⟩ := tracks.run here first
    cases second with
    | cons last none =>
      obtain ⟨f₂, back, -⟩ := tracks₁.step here last
      rw [all] at others ⊢
      refine ⟨since ++ [.ended], f₂, by simpa using trace.append back, ?_, ?_, ?_⟩
      · cases back with
        | cons back none =>
          cases none
          exact Signal.back_lowers (trace.invariant coherent Signal.Coherent.step) back
      · simpa [or_imp, forall_and] using others
      · rw [counted]
        simp [Button.moves]
  · rw [parted] at first
    obtain ⟨w₂, until', write⟩ := first.split
    obtain ⟨f₂, trace, tracks₂, counted⟩ := tracks.run here until'
    refine ⟨_, f₂, trace, ?_, others, counted⟩
    cases write with
    | cons write _ =>
      cases write with
      | wrote _ zero _ =>
        rw [tracks₂.raised]
        exact decide_eq_false (not_not.mpr zero)

/-- Once a cycle has ended, one event is reported for a press that is not late, and none for
    one that is. -/
theorem reports_of_press {memory : Cells} {before since : List Moment} {value : UInt8} (here : (offset, button) ∈ buttons)
    (run : Trace Step (.start memory) (before ++ .wrote offset value :: (since ++ [.ended])) w) [Decidable (Late before)] :
    ((untilWritten offset since).map button.reports).sum = if Late before then 0 else 1 := by
  obtain ⟨w₁, first, second⟩ := run.split
  obtain ⟨f₁, trace, tracks₁, -⟩ := (tracks_start offset button memory).run here first
  have coherent := trace.invariant (Signal.coherent_idle rfl) Signal.Coherent.step
  cases second with
  | cons write rest =>
    obtain ⟨f₂, raise, tracks₂⟩ := tracks₁.step here write
    have raise : Trace Signal.Step f₁ [.raise] f₂ := by simpa [Button.moves] using raise
    obtain ⟨es, f₃, trace', lowered, others, counted⟩ :=
      until_lowered here tracks₂ (raise.invariant coherent Signal.Coherent.step) rest
    have whole : Trace Signal.Step f₁ (.raise :: es.flatMap (button.moves offset)) f₃ := raise.append trace'
    rw [counted, Signal.reports_of_lowered coherent whole (not_raised others) lowered]
    have late : f₁.stage ≠ .idle ↔ Late before := by
      rw [tracks₁.stage]
      exact late_iff first
    by_cases idle : f₁.stage = .idle
    · rw [if_pos idle, if_neg (fun isLate => late.mpr isLate idle)]
    · rw [if_neg idle, if_pos (late.mp idle)]

/-- A press is reported exactly once by the end of a cycle after it if and only if it is
    not written while a cycle has copied the block and not yet written it back. -/
theorem press_reported_iff {memory : Cells} {before since : List Moment} {value : UInt8} (here : (offset, button) ∈ buttons)
    (run : Trace Step (.start memory) (before ++ .wrote offset value :: (since ++ [.ended])) w) :
    Reported offset button since ↔ ¬ Late before := by
  classical
  unfold Reported
  rw [reports_of_press here run]
  by_cases late : Late before <;> simp [late]

/-- A front side that is switched off. -/
def switchedOff : CockpitFront where
  flightControlUnit := ⟨.knots, .hdgVs, .feet, fun _ => .switchedOff, .selected, .selected, .selected, 0, 0, 0, 0, 0, 0, 0⟩
  efisControlPanel := ⟨.selected, .inHg, .switchedOff, fun _ => .switchedOff, .ils, .rng10, .adf, .adf⟩

/-- The button of the speed units. -/
def spdBtn : Button := .fcu ⟨.spdBtnPressed, 0⟩

theorem spdBtn_here : (0x5620, spdBtn) ∈ buttons := by decide +kernel

/-- The button is pressed before the first cycle. -/
theorem press_reported_early : ∃ since w, Trace Step (.start fun _ => 0) ([] ++ .wrote 0x5620 1 :: (since ++ [.ended])) w ∧
    Reported 0x5620 spdBtn since := by
  obtain ⟨b, fresh⟩ : ∃ b : FsuipcCockpitBack Cells, b = ⟨Function.update (fun _ => 0) 0x5620 1, false, none⟩ := ⟨_, rfl⟩
  have pressed : Step (.start fun _ => 0) (.wrote 0x5620 1) ⟨b, .idle⟩ := by
    rw [fresh]
    exact .wrote (List.mem_map_of_mem spdBtn_here) rfl (by decide)
  have ready : Ready b (fun _ => 0) fun _ => 0 := .inl (by rw [fresh])
  obtain ⟨since, w, finished, -⟩ := finishes_begun switchedOff ready
  have run : Trace Step (.start fun _ => 0) ([] ++ .wrote 0x5620 1 :: (.began :: since ++ [.ended])) w :=
    .cons pressed (.cons .began finished)
  refine ⟨_, w, run, (press_reported_iff spdBtn_here run).mpr ?_⟩
  rintro ⟨es₁, es₂, same, -⟩
  simp at same

/-- The button is pressed while the first cycle polls. A second cycle does not find it. -/
theorem press_lost : ¬ ∀ {memory : Cells} {w : World} {before since : List Moment} {offset : Nat} {button : Button} {value : UInt8},
    (offset, button) ∈ buttons → Trace Step (.start memory) (before ++ .wrote offset value :: (since ++ [.ended])) w →
      .began ∈ since → Reported offset button since := by
  intro claimed
  have ready : Ready ⟨fun _ => 0, false, none⟩ (fun _ => 0) fun _ => 0 := .inl rfl
  obtain ⟨b₁, _, _, prepared, memory₁, has₁, -⟩ := ready.prepare
  obtain ⟨b₂, refreshed, memory₂, has₂⟩ := has₁.refresh
  have first : Trace Step (.start fun _ => 0) [.began, .prepared, .refreshed] ⟨b₂, .refreshed⟩ :=
    .cons .began (.cons (.prepared prepared) (.single (.refreshed refreshed)))
  have pressed : Step ⟨b₂, .refreshed⟩ (.wrote 0x5620 1) _ :=
    .wrote (List.mem_map_of_mem spdBtn_here) (by rw [memory₂, memory₁]) (by decide)
  obtain ⟨es, w, finished, idle, _, _, ready'⟩ := finishes_refreshed switchedOff (has₂.write _)
  obtain ⟨b, phase⟩ := w
  cases idle
  obtain ⟨es', w', finished', -⟩ := finishes_begun switchedOff ready'
  have since : Trace Step _ (es ++ [.ended] ++ .began :: (es' ++ [.ended])) w' := finished.append (.cons .began finished')
  have run : Trace Step (.start fun _ => 0)
      ([.began, .prepared, .refreshed] ++ .wrote 0x5620 1 :: ((es ++ .ended :: .began :: es') ++ [.ended])) w' :=
    first.append (.cons pressed (by simpa using since))
  have late : Late [.began, .prepared, .refreshed] := ⟨[.began, .prepared], [], rfl, List.not_mem_nil⟩
  have reported := claimed spdBtn_here run (by simp)
  classical
  rw [Reported, reports_of_press spdBtn_here run, if_pos late] at reported
  exact absurd reported (by decide)

end Oac.Cockpit
