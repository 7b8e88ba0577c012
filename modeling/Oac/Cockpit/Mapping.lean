import Oac.Cockpit.Cycle

/-!
# The front side in a loop

`Map` tells the front side the events that it has polled, and shows its state in the memory
of FSUIPC. A loop of maps, with whatever other programs write in between, does what can be
said without buffers (`Shadow`): the events are the differences to what the last map has left
(`loop_eq`).
-/
namespace Oac.Cockpit
open Base FsuipcCockpitBack

/-- The functions of `cockpit_front` that `Map` calls. -/
structure FrontSide (σ : Type) where
  pushSpeedUnitsButton : σ → σ
  pushGuidanceDisplayMode : σ → σ
  pushAltitudeUnitsButton : σ → σ
  pushSwitch : UInt32 → σ → σ
  pushKnob : UInt32 → σ → σ
  pullKnob : UInt32 → σ → σ
  setSpeedValue : UInt32 → σ → σ
  setMachValue : UInt32 → σ → σ
  setHeadingValue : UInt32 → σ → σ
  setTrackValue : UInt32 → σ → σ
  setTargetAltitude : UInt32 → σ → σ
  setVerticalSpeedValue : Int32 → σ → σ
  setFpaValue : UInt32 → σ → σ
  pushFdButton : σ → σ
  pushIlsButton : σ → σ
  pushMcpSwitch : UInt32 → σ → σ
  setBarometricMode : UInt32 → σ → σ
  setBarometricFormat : UInt32 → σ → σ
  setNdModeSwitch : UInt32 → σ → σ
  setNdRangeSwitch : UInt32 → σ → σ
  setNdNav1ModeSwitch : UInt32 → σ → σ
  setNdNav2ModeSwitch : UInt32 → σ → σ
  /-- what the getters return -/
  getters : σ → CockpitFront

section
variable {σ : Type} (f : FrontSide σ)

/-- The `switch` of `MapFCUDown`. -/
def fcuDown (s : σ) (ev : Event FcuEventType) : σ :=
  match ev.type with
  | .spdBtnPressed => f.pushSpeedUnitsButton s
  | .guiModeBtnPressed => f.pushGuidanceDisplayMode s
  | .altUnitsBtnPressed => f.pushAltitudeUnitsButton s
  | .swPressed => f.pushSwitch ev.value s
  | .knobPressed => f.pushKnob ev.value s
  | .knobPulled => f.pullKnob ev.value s
  | .spdValueChanged => f.setSpeedValue ev.value s
  | .machValueChanged => f.setMachValue ev.value s
  | .hdgValueChanged => f.setHeadingValue ev.value s
  | .trackValueChanged => f.setTrackValue ev.value s
  | .altValueChanged => f.setTargetAltitude ev.value s
  | .vsValueChanged => f.setVerticalSpeedValue ev.value.toInt32 s
  | .fpaValueChanged => f.setFpaValue ev.value s

/-- The `switch` of `Mapefis_control_panelDown`. -/
def efisDown (s : σ) (ev : Event EfisEventType) : σ :=
  match ev.type with
  | .fdBtnPressed => f.pushFdButton s
  | .ilsBtnPressed => f.pushIlsButton s
  | .mcpSwPressed => f.pushMcpSwitch ev.value s
  | .baroModeSelected => f.setBarometricMode ev.value s
  | .baroFmtSelected => f.setBarometricFormat ev.value s
  | .ndModeSelected => f.setNdModeSwitch ev.value s
  | .ndRangeSelected => f.setNdRangeSwitch ev.value s
  | .ndNav1ModeSelected => f.setNdNav1ModeSwitch ev.value s
  | .ndNav2ModeSelected => f.setNdNav2ModeSwitch ev.value s

/-- The front side and the back side. -/
structure Sides (σ φ : Type) where
  front : σ
  back : FsuipcCockpitBack φ

variable {φ α : Type}

abbrev SidesM (σ φ : Type) := EStateM Exception (Sides σ φ)

/-- A function of the back side. -/
def onBack (x : BackM φ α) : SidesM σ φ α := fun c =>
  match x c.back with
  | .ok a back => .ok a { c with back }
  | .error e back => .error e { c with back }

section
variable [LocalFsuipc φ]

def mapFcuDown : SidesM σ φ Unit := do
  let events ← onBack (onBuffer (pollEvents FlightControlUnitBack.events))
  modify fun c => { c with front := events.foldl (fcuDown f) c.front }

def mapEfisDown : SidesM σ φ Unit := do
  let events ← onBack (onBuffer (pollEvents EfisControlPanelBack.events))
  modify fun c => { c with front := events.foldl (efisDown f) c.front }

def mapFrontUp : SidesM σ φ Unit := do
  onBack (set (mapUp (f.getters (← get).front)))

/-- `Map`, with the front side. -/
def mapFront : SidesM σ φ Unit := do
  onBack syncDown
  mapFcuDown f
  mapEfisDown f
  mapFrontUp f
  onBack syncUp

end

/-! ## Without buffers -/

/-- The front side, the memory, and what the last map has left of it, if there was one. -/
structure Shadow (σ : Type) where
  front : σ
  memory : Cells
  left : Option Cells

/-- The memory after a map. -/
def shown (front : CockpitFront) (m : Cells) : Cells :=
  patch ((mapUp front).foldl (fun m s => patch m s.offset s.data) m) 0x5600 [1]

/-- The buttons of both panels are cleared. -/
def released (m : Cells) : Cells :=
  EfisControlPanelBack.events.foldl Import.cleared (FlightControlUnitBack.events.foldl Import.cleared m)

/-- The events are what is pressed and what differs from what the last map has left. -/
def Shadow.told (s : Shadow σ) : σ :=
  let left := s.left.getD s.memory
  (EfisControlPanelBack.events.flatMap (Import.polled s.memory left)).foldl (efisDown f)
    ((FlightControlUnitBack.events.flatMap (Import.polled s.memory left)).foldl (fcuDown f) s.front)

def Shadow.mapped (s : Shadow σ) : Shadow σ :=
  let front := s.told f
  let memory := shown (f.getters front) (released s.memory)
  ⟨front, memory, some memory⟩

/-- What happens to the cockpit: other programs write, or it is mapped. -/
inductive Stroke where
  | wrote (memory : Cells)
  | mapped

/-- Another memory. -/
def Sides.wrote (memory : Cells) (c : Sides σ Cells) : Sides σ Cells := { c with back := { c.back with memory } }

/-- The cockpit after what happens to it. -/
def Sides.stroke (c : Sides σ Cells) : Stroke → Sides σ Cells
  | .wrote memory => c.wrote memory
  | .mapped => after (mapFront f c)

def Shadow.stroke (s : Shadow σ) : Stroke → Shadow σ
  | .wrote memory => { s with memory }
  | .mapped => s.mapped f

def Sides.start (front : σ) (memory : Cells) : Sides σ Cells := ⟨front, ⟨memory, false, none⟩⟩

def Shadow.start (front : σ) (memory : Cells) : Shadow σ := ⟨front, memory, none⟩

/-! ## A map -/

/-- The buffer has what the last map has left. -/
structure Mirrors (c : Sides σ Cells) (s : Shadow σ) : Prop where
  front : c.front = s.front
  memory : c.back.memory = s.memory
  left : match s.left with
    | none => c.back.buffer = none
    | some m => ∃ before, Has c.back m before

theorem onBack_ok {x : BackM φ α} {c : Sides σ φ} {a : α} {back : FsuipcCockpitBack φ} (executed : x c.back = .ok a back) :
    onBack x c = .ok a { c with back } := by
  simp only [onBack, executed]

/-- The buffer behind `sync_down` shows the memory and what the last map has left. -/
theorem Mirrors.syncDown {c : Sides σ Cells} {s : Shadow σ} (mirrors : Mirrors c s) :
    ∃ b', FsuipcCockpitBack.syncDown c.back = .ok () b' ∧ b'.memory = s.memory ∧ Has b' s.memory (s.left.getD s.memory) := by
  have prepared : ∃ b' before, FsuipcCockpitBack.prepare c.back = .ok () b' ∧ b'.memory = s.memory ∧ Has b' (s.left.getD s.memory) before := by
    have left := mirrors.left
    cases here : s.left with
    | none =>
      rw [here] at left
      obtain ⟨buff, m', executed, shows'⟩ := prepare_fresh left
      exact ⟨_, m', executed, mirrors.memory, buff, rfl, mirrors.memory ▸ shows'⟩
    | some m =>
      rw [here] at left
      obtain ⟨before, buff, present, shows'⟩ := left
      exact ⟨_, before, prepare_again (.inr rfl) present, mirrors.memory, buff, present, shows'⟩
  obtain ⟨b₁, before, executed, memory, has⟩ := prepared
  obtain ⟨b₂, executed', memory', has'⟩ := has.refresh
  have both : (do prepare; refresh : BackM Cells Unit) c.back = .ok () b₂ := (ok_bind executed).trans executed'
  refine ⟨b₂, by simp only [FsuipcCockpitBack.syncDown, both], memory'.trans memory, ?_⟩
  rwa [memory] at has'

theorem Has.settings {settings : List Setting} (fits : ∀ s ∈ settings, s.Fits) {b : FsuipcCockpitBack Cells} {now before : Cells}
    (has : Has b now before) : ∃ b', FsuipcCockpitBack.set settings b = .ok () b' ∧ b'.memory = b.memory ∧
      Has b' (settings.foldl (fun m s => patch m s.offset s.data) now) before := by
  induction settings generalizing b now with
  | nil => exact ⟨b, rfl, rfl, has⟩
  | cons s settings ih =>
    obtain ⟨first, others⟩ := List.forall_mem_cons.mp fits
    obtain ⟨b₁, executed, memory, has₁⟩ := has.set first
    obtain ⟨b₂, continued, memory', has₂⟩ := ih others has₁
    exact ⟨b₂, (ok_bind executed).trans continued, memory'.trans memory, has₂⟩

/-- The panels read addresses of their own. -/
theorem efis_polled (m m' : Cells) : EfisControlPanelBack.events.flatMap (Import.polled (FlightControlUnitBack.events.foldl Import.cleared m) m') =
    EfisControlPanelBack.events.flatMap (Import.polled m m') := by
  have apart : ∀ line ∈ EfisControlPanelBack.events, ∀ a ∈ line.cells, a ∉ (nullaryEvents FlightControlUnitBack.events).map Prod.fst := by
    decide +kernel
  refine List.flatMap_congr fun line among => Import.polled_congr fun a here => ?_
  rw [cleared_apply, if_neg (apart line among a here)]

/-- Outside of its block a map leaves the memory as it is. -/
theorem shown_outside (front : CockpitFront) (m : Cells) {a : Nat} (outside : ¬ InBlock a) : shown front (released m) a = m a := by
  have buttons : ∀ a ∈ (nullaryEvents FlightControlUnitBack.events).map Prod.fst ++ (nullaryEvents EfisControlPanelBack.events).map Prod.fst, InBlock a := by
    decide +kernel
  have kept (settings : List Setting) (fits : ∀ s ∈ settings, s.Fits) (m : Cells) :
      settings.foldl (fun m s => patch m s.offset s.data) m a = m a := by
    induction settings generalizing m with
    | nil => rfl
    | cons s settings ih =>
      obtain ⟨first, others⟩ := List.forall_mem_cons.mp fits
      rw [List.foldl_cons, ih others]
      have after := first.after
      have before := first.before
      exact patch_outside (by unfold InBlock at outside; omega)
  rw [shown, patch_one, Function.update_of_ne (by rintro rfl; exact outside (by decide)), kept _ (mapUp_fits front), released, cleared_apply, cleared_apply]
  rw [if_neg fun among => outside (buttons a (List.mem_append_right _ among)), if_neg fun among => outside (buttons a (List.mem_append_left _ among))]

/-- A map does what it does without buffers, and does not fail. -/
theorem Mirrors.mapped {c : Sides σ Cells} {s : Shadow σ} (mirrors : Mirrors c s) :
    ∃ c', mapFront f c = .ok () c' ∧ Mirrors c' (s.mapped f) := by
  obtain ⟨b₁, down, memory₁, has₁⟩ := mirrors.syncDown
  obtain ⟨b₂, fcu, memory₂, has₂⟩ := has₁.poll fcu_separate
  obtain ⟨b₃, efis, memory₃, has₃⟩ := has₂.poll efis_separate
  rw [efis_polled] at efis
  obtain ⟨b₄, settings, memory₄, has₄⟩ := has₃.settings (mapUp_fits (f.getters (s.told f)))
  obtain ⟨b₅, mark, memory₅, has₅⟩ := has₄.mark
  obtain ⟨b₆, up, memory₆, has₆⟩ := has₅.copyUp
  have synced : FsuipcCockpitBack.syncUp b₄ = .ok () b₆ := by
    obtain ⟨buff, here, -⟩ := has₄
    obtain ⟨memory, fsuipc, buffer⟩ := b₄
    cases here
    exact (ok_bind mark).trans up
  have told : (EfisControlPanelBack.events.flatMap (Import.polled s.memory (s.left.getD s.memory))).foldl (efisDown f)
      ((FlightControlUnitBack.events.flatMap (Import.polled s.memory (s.left.getD s.memory))).foldl (fcuDown f) c.front) = s.told f := by
    rw [mirrors.front]
    rfl
  have fcuDown' : mapFcuDown f ⟨c.front, b₁⟩ = .ok () ⟨_, b₂⟩ := ok_bind (onBack_ok (c := ⟨c.front, b₁⟩) fcu)
  have efisDown' (front : σ) : mapEfisDown f ⟨front, b₂⟩ = .ok () ⟨_, b₃⟩ := ok_bind (onBack_ok (c := ⟨front, b₂⟩) efis)
  have frontUp : mapFrontUp f ⟨s.told f, b₃⟩ = .ok () ⟨s.told f, b₄⟩ := onBack_ok (c := ⟨s.told f, b₃⟩) settings
  have mapped : mapFront f c = .ok () ⟨s.told f, b₆⟩ := by
    refine (ok_bind (onBack_ok down)).trans ((ok_bind fcuDown').trans ((ok_bind (efisDown' _)).trans ?_))
    dsimp only
    rw [told]
    exact (ok_bind frontUp).trans (onBack_ok (c := ⟨s.told f, b₄⟩) synced)
  have memory : b₅.memory = s.memory := memory₅.trans (memory₄.trans (memory₃.trans (memory₂.trans memory₁)))
  refine ⟨⟨s.told f, b₆⟩, mapped, rfl, ?_, _, has₆⟩
  rw [memory₆, memory]
  funext a
  by_cases within : InBlock a
  · exact patch_region within.1 within.2
  · rw [patch_outside (by rw [region_length]; unfold InBlock at within; omega)]
    exact (shown_outside (f.getters (s.told f)) s.memory within).symm

/-! ## What is shown -/

/-- Two settings are for places of their own. -/
def Beside (s t : Setting) : Prop := s.offset + s.data.length ≤ t.offset ∨ t.offset + t.data.length ≤ s.offset

/-- An address that no setting is for. -/
def Unset (settings : List Setting) (a : Nat) : Prop := ∀ s ∈ settings, a < s.offset ∨ s.offset + s.data.length ≤ a

theorem patches_outside {settings : List Setting} {a : Nat} (unset : Unset settings a) (m : Cells) :
    settings.foldl (fun m s => patch m s.offset s.data) m a = m a := by
  induction settings generalizing m with
  | nil => rfl
  | cons s settings ih =>
    obtain ⟨first, others⟩ := List.forall_mem_cons.mp unset
    rw [List.foldl_cons, ih others]
    exact patch_outside first

theorem patches_inside {settings : List Setting} (apart : settings.Pairwise Beside) (m : Cells) :
    ∀ s ∈ settings, region (settings.foldl (fun m s => patch m s.offset s.data) m) s.offset s.data.length = s.data := by
  induction settings generalizing m with
  | nil => exact nofun
  | cons s settings ih =>
    obtain ⟨beside, apart'⟩ := List.pairwise_cons.mp apart
    rw [List.foldl_cons]
    refine List.forall_mem_cons.mpr ⟨?_, ih apart' _⟩
    have kept : region (settings.foldl (fun m s => patch m s.offset s.data) (patch m s.offset s.data)) s.offset s.data.length =
        region (patch m s.offset s.data) s.offset s.data.length := by
      refine region_congr fun a after before => patches_outside (fun t among => ?_) _
      rcases beside t among with first | second
      · exact .inl (by omega)
      · exact .inr (by omega)
    exact kept.trans (region_patch m s.offset s.data)

theorem mapUp_apart (front : CockpitFront) : (mapUp front).Pairwise Beside := by
  have places : settingPlaces.Pairwise fun p q => p.1 + p.2 ≤ q.1 ∨ q.1 + q.2 ≤ p.1 := by decide +kernel
  rw [← mapUp_places front, List.pairwise_map] at places
  exact places

/-- What a map makes of a memory: it shows the front side, the buttons are released and the
    module is marked, and the rest is as it was. -/
structure Displays (front : CockpitFront) (m m' : Cells) : Prop where
  settings : ∀ s ∈ mapUp front, region m' s.offset s.data.length = s.data
  released : ∀ a ∈ buttons.map Prod.fst, m' a = 0
  marked : m' 0x5600 = 1
  rest : ∀ a, Unset (mapUp front) a → a ∉ buttons.map Prod.fst → a ≠ 0x5600 → m' a = m a

theorem released_apply (m : Cells) (a : Nat) : released m a = if a ∈ buttons.map Prod.fst then 0 else m a := by
  have names : buttons.map Prod.fst = (nullaryEvents FlightControlUnitBack.events).map Prod.fst ++ (nullaryEvents EfisControlPanelBack.events).map Prod.fst := by
    decide +kernel
  rw [released, cleared_apply, cleared_apply]
  by_cases efis : a ∈ (nullaryEvents EfisControlPanelBack.events).map Prod.fst
  · rw [if_pos efis, if_pos (names ▸ List.mem_append_right _ efis)]
  · rw [if_neg efis]
    refine if_congr ?_ rfl rfl
    rw [names, List.mem_append, or_iff_left efis]

/-- No setting is for the mark, nor for a button. -/
theorem unset_other (front : CockpitFront) {a : Nat} (other : a = 0x5600 ∨ a ∈ buttons.map Prod.fst) : Unset (mapUp front) a := by
  have places : ∀ p ∈ settingPlaces, ∀ a ∈ 0x5600 :: buttons.map Prod.fst, a < p.1 ∨ p.1 + p.2 ≤ a := by decide +kernel
  intro s among
  have here : (s.offset, s.data.length) ∈ settingPlaces := by
    rw [← mapUp_places front]
    exact List.mem_map_of_mem among
  exact places _ here a (List.mem_cons.mpr other)

theorem shown_displays (front : CockpitFront) (m : Cells) : Displays front m (shown front (released m)) := by
  have unmarked : 0x5600 ∉ buttons.map Prod.fst := by decide +kernel
  have at' (a : Nat) (other : a ≠ 0x5600) : shown front (released m) a =
      (mapUp front).foldl (fun m s => patch m s.offset s.data) (released m) a := by
    rw [shown, patch_one, Function.update_of_ne other]
  constructor
  · intro s among
    refine Eq.trans (region_congr fun a after before => at' a ?_) (patches_inside (mapUp_apart front) (released m) s among)
    rintro rfl
    exact absurd (unset_other front (.inl rfl) s among) (by omega)
  · intro a button
    rw [at' a (by rintro rfl; exact unmarked button), patches_outside (unset_other front (.inr button)), released_apply, if_pos button]
  · rw [shown, patch_one, Function.update_self]
  · intro a unset button other
    rw [at' a other, patches_outside unset, released_apply, if_neg button]

/-! ## Runs -/

/-- What the last map of a run has left of the memory. -/
def lastLeft : Sides σ Cells → Option Cells → List Stroke → Option Cells
  | _, left, [] => left
  | c, left, .wrote memory :: run => lastLeft (c.wrote memory) left run
  | c, _, .mapped :: run => lastLeft (c.stroke f .mapped) (some (c.stroke f .mapped).back.memory) run

theorem Mirrors.stroke {c : Sides σ Cells} {s : Shadow σ} (mirrors : Mirrors c s) (e : Stroke) : Mirrors (c.stroke f e) (s.stroke f e) := by
  cases e with
  | wrote memory => exact ⟨mirrors.front, rfl, mirrors.left⟩
  | mapped =>
    obtain ⟨c', executed, mirrors'⟩ := mirrors.mapped f
    have reached : c.stroke f .mapped = c' := by simp only [Sides.stroke, executed, after]
    rwa [reached]

/-- The cockpit does in every run what it does without buffers. -/
theorem Mirrors.run {c : Sides σ Cells} {s : Shadow σ} (mirrors : Mirrors c s) (run : List Stroke) :
    Mirrors (run.foldl (Sides.stroke f) c) (run.foldl (Shadow.stroke f) s) ∧
      (run.foldl (Shadow.stroke f) s).left = lastLeft f c s.left run := by
  induction run generalizing c s with
  | nil => exact ⟨mirrors, rfl⟩
  | cons e run ih =>
    obtain ⟨mirrors', left⟩ := ih (mirrors.stroke f e)
    refine ⟨mirrors', left.trans ?_⟩
    cases e with
    | wrote memory => rfl
    | mapped =>
      have memory : (c.stroke f .mapped).back.memory = (s.mapped f).memory := (mirrors.stroke f .mapped).memory
      rw [lastLeft, memory]
      rfl

theorem mirrors_start (front : σ) (memory : Cells) : Mirrors (Sides.start front memory) (Shadow.start front memory) := ⟨rfl, rfl, rfl⟩

/-- A map after any run does not fail. The front side is told, in the order of the lines of
    the two panels, what is pressed, and each value that differs from what the last map has
    left; and then the memory shows the front side. -/
theorem loop_eq (front : σ) (memory : Cells) (run : List Stroke) :
    let c := run.foldl (Sides.stroke f) (Sides.start front memory)
    let left := (lastLeft f (Sides.start front memory) none run).getD c.back.memory
    ∃ c', mapFront f c = .ok () c' ∧
      c'.front = (EfisControlPanelBack.events.flatMap (Import.polled c.back.memory left)).foldl (efisDown f)
        ((FlightControlUnitBack.events.flatMap (Import.polled c.back.memory left)).foldl (fcuDown f) c.front) ∧
      Displays (f.getters c'.front) c.back.memory c'.back.memory := by
  intro c left
  obtain ⟨mirrors, same⟩ := (mirrors_start front memory).run f run
  obtain ⟨c', executed, mirrors'⟩ := mirrors.mapped f
  refine ⟨c', executed, ?_, ?_⟩
  · rw [mirrors'.front, Shadow.mapped, Shadow.told, same, ← mirrors.memory, ← mirrors.front]
    rfl
  · rw [mirrors'.memory, mirrors'.front, mirrors.memory]
    exact shown_displays _ _

/-- A memory that shows a front side shows it again. -/
theorem Displays.again {front : CockpitFront} {m m' m'' : Cells} (first : Displays front m m') (second : Displays front m' m'') : m'' = m' := by
  funext a
  by_cases unset : Unset (mapUp front) a
  · by_cases button : a ∈ buttons.map Prod.fst
    · rw [first.released a button, second.released a button]
    · by_cases mark : a = 0x5600
      · rw [mark, first.marked, second.marked]
      · exact second.rest a unset button mark
  · unfold Unset at unset
    push Not at unset
    obtain ⟨s, among, after, before⟩ := unset
    have both := (second.settings s among).trans (first.settings s among).symm
    have entry (m : Cells) : (region m s.offset s.data.length)[a - s.offset]? = some (m a) := by
      rw [List.getElem?_eq_getElem (by rw [region_length]; omega), region_getElem, Nat.add_sub_cancel' after]
    have cell := congrArg (fun block => block[a - s.offset]?) both
    rw [entry, entry] at cell
    exact Option.some.inj cell

/-- Buttons that are released and values that are as they were tell nothing. -/
theorem polled_quiet {τ : Type} {lines : List (Import τ)} {m : Cells} (zero : ∀ a ∈ (nullaryEvents lines).map Prod.fst, m a = 0) :
    lines.flatMap (Import.polled m m) = [] := by
  rw [polled_unchanged fun _ _ => rfl, List.map_eq_nil_iff, List.filter_eq_nil_iff]
  intro p among
  simpa using zero p.1 (List.mem_map_of_mem among)

/-- A map after a map changes nothing. -/
theorem Shadow.mapped_mapped (s : Shadow σ) :
    ((s.mapped f).mapped f).front = (s.mapped f).front ∧ ((s.mapped f).mapped f).memory = (s.mapped f).memory := by
  have first : Displays (f.getters (s.mapped f).front) s.memory (s.mapped f).memory := shown_displays _ _
  have efis : ∀ a ∈ (nullaryEvents EfisControlPanelBack.events).map Prod.fst, a ∈ buttons.map Prod.fst := by decide +kernel
  have quiet : FlightControlUnitBack.events.flatMap (Import.polled (s.mapped f).memory (s.mapped f).memory) = [] :=
    polled_quiet fun a among => first.released a (fcu_buttons a among)
  have quiet' : EfisControlPanelBack.events.flatMap (Import.polled (s.mapped f).memory (s.mapped f).memory) = [] :=
    polled_quiet fun a among => first.released a (efis a among)
  have same : ((s.mapped f).mapped f).front = (s.mapped f).front := by
    show (EfisControlPanelBack.events.flatMap (Import.polled (s.mapped f).memory (s.mapped f).memory)).foldl (efisDown f)
      ((FlightControlUnitBack.events.flatMap (Import.polled (s.mapped f).memory (s.mapped f).memory)).foldl (fcuDown f) (s.mapped f).front) = _
    rw [quiet, quiet']
    rfl
  have second : Displays (f.getters ((s.mapped f).mapped f).front) (s.mapped f).memory ((s.mapped f).mapped f).memory := shown_displays _ _
  rw [same] at second
  exact ⟨same, first.again second⟩

/-- In every run a map before which no other program has written since the last one changes
    nothing: what the cockpit shows comes back as no event. -/
theorem loop_quiet (front : σ) (memory : Cells) (run : List Stroke) :
    let c := (run.foldl (Sides.stroke f) (Sides.start front memory)).stroke f .mapped
    (c.stroke f .mapped).front = c.front ∧ (c.stroke f .mapped).back.memory = c.back.memory := by
  obtain ⟨mirrors, -⟩ := (mirrors_start front memory).run f run
  have mirrors₁ := mirrors.stroke f .mapped
  have mirrors₂ := mirrors₁.stroke f .mapped
  obtain ⟨sameFront, sameMemory⟩ := (run.foldl (Shadow.stroke f) (Shadow.start front memory)).mapped_mapped f
  exact ⟨mirrors₂.front.trans (sameFront.trans mirrors₁.front.symm), mirrors₂.memory.trans (sameMemory.trans mirrors₁.memory.symm)⟩

end
end Oac.Cockpit
