import Oac.Cockpit.Faults

/-!
# The values of the FCU

A value that another program changes in the memory of FSUIPC is polled as an event of its
own, and one that the cockpit exports is not. The poll and the setter of a value have to
agree on its offset for that. They do, except for the flight path angle
(`value_changes_iff`).
-/
namespace Oac.Cockpit
open Base FsuipcCockpitBack Faulty

/-! ## Polls of a single change -/

section
variable {τ : Type} {lines : List (Import τ)} {m m' : Cells} {offset : Nat}

/-- No button of a panel is pressed. -/
def Unpressed (lines : List (Import τ)) (m : Cells) : Prop := ∀ offset ∈ (nullaryEvents lines).map Prod.fst, m offset = 0
instance (lines : List (Import τ)) (m : Cells) : Decidable (Unpressed lines m) := inferInstanceAs (Decidable (∀ _ ∈ _, _))

theorem polled_nil_iff (same : ∀ a ∈ unaryCells lines, m a = m' a) :
    lines.flatMap (Import.polled m m') = [] ↔ Unpressed lines m := by
  rw [polled_unchanged same, List.map_eq_nil_iff, List.filter_eq_nil_iff]
  constructor
  · intro none offset among
    obtain ⟨p, here, rfl⟩ := List.mem_map.mp among
    simpa using none p here
  · intro unpressed p among
    simpa using unpressed p.1 (List.mem_map_of_mem among)

theorem cells_of_unaryCells {a : Nat} (among : a ∈ unaryCells lines) : a ∈ lines.flatMap Import.cells := by
  obtain ⟨line, here, within⟩ := List.mem_flatMap.mp among
  refine List.mem_flatMap.mpr ⟨line, here, ?_⟩
  cases line with
  | nullary offset evType eventValue => exact absurd within List.not_mem_nil
  | unaryByte offset evType => exact within
  | unaryDword offset evType => exact within

theorem nullaryEvents_append (lines lines' : List (Import τ)) :
    nullaryEvents (lines ++ lines') = nullaryEvents lines ++ nullaryEvents lines' := List.filterMap_append

/-- Where nothing has changed but what one line reads, and no button is pressed, the events
    are those of the line. -/
theorem polled_single {evType : τ} (separate : Separate lines) (among : .unaryDword offset evType ∈ lines)
    (same : ∀ a ∉ List.range' offset 4, m a = m' a) (unpressed : Unpressed lines m) :
    lines.flatMap (Import.polled m m') = (Import.unaryDword offset evType).polled m m' := by
  obtain ⟨before, behind, rfl⟩ := List.append_of_mem among
  obtain ⟨distinct, -⟩ := separate
  rw [List.flatMap_append, List.flatMap_cons] at distinct
  obtain ⟨-, distinct', apart⟩ := List.nodup_append.mp distinct
  obtain ⟨-, -, apart'⟩ := List.nodup_append.mp distinct'
  have quiet : before.flatMap (Import.polled m m') = [] := by
    refine (polled_nil_iff fun a among => same a fun here => ?_).mpr fun offset among => unpressed offset ?_
    · exact apart a (cells_of_unaryCells among) a (List.mem_append_left _ here) rfl
    · rw [nullaryEvents_append, List.map_append]
      exact List.mem_append_left _ among
  have quiet' : behind.flatMap (Import.polled m m') = [] := by
    refine (polled_nil_iff fun a among => same a fun here => ?_).mpr fun offset among => unpressed offset ?_
    · exact apart' a here a (cells_of_unaryCells among) rfl
    · rw [nullaryEvents_append, List.map_append, nullaryEvents_unaryDword]
      exact List.mem_append_right _ among
  rw [List.flatMap_append, List.flatMap_cons, quiet, quiet', List.nil_append, List.append_nil]

theorem mem_polled_of_pressed {ev : Event τ} (button : (offset, ev) ∈ nullaryEvents lines) (pressed : m offset ≠ 0) :
    ev ∈ lines.flatMap (Import.polled m m') := by
  obtain ⟨line, among, same⟩ := List.mem_filterMap.mp button
  refine List.mem_flatMap.mpr ⟨line, among, ?_⟩
  cases line with
  | nullary offset' evType eventValue =>
    cases same
    rw [Import.polled, if_pos pressed]
    exact List.mem_singleton_self _
  | unaryByte offset' evType => cases same
  | unaryDword offset' evType => cases same

end

/-! ## Fields -/

inductive FcuField where
  | speed | mach | heading | track | altitude | verticalSpeed | flightPathAngle
  deriving DecidableEq

namespace FcuField
open FlightControlUnitBack

/-- The setter of the field. -/
def set : FcuField → UInt32 → Setting
  | speed, value => setSpeedValue value
  | mach, value => setMachValue value
  | heading, value => setHeadingValue value
  | track, value => setTrackValue value
  | altitude, value => setTargetAltitude value
  | verticalSpeed, value => setVerticalSpeedValue value.toInt32
  | flightPathAngle, value => setFpaValue value

/-- The event that tells that the field has changed. -/
def event : FcuField → FcuEventType
  | speed => .spdValueChanged
  | mach => .machValueChanged
  | heading => .hdgValueChanged
  | track => .trackValueChanged
  | altitude => .altValueChanged
  | verticalSpeed => .vsValueChanged
  | flightPathAngle => .fpaValueChanged

/-- Where the setter writes. -/
def offset (field : FcuField) : Nat := (field.set 0).offset

theorem set_eq (field : FcuField) (value : UInt32) : field.set value = .dword field.offset value := by
  cases field <;> rfl

/-- `poll_events` watches the fields where they are set, but for one. -/
theorem watched_iff (field : FcuField) : .unaryDword field.offset field.event ∈ events ↔ field ≠ flightPathAngle := by
  cases field <;> decide +kernel

/-- The memory after the value of the field has been written there. -/
def written (field : FcuField) (value : UInt32) (m : Cells) : Cells := patch m (field.set value).offset (field.set value).data

variable (field : FcuField) (value value' : UInt32) (m : Cells)

theorem written_eq : field.written value m = patch m field.offset (Memory.toMemory value) := by
  rw [written, set_eq]
  rfl

theorem written_outside {a : Nat} (outside : a ∉ List.range' field.offset 4) : field.written value m a = m a := by
  rw [List.mem_range'_1, not_and_or, not_le, not_lt] at outside
  rw [written_eq]
  exact patch_outside (outside.imp id fun behind => by rwa [Memory.toMemory_length])

theorem region_written : region (field.written value m) field.offset 4 = Memory.toMemory value := by
  rw [written_eq]
  exact region_patch m field.offset (Memory.toMemory value)

theorem buttons_outside : ∀ offset ∈ (nullaryEvents events).map Prod.fst, offset ∉ List.range' field.offset 4 := by
  cases field <;> decide +kernel

theorem buttons_other : ∀ p ∈ nullaryEvents events, p.2.type ≠ field.event := by
  cases field <;> decide +kernel

theorem flightPathAngle_unwatched : ∀ a ∈ unaryCells events, a ∉ List.range' flightPathAngle.offset 4 := by
  decide +kernel

theorem unpressed_written : Unpressed events (field.written value m) ↔ Unpressed events m := by
  have same := fun offset among => field.written_outside value m (field.buttons_outside offset among)
  constructor
  · exact fun unpressed offset among => (same offset among).symm.trans (unpressed offset among)
  · exact fun unpressed offset among => (same offset among).trans (unpressed offset among)

/-- An event that is alone is not that of a button. -/
theorem unpressed_of_alone {m' : Cells} (alone : events.flatMap (Import.polled m m') = [⟨field.event, value⟩]) :
    Unpressed events m := by
  intro offset among
  by_contra pressed
  obtain ⟨⟨_, ev⟩, button, rfl⟩ := List.mem_map.mp among
  have polled : ev ∈ events.flatMap (Import.polled m m') := mem_polled_of_pressed button pressed
  rw [alone, List.mem_singleton] at polled
  exact field.buttons_other _ button (congrArg Event.type polled)

/-- Only the change of a field that is watched where it is set is polled. -/
theorem polled_written_iff (differ : value ≠ value') :
    events.flatMap (Import.polled (field.written value' m) (field.written value m)) = [⟨field.event, value'⟩] ↔
      field ≠ flightPathAngle ∧ Unpressed events m := by
  have same : ∀ a ∉ List.range' field.offset 4, field.written value' m a = field.written value m a := fun a outside =>
    (field.written_outside value' m outside).trans (field.written_outside value m outside).symm
  constructor
  · intro alone
    have unpressed := unpressed_of_alone field value' _ alone
    refine ⟨?_, (field.unpressed_written value' m).mp unpressed⟩
    rintro rfl
    rw [(polled_nil_iff fun a among => same a (flightPathAngle_unwatched a among)).mpr unpressed] at alone
    exact List.cons_ne_nil _ _ alone.symm
  · rintro ⟨other, unpressed⟩
    rw [polled_single fcu_separate (field.watched_iff.mpr other) same ((field.unpressed_written value' m).mpr unpressed),
      Import.polled, region_written, region_written, Memory.ofMemory_toMemory, if_pos]
    exact fun bytes => differ (by simpa using congrArg (Memory.ofMemory (α := UInt32)) bytes.symm)

end FcuField

/-! ## Runs -/

namespace Faulty
section
variable {b b' c : FsuipcCockpitBack Faulty} {buff : Buffer} {m now before : Cells} {f : Faulty} {e : Act}

/-- `sync_up` exports what the buffer holds. -/
theorem syncUp_exports (opens : Opens b) (here : b.buffer = some buff) (shows' : Shows buff now before) :
    (∃ f' buff', syncUp b = .ok () ⟨f', true, some buff'⟩ ∧ Shows buff' (patch now 0x5600 [1]) before ∧
      ∀ a, InBlock a → f'.cells a = patch now 0x5600 [1] a) ∨
    (b.memory.answers ≠ [] ∧ ∃ e c, syncUp b = .error e c) := by
  obtain ⟨buff', stored, shows''⟩ := store_shows (1 : UInt8) shows' le_rfl (by decide)
  rw [show Memory.toMemory (1 : UInt8) = [1] from rfl] at shows''
  have marked : mark b = .ok () ⟨b.memory, true, some buff'⟩ :=
    (open_first _ opens.created).trans (onBuffer_ok (b := { b with fsuipc := true }) here stored)
  have begun : syncUp b = copyUp ⟨b.memory, true, some buff'⟩ := by
    obtain ⟨memory, fsuipc, buffer⟩ := b
    cases here
    exact ok_bind marked
  have block := (holding_shows before).read shows'' le_rfl (le_refl (0x5600 + 512))
  rw [begun]
  rcases b.memory.write_cases (region (patch now 0x5600 [1]) 0x5600 512) 0x5600 with ⟨f', wrote, cells⟩ | ⟨scripted, e, f', raised⟩
  · refine .inl ⟨f', buff', ?_, shows'', fun a within => ?_⟩
    · simp only [copyUp, localFsuipcCopy_block block, wrote]
    · rw [cells, patch_region within.1 within.2]
  · refine .inr ⟨scripted, e, ⟨f', true, some buff'⟩, ?_⟩
    simp only [copyUp, localFsuipcCopy_block block, raised]

/-- The buffer holds the values of the FCU as they are in `m`. -/
def Shown (m : Cells) (b : FsuipcCockpitBack Faulty) : Prop :=
  ∃ buff now before, b.buffer = some buff ∧ Shows buff now before ∧ ∀ a ∈ unaryCells FlightControlUnitBack.events, now a = m a

/-- No block is copied into the buffer, and no value of the FCU is set but to that of `m`. -/
def Act.Keeps (m : Cells) : Act → Prop
  | .down _ | .interrupted _ => False
  | .set s => ∀ a ∈ unaryCells FlightControlUnitBack.events, patch m s.offset s.data a = m a
  | _ => True

theorem values_uncleared : ∀ a ∈ unaryCells FlightControlUnitBack.events, a ∉ (nullaryEvents FlightControlUnitBack.events).map Prod.fst ∧
    a ∉ (nullaryEvents EfisControlPanelBack.events).map Prod.fst ∧ a ≠ 0x5600 := by
  decide +kernel

theorem Act.Moves.kept {now' : Cells} (moves : e.Moves now now') (keeps : e.Keeps m)
    (same : ∀ a ∈ unaryCells FlightControlUnitBack.events, now a = m a) :
    ∀ a ∈ unaryCells FlightControlUnitBack.events, now' a = m a := by
  intro a among
  obtain ⟨uncleared, uncleared', unmarked⟩ := values_uncleared a among
  cases e with
  | down f => exact keeps.elim
  | refused f => exact (congrFun moves a).trans (same a among)
  | interrupted f => exact keeps.elim
  | pollFcu => rw [show now' = _ from moves, cleared_apply, if_neg uncleared, same a among]
  | pollEfis => rw [show now' = _ from moves, cleared_apply, if_neg uncleared', same a among]
  | set s =>
    rw [show now' = _ from moves, ← keeps a among]
    unfold patch
    rw [same a among]
  | up f => exact (moves a unmarked).trans (same a among)

theorem Shown.step (shown : Shown m b) (keeps : e.Keeps m) (step : Step b e c) : Shown m c := by
  obtain ⟨buff, now, before, here, shows', same⟩ := shown
  obtain ⟨buff', now', before', here', shows'', moves, -⟩ := step_shows here shows' step
  exact ⟨buff', now', before', here', shows'', moves.kept keeps same⟩

theorem Shown.trace {es : List Act} (shown : Shown m b) (keeps : ∀ e ∈ es, e.Keeps m) (trace : Trace Step b es c) : Shown m c := by
  induction trace with
  | nil => exact shown
  | cons first _ ih =>
    obtain ⟨keep, keeps⟩ := List.forall_mem_cons.mp keeps
    exact ih (shown.step keep first) keeps

/-- What is polled behind the next `sync_down`. -/
theorem Shown.fcuEvents_eq (shown : Shown m b) (step : Step b (.down f) c) :
    fcuEvents c = some (FlightControlUnitBack.events.flatMap (Import.polled f.cells m)) := by
  obtain ⟨buff, now, before, here, shows', same⟩ := shown
  cases step with
  | down executed =>
    obtain ⟨buff', here', shows''⟩ := again_of_ok executed here shows'
    rw [(events_shows here' shows'').1, polled_congr_before same]

theorem down_shown (resembles : Resembles watched b.buffer b.buffer) (step : Step b (.down f) c) : Shown f.cells c := by
  cases step with
  | down executed =>
    cases here : b.buffer with
    | none =>
      obtain ⟨buff, here', shows'⟩ := first_of_ok executed here
      exact ⟨buff, _, _, here', shows', fun _ _ => rfl⟩
    | some buff =>
      rw [here] at resembles
      cases resembles with
      | some _ shows' =>
        obtain ⟨buff', here', shows''⟩ := again_of_ok executed here shows'
        exact ⟨buff', _, _, here', shows'', fun _ _ => rfl⟩

theorem exported_shown (here : b.buffer = some buff) (shows' : Shows buff now before)
    (executed : syncUp { b with memory := f } = .ok () c) : Shown c.memory.cells c := by
  have opens : Opens { b with memory := f } := by
    by_contra closed
    exact absurd ((syncUp_refused closed here).symm.trans executed) nofun
  rcases syncUp_exports opens here shows' with ⟨f', buff', ends, shows'', cells⟩ | ⟨-, e, c', ends⟩
  · cases ends.symm.trans executed
    exact ⟨buff', _, _, rfl, shows'', fun a among => (cells a (watched_inBlock a (List.mem_append_left _ among))).symm⟩
  · exact absurd (ends.symm.trans executed) nofun

/-! ## Changes and exports -/

/-- Between two calls of `sync_down` only the value of the field is changed in the memory,
    and the buffer keeps the values of the FCU. -/
def Changes (field : FcuField) (value value' : UInt32) (m : Cells) (b c : FsuipcCockpitBack Faulty) : Prop :=
  ∃ (f f' : Faulty) (acts : List Act) (b₁ b₂ : FsuipcCockpitBack Faulty),
    f.cells = field.written value m ∧ f'.cells = field.written value' m ∧ Step b (.down f) b₁ ∧
    (∀ e ∈ acts, e.Keeps f.cells) ∧ Trace Step b₁ acts b₂ ∧ Step b₂ (.down f') c

/-- The field is set and exported, and what the memory is then, `m`, is read back. -/
def Exports (field : FcuField) (value : UInt32) (m : Cells) (b c : FsuipcCockpitBack Faulty) : Prop :=
  ∃ (f f' : Faulty) (acts acts' : List Act) (b₁ b₂ b₃ b₄ : FsuipcCockpitBack Faulty),
    onBuffer (field.set value).run b = .ok () b₁ ∧ Trace Step b₁ acts b₂ ∧ syncUp { b₂ with memory := f } = .ok () b₃ ∧
    b₃.memory.cells = m ∧ (∀ e ∈ acts', e.Keeps m) ∧ Trace Step b₃ acts' b₄ ∧ f'.cells = m ∧ Step b₄ (.down f') c

/-- Where there is no buffer yet, two calls make a change. -/
theorem changes_fresh (fresh : b.buffer = none) (field : FcuField) (value value' : UInt32) (m : Cells) :
    ∃ c es buff, Trace Step b es c ∧ Changes field value value' m b c ∧ c.buffer = some buff ∧
      Shows buff (field.written value' m) (field.written value m) := by
  obtain ⟨b₁, buff₁, first, here₁, shows₁⟩ := down_first fresh (field.written value m)
  obtain ⟨c, buff₂, second, here₂, shows₂⟩ := down_again here₁ shows₁ (field.written value' m)
  refine ⟨c, _, buff₂, .cons first (.single second), ?_, here₂, shows₂⟩
  exact ⟨_, _, [], b₁, b₁, rfl, rfl, first, fun _ none => absurd none List.not_mem_nil, .nil _, second⟩

/-- A setter returns where there is a buffer, and leaves it one. -/
theorem set_shows {field : FcuField} {value : UInt32} (resembles : Resembles watched b.buffer b.buffer)
    (wrote : onBuffer (field.set value).run b = .ok () c) :
    ∃ buff now before, c.buffer = some buff ∧ Shows buff now before := by
  obtain ⟨memory, fsuipc, buffer⟩ := b
  cases resembles with
  | none => exact absurd wrote nofun
  | some _ shows' =>
    have inside : 0x5600 ≤ field.offset ∧ field.offset + 4 ≤ 0x5800 := by cases field <;> decide
    rw [field.set_eq] at wrote
    obtain ⟨buff', executed, shows''⟩ := Setting.run_shows (.dword field.offset value) shows' inside.1 inside.2
    cases (onBuffer_ok (b := ⟨memory, fsuipc, .some _⟩) rfl executed).symm.trans wrote
    exact ⟨buff', _, _, rfl, shows''⟩

theorem exported_current {field : FcuField} {value : UInt32} (resembles : Resembles watched b.buffer b.buffer)
    (exports : Exports field value m b c) : ∃ b₄ f', f'.cells = m ∧ Shown m b₄ ∧ Step b₄ (.down f') c := by
  obtain ⟨f, f', acts, acts', b₁, b₂, b₃, b₄, wrote, trace, exported, rfl, keeps, trace', same, step⟩ := exports
  have buffered : ∃ buff now before, b₂.buffer = some buff ∧ Shows buff now before := by
    refine trace.invariant (I := fun b => ∃ buff now before, b.buffer = some buff ∧ Shows buff now before)
      (set_shows resembles wrote) ?_
    rintro a e b ⟨buff, now, before, here, shows'⟩ step
    obtain ⟨buff', now', before', here', shows'', -⟩ := step_shows here shows' step
    exact ⟨buff', now', before', here', shows''⟩
  obtain ⟨buff, now, before, here, shows'⟩ := buffered
  exact ⟨b₄, f', same, (exported_shown here shows' exported).trace keeps trace', step⟩

/-- The change of a value is polled as its event alone, exactly if the value is not the
    flight path angle and no button of the FCU is pressed. Of a value that was exported
    nothing is polled, exactly if no button of the FCU is pressed. -/
theorem value_changes_iff (field : FcuField) {memory : Faulty} {es : List Act} {b : FsuipcCockpitBack Faulty}
    (run : Trace Step ⟨memory, false, none⟩ es b) :
    (∀ {value value' : UInt32} {m : Cells} {c : FsuipcCockpitBack Faulty}, value ≠ value' → Changes field value value' m b c →
      (fcuEvents c = some [⟨field.event, value'⟩] ↔
        field ≠ .flightPathAngle ∧ Unpressed FlightControlUnitBack.events m)) ∧
    ∀ {value : UInt32} {m : Cells} {c : FsuipcCockpitBack Faulty}, Exports field value m b c →
      (fcuEvents c = some [] ↔ Unpressed FlightControlUnitBack.events m) := by
  have resembles := Resembles.none.trace run run
  constructor
  · rintro value value' m c differ ⟨f, f', acts, b₁, b₂, old, new, first, keeps, trace, second⟩
    have shown := (down_shown resembles first).trace keeps trace
    rw [shown.fcuEvents_eq second, Option.some.injEq, old, new]
    exact field.polled_written_iff value value' m differ
  · intro value m c exports
    obtain ⟨b₄, f', rfl, shown, step⟩ := exported_current resembles exports
    rw [shown.fcuEvents_eq step, Option.some.injEq]
    exact polled_nil_iff fun _ _ => rfl

/-- The heading changes from 10 to 20 degrees, and is then set to 30. -/
theorem heading_changes : ∃ b c : FsuipcCockpitBack Faulty, Changes .heading 10 20 (fun _ => 0) b c ∧
    fcuEvents c = some [⟨.hdgValueChanged, 20⟩] ∧ ∃ m d, Exports .heading 30 m c d ∧ fcuEvents d = some [] := by
  obtain ⟨b, named⟩ : ∃ b : FsuipcCockpitBack Faulty, b = ⟨⟨fun _ => 0, none, []⟩, false, none⟩ := ⟨_, rfl⟩
  obtain ⟨c, es, buff₂, trace, changes, here₂, shows₂⟩ := changes_fresh (b := b) (named ▸ rfl) .heading 10 20 fun _ => 0
  have run : Trace Step ⟨⟨fun _ => 0, none, []⟩, false, none⟩ [] b := named ▸ .nil _
  refine ⟨b, c, changes, ((value_changes_iff .heading run).1 (by decide) changes).mpr (by decide +kernel), ?_⟩
  obtain ⟨buff₃, wrote, shows₃⟩ := (FcuField.heading.set 30).run_shows shows₂ (by decide) (by decide)
  obtain ⟨f, buff₄, exported, shows₄, cells⟩ | ⟨scripted, -⟩ :=
    syncUp_exports (b := ⟨⟨fun _ => 0, none, []⟩, c.fsuipc, some buff₃⟩) (.inr rfl) rfl shows₃
  · obtain ⟨d, buff₅, third, -, -⟩ := down_again (b := ⟨f, true, some buff₄⟩) rfl shows₄ f.cells
    have exports : Exports .heading 30 f.cells c d :=
      ⟨⟨fun _ => 0, none, []⟩, ⟨f.cells, none, []⟩, [], [], _, _, _, _, onBuffer_ok here₂ wrote, .nil _, exported, rfl,
        fun _ none => absurd none List.not_mem_nil, .nil _, rfl, third⟩
    have unpressed : ∀ offset ∈ (nullaryEvents FlightControlUnitBack.events).map Prod.fst, InBlock offset ∧
        patch (patch (FcuField.heading.written 20 fun _ => 0) (FcuField.heading.set 30).offset (FcuField.heading.set 30).data)
          0x5600 [1] offset = 0 := by
      decide +kernel
    have run' : Trace Step ⟨⟨fun _ => 0, none, []⟩, false, none⟩ _ c := run.append trace
    refine ⟨f.cells, d, exports, ((value_changes_iff .heading run').2 exports).mpr fun offset among => ?_⟩
    obtain ⟨within, zero⟩ := unpressed offset among
    rw [cells offset within, zero]
  · exact absurd rfl scripted

/-- The exporter writes the flight path angle where the setter does. No event tells of it. -/
theorem flightPathAngle_not_polled : ∃ b c : FsuipcCockpitBack Faulty, b = ⟨⟨fun _ => 0, none, []⟩, false, none⟩ ∧
    Changes .flightPathAngle 0 1 (fun _ => 0) b c ∧ fcuEvents c = some [] := by
  obtain ⟨b, named⟩ : ∃ b : FsuipcCockpitBack Faulty, b = ⟨⟨fun _ => 0, none, []⟩, false, none⟩ := ⟨_, rfl⟩
  obtain ⟨c, es, buff₂, -, changes, here₂, shows₂⟩ := changes_fresh (b := b) (named ▸ rfl) .flightPathAngle 0 1 fun _ => 0
  refine ⟨b, c, named, changes, ?_⟩
  rw [(events_shows here₂ shows₂).1, Option.some.injEq]
  exact (polled_nil_iff (by decide +kernel)).mpr (by decide +kernel)

end
end Faulty
end Oac.Cockpit
