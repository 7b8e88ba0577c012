import Oac.Cockpit.Back
import Mathlib.Data.List.Nodup

/-!
# Polls, setters and copies

What the back side does in terms of memories, as long as FSUIPC is one (`Cells`): the
buffer shows a memory as it is now and as it was, a poll reports the bytes of buttons that
are not zero and the values that have changed, and clears the buttons (`pollEvents_shows`).
-/
namespace Oac.Cockpit
open Base

/-- A memory of bytes. -/
abbrev Cells := Nat → UInt8

/-- The buffer holds the block of `m`, and in its other half that of `m'`. -/
def Shows (buff : Buffer) (m m' : Cells) : Prop :=
  buff.Holds (ShiftedBuffer.Holds (LinearBuffer.Holds 512) 0x5600 512) m m'

theorem holding_shows (m' : Cells) : Holding 0x5600 512 fun buff m => Shows buff m m' :=
  DoubleBuffer.holding (ShiftedBuffer.holding (by decide) (LinearBuffer.holding 512)) m'

/-- An address of the block. -/
def InBlock (a : Nat) : Prop := 0x5600 ≤ a ∧ a < 0x5800
instance : DecidablePred InBlock := fun _ => inferInstanceAs (Decidable (_ ∧ _))

section
variable {α τ : Type} {buff : Buffer} {m m' n n' : Cells} {offset : Nat}

/-- Only the block is shown. -/
theorem Shows.congr (shows' : Shows buff m m') (same : ∀ a, InBlock a → m a = n a) (same' : ∀ a, InBlock a → m' a = n' a) :
    Shows buff n n' := by
  obtain ⟨⟨backed, capacity, offsetShift⟩, backed', capacity', offsetShift'⟩ := shows'
  refine ⟨⟨?_, capacity, offsetShift⟩, ?_, capacity', offsetShift'⟩
  · exact backed.trans (region_congr fun a _ before => same _ ⟨by omega, by omega⟩)
  · exact backed'.trans (region_congr fun a _ before => same' _ ⟨by omega, by omega⟩)

theorem Shows.swap (shows' : Shows buff m m') : Shows buff.swap m' m := DoubleBuffer.Holds.swap shows'

theorem load_shows [Memory α] (shows' : Shows buff m m') (after : 0x5600 ≤ offset) (before : offset + Memory.size α ≤ 0x5800) :
    load α offset buff = .ok (Memory.ofMemory (region m offset (Memory.size α))) buff := by
  simp only [load, (holding_shows m').readAs shows' after before]

theorem store_shows [Memory α] (t : α) (shows' : Shows buff m m') (after : 0x5600 ≤ offset)
    (before : offset + Memory.size α ≤ 0x5800) :
    ∃ buff', store t offset buff = .ok () buff' ∧ Shows buff' (patch m offset (Memory.toMemory t)) m' := by
  obtain ⟨buff', written, shows''⟩ := (holding_shows m').writeAs t shows' after before
  exact ⟨buff', by simp only [store, written], shows''⟩

theorem modified_shows [Memory α] (shows' : Shows buff m m') (after : 0x5600 ≤ offset)
    (before : offset + Memory.size α ≤ 0x5800) : modified α offset buff =
      .ok (decide (region m offset (Memory.size α) ≠ region m' offset (Memory.size α))) buff := by
  have compared := DoubleBuffer.isModified_eq (ShiftedBuffer.holding (by decide) (LinearBuffer.holding 512)) shows' after before
  simp only [modified, DoubleBuffer.isModifiedAs, compared]

theorem Setting.run_shows (s : Setting) (shows' : Shows buff m m') (after : 0x5600 ≤ s.offset)
    (before : s.offset + s.data.length ≤ 0x5800) :
    ∃ buff', s.run buff = .ok () buff' ∧ Shows buff' (patch m s.offset s.data) m' := by
  obtain ⟨buff', written, shows''⟩ := (holding_shows m').write shows' after before
  exact ⟨buff', by simp only [Setting.run, written], shows''⟩

/-! ## Polls -/

/-- The addresses that a line reads. -/
def Import.cells : Import τ → List Nat
  | .nullary offset _ _ => [offset]
  | .unaryByte offset _ => [offset]
  | .unaryDword offset _ => List.range' offset 4

/-- The events of a line, of the memory as it is and as it was. -/
def Import.polled (m m' : Cells) : Import τ → List (Event τ)
  | .nullary offset evType eventValue => if m offset ≠ 0 then [⟨evType, eventValue⟩] else []
  | .unaryByte offset evType => if m offset ≠ m' offset then [⟨evType, (m offset).toUInt32⟩] else []
  | .unaryDword offset evType =>
    if region m offset 4 ≠ region m' offset 4 then [⟨evType, Memory.ofMemory (region m offset 4)⟩] else []

/-- The memory behind a line. -/
def Import.cleared (m : Cells) : Import τ → Cells
  | .nullary offset _ _ => Function.update m offset 0
  | _ => m

/-- Every line reads addresses of its own, in the block. -/
def Separate (lines : List (Import τ)) : Prop := (lines.flatMap Import.cells).Nodup ∧ ∀ a ∈ lines.flatMap Import.cells, InBlock a
instance (lines : List (Import τ)) : Decidable (Separate lines) := inferInstanceAs (Decidable (_ ∧ _))

theorem importNullaryEvent_shows (evType : τ) (eventValue : UInt32) (shows' : Shows buff m m') (within : InBlock offset) :
    ∃ buff', importNullaryEvent UInt8 offset evType eventValue buff =
      .ok (if m offset ≠ 0 then [⟨evType, eventValue⟩] else []) buff' ∧ Shows buff' (Function.update m offset 0) m' := by
  obtain ⟨after, before⟩ := within
  have loaded : load UInt8 offset buff = .ok (m offset) buff := load_shows shows' after (by show offset + 1 ≤ _; omega)
  by_cases push : m offset ≠ 0
  · obtain ⟨buff', stored, shows''⟩ := store_shows (0 : UInt8) shows' after (by show offset + 1 ≤ _; omega)
    refine ⟨buff', ?_, ?_⟩
    · refine (ok_bind loaded).trans ?_
      rw [if_pos push, if_pos push]
      exact ok_bind stored
    · rwa [show (Memory.toMemory (0 : UInt8)) = [0] from rfl, patch_one] at shows''
  · refine ⟨buff, ?_, ?_⟩
    · refine (ok_bind loaded).trans ?_
      rw [if_neg push, if_neg push]
      rfl
    · rw [not_not] at push
      rwa [← push, Function.update_eq_self]

theorem importUnaryEvent_shows [Memory α] (value : α → UInt32) (evType : τ) (shows' : Shows buff m m')
    (after : 0x5600 ≤ offset) (before : offset + Memory.size α ≤ 0x5800) :
    importUnaryEvent value offset evType buff =
      .ok (if region m offset (Memory.size α) ≠ region m' offset (Memory.size α) then
        [⟨evType, value (Memory.ofMemory (region m offset (Memory.size α)))⟩] else []) buff := by
  have compared := modified_shows shows' after before
  have loaded := load_shows shows' after before
  refine (ok_bind compared).trans ?_
  by_cases changed : region m offset (Memory.size α) ≠ region m' offset (Memory.size α)
  · rw [if_pos (decide_eq_true changed), if_pos changed]
    exact ok_bind loaded
  · rw [if_neg (by simpa using changed), if_neg changed]
    rfl

theorem Import.run_shows (line : Import τ) (shows' : Shows buff m m') (within : ∀ a ∈ line.cells, InBlock a) :
    ∃ buff', line.run buff = .ok (line.polled m m') buff' ∧ Shows buff' (line.cleared m) m' := by
  cases line with
  | nullary offset evType eventValue =>
    exact importNullaryEvent_shows evType eventValue shows' (within offset List.mem_cons_self)
  | unaryByte offset evType =>
    obtain ⟨after, before⟩ := within offset List.mem_cons_self
    refine ⟨buff, (importUnaryEvent_shows UInt8.toUInt32 evType shows' after (by show offset + 1 ≤ _; omega)).trans ?_, shows'⟩
    simp [Import.polled, Memory.size, Memory.ofMemory]
  | unaryDword offset evType =>
    have first := within offset (by simp [Import.cells])
    have last := within (offset + 3) (by simp [Import.cells])
    exact ⟨buff, importUnaryEvent_shows (fun data : UInt32 => data) evType shows' first.1 (by show offset + 4 ≤ _; exact last.2), shows'⟩

theorem Import.cleared_outside {line : Import τ} {a : Nat} (outside : a ∉ line.cells) : line.cleared m a = m a := by
  cases line with
  | nullary offset evType eventValue => exact Function.update_of_ne (by simpa [Import.cells] using outside) ..
  | unaryByte offset evType => rfl
  | unaryDword offset evType => rfl

/-- A line reads its own addresses. -/
theorem Import.polled_congr {line : Import τ} (same : ∀ a ∈ line.cells, m a = n a) : line.polled m m' = line.polled n m' := by
  cases line with
  | nullary offset evType eventValue => simp only [Import.polled, same offset List.mem_cons_self]
  | unaryByte offset evType => simp only [Import.polled, same offset List.mem_cons_self]
  | unaryDword offset evType =>
    have block : region m offset 4 = region n offset 4 :=
      region_congr fun a after before => same a (List.mem_range'_1.mpr ⟨after, before⟩)
    simp only [Import.polled, block]

theorem pollEvents_shows {lines : List (Import τ)} (separate : Separate lines) (shows' : Shows buff m m') :
    ∃ buff', pollEvents lines buff = .ok (lines.flatMap (Import.polled m m')) buff' ∧
      Shows buff' (lines.foldl Import.cleared m) m' := by
  induction lines generalizing m buff with
  | nil => exact ⟨buff, rfl, shows'⟩
  | cons line lines ih =>
    obtain ⟨distinct, within⟩ := separate
    rw [List.flatMap_cons] at distinct within
    obtain ⟨-, distinct', apart⟩ := List.nodup_append.mp distinct
    obtain ⟨buff₁, executed, shows₁⟩ := line.run_shows shows' fun a among => within a (List.mem_append_left _ among)
    obtain ⟨buff₂, continued, shows₂⟩ := ih ⟨distinct', fun a among => within a (List.mem_append_right _ among)⟩ shows₁
    have same : lines.flatMap (Import.polled (line.cleared m) m') = lines.flatMap (Import.polled m m') := by
      apply List.flatMap_congr
      intro line' among
      refine Import.polled_congr fun a here => Import.cleared_outside fun here' => ?_
      exact apart a here' a (List.mem_flatMap.mpr ⟨line', among, here⟩) rfl
    refine ⟨buff₂, (ok_bind executed).trans ((ok_bind continued).trans ?_), shows₂⟩
    rw [same]
    rfl

/-! ## Buttons -/

/-- The bytes of the nullary events with their events. -/
def nullaryEvents (lines : List (Import τ)) : List (Nat × Event τ) :=
  lines.filterMap fun
    | .nullary offset evType eventValue => some (offset, ⟨evType, eventValue⟩)
    | _ => none

@[simp] theorem nullaryEvents_nullary (offset : Nat) (evType : τ) (eventValue : UInt32) (lines : List (Import τ)) :
    nullaryEvents (.nullary offset evType eventValue :: lines) = (offset, ⟨evType, eventValue⟩) :: nullaryEvents lines := rfl
@[simp] theorem nullaryEvents_unaryByte (offset : Nat) (evType : τ) (lines : List (Import τ)) :
    nullaryEvents (.unaryByte offset evType :: lines) = nullaryEvents lines := rfl
@[simp] theorem nullaryEvents_unaryDword (offset : Nat) (evType : τ) (lines : List (Import τ)) :
    nullaryEvents (.unaryDword offset evType :: lines) = nullaryEvents lines := rfl

/-- The addresses of the values. -/
def unaryCells (lines : List (Import τ)) : List Nat :=
  lines.flatMap fun
    | .nullary _ _ _ => []
    | line => line.cells

theorem cleared_apply (lines : List (Import τ)) (m : Cells) (a : Nat) :
    lines.foldl Import.cleared m a = if a ∈ (nullaryEvents lines).map Prod.fst then 0 else m a := by
  induction lines generalizing m with
  | nil => rfl
  | cons line lines ih =>
    rw [List.foldl_cons, ih]
    cases line with
    | nullary offset evType eventValue =>
      by_cases here : a = offset
      · subst here
        simp [Import.cleared]
      · simp only [Import.cleared, Function.update_of_ne here, nullaryEvents_nullary, List.map_cons, List.mem_cons, here,
          false_or]
    | unaryByte offset evType => rfl
    | unaryDword offset evType => rfl

/-- Where no value has changed, the events are those of the buttons that are pressed. -/
theorem polled_unchanged {lines : List (Import τ)} (same : ∀ a ∈ unaryCells lines, m a = m' a) :
    lines.flatMap (Import.polled m m') = ((nullaryEvents lines).filter fun p => m p.1 ≠ 0).map Prod.snd := by
  induction lines with
  | nil => rfl
  | cons line lines ih =>
    have rest := ih fun a among => same a (List.mem_append_right _ among)
    rw [List.flatMap_cons, rest]
    cases line with
    | nullary offset evType eventValue =>
      by_cases pressed : m offset ≠ 0
      · simp [Import.polled, pressed]
      · simp [Import.polled, not_not.mp pressed]
    | unaryByte offset evType =>
      have unchanged : m offset = m' offset := same offset (by simp [unaryCells, Import.cells])
      simp [Import.polled, unchanged]
    | unaryDword offset evType =>
      have unchanged : region m offset 4 = region m' offset 4 := by
        refine region_congr fun a after before => same a ?_
        exact List.mem_append_left _ (List.mem_range'_1.mpr ⟨after, before⟩)
      simp [Import.polled, unchanged]

/-- A line reads the memory as it was where it watches a value. -/
theorem polled_congr_before {n' : Cells} {lines : List (Import τ)} (same : ∀ a ∈ unaryCells lines, m' a = n' a) :
    lines.flatMap (Import.polled m m') = lines.flatMap (Import.polled m n') := by
  induction lines with
  | nil => rfl
  | cons line lines ih =>
    have rest := ih fun a among => same a (List.mem_append_right _ among)
    rw [List.flatMap_cons, List.flatMap_cons, rest]
    cases line with
    | nullary offset evType eventValue => rfl
    | unaryByte offset evType =>
      have unchanged : m' offset = n' offset := same offset (by simp [unaryCells, Import.cells])
      simp only [Import.polled, unchanged]
    | unaryDword offset evType =>
      have unchanged : region m' offset 4 = region n' offset 4 := by
        refine region_congr fun a after before => same a ?_
        exact List.mem_append_left _ (List.mem_range'_1.mpr ⟨after, before⟩)
      simp only [Import.polled, unchanged]

/-- A line has an event more if a value has changed. -/
theorem length_polled (line : Import τ) (m m' : Cells) :
    (line.polled m m').length = (line.polled m m).length + if ∀ a ∈ unaryCells [line], m a = m' a then 0 else 1 := by
  cases line with
  | nullary offset evType eventValue => simp [Import.polled, unaryCells]
  | unaryByte offset evType => by_cases same : m offset = m' offset <;> simp [Import.polled, unaryCells, Import.cells, same]
  | unaryDword offset evType =>
    have region_eq_iff : region m offset 4 = region m' offset 4 ↔ ∀ a ∈ unaryCells [Import.unaryDword offset evType], m a = m' a := by
      simp [unaryCells, Import.cells, region, List.range_succ, List.range'_succ]
    by_cases same : region m offset 4 = region m' offset 4
    · rw [if_pos (region_eq_iff.mp same)]
      simp [Import.polled, same]
    · rw [if_neg fun all => same (region_eq_iff.mpr all)]
      simp [Import.polled, same]

/-- If there are no more events than in an unchanged memory, no value has changed. -/
theorem unchanged_of_length {lines : List (Import τ)}
    (few : (lines.flatMap (Import.polled m m')).length ≤ (lines.flatMap (Import.polled m m)).length) :
    ∀ a ∈ unaryCells lines, m a = m' a := by
  have more : ∀ lines : List (Import τ),
      (lines.flatMap (Import.polled m m)).length ≤ (lines.flatMap (Import.polled m m')).length := by
    intro lines
    induction lines with
    | nil => exact le_rfl
    | cons line lines ih =>
      rw [List.flatMap_cons, List.flatMap_cons, List.length_append, List.length_append, length_polled line m m']
      omega
  induction lines with
  | nil => exact fun a among => absurd among List.not_mem_nil
  | cons line lines ih =>
    rw [List.flatMap_cons, List.flatMap_cons, List.length_append, List.length_append, length_polled line m m'] at few
    have rest := more lines
    intro a among
    rcases List.mem_append.mp among with here | there
    · by_contra differs
      rw [if_neg fun all => differs (all a (by simpa [unaryCells] using here))] at few
      omega
    · exact ih (by omega) a there

/-- The event of a button is polled once if it is pressed, and else not at all. -/
theorem count_polled [DecidableEq τ] {lines : List (Import τ)} {ev : Event τ}
    (distinct : ((nullaryEvents lines).map Prod.snd).Nodup) (button : (offset, ev) ∈ nullaryEvents lines)
    (same : ∀ a ∈ unaryCells lines, m a = m' a) :
    (lines.flatMap (Import.polled m m')).count ev = if m offset ≠ 0 then 1 else 0 := by
  rw [polled_unchanged same, List.Nodup.count (distinct.sublist (List.filter_sublist.map _))]
  congr 1
  rw [List.mem_map, eq_iff_iff]
  constructor
  · rintro ⟨p, among, same⟩
    obtain ⟨among, pressed⟩ := List.mem_filter.mp among
    have only : p = (offset, ev) := List.inj_on_of_nodup_map distinct among button same
    rw [only] at pressed
    exact of_decide_eq_true pressed
  · intro pressed
    exact ⟨(offset, ev), List.mem_filter.mpr ⟨button, decide_eq_true pressed⟩, rfl⟩

end

/-! ## Copies -/

/-- A memory never fails. -/
instance : LocalFsuipc Cells where
  create := pure ()
  read offset length := fun m => .ok (region m offset length) m
  write src offset := fun m => .ok () (patch m offset src)

/-- One block suffices. -/
theorem localFsuipcCopy_block {φ : Type} [LocalFsuipc φ] {read : Nat → Nat → Except Exception (List UInt8)} {block : List UInt8}
    (executed : read 0x5600 512 = .ok block) (m : φ) :
    localFsuipcCopy read 0x5600 0x5600 512 m = LocalFsuipc.write block 0x5600 m := by
  rw [localFsuipcCopy]
  simp only [executed, OfNat.ofNat_ne_zero, ↓reduceIte, Nat.reduceLT, Nat.reduceSub]
  cases wrote : (LocalFsuipc.write block 0x5600 : EStateM Exception φ Unit) m with
  | ok u m' =>
    refine (ok_bind wrote).trans ?_
    rw [localFsuipcCopy]
    rfl
  | error e m' => exact error_bind wrote

namespace FsuipcCockpitBack

section
variable {φ : Type} [LocalFsuipc φ] {b : FsuipcCockpitBack φ} {memory' : φ} {buff : Buffer} {m m' cells : Cells}

theorem copyDown_shows (executed : LocalFsuipc.read 0x5600 512 b.memory = .ok (region cells 0x5600 512) memory')
    (here : b.buffer = some buff) (shows' : Shows buff m m') :
    ∃ buff', copyDown b = .ok () { b with memory := memory', buffer := some buff' } ∧ Shows buff' cells m' := by
  obtain ⟨buff', copied, shows''⟩ := (holding_shows m').copy shows' le_rfl (le_refl (0x5600 + 512)) executed (region_length ..)
  refine ⟨buff', ?_, shows''.congr (fun a within => patch_region within.1 within.2) fun _ _ => rfl⟩
  simp only [copyDown, here, copied]

/-- FSUIPC is opened first, if it is not open yet. -/
theorem open_first (x : BackM φ Unit) (opens : b.fsuipc = true ∨ LocalFsuipc.create b.memory = .ok () b.memory) :
    (do if !(← get).fsuipc then initFsuipc
        x : BackM φ Unit) b = x { b with fsuipc := true } := by
  obtain ⟨memory, fsuipc, buffer⟩ := b
  cases fsuipc with
  | true => rfl
  | false =>
    have created : LocalFsuipc.create memory = .ok () memory := opens.resolve_left nofun
    have opened : initFsuipc (φ := φ) ⟨memory, false, buffer⟩ = .ok () ⟨memory, true, buffer⟩ := by
      simp only [initFsuipc, created]
    exact ok_bind opened

omit [LocalFsuipc φ] in
theorem when_fresh (x y : BackM φ Unit) (fresh : b.buffer = none) :
    (do if (← get).buffer.isNone then x; y : BackM φ Unit) b = (x >>= fun _ => y) b := by
  obtain ⟨memory, fsuipc, buffer⟩ := b
  cases fresh
  rfl

omit [LocalFsuipc φ] in
theorem initBuffer_shows (b : FsuipcCockpitBack φ) :
    ∃ buff, initBuffer b = .ok () { b with buffer := some buff } ∧ Shows buff (fun _ => 0) fun _ => 0 := by
  have zero : ShiftedBuffer.Holds (LinearBuffer.Holds 512) 0x5600 512 (.create (.create 512) 0x5600) fun _ => 0 :=
    ⟨LinearBuffer.create_holds 512, LinearBuffer.create_capacity 512, rfl⟩
  exact ⟨_, rfl, zero, zero⟩

/-- Without a buffer the block is copied into the first half of a new one. -/
theorem prepare_new (opens : b.fsuipc = true ∨ LocalFsuipc.create b.memory = .ok () b.memory) (fresh : b.buffer = none) :
    ∃ buff, prepare b = copyDown { b with fsuipc := true, buffer := some buff } ∧ Shows buff (fun _ => 0) fun _ => 0 := by
  obtain ⟨buff, made, shows'⟩ := initBuffer_shows { b with fsuipc := true }
  have rest : prepare b = (initBuffer >>= fun _ => copyDown) { b with fsuipc := true } :=
    (open_first (do if (← get).buffer.isNone then initBuffer; copyDown) opens).trans (when_fresh _ _ fresh)
  exact ⟨buff, rest.trans (ok_bind made), shows'⟩

theorem prepare_again (opens : b.fsuipc = true ∨ LocalFsuipc.create b.memory = .ok () b.memory) (here : b.buffer = some buff) :
    prepare b = .ok () { b with fsuipc := true } := by
  obtain ⟨memory, fsuipc, buffer⟩ := b
  cases here
  exact open_first _ opens

omit [LocalFsuipc φ] in
theorem onBuffer_ok {α : Type} {x : BufferM α} {a : α} {buff' : Buffer} (here : b.buffer = some buff)
    (executed : x buff = .ok a buff') : onBuffer x b = .ok a { b with buffer := some buff' } := by
  simp only [onBuffer, here, executed]

theorem refresh_swaps (here : b.buffer = some buff) : refresh b = copyDown { b with buffer := some buff.swap } := by
  have swapped : onBuffer (modify DoubleBuffer.swap) b = .ok () { b with buffer := some buff.swap } := by
    simp only [onBuffer, here]
    rfl
  exact ok_bind swapped

end

variable {b : FsuipcCockpitBack Cells} {buff : Buffer} {m m' : Cells}

theorem copyUp_shows (here : b.buffer = some buff) (shows' : Shows buff m m') :
    copyUp b = .ok () { b with memory := patch b.memory 0x5600 (region m 0x5600 512) } := by
  have block := (holding_shows m').read shows' le_rfl (le_refl (0x5600 + 512))
  have wrote : (LocalFsuipc.write (region m 0x5600 512) 0x5600 : EStateM Exception Cells Unit) b.memory =
      .ok () (patch b.memory 0x5600 (region m 0x5600 512)) := rfl
  simp only [copyUp, here, localFsuipcCopy_block block, wrote]

theorem prepare_fresh (fresh : b.buffer = none) : ∃ buff m', prepare b = .ok () { b with fsuipc := true, buffer := some buff } ∧
    Shows buff b.memory m' := by
  obtain ⟨first, rest, zero⟩ := prepare_new (.inr rfl) fresh
  obtain ⟨buff, copied, shows'⟩ := copyDown_shows (b := { b with fsuipc := true, buffer := some first }) rfl rfl zero
  exact ⟨buff, _, rest.trans copied, shows'⟩

theorem refresh_shows (here : b.buffer = some buff) (shows' : Shows buff m m') :
    ∃ buff', refresh b = .ok () { b with buffer := some buff' } ∧ Shows buff' b.memory m := by
  obtain ⟨buff', copied, shows''⟩ := copyDown_shows (b := { b with buffer := some buff.swap }) rfl rfl shows'.swap
  exact ⟨buff', (refresh_swaps here).trans copied, shows''⟩

theorem mark_shows (here : b.buffer = some buff) (shows' : Shows buff m m') :
    ∃ buff', mark b = .ok () { b with fsuipc := true, buffer := some buff' } ∧ Shows buff' (patch m 0x5600 [1]) m' := by
  obtain ⟨buff', stored, shows''⟩ := store_shows (1 : UInt8) shows' le_rfl (by decide)
  refine ⟨buff', (open_first _ (.inr rfl)).trans ?_, shows''⟩
  simp only [onBuffer, here, stored]

end FsuipcCockpitBack
end Oac.Cockpit
