import Mathlib.Algebra.Ring.Nat
import Mathlib.Data.Fin.VecNotation
import Mathlib.Data.List.FinRange
import Mathlib.Data.Fintype.Basic

/-!
# Display groups

An ICM7218 with eight digits, and the `DisplayGroup`s that share it: a group owns the
positions whose entries in its map are digits of a number. Ownership is tested by `<= 8`
although the digits of a number are 0 to 7, so an entry 8, as in the map that a group has
before `setDisplays`, makes `loadNumber` read behind its values (`groups_shown_iff`).
-/
namespace Oac.Arduino.Displays

/-- The chip. `panel` is what its digits show, in four bits each. -/
structure Icm7218 where
  cache : Fin 8 → UInt8
  isDirty : Bool
  panel : Fin 8 → UInt8

/-- The constructor. The panel is blank. -/
def Icm7218.new : Icm7218 := ⟨fun _ => 0xff, false, fun _ => 0x0f⟩

def loadDigits (digits : Fin 8 → UInt8) (s : Icm7218) : Icm7218 := { s with cache := digits, isDirty := true }

/-- `displayDigits`: the low bits of each byte are put on the pins. -/
def displayDigits (digits : Fin 8 → UInt8) (s : Icm7218) : Icm7218 := { s with panel := fun i => digits i &&& 0x0f }

def display (s : Icm7218) : Icm7218 := if s.isDirty then { displayDigits s.cache s with isDirty := false } else s

structure DisplayGroup where
  displays : Fin 8 → UInt8

namespace DisplayGroup

/-- The constructor. -/
def new : DisplayGroup := ⟨fun i => UInt8.ofNat (i + 1)⟩

/-- `setDisplays` takes the last byte of each number. -/
def setDisplays (displays : Fin 8 → Int) : DisplayGroup := ⟨fun i => UInt8.ofInt (displays i)⟩

/-- A read outside of `values`. -/
structure OutOfBounds where
  index : UInt8
  deriving DecidableEq

/-- The state of the first loop of `loadNumber`. -/
structure Scan where
  values : List UInt8
  number : UInt32
  signDigit : UInt8

def scanStep (g : DisplayGroup) (acc : Scan) (i : Fin 8) : Scan where
  values := acc.values ++ [(acc.number % 10).toUInt8]
  number := acc.number / 10
  signDigit := if g.displays i < 8 ∧ acc.signDigit < g.displays i then g.displays i else acc.signDigit

def scan (g : DisplayGroup) (number : UInt32) : Scan := (List.finRange 8).foldl g.scanStep ⟨[], number, 0⟩

/-- A turn of the second loop of `loadNumber`. -/
def digit (g : DisplayGroup) (acc : Scan) (isPositive loadSign : Bool) (s : Icm7218) (i : Fin 8) : Except OutOfBounds UInt8 :=
  if loadSign ∧ g.displays i = acc.signDigit then .ok (if isPositive then 0x0f else 0x0a)
  else if g.displays i ≤ 8 then
    match acc.values[(g.displays i).toNat]? with
    | some value => .ok value
    | none => .error ⟨g.displays i⟩
  else .ok (s.cache i)

/-- The digits one after the other. -/
def fill (digit : Fin 8 → Except OutOfBounds UInt8) (digits : Fin 8 → UInt8) (i : Fin 8) : Except OutOfBounds (Fin 8 → UInt8) :=
  match digit i with
  | .ok value => .ok (Function.update digits i value)
  | .error e => .error e

def loadNumber (g : DisplayGroup) (number : UInt32) (isPositive loadSign : Bool) (s : Icm7218) : Except OutOfBounds Icm7218 :=
  match (List.finRange 8).foldlM (fill (g.digit (g.scan number) isPositive loadSign s)) (fun _ => 0) with
  | .ok digits => .ok (loadDigits digits s)
  | .error e => .error e

/-- The macro `abs`. The least number is its own negation. -/
def abs (number : Int32) : Int32 := if number > 0 then number else -number

def loadUnsigned (g : DisplayGroup) (number : UInt32) (s : Icm7218) : Except OutOfBounds Icm7218 := g.loadNumber number true false s

def loadSigned (g : DisplayGroup) (number : Int32) (s : Icm7218) : Except OutOfBounds Icm7218 :=
  g.loadNumber (abs number).toUInt32 (decide (number ≥ 0)) true s

def loadDash (g : DisplayGroup) (s : Icm7218) : Icm7218 :=
  loadDigits (fun i => if g.displays i ≤ 8 then 0x0a else s.cache i) s

end DisplayGroup

/-! ## What the groups are for -/

inductive Load where
  | unsigned (number : UInt32)
  | signed (number : Int32)
  | dash

def Load.IsNumber : Load → Prop
  | .dash => False
  | _ => True

def DisplayGroup.load (g : DisplayGroup) : Load → Icm7218 → Except DisplayGroup.OutOfBounds Icm7218
  | .unsigned number, s => g.loadUnsigned number s
  | .signed number, s => g.loadSigned number s
  | .dash, s => .ok (g.loadDash s)

/-- The position has an entry of the group. -/
def DisplayGroup.Owns (g : DisplayGroup) (i : Fin 8) : Prop := g.displays i ≤ 8
instance (g : DisplayGroup) (i : Fin 8) : Decidable (g.Owns i) := inferInstanceAs (Decidable (_ ≤ _))

/-- No entry of the group is higher. -/
def DisplayGroup.Highest (g : DisplayGroup) (i : Fin 8) : Prop := ∀ j, g.Owns j → g.displays j ≤ g.displays i
instance (g : DisplayGroup) (i : Fin 8) : Decidable (g.Highest i) := inferInstanceAs (Decidable (∀ _, _))

/-- A decimal digit of a number. -/
def digitAt (number : Nat) (entry : UInt8) : UInt8 := UInt8.ofNat (number / 10 ^ entry.toNat % 10)

/-- What an owned position is to show: 0x0a is a dash and 0x0f is blank. -/
def DisplayGroup.face (g : DisplayGroup) (i : Fin 8) : Load → UInt8
  | .unsigned number => digitAt number.toNat (g.displays i)
  | .signed number =>
    if g.Highest i then (if 0 ≤ number then 0x0f else 0x0a) else digitAt number.toInt.natAbs (g.displays i)
  | .dash => 0x0a

inductive Call (ι : Type) where
  | load (group : ι) (load : Load)
  | display

variable {ι : Type} [DecidableEq ι]

def perform (groups : ι → DisplayGroup) (s : Icm7218) : Call ι → Except DisplayGroup.OutOfBounds Icm7218
  | .load group load => (groups group).load load s
  | .display => .ok (display s)

def performAll (groups : ι → DisplayGroup) (calls : List (Call ι)) (s : Icm7218) : Except DisplayGroup.OutOfBounds Icm7218 :=
  calls.foldlM (perform groups) s

/-- What a group was loaded with last, after one call more. -/
def latest (group : ι) (last : Option Load) : Call ι → Option Load
  | .load other load => if other = group then some load else last
  | .display => last

def lastLoad (group : ι) (calls : List (Call ι)) : Option Load := calls.foldl (latest group) none

/-- The positions of each group show what it was loaded with last, and nothing else changes. -/
structure Shown (groups : ι → DisplayGroup) (calls : List (Call ι)) (s s' : Icm7218) : Prop where
  loaded : ∀ group i load, (groups group).Owns i → lastLoad group calls = some load →
    s'.cache i = (groups group).face i load ∧ (display s').panel i = (groups group).face i load
  unloaded : ∀ group i, (groups group).Owns i → lastLoad group calls = none → s'.cache i = s.cache i
  unowned : ∀ i, (∀ group, ¬ (groups group).Owns i) → s'.cache i = s.cache i

/-- No number is loaded into a group that has the entry 8. -/
def Proper (groups : ι → DisplayGroup) (calls : List (Call ι)) : Prop :=
  ∀ group load, .load group load ∈ calls → load.IsNumber → ∀ i, (groups group).displays i ≠ 8

/-! ## Loading a number -/

variable {g : DisplayGroup} {s s' : Icm7218} {load : Load}

namespace DisplayGroup

theorem scan_values_from (l : List (Fin 8)) (acc : Scan) : (l.foldl g.scanStep acc).values =
    acc.values ++ (List.range l.length).map fun k => UInt8.ofNat (acc.number.toNat / 10 ^ k % 10) := by
  induction l generalizing acc with
  | nil => simp
  | cons i l ih =>
    have first : (acc.number % 10).toUInt8 = UInt8.ofNat (acc.number.toNat / 10 ^ 0 % 10) := by
      rw [Nat.pow_zero, Nat.div_one]
      rfl
    rw [List.foldl_cons, ih, List.length_cons, List.range_succ_eq_map, List.map_cons, List.map_map, scanStep, first]
    simp only [List.append_assoc, List.singleton_append, List.append_cancel_left_eq, List.cons.injEq, true_and]
    refine List.map_congr_left fun k _ => ?_
    rw [Function.comp_apply, Nat.succ_eq_add_one, Nat.pow_succ', ← Nat.div_div_eq_div_mul]
    rfl

/-- The values of a number are its last eight digits. -/
theorem scan_values (g : DisplayGroup) (number : UInt32) (entry : UInt8) :
    (g.scan number).values[entry.toNat]? = if entry < 8 then some (digitAt number.toNat entry) else none := by
  have values : (g.scan number).values = (List.range 8).map fun k => UInt8.ofNat (number.toNat / 10 ^ k % 10) :=
    scan_values_from (List.finRange 8) ⟨[], number, 0⟩
  rw [values, List.getElem?_map]
  by_cases small : entry < 8
  · rw [List.getElem?_range (show entry.toNat < 8 from UInt8.lt_iff_toNat_lt.mp small), if_pos small]
    rfl
  · have large : ¬ entry.toNat < 8 := fun less => small (UInt8.lt_iff_toNat_lt.mpr less)
    rw [List.getElem?_eq_none (by rw [List.length_range]; omega), if_neg small]
    rfl

/-- The sign digit is the highest entry of the digits looked at, if it is not 0. -/
theorem scan_sign_from (l : List (Fin 8)) (acc : Scan) (small : acc.signDigit < 8) :
    (l.foldl g.scanStep acc).signDigit < 8 ∧ acc.signDigit ≤ (l.foldl g.scanStep acc).signDigit ∧
      (∀ j ∈ l, g.displays j < 8 → g.displays j ≤ (l.foldl g.scanStep acc).signDigit) ∧
      ((l.foldl g.scanStep acc).signDigit = acc.signDigit ∨
        ∃ j ∈ l, g.displays j < 8 ∧ g.displays j = (l.foldl g.scanStep acc).signDigit) := by
  induction l generalizing acc with
  | nil => exact ⟨small, UInt8.le_refl _, by simp, .inl rfl⟩
  | cons i l ih =>
    rw [List.foldl_cons]
    have step : (g.scanStep acc i).signDigit < 8 ∧ acc.signDigit ≤ (g.scanStep acc i).signDigit ∧
        (g.displays i < 8 → g.displays i ≤ (g.scanStep acc i).signDigit) ∧
        ((g.scanStep acc i).signDigit = acc.signDigit ∨ g.displays i < 8 ∧ g.displays i = (g.scanStep acc i).signDigit) := by
      by_cases higher : g.displays i < 8 ∧ acc.signDigit < g.displays i
      · have sign : (g.scanStep acc i).signDigit = g.displays i := if_pos higher
        rw [sign]
        exact ⟨higher.1, UInt8.le_of_lt higher.2, fun _ => UInt8.le_refl _, .inr ⟨higher.1, rfl⟩⟩
      · have sign : (g.scanStep acc i).signDigit = acc.signDigit := if_neg higher
        rw [sign]
        exact ⟨small, UInt8.le_refl _, fun less => UInt8.not_lt.mp fun more => higher ⟨less, more⟩, .inl rfl⟩
    obtain ⟨small', up, own, from_⟩ := step
    obtain ⟨small'', up', owns, froms⟩ := ih (g.scanStep acc i) small'
    refine ⟨small'', UInt8.le_trans up up', ?_, ?_⟩
    · intro j mem less
      rcases List.mem_cons.mp mem with rfl | later
      · exact UInt8.le_trans (own less) up'
      · exact owns j later less
    · rcases froms with same | ⟨j, mem, less, eq⟩
      · rcases from_ with same' | ⟨less, eq⟩
        · exact .inl (same.trans same')
        · exact .inr ⟨i, List.mem_cons_self, less, eq.trans same.symm⟩
      · exact .inr ⟨j, List.mem_cons_of_mem i mem, less, eq⟩

end DisplayGroup

/-! ## Filling the digits -/

namespace DisplayGroup
variable {digits : Fin 8 → Except OutOfBounds UInt8}

theorem fill_ok {value : Fin 8 → UInt8} (each : ∀ i, digits i = .ok (value i)) (l : List (Fin 8)) (acc : Fin 8 → UInt8) :
    l.foldlM (fill digits) acc = .ok fun i => if i ∈ l then value i else acc i := by
  induction l generalizing acc with
  | nil => rfl
  | cons i l ih =>
    have here : fill digits acc i = .ok (Function.update acc i (value i)) := by rw [fill, each]
    rw [List.foldlM_cons, here]
    show l.foldlM (fill digits) (Function.update acc i (value i)) = _
    rw [ih]
    congr 1
    funext j
    by_cases same : j = i
    · subst same
      simp
    · simp [same]

theorem fill_error {i : Fin 8} {e : OutOfBounds} (fails : digits i = .error e) {l : List (Fin 8)} (mem : i ∈ l)
    (acc : Fin 8 → UInt8) : ∃ e', l.foldlM (fill digits) acc = .error e' := by
  induction l generalizing acc with
  | nil => exact absurd mem List.not_mem_nil
  | cons j l ih =>
    rw [List.foldlM_cons]
    cases outcome : digits j with
    | error e' =>
      have here : fill digits acc j = .error e' := by rw [fill, outcome]
      exact ⟨e', by rw [here]; rfl⟩
    | ok value =>
      have here : fill digits acc j = .ok (Function.update acc j value) := by rw [fill, outcome]
      have later : i ∈ l := by
        rcases List.mem_cons.mp mem with rfl | later
        · cases fails.symm.trans outcome
        · exact later
      obtain ⟨e', raised⟩ := ih later (Function.update acc j value)
      exact ⟨e', by rw [here]; exact raised⟩

end DisplayGroup

/-! ## Loading into the cache -/

namespace DisplayGroup

theorem toNat_abs (number : Int32) : (abs number).toUInt32.toNat = number.toInt.natAbs := by
  have bits : number.toBitVec.toInt = number.toInt := rfl
  rw [abs]
  split
  · next positive =>
    have more : 0 < number.toInt := Int32.lt_iff_toInt_lt.mp positive
    show number.toBitVec.toNat = _
    rw [BitVec.toInt_eq_toNat_cond] at bits
    split at bits <;> omega
  · next nonpositive =>
    have less : number.toInt ≤ 0 := Int.not_lt.mp fun more => nonpositive (Int32.lt_iff_toInt_lt.mpr more)
    show (-number.toBitVec).toNat = _
    have range := number.toBitVec.isLt
    rw [BitVec.toInt_eq_toNat_cond] at bits
    rw [BitVec.toNat_neg]
    split at bits <;> omega

theorem digit_low (number : Nat) (entry : UInt8) : digitAt number entry &&& 0x0f = digitAt number entry := by
  have range : (digitAt number entry).toNat < 16 := by
    rw [digitAt, UInt8.toNat_ofNat']
    omega
  apply UInt8.toNat_inj.mp
  rw [UInt8.toNat_and]
  exact (Nat.and_two_pow_sub_one_eq_mod _ 4).trans (Nat.mod_eq_of_lt range)

theorem face_low (g : DisplayGroup) (i : Fin 8) (load : Load) : g.face i load &&& 0x0f = g.face i load := by
  cases load with
  | unsigned number => exact digit_low _ _
  | signed number =>
    rw [face]
    split
    · split <;> rfl
    · exact digit_low _ _
  | dash =>
    rw [face]
    rfl
theorem sign_small (g : DisplayGroup) (number : UInt32) : (g.scan number).signDigit < 8 :=
  (g.scan_sign_from (List.finRange 8) ⟨[], number, 0⟩ (by decide : (0 : UInt8) < 8)).1

/-- The sign goes to the highest entries. -/
theorem sign_iff {i : Fin 8} (number : UInt32) (own : g.displays i < 8) (apart : ∀ j, g.displays j ≠ 8) :
    g.displays i = (g.scan number).signDigit ↔ g.Highest i := by
  obtain ⟨small, -, owns, from_⟩ := g.scan_sign_from (List.finRange 8) ⟨[], number, 0⟩ (by decide : (0 : UInt8) < 8)
  have below (j : Fin 8) (mine : g.Owns j) : g.displays j < 8 := UInt8.lt_of_le_of_ne mine (apart j)
  constructor
  · intro sign j mine
    rw [sign]
    exact owns j (List.mem_finRange j) (below j mine)
  · intro highest
    refine UInt8.le_antisymm (owns i (List.mem_finRange i) own) ?_
    rcases from_ with zero | ⟨j, -, less, eq⟩
    · exact zero ▸ UInt8.zero_le
    · exact eq ▸ highest j (UInt8.le_of_lt less)

theorem digit_unowned {i : Fin 8} (number : UInt32) (isPositive loadSign : Bool) (unowned : ¬ g.Owns i) :
    g.digit (g.scan number) isPositive loadSign s i = .ok (s.cache i) := by
  have other : ¬ (loadSign = true ∧ g.displays i = (g.scan number).signDigit) :=
    fun sign => unowned (UInt8.le_of_lt (UInt8.lt_of_le_of_lt (UInt8.le_of_eq sign.2) (g.sign_small number)))
  rw [digit, if_neg other]
  exact if_neg unowned

theorem digit_owned {i : Fin 8} (number : UInt32) (isPositive loadSign : Bool) (own : g.displays i < 8)
    (apart : ∀ j, g.displays j ≠ 8) : g.digit (g.scan number) isPositive loadSign s i =
      .ok (if loadSign ∧ g.Highest i then (if isPositive then 0x0f else 0x0a) else digitAt number.toNat (g.displays i)) := by
  rw [digit, scan_values, if_pos own, if_pos (UInt8.le_of_lt own)]
  simp only [sign_iff number own apart]
  split <;> rfl

/-- An entry 8 is never the sign digit, and there is no value for it. -/
theorem digit_behind {i : Fin 8} (number : UInt32) (isPositive loadSign : Bool) (entry : g.displays i = 8) :
    g.digit (g.scan number) isPositive loadSign s i = .error ⟨8⟩ := by
  have other : ¬ (loadSign = true ∧ (8 : UInt8) = (g.scan number).signDigit) :=
    fun sign => UInt8.lt_irrefl 8 (UInt8.lt_of_le_of_lt (UInt8.le_of_eq sign.2) (g.sign_small number))
  rw [digit, scan_values, entry, if_neg other]
  rfl

/-- What a load leaves in the cache. -/
def loaded (g : DisplayGroup) (load : Load) (s : Icm7218) : Icm7218 :=
  loadDigits (fun i => if g.Owns i then g.face i load else s.cache i) s

theorem loadNumber_ok {face : Fin 8 → UInt8} (number : UInt32) (isPositive loadSign : Bool)
    (digits : ∀ i, g.digit (g.scan number) isPositive loadSign s i = .ok (face i)) :
    g.loadNumber number isPositive loadSign s = .ok (loadDigits face s) := by
  rw [loadNumber, fill_ok digits]
  simp

theorem loadNumber_error {i : Fin 8} (number : UInt32) (isPositive loadSign : Bool) (entry : g.displays i = 8) :
    ∃ e, g.loadNumber number isPositive loadSign s = .error e := by
  obtain ⟨e, raised⟩ := fill_error (g.digit_behind number isPositive loadSign entry) (List.mem_finRange i) (fun _ => 0)
  exact ⟨e, by rw [loadNumber, raised]⟩

theorem load_ok (apart : load.IsNumber → ∀ i, g.displays i ≠ 8) : g.load load s = .ok (g.loaded load s) := by
  have below {i : Fin 8} (own : g.Owns i) (number : load.IsNumber) : g.displays i < 8 :=
    UInt8.lt_of_le_of_ne own (apart number i)
  cases load with
  | dash => rfl
  | unsigned number =>
    refine loadNumber_ok number true false fun i => ?_
    split
    · next own => exact digit_owned number true false (below own trivial) (apart trivial)
    · next unowned => exact digit_unowned number true false unowned
  | signed number =>
    refine loadNumber_ok _ _ true fun i => ?_
    split
    · next own =>
      rw [digit_owned _ _ true (below own trivial) (apart trivial), toNat_abs, face]
      simp
    · next unowned => exact digit_unowned _ _ true unowned

theorem load_error {i : Fin 8} (number : load.IsNumber) (entry : g.displays i = 8) : ∃ e, g.load load s = .error e := by
  cases load with
  | dash => exact number.elim
  | unsigned n => exact loadNumber_error n true false entry
  | signed n => exact loadNumber_error (abs n).toUInt32 (decide (n ≥ 0)) true entry

end DisplayGroup

/-! ## Runs -/

variable {groups : ι → DisplayGroup} {calls : List (Call ι)} {call : Call ι}

/-- What every call keeps: the caches are as `Shown` has them, and the panel is behind them only while the chip is dirty. -/
structure Kept (groups : ι → DisplayGroup) (calls : List (Call ι)) (s s' : Icm7218) : Prop where
  loaded : ∀ group i load, (groups group).Owns i → lastLoad group calls = some load →
    s'.cache i = (groups group).face i load
  unloaded : ∀ group i, (groups group).Owns i → lastLoad group calls = none → s'.cache i = s.cache i
  unowned : ∀ i, (∀ group, ¬ (groups group).Owns i) → s'.cache i = s.cache i
  shown : ∀ group load, lastLoad group calls = some load → s'.isDirty = true ∨ ∀ i, s'.panel i = s'.cache i &&& 0x0f

theorem lastLoad_concat (group : ι) (calls : List (Call ι)) (call : Call ι) :
    lastLoad group (calls ++ [call]) = latest group (lastLoad group calls) call := by
  rw [lastLoad, List.foldl_append]
  rfl

theorem display_panel (s : Icm7218) (shown : s.isDirty = true ∨ ∀ i, s.panel i = s.cache i &&& 0x0f) (i : Fin 8) :
    (display s).panel i = s.cache i &&& 0x0f := by
  rw [display]
  split
  · rfl
  · next clean => exact (shown.resolve_left clean) i

theorem display_cache (s : Icm7218) : (display s).cache = s.cache := by
  rw [display]
  split <;> rfl

theorem Kept.start (groups : ι → DisplayGroup) (s : Icm7218) : Kept groups [] s s where
  loaded _ _ _ _ last := nomatch last
  unloaded _ _ _ _ := rfl
  unowned _ _ := rfl
  shown _ _ last := nomatch last

theorem Kept.after_display (kept : Kept groups calls s s') : Kept groups (calls ++ [.display]) s (display s') where
  loaded group i load own last := by
    rw [lastLoad_concat] at last
    rw [display_cache]
    exact kept.loaded group i load own last
  unloaded group i own last := by
    rw [lastLoad_concat] at last
    rw [display_cache]
    exact kept.unloaded group i own last
  unowned i free := by
    rw [display_cache]
    exact kept.unowned i free
  shown group load last := by
    rw [lastLoad_concat] at last
    right
    intro i
    rw [display_cache]
    exact display_panel s' (kept.shown group load last) i

/-- Loading a group keeps the positions of the other groups, because they have none in common. -/
theorem Kept.after_load (apart : ∀ g h, g ≠ h → ∀ i, ¬ ((groups g).Owns i ∧ (groups h).Owns i)) (kept : Kept groups calls s s')
    (group : ι) (load : Load) : Kept groups (calls ++ [.load group load]) s ((groups group).loaded load s') := by
  have other {g : ι} {i : Fin 8} (ne : g ≠ group) (own : (groups g).Owns i) :
      ((groups group).loaded load s').cache i = s'.cache i := if_neg fun mine => apart g group ne i ⟨own, mine⟩
  have last_other {g : ι} (ne : g ≠ group) : lastLoad g (calls ++ [.load group load]) = lastLoad g calls := by
    rw [lastLoad_concat]
    exact if_neg (Ne.symm ne)
  have last_same : lastLoad group (calls ++ [.load group load]) = some load := by
    rw [lastLoad_concat]
    exact if_pos rfl
  refine ⟨?_, ?_, ?_, fun _ _ _ => .inl rfl⟩
  · intro g i load' own last
    by_cases same : g = group
    · subst same
      cases last_same.symm.trans last
      exact if_pos own
    · rw [other same own]
      exact kept.loaded g i load' own ((last_other same).symm.trans last)
  · intro g i own last
    by_cases same : g = group
    · subst same
      cases last_same.symm.trans last
    · rw [other same own]
      exact kept.unloaded g i own ((last_other same).symm.trans last)
  · intro i free
    have unowned : ((groups group).loaded load s').cache i = s'.cache i := if_neg (free group)
    exact unowned.trans (kept.unowned i free)

theorem Kept.toShown (kept : Kept groups calls s s') : Shown groups calls s s' where
  loaded group i load own last := by
    have cached := kept.loaded group i load own last
    refine ⟨cached, ?_⟩
    rw [display_panel s' (kept.shown group load last), cached]
    exact DisplayGroup.face_low _ i load
  unloaded := kept.unloaded
  unowned := kept.unowned

omit [DecidableEq ι] in
theorem performAll_concat (groups : ι → DisplayGroup) (calls : List (Call ι)) (call : Call ι) (s : Icm7218) :
    performAll groups (calls ++ [call]) s = (performAll groups calls s).bind fun s' => perform groups s' call := by
  rw [performAll, List.foldlM_append]
  show ((performAll groups calls s).bind fun s' => (perform groups s' call).bind .ok) = _
  congr 1
  funext s'
  cases perform groups s' call <;> rfl

theorem performAll_kept (apart : ∀ g h, g ≠ h → ∀ i, ¬ ((groups g).Owns i ∧ (groups h).Owns i)) (s : Icm7218)
    (proper : Proper groups calls) : ∃ s', performAll groups calls s = .ok s' ∧ Kept groups calls s s' := by
  induction calls using List.reverseRecOn with
  | nil => exact ⟨s, rfl, Kept.start groups s⟩
  | append_singleton calls call ih =>
    obtain ⟨s', run, kept⟩ := ih fun group load mem => proper group load (List.mem_append_left [call] mem)
    rw [performAll_concat, run]
    cases call with
    | load group load =>
      have fits := proper group load (List.mem_append_right calls List.mem_cons_self)
      exact ⟨_, DisplayGroup.load_ok fits, kept.after_load apart group load⟩
    | display => exact ⟨_, rfl, kept.after_display⟩

omit [DecidableEq ι] in
theorem performAll_proper (run : performAll groups calls s = .ok s') : Proper groups calls := by
  induction calls generalizing s with
  | nil => exact fun _ _ mem => absurd mem List.not_mem_nil
  | cons call calls ih =>
    rw [performAll, List.foldlM_cons] at run
    cases outcome : perform groups s call with
    | error e =>
      rw [outcome] at run
      cases run
    | ok s'' =>
      rw [outcome] at run
      intro group load mem number i entry
      rcases List.mem_cons.mp mem with rfl | later
      · obtain ⟨e, raised⟩ := DisplayGroup.load_error (s := s) number entry
        cases outcome.symm.trans raised
      · exact ih run group load later number i entry

/-- Groups that share a chip read only their values, and show what they were loaded with last, if and only if no number
is loaded into a group that has the entry 8. -/
theorem groups_shown_iff (groups : ι → DisplayGroup)
    (apart : ∀ g h, g ≠ h → ∀ i, ¬ ((groups g).Owns i ∧ (groups h).Owns i)) (calls : List (Call ι)) (s : Icm7218) :
    (∃ s', performAll groups calls s = .ok s' ∧ Shown groups calls s s') ↔ Proper groups calls := by
  constructor
  · rintro ⟨s', run, -⟩
    exact performAll_proper run
  · intro proper
    obtain ⟨s', run, kept⟩ := performAll_kept apart s proper
    exact ⟨s', run, kept.toShown⟩

/-- The two groups of the counters, of three digits each. -/
def counters : Bool → DisplayGroup
  | false => .setDisplays ![0, 1, 2, -1, -1, -1, -1, -1]
  | true => .setDisplays ![-1, -1, -1, 0, 1, 2, -1, -1]

theorem groups_shown_counters : ∃ s',
    performAll counters [.load false (.unsigned 120), .load true (.signed (-7)), .display, .load false .dash] .new = .ok s' ∧
      Shown counters [.load false (.unsigned 120), .load true (.signed (-7)), .display, .load false .dash] .new s' :=
  (groups_shown_iff counters (by decide) _ _).mpr fun group _ _ _ i =>
    (by decide : ∀ group i, (counters group).displays i ≠ 8) group i

/-- A group with the map that it has before `setDisplays`. -/
theorem default_map_behind : performAll (fun _ : Unit => DisplayGroup.new) [.load () (.unsigned 0)] .new = .error ⟨8⟩ ∧
    ¬ ∃ s', performAll (fun _ : Unit => DisplayGroup.new) [.load () (.unsigned 0)] .new = .ok s' ∧
      Shown (fun _ : Unit => DisplayGroup.new) [.load () (.unsigned 0)] .new s' := by
  have behind : performAll (fun _ : Unit => DisplayGroup.new) [.load () (.unsigned 0)] .new = .error ⟨8⟩ := rfl
  refine ⟨behind, ?_⟩
  rintro ⟨s', run, -⟩
  cases behind.symm.trans run

end Oac.Arduino.Displays
