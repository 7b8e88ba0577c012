import Mathlib.Algebra.Ring.Nat
import Oac.Base.ShiftRegister

/-!
# The LED driver chain

A chain of MAX7219 chips on one serial line, and `Chip::writeInt`. Bytes are shifted
through all the chips, and each chip executes the two bytes that it holds when LOAD rises.
`setDigit` clamps a digit that is too large to 8, whose register is not one of the digits
but the decode mode, and the no-ops before a command are counted in a byte
(`writeInt_proper_iff`).
-/
namespace Oac.Arduino.Max7219
open Base

/-- The two bytes that a chip holds. -/
structure Command where
  reg : UInt8
  data : UInt8
  deriving DecidableEq

/-- A chip looks at four bits of the register. -/
def Command.address (cmd : Command) : Nat := cmd.reg.toNat % 16

/-- The chain. `shift` has two bytes for each chip, those of chip 0 first. `pulses` only
records what the chips held whenever LOAD rose. -/
structure Chain where
  shift : List UInt8
  load : Bool
  registers : Nat → Nat → UInt8
  pulses : List (List Command)

/-- What a chip holds. -/
def Chain.held (s : Chain) (chip : Nat) : Command := ⟨s.shift[2 * chip + 1]?.getD 0, s.shift[2 * chip]?.getD 0⟩

/-- `shiftOut`, with a clock pulse for each bit. -/
def shiftOut (data : UInt8) (s : Chain) : Chain := { s with shift := shiftIn s.shift data }

/-- A chip executes its command, unless that is a no-op. -/
def execute (cmd : Command) (registers : Nat → UInt8) : Nat → UInt8 :=
  if cmd.address = 0 then registers else Function.update registers cmd.address cmd.data

/-- The chips execute what they hold when LOAD rises. -/
def writeLoad (nchips : Nat) (level : Bool) (s : Chain) : Chain :=
  if level && !s.load then
    { s with
      load := true
      registers := fun chip => if chip < nchips then execute (s.held chip) (s.registers chip) else s.registers chip
      pulses := s.pulses ++ [(List.range nchips).map s.held] }
  else { s with load := level }

/-- `_index` and `_decode_mode` of a chip. -/
structure Chip where
  index : UInt8
  decodeMode : UInt8

/-- A chip after `init`, which is given its position as a byte. -/
def Chip.init (position : Nat) (decodeMode : UInt8) : Chip := ⟨UInt8.ofNat position, decodeMode⟩

def serialWriteNoop (times : UInt8) (s : Chain) : Chain :=
  (List.range times.toNat).foldl (fun s _ => shiftOut 0 (shiftOut 0 s)) s

def serialWrite (nchips : Nat) (data : UInt16) (chip : UInt8) (s : Chain) : Chain :=
  let s := writeLoad nchips false s
  let s := serialWriteNoop (UInt8.ofInt (nchips - chip.toNat - 1)) s
  let s := shiftOut (data >>> 8).toUInt8 s
  let s := shiftOut data.toUInt8 s
  let s := serialWriteNoop chip s
  writeLoad nchips true s

def writeRegister (nchips : Nat) (reg data chip : UInt8) (s : Chain) : Chain :=
  serialWrite nchips ((reg.toUInt16 <<< 8) ||| data.toUInt16) chip s

def setDigit (nchips : Nat) (chip : Chip) (digit value : UInt8) (dotPoint : Bool) (s : Chain) : Chain :=
  let digit := if digit > 8 then 8 else digit
  let value := if chip.decodeMode.toNat.testBit digit.toNat && dotPoint then value ||| 0x80 else value
  writeRegister nchips (0x01 + digit) value chip.index s

/-- The loop of `writeInt`, with `count` turns to go: `i` is `from + count - 1`. -/
def writeDigits (nchips : Nat) (chip : Chip) (first : UInt8) : Nat → UInt32 → Chain → Chain
  | 0, _, s => s
  | count + 1, num, s =>
    writeDigits nchips chip first count (num / 10)
      (setDigit nchips chip (UInt8.ofNat (first.toNat + count)) (num % 10).toUInt8 false s)

def writeInt (nchips : Nat) (chip : Chip) (num : UInt32) (first digits : UInt8) (s : Chain) : Chain :=
  writeDigits nchips chip first digits.toNat num s

/-- A decimal digit of a number, counted from the most significant of its last ones. -/
def digitOf (num : UInt32) (digits k : Nat) : UInt8 := UInt8.ofNat (num.toNat / 10 ^ (digits - 1 - k) % 10)

/-- A load pulse at which one chip has a command for a digit and the others have no-ops. -/
def Routed (nchips c : Nat) (pulse : List Command) : Prop :=
  pulse.length = nchips ∧
    ∀ k cmd, pulse[k]? = some cmd → if k = c then 1 ≤ cmd.address ∧ cmd.address ≤ 8 else cmd.address = 0

/-- At each load pulse only the chip in question has a command, for one of its digits; and
if all digits have a register, these show the number and no other register has changed. -/
structure Proper (nchips chip : Nat) (num : UInt32) (first digits : UInt8) (s s' : Chain) : Prop where
  routed : ∃ pulses, s'.pulses = s.pulses ++ pulses ∧ ∀ pulse ∈ pulses, Routed nchips chip pulse
  shown : first.toNat + digits.toNat ≤ 8 → ∀ k address, s'.registers k address =
    if k = chip ∧ first.toNat < address ∧ address ≤ first.toNat + digits.toNat then
      digitOf num digits.toNat (address - first.toNat - 1)
    else s.registers k address

/-! ## What is shifted out -/

variable {nchips : Nat} {s : Chain}

/-- Bytes are shifted out one after the other. -/
def push (bytes : List UInt8) (s : Chain) : Chain := { s with shift := bytes.foldl shiftIn s.shift }

theorem push_push (first second : List UInt8) (s : Chain) : push second (push first s) = push (first ++ second) s := by
  rw [push, push, push, List.foldl_append]

theorem serialWriteNoop_push (times : UInt8) (s : Chain) :
    serialWriteNoop times s = push (List.replicate (2 * times.toNat) 0) s := by
  unfold serialWriteNoop
  induction times.toNat with
  | zero => rfl
  | succ n ih =>
    rw [List.range_succ, List.foldl_append, ih, Nat.mul_succ, List.replicate_add, ← push_push]
    rfl

/-- What goes over the line for a command: the no-ops for the chips behind, the command, and
the no-ops for the chips before. -/
def line (before after : Nat) (cmd : Command) : List UInt8 :=
  List.replicate (2 * after) 0 ++ [cmd.reg, cmd.data] ++ List.replicate (2 * before) 0

theorem high_byte (reg data : UInt8) : (((reg.toUInt16 <<< 8) ||| data.toUInt16) >>> 8).toUInt8 = reg := by
  apply UInt8.toBitVec_inj.mp
  ext i bound
  have below : ¬ 8 + i < 8 := by omega
  have above : 8 + i < 16 := by omega
  have within : i < 16 := by omega
  simp [below, above, within, BitVec.getLsbD_eq_getElem bound]

theorem low_byte (reg data : UInt8) : ((reg.toUInt16 <<< 8) ||| data.toUInt16).toUInt8 = data := by
  apply UInt8.toBitVec_inj.mp
  ext i bound
  simp

/-- How many no-ops are sent before a command. -/
def noopsFor (nchips : Nat) (chip : UInt8) : Nat := (UInt8.ofInt (nchips - chip.toNat - 1)).toNat

/-- The chain when LOAD rises. -/
def filled (nchips : Nat) (chip : UInt8) (cmd : Command) (s : Chain) : Chain :=
  push (line chip.toNat (noopsFor nchips chip) cmd) { s with load := false }

theorem writeRegister_filled (reg data chip : UInt8) (s : Chain) :
    writeRegister nchips reg data chip s = writeLoad nchips true (filled nchips chip ⟨reg, data⟩ s) := by
  have lowered : writeLoad nchips false s = { s with load := false } := rfl
  unfold writeRegister serialWrite
  simp only [serialWriteNoop_push, high_byte, low_byte, lowered]
  rw [filled, line, ← push_push, ← push_push]
  rfl

/-- The bytes of a chain after a command: the newest ones are those of the first chips. -/
theorem line_getElem? (before after : Nat) (data reg : UInt8) (old : List UInt8) (j : Nat) :
    (List.replicate before 0 ++ ([data, reg] ++ (List.replicate after 0 ++ old)))[j]? =
      if j < before then some 0
      else if j = before then some data
      else if j = before + 1 then some reg
      else if j < before + 2 + after then some 0
      else old[j - (before + 2 + after)]? := by
  rw [List.getElem?_append, List.length_replicate]
  split_ifs with in_before at_data at_reg in_after
  · simp [in_before]
  · subst at_data
    simp
  · subst at_reg
    simp
  · obtain ⟨k, rfl⟩ := Nat.exists_eq_add_of_le (show before + 2 ≤ j by omega)
    have inside : k < (List.replicate after (0 : UInt8)).length := by
      rw [List.length_replicate]
      omega
    have at_k : before + 2 + k - before = k + 2 := by omega
    rw [at_k]
    show (List.replicate after 0 ++ old)[k]? = some 0
    rw [List.getElem?_append_left inside, List.getElem?_replicate, if_pos (by omega)]
  · obtain ⟨k, rfl⟩ := Nat.exists_eq_add_of_le (show before + 2 + after ≤ j by omega)
    have at_k : before + 2 + after + k - before = after + k + 2 := by omega
    rw [at_k]
    show (List.replicate after 0 ++ old)[after + k]? = _
    rw [List.getElem?_append_right (by simp)]
    simp

theorem filled_held {chip : UInt8} {cmd : Command} {k : Nat} (length : s.shift.length = 2 * nchips) (inside : k < nchips) :
    (filled nchips chip cmd s).held k =
      if k = chip.toNat then cmd
      else if k < chip.toNat + 1 + noopsFor nchips chip then ⟨0, 0⟩
      else s.held (k - (chip.toNat + 1 + noopsFor nchips chip)) := by
  have content : (filled nchips chip cmd s).shift = (List.replicate (2 * chip.toNat) 0 ++ ([cmd.data, cmd.reg] ++
      (List.replicate (2 * noopsFor nchips chip) 0 ++ s.shift))).take (2 * nchips) := by
    rw [filled, push, foldl_shiftIn, length, line]
    simp
  have byte {j : Nat} (bound : j < 2 * nchips) := (congrArg (·[j]?) content).trans
    ((List.getElem?_take_of_lt bound).trans (line_getElem? ..))
  unfold Chain.held
  rw [byte (by omega), byte (by omega)]
  rcases Nat.lt_trichotomy k chip.toNat with before | here | later
  · rw [if_pos (by omega), if_pos (by omega), if_neg (by omega), if_pos (by omega)]
    rfl
  · rw [if_neg (by omega), if_neg (by omega), if_pos (by omega), if_neg (by omega), if_pos (by omega), if_pos here]
    rfl
  · have other : k ≠ chip.toNat := by omega
    by_cases empty : k < chip.toNat + 1 + noopsFor nchips chip
    · rw [if_neg (by omega), if_neg (by omega), if_neg (by omega), if_pos (by omega), if_neg (by omega), if_neg (by omega),
        if_neg (by omega), if_pos (by omega), if_neg other, if_pos empty]
      rfl
    · have first : 2 * k + 1 - (2 * chip.toNat + 2 + 2 * noopsFor nchips chip) =
          2 * (k - (chip.toNat + 1 + noopsFor nchips chip)) + 1 := by omega
      have second : 2 * k - (2 * chip.toNat + 2 + 2 * noopsFor nchips chip) =
          2 * (k - (chip.toNat + 1 + noopsFor nchips chip)) := by omega
      rw [if_neg (by omega), if_neg (by omega), if_neg (by omega), if_neg (by omega), if_neg (by omega), if_neg (by omega),
        if_neg (by omega), if_neg (by omega), if_neg other, if_neg empty, first, second]

/-- The chips that latch in a command. -/
theorem writeRegister_latched (nchips : Nat) (reg data chip : UInt8) (s : Chain) :
    (writeRegister nchips reg data chip s).shift.length = s.shift.length ∧
      (writeRegister nchips reg data chip s).pulses =
        s.pulses ++ [(List.range nchips).map (filled nchips chip ⟨reg, data⟩ s).held] ∧
      (writeRegister nchips reg data chip s).registers = fun k =>
        if k < nchips then execute ((filled nchips chip ⟨reg, data⟩ s).held k) (s.registers k) else s.registers k := by
  rw [writeRegister_filled]
  exact ⟨foldl_shiftIn_length .., rfl, rfl⟩

/-! ## Commands that reach their chip -/

/-- The no-ops for a chip fit in a byte, as does its position. -/
def Reachable (nchips c : Nat) : Prop := c < 256 ∧ nchips - c ≤ 256
instance (nchips c : Nat) : Decidable (Reachable nchips c) := inferInstanceAs (Decidable (_ ∧ _))

theorem noopsFor_eq {chip : UInt8} (inside : chip.toNat < nchips) : noopsFor nchips chip = (nchips - chip.toNat - 1) % 256 := by
  have natural : (nchips - chip.toNat - 1 : Int) = ((nchips - chip.toNat - 1 : Nat) : Int) := by omega
  rw [noopsFor, natural]
  show (UInt8.ofNat _).toNat = _
  rw [UInt8.toNat_ofNat']
  omega

theorem execute_digit {cmd : Command} (some : cmd.address ≠ 0) (registers : Nat → UInt8) (address : Nat) :
    execute cmd registers address = if address = cmd.address then cmd.data else registers address := by
  rw [execute, if_neg some, Function.update_apply]

theorem execute_noop (registers : Nat → UInt8) : execute ⟨0, 0⟩ registers = registers := rfl

/-- A command that its chip alone executes. -/
structure Sent (nchips c : Nat) (cmd : Command) (s s' : Chain) : Prop where
  length : s'.shift.length = s.shift.length
  pulses : s'.pulses = s.pulses ++ [(List.range nchips).map fun k => if k = c then cmd else ⟨0, 0⟩]
  registers : s'.registers = fun k => if k = c then execute cmd (s.registers c) else s.registers k

theorem writeRegister_sent {c : Nat} (reg data : UInt8) (length : s.shift.length = 2 * nchips) (inside : c < nchips)
    (reachable : Reachable nchips c) : Sent nchips c ⟨reg, data⟩ s (writeRegister nchips reg data (UInt8.ofNat c) s) := by
  obtain ⟨position, behind⟩ := reachable
  have index : (UInt8.ofNat c).toNat = c := by rw [UInt8.toNat_ofNat', Nat.mod_eq_of_lt (by omega)]
  have noops : noopsFor nchips (UInt8.ofNat c) = nchips - c - 1 := by
    rw [noopsFor_eq (by omega), index, Nat.mod_eq_of_lt (by omega)]
  have held : ∀ k < nchips, (filled nchips (UInt8.ofNat c) ⟨reg, data⟩ s).held k =
      if k = c then ⟨reg, data⟩ else ⟨0, 0⟩ := by
    intro k bound
    rw [filled_held length bound, index, noops, if_pos (show k < c + 1 + (nchips - c - 1) by omega)]
  obtain ⟨kept, pulses, registers⟩ := writeRegister_latched nchips reg data (UInt8.ofNat c) s
  refine ⟨kept, ?_, ?_⟩
  · rw [pulses]
    congr 2
    exact List.map_congr_left fun k mem => held k (List.mem_range.mp mem)
  · rw [registers]
    funext k
    by_cases bound : k < nchips
    · rw [if_pos bound, held k bound]
      by_cases here : k = c
      · rw [if_pos here, if_pos here, here]
      · rw [if_neg here, if_neg here, execute_noop]
    · rw [if_neg bound, if_neg (by omega)]

/-! ## Digits -/

/-- The register of a digit, as `setDigit` clamps it. -/
def registerOf (digit : UInt8) : UInt8 := 0x01 + if digit > 8 then 8 else digit

theorem registerOf_digit {digit : UInt8} (small : digit.toNat < 8) : (registerOf digit).toNat = digit.toNat + 1 := by
  have unclamped : ¬ digit > 8 := by
    rw [gt_iff_lt, UInt8.lt_iff_toNat_lt]
    show ¬ 8 < digit.toNat
    omega
  rw [registerOf, if_neg unclamped, UInt8.toNat_add]
  show (1 + digit.toNat) % 2 ^ 8 = _
  omega

/-- A digit that is too large is taken for the decode mode. -/
theorem registerOf_large {digit : UInt8} (large : 8 ≤ digit.toNat) : (registerOf digit).toNat = 9 := by
  by_cases clamped : digit > 8
  · rw [registerOf, if_pos clamped]
    rfl
  · have eight : digit = 8 := by
      rw [gt_iff_lt, UInt8.lt_iff_toNat_lt] at clamped
      have bound : ¬ 8 < digit.toNat := clamped
      exact UInt8.toNat_inj.mp (by show digit.toNat = 8; omega)
    rw [eight]
    rfl

theorem registerOf_address (digit data : UInt8) : (Command.mk (registerOf digit) data).address = (registerOf digit).toNat := by
  have bound : (registerOf digit).toNat < 16 := by
    by_cases small : digit.toNat < 8
    · rw [registerOf_digit small]
      omega
    · rw [registerOf_large (by omega)]
      omega
  exact Nat.mod_eq_of_lt bound

theorem setDigit_writes (chip : Chip) (digit value : UInt8) (s : Chain) :
    setDigit nchips chip digit value false s = writeRegister nchips (registerOf digit) value chip.index s := by
  unfold setDigit
  simp only [Bool.and_false]
  rfl

theorem digitOf_last (num : UInt32) (count : Nat) : digitOf num (count + 1) count = (num % 10).toUInt8 := by
  have exponent : count + 1 - 1 - count = 0 := by omega
  rw [digitOf, exponent, Nat.pow_zero, Nat.div_one]
  rfl

theorem digitOf_rest {num : UInt32} {count j : Nat} (before : j < count) :
    digitOf (num / 10) count j = digitOf num (count + 1) j := by
  have exponent : count + 1 - 1 - j = (count - 1 - j) + 1 := by omega
  rw [digitOf, digitOf, exponent, Nat.pow_succ', ← Nat.div_div_eq_div_mul, UInt32.toNat_div]
  rfl

theorem routed_digit {c : Nat} {cmd : Command} (digit : 1 ≤ cmd.address ∧ cmd.address ≤ 8) :
    Routed nchips c ((List.range nchips).map fun k => if k = c then cmd else ⟨0, 0⟩) := by
  refine ⟨by simp, fun k cmd' at_k => ?_⟩
  rw [List.getElem?_map] at at_k
  obtain ⟨j, at_j, rfl⟩ := Option.map_eq_some_iff.mp at_k
  obtain ⟨bound, same⟩ := List.getElem?_eq_some_iff.mp at_j
  rw [List.getElem_range] at same
  subst same
  by_cases here : k = c
  · rw [if_pos here, if_pos here]
    exact digit
  · rw [if_neg here, if_neg here]
    rfl

/-- What the loop does where every digit has its register. -/
structure Written (nchips c : Nat) (num : UInt32) (first count : Nat) (s s' : Chain) : Prop where
  length : s'.shift.length = s.shift.length
  routed : ∃ pulses, s'.pulses = s.pulses ++ pulses ∧ ∀ pulse ∈ pulses, Routed nchips c pulse
  shown : ∀ k address, s'.registers k address =
    if k = c ∧ first < address ∧ address ≤ first + count then digitOf num count (address - first - 1)
    else s.registers k address

theorem writeDigits_written {c : Nat} {first : UInt8} (decodeMode : UInt8) (inside : c < nchips) (reachable : Reachable nchips c)
    (count : Nat) : ∀ (num : UInt32) (s : Chain), s.shift.length = 2 * nchips → first.toNat + count ≤ 8 →
      Written nchips c num first.toNat count s (writeDigits nchips (Chip.init c decodeMode) first count num s) := by
  induction count with
  | zero =>
    intro num s length _
    refine ⟨rfl, ⟨[], by simp [writeDigits], by simp⟩, fun k address => ?_⟩
    rw [if_neg (by omega)]
    rfl
  | succ count ih =>
    intro num s length fits
    have position : (UInt8.ofNat (first.toNat + count)).toNat = first.toNat + count := by
      rw [UInt8.toNat_ofNat', Nat.mod_eq_of_lt (by omega)]
    have register : (registerOf (UInt8.ofNat (first.toNat + count))).toNat = first.toNat + count + 1 := by
      rw [registerOf_digit (by omega), position]
    let cmd : Command := ⟨registerOf (UInt8.ofNat (first.toNat + count)), (num % 10).toUInt8⟩
    have address : cmd.address = first.toNat + count + 1 := (registerOf_address _ _).trans register
    have sent : Sent nchips c cmd s
        (setDigit nchips (Chip.init c decodeMode) (UInt8.ofNat (first.toNat + count)) (num % 10).toUInt8 false s) := by
      rw [setDigit_writes]
      exact writeRegister_sent _ _ length inside reachable
    obtain ⟨kept, ⟨pulses, later, routed⟩, shown⟩ := ih (num / 10) _ (sent.length.trans length) (by omega)
    have here : Routed nchips c ((List.range nchips).map fun k => if k = c then cmd else ⟨0, 0⟩) :=
      routed_digit (by rw [address]; omega)
    refine ⟨kept.trans sent.length, ⟨_ :: pulses, ?_, List.forall_mem_cons.mpr ⟨here, routed⟩⟩, fun k a => ?_⟩
    · rw [writeDigits, later, sent.pulses, List.append_assoc, List.singleton_append]
    · rw [writeDigits, shown, sent.registers]
      by_cases same : k = c
      · subst same
        simp only [true_and, ↓reduceIte]
        rw [execute_digit (by rw [address]; omega), address]
        by_cases last : a = first.toNat + count + 1
        · have index : a - first.toNat - 1 = count := by omega
          rw [if_neg (by omega), if_pos last, if_pos (by omega), index, digitOf_last]
        · rw [if_neg last]
          by_cases among : first.toNat < a ∧ a ≤ first.toNat + count
          · rw [if_pos among, if_pos (by omega), digitOf_rest (by omega)]
          · rw [if_neg among, if_neg (by omega)]
      · simp [same]

/-! ## Each turn of the loop -/

/-- What the chips hold at the load pulse of a command. -/
def pulseOf (nchips : Nat) (chip : UInt8) (cmd : Command) (s : Chain) : List Command :=
  (List.range nchips).map (filled nchips chip cmd s).held

theorem pulseOf_getElem? {chip : UInt8} {cmd : Command} {k : Nat} (inside : k < nchips) :
    (pulseOf nchips chip cmd s)[k]? = some ((filled nchips chip cmd s).held k) := by
  rw [pulseOf, List.getElem?_map, List.getElem?_range inside]
  rfl

theorem setDigit_pulses (nchips : Nat) (chip : Chip) (digit value : UInt8) (s : Chain) :
    (setDigit nchips chip digit value false s).shift.length = s.shift.length ∧
      (setDigit nchips chip digit value false s).pulses =
        s.pulses ++ [pulseOf nchips chip.index ⟨registerOf digit, value⟩ s] := by
  rw [setDigit_writes]
  obtain ⟨length, pulses, -⟩ := writeRegister_latched nchips (registerOf digit) value chip.index s
  exact ⟨length, pulses⟩

theorem writeDigits_pulses (nchips : Nat) (chip : Chip) (first : UInt8) (count : Nat) : ∀ (num : UInt32) (s : Chain),
    ∃ pulses, (writeDigits nchips chip first count num s).pulses = s.pulses ++ pulses := by
  induction count with
  | zero => exact fun num s => ⟨[], (List.append_nil _).symm⟩
  | succ count ih =>
    intro num s
    obtain ⟨later, pulses⟩ := ih (num / 10) (setDigit nchips chip (UInt8.ofNat (first.toNat + count)) (num % 10).toUInt8 false s)
    refine ⟨pulseOf nchips chip.index ⟨registerOf (UInt8.ofNat (first.toNat + count)), (num % 10).toUInt8⟩ s :: later, ?_⟩
    rw [writeDigits, pulses, (setDigit_pulses nchips chip _ _ s).2, List.append_assoc, List.singleton_append]

/-- Every turn has its pulse; the first one is about the last digit. -/
theorem writeDigits_pulse (nchips : Nat) (chip : Chip) (first : UInt8) {j : Nat} (count : Nat) :
    ∀ (num : UInt32) (s : Chain), j < count → ∃ s₁ data before later, s₁.shift.length = s.shift.length ∧
      (j + 1 = count → s₁ = s) ∧ (writeDigits nchips chip first count num s).pulses = s.pulses ++
        (before ++ pulseOf nchips chip.index ⟨registerOf (UInt8.ofNat (first.toNat + j)), data⟩ s₁ :: later) := by
  induction count with
  | zero => exact fun num s none => absurd none (Nat.not_lt_zero j)
  | succ count ih =>
    intro num s bound
    obtain ⟨length, here⟩ := setDigit_pulses nchips chip (UInt8.ofNat (first.toNat + count)) (num % 10).toUInt8 s
    rcases Nat.lt_succ_iff_lt_or_eq.mp bound with earlier | rfl
    · obtain ⟨s₁, data, before, later, same, -, pulses⟩ := ih (num / 10) _ earlier
      refine ⟨s₁, data, pulseOf nchips chip.index ⟨registerOf (UInt8.ofNat (first.toNat + count)), (num % 10).toUInt8⟩ s :: before,
        later, same.trans length, fun last => absurd last (by omega), ?_⟩
      rw [writeDigits, pulses, here, List.append_assoc, List.singleton_append, List.cons_append]
    · obtain ⟨later, pulses⟩ := writeDigits_pulses nchips chip first j (num / 10)
        (setDigit nchips chip (UInt8.ofNat (first.toNat + j)) (num % 10).toUInt8 false s)
      refine ⟨s, (num % 10).toUInt8, [], later, rfl, fun _ => rfl, ?_⟩
      rw [writeDigits, pulses, here, List.append_assoc, List.singleton_append, List.nil_append]

/-- What `writeInt` does to the chip in each of its turns. -/
theorem Proper.turn {c j : Nat} {num : UInt32} {first digits decodeMode : UInt8} (turn : j < digits.toNat)
    (proper : Proper nchips c num first digits s (writeInt nchips (Chip.init c decodeMode) num first digits s)) :
    ∃ s₁ data, s₁.shift.length = s.shift.length ∧ (j + 1 = digits.toNat → s₁ = s) ∧
      Routed nchips c (pulseOf nchips (UInt8.ofNat c) ⟨registerOf (UInt8.ofNat (first.toNat + j)), data⟩ s₁) := by
  obtain ⟨s₁, data, before, later, length, last, pulses⟩ :=
    writeDigits_pulse nchips (Chip.init c decodeMode) first digits.toNat num s turn
  obtain ⟨made, pulses', routed⟩ := proper.routed
  have same := List.append_cancel_left (pulses'.symm.trans pulses)
  refine ⟨s₁, data, length, last, routed _ ?_⟩
  rw [same]
  exact List.mem_append_right before List.mem_cons_self

theorem registerOf_pos (digit : UInt8) : 0 < (registerOf digit).toNat := by
  by_cases small : digit.toNat < 8
  · rw [registerOf_digit small]
    exact Nat.succ_pos _
  · rw [registerOf_large (by omega)]
    exact Nat.succ_pos _

/-- A chain that holds commands from before. -/
def crowded (nchips : Nat) : Chain :=
  { shift := List.replicate (2 * nchips) 1, load := true, registers := fun _ _ => 0, pulses := [] }

theorem crowded_held (inside : 0 < nchips) : (crowded nchips).held 0 = ⟨1, 1⟩ := by
  rw [Chain.held, crowded, List.getElem?_replicate, List.getElem?_replicate, if_pos (by omega), if_pos (by omega)]
  rfl

/-- A chip that the count of no-ops or its position misses. -/
theorem unreachable {c : Nat} {num : UInt32} {first digits decodeMode : UInt8} (inside : c < nchips) (some : 0 < digits.toNat)
    (proper : ∀ s : Chain, s.shift.length = 2 * nchips →
      Proper nchips c num first digits s (writeInt nchips (Chip.init c decodeMode) num first digits s)) :
    Reachable nchips c := by
  have full : (crowded nchips).shift.length = 2 * nchips := List.length_replicate
  obtain ⟨s₁, data, -, last, -, routed⟩ := (proper (crowded nchips) full).turn (show digits.toNat - 1 < digits.toNat by omega)
  obtain rfl := last (by omega)
  have index : (UInt8.ofNat c).toNat = c % 256 := UInt8.toNat_ofNat'
  have position : c < 256 := by
    by_contra beyond
    -- the command reaches the chip whose position has the same last byte
    have other := routed (c % 256) _ (pulseOf_getElem? (by omega))
    rw [if_neg (by omega), filled_held full (by omega), index, if_pos rfl, registerOf_address] at other
    exact absurd other (Nat.ne_of_gt (registerOf_pos _))
  refine ⟨position, ?_⟩
  by_contra beyond
  -- what chip 0 held has been shifted to a chip behind the one that is meant
  have noops : noopsFor nchips (UInt8.ofNat c) = (nchips - c - 1) % 256 := by
    rw [noopsFor_eq (by omega), index, Nat.mod_eq_of_lt position]
  have other := routed (c + 1 + (nchips - c - 1) % 256) _ (pulseOf_getElem? (by omega))
  rw [if_neg (by omega), filled_held full (by omega), index, Nat.mod_eq_of_lt position, noops, if_neg (by omega),
    if_neg (by omega), Nat.sub_self, crowded_held (by omega)] at other
  exact absurd other (by decide)

/-- A digit without a register. -/
theorem misplaced {c : Nat} {num : UInt32} {first digits decodeMode : UInt8} (inside : c < nchips) (reachable : Reachable nchips c)
    (length : s.shift.length = 2 * nchips) (some : 0 < digits.toNat)
    (proper : Proper nchips c num first digits s (writeInt nchips (Chip.init c decodeMode) num first digits s)) :
    first.toNat + digits.toNat ≤ 8 := by
  by_contra beyond
  have bound := first.toNat_lt
  have index : (UInt8.ofNat c).toNat = c := by rw [UInt8.toNat_ofNat', Nat.mod_eq_of_lt reachable.1]
  -- the first position that is not a digit
  obtain ⟨j, turn, large⟩ : ∃ j < digits.toNat, 8 ≤ (UInt8.ofNat (first.toNat + j)).toNat := by
    refine ⟨8 - first.toNat, by omega, ?_⟩
    rw [UInt8.toNat_ofNat']
    omega
  obtain ⟨s₁, data, same, -, -, routed⟩ := proper.turn turn
  have here := routed c _ (pulseOf_getElem? inside)
  rw [if_pos rfl, filled_held (same.trans length) inside, if_pos index.symm, registerOf_address, registerOf_large large] at here
  omega

/-- Chips and digits are met in just these cases. -/
theorem writeInt_proper_iff {c : Nat} (inside : c < nchips) (num : UInt32) (first digits decodeMode : UInt8) :
    (∀ s : Chain, s.shift.length = 2 * nchips →
      Proper nchips c num first digits s (writeInt nchips (Chip.init c decodeMode) num first digits s)) ↔
    digits = 0 ∨ (first.toNat + digits.toNat ≤ 8 ∧ c < 256 ∧ nchips - c ≤ 256) := by
  constructor
  · intro proper
    by_cases none : digits = 0
    · exact .inl none
    · have some : 0 < digits.toNat := Nat.pos_of_ne_zero fun zero => none (UInt8.toNat_inj.mp zero)
      have reachable := unreachable inside some proper
      have full : (crowded nchips).shift.length = 2 * nchips := List.length_replicate
      exact .inr ⟨misplaced inside reachable full some (proper (crowded nchips) full), reachable⟩
  · rintro (rfl | ⟨fits, reachable⟩) s length
    · refine ⟨⟨[], (List.append_nil _).symm, by simp⟩, fun _ k address => ?_⟩
      rw [if_neg]
      · rfl
      · rintro ⟨-, above, below⟩
        exact absurd (Nat.lt_of_lt_of_le above below) (Nat.lt_irrefl _)
    · obtain ⟨-, routed, shown⟩ := writeDigits_written decodeMode inside reachable digits.toNat num s length fits
      exact ⟨routed, fun _ => shown⟩

/-- The chip in the middle of three shows 4711 from its third digit on. -/
theorem writeInt_proper_middle :
    Proper 3 1 4711 2 4 (crowded 3) (writeInt 3 (Chip.init 1 0xff) 4711 2 4 (crowded 3)) ∧
    ∀ k address, (writeInt 3 (Chip.init 1 0xff) 4711 2 4 (crowded 3)).registers k address =
      if k = 1 ∧ 2 < address ∧ address ≤ 6 then digitOf 4711 4 (address - 3) else (crowded 3).registers k address := by
  have proper := (writeInt_proper_iff (show 1 < 3 by decide) 4711 2 4 0xff).mpr (by decide) (crowded 3) rfl
  exact ⟨proper, proper.shown (by decide)⟩

/-- The last of 8 digits from the second on is written to the decode mode. -/
theorem writeInt_decode_mode : ∃ s : Chain, s.shift.length = 2 * 1 ∧
    ¬ Proper 1 0 0 1 8 s (writeInt 1 (Chip.init 0 0xff) 0 1 8 s) := by
  refine ⟨crowded 1, rfl, fun proper => ?_⟩
  have fits := misplaced (show 0 < 1 by decide) (by decide) rfl (by decide) proper
  exact absurd fits (by decide)

end Oac.Arduino.Max7219
