import Oac.Base.Program
import Oac.Oacsp.Commands
import Mathlib.Data.List.TakeWhile

/-!
# Events from the gateway to the device

The line of an event is read by the device in fields: the word of the event is taken out,
wherever it stands, and what is left is cut at its first space. An LVAR and an offset arrive
as they were sent if they leave the device the room and the range for it
(`event_round_trip_iff`).
-/
namespace Oac.Oacsp
open Base
open Fsuipc (digit digitsValue isDecDigit isHexDigit isSpace splitSign)

/-! ## Taking out a word -/

variable {word s : Str}

theorem removeAux_skip (word : Str) (skip : Nat) (s : Str) : removeAux word skip s = remove word (s.drop skip) := by
  induction skip generalizing s with
  | zero => rfl
  | succ skip ih =>
    cases s with
    | nil => rfl
    | cons c s => exact ih s

@[simp] theorem remove_nil : remove word [] = [] := rfl

theorem remove_cons (c : UInt8) (s : Str) : remove word (c :: s) =
    if word <+: c :: s then remove word (s.drop (word.length - 1)) else c :: remove word s := by
  unfold remove
  rw [removeAux]
  split
  · exact removeAux_skip word _ s
  · rfl

/-- An occurrence at the beginning is taken out first. -/
theorem remove_append (nonempty : word ≠ []) (s : Str) : remove word (word ++ s) = remove word s := by
  obtain ⟨c, word', rfl⟩ := List.exists_cons_of_ne_nil nonempty
  have begins : c :: word' <+: c :: (word' ++ s) := List.prefix_append (c :: word') s
  rw [List.cons_append, remove_cons, if_pos begins]
  simp

theorem remove_absent (absent : ¬ word <:+: s) : remove word s = s := by
  induction s with
  | nil => rfl
  | cons c s ih =>
    rw [remove_cons, if_neg fun begins => absent begins.isInfix,
      ih fun within => absent (within.trans (List.suffix_cons c s).isInfix)]

theorem remove_sublist (word s : Str) : (remove word s).Sublist s := by
  induction length : s.length using Nat.strong_induction_on generalizing s with
  | _ n ih =>
    cases s with
    | nil => exact List.Sublist.refl _
    | cons c s =>
      rw [remove_cons]
      split
      · have shorter : (s.drop (word.length - 1)).length < n := by
          rw [← length, List.length_drop, List.length_cons]
          omega
        exact ((ih _ shorter _ rfl).trans (List.drop_sublist _ _)).cons c
      · have shorter : s.length < n := by
          rw [← length, List.length_cons]
          omega
        exact (ih _ shorter _ rfl).cons_cons c

/-- A string with an occurrence gets shorter. -/
theorem remove_shorter (nonempty : word ≠ []) (within : word <:+: s) : (remove word s).length < s.length := by
  induction s with
  | nil => exact absurd (List.infix_nil.mp within) nonempty
  | cons c s ih =>
    rw [remove_cons]
    split
    · have shorter := ((remove_sublist word (s.drop (word.length - 1))).trans (List.drop_sublist _ _)).length_le
      rw [List.length_cons]
      omega
    · rename_i other
      rcases List.infix_cons_iff.mp within with begins | later
      · exact absurd begins other
      · have := ih later
        simp only [List.length_cons]
        omega

theorem prefix_field {sep : UInt8} (plain : sep ∉ word) {field rest : Str} (begins : word <+: field ++ sep :: rest) :
    word <+: field := by
  obtain ⟨later, split⟩ := begins
  rcases List.append_eq_append_iff.mp split with ⟨middle, same, -⟩ | ⟨middle, same, tail⟩
  · exact ⟨middle, same.symm⟩
  · cases middle with
    | nil =>
      rw [same, List.append_nil]
    | cons c middle =>
      cases tail
      exact absurd (by rw [same]; simp) plain

/-- A word without the separator is taken out of each field on its own. -/
theorem remove_field {sep : UInt8} (plain : sep ∉ word) (nonempty : word ≠ []) (field rest : Str) :
    remove word (field ++ sep :: rest) = remove word field ++ sep :: remove word rest := by
  induction length : field.length using Nat.strong_induction_on generalizing field with
  | _ n ih =>
    cases field with
    | nil =>
      have other : ¬ word <+: sep :: rest := by
        intro begins
        obtain ⟨c, word', rfl⟩ := List.exists_cons_of_ne_nil nonempty
        rw [List.cons_prefix_cons] at begins
        exact plain (begins.1 ▸ List.mem_cons_self)
      rw [List.nil_append, remove_cons, if_neg other, remove_nil, List.nil_append]
    | cons c field =>
      rw [List.cons_append, remove_cons, remove_cons]
      by_cases begins : word <+: c :: field
      · have within := begins.length_le
        rw [List.length_cons] at within
        have whole : word <+: c :: (field ++ sep :: rest) := begins.trans (List.prefix_append (c :: field) _)
        rw [if_pos begins, if_pos whole, List.drop_append_of_le_length (by omega)]
        refine ih _ ?_ _ rfl
        rw [← length, List.length_drop, List.length_cons]
        omega
      · have whole : ¬ word <+: c :: (field ++ sep :: rest) := fun begins' => begins (prefix_field plain begins')
        rw [if_neg begins, if_neg whole, List.cons_append]
        congr 1
        refine ih _ ?_ _ rfl
        rw [← length, List.length_cons]
        omega

/-! ## Fields -/

/-- A string without spaces, to which a numeral or a name is not empty. -/
def Solid (s : Str) : Prop := s ≠ [] ∧ ∀ c ∈ s, isSpace c = false

theorem space_isSpace : isSpace 0x20 = true := by decide

theorem Solid.not_mem (solid : Solid s) : 0x20 ∉ s := fun among => absurd (solid.2 _ among) (by decide)

theorem trim_space (s : Str) : trim (0x20 :: s) = trim s := by simp [trim, space_isSpace]

/-- Nothing is trimmed between solid ends. -/
theorem trim_between {c d : UInt8} (first : isSpace c = false) (last : isSpace d = false) (s : Str) :
    trim (c :: (s ++ [d])) = c :: (s ++ [d]) := by
  simp [trim, first, last]

theorem trim_solid (solid : Solid s) : trim s = s := by
  obtain ⟨nonempty, plain⟩ := solid
  obtain ⟨c, s, rfl⟩ := List.exists_cons_of_ne_nil nonempty
  have first : isSpace c = false := plain c List.mem_cons_self
  rcases List.eq_nil_or_concat s with rfl | ⟨s, d, rfl⟩
  · simp [trim, first]
  · rw [List.concat_eq_append] at plain ⊢
    exact trim_between first (plain d (by simp)) s

theorem trim_fields {field value : Str} (solid : Solid field) (solid' : Solid value) :
    trim (field ++ 0x20 :: value) = field ++ 0x20 :: value := by
  obtain ⟨c, field, rfl⟩ := List.exists_cons_of_ne_nil solid.1
  obtain ⟨value, d, rfl⟩ := (List.eq_nil_or_concat value).resolve_left solid'.1
  have between := trim_between (solid.2 c List.mem_cons_self) (solid'.2 d (by simp)) (field ++ 0x20 :: value)
  simpa using between

theorem parseTuple2_fields {field : Str} (plain : 0x20 ∉ field) (value : Str) :
    parseTuple2 (field ++ 0x20 :: value) = some (field, value) := by
  have others : ∀ c ∈ field, (decide (c ≠ 0x20)) = true := by
    intro c among
    exact decide_eq_true fun same => plain (same ▸ among)
  unfold parseTuple2
  rw [if_pos (by simp), List.takeWhile_append_of_pos others, List.dropWhile_append_of_pos others]
  simp

/-- What the device makes of the two fields behind the word of an event. -/
theorem fields_read (plain : 0x20 ∉ word) (nonempty : word ≠ []) {field value : Str} (solid : ∀ c ∈ field, isSpace c = false)
    (solid' : Solid value) (absent : ¬ word <:+: value) :
    parseTuple2 (trim (remove word (word ++ 0x20 :: (field ++ 0x20 :: value)))) =
      if remove word field = [] then none else some (remove word field, value) := by
  have parted : remove word (word ++ 0x20 :: (field ++ 0x20 :: value)) = 0x20 :: (remove word field ++ 0x20 :: value) := by
    have start := remove_field plain nonempty [] (field ++ 0x20 :: value)
    rw [List.nil_append, remove_nil, List.nil_append] at start
    rw [remove_append nonempty, start, remove_field plain nonempty, remove_absent absent]
  rw [parted, trim_space]
  by_cases gone : remove word field = []
  · rw [if_pos gone, gone, List.nil_append, trim_space, trim_solid solid']
    exact if_neg solid'.not_mem
  · have rest : Solid (remove word field) := ⟨gone, fun c among => solid c ((remove_sublist word field).subset among)⟩
    rw [if_neg gone, trim_fields rest solid', parseTuple2_fields rest.not_mem]

/-! ## Polls -/

theorem readBytesUntil_eq (terminator : UInt8) (n : Nat) (stream : Str) :
    (readBytesUntil terminator n stream).1 = (stream.takeWhile (· ≠ terminator)).take n := by
  induction n generalizing stream with
  | zero => rfl
  | succ n ih =>
    cases stream with
    | nil => rfl
    | cons c stream =>
      unfold readBytesUntil
      by_cases here : c = terminator
      · simp [here]
      · simp [here, ih]

/-- The bytes of lines: no ends of lines or of strings. -/
def Printed (line : Str) : Prop := ∀ c ∈ line, c ≠ 0x0a ∧ c ≠ 0

theorem readBytesUntil_line {line : Str} (printed : Printed line) (short : line.length ≤ 255) :
    (readBytesUntil 0x0a 255 (line ++ newline)).1 = line := by
  have others : ∀ c ∈ line, (decide (c ≠ 0x0a)) = true := fun c among => decide_eq_true (printed c among).1
  rw [readBytesUntil_eq, List.takeWhile_append_of_pos others]
  simp [newline, short]

theorem printed_whole {line : Str} (printed : Printed line) : line.takeWhile (· ≠ 0) = line :=
  List.takeWhile_eq_self_iff.mpr fun c among => decide_eq_true (printed c among).2

variable {toInt : Str → Int32} {p : SerialProtocol}

/-- The device cuts names. -/
theorem pollEvent_name {name : Str} {value : Int32} (polled : (pollEvent toInt p).1 = some (.lvarUpdate name value)) :
    name.length ≤ 63 := by
  unfold pollEvent at polled
  simp only at polled
  split at polled
  · unfold pollLVarEvent at polled
    split at polled
    · cases polled
    · cases polled
      exact (List.takeWhile_sublist _).length_le.trans (List.length_take_le _ _)
  · split at polled
    · unfold pollOffsetEvent at polled
      split at polled <;> cases polled
    · cases polled

/-- A word, a field and a value, as they are on a line. -/
def eventLine (word field value : Str) : Str := word ++ 0x20 :: (field ++ 0x20 :: value)

theorem pollEvent_lvar {field value : Str} (printed : Printed (eventLine (text "EVENT_LVAR") field value))
    (short : (eventLine (text "EVENT_LVAR") field value).length ≤ 255) (solid : ∀ c ∈ field, isSpace c = false)
    (solid' : Solid value) (absent : ¬ text "EVENT_LVAR" <:+: value)
    (here : p.incoming = eventLine (text "EVENT_LVAR") field value ++ newline) :
    (pollEvent toInt p).1 = if remove (text "EVENT_LVAR") field = [] then none
      else some (.lvarUpdate (toCharArray 64 (remove (text "EVENT_LVAR") field)) (toInt value)) := by
  have read := readBytesUntil_line printed short
  have some : eventLine (text "EVENT_LVAR") field value ≠ [] := by simp [eventLine]
  have begins : text "EVENT_LVAR" <+: eventLine (text "EVENT_LVAR") field value := List.prefix_append _ _
  have fields : parseTuple2 (trim (remove (text "EVENT_LVAR") (eventLine (text "EVENT_LVAR") field value))) =
      if remove (text "EVENT_LVAR") field = [] then none else .some (remove (text "EVENT_LVAR") field, value) :=
    fields_read (by decide) (by decide) solid solid' absent
  unfold pollEvent
  simp only [here, read, printed_whole printed, some, begins, ne_eq, not_false_eq_true, and_self, ↓reduceIte,
    pollLVarEvent, fields]
  by_cases gone : remove (text "EVENT_LVAR") field = [] <;> simp only [gone, ↓reduceIte]

theorem pollEvent_offset {field value : Str} (printed : Printed (eventLine (text "EVENT_OFFSET") field value))
    (short : (eventLine (text "EVENT_OFFSET") field value).length ≤ 255) (solid : Solid field)
    (solid' : Solid value) (absent : ¬ text "EVENT_OFFSET" <:+: field) (absent' : ¬ text "EVENT_OFFSET" <:+: value)
    (here : p.incoming = eventLine (text "EVENT_OFFSET") field value ++ newline) :
    (pollEvent toInt p).1 = some (.offsetUpdate (hexToLong field) (toInt value)) := by
  have read := readBytesUntil_line printed short
  have some : eventLine (text "EVENT_OFFSET") field value ≠ [] := by simp [eventLine]
  have begins : text "EVENT_OFFSET" <+: eventLine (text "EVENT_OFFSET") field value := List.prefix_append _ _
  have other : ¬ text "EVENT_LVAR" <+: eventLine (text "EVENT_OFFSET") field value := by
    intro begins'
    have shorter := List.prefix_of_prefix_length_le begins' begins (by decide)
    exact absurd shorter (by decide)
  have fields : parseTuple2 (trim (remove (text "EVENT_OFFSET") (eventLine (text "EVENT_OFFSET") field value))) =
      .some (field, value) := by
    have read := fields_read (by decide) (by decide) solid.2 solid' absent'
    rw [remove_absent absent, if_neg solid.1] at read
    exact read
  unfold pollEvent
  simp only [here, read, printed_whole printed, some, begins, other, ne_eq, not_false_eq_true, and_self, and_false,
    ↓reduceIte, pollOffsetEvent, fields]

/-! ## Notifications -/

/-- What the runtimes of Lua and of the device do with numbers. -/
structure Platform where
  /-- `%d` of `string.format` -/
  formatD : Int → Str
  /-- `String::toInt` -/
  toInt : Str → Int32

/-- Both are exact in the range of a `long` of 32 bits. Beyond it nothing is said. -/
structure Platform.Documented (platform : Platform) : Prop where
  formatD : ∀ value : Int32, platform.formatD value.toInt = printDec value.toInt
  toInt : ∀ value : Int32, platform.toInt (printDec value.toInt) = value

/-- A change that the gateway hears of: of an LVAR of 32 bits, or of an offset. -/
inductive Notification where
  | lvar (name : LvarName) (value : Int32)
  | offset (address : UInt16) (value : OffsetValue)

namespace Notification

/-- The key of the observers. -/
def key : Notification → Key
  | .lvar name _ => .string name.name
  | .offset address _ => .number (.int address.toNat)

/-- The callback of the gateway. -/
def notify (platform : Platform) : Notification → EStateM LuaError Gateway Unit
  | .lvar name value => onLVarModified (fun _ => false) platform.formatD name.name value.toInt
  | .offset address value => onOffsetModified (fun _ => false) platform.formatD address value.toInt

/-- The event is of the right type, with the same name or address and the same value. -/
def Denotes : Notification → Event → Prop
  | .lvar name value, event => event = .lvarUpdate name.name value
  | .offset address value, event => ∃ value', event = .offsetUpdate address value' ∧
      match value with
      | .uint32 value => value'.toUInt32 = value
      | value => value'.toInt = value.toInt

/-- Every observer is written a line, and the device reads it as an event that is the
    notification. -/
def RoundTrips (platform : Platform) (n : Notification) : Prop :=
  ∀ g handles, g.lookup n.key = some (.handles handles) → ∃ line,
    n.notify platform g = .ok () { g with calls := g.calls ++ handles.map (Call.comWrite · line) } ∧
      ∀ p : SerialProtocol, p.incoming = line → ∃ event, (pollEvent platform.toInt p).1 = some event ∧ n.Denotes event

/-- The name fits into the event and does not contain the word of the event; the value is
    one of a signed `long`. -/
def Fits : Notification → Prop
  | .lvar name _ => name.name.length ≤ 63 ∧ ¬ text "EVENT_LVAR" <:+: name.name
  | .offset _ value => value.toInt < 2 ^ 31

/-- The line that is written. -/
def line (platform : Platform) : Notification → Str
  | .lvar name value => eventLine (text "EVENT_LVAR") name.name (platform.formatD value.toInt) ++ newline
  | .offset address value =>
    eventLine (text "EVENT_OFFSET") (formatX address.toNat) (platform.formatD value.toInt) ++ newline

end Notification

theorem forM_write (line : Str) (handles : List Nat) (g : Gateway) :
    handles.forM (fun handle => call (fun _ => false) (.comWrite handle line)) g =
      .ok () { g with calls := g.calls ++ handles.map (Call.comWrite · line) } := by
  induction handles generalizing g with
  | nil => simp [pure, EStateM.pure]
  | cons handle handles ih =>
    have first : call (fun _ => false) (.comWrite handle line) g =
        .ok () { g with calls := g.calls ++ [.comWrite handle line] } := rfl
    refine (ok_bind first).trans ((ih _).trans ?_)
    simp

/-- The same line is written to each observer. -/
theorem notify_eq (platform : Platform) (n : Notification) {g : Gateway} {handles : List Nat}
    (observed : g.lookup n.key = some (.handles handles)) : n.notify platform g =
      .ok () { g with calls := g.calls ++ handles.map (Call.comWrite · (n.line platform)) } := by
  have lvarWord : text "EVENT_LVAR " = text "EVENT_LVAR" ++ [0x20] := by decide
  have offsetWord : text "EVENT_OFFSET " = text "EVENT_OFFSET" ++ [0x20] := by decide
  have space : text " " = [0x20] := by decide
  cases n with
  | lvar name value =>
    have here : g.lookup (.string name.name) = some (.handles handles) := observed
    simp only [Notification.notify, onLVarModified, EventObservers.foreach, here, forM_write, lvarWord, space]
    simp [Notification.line, eventLine]
  | offset address value =>
    have here : g.lookup (.number (.int address.toNat)) = some (.handles handles) := observed
    simp only [Notification.notify, onOffsetModified, EventObservers.foreach, here, forM_write, offsetWord, space]
    simp [Notification.line, eventLine]

/-! ## Numerals on a line -/

/-- Bytes that neither end a line or a string nor are trimmed. -/
def Visible (c : UInt8) : Prop := isSpace c = false ∧ c ≠ 0x0a ∧ c ≠ 0
instance : DecidablePred Visible := fun _ => inferInstanceAs (Decidable (_ ∧ _))

theorem letter_lower : ∀ d < 16, isHexDigit (letter 0x61 d) ∧ (digit (letter 0x61 d)).getD 0 = d ∧
    Visible (letter 0x61 d) ∧ letter 0x61 d ≠ 0x2d ∧ letter 0x61 d ≠ 0x2b ∧ letter 0x61 d ≠ 0x78 ∧ letter 0x61 d ≠ 0x58 ∧
      letter 0x61 d ≠ 0x56 := by decide

theorem letter_visible : ∀ d < 10, Visible (letter 0x41 d) ∧ letter 0x41 d ≠ 0x56 := by decide

theorem formatX_letter {n : Nat} {c : UInt8} (among : c ∈ formatX n) : ∃ d < 16, c = letter 0x61 d :=
  mem_numeral (by decide) among

theorem digitsValue_formatX (n : Nat) : digitsValue 16 (formatX n) = n :=
  denoted_numeral (by decide) (fun d below => (letter_lower d below).2.1) n

theorem formatX_visible {n : Nat} {c : UInt8} (among : c ∈ formatX n) : Visible c := by
  obtain ⟨d, below, rfl⟩ := formatX_letter among
  exact (letter_lower d below).2.2.1

theorem printDec_visible {value : Int} {c : UInt8} (among : c ∈ printDec value) : Visible c ∧ c ≠ 0x56 := by
  rw [printDec_eq] at among
  rcases List.mem_append.mp among with sign | digit
  · unfold signOf at sign
    split at sign
    · rw [List.mem_singleton.mp sign]
      decide
    · exact absurd sign List.not_mem_nil
  · obtain ⟨d, below, rfl⟩ := mem_numeral (by decide) digit
    exact letter_visible d below

theorem nameByte_visible {c : UInt8} (plain : isNameByte c) : Visible c := by
  simp only [isNameByte, isAlpha, isDecDigit, decide_eq_true_eq, UInt8.le_iff_toNat_le,
    ← UInt8.toNat_inj] at plain
  simp only [Visible, isSpace, decide_eq_false_iff_not, UInt8.le_iff_toNat_le, ne_eq, ← UInt8.toNat_inj]
  simp only [UInt8.reduceToNat] at plain ⊢
  omega

theorem printDec_ne_nil (value : Int) : printDec value ≠ [] := by
  rw [printDec_eq]
  exact List.append_ne_nil_of_right_ne_nil _ (numeral_ne_nil _)

/-- No word of an event is in a numeral. -/
theorem word_not_within {word s : Str} (has : 0x56 ∈ word) (lacks : ∀ c ∈ s, c ≠ 0x56) : ¬ word <:+: s :=
  fun within => lacks _ (within.subset has) rfl

theorem splitSign_plain {s : Str} (unsigned : ∀ c ∈ s, c ≠ 0x2d ∧ c ≠ 0x2b) : splitSign s = (false, s) := by
  unfold splitSign
  split
  · exact absurd rfl (unsigned _ List.mem_cons_self).1
  · exact absurd rfl (unsigned _ List.mem_cons_self).2
  · rfl

theorem dropWhile_visible {s : Str} (visible : ∀ c ∈ s, Visible c) : s.dropWhile isSpace = s := by
  cases s with
  | nil => rfl
  | cons c s => simp [(visible c List.mem_cons_self).1]

/-- Hexadecimal digits are read in full. -/
theorem strtol16_digits {s : Str} (hex : ∀ c ∈ s, isHexDigit c) (visible : ∀ c ∈ s, Visible c)
    (unsigned : ∀ c ∈ s, c ≠ 0x2d ∧ c ≠ 0x2b) (unmarked : ∀ c ∈ s, c ≠ 0x78 ∧ c ≠ 0x58) : strtol16 s = digitsValue 16 s := by
  have all : s.takeWhile isHexDigit = s := List.takeWhile_eq_self_iff.mpr hex
  unfold strtol16
  rw [dropWhile_visible visible, splitSign_plain unsigned]
  simp only [Bool.false_eq_true, ↓reduceIte]
  split
  · exact absurd rfl (unmarked 0x78 (by simp)).1
  · exact absurd rfl (unmarked 0x58 (by simp)).2
  · rw [all]

theorem toCharArray_visible {size : Nat} {s : Str} (visible : ∀ c ∈ s, Visible c) (short : s.length ≤ size - 1) :
    toCharArray size s = s := by
  unfold toCharArray
  rw [List.take_of_length_le short]
  exact List.takeWhile_eq_self_iff.mpr fun c among => decide_eq_true (visible c among).2.2

/-- An address of 16 bits is read back. -/
theorem hexToLong_formatX (address : UInt16) : hexToLong (formatX address.toNat) = address := by
  have bound := address.toNat_lt
  have short : (formatX address.toNat).length ≤ 7 :=
    (numeral_length_le (k := 3) (by decide) (by omega)).trans (by decide)
  have letters {c : UInt8} (among : c ∈ formatX address.toNat) : isHexDigit c ∧ (c ≠ 0x2d ∧ c ≠ 0x2b) ∧
      c ≠ 0x78 ∧ c ≠ 0x58 := by
    obtain ⟨d, below, rfl⟩ := formatX_letter among
    obtain ⟨hex, -, -, minus, plus, marked, marked', -⟩ := letter_lower d below
    exact ⟨hex, ⟨minus, plus⟩, marked, marked'⟩
  unfold hexToLong
  rw [toCharArray_visible (fun c among => formatX_visible among) short,
    strtol16_digits (fun c among => (letters among).1) (fun c among => formatX_visible among)
      (fun c among => (letters among).2.1) (fun c among => (letters among).2.2), digitsValue_formatX]
  apply UInt16.toNat_inj.mp
  simp only [UInt16.ofInt, UInt16.toNat_ofNat']
  omega

theorem printDec_length (value : Int32) : (printDec value.toInt).length ≤ 11 := by
  have below := value.toInt_lt
  have above := value.le_toInt
  have digits : (numeral 10 (letter 0x41) value.toInt.natAbs).length ≤ 10 :=
    numeral_length_le (k := 9) (by decide) (by omega)
  have sign : (signOf value.toInt).length ≤ 1 := by
    unfold signOf
    split <;> decide
  rw [printDec_eq, List.length_append]
  omega

/-! ## Round trips -/

theorem printDec_solid (value : Int) : Solid (printDec value) :=
  ⟨printDec_ne_nil value, fun _ among => (printDec_visible among).1.1⟩

theorem eventLine_printed {word field value : Str} (visible : ∀ c ∈ word, Visible c) (visible' : ∀ c ∈ field, Visible c)
    (visible'' : ∀ c ∈ value, Visible c) : Printed (eventLine word field value) := by
  intro c among
  unfold eventLine at among
  rcases List.mem_append.mp among with first | rest
  · exact (visible c first).2
  · rcases List.mem_cons.mp rest with rfl | rest
    · decide
    · rcases List.mem_append.mp rest with second | rest
      · exact (visible' c second).2
      · rcases List.mem_cons.mp rest with rfl | third
        · decide
        · exact (visible'' c third).2

theorem lvarWord_visible : ∀ c ∈ text "EVENT_LVAR", Visible c := by decide +kernel
theorem offsetWord_visible : ∀ c ∈ text "EVENT_OFFSET", Visible c := by decide +kernel

variable {platform : Platform}

/-- What the device makes of the line of an LVAR whose name fits. -/
theorem lvar_polled (documented : platform.Documented) (name : LvarName) (value : Int32) (short : name.name.length ≤ 63)
    {p : SerialProtocol} (here : p.incoming = (Notification.lvar name value).line platform) :
    (pollEvent platform.toInt p).1 = if remove (text "EVENT_LVAR") name.name = [] then none
      else some (.lvarUpdate (toCharArray 64 (remove (text "EVENT_LVAR") name.name)) value) := by
  have visible : ∀ c ∈ name.name, Visible c := fun c among => nameByte_visible (name.plain c among)
  have numeral := printDec_length value
  have arrived : p.incoming = eventLine (text "EVENT_LVAR") name.name (printDec value.toInt) ++ newline := by
    rw [here, Notification.line, documented.formatD]
  have fits : (eventLine (text "EVENT_LVAR") name.name (printDec value.toInt)).length ≤ 255 := by
    have word : (text "EVENT_LVAR").length = 10 := by decide
    simp only [eventLine, List.length_append, List.length_cons, word]
    omega
  rw [pollEvent_lvar (eventLine_printed lvarWord_visible visible fun c among => (printDec_visible among).1) fits
    (fun c among => (visible c among).1) (printDec_solid _)
    (word_not_within (by decide) fun c among => (printDec_visible among).2) arrived, documented.toInt]

theorem offset_polled (documented : platform.Documented) (address : UInt16) (value : OffsetValue) (value' : Int32)
    (printed : platform.formatD value.toInt = printDec value'.toInt) {p : SerialProtocol}
    (here : p.incoming = (Notification.offset address value).line platform) :
    (pollEvent platform.toInt p).1 = some (.offsetUpdate address value') := by
  have numeral := printDec_length value'
  have bound := address.toNat_lt
  have field : (formatX address.toNat).length ≤ 4 := numeral_length_le (k := 3) (by decide) (by omega)
  have arrived : p.incoming = eventLine (text "EVENT_OFFSET") (formatX address.toNat) (printDec value'.toInt) ++ newline := by
    rw [here, Notification.line, printed]
  have fits : (eventLine (text "EVENT_OFFSET") (formatX address.toNat) (printDec value'.toInt)).length ≤ 255 := by
    have word : (text "EVENT_OFFSET").length = 12 := by decide
    simp only [eventLine, List.length_append, List.length_cons, word]
    omega
  have absent : ¬ text "EVENT_OFFSET" <:+: formatX address.toNat := by
    refine word_not_within (by decide) fun c among => ?_
    obtain ⟨d, below, rfl⟩ := formatX_letter among
    exact (letter_lower d below).2.2.2.2.2.2.2
  rw [pollEvent_offset
    (eventLine_printed offsetWord_visible (fun c among => formatX_visible among) fun c among => (printDec_visible among).1)
    fits ⟨numeral_ne_nil _, fun c among => (formatX_visible among).1⟩ (printDec_solid _) absent
    (word_not_within (by decide) fun c among => (printDec_visible among).2) arrived, documented.toInt, hexToLong_formatX]

theorem lvar_round_trips (documented : platform.Documented) {name : LvarName} {value : Int32}
    (fits : (Notification.lvar name value).Fits) : (Notification.lvar name value).RoundTrips platform := by
  intro g handles observed
  refine ⟨_, notify_eq platform _ observed, ?_⟩
  intro p here
  obtain ⟨short, absent⟩ := fits
  have visible : ∀ c ∈ name.name, Visible c := fun c among => nameByte_visible (name.plain c among)
  refine ⟨.lvarUpdate name.name value, ?_, rfl⟩
  rw [lvar_polled documented name value short here, remove_absent absent, if_neg name.nonempty,
    toCharArray_visible visible short]

theorem uint32_ofInt (value : UInt32) : (Int32.ofInt value.toNat).toUInt32 = value := by
  apply UInt32.toBitVec_inj.mp
  simp

theorem offset_round_trips (documented : platform.Documented) {address : UInt16} {value : OffsetValue}
    (fits : (Notification.offset address value).Fits) : (Notification.offset address value).RoundTrips platform := by
  intro g handles observed
  refine ⟨_, notify_eq platform _ observed, ?_⟩
  intro p here
  have small : value.toInt < 2 ^ 31 := fits
  have least := value.toInt_range.1
  have exact : (Int32.ofInt value.toInt).toInt = value.toInt := Int32.toInt_ofInt_of_le least small
  have printed : platform.formatD value.toInt = printDec (Int32.ofInt value.toInt).toInt := by
    have inRange := documented.formatD (Int32.ofInt value.toInt)
    rw [exact] at inRange ⊢
    exact inRange
  refine ⟨_, offset_polled documented address value _ printed here, _, rfl, ?_⟩
  cases value with
  | uint32 value => exact uint32_ofInt value
  | _ => exact exact

/-- A runtime that is exact as far as a `long` goes, and prints 0 beyond. -/
def narrow : Platform where
  formatD value := if -2 ^ 31 ≤ value ∧ value < 2 ^ 31 then printDec value else printDec 0
  toInt s :=
    match tonumber s with
    | .int value => Int32.ofInt value
    | .infinity _ => 0

theorem narrow_documented : narrow.Documented where
  formatD := by
    intro value
    exact if_pos ⟨value.le_toInt, value.toInt_lt⟩
  toInt := by
    intro value
    have below := value.toInt_lt
    have above := value.le_toInt
    have small : value.toInt.natAbs < 2 ^ 53 := by omega
    simp only [narrow, printDec_eq, tonumber_printDec small, Int32.ofInt_toInt]

/-- A gateway with one observer. -/
def observing (key : Key) : Gateway := ⟨fun key' => if key' = key then some [0] else none, []⟩

theorem observing_lookup {key : Key} (plain : isMethod key = false) : (observing key).lookup key = some (.handles [0]) := by
  simp [observing, Gateway.lookup, plain]

theorem polled_of_roundTrips {n : Notification} (plain : isMethod n.key = false) (roundTrips : n.RoundTrips platform) :
    ∃ event, (pollEvent platform.toInt ⟨.noEvent, n.line platform⟩).1 = some event ∧ n.Denotes event := by
  obtain ⟨line, executed, read⟩ := roundTrips (observing n.key) [0] (observing_lookup plain)
  have written := notify_eq platform n (observing_lookup plain)
  have calls := congrArg Gateway.calls (EStateM.Result.ok.inj (executed.symm.trans written)).2
  have same : line = n.line platform := by simpa [observing] using calls
  exact read ⟨.noEvent, n.line platform⟩ same.symm

/-- On a narrow platform what arrives as it was sent fits. -/
theorem lvar_fits {name : LvarName} {value : Int32} (roundTrips : (Notification.lvar name value).RoundTrips narrow) :
    (Notification.lvar name value).Fits := by
  by_contra unfit
  have plain : isMethod (Notification.lvar name value).key = false := by
    rw [Bool.eq_false_iff]
    intro method
    apply unfit
    rcases (isMethod_lvar name.name).mp method with same | same <;> rw [Notification.Fits, same] <;> decide
  obtain ⟨event, polled, rfl⟩ := polled_of_roundTrips plain roundTrips
  have short := pollEvent_name polled
  have within : text "EVENT_LVAR" <:+: name.name := by
    by_contra absent
    exact unfit ⟨short, absent⟩
  rw [lvar_polled narrow_documented name value short rfl] at polled
  split at polled
  · cases polled
  · have same := (Event.lvarUpdate.inj (Option.some.inj polled)).1
    have shorter := remove_shorter (by decide) within
    have cut : (toCharArray 64 (remove (text "EVENT_LVAR") name.name)).length ≤
        (remove (text "EVENT_LVAR") name.name).length :=
      (List.takeWhile_sublist _).length_le.trans (List.take_sublist _ _).length_le
    rw [same] at cut
    omega

theorem offset_fits {address : UInt16} {value : OffsetValue}
    (roundTrips : (Notification.offset address value).RoundTrips narrow) : (Notification.offset address value).Fits := by
  by_contra large
  simp only [Notification.Fits] at large
  have plain : isMethod (Notification.offset address value).key = false := isMethod_offset _
  obtain ⟨event, polled, denotes⟩ := polled_of_roundTrips plain roundTrips
  have printed : narrow.formatD value.toInt = printDec (0 : Int32).toInt := if_neg fun both => large both.2
  rw [offset_polled narrow_documented address value 0 printed rfl] at polled
  cases polled
  obtain ⟨value', same, denotes⟩ := denotes
  cases same
  rcases value.toInt_lt_or with small | ⟨v, rfl⟩
  · exact large small
  · simp only at denotes
    rw [← denotes] at large
    exact large (by decide)

theorem fits_of_roundTrips {n : Notification} (roundTrips : n.RoundTrips narrow) : n.Fits := by
  cases n with
  | lvar name value => exact lvar_fits roundTrips
  | offset address value => exact offset_fits roundTrips

theorem roundTrips_of_fits (documented : platform.Documented) {n : Notification} (fits : n.Fits) : n.RoundTrips platform := by
  cases n with
  | lvar name value => exact lvar_round_trips documented fits
  | offset address value => exact offset_round_trips documented fits

/-- A notification arrives on every platform as it was sent exactly if it fits. -/
theorem event_round_trip_iff (n : Notification) :
    (∀ platform : Platform, platform.Documented → n.RoundTrips platform) ↔ n.Fits :=
  ⟨fun roundTrips => fits_of_roundTrips (roundTrips narrow narrow_documented), fun fits _ documented => roundTrips_of_fits documented fits⟩

/-- A name of 64 letters. -/
def longName : LvarName := ⟨List.replicate 64 0x41, by decide, fun c among => by rw [List.eq_of_mem_replicate among]; decide⟩

/-- The last letter of 64 is lost. -/
theorem event_cut : ¬ ∀ (n : Notification) (platform : Platform), platform.Documented → n.RoundTrips platform := by
  intro roundTrips
  have fits := fits_of_roundTrips (roundTrips (.lvar longName 0) narrow narrow_documented)
  exact absurd fits.1 (by decide)

end Oac.Oacsp
