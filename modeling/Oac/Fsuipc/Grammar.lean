import Mathlib.Data.List.TakeWhile
import Oac.Fsuipc.Offset

/-!
# The names of offsets

A name is an address, or an address and a length. The grammar of the names is that of the
documentation, and the conversion keeps it on the names whose parts begin with neither a
sign nor a blank (`names_iff`): the parsers of numbers skip blanks, and take a number with
a sign for one of the unsigned type.
-/
namespace Oac.Fsuipc

/-! ## The grammar -/

def DecNumeral (str : Str) (n : Nat) : Prop := str ≠ [] ∧ (∀ c ∈ str, isDecDigit c) ∧ digitsValue 10 str = n

def HexDigits (str : Str) (n : Nat) : Prop := str ≠ [] ∧ (∀ c ∈ str, isHexDigit c) ∧ digitsValue 16 str = n

/-- The prefix is optional. -/
inductive HexNumeral : Str → Nat → Prop
  | plain {digits : Str} {n : Nat} : HexDigits digits n → HexNumeral digits n
  | lower {digits : Str} {n : Nat} : HexDigits digits n → HexNumeral (0x30 :: 0x78 :: digits) n
  | upper {digits : Str} {n : Nat} : HexDigits digits n → HexNumeral (0x30 :: 0x58 :: digits) n

inductive AddressName : Str → Nat → Prop
  | decimal {str : Str} {n : Nat} : DecNumeral str n → n ≤ 65535 → AddressName str n
  | hexadecimal {str : Str} {n : Nat} : (∀ m, DecNumeral str m → 65535 < m) → HexNumeral str n → n ≤ 0xffff →
      AddressName str n

inductive LengthName : Str → OffsetLength → Prop
  | decimal {str : Str} {len : OffsetLength} : DecNumeral str len.toNat → LengthName str len
  | hexadecimal {str : Str} {len : OffsetLength} : HexNumeral str len.toNat → LengthName str len
  | byte {str : Str} : toLowerCopy str = text "byte" → LengthName str .byte
  | word {str : Str} : toLowerCopy str = text "word" → LengthName str .word
  | dword {str : Str} : toLowerCopy str = text "dword" → LengthName str .dword

inductive Names : Str → Offset → Prop
  | address {addr : Str} {n : Nat} : AddressName addr n → Names addr ⟨.ofNat n, .byte⟩
  | addressLength {addr length : Str} {n : Nat} {len : OffsetLength} : AddressName addr n → LengthName length len →
      Names (addr ++ 0x3a :: length) ⟨.ofNat n, len⟩

/-! ## Signs and blanks -/

/-- A sign before a magnitude, and the value of both in an unsigned type. -/
inductive Signed (bits : Nat) : Str → Nat → Nat → Prop
  | none {m : Nat} : m < 2 ^ bits → Signed bits [] m m
  | plus {m : Nat} : m < 2 ^ bits → Signed bits [0x2b] m m
  | minus {m : Nat} : m < 2 ^ bits → Signed bits [0x2d] m ((2 ^ bits - m) % 2 ^ bits)

def SignedDec (bits : Nat) (str : Str) (n : Nat) : Prop :=
  ∃ sign digits m, str = sign ++ digits ∧ DecNumeral digits m ∧ Signed bits sign m n

def SignedHex (bits : Nat) (str : Str) (n : Nat) : Prop :=
  ∃ blanks sign numeral m, str = blanks ++ (sign ++ numeral) ∧ (∀ c ∈ blanks, isSpace c) ∧ HexNumeral numeral m ∧
    Signed bits sign m n

/-- The string begins with a sign or a blank. -/
def Dressed (str : Str) : Prop := ∃ c rest, str = c :: rest ∧ (isSpace c ∨ c = 0x2b ∨ c = 0x2d)

/-- An address, also with a sign or after blanks. -/
def LooseAddress (str : Str) : Prop := ∃ n, SignedDec 16 str n ∨ SignedHex 16 str n

def LooseLength (str : Str) (len : OffsetLength) : Prop :=
  SignedDec 32 str len.toNat ∨ SignedHex 32 str len.toNat ∨ LengthName str len

/-- A name but for the signs and blanks that some part begins with. -/
inductive DressedName : Str → Prop
  | address {addr : Str} : LooseAddress addr → Dressed addr → DressedName addr
  | addressLength {addr length : Str} {len : OffsetLength} : LooseAddress addr → LooseLength length len →
      Dressed addr ∨ Dressed length → DressedName (addr ++ 0x3a :: length)

/-! ## The parsers of numbers -/

variable {c : UInt8} {str digits sign blanks : Str} {bits m n : Nat} {negative : Bool}

theorem isHexDigit_of_dec (dec : isDecDigit c) : isHexDigit c := by
  simp only [isDecDigit, decide_eq_true_eq] at dec
  simp [isHexDigit, digit, dec]

theorem isHexDigit_bounds (hex : isHexDigit c) : 0x30 ≤ c.toNat := by
  unfold isHexDigit digit at hex
  simp only [UInt8.le_iff_toNat_le, UInt8.reduceToNat] at hex
  split at hex
  · omega
  · split at hex
    · omega
    · split at hex
      · omega
      · cases hex

/-- No digit is a sign or a blank. -/
theorem isHexDigit_bare (hex : isHexDigit c) : ¬ (isSpace c ∨ c = 0x2b ∨ c = 0x2d) := by
  have bound := isHexDigit_bounds hex
  rintro (space | rfl | rfl)
  · simp only [isSpace, UInt8.le_iff_toNat_le, UInt8.reduceToNat, decide_eq_true_eq] at space
    rcases space with rfl | ⟨-, high⟩
    · exact absurd bound (by decide)
    · omega
  · exact absurd bound (by decide)
  · exact absurd bound (by decide)

theorem DecNumeral.hex (numeral : DecNumeral str n) : HexNumeral str (digitsValue 16 str) :=
  .plain ⟨numeral.1, fun c among => isHexDigit_of_dec (numeral.2.1 c among), rfl⟩

/-- A numeral begins with a digit. -/
theorem HexNumeral.first (numeral : HexNumeral str n) : ∃ c rest, str = c :: rest ∧ isHexDigit c := by
  cases numeral with
  | plain digits =>
    obtain ⟨c, rest, rfl⟩ := List.exists_cons_of_ne_nil digits.1
    exact ⟨c, rest, rfl, digits.2.1 c List.mem_cons_self⟩
  | lower digits => exact ⟨_, _, rfl, by decide⟩
  | upper digits => exact ⟨_, _, rfl, by decide⟩

theorem HexNumeral.bare (numeral : HexNumeral str n) : ¬ Dressed str := by
  obtain ⟨c, rest, rfl, hex⟩ := numeral.first
  rintro ⟨_, _, ⟨rfl, rfl⟩, dressed⟩
  exact isHexDigit_bare hex dressed

theorem signed_iff : Signed bits sign m n ↔
    (sign = [] ∨ sign = [0x2b]) ∧ signedInto bits false m = some n ∨
      sign = [0x2d] ∧ signedInto bits true m = some n := by
  unfold signedInto
  constructor
  · rintro (below | below | below) <;> simp [below]
  · rintro (⟨rfl | rfl, into⟩ | ⟨rfl, into⟩) <;> split at into <;> cases into
    · exact .none ‹_›
    · exact .plus ‹_›
    · exact .minus ‹_›

/-- A sign is split off, where the rest has none. -/
theorem splitSign_signed (bare : ¬ Dressed digits) (signed : Signed bits sign m n) :
    ∃ negative, splitSign (sign ++ digits) = (negative, digits) ∧ signedInto bits negative m = some n := by
  rcases signed_iff.mp signed with ⟨rfl | rfl, into⟩ | ⟨rfl, into⟩
  · refine ⟨false, ?_, into⟩
    rw [List.nil_append]
    unfold splitSign
    split
    · exact absurd ⟨_, _, rfl, .inr (.inr rfl)⟩ bare
    · exact absurd ⟨_, _, rfl, .inr (.inl rfl)⟩ bare
    · rfl
  · exact ⟨false, rfl, into⟩
  · exact ⟨true, rfl, into⟩

theorem signed_splitSign (into : signedInto bits (splitSign str).1 m = some n) :
    ∃ sign, str = sign ++ (splitSign str).2 ∧ Signed bits sign m n := by
  unfold splitSign at into ⊢
  split at into
  · exact ⟨[0x2d], rfl, signed_iff.mpr (.inr ⟨rfl, into⟩)⟩
  · exact ⟨[0x2b], rfl, signed_iff.mpr (.inl ⟨.inr rfl, into⟩)⟩
  · exact ⟨[], rfl, signed_iff.mpr (.inl ⟨.inl rfl, into⟩)⟩

theorem parseDecNumber_iff : parseDecNumber bits str = some n ↔ SignedDec bits str n := by
  constructor
  · intro parsed
    unfold parseDecNumber at parsed
    simp only at parsed
    split at parsed
    · rename_i accepted
      obtain ⟨sign, same, signed⟩ := signed_splitSign parsed
      exact ⟨sign, _, _, same, ⟨accepted.1, List.all_eq_true.mp accepted.2, rfl⟩, signed⟩
    · cases parsed
  · rintro ⟨sign, digits, m, rfl, numeral, signed⟩
    obtain ⟨negative, split, into⟩ := splitSign_signed numeral.hex.bare signed
    unfold parseDecNumber
    simp only [split]
    rw [if_pos ⟨numeral.1, List.all_eq_true.mpr numeral.2.1⟩, numeral.2.2, into]

/-- What is left behind the prefix, where there is one. -/
def withoutPrefix : Str → Str
  | 0x30 :: 0x78 :: rest => rest
  | 0x30 :: 0x58 :: rest => rest
  | rest => rest

theorem withoutPrefix_iff : HexDigits (withoutPrefix str) n ↔ HexNumeral str n := by
  constructor
  · intro digits
    unfold withoutPrefix at digits
    split at digits
    · exact .lower digits
    · exact .upper digits
    · exact .plain digits
  · rintro (digits | digits | digits)
    · have whole : withoutPrefix str = str := by
        unfold withoutPrefix
        split
        · exact absurd (digits.2.1 0x78 (by simp)) (by decide)
        · exact absurd (digits.2.1 0x58 (by simp)) (by decide)
        · rfl
      rw [whole]
      exact digits
    · exact digits
    · exact digits

theorem parseHexNumber_eq : parseHexNumber bits str =
    let (negative, rest) := splitSign (str.dropWhile isSpace)
    if withoutPrefix rest ≠ [] ∧ (withoutPrefix rest).all isHexDigit then
      signedInto bits negative (digitsValue 16 (withoutPrefix rest))
    else none := rfl

theorem parseHexNumber_iff : parseHexNumber bits str = some n ↔ SignedHex bits str n := by
  rw [parseHexNumber_eq]
  constructor
  · intro parsed
    simp only at parsed
    split at parsed
    · rename_i accepted
      obtain ⟨sign, same, signed⟩ := signed_splitSign parsed
      refine ⟨str.takeWhile isSpace, sign, (splitSign (str.dropWhile isSpace)).2, _, ?_, ?_, ?_, signed⟩
      · rw [← same, List.takeWhile_append_dropWhile]
      · exact fun c among => List.mem_takeWhile_imp among
      · exact withoutPrefix_iff.mp ⟨accepted.1, List.all_eq_true.mp accepted.2, rfl⟩
    · cases parsed
  · rintro ⟨blanks, sign, numeral, m, rfl, blank, hex, signed⟩
    have skipped : (blanks ++ (sign ++ numeral)).dropWhile isSpace = sign ++ numeral := by
      rw [List.dropWhile_append_of_pos blank]
      obtain ⟨c, rest, rfl, first⟩ := hex.first
      rcases signed_iff.mp signed with ⟨rfl | rfl, -⟩ | ⟨rfl, -⟩
      · exact List.dropWhile_cons_of_neg fun space => isHexDigit_bare first (.inl space)
      · rfl
      · rfl
    obtain ⟨negative, split, into⟩ := splitSign_signed hex.bare signed
    obtain ⟨nonempty, all, value⟩ := withoutPrefix_iff.mpr hex
    simp only [skipped, split]
    rw [if_pos ⟨nonempty, List.all_eq_true.mpr all⟩, value, into]

/-! ## Strings without signs and blanks -/

theorem SignedDec.bare (bare : ¬ Dressed str) (signed : SignedDec bits str n) : DecNumeral str n ∧ n < 2 ^ bits := by
  obtain ⟨sign, digits, m, rfl, numeral, below | below | below⟩ := signed
  · exact ⟨numeral, below⟩
  · exact absurd ⟨_, _, rfl, .inr (.inl rfl)⟩ bare
  · exact absurd ⟨_, _, rfl, .inr (.inr rfl)⟩ bare

theorem SignedHex.bare (bare : ¬ Dressed str) (signed : SignedHex bits str n) : HexNumeral str n ∧ n < 2 ^ bits := by
  obtain ⟨blanks, sign, numeral, m, rfl, blank, hex, signed⟩ := signed
  cases blanks with
  | nil =>
    rcases signed with below | below | below
    · exact ⟨hex, below⟩
    · exact absurd ⟨_, _, rfl, .inr (.inl rfl)⟩ bare
    · exact absurd ⟨_, _, rfl, .inr (.inr rfl)⟩ bare
  | cons c blanks => exact absurd ⟨_, _, rfl, .inl (blank c List.mem_cons_self)⟩ bare

theorem DecNumeral.signed (numeral : DecNumeral str n) (below : n < 2 ^ bits) : SignedDec bits str n :=
  ⟨[], str, n, rfl, numeral, .none below⟩

theorem HexNumeral.signed (numeral : HexNumeral str n) (below : n < 2 ^ bits) : SignedHex bits str n :=
  ⟨[], [], str, n, rfl, nofun, numeral, .none below⟩

/-- The characters of numbers. -/
def Numeric (c : UInt8) : Prop := isHexDigit c ∨ c = 0x78 ∨ c = 0x58 ∨ isSpace c ∨ c = 0x2b ∨ c = 0x2d

instance : DecidablePred Numeric := fun _ => inferInstanceAs (Decidable (_ ∨ _))

theorem Signed.numeric (signed : Signed bits sign m n) : ∀ c ∈ sign, Numeric c := by
  cases signed with
  | none below => exact fun c none => absurd none List.not_mem_nil
  | plus below => exact fun c among => List.mem_singleton.mp among ▸ .inr (.inr (.inr (.inr (.inl rfl))))
  | minus below => exact fun c among => List.mem_singleton.mp among ▸ .inr (.inr (.inr (.inr (.inr rfl))))

theorem HexDigits.numeric (digits : HexDigits str n) : ∀ c ∈ str, Numeric c := fun c among => .inl (digits.2.1 c among)

theorem HexNumeral.numeric (numeral : HexNumeral str n) : ∀ c ∈ str, Numeric c := by
  rcases numeral with digits | digits | digits
  · exact digits.numeric
  · exact List.forall_mem_cons.mpr ⟨by decide, List.forall_mem_cons.mpr ⟨by decide, digits.numeric⟩⟩
  · exact List.forall_mem_cons.mpr ⟨by decide, List.forall_mem_cons.mpr ⟨by decide, digits.numeric⟩⟩

theorem SignedDec.numeric (signed : SignedDec bits str n) : ∀ c ∈ str, Numeric c := by
  obtain ⟨sign, digits, m, rfl, numeral, signed⟩ := signed
  exact List.forall_mem_append.mpr ⟨signed.numeric, numeral.hex.numeric⟩

theorem SignedHex.numeric (signed : SignedHex bits str n) : ∀ c ∈ str, Numeric c := by
  obtain ⟨blanks, sign, numeral, m, rfl, blank, hex, signed⟩ := signed
  refine List.forall_mem_append.mpr ⟨?_, List.forall_mem_append.mpr ⟨signed.numeric, hex.numeric⟩⟩
  exact fun c among => .inr (.inr (.inr (.inl (blank c among))))

/-- The letters of numbers are at most `f`, but for `x`. -/
theorem Numeric.lowered (numeric : Numeric c) : (toLower c).toNat ≤ 0x66 ∨ toLower c = 0x78 := by
  rcases numeric with hex | rfl | rfl | space | rfl | rfl
  · left
    unfold isHexDigit digit at hex
    unfold toLower
    simp only [UInt8.le_iff_toNat_le, UInt8.reduceToNat] at hex ⊢
    split at hex
    · split
      · omega
      · omega
    · split at hex
      · split
        · omega
        · omega
      · split at hex
        · split
          · simp only [UInt8.toNat_add, UInt8.reduceToNat]
            omega
          · omega
        · cases hex
  · exact .inr (by decide)
  · exact .inr (by decide)
  · left
    simp only [isSpace, UInt8.le_iff_toNat_le, UInt8.reduceToNat, decide_eq_true_eq] at space
    unfold toLower
    simp only [UInt8.le_iff_toNat_le, UInt8.reduceToNat]
    rcases space with rfl | between
    · decide
    · split
      · omega
      · omega
  · exact .inl (by decide)
  · exact .inl (by decide)

/-! ## The parts of a name -/

theorem digitsValue_concat (base : Nat) (str : Str) (c : UInt8) :
    digitsValue base (str ++ [c]) = base * digitsValue base str + (digit c).getD 0 := by
  simp [digitsValue]

theorem digit_dec (dec : isDecDigit c) : (digit c).getD 0 ≤ 9 := by
  simp only [isDecDigit, decide_eq_true_eq] at dec
  simp only [digit, dec, and_self, ↓reduceIte, Option.getD_some]
  simp only [UInt8.le_iff_toNat_le, UInt8.reduceToNat] at dec
  omega

/-- The bases agree on numbers of one digit. -/
theorem digitsValue_small (digits : Str) (small : digitsValue 16 digits < 16) :
    digitsValue 10 digits = digitsValue 16 digits := by
  induction digits using List.reverseRecOn with
  | nil => rfl
  | append_singleton digits c ih =>
    rw [digitsValue_concat] at small ⊢
    rw [digitsValue_concat, ih (by omega)]
    omega

/-- A number of decimal digits ends in none of the digits from A on. -/
theorem digitsValue_dec (digits : Str) (dec : ∀ c ∈ digits, isDecDigit c) : digitsValue 16 digits % 16 ≤ 9 := by
  rcases List.eq_nil_or_concat digits with rfl | ⟨digits, c, rfl⟩
  · decide
  · rw [List.concat_eq_append] at dec ⊢
    have last := digit_dec (dec c (by simp))
    rw [digitsValue_concat]
    omega

theorem OffsetLength.toNat_cases (len : OffsetLength) : len.toNat = 1 ∨ len.toNat = 2 ∨ len.toNat = 4 := by
  cases len <;> decide

/-- Where both parsers read a length, they read the same. -/
theorem signed_agree {len : OffsetLength} (signed : SignedDec 32 str m) (signed' : SignedHex 32 str len.toNat) :
    m = len.toNat := by
  obtain ⟨sign, digits, k, rfl, numeral, signed⟩ := signed
  obtain ⟨blanks, sign', numeral', k', same, blank, hex, signed'⟩ := signed'
  have unspaced : blanks = [] := by
    cases blanks with
    | nil => rfl
    | cons c blanks =>
      exfalso
      have space := blank c List.mem_cons_self
      obtain ⟨d, rest, rfl, first⟩ := numeral.hex.first
      rcases signed with below | below | below
      · obtain ⟨rfl, -⟩ := List.cons.inj same
        exact isHexDigit_bare first (.inl space)
      · obtain ⟨rfl, -⟩ := List.cons.inj same
        exact absurd space (by decide)
      · obtain ⟨rfl, -⟩ := List.cons.inj same
        exact absurd space (by decide)
  subst unspaced
  rw [List.nil_append] at same
  obtain ⟨negative, split, into⟩ := splitSign_signed numeral.hex.bare signed
  obtain ⟨negative', split', into'⟩ := splitSign_signed hex.bare signed'
  rw [same, split'] at split
  cases split
  have value : digitsValue 16 digits = k' := by
    cases hex with
    | plain hex => exact hex.2.2
    | lower hex => exact absurd (numeral.2.1 0x78 (by simp)) (by decide)
    | upper hex => exact absurd (numeral.2.1 0x58 (by simp)) (by decide)
  have cases := OffsetLength.toNat_cases len
  have last := digitsValue_dec digits numeral.2.1
  unfold signedInto at into into'
  rw [value] at last
  split at into'
  · split at into
    · cases negative with
      | false =>
        have same : k' = len.toNat := Option.some.inj into'
        have small := digitsValue_small digits (by omega)
        have same' : k = m := Option.some.inj into
        rw [numeral.2.2, value] at small
        omega
      | true =>
        have same : (2 ^ 32 - k') % 2 ^ 32 = len.toNat := Option.some.inj into'
        omega
    · cases into
  · cases into'

/-- A word is no number. -/
theorem not_numeric_word (word : toLowerCopy str = text "byte" ∨ toLowerCopy str = text "word" ∨
    toLowerCopy str = text "dword") : ¬ ∀ c ∈ str, Numeric c := by
  intro numeric
  have letter : 0x79 ∈ toLowerCopy str ∨ 0x77 ∈ toLowerCopy str := by
    rcases word with word | word | word <;> rw [word] <;> decide
  rcases letter with letter | letter
  · obtain ⟨c, among, lowered⟩ := List.mem_map.mp letter
    have bound := (numeric c among).lowered
    rw [lowered] at bound
    exact absurd bound (by decide)
  · obtain ⟨c, among, lowered⟩ := List.mem_map.mp letter
    have bound := (numeric c among).lowered
    rw [lowered] at bound
    exact absurd bound (by decide)

/-- The address that a part denotes. -/
def readAddress (str : Str) : Option Nat := parseDecNumber 16 str <|> parseHexNumber 16 str

def readLength (str : Str) : Option OffsetLength :=
  (parseDecNumber 32 str <|> parseHexNumber 32 str <|> parseTextualLength str) >>= toOffsetLength

theorem readAddress_iff : (∃ n, readAddress str = some n) ↔ LooseAddress str := by
  unfold readAddress LooseAddress
  simp only [← parseDecNumber_iff, ← parseHexNumber_iff]
  cases parseDecNumber 16 str with
  | some n => simp
  | none => simp

theorem readAddress_name (bare : ¬ Dressed str) : readAddress str = some n ↔ AddressName str n := by
  unfold readAddress
  constructor
  · intro read
    cases parsed : parseDecNumber 16 str with
    | some k =>
      rw [parsed] at read
      cases read
      obtain ⟨numeral, below⟩ := SignedDec.bare bare (parseDecNumber_iff.mp parsed)
      exact .decimal numeral (Nat.le_of_lt_succ below)
    | none =>
      rw [parsed] at read
      obtain ⟨numeral, below⟩ := SignedHex.bare bare (parseHexNumber_iff.mp read)
      refine .hexadecimal ?_ numeral (Nat.le_of_lt_succ below)
      intro m numeral'
      by_contra small
      have signed : SignedDec 16 str m := numeral'.signed (by omega)
      have parsed' := parseDecNumber_iff.mpr signed
      exact absurd (parsed.symm.trans parsed') nofun
  · rintro (⟨numeral, small⟩ | ⟨large, numeral, small⟩)
    · have signed : SignedDec 16 str n := numeral.signed (by omega)
      rw [parseDecNumber_iff.mpr signed]
      rfl
    · cases parsed : parseDecNumber 16 str with
      | some k =>
        obtain ⟨numeral', below⟩ := SignedDec.bare bare (parseDecNumber_iff.mp parsed)
        have := large k numeral'
        omega
      | none => exact parseHexNumber_iff.mpr (numeral.signed (by omega))

theorem toOffsetLength_some {len : OffsetLength} : toOffsetLength n = some len ↔ n = len.toNat := by
  constructor
  · intro converted
    unfold toOffsetLength at converted
    split at converted <;> cases converted <;> rfl
  · rintro rfl
    cases len <;> rfl

theorem parseTextualLength_iff {len : OffsetLength} : parseTextualLength str >>= toOffsetLength = some len ↔
    toLowerCopy str = text "byte" ∧ len = .byte ∨ toLowerCopy str = text "word" ∧ len = .word ∨
      toLowerCopy str = text "dword" ∧ len = .dword := by
  unfold parseTextualLength
  by_cases byte : toLowerCopy str = text "byte"
  · rw [if_pos byte, byte]
    cases len <;> decide
  · rw [if_neg byte]
    by_cases word : toLowerCopy str = text "word"
    · rw [if_pos word, word]
      cases len <;> decide
    · rw [if_neg word]
      by_cases dword : toLowerCopy str = text "dword"
      · rw [if_pos dword, dword]
        cases len <;> decide
      · simp [byte, word, dword]

theorem readLength_iff {len : OffsetLength} : readLength str = some len ↔ LooseLength str len := by
  unfold readLength
  constructor
  · intro read
    cases parsed : parseDecNumber 32 str with
    | some k =>
      rw [parsed] at read
      obtain rfl := toOffsetLength_some.mp read
      exact .inl (parseDecNumber_iff.mp parsed)
    | none =>
      rw [parsed] at read
      cases parsed' : parseHexNumber 32 str with
      | some k =>
        rw [parsed'] at read
        obtain rfl := toOffsetLength_some.mp read
        exact .inr (.inl (parseHexNumber_iff.mp parsed'))
      | none =>
        rw [parsed'] at read
        rcases parseTextualLength_iff.mp read with ⟨word, rfl⟩ | ⟨word, rfl⟩ | ⟨word, rfl⟩
        · exact .inr (.inr (.byte word))
        · exact .inr (.inr (.word word))
        · exact .inr (.inr (.dword word))
  · have ofDec : ∀ {k}, SignedDec 32 str k → k = len.toNat →
        (parseDecNumber 32 str <|> parseHexNumber 32 str <|> parseTextualLength str) >>= toOffsetLength = some len := by
      rintro k signed rfl
      rw [parseDecNumber_iff.mpr signed]
      exact toOffsetLength_some.mpr rfl
    have ofHex : SignedHex 32 str len.toNat →
        (parseDecNumber 32 str <|> parseHexNumber 32 str <|> parseTextualLength str) >>= toOffsetLength = some len := by
      intro signed
      cases parsed : parseDecNumber 32 str with
      | some k =>
        rw [← parsed]
        exact ofDec (parseDecNumber_iff.mp parsed) (signed_agree (parseDecNumber_iff.mp parsed) signed)
      | none =>
        rw [parseHexNumber_iff.mpr signed]
        exact toOffsetLength_some.mpr rfl
    have ofWord : toLowerCopy str = text "byte" ∧ len = .byte ∨ toLowerCopy str = text "word" ∧ len = .word ∨
        toLowerCopy str = text "dword" ∧ len = .dword →
        (parseDecNumber 32 str <|> parseHexNumber 32 str <|> parseTextualLength str) >>= toOffsetLength = some len := by
      intro word
      have letters := not_numeric_word (word.imp And.left (Or.imp And.left And.left))
      have noDec : parseDecNumber 32 str = none := by
        by_contra some
        obtain ⟨k, parsed⟩ := Option.ne_none_iff_exists'.mp some
        exact letters (parseDecNumber_iff.mp parsed).numeric
      have noHex : parseHexNumber 32 str = none := by
        by_contra some
        obtain ⟨k, parsed⟩ := Option.ne_none_iff_exists'.mp some
        exact letters (parseHexNumber_iff.mp parsed).numeric
      rw [noDec, noHex]
      exact parseTextualLength_iff.mpr word
    have bound := OffsetLength.toNat_cases len
    rintro (signed | signed | name)
    · exact ofDec signed rfl
    · exact ofHex signed
    · cases name with
      | decimal numeral => exact ofDec (numeral.signed (by omega)) rfl
      | hexadecimal numeral => exact ofHex (numeral.signed (by omega))
      | byte word => exact ofWord (.inl ⟨word, rfl⟩)
      | word word => exact ofWord (.inr (.inl ⟨word, rfl⟩))
      | dword word => exact ofWord (.inr (.inr ⟨word, rfl⟩))

theorem readLength_name {len : OffsetLength} (bare : ¬ Dressed str) : readLength str = some len ↔ LengthName str len := by
  rw [readLength_iff]
  constructor
  · rintro (signed | signed | name)
    · exact .decimal (signed.bare bare).1
    · exact .hexadecimal (signed.bare bare).1
    · exact name
  · exact fun name => .inr (.inr name)

theorem AddressName.bare (name : AddressName str n) : ¬ Dressed str := by
  rcases name with ⟨numeral, -⟩ | ⟨-, numeral, -⟩
  · exact numeral.hex.bare
  · exact numeral.bare

/-- Neither signs nor blanks are letters. -/
theorem Dressed.lowered (dressed : Dressed str) : ∃ c rest, toLowerCopy str = c :: rest ∧ c.toNat < 0x41 := by
  obtain ⟨c, rest, rfl, dress⟩ := dressed
  refine ⟨toLower c, toLowerCopy rest, rfl, ?_⟩
  rcases dress with space | rfl | rfl
  · simp only [isSpace, UInt8.le_iff_toNat_le, UInt8.reduceToNat, decide_eq_true_eq] at space
    unfold toLower
    simp only [UInt8.le_iff_toNat_le, UInt8.reduceToNat]
    rcases space with rfl | between
    · decide
    · split
      · omega
      · omega
  · decide
  · decide

theorem LengthName.bare {len : OffsetLength} (name : LengthName str len) : ¬ Dressed str := by
  have words : ∀ {c rest}, toLowerCopy str = c :: rest → 0x41 ≤ c.toNat → ¬ Dressed str := by
    intro c rest word letter dressed
    obtain ⟨d, rest', word', low⟩ := dressed.lowered
    obtain ⟨rfl, -⟩ := List.cons.inj (word.symm.trans word')
    omega
  cases name with
  | decimal numeral => exact numeral.hex.bare
  | hexadecimal numeral => exact numeral.bare
  | byte word => exact words word (by decide)
  | word word => exact words word (by decide)
  | dword word => exact words word (by decide)

/-- No part has a colon. -/
theorem LooseAddress.plain (loose : LooseAddress str) : 0x3a ∉ str := by
  intro colon
  obtain ⟨n, signed | signed⟩ := loose
  · exact absurd (signed.numeric _ colon) (by decide)
  · exact absurd (signed.numeric _ colon) (by decide)

theorem LooseLength.plain {len : OffsetLength} (loose : LooseLength str len) : 0x3a ∉ str := by
  intro colon
  have words : ∀ {word}, toLowerCopy str = word → 0x3a ∈ word := by
    rintro _ rfl
    exact List.mem_map.mpr ⟨0x3a, colon, by decide⟩
  rcases loose with signed | signed | name
  · exact absurd (signed.numeric _ colon) (by decide)
  · exact absurd (signed.numeric _ colon) (by decide)
  · cases name with
    | decimal numeral => exact absurd (numeral.hex.numeric _ colon) (by decide)
    | hexadecimal numeral => exact absurd (numeral.numeric _ colon) (by decide)
    | byte word => exact absurd (words word) (by decide)
    | word word => exact absurd (words word) (by decide)
    | dword word => exact absurd (words word) (by decide)

theorem AddressName.loose (name : AddressName str n) : LooseAddress str :=
  readAddress_iff.mp ⟨n, (readAddress_name name.bare).mpr name⟩

/-! ## The conversion -/

variable {var : VariableId} {addr length : Str} {offset : Offset} {len : OffsetLength}

theorem toFsuipcOffset_address (tagged : var.group = varGroupTag) (split : var.name.splitOn 0x3a = [addr]) :
    toFsuipcOffset var = match readAddress addr with
      | some n => .ok ⟨.ofNat n, .byte⟩
      | none => .error (.varNameSyntax var.name) := by
  have default : (parseDecNumber 32 (text "1") <|> parseHexNumber 32 (text "1") <|> parseTextualLength (text "1")) >>=
      toOffsetLength = some .byte := by decide
  have parsed : (parseDecNumber 16 addr <|> parseHexNumber 16 addr) = readAddress addr := rfl
  unfold toFsuipcOffset
  rw [if_neg (not_not.mpr tagged), split]
  simp only [List.length_singleton, ↓reduceIte, List.singleton_append, parsed, default]
  cases readAddress addr <;> rfl

theorem toFsuipcOffset_addressLength (tagged : var.group = varGroupTag)
    (split : var.name.splitOn 0x3a = [addr, length]) :
    toFsuipcOffset var = match readAddress addr, readLength length with
      | some n, some len => .ok ⟨.ofNat n, len⟩
      | _, _ => .error (.varNameSyntax var.name) := by
  have parsed : (parseDecNumber 16 addr <|> parseHexNumber 16 addr) = readAddress addr := rfl
  have parsed' : (parseDecNumber 32 length <|> parseHexNumber 32 length <|> parseTextualLength length) >>= toOffsetLength =
      readLength length := rfl
  unfold toFsuipcOffset
  rw [if_neg (not_not.mpr tagged), split]
  simp only [List.length_cons, List.length_nil, Nat.reduceAdd, OfNat.ofNat_ne_one, ↓reduceIte, parsed, parsed']
  cases readAddress addr with
  | none => rfl
  | some n => cases readLength length <;> rfl

theorem splitOn_address (plain : 0x3a ∉ addr) : addr.splitOn 0x3a = [addr] := List.splitOn_eq_singleton plain

theorem splitOn_addressLength (plain : 0x3a ∉ addr) (plain' : 0x3a ∉ length) :
    (addr ++ 0x3a :: length).splitOn 0x3a = [addr, length] := by
  rw [List.splitOn_append_cons_self_of_not_mem plain, splitOn_address plain']

/-- What is converted is a name, but for signs and blanks. -/
theorem converted_name (converted : toFsuipcOffset var = .ok offset) :
    var.group = varGroupTag ∧ (Names var.name offset ∨ DressedName var.name) := by
  by_cases tagged : var.group = varGroupTag
  · refine ⟨tagged, ?_⟩
    have joined : [0x3a].intercalate (var.name.splitOn 0x3a) = var.name := List.intercalate_splitOn _
    cases split : var.name.splitOn 0x3a with
    | nil =>
      unfold toFsuipcOffset at converted
      rw [if_neg (not_not.mpr tagged), split] at converted
      cases converted
    | cons addr parts =>
      cases parts with
      | nil =>
        rw [toFsuipcOffset_address tagged split] at converted
        split at converted
        · rename_i n read
          cases converted
          have same : addr = var.name := by simpa [split] using joined
          rw [← same]
          by_cases dressed : Dressed addr
          · exact .inr (.address (readAddress_iff.mp ⟨n, read⟩) dressed)
          · exact .inl (.address ((readAddress_name dressed).mp read))
        · cases converted
      | cons length parts =>
        cases parts with
        | nil =>
          rw [toFsuipcOffset_addressLength tagged split] at converted
          split at converted
          · rename_i n len read read'
            cases converted
            have same : addr ++ 0x3a :: length = var.name := by simpa [split] using joined
            rw [← same]
            by_cases dressed : Dressed addr ∨ Dressed length
            · exact .inr (.addressLength (readAddress_iff.mp ⟨n, read⟩) (readLength_iff.mp read') dressed)
            · obtain ⟨bare, bare'⟩ := not_or.mp dressed
              exact .inl (.addressLength ((readAddress_name bare).mp read) ((readLength_name bare').mp read'))
          · cases converted
        | cons more parts =>
          unfold toFsuipcOffset at converted
          rw [if_neg (not_not.mpr tagged), split] at converted
          cases converted
  · unfold toFsuipcOffset at converted
    rw [if_pos tagged] at converted
    cases converted

theorem Names.converted (tagged : var.group = varGroupTag) (names : Names var.name offset) :
    toFsuipcOffset var = .ok offset := by
  generalize named : var.name = name at names
  cases names with
  | address name =>
    have split := splitOn_address name.loose.plain
    rw [← named] at split
    rw [toFsuipcOffset_address tagged split, named, (readAddress_name name.bare).mpr name]
  | @addressLength addr length n len name name' =>
    have split := splitOn_addressLength name.loose.plain (LooseLength.plain (.inr (.inr name')))
    rw [← named] at split
    rw [toFsuipcOffset_addressLength tagged split, (readAddress_name name.bare).mpr name,
      (readLength_name name'.bare).mpr name']

theorem DressedName.converted (tagged : var.group = varGroupTag) (dressed : DressedName var.name) :
    ∃ offset, toFsuipcOffset var = .ok offset := by
  generalize named : var.name = name at dressed
  cases dressed with
  | address loose dress =>
    have split := splitOn_address loose.plain
    obtain ⟨n, read⟩ := readAddress_iff.mpr loose
    rw [← named] at split
    rw [toFsuipcOffset_address tagged split, named, read]
    exact ⟨_, rfl⟩
  | @addressLength addr length len loose loose' dress =>
    have split := splitOn_addressLength loose.plain loose'.plain
    obtain ⟨n, read⟩ := readAddress_iff.mpr loose
    rw [← named] at split
    rw [toFsuipcOffset_addressLength tagged split, read, readLength_iff.mpr loose']
    exact ⟨_, rfl⟩

/-- A name has no part with a sign or blank before it. -/
theorem DressedName.not_names (dressed : DressedName str) : ¬ Names str offset := by
  intro names
  generalize named : str = name at names
  cases dressed with
  | address loose dress =>
    cases names with
    | address name => exact name.bare (named ▸ dress)
    | addressLength name name' =>
      subst named
      exact loose.plain (by simp)
  | addressLength loose loose' dress =>
    cases names with
    | address name =>
      subst named
      exact name.loose.plain (by simp)
    | addressLength name name' =>
      have split := splitOn_addressLength loose.plain loose'.plain
      rw [named, splitOn_addressLength name.loose.plain (LooseLength.plain (.inr (.inr name')))] at split
      cases split
      rcases dress with dress | dress
      · exact name.bare dress
      · exact name'.bare dress

/-- The conversion accepts the names of the grammar and refuses all others. -/
structure ByGrammar (var : VariableId) : Prop where
  named : ∀ offset, var.group = varGroupTag → Names var.name offset → toFsuipcOffset var = .ok offset
  unnamed : var.group = varGroupTag → (∀ offset, ¬ Names var.name offset) →
    toFsuipcOffset var = .error (.varNameSyntax var.name)
  ungrouped : var.group ≠ varGroupTag → toFsuipcOffset var = .error (.invalidVarGroup varGroupTag var.group)

theorem toFsuipcOffset_error {e : Exception} (tagged : var.group = varGroupTag) (refused : toFsuipcOffset var = .error e) :
    e = .varNameSyntax var.name := by
  unfold toFsuipcOffset at refused
  rw [if_neg (not_not.mpr tagged)] at refused
  simp only at refused
  split at refused
  · split at refused
    · cases refused
      rfl
    · split at refused
      · cases refused
        rfl
      · cases refused
  · cases refused
    rfl

theorem DressedName.not_grammar (tagged : var.group = varGroupTag) (dressed : DressedName var.name) : ¬ ByGrammar var := by
  intro grammar
  obtain ⟨offset, converted⟩ := dressed.converted tagged
  have refused := grammar.unnamed tagged fun _ => dressed.not_names
  exact absurd (converted.symm.trans refused) nofun

/-- The grammar is kept exactly on the names without a sign or blank before a part that
    would be read without it. -/
theorem names_iff (var : VariableId) : ByGrammar var ↔ ¬ (var.group = varGroupTag ∧ DressedName var.name) := by
  constructor
  · rintro grammar ⟨tagged, dressed⟩
    exact dressed.not_grammar tagged grammar
  · intro undressed
    refine ⟨fun offset tagged names => names.converted tagged, ?_, ?_⟩
    · intro tagged unnamed
      cases result : toFsuipcOffset var with
      | ok offset =>
        obtain ⟨-, names | dressed⟩ := converted_name result
        · exact absurd names (unnamed offset)
        · exact absurd ⟨tagged, dressed⟩ undressed
      | error e => rw [toFsuipcOffset_error tagged result]
    · intro other
      unfold toFsuipcOffset
      rw [if_pos other]

/-- The address is 65535, and the length 1. -/
theorem minus_read :
    toFsuipcOffset (variableId (text "fsuipc/offset") (text "-1")) = .ok ⟨65535, .byte⟩ ∧
      ¬ ByGrammar (variableId (text "fsuipc/offset") (text "-1")) ∧
      toFsuipcOffset (variableId (text "fsuipc/offset") (text "0x200:-4294967295")) = .ok ⟨0x200, .byte⟩ ∧
      ¬ ByGrammar (variableId (text "fsuipc/offset") (text "0x200:-4294967295")) := by
  refine ⟨by decide, ?_, by decide, ?_⟩
  · exact DressedName.not_grammar (by decide)
      (.address (readAddress_iff.mp ⟨65535, by decide⟩) ⟨0x2d, text "1", by decide, by decide⟩)
  · have name : (variableId (text "fsuipc/offset") (text "0x200:-4294967295")).name =
        text "0x200" ++ 0x3a :: text "-4294967295" := by decide
    apply DressedName.not_grammar (by decide)
    rw [name]
    exact .addressLength (readAddress_iff.mp ⟨0x200, by decide⟩) (readLength_iff.mp (by decide : _ = some OffsetLength.byte))
      (.inr ⟨0x2d, text "4294967295", by decide, by decide⟩)

end Oac.Fsuipc
