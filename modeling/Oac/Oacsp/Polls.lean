import Oac.Oacsp.Device

/-!
# Polls of the device

The event that `pollEvent` has returned is kept, and a sketch asks for it by its kind and
name until the next poll. A poll that returns nothing forgets it, unless the line that it
has read begins like an event and breaks off (`polls_agree_iff`).
-/
namespace Oac.Oacsp

namespace SerialProtocol
variable (p : SerialProtocol)

def start : SerialProtocol := ⟨.noEvent, []⟩

def event : Option Event := if p.polledEvent ≠ .noEvent then some p.polledEvent else none

/-- The name is a string of C, without a null character. -/
def lvarUpdateEvent (lvar : Str) : Option Event :=
  match p.polledEvent with
  | .lvarUpdate name _ => if name = lvar then some p.polledEvent else none
  | _ => none

def offsetUpdateEvent (address : UInt16) : Option Event :=
  match p.polledEvent with
  | .offsetUpdate address' _ => if address' = address then some p.polledEvent else none
  | _ => none

/-- The sketch is told what the poll has returned. -/
structure Agrees (polled : Option Event) : Prop where
  event : p.event = polled
  lvarUpdateEvent : ∀ name, (p.lvarUpdateEvent name).isSome ↔ ∃ value, polled = some (.lvarUpdate name value)
  offsetUpdateEvent : ∀ address, (p.offsetUpdateEvent address).isSome ↔ ∃ value, polled = some (.offsetUpdate address value)

/-- More has come in. -/
def receive (bytes : Str) : SerialProtocol := { p with incoming := p.incoming ++ bytes }

/-- The line that the next poll reads. -/
def line : Str := (readBytesUntil 0x0a 255 p.incoming).1.takeWhile (· ≠ 0)

end SerialProtocol
open SerialProtocol

/-- The words that a line with an event begins with. -/
def eventWords : List Str := [text "EVENT_LVAR", text "EVENT_OFFSET"]

/-- The line begins like an event, but there is no space in what is left without the word. -/
def BreaksOff (line : Str) : Prop :=
  ∃ word ∈ eventWords, word <+: line ∧ 0x20 ∉ trim (remove word line)
instance (line : Str) : Decidable (BreaksOff line) := inferInstanceAs (Decidable (∃ word ∈ _, _))

/-- Polls, each with what comes in before it. -/
def polls (toInt : Str → Int32) (incoming : List Str) (p : SerialProtocol) : SerialProtocol :=
  incoming.foldl (fun p bytes => (pollEvent toInt (p.receive bytes)).2) p

variable {toInt : Str → Int32} {p : SerialProtocol} {polled : Option Event} {line : Str}

/-- It is enough that the event itself is kept. -/
theorem agrees_iff : p.Agrees polled ↔ p.event = polled := by
  refine ⟨Agrees.event, ?_⟩
  rintro rfl
  refine ⟨rfl, fun name => ?_, fun address => ?_⟩
  · cases kept : p.polledEvent <;> simp [SerialProtocol.event, SerialProtocol.lvarUpdateEvent, kept]
  · cases kept : p.polledEvent <;> simp [SerialProtocol.event, SerialProtocol.offsetUpdateEvent, kept]

theorem parseTuple2_none : parseTuple2 line = none ↔ 0x20 ∉ line := by
  unfold parseTuple2
  split <;> simp_all

/-- A line begins with one of the words at most. -/
theorem word_unique {word other : Str} (among : word ∈ eventWords) (among' : other ∈ eventWords) (begins : word <+: line)
    (begins' : other <+: line) : word = other := by
  have apart : ∀ v ∈ eventWords, ∀ w ∈ eventWords, v <+: w → v = w := by decide +kernel
  rcases List.prefix_or_prefix_of_prefix begins begins' with longer | shorter
  · exact apart word among other among' longer
  · exact (apart other among' word among shorter).symm

theorem breaksOff_iff {word : Str} (among : word ∈ eventWords) (begins : word <+: line) :
    BreaksOff line ↔ 0x20 ∉ trim (remove word line) := by
  constructor
  · rintro ⟨other, among', begins', broken⟩
    rwa [word_unique among among' begins begins']
  · exact fun broken => ⟨word, among, begins, broken⟩

theorem not_breaksOff (other : ¬ text "EVENT_LVAR" <+: line) (other' : ¬ text "EVENT_OFFSET" <+: line) : ¬ BreaksOff line := by
  simp [BreaksOff, eventWords, other, other']

/-- What a poll returns and keeps. -/
inductive Polls (p : SerialProtocol) : Option Event → Event → Prop where
  | event {e : Event} (complete : ¬ BreaksOff p.line) (some : e ≠ .noEvent) : Polls p (.some e) e
  | nothing (other : ¬ BreaksOff p.line) : Polls p none .noEvent
  | brokenOff (breaksOff : BreaksOff p.line) : Polls p none p.polledEvent

/-- What the polls of the two events have in common. -/
def pollTuple (word : Str) (event : Str → Str → Event) (line : Str) (q : SerialProtocol) : Option Event × SerialProtocol :=
  match parseTuple2 (trim (remove word line)) with
  | none => (none, q)
  | some (first, second) => (some (event first second), { q with polledEvent := event first second })

theorem pollLVarEvent_tuple (line : Str) (q : SerialProtocol) : pollLVarEvent toInt line q =
    pollTuple (text "EVENT_LVAR") (fun lvar value => .lvarUpdate (toCharArray 64 lvar) (toInt value)) line q := by
  unfold pollLVarEvent pollTuple
  cases parseTuple2 (trim (remove (text "EVENT_LVAR") line)) <;> rfl

theorem pollOffsetEvent_tuple (line : Str) (q : SerialProtocol) : pollOffsetEvent toInt line q =
    pollTuple (text "EVENT_OFFSET") (fun offset value => .offsetUpdate (hexToLong offset) (toInt value)) line q := by
  unfold pollOffsetEvent pollTuple
  cases parseTuple2 (trim (remove (text "EVENT_OFFSET") line)) <;> rfl

theorem pollTuple_polls {word : Str} {event : Str → Str → Event} {q : SerialProtocol} (among : word ∈ eventWords)
    (begins : word <+: p.line) (some : ∀ first second, event first second ≠ .noEvent) (same : q.polledEvent = p.polledEvent) :
    Polls p (pollTuple word event p.line q).1 (pollTuple word event p.line q).2.polledEvent := by
  unfold pollTuple
  split
  · rename_i broken
    rw [same]
    exact .brokenOff ((breaksOff_iff among begins).mpr (parseTuple2_none.mp broken))
  · rename_i first second fields
    refine .event ?_ (some first second)
    rw [breaksOff_iff among begins, ← parseTuple2_none, fields]
    simp

/-- A line that begins with a word is not empty. -/
theorem read_of_begins {word : Str} (nonempty : word ≠ []) (begins : word <+: p.line) :
    (readBytesUntil 0x0a 255 p.incoming).1 ≠ [] := by
  intro none
  rw [SerialProtocol.line, none] at begins
  exact nonempty (List.prefix_nil.mp begins)

theorem pollEvent_polls (toInt : Str → Int32) (p : SerialProtocol) : Polls p (pollEvent toInt p).1 (pollEvent toInt p).2.polledEvent := by
  by_cases lvar : text "EVENT_LVAR" <+: p.line
  · have read := read_of_begins (by decide) lvar
    have polled : pollEvent toInt p = pollLVarEvent toInt p.line { p with incoming := (readBytesUntil 0x0a 255 p.incoming).2 } :=
      if_pos ⟨read, lvar⟩
    rw [polled, pollLVarEvent_tuple]
    exact pollTuple_polls List.mem_cons_self lvar (fun _ _ => by simp) rfl
  · by_cases offset : text "EVENT_OFFSET" <+: p.line
    · have read := read_of_begins (by decide) offset
      have polled : pollEvent toInt p =
          pollOffsetEvent toInt p.line { p with incoming := (readBytesUntil 0x0a 255 p.incoming).2 } :=
        (if_neg fun both => lvar both.2).trans (if_pos ⟨read, offset⟩)
      rw [polled, pollOffsetEvent_tuple]
      exact pollTuple_polls (List.mem_cons_of_mem _ List.mem_cons_self) offset (fun _ _ => by simp) rfl
    · have polled : pollEvent toInt p =
          (none, { p with incoming := (readBytesUntil 0x0a 255 p.incoming).2, polledEvent := .noEvent }) :=
        (if_neg fun both => lvar both.2).trans (if_neg fun both => offset both.2)
      rw [polled]
      exact .nothing (not_breaksOff lvar offset)

theorem pollEvent_agrees_iff (p : SerialProtocol) :
    (pollEvent toInt p).2.Agrees (pollEvent toInt p).1 ↔ ¬ (BreaksOff p.line ∧ p.polledEvent ≠ .noEvent) := by
  have polls := pollEvent_polls toInt p
  rw [agrees_iff, SerialProtocol.event]
  generalize (pollEvent toInt p).1 = polled at polls
  generalize (pollEvent toInt p).2.polledEvent = kept at polls
  cases polls with
  | event complete some => simp [complete, some]
  | nothing other => simp [other]
  | brokenOff breaksOff => simp [breaksOff]

/-- After every poll of every run the sketch is told what the poll has returned, exactly if
    the line does not break off, or there was no event before. -/
theorem polls_agree_iff (toInt : Str → Int32) (before : List Str) (bytes : Str) :
    (pollEvent toInt ((polls toInt before start).receive bytes)).2.Agrees
        (pollEvent toInt ((polls toInt before start).receive bytes)).1 ↔
      ¬ (BreaksOff ((polls toInt before start).receive bytes).line ∧ (polls toInt before start).polledEvent ≠ .noEvent) :=
  pollEvent_agrees_iff ((polls toInt before start).receive bytes)

/-- An update of an offset, and then a line that breaks off. -/
theorem event_stale : ¬ ∀ (before : List Str) (bytes : Str),
    (pollEvent (fun _ => 0) ((polls (fun _ => 0) before start).receive bytes)).2.Agrees
      (pollEvent (fun _ => 0) ((polls (fun _ => 0) before start).receive bytes)).1 := by
  intro agrees
  have stale := (agrees [text "EVENT_OFFSET 330 1013" ++ newline] (text "EVENT_OFFSET" ++ newline)).event
  exact absurd stale (by decide +kernel)

end Oac.Oacsp
