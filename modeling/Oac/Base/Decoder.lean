import Mathlib.Data.List.Infix
import Oac.Base.Program

/-!
# Decoders that pull counted blocks of tokens

A decoder asks its input for a number of tokens at a time and goes on with what it
was given. `decode` runs one on a finite word and tells what came out, a value, an
error or a starved read, and which tokens are left. The laws hold for every decoder:
a verdict survives more input (`decode_append`), a strict prefix of an accepted word
starves (`starved_of_prefix`), and words read one after another compose
(`reads_bind`). `run` drives a decoder from any stateful source; a source that
delivers a word block by block gives the verdict of `decode` (`run_follows`).
-/
namespace Oac.Base
universe u

/-- A program that reads a counted block of tokens at a time. -/
inductive Decoder (τ ε α : Type u) where
  | done (value : α)
  | fail (error : ε)
  | read (count : Nat) (next : List τ → Decoder τ ε α)

/-- What a decoder makes of a finite word. -/
inductive Outcome (ε α : Type u) where
  | value (value : α)
  | error (error : ε)
  | starved
  deriving DecidableEq

/-- The result of a decoder driven from a source left in the given state. -/
def Outcome.result {ε α σ : Type u} (starve : ε) (s : σ) : Outcome ε α → EStateM.Result ε σ α
  | .value a => .ok a s
  | .error e => .error e s
  | .starved => .error starve s

namespace Decoder
variable {τ ε α β σ : Type u}

/-- Continue with `f` on the value of a decoder. -/
def bind : Decoder τ ε α → (α → Decoder τ ε β) → Decoder τ ε β
  | done a, f => f a
  | fail e, _ => fail e
  | read n next, f => read n fun block => (next block).bind f

instance : Monad (Decoder τ ε) where
  pure := done
  bind := bind

@[simp] theorem pure_eq (a : α) : (pure a : Decoder τ ε α) = done a := rfl
@[simp] theorem bind_eq (p : Decoder τ ε α) (f : α → Decoder τ ε β) : p >>= f = p.bind f := rfl
@[simp] theorem done_bind (a : α) (f : α → Decoder τ ε β) : (done a : Decoder τ ε α).bind f = f a := rfl
@[simp] theorem fail_bind (e : ε) (f : α → Decoder τ ε β) : (fail e : Decoder τ ε α).bind f = fail e := rfl
@[simp] theorem read_bind (n : Nat) (next : List τ → Decoder τ ε α) (f : α → Decoder τ ε β) :
    (read n next).bind f = read n fun block => (next block).bind f := rfl

/-! ## Words -/

/-- The verdict of a decoder on a word, and the tokens it leaves. A read that finds
    too few tokens has used them all up. -/
def decode : Decoder τ ε α → List τ → Outcome ε α × List τ
  | done a, ts => (.value a, ts)
  | fail e, ts => (.error e, ts)
  | read n next, ts => if ts.length < n then (.starved, []) else (next (ts.take n)).decode (ts.drop n)

@[simp] theorem decode_done (a : α) (ts : List τ) : (done a : Decoder τ ε α).decode ts = (.value a, ts) := rfl
@[simp] theorem decode_fail (e : ε) (ts : List τ) : (fail e : Decoder τ ε α).decode ts = (.error e, ts) := rfl

theorem decode_read_short {n : Nat} {next : List τ → Decoder τ ε α} {ts : List τ} (short : ts.length < n) :
    (read n next).decode ts = (.starved, []) := by
  simp [decode, short]

theorem decode_read_enough {n : Nat} {next : List τ → Decoder τ ε α} {ts : List τ} (enough : n ≤ ts.length) :
    (read n next).decode ts = (next (ts.take n)).decode (ts.drop n) := by
  have notShort : ¬ ts.length < n := by omega
  simp [decode, notShort]

/-- A block at the head of the word is what the read returns. -/
theorem decode_read_append {next : List τ → Decoder τ ε α} (block ts : List τ) :
    (read block.length next).decode (block ++ ts) = (next block).decode ts := by
  rw [decode_read_enough (by simp)]
  simp

theorem decode_suffix (p : Decoder τ ε α) (ts : List τ) : (p.decode ts).2 <:+ ts := by
  induction p generalizing ts with
  | done a => exact List.suffix_refl ts
  | fail e => exact List.suffix_refl ts
  | read n next ih =>
    by_cases short : ts.length < n
    · rw [decode_read_short short]
      exact List.nil_suffix
    · rw [decode_read_enough (by omega)]
      exact (ih (ts.take n) (ts.drop n)).trans (List.drop_suffix n ts)

/-- A decoder that begins with a read uses tokens up. -/
theorem decode_shorter {n : Nat} {next : List τ → Decoder τ ε α} {ts : List τ} (positive : 0 < n)
    (fed : ((read n next).decode ts).1 ≠ .starved) : ((read n next).decode ts).2.length < ts.length := by
  by_cases short : ts.length < n
  · rw [decode_read_short short] at fed
    exact absurd rfl fed
  · rw [decode_read_enough (by omega)]
    have left := (decode_suffix (next (ts.take n)) (ts.drop n)).length_le
    rw [List.length_drop] at left
    omega

theorem decode_starved (p : Decoder τ ε α) (ts : List τ) (starved : (p.decode ts).1 = .starved) :
    (p.decode ts).2 = [] := by
  induction p generalizing ts with
  | done a => simp at starved
  | fail e => simp at starved
  | read n next ih =>
    by_cases short : ts.length < n
    · rw [decode_read_short short]
    · rw [decode_read_enough (by omega)] at starved ⊢
      exact ih (ts.take n) (ts.drop n) starved

/-- A verdict that is not starvation stays when more tokens follow, and the further
    tokens are left alone. -/
theorem decode_append (p : Decoder τ ε α) (ts more : List τ) (fed : (p.decode ts).1 ≠ .starved) :
    p.decode (ts ++ more) = ((p.decode ts).1, (p.decode ts).2 ++ more) := by
  induction p generalizing ts with
  | done a => rfl
  | fail e => rfl
  | read n next ih =>
    by_cases short : ts.length < n
    · simp [decode_read_short short] at fed
    · have enough : n ≤ ts.length := by omega
      rw [decode_read_enough enough] at fed ⊢
      rw [decode_read_enough (by simp; omega), List.take_append_of_le_length enough,
        List.drop_append_of_le_length enough]
      exact ih (ts.take n) (ts.drop n) fed

theorem decode_bind (p : Decoder τ ε α) (f : α → Decoder τ ε β) (ts : List τ) :
    (p.bind f).decode ts =
      match p.decode ts with
      | (.value a, rest) => (f a).decode rest
      | (.error e, rest) => (.error e, rest)
      | (.starved, rest) => (.starved, rest) := by
  induction p generalizing ts with
  | done a => rfl
  | fail e => rfl
  | read n next ih =>
    by_cases short : ts.length < n
    · rw [read_bind, decode_read_short short, decode_read_short short]
    · rw [read_bind, decode_read_enough (by omega), decode_read_enough (by omega)]
      exact ih (ts.take n) (ts.drop n)

theorem decode_bind_value {p : Decoder τ ε α} {f : α → Decoder τ ε β} {ts rest : List τ} {b : β}
    (read : (p.bind f).decode ts = (.value b, rest)) :
    ∃ a between, p.decode ts = (.value a, between) ∧ (f a).decode between = (.value b, rest) := by
  rw [decode_bind] at read
  rcases head : p.decode ts with ⟨outcome, between⟩
  rw [head] at read
  cases outcome with
  | value a => exact ⟨a, between, rfl, read⟩
  | error e => cases read
  | starved => cases read

theorem decode_bind_error {p : Decoder τ ε α} {f : α → Decoder τ ε β} {ts rest : List τ} {e : ε}
    (raised : (p.bind f).decode ts = (.error e, rest)) :
    p.decode ts = (.error e, rest) ∨
      ∃ a between, p.decode ts = (.value a, between) ∧ (f a).decode between = (.error e, rest) := by
  rw [decode_bind] at raised
  rcases head : p.decode ts with ⟨outcome, between⟩
  rw [head] at raised
  cases outcome with
  | value a => exact .inr ⟨a, between, rfl, raised⟩
  | error e' =>
    cases raised
    exact .inl rfl
  | starved => cases raised

/-- The decoder raises no error of its own. -/
def Unfailing : Decoder τ ε α → Prop
  | done _ => True
  | fail _ => False
  | read _ next => ∀ block, (next block).Unfailing

theorem Unfailing.decode {p : Decoder τ ε α} (unfailing : p.Unfailing) (ts rest : List τ) (e : ε) :
    p.decode ts ≠ (.error e, rest) := by
  induction p generalizing ts with
  | done a => simp
  | fail e' => exact absurd unfailing id
  | read n next ih =>
    by_cases short : ts.length < n
    · simp [decode_read_short short]
    · rw [decode_read_enough (by omega)]
      exact ih _ (unfailing _) _

/-! ## Accepted words -/

/-- The decoder turns exactly this word into the value. -/
def Accepts (p : Decoder τ ε α) (ts : List τ) (a : α) : Prop := p.decode ts = (.value a, [])

/-- The decoder reads the value off the head of every input that begins with the word. -/
def Reads (p : Decoder τ ε α) (ts : List τ) (a : α) : Prop := ∀ more, p.decode (ts ++ more) = (.value a, more)

theorem accepts_iff_reads {p : Decoder τ ε α} {ts : List τ} {a : α} : p.Accepts ts a ↔ p.Reads ts a := by
  constructor
  · intro accepted more
    have verdict : p.decode ts = (.value a, []) := accepted
    rw [decode_append p ts more (by rw [verdict]; simp), verdict]
    rfl
  · intro reads
    exact (congrArg p.decode (List.append_nil ts)).symm.trans (reads [])

theorem reads_done (a : α) : (done a : Decoder τ ε α).Reads [] a := fun _ => rfl

theorem reads_bind {p : Decoder τ ε α} {f : α → Decoder τ ε β} {first second : List τ} {a : α} {b : β}
    (head : p.Reads first a) (tail : (f a).Reads second b) : (p.bind f).Reads (first ++ second) b := by
  intro more
  rw [List.append_assoc, decode_bind, head]
  exact tail more

theorem reads_map {p : Decoder τ ε α} {g : α → β} {ts : List τ} {a : α} (head : p.Reads ts a) :
    (p.bind fun a => done (g a)).Reads ts (g a) := by
  intro more
  rw [decode_bind, head]
  rfl

/-- A word and a strict prefix of it are never both decided: the prefix starves. -/
theorem starved_of_prefix {p : Decoder τ ε α} {ts more : List τ} {a : α} (accepted : p.Accepts (ts ++ more) a)
    (strict : more ≠ []) : (p.decode ts).1 = .starved := by
  by_contra fed
  have verdict : p.decode (ts ++ more) = (.value a, []) := accepted
  rw [decode_append p ts more fed, Prod.mk.injEq] at verdict
  exact strict (List.append_eq_nil_iff.mp verdict.2).2

/-! ## Starved reads -/

/-- The blocks a decoder has read completely from a word: the word without the
    tokens of the read that starves. -/
def completed : Decoder τ ε α → List τ → List τ
  | done _, _ => []
  | fail _, _ => []
  | read n next, ts => if ts.length < n then [] else ts.take n ++ (next (ts.take n)).completed (ts.drop n)

/-- The size of the block whose read starves. -/
def awaited : Decoder τ ε α → List τ → Nat
  | done _, _ => 0
  | fail _, _ => 0
  | read n next, ts => if ts.length < n then n else (next (ts.take n)).awaited (ts.drop n)

/-- A starved decoder has stopped in a block that the word only begins. -/
theorem completed_starved {p : Decoder τ ε α} {ts : List τ} (starved : (p.decode ts).1 = .starved) :
    ∃ block, ts = p.completed ts ++ block ∧ block.length < p.awaited ts := by
  induction p generalizing ts with
  | done a => simp at starved
  | fail e => simp at starved
  | read n next ih =>
    by_cases short : ts.length < n
    · exact ⟨ts, by simp [completed, short], by simp [awaited, short]⟩
    · rw [decode_read_enough (by omega)] at starved
      obtain ⟨block, split, bound⟩ := ih (ts.take n) starved
      refine ⟨block, ?_, by simpa only [awaited, short, ↓reduceIte] using bound⟩
      simp only [completed, short, ↓reduceIte, List.append_assoc, ← split, List.take_append_drop]

/-- Some word is accepted. -/
def Live (p : Decoder τ ε α) : Prop := ∃ ts a, p.Accepts ts a

/-- Wherever the decoder still waits for a block, some continuation is accepted. -/
def Hopeful : Decoder τ ε α → Prop
  | done _ => True
  | fail _ => True
  | read n next => (read n next).Live ∧ ∀ block, block.length = n → (next block).Hopeful

theorem live_bind {p : Decoder τ ε α} {f : α → Decoder τ ε β} {ts : List τ} {a : α} (accepted : p.Accepts ts a)
    (live : (f a).Live) : (p.bind f).Live := by
  obtain ⟨more, b, rest⟩ := live
  exact ⟨ts ++ more, b, accepts_iff_reads.mpr
    (reads_bind (accepts_iff_reads.mp accepted) (accepts_iff_reads.mp rest))⟩

theorem hopeful_bind {p : Decoder τ ε α} {f : α → Decoder τ ε β} (hopeful : p.Hopeful)
    (hopefulNext : ∀ a, (f a).Hopeful) (live : ∀ a, (f a).Live) : (p.bind f).Hopeful := by
  induction p with
  | done a => exact hopefulNext a
  | fail e => trivial
  | read n next ih =>
    obtain ⟨⟨ts, a, accepted⟩, tail⟩ := hopeful
    exact ⟨live_bind accepted (live a), fun block size => ih block (tail block size)⟩

theorem live_of_reads {p : Decoder τ ε α} {ts : List τ} {a : α} (reads : p.Reads ts a) : p.Live :=
  ⟨ts, a, accepts_iff_reads.mpr reads⟩

/-- Hopeful, and not a mere failure: what a field of fixed layout is. -/
structure Steady (p : Decoder τ ε α) : Prop where
  hopeful : p.Hopeful
  live : p.Live

theorem steady_done (a : α) : (done a : Decoder τ ε α).Steady := ⟨trivial, live_of_reads (reads_done a)⟩

theorem steady_bind {p : Decoder τ ε α} {f : α → Decoder τ ε β} (head : p.Steady) (tail : ∀ a, (f a).Steady) :
    (p.bind f).Steady := by
  obtain ⟨ts, a, accepted⟩ := head.live
  exact ⟨hopeful_bind head.hopeful (fun a => (tail a).hopeful) fun a => (tail a).live,
    live_bind accepted (tail a).live⟩

/-- What a starved decoder has read completely can still become an accepted word. -/
theorem completed_extends {p : Decoder τ ε α} {ts : List τ} (hopeful : p.Hopeful)
    (starved : (p.decode ts).1 = .starved) : ∃ word a, p.Accepts word a ∧ p.completed ts <+: word := by
  induction p generalizing ts with
  | done a => simp at starved
  | fail e => simp at starved
  | read n next ih =>
    by_cases short : ts.length < n
    · obtain ⟨word, a, accepted⟩ := hopeful.1
      exact ⟨word, a, accepted, by simp [completed, short]⟩
    · have enough : n ≤ ts.length := by omega
      have size : (ts.take n).length = n := by simp [enough]
      rw [decode_read_enough enough] at starved
      obtain ⟨word, a, accepted, rest, split⟩ := ih (ts.take n) (hopeful.2 _ size) starved
      refine ⟨ts.take n ++ word, a, ?_, rest, ?_⟩
      · unfold Accepts
        have unread : (read (ts.take n).length next).decode (ts.take n ++ word) = _ :=
          decode_read_append (ts.take n) word
        rw [size] at unread
        exact unread.trans accepted
      · simp only [completed, short, ↓reduceIte, List.append_assoc, split]

/-! ## Sources -/

/-- Drive a decoder from a stateful source of blocks. -/
def run (readAll : Nat → EStateM ε σ (List τ)) : Decoder τ ε α → EStateM ε σ α
  | done a => pure a
  | fail e => throw e
  | read n next => do
    let block ← readAll n
    run readAll (next block)

/-- The source delivers the word that `R` relates to its state: whole blocks while
    they last, then the error `starve` with nothing left. -/
structure Delivers (R : σ → List τ → Prop) (readAll : Nat → EStateM ε σ (List τ)) (starve : ε) : Prop where
  enough : ∀ {n s ts}, R s ts → n ≤ ts.length → ∃ s', readAll n s = .ok (ts.take n) s' ∧ R s' (ts.drop n)
  short : ∀ {n s ts}, R s ts → ts.length < n → ∃ s', readAll n s = .error starve s' ∧ R s' []

/-- Driven from a source that delivers a word, a decoder ends with its verdict on
    the word, and the source keeps what the decoder leaves. -/
theorem run_follows {R : σ → List τ → Prop} {readAll : Nat → EStateM ε σ (List τ)} {starve : ε}
    (delivers : Delivers R readAll starve) (p : Decoder τ ε α) {s : σ} {ts : List τ} (related : R s ts) :
    ∃ s', p.run readAll s = (p.decode ts).1.result starve s' ∧ R s' (p.decode ts).2 := by
  induction p generalizing s ts with
  | done a => exact ⟨s, rfl, related⟩
  | fail e => exact ⟨s, rfl, related⟩
  | read n next ih =>
    by_cases short : ts.length < n
    · obtain ⟨s', executed, empty⟩ := delivers.short related short
      rw [decode_read_short short]
      exact ⟨s', error_bind executed, empty⟩
    · have enough : n ≤ ts.length := by omega
      obtain ⟨s', executed, left⟩ := delivers.enough related enough
      obtain ⟨s'', continued, rest⟩ := ih (ts.take n) left
      rw [decode_read_enough enough]
      exact ⟨s'', (ok_bind executed).trans continued, rest⟩

end Decoder
end Oac.Base
