import Mathlib.Data.List.Induction
import Mathlib.Logic.Relation

/-!
# Runs

A run of a labelled transition relation is a chain of steps. What holds at its start and
is kept by every step holds at its end (`Run.invariant`); a run whose steps all meet a
condition is a run of the relation restricted to it. A trace is a run with its events. It
may be followed by a trace of another relation, event by event (`Trace.follow`).
-/
namespace Oac.Base
universe u v
variable {σ : Type u} {ι : Type v} {step : σ → ι → σ → Prop}

/-- `s'` is reached from `s` by any number of steps. -/
def Run (step : σ → ι → σ → Prop) (s s' : σ) : Prop := Relation.ReflTransGen (fun a b => ∃ e, step a e b) s s'

/-- The steps that meet a condition on the state before and the event. -/
def Meeting (step : σ → ι → σ → Prop) (condition : σ → ι → Prop) (s : σ) (e : ι) (s' : σ) : Prop :=
  step s e s' ∧ condition s e

namespace Run

theorem refl (s : σ) : Run step s s := Relation.ReflTransGen.refl

theorem next {s s' s'' : σ} {e : ι} (run : Run step s s') (last : step s' e s'') : Run step s s'' :=
  Relation.ReflTransGen.tail run ⟨e, last⟩

theorem trans {s s' s'' : σ} (first : Run step s s') (second : Run step s' s'') : Run step s s'' :=
  Relation.ReflTransGen.trans first second

theorem invariant {I : σ → Prop} {s s' : σ} (run : Run step s s') (start : I s)
    (kept : ∀ {a e b}, I a → step a e b → I b) : I s' := by
  induction run with
  | refl => exact start
  | tail _ last ih =>
    obtain ⟨e, step⟩ := last
    exact kept ih step

/-- A run that meets a condition is a run. -/
theorem forget {condition : σ → ι → Prop} {s s' : σ} (run : Run (Meeting step condition) s s') : Run step s s' :=
  run.invariant (refl s) fun before last => before.next last.1

theorem weaken {condition condition' : σ → ι → Prop} (weaker : ∀ {s e}, condition s e → condition' s e) {s s' : σ}
    (run : Run (Meeting step condition) s s') : Run (Meeting step condition') s s' :=
  run.invariant (refl s) fun before last => before.next ⟨last.1, weaker last.2⟩

end Run

/-! ## Traces -/

/-- The events `es` lead from `s` to `s'`. -/
inductive Trace (step : σ → ι → σ → Prop) : σ → List ι → σ → Prop
  | nil (s : σ) : Trace step s [] s
  | cons {s s' s'' : σ} {e : ι} {es : List ι} : step s e s' → Trace step s' es s'' → Trace step s (e :: es) s''

namespace Trace

theorem single {s s' : σ} {e : ι} (only : step s e s') : Trace step s [e] s' := .cons only (.nil s')

theorem append {s s' s'' : σ} {es es' : List ι} (first : Trace step s es s') (second : Trace step s' es' s'') :
    Trace step s (es ++ es') s'' := by
  induction first with
  | nil => exact second
  | cons begins _ ih => exact .cons begins (ih second)

theorem uncons {s s'' : σ} {e : ι} {es : List ι} (trace : Trace step s (e :: es) s'') :
    ∃ s', step s e s' ∧ Trace step s' es s'' := by
  cases trace with
  | cons begins rest => exact ⟨_, begins, rest⟩

theorem split {s s'' : σ} {es es' : List ι} (trace : Trace step s (es ++ es') s'') :
    ∃ s', Trace step s es s' ∧ Trace step s' es' s'' := by
  induction es generalizing s with
  | nil => exact ⟨s, .nil s, trace⟩
  | cons e es ih =>
    cases trace with
    | cons begins rest =>
      obtain ⟨s', first, second⟩ := ih rest
      exact ⟨s', .cons begins first, second⟩

theorem invariant {I : σ → Prop} {s s' : σ} {es : List ι} (trace : Trace step s es s') (start : I s)
    (kept : ∀ {a e b}, I a → step a e b → I b) : I s' := by
  induction trace with
  | nil => exact start
  | cons begins _ ih => exact ih (kept start begins)

/-- What an invariant says of the events. -/
theorem forall_mem {I : σ → Prop} {P : ι → Prop} {s s' : σ} {es : List ι} (trace : Trace step s es s') (start : I s)
    (kept : ∀ {a e b}, I a → step a e b → I b) (each : ∀ {a e b}, I a → step a e b → P e) : ∀ e ∈ es, P e := by
  induction trace with
  | nil => exact fun _ among => absurd among List.not_mem_nil
  | cons begins _ ih => exact List.forall_mem_cons.mpr ⟨each start begins, ih (kept start begins)⟩

/-- Related states stay related while every step is followed by its image. -/
theorem follow {τ κ : Type*} {step' : τ → κ → τ → Prop} {R : σ → τ → Prop} {f : ι → List κ}
    (simulated : ∀ {s e s' t}, R s t → step s e s' → ∃ t', Trace step' t (f e) t' ∧ R s' t')
    {s s' : σ} {es : List ι} (trace : Trace step s es s') {t : τ} (related : R s t) :
    ∃ t', Trace step' t (es.flatMap f) t' ∧ R s' t' := by
  induction trace generalizing t with
  | nil => exact ⟨t, .nil t, related⟩
  | cons begins _ ih =>
    obtain ⟨t₁, first, related₁⟩ := simulated related begins
    obtain ⟨t₂, second, related₂⟩ := ih related₁
    exact ⟨t₂, first.append second, related₂⟩

/-- Two traces with the same events, while their steps keep the states related. -/
theorem alongside {τ : Type*} {step' : τ → ι → τ → Prop} {R : σ → τ → Prop} {P : ι → Prop}
    {s s' : σ} {t t' : τ} {es : List ι} (trace : Trace step s es s') (trace' : Trace step' t es t')
    (kept : ∀ {s e s' t t'}, P e → R s t → step s e s' → step' t e t' → R s' t') (each : ∀ e ∈ es, P e) (related : R s t) :
    R s' t' := by
  induction trace generalizing t with
  | nil =>
    cases trace'
    exact related
  | cons begins _ ih =>
    obtain ⟨t₁, begins', rest'⟩ := trace'.uncons
    obtain ⟨first, rest⟩ := List.forall_mem_cons.mp each
    exact ih rest' rest (kept first related begins begins')

/-- The last of the events that open or close is one that opens. -/
def Opened (opens closes : ι) (es : List ι) : Prop := ∃ es₁ es₂, es = es₁ ++ opens :: es₂ ∧ closes ∉ es₂

theorem opened_snoc {opens closes : ι} (differ : opens ≠ closes) (es : List ι) (e : ι) :
    Opened opens closes (es ++ [e]) ↔ e = opens ∨ (e ≠ closes ∧ Opened opens closes es) := by
  constructor
  · rintro ⟨es₁, es₂, same, unclosed⟩
    rcases List.eq_nil_or_concat es₂ with rfl | ⟨es₂, e', rfl⟩
    · obtain ⟨-, last⟩ := List.append_inj' same rfl
      exact .inl (by simpa using last)
    · rw [List.concat_eq_append] at same unclosed
      rw [← List.cons_append, ← List.append_assoc] at same
      obtain ⟨first, last⟩ := List.append_inj' same rfl
      obtain rfl : e = e' := by simpa using last
      refine .inr ⟨?_, es₁, es₂, first, fun among => unclosed (by simp [among])⟩
      rintro rfl
      exact unclosed (by simp)
  · rintro (rfl | ⟨other, es₁, es₂, rfl, unclosed⟩)
    · exact ⟨es, [], rfl, List.not_mem_nil⟩
    · refine ⟨es₁, es₂ ++ [e], by simp, ?_⟩
      simp [unclosed, Ne.symm other]

/-- What holds exactly from an event that opens to the next that closes. -/
theorem opened_iff {P : σ → Prop} {opens closes : ι} (differ : opens ≠ closes)
    (enters : ∀ {a b}, step a opens b → P b) (leaves : ∀ {a b}, step a closes b → ¬ P b)
    (stays : ∀ {a e b}, e ≠ opens → e ≠ closes → step a e b → (P b ↔ P a))
    {s s' : σ} {es : List ι} (trace : Trace step s es s') (start : ¬ P s) : P s' ↔ Opened opens closes es := by
  induction es using List.reverseRecOn generalizing s' with
  | nil =>
    cases trace
    exact iff_of_false start (by rintro ⟨es₁, es₂, same, -⟩; simp at same)
  | append_singleton es e ih =>
    obtain ⟨s₁, first, second⟩ := trace.split
    cases second with
    | cons last rest =>
      cases rest
      rw [opened_snoc differ]
      by_cases opening : e = opens
      · subst opening
        exact iff_of_true (enters last) (.inl rfl)
      · by_cases closing : e = closes
        · subst closing
          exact iff_of_false (leaves last) (by simp [opening])
        · rw [stays opening closing last, ih first]
          simp [opening, closing]

end Trace
end Oac.Base
