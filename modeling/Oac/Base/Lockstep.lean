import Oac.Base.Program

/-!
# Two programs side by side

Two machines take the same calls one after the other. They are alike on a sequence of
calls when every call gives the same result on both, value or exception, and leaves
states that belong together. Where it is known exactly which calls do that, the machines
are alike on exactly the sequences of such calls (`alike_iff`).
-/
namespace Oac.Base
universe u v
variable {ε σ τ α : Type u} {ι : Type v}

/-- The same value or the same exception, and related states. -/
def Lockstep (R : σ → τ → Prop) : EStateM.Result ε σ α → EStateM.Result ε τ α → Prop
  | .ok a s, .ok b t => a = b ∧ R s t
  | .error e s, .error e' t => e = e' ∧ R s t
  | .ok _ _, .error _ _ => False
  | .error _ _, .ok _ _ => False

/-- Every call of the sequence is in lockstep. -/
def Alike (R : σ → τ → Prop) (f : ι → EStateM ε σ α) (g : ι → EStateM ε τ α) : List ι → σ → τ → Prop
  | [], _, _ => True
  | call :: calls, s, t => Lockstep R (f call s) (g call t) ∧ Alike R f g calls (after (f call s)) (after (g call t))

/-- Every call of the sequence meets a condition in the state that it finds. -/
def Along (f : ι → EStateM ε σ α) (condition : σ → ι → Prop) : List ι → σ → Prop
  | [], _ => True
  | call :: calls, s => condition s call ∧ Along f condition calls (after (f call s))

/-- A condition may be replaced by one that says the same wherever the calls lead. -/
theorem along_congr {f : ι → EStateM ε σ α} {condition condition' : σ → ι → Prop} {I : σ → Prop}
    (same : ∀ {s call}, I s → (condition s call ↔ condition' s call))
    (kept : ∀ {s call}, I s → condition s call → I (after (f call s))) :
    ∀ (calls : List ι) {s : σ}, I s → (Along f condition calls s ↔ Along f condition' calls s) := by
  intro calls
  induction calls with
  | nil => exact fun _ => Iff.rfl
  | cons call calls ih =>
    intro s start
    constructor
    · rintro ⟨fine, rest⟩
      exact ⟨(same start).mp fine, (ih (kept start fine)).mp rest⟩
    · rintro ⟨fine, rest⟩
      have fine' := (same start).mpr fine
      exact ⟨fine', (ih (kept start fine')).mpr rest⟩

theorem Lockstep.related {R : σ → τ → Prop} {x : EStateM.Result ε σ α} {y : EStateM.Result ε τ α}
    (lockstep : Lockstep R x y) : R (after x) (after y) := by
  cases x with
  | ok a s =>
    cases y with
    | ok b t => exact lockstep.2
    | error e t => exact lockstep.elim
  | error e s =>
    cases y with
    | ok b t => exact lockstep.elim
    | error e' t => exact lockstep.2

theorem Lockstep.mono {R R' : σ → τ → Prop} (weaker : ∀ {s t}, R s t → R' s t) {x : EStateM.Result ε σ α}
    {y : EStateM.Result ε τ α} (lockstep : Lockstep R x y) : Lockstep R' x y := by
  cases x with
  | ok a s =>
    cases y with
    | ok b t => exact ⟨lockstep.1, weaker lockstep.2⟩
    | error e t => exact lockstep
  | error e s =>
    cases y with
    | ok b t => exact lockstep
    | error e' t => exact ⟨lockstep.1, weaker lockstep.2⟩

/-- Where every call that meets a condition on the second machine is in lockstep and keeps
    a promise on the first, whole sequences are alike and keep it. -/
theorem alike_of_lockstep {R : σ → τ → Prop} {f : ι → EStateM ε σ α} {g : ι → EStateM ε τ α} {condition : τ → ι → Prop}
    {promise : σ → ι → Prop}
    (met : ∀ {s t call}, R s t → condition t call → Lockstep R (f call s) (g call t) ∧ promise s call) :
    ∀ (calls : List ι) {s : σ} {t : τ}, R s t → Along g condition calls t →
      Alike R f g calls s t ∧ Along f promise calls s := by
  intro calls
  induction calls with
  | nil => exact fun _ _ => ⟨trivial, trivial⟩
  | cons call calls ih =>
    rintro s t related ⟨fine, rest⟩
    obtain ⟨lockstep, kept⟩ := met related fine
    obtain ⟨alike, promised⟩ := ih lockstep.related rest
    exact ⟨⟨lockstep, alike⟩, kept, promised⟩

section
variable {υ : Type u} {R : σ → τ → Prop} {R' : υ → τ → Prop}

theorem Lockstep.join {x : EStateM.Result ε σ α} {y : EStateM.Result ε τ α} {z : EStateM.Result ε υ α} (first : Lockstep R x y)
    (second : Lockstep R' z y) : Lockstep (fun s u => ∃ t, R s t ∧ R' u t) x z := by
  cases y with
  | ok b t =>
    cases x with
    | error e s => exact first.elim
    | ok a s =>
      cases z with
      | error e u => exact second.elim
      | ok c u => exact ⟨first.1.trans second.1.symm, t, first.2, second.2⟩
  | error e t =>
    cases x with
    | ok a s => exact first.elim
    | error e' s =>
      cases z with
      | ok c u => exact second.elim
      | error e'' u => exact ⟨first.1.trans second.1.symm, t, first.2, second.2⟩

/-- Two machines that are both like a third one are like each other. -/
theorem Alike.join {f : ι → EStateM ε σ α} {g : ι → EStateM ε τ α} {h : ι → EStateM ε υ α} {calls : List ι} {s : σ} {t : τ} {u : υ}
    (first : Alike R f g calls s t) (second : Alike R' h g calls u t) : Alike (fun s u => ∃ t, R s t ∧ R' u t) f h calls s u := by
  induction calls generalizing s t u with
  | nil => trivial
  | cons call calls ih => exact ⟨first.1.join second.1, ih first.2 second.2⟩

end

/-- `I` relates the states of two machines whose calls are in lockstep if they meet the
    condition, and only then. -/
structure Compared (I R : σ → τ → Prop) (f : ι → EStateM ε σ α) (g : ι → EStateM ε τ α)
    (condition : σ → ι → Prop) : Prop where
  weaker : ∀ {s t}, I s t → R s t
  met : ∀ {s t call}, I s t → condition s call → Lockstep I (f call s) (g call t)
  unmet : ∀ {s t call}, I s t → ¬ condition s call → ¬ Lockstep R (f call s) (g call t)

theorem Compared.alike_iff {I R : σ → τ → Prop} {f : ι → EStateM ε σ α} {g : ι → EStateM ε τ α}
    {condition : σ → ι → Prop} (compared : Compared I R f g condition) :
    ∀ (calls : List ι) {s : σ} {t : τ}, I s t → (Alike R f g calls s t ↔ Along f condition calls s) := by
  intro calls
  induction calls with
  | nil => exact fun _ => Iff.rfl
  | cons call calls ih =>
    intro s t related
    constructor
    · rintro ⟨lockstep, rest⟩
      have fine : condition s call := by
        by_contra bad
        exact compared.unmet related bad lockstep
      exact ⟨fine, (ih (compared.met related fine).related).mp rest⟩
    · rintro ⟨fine, rest⟩
      have lockstep := compared.met related fine
      exact ⟨lockstep.mono compared.weaker, (ih lockstep.related).mpr rest⟩

end Oac.Base
