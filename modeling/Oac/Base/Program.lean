import Mathlib.Tactic.Common

/-!
# Programs with a state and an exception

How the results of `EStateM` programs compose, and what such a program keeps of its state
whether it ends normally or by an exception.
-/
namespace Oac.Base
universe u
variable {ε σ α β : Type u}

theorem ok_bind {x : EStateM ε σ α} {f : α → EStateM ε σ β} {s s' : σ} {a : α} (executed : x s = .ok a s') :
    (x >>= f) s = f a s' := by
  show EStateM.bind x f s = f a s'
  simp only [EStateM.bind, executed]

theorem error_bind {x : EStateM ε σ α} {f : α → EStateM ε σ β} {s s' : σ} {e : ε} (raised : x s = .error e s') :
    (x >>= f) s = .error e s' := by
  show EStateM.bind x f s = .error e s'
  simp only [EStateM.bind, raised]

theorem get_bind (f : σ → EStateM ε σ β) (s : σ) : (get >>= f) s = f s s := rfl
theorem set_bind (s s' : σ) (f : PUnit → EStateM ε σ β) : (set s' >>= f) s = f ⟨⟩ s' := rfl

theorem run'_of_ok {x : EStateM ε σ α} {s s' : σ} {a : α} (executed : x s = .ok a s') : x.run' s = some a := by
  delta EStateM.run' EStateM.run
  rw [executed]

/-- A program that returns has returned from its first part. -/
theorem bind_ok {x : EStateM ε σ α} {f : α → EStateM ε σ β} {s s'' : σ} {b : β} (executed : (x >>= f) s = .ok b s'') :
    ∃ a s', x s = .ok a s' ∧ f a s' = .ok b s'' := by
  cases first : x s with
  | ok a s' => exact ⟨a, s', rfl, (ok_bind first).symm.trans executed⟩
  | error e s' => exact absurd ((error_bind first).symm.trans executed) nofun

/-- The state a program ends in. -/
def after : EStateM.Result ε σ α → σ
  | .ok _ s => s
  | .error _ s => s

@[simp] theorem after_ok (a : α) (s : σ) : after (.ok a s : EStateM.Result ε σ α) = s := rfl
@[simp] theorem after_error (e : ε) (s : σ) : after (.error e s : EStateM.Result ε σ α) = s := rfl

/-- The program relates its state before to its state after, however it ends. -/
def Keeps (R : σ → σ → Prop) (x : EStateM ε σ α) : Prop := ∀ s, R s (after (x s))

theorem keeps_bind {R : σ → σ → Prop} (transitive : ∀ {a b c}, R a b → R b c → R a c) {x : EStateM ε σ α}
    {f : α → EStateM ε σ β} (first : Keeps R x) (second : ∀ a, Keeps R (f a)) : Keeps R (x >>= f) := by
  intro s
  have kept := first s
  cases executed : x s with
  | ok a s' =>
    rw [executed] at kept
    rw [ok_bind executed]
    exact transitive kept (second a s')
  | error e s' =>
    rw [executed] at kept
    rw [error_bind executed]
    exact kept

/-! ## Programs over two states -/

section
variable {τ : Type u} {f : σ → τ}

/-- The result with the image of its state. -/
def along (f : σ → τ) : EStateM.Result ε σ α → EStateM.Result ε τ α
  | .ok a s => .ok a (f s)
  | .error e s => .error e (f s)

@[simp] theorem after_along (result : EStateM.Result ε σ α) : after (along f result) = f (after result) := by
  cases result <;> rfl

/-- On the image of a state the second program does what the first does on the state. -/
def Follows (f : σ → τ) (x : EStateM ε σ α) (y : EStateM ε τ α) : Prop := ∀ s, y (f s) = along f (x s)

theorem follows_bind {x : EStateM ε σ α} {y : EStateM ε τ α} {g : α → EStateM ε σ β} {h : α → EStateM ε τ β}
    (first : Follows f x y) (second : ∀ a, Follows f (g a) (h a)) : Follows f (x >>= g) (y >>= h) := by
  intro s
  have image := first s
  cases executed : x s with
  | ok a s' =>
    rw [executed] at image
    rw [ok_bind executed, ok_bind image]
    exact second a s'
  | error e s' =>
    rw [executed] at image
    rw [error_bind executed, error_bind image]
    rfl

end

end Oac.Base
