import Oac.Base.Run

/-!
# Signals that are polled

One party raises a signal whenever it finds it lowered. The other works in rounds: it takes a
copy of the signal, reports the copy and lowers it, and puts it back. A signal that is raised
between two rounds is reported once; one that is raised during a round is lowered without
being reported (`reports_of_lowered`).
-/
namespace Oac.Base

inductive Stage where
  | idle
  | taken
  | reported
  deriving DecidableEq

structure Signal where
  raised : Bool
  copy : Bool
  stage : Stage

namespace Signal

inductive Move where
  | raise
  | take
  | report (seen : Bool)
  | back
  deriving DecidableEq

inductive Step : Signal → Move → Signal → Prop where
  | raise {f : Signal} (lowered : f.raised = false) : Step f .raise { f with raised := true }
  | take {f : Signal} (idle : f.stage = .idle) : Step f .take { f with copy := f.raised, stage := .taken }
  | report {f : Signal} (taken : f.stage = .taken) : Step f (.report f.copy) { f with copy := false, stage := .reported }
  | back {f : Signal} (reported : f.stage = .reported) : Step f .back { f with raised := f.copy, stage := .idle }

/-- During a round the copy of a lowered signal is lowered, and so is one that is reported. -/
structure Coherent (f : Signal) : Prop where
  lowered : f.raised = false → f.stage ≠ .idle → f.copy = false
  reported : f.stage = .reported → f.copy = false

/-- A signal between two rounds. -/
theorem coherent_idle {f : Signal} (idle : f.stage = .idle) : f.Coherent :=
  ⟨fun _ busy => absurd idle busy, fun reported => absurd (idle.symm.trans reported) nofun⟩

theorem Coherent.step {f g : Signal} {m : Move} (coherent : f.Coherent) (step : Step f m g) : g.Coherent := by
  cases step with
  | raise lowered => exact ⟨nofun, coherent.reported⟩
  | take idle => exact ⟨fun lowered _ => lowered, nofun⟩
  | report taken => exact ⟨fun _ _ => rfl, fun _ => rfl⟩
  | back reported => exact coherent_idle rfl

theorem back_lowers {f g : Signal} (coherent : f.Coherent) (step : Step f .back g) : g.raised = false := by
  cases step with
  | back reported => exact coherent.reported reported

/-- How often a signal has been reported since it was raised, between two rounds or during one. -/
inductive Since : Bool → Signal → Nat → Prop where
  | waiting {f : Signal} (raised : f.raised = true) (idle : f.stage = .idle) : Since true f 0
  | taken {f : Signal} (raised : f.raised = true) (copied : f.copy = true) (taken : f.stage = .taken) : Since true f 0
  | reported {f : Signal} (raised : f.raised = true) (reported : f.stage = .reported) : Since true f 1
  | missed {f : Signal} (raised : f.raised = true) (missing : f.copy = false) (busy : f.stage ≠ .idle) : Since false f 0
  | settled {f : Signal} (timely : Bool) (lowered : f.raised = false) : Since timely f (if timely then 1 else 0)

/-- Other moves than a second raise count what they report. -/
theorem Since.step {timely : Bool} {f g : Signal} {n : Nat} {m : Move} (since : Since timely f n) (coherent : f.Coherent)
    (other : m ≠ .raise) (step : Step f m g) : Since timely g (n + [m].count (.report true)) := by
  cases step with
  | raise lowered => exact absurd rfl other
  | take idle =>
    cases since with
    | waiting raised _ => exact .taken raised raised rfl
    | taken _ _ taken => exact absurd (idle.symm.trans taken) nofun
    | reported _ reported => exact absurd (idle.symm.trans reported) nofun
    | missed _ _ busy => exact absurd idle busy
    | settled _ lowered => exact .settled _ lowered
  | report taken =>
    cases since with
    | waiting _ idle => exact absurd (idle.symm.trans taken) nofun
    | taken raised copied _ =>
      rw [copied]
      exact .reported raised rfl
    | reported _ reported => exact absurd (reported.symm.trans taken) nofun
    | missed raised missing busy =>
      rw [missing]
      exact .missed raised rfl nofun
    | settled _ lowered =>
      have empty : f.copy = false := coherent.lowered lowered (by rw [taken]; nofun)
      rw [empty]
      exact .settled _ lowered
  | back reported =>
    have empty : f.copy = false := coherent.reported reported
    cases since with
    | waiting _ idle => exact absurd (idle.symm.trans reported) nofun
    | taken _ copied _ => exact absurd (copied.symm.trans empty) nofun
    | reported _ _ => exact .settled true empty
    | missed _ _ _ => exact .settled false empty
    | settled _ _ => exact .settled _ empty

theorem Since.trace {timely : Bool} {f g : Signal} {n : Nat} {ms : List Move} (since : Since timely f n)
    (coherent : f.Coherent) (others : .raise ∉ ms) (trace : Trace Step f ms g) :
    Since timely g (n + ms.count (.report true)) := by
  induction trace generalizing n with
  | nil => exact since
  | @cons _ _ _ m ms begins _ ih =>
    have first := since.step coherent (fun same => others (same ▸ List.mem_cons_self)) begins
    have rest := ih first (coherent.step begins) fun among => others (List.mem_cons_of_mem _ among)
    rwa [Nat.add_assoc, ← List.count_append] at rest

theorem Since.lowered {timely : Bool} {f : Signal} {n : Nat} (since : Since timely f n) (lowered : f.raised = false) :
    n = if timely then 1 else 0 := by
  cases since with
  | settled => rfl
  | waiting raised | taken raised | reported raised | missed raised => exact absurd (raised.symm.trans lowered) nofun

/-- By the time that it is lowered, a signal has been reported once if it was raised between
    two rounds, and else not at all. -/
theorem reports_of_lowered {f g : Signal} {ms : List Move} (coherent : f.Coherent) (trace : Trace Step f (.raise :: ms) g)
    (others : .raise ∉ ms) (lowered : g.raised = false) :
    ms.count (.report true) = if f.stage = .idle then 1 else 0 := by
  cases trace with
  | cons raise rest =>
    have coherent' := coherent.step raise
    cases raise with
    | raise before =>
      by_cases idle : f.stage = .idle
      · have since : Since true { f with raised := true } 0 := .waiting rfl idle
        simpa [idle] using (since.trace coherent' others rest).lowered lowered
      · have since : Since false { f with raised := true } 0 := .missed rfl (coherent.lowered before idle) idle
        simpa [idle] using (since.trace coherent' others rest).lowered lowered

end Signal
end Oac.Base
