import Mathlib.Data.List.Nodup
import Oac.Base.Promise
import Oac.Base.Run

/-!
# The asynchronous executor

The `async_executor`: its queue of jobs, the threads that are in `run`, and the futures of
the jobs. `execute`, `stop` and a turn of the loop in `run` hold the mutex, so each of them
is one step. `job::execute` does not catch what a function throws: the promise is not set,
the job stays in the queue, and `run` ends by the exception (`executor_sound_iff`).
-/
namespace Oac
open Base
variable {ε α : Type}

/-- A job. `func` is what the first, second, ... call of its function does; `promise` is the
number of its future, by the order of `execute`. -/
structure Job (ε α : Type) where
  func : Nat → Except ε α
  promise : Nat

/-- A thread that is in `run`. -/
structure Loop where
  background : Bool
  /-- it waits for `_new_job` -/
  waiting : Bool
  deriving DecidableEq

/-- What a job raises. -/
inductive Raised (ε : Type) where
  | func (e : ε)
  | future (e : FutureError)

/-- How a thread left `run`. -/
inductive Ended (ε α : Type) where
  | returned (left : List (Job ε α))
  | raised (e : Raised ε)

/-- An executor. `calls` and `ended` only record what has happened. -/
structure AsyncExecutor (ε α : Type) where
  jobs : List (Job ε α)
  mustRun : Bool
  promises : Shared ε α
  loops : List Loop
  /-- the jobs whose functions were called, in order -/
  calls : List Nat
  ended : List (Ended ε α)
  /-- `std::terminate` was called -/
  terminated : Bool

namespace AsyncExecutor

def initial : AsyncExecutor ε α :=
  { jobs := [], mustRun := true, promises := [], loops := [], calls := [], ended := [], terminated := false }

/-- What the methods do and raise. -/
abbrev Act (ε α β : Type) := EStateM (Raised ε) (AsyncExecutor ε α) β

/-- `_promise.set_value(result)`. -/
def setValue (p : Nat) (result : α) : Act ε α Unit :=
  onShared promises (fun promises s => { s with promises }) .future (Shared.settle p (.value result))

/-- `job::execute`. -/
def executeJob (job : Job ε α) : Act ε α Unit := do
  let s ← get
  set { s with calls := s.calls ++ [job.promise] }
  match job.func (s.calls.count job.promise) with
  | .ok result => setValue job.promise result
  | .error e => throw (.func e)

/-- `_jobs.pop()`, which destroys the job and its promise. -/
def pop (job : Job ε α) (s : AsyncExecutor ε α) : AsyncExecutor ε α :=
  { s with jobs := s.jobs.tail, promises := Shared.destroy s.promises job.promise }

/-- The inner loop of `run`, over the queue; nothing is added to it meanwhile. -/
def drain : List (Job ε α) → Act ε α Unit
  | [] => pure ()
  | job :: jobs => do
    executeJob job
    modify (pop job)
    drain jobs

/-- A turn of the outer loop of `run` by one thread. An exception that leaves a background
thread terminates the program. -/
def iterate (i : Nat) (loop : Loop) (s : AsyncExecutor ε α) : AsyncExecutor ε α :=
  match drain s.jobs s with
  | .ok _ s =>
    if s.mustRun then { s with loops := s.loops.set i { loop with waiting := true } }
    else { s with loops := s.loops.eraseIdx i, ended := s.ended ++ [.returned s.jobs] }
  | .error e s =>
    { s with loops := s.loops.eraseIdx i, ended := s.ended ++ [.raised e], terminated := loop.background }

/-- `_new_job.notify_one()` wakes one of the threads that wait, if there is one. -/
inductive NotifyOne (loops : List Loop) : List Loop → Prop
  | wakes {i : Nat} {loop : Loop} (waits : loops[i]? = some loop) (waiting : loop.waiting = true) :
      NotifyOne loops (loops.set i { loop with waiting := false })
  | nobody (busy : ∀ loop ∈ loops, loop.waiting = false) : NotifyOne loops loops

inductive Event (ε α : Type) where
  | execute (func : Nat → Except ε α)
  /-- a thread enters `run` -/
  | run (background : Bool)
  /-- a thread that is in `run` takes the mutex -/
  | iterate (i : Nat)
  /-- a thread wakes without a notification -/
  | wake (i : Nat)
  | stop
  | reset

/-- What may happen until the program is terminated. -/
inductive Step (s : AsyncExecutor ε α) : Event ε α → AsyncExecutor ε α → Prop
  | execute {func : Nat → Except ε α} {loops : List Loop} (on : s.terminated = false) (notified : NotifyOne s.loops loops) :
      Step s (.execute func)
        { s with jobs := s.jobs ++ [⟨func, s.promises.length⟩], promises := Shared.make s.promises, loops }
  | run {background : Bool} (on : s.terminated = false) :
      Step s (.run background) { s with loops := s.loops ++ [{ background, waiting := false }] }
  | iterate {i : Nat} {loop : Loop} (on : s.terminated = false) (inside : s.loops[i]? = some loop)
      (ready : loop.waiting = false) : Step s (.iterate i) (iterate i loop s)
  | wake {i : Nat} {loop : Loop} (on : s.terminated = false) (inside : s.loops[i]? = some loop) :
      Step s (.wake i) { s with loops := s.loops.set i { loop with waiting := false } }
  | stop {loops : List Loop} (on : s.terminated = false) (notified : NotifyOne s.loops loops) :
      Step s .stop { s with mustRun := false, loops }
  | reset (on : s.terminated = false) : Step s .reset { s with mustRun := true }

end AsyncExecutor

open AsyncExecutor

/-- The function of a job that is submitted. -/
def AsyncExecutor.Event.submits : Event ε α → List (Nat → Except ε α)
  | .execute func => [func]
  | _ => []

/-- The functions of all jobs, in the order of their submission. -/
def submitted (events : List (Event ε α)) : List (Nat → Except ε α) := events.flatMap Event.submits

/-- The result of a function, or the exception it threw. -/
def resultOf : Except ε α → FutureResult ε α
  | .ok result => .value result
  | .error e => .exception e

/-- What is expected of an executor that was given some jobs. -/
structure Sound (funcs : List (Nat → Except ε α)) (s : AsyncExecutor ε α) : Prop where
  /-- the jobs were called once each and in order, up to those in the queue -/
  once : s.calls ++ s.jobs.map Job.promise = List.range funcs.length
  /-- the futures of the jobs that were called have their results -/
  resolved : ∀ i func, funcs[i]? = some func →
    s.promises[i]? = some (if i ∈ s.calls then some (resultOf (func 0)) else none)
  /-- `run` only returned, and left no job -/
  ended : ∀ r ∈ s.ended, r = .returned []
  /-- while there are jobs, a thread that is in `run` is on its way to them -/
  woken : s.jobs ≠ [] → s.loops ≠ [] → ∃ loop ∈ s.loops, loop.waiting = false

/-- No thread goes through the queue after a job that throws was submitted. -/
def Undisturbed (events : List (Event ε α)) : Prop :=
  ∀ before i after, events = before ++ .iterate i :: after → ∀ func ∈ submitted before, ∀ e, func 0 ≠ .error e

/-! ## Jobs -/

variable {s s' : AsyncExecutor ε α} {job : Job ε α} {jobs : List (Job ε α)} {funcs : List (Nat → Except ε α)}

namespace AsyncExecutor

/-- Jobs whose functions have not been called and whose promises have not been set. -/
structure Waiting (s : AsyncExecutor ε α) (jobs : List (Job ε α)) : Prop where
  distinct : (jobs.map Job.promise).Nodup
  first : ∀ job ∈ jobs, job.promise ∉ s.calls
  pending : ∀ job ∈ jobs, s.promises[job.promise]? = some none

/-- The state after a job that returned. -/
def done (job : Job ε α) (result : α) (s : AsyncExecutor ε α) : AsyncExecutor ε α :=
  { s with
    jobs := s.jobs.tail
    calls := s.calls ++ [job.promise]
    promises := s.promises.set job.promise (some (.value result)) }

theorem done_promises (pending : s.promises[job.promise]? = some none) (result : α) (q : Nat) :
    (done job result s).promises[q]? = if q = job.promise then some (some (.value result)) else s.promises[q]? :=
  Shared.settled pending (.value result) q

theorem Waiting.next (waiting : Waiting s (job :: jobs)) (result : α) : Waiting (done job result s) jobs := by
  obtain ⟨other, distinct⟩ := List.nodup_cons.mp waiting.distinct
  have different : ∀ job' ∈ jobs, job'.promise ≠ job.promise := by
    intro job' mem same
    have among : job'.promise ∈ jobs.map Job.promise := List.mem_map_of_mem mem
    exact other (same ▸ among)
  refine ⟨distinct, fun job' mem called => ?_, fun job' mem => ?_⟩
  · rcases List.mem_append.mp called with before | now
    · exact waiting.first job' (List.mem_cons_of_mem job mem) before
    · exact different job' mem (List.mem_singleton.mp now)
  · rw [done_promises (waiting.pending job List.mem_cons_self), if_neg (different job' mem)]
    exact waiting.pending job' (List.mem_cons_of_mem job mem)

/-- A job that returns a result on its first call. -/
theorem drain_returns {result : α} (waiting : Waiting s (job :: jobs)) (returns : job.func 0 = .ok result) :
    drain (job :: jobs) s = drain jobs (done job result s) := by
  have pending := waiting.pending job List.mem_cons_self
  have executed : executeJob job s =
      .ok ⟨⟩ { s with calls := s.calls ++ [job.promise], promises := s.promises.set job.promise (some (.value result)) } := by
    unfold executeJob
    rw [get_bind, set_bind, List.count_eq_zero.mpr (waiting.first job List.mem_cons_self), returns]
    exact onShared_ok (Shared.settle_pending pending (.value result))
  have kept : Shared.destroy (s.promises.set job.promise (some (.value result))) job.promise =
      s.promises.set job.promise (some (.value result)) :=
    Shared.destroy_settled ((done_promises pending result job.promise).trans (if_pos rfl))
  rw [drain, ok_bind executed]
  show drain jobs { done job result s with
    promises := Shared.destroy (s.promises.set job.promise (some (.value result))) job.promise } = _
  rw [kept]
  rfl

theorem drain_throws {e : ε} (waiting : Waiting s (job :: jobs)) (throws : job.func 0 = .error e) :
    drain (job :: jobs) s = .error (.func e) { s with calls := s.calls ++ [job.promise] } := by
  have raised : executeJob job s = .error (.func e) { s with calls := s.calls ++ [job.promise] } := by
    unfold executeJob
    rw [get_bind, set_bind, List.count_eq_zero.mpr (waiting.first job List.mem_cons_self), throws]
    rfl
  rw [drain, error_bind raised]

/-- What has ended before stays. -/
def KeepsEnded (s s' : AsyncExecutor ε α) : Prop := s'.ended = s.ended

theorem drain_ended (jobs : List (Job ε α)) : Keeps KeepsEnded (drain jobs) := by
  have transitive {a b c : AsyncExecutor ε α} (first : KeepsEnded a b) (second : KeepsEnded b c) : KeepsEnded a c :=
    second.trans first
  have set_value (p : Nat) (result : α) : Keeps KeepsEnded (setValue p result : Act ε α Unit) := by
    intro s
    unfold setValue onShared
    split <;> rfl
  induction jobs with
  | nil => exact fun s => rfl
  | cons job jobs ih =>
    have one : Keeps KeepsEnded (executeJob job) := by
      intro s
      unfold executeJob
      rw [get_bind, set_bind]
      cases job.func (s.calls.count job.promise) with
      | ok result => exact set_value job.promise result _
      | error e => rfl
    have popped : Keeps KeepsEnded (modify (pop job) : Act ε α Unit) := fun s => rfl
    exact keeps_bind (R := KeepsEnded) transitive one fun _ => keeps_bind (R := KeepsEnded) transitive popped fun _ => ih

/-- Jobs that all return. -/
theorem drain_ok (queue : s.jobs = jobs) (waiting : Waiting s jobs) (returns : ∀ job ∈ jobs, ∃ result, job.func 0 = .ok result) :
    ∃ promises, drain jobs s = .ok () { s with jobs := [], calls := s.calls ++ jobs.map Job.promise, promises } ∧
      promises.length = s.promises.length ∧
      (∀ job ∈ jobs, promises[job.promise]? = some (some (resultOf (job.func 0)))) ∧
      ∀ q ∉ jobs.map Job.promise, promises[q]? = s.promises[q]? := by
  induction jobs generalizing s with
  | nil =>
    have same : { s with jobs := [] } = s := by rw [← queue]
    refine ⟨s.promises, ?_, rfl, by simp, by simp⟩
    rw [List.map_nil, List.append_nil, same]
    rfl
  | cons job jobs ih =>
    obtain ⟨⟨result, returned⟩, returns'⟩ := List.forall_mem_cons.mp returns
    have now := done_promises (waiting.pending job List.mem_cons_self) result
    have queue' : (done job result s).jobs = jobs := congrArg List.tail queue
    have other := (List.nodup_cons.mp waiting.distinct).1
    obtain ⟨promises, drained, length, called, uncalled⟩ := ih queue' (waiting.next result) returns'
    refine ⟨promises, ?_, length.trans List.length_set, List.forall_mem_cons.mpr ⟨?_, called⟩, fun q absent => ?_⟩
    · rw [drain_returns waiting returned, drained, List.map_cons]
      simp [done]
    · rw [uncalled job.promise other, now, if_pos rfl, returned]
      rfl
    · obtain ⟨unequal, absent'⟩ := not_or.mp (List.mem_cons.not.mp absent)
      rw [uncalled q absent', now, if_neg unequal]

/-- Jobs of which one throws. -/
theorem drain_error (waiting : Waiting s jobs) (throws : ∃ job ∈ jobs, ∃ e, job.func 0 = .error e) :
    ∃ e s', drain jobs s = .error e s' := by
  induction jobs generalizing s with
  | nil =>
    obtain ⟨job, mem, -⟩ := throws
    exact absurd mem List.not_mem_nil
  | cons job jobs ih =>
    cases outcome : job.func 0 with
    | error e => exact ⟨_, _, drain_throws waiting outcome⟩
    | ok result =>
      obtain ⟨job', mem, e, thrown⟩ := throws
      have later : job' ∈ jobs := by
        rcases List.mem_cons.mp mem with rfl | later
        · exact absurd (outcome.symm.trans thrown) (by simp)
        · exact later
      obtain ⟨e', s', raised⟩ := ih (waiting.next result) ⟨job', later, e, thrown⟩
      exact ⟨e', s', (drain_returns waiting outcome).trans raised⟩

/-! ## Steps -/

theorem NotifyOne.ready {loops loops' : List Loop} (notified : NotifyOne loops loops') (some_inside : loops' ≠ []) :
    ∃ loop ∈ loops', loop.waiting = false := by
  cases notified with
  | wakes waits waiting => exact ⟨_, List.mem_set (List.getElem?_eq_some_iff.mp waits).1 _, rfl⟩
  | nobody busy =>
    obtain ⟨loop, mem⟩ := List.exists_mem_of_ne_nil loops some_inside
    exact ⟨loop, mem, busy loop mem⟩

end AsyncExecutor

/-- As long as no job has thrown. -/
structure Calm (funcs : List (Nat → Except ε α)) (s : AsyncExecutor ε α) : Prop extends Sound funcs s where
  promised : s.promises.length = funcs.length
  queued : ∀ job ∈ s.jobs, funcs[job.promise]? = some job.func
  returned : ∀ i ∈ s.calls, ∀ func, funcs[i]? = some func → ∃ result, func 0 = .ok result

theorem calm_initial : Calm [] (.initial : AsyncExecutor ε α) where
  once := rfl
  resolved := by simp
  ended := by simp [initial]
  woken := by simp [initial]
  promised := rfl
  queued := by simp [initial]
  returned := by simp [initial]

theorem Calm.distinct (calm : Calm funcs s) : (s.calls ++ s.jobs.map Job.promise).Nodup := by
  rw [calm.once]
  exact List.nodup_range

theorem Calm.uncalled (calm : Calm funcs s) : ∀ job ∈ s.jobs, job.promise ∉ s.calls := by
  intro job mem called
  exact List.disjoint_of_nodup_append calm.distinct called (List.mem_map_of_mem mem)

theorem Calm.waiting (calm : Calm funcs s) : Waiting s s.jobs where
  distinct := List.Nodup.of_append_right calm.distinct
  first := calm.uncalled
  pending := by
    intro job mem
    rw [calm.resolved job.promise job.func (calm.queued job mem), if_neg (calm.uncalled job mem)]

/-- Every job was called or is in the queue. -/
theorem Calm.cases (calm : Calm funcs s) {i : Nat} {func : Nat → Except ε α} (given : funcs[i]? = some func) :
    i ∈ s.calls ∨ ∃ job ∈ s.jobs, job.promise = i ∧ job.func = func := by
  have among : i ∈ s.calls ++ s.jobs.map Job.promise := by
    rw [calm.once, List.mem_range]
    exact (List.getElem?_eq_some_iff.mp given).1
  rcases List.mem_append.mp among with called | queued
  · exact .inl called
  · obtain ⟨job, mem, rfl⟩ := List.mem_map.mp queued
    exact .inr ⟨job, mem, rfl, Option.some.inj ((calm.queued job mem).symm.trans given)⟩

/-- A turn that goes through the whole queue, whatever its thread does next. -/
theorem Calm.drained (calm : Calm funcs s) (returns : ∀ func ∈ funcs, ∃ result, func 0 = .ok result) :
    ∃ s', drain s.jobs s = .ok () s' ∧ s'.ended = s.ended ∧ s'.jobs = [] ∧
      ∀ loops ended mustRun terminated, (∀ r ∈ ended, r = .returned []) →
        Calm funcs { s' with loops, ended, mustRun, terminated } := by
  have queue_returns : ∀ job ∈ s.jobs, ∃ result, job.func 0 = .ok result := fun job mem =>
    returns job.func (List.mem_of_getElem? (calm.queued job mem))
  obtain ⟨promises, drained, length, called, uncalled⟩ := drain_ok rfl calm.waiting queue_returns
  refine ⟨_, drained, rfl, rfl, fun loops ended mustRun terminated all_returned => ?_⟩
  exact
    { once := by simpa using calm.once
      resolved := by
        intro i func given
        rcases calm.cases given with before | ⟨job, mem, rfl, rfl⟩
        · have absent : i ∉ s.jobs.map Job.promise := List.disjoint_of_nodup_append calm.distinct before
          show promises[i]? = _
          rw [uncalled i absent, calm.resolved i func given, if_pos before,
            if_pos (List.mem_append_left (s.jobs.map Job.promise) before)]
        · show promises[job.promise]? = _
          rw [called job mem, if_pos (List.mem_append_right s.calls (List.mem_map_of_mem mem))]
      ended := all_returned
      woken := fun some_job => absurd rfl some_job
      promised := length.trans calm.promised
      queued := fun job mem => absurd mem List.not_mem_nil
      returned := fun i _ func given => returns func (List.mem_of_getElem? given) }

/-- A job is put at the end of the queue, with a new promise. -/
theorem Calm.execute (calm : Calm funcs s) {loops : List Loop} (notified : NotifyOne s.loops loops)
    (func : Nat → Except ε α) : Calm (funcs ++ [func])
      { s with jobs := s.jobs ++ [⟨func, s.promises.length⟩], promises := Shared.make s.promises, loops } := by
  have bound : ∀ i ∈ s.calls, i < funcs.length := by
    intro i called
    have among := List.mem_append_left (s.jobs.map Job.promise) called
    rw [calm.once] at among
    exact List.mem_range.mp among
  have new {i : Nat} {func' : Nat → Except ε α} (given : (funcs ++ [func])[i]? = some func') :
      funcs[i]? = some func' ∨ i = funcs.length := by
    rcases Nat.lt_trichotomy i funcs.length with earlier | last | later
    · rw [List.getElem?_append_left earlier] at given
      exact .inl given
    · exact .inr last
    · rw [List.getElem?_eq_none (by rw [List.length_append, List.length_singleton]; omega)] at given
      cases given
  exact
    { once := by
        rw [List.map_append, ← List.append_assoc, calm.once, List.length_append, List.length_singleton, List.range_succ,
          List.map_singleton, calm.promised]
      resolved := by
        intro i func' given
        show (Shared.make s.promises)[i]? = _
        rcases new given with old | rfl
        · rw [Shared.make_old (by rw [calm.promised]; exact (List.getElem?_eq_some_iff.mp old).1)]
          exact calm.resolved i func' old
        · rw [if_neg fun called => Nat.lt_irrefl _ (bound _ called), ← calm.promised]
          exact Shared.make_new s.promises
      ended := calm.ended
      woken := fun _ => notified.ready
      promised := by simp [calm.promised]
      queued := by
        intro job mem
        rcases List.mem_append.mp mem with before | last
        · have given := calm.queued job before
          rwa [List.getElem?_append_left (List.getElem?_eq_some_iff.mp given).1]
        · rw [List.mem_singleton.mp last, calm.promised]
          simp
      returned := by
        intro i called func' given
        rw [List.getElem?_append_left (bound i called)] at given
        exact calm.returned i called func' given }

/-- A turn after which the thread waits or returns. -/
theorem Calm.iterate (calm : Calm funcs s) (returns : ∀ func ∈ funcs, ∃ result, func 0 = .ok result) (i : Nat) (loop : Loop) :
    Calm funcs (s.iterate i loop) := by
  obtain ⟨s', drained, ended, emptied, calm'⟩ := calm.drained returns
  unfold AsyncExecutor.iterate
  rw [drained]
  show Calm funcs (if s'.mustRun then _ else _)
  split
  · exact calm' _ s'.ended s'.mustRun s'.terminated (ended ▸ calm.ended)
  · refine calm' _ _ s'.mustRun s'.terminated fun r mem => ?_
    rcases List.mem_append.mp mem with before | now
    · exact calm.ended r (ended ▸ before)
    · rw [List.mem_singleton.mp now, emptied]

/-- A turn that meets a job that throws. -/
theorem Calm.iterate_raises (calm : Calm funcs s) {func : Nat → Except ε α} {e : ε} (given : func ∈ funcs)
    (throws : func 0 = .error e) (i : Nat) (loop : Loop) : ∃ e', .raised e' ∈ (s.iterate i loop).ended := by
  obtain ⟨n, given'⟩ := List.mem_iff_getElem?.mp given
  have queued : ∃ job ∈ s.jobs, ∃ e, job.func 0 = .error e := by
    rcases calm.cases given' with called | ⟨job, mem, -, rfl⟩
    · obtain ⟨result, returned⟩ := calm.returned n called func given'
      exact absurd (returned.symm.trans throws) (by simp)
    · exact ⟨job, mem, e, throws⟩
  obtain ⟨e', s', raised⟩ := drain_error calm.waiting queued
  refine ⟨e', ?_⟩
  unfold AsyncExecutor.iterate
  rw [raised]
  exact List.mem_append_right s'.ended (List.mem_singleton.mpr rfl)

/-- What the steps do without an exception. -/
theorem Calm.step {e : Event ε α} (calm : Calm funcs s) (step : Step s e s')
    (returns : ∀ i, e = .iterate i → ∀ func ∈ funcs, ∃ result, func 0 = .ok result) : Calm (funcs ++ e.submits) s' := by
  have ready_after {loops : List Loop} {loop : Loop} (mem : loop ∈ loops) (ready : loop.waiting = false) {mustRun : Bool} :
      Calm funcs { s with mustRun, loops } :=
    ⟨⟨calm.once, calm.resolved, calm.ended, fun _ _ => ⟨loop, mem, ready⟩⟩, calm.promised, calm.queued, calm.returned⟩
  have unsubmitted {s' : AsyncExecutor ε α} (kept : Calm funcs s') : Calm (funcs ++ []) s' := by rwa [List.append_nil]
  cases step with
  | execute on notified => exact calm.execute notified _
  | run on => exact unsubmitted (ready_after (List.mem_append_right s.loops (List.mem_singleton.mpr rfl)) rfl)
  | @iterate i loop on inside ready => exact unsubmitted (calm.iterate (returns i rfl) i loop)
  | wake on inside => exact unsubmitted (ready_after (List.mem_set (List.getElem?_eq_some_iff.mp inside).1 _) rfl)
  | stop on notified =>
    exact unsubmitted
      ⟨⟨calm.once, calm.resolved, calm.ended, fun _ => notified.ready⟩, calm.promised, calm.queued, calm.returned⟩
  | reset on =>
    exact unsubmitted ⟨⟨calm.once, calm.resolved, calm.ended, calm.woken⟩, calm.promised, calm.queued, calm.returned⟩

/-- How a thread has ended stays on record. -/
theorem ended_step {e : Event ε α} {r : Ended ε α} (step : Step s e s') (before : r ∈ s.ended) : r ∈ s'.ended := by
  cases step with
  | execute | run | wake | stop | reset => exact before
  | @iterate i loop on inside ready =>
    have kept : (after (drain s.jobs s)).ended = s.ended := drain_ended s.jobs s
    unfold AsyncExecutor.iterate
    cases outcome : drain s.jobs s with
    | ok _ s₁ =>
      rw [outcome] at kept
      rw [← kept] at before
      show r ∈ (if s₁.mustRun then _ else _ : AsyncExecutor ε α).ended
      split
      · exact before
      · exact List.mem_append_left _ before
    | error e s₁ =>
      rw [outcome] at kept
      rw [← kept] at before
      exact List.mem_append_left _ before

/-! ## Runs -/

theorem undisturbed_snoc (events : List (Event ε α)) (e : Event ε α) : Undisturbed (events ++ [e]) ↔
    Undisturbed events ∧ ∀ i, e = .iterate i → ∀ func ∈ submitted events, ∀ e, func 0 ≠ .error e := by
  constructor
  · refine fun calm => ⟨fun before i later same => ?_, fun i same => ?_⟩
    · exact calm before i (later ++ [e]) (by rw [same, List.append_assoc, List.cons_append])
    · exact calm events i [] (by rw [same])
  · rintro ⟨calm, last⟩ before i later same
    rcases List.eq_nil_or_concat later with rfl | ⟨later', e', rfl⟩
    · obtain ⟨rfl, only⟩ := List.append_inj' same rfl
      exact last i (List.singleton_inj.mp only)
    · rw [List.concat_eq_append, ← List.cons_append, ← List.append_assoc] at same
      obtain ⟨earlier, -⟩ := List.append_inj' same rfl
      exact calm before i later' earlier

/-- Runs in which all jobs return. -/
theorem undisturbed_of_returns {events : List (Event ε α)} (returns : ∀ func ∈ submitted events, ∃ result, func 0 = .ok result) :
    Undisturbed events := by
  rintro before i later rfl func mem e throws
  have among : func ∈ submitted (before ++ .iterate i :: later) := by
    rw [submitted, List.flatMap_append]
    exact List.mem_append_left _ mem
  obtain ⟨result, returned⟩ := returns func among
  exact absurd (returned.symm.trans throws) (by simp)

theorem runs {events : List (Event ε α)} (trace : Trace Step .initial events s) :
    (Undisturbed events ∧ Calm (submitted events) s) ∨ (¬ Undisturbed events ∧ ∃ e, .raised e ∈ s.ended) := by
  induction events using List.reverseRecOn generalizing s with
  | nil =>
    cases trace
    refine .inl ⟨fun before i later same => ?_, calm_initial⟩
    exact absurd same.symm (by simp)
  | append_singleton events e ih =>
    obtain ⟨s₁, first, second⟩ := trace.split
    obtain ⟨s₂, last, rest⟩ := second.uncons
    cases rest
    rw [undisturbed_snoc]
    rcases ih first with ⟨quiet, calm⟩ | ⟨disturbed, e', raised⟩
    · by_cases fine : ∀ i, e = .iterate i → ∀ func ∈ submitted events, ∀ e, func 0 ≠ .error e
      · refine .inl ⟨⟨quiet, fine⟩, ?_⟩
        have submits : submitted (events ++ [e]) = submitted events ++ e.submits := by simp [submitted]
        rw [submits]
        refine calm.step last fun i same func mem => ?_
        cases outcome : func 0 with
        | ok result => exact ⟨result, rfl⟩
        | error thrown => exact absurd outcome (fine i same func mem thrown)
      · refine .inr ⟨fun both => fine both.2, ?_⟩
        push Not at fine
        obtain ⟨i, rfl, func, mem, thrown, throws⟩ := fine
        cases last with
        | iterate on inside ready => exact calm.iterate_raises mem throws i _
    · exact .inr ⟨fun both => disturbed both.1, e', ended_step last raised⟩

/-- Every job is executed once and in order, its future has its result, and `run` leaves none,
in just the runs in which no job that throws is in the queue at a turn of the loop. -/
theorem executor_sound_iff {events : List (Event ε α)} (trace : Trace Step .initial events s) :
    Sound (submitted events) s ↔ Undisturbed events := by
  rcases runs trace with ⟨quiet, calm⟩ | ⟨disturbed, e, raised⟩
  · exact iff_of_true calm.toSound quiet
  · refine iff_of_false (fun sound => ?_) disturbed
    cases sound.ended _ raised

/-- A background thread executes a job and waits; another thread enters `run`, executes the
    second job and waits, and returns after `stop`. -/
theorem executor_sound_two : ∃ (events : List (Event Unit Nat)) (s : AsyncExecutor Unit Nat), Trace Step .initial events s ∧
    Sound (submitted events) s ∧ s.promises = [some (.value 7), some (.value 8)] ∧ s.ended = [.returned []] := by
  have trace : Trace Step (.initial : AsyncExecutor Unit Nat) [.execute fun _ => .ok 7, .run true, .iterate 0,
      .execute fun _ => .ok 8, .run false, .iterate 1, .stop, .iterate 1] _ :=
    .cons (.execute rfl (.nobody (by simp [initial]))) <| .cons (.run rfl) <| .cons (.iterate rfl rfl rfl) <|
    .cons (.execute rfl (.wakes (i := 0) rfl rfl)) <| .cons (.run rfl) <| .cons (.iterate rfl rfl rfl) <|
    .cons (.stop rfl (.wakes (i := 1) rfl rfl)) <| .single (.iterate rfl rfl rfl)
  refine ⟨_, _, trace, (executor_sound_iff trace).mpr (undisturbed_of_returns fun func mem => ?_), rfl, rfl⟩
  rcases List.mem_pair.mp mem with rfl | rfl
  · exact ⟨7, rfl⟩
  · exact ⟨8, rfl⟩

/-- A job that throws ends the background thread, and the program with it. -/
theorem executor_not_sound : ∃ (events : List (Event Unit Nat)) (s : AsyncExecutor Unit Nat),
    Trace Step .initial events s ∧ ¬ Sound (submitted events) s ∧ s.terminated = true ∧ s.promises = [none] := by
  refine ⟨[.execute fun _ => .error (), .run true, .iterate 0], _,
    .cons (.execute rfl (.nobody (by simp [initial]))) (.cons (.run rfl) (.single (.iterate rfl rfl rfl))),
    fun sound => ?_, rfl, rfl⟩
  exact absurd (sound.ended (.raised (.func ())) (List.mem_singleton.mpr rfl)) (by simp)

end Oac
