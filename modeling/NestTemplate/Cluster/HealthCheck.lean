import Mathlib
import NestTemplate.Cluster.Messaging
import NestTemplate.Common.Run

/-!
# The health check of a worker

`startHealthCheckOnWorker` subscribes to a pipeline of timers: a tick of the
`interval` opens a window in which the first status message, or a timer of 500
ms, decides the tick; the results are audited. A `Monitor` is the state of one
such subscription, and the functions below are what each of its callbacks does.
Timers fire when they are due or later, never before.

* `Monitor.observe`, `Monitor.audit`: `filter`, `tap`, `auditTime` and the verdict.
* `HealthCheck.Step`: one monitor, its worker and the messages between them.
* `passes_on_own_answer`: the runs in which a tick passes only on its own answer.
-/

namespace NestTemplate

open Common

/-- `ClusterConfig.healthCheckConfig`. -/
structure HealthCheckConfig where
  primaryCheckInterval : ℕ
  auditInterval : ℕ
  totalAttempts : ℕ
  /-- `(passedChecks / totalAttempts) * 100 >= thresholdPercentage`, in the arithmetic of doubles. -/
  thresholdMet : (passedChecks : ℕ) → Bool

/-- The `fork`-th worker that was forked for a `WorkerConfig`. -/
structure WorkerRef where
  config : Heap.Ref
  fork : ℕ
  deriving DecidableEq

/-- `auditState`, less its constants and a field nothing reads. -/
structure AuditState where
  isAuditing : Bool
  checks : ℕ
  passedChecks : ℕ
  lastFailed : Bool

namespace AuditState

def initial : AuditState := ⟨false, 0, 0, false⟩

/-- The body of `tap`. -/
def tap (a : AuditState) (result : Bool) : AuditState where
  isAuditing := true
  checks := a.checks + 1
  passedChecks := if result then a.passedChecks + 1 else a.passedChecks
  lastFailed := !result

end AuditState

/-- The subscription to the `race` of a tick. -/
structure Window where
  tick : ℕ
  /-- When `timer(500)` is due. -/
  deadline : ℕ
  /-- A status won the race, and the timer is gone. -/
  answered : Bool

/-- A `timer(10)` that has not sent its request yet. It belongs to nobody: not even
    `unsubscribe` clears it. -/
structure PendingRequest where
  tick : ℕ
  due : ℕ

/-- The subscription `auditSubscription` of one `startHealthCheckOnWorker`. -/
structure Monitor where
  worker : WorkerRef
  closed : Bool
  /-- When the `interval` is due, and how often it has fired. -/
  nextTick : ℕ
  ticks : ℕ
  window : Option Window
  requests : List PendingRequest
  auditState : AuditState
  /-- When the timer of `auditTime` is due, while one runs. -/
  auditDue : Option ℕ

namespace Monitor

variable (cfg : HealthCheckConfig) (now : ℕ)

/-- `startHealthCheckOnWorker`. -/
def start (worker : WorkerRef) : Monitor where
  worker := worker
  closed := false
  nextTick := now + cfg.primaryCheckInterval
  ticks := 0
  window := none
  requests := []
  auditState := .initial
  auditDue := none

/-- `switchMap`: the window of the previous tick closes, and the next one opens. -/
def tick (m : Monitor) : Monitor :=
  { m with
    nextTick := now + cfg.primaryCheckInterval
    ticks := m.ticks + 1
    window := some { tick := m.ticks, deadline := now + 500, answered := false }
    requests := m.requests ++ [{ tick := m.ticks, due := now + 10 }] }

/-- What the rest of the pipeline does with a result, down to the timer of `auditTime`. -/
def observe (result : Bool) (m : Monitor) : Monitor :=
  if result ∧ ¬ m.auditState.isAuditing then m
  else
    { m with
      auditState := m.auditState.tap result
      auditDue := some (m.auditDue.getD (now + cfg.auditInterval)) }

/-- A status message while the window is open. A race that a status has won goes on with the
    statuses that follow. -/
def status (ok : Bool) (m : Monitor) : Monitor :=
  match m.window with
  | some w => observe cfg now ok { m with window := some { w with answered := true } }
  | none => m

/-- `timer(500)` wins the race, which completes. -/
def timeout (m : Monitor) : Monitor := observe cfg now false { m with window := none }

/-- `auditSubscription.unsubscribe()`, or the end of the subscription by an error. -/
def close (m : Monitor) : Monitor := { m with closed := true, window := none, auditDue := none }

/-- The timer of `auditTime` fires. The second component says whether the worker is killed. -/
def audit (m : Monitor) : Monitor × Bool :=
  let m := { m with auditDue := none }
  if m.auditState.checks < cfg.totalAttempts then (m, false)
  else if cfg.thresholdMet m.auditState.passedChecks ∧ ¬ m.auditState.lastFailed then
    ({ m with auditState := .initial }, false)
  else (m.close, true)

/-- `timer(10)` fires: its request is sent, and gone. -/
def request (m : Monitor) : Monitor := { m with requests := m.requests.tail }

/-! ### When the timers fire -/

def TickDue (m : Monitor) : Prop := m.closed = false ∧ m.nextTick ≤ now

def RequestDue (m : Monitor) (tick : ℕ) : Prop :=
  ∃ r ∈ m.requests.head?, r.tick = tick ∧ r.due ≤ now

def TimeoutDue (m : Monitor) : Prop := ∃ w ∈ m.window, w.answered = false ∧ w.deadline ≤ now

def AuditDue (m : Monitor) : Prop := ∃ t ∈ m.auditDue, t ≤ now

instance (m : Monitor) : Decidable (m.TickDue now) := inferInstanceAs (Decidable (_ ∧ _))

instance (m : Monitor) (tick : ℕ) : Decidable (m.RequestDue now tick) :=
  inferInstanceAs (Decidable (∃ r ∈ m.requests.head?, _))

instance (m : Monitor) : Decidable (m.TimeoutDue now) :=
  inferInstanceAs (Decidable (∃ w ∈ m.window, _))

instance (m : Monitor) : Decidable (m.AuditDue now) :=
  inferInstanceAs (Decidable (∃ t ∈ m.auditDue, _))

/-! ### What the callbacks leave alone -/

@[simp] theorem observe_worker (result : Bool) (m : Monitor) :
    (m.observe cfg now result).worker = m.worker := by unfold observe; split <;> rfl

@[simp] theorem observe_closed (result : Bool) (m : Monitor) :
    (m.observe cfg now result).closed = m.closed := by unfold observe; split <;> rfl

/-- The timer of `auditTime` finds too few checks, or keeps the worker, or kills it. -/
theorem audit_cases (m : Monitor) :
    (m.auditState.checks < cfg.totalAttempts ∧
      m.audit cfg = ({ m with auditDue := none }, false)) ∨
    (cfg.totalAttempts ≤ m.auditState.checks ∧
      (cfg.thresholdMet m.auditState.passedChecks = true ∧ m.auditState.lastFailed = false) ∧
      m.audit cfg = ({ m with auditDue := none, auditState := .initial }, false)) ∨
    (cfg.totalAttempts ≤ m.auditState.checks ∧
      ¬ (cfg.thresholdMet m.auditState.passedChecks = true ∧ m.auditState.lastFailed = false) ∧
      m.audit cfg = (m.close, true)) := by
  unfold audit
  dsimp only
  split
  · rename_i hfew
    exact .inl ⟨hfew, rfl⟩
  · rename_i hmany
    simp only [Bool.not_eq_true]
    split
    · rename_i hmet
      exact .inr (.inl ⟨not_lt.mp hmany, hmet, rfl⟩)
    · rename_i hmet
      exact .inr (.inr ⟨not_lt.mp hmany, hmet, rfl⟩)

end Monitor

/-- `commandReceived.message.status === 'ok'`; `none` where it throws. -/
def statusOk : Json → Option Bool
  | .null => none
  | message => some (match message.get? "status" with
    | some (.str s) => s = "ok"
    | _ => false)

/-! ## A monitor, its worker and the messages between them -/

namespace HealthCheck

/-- Which request a worker answers: the one a tick sent, or one that a worker broadcast. -/
inductive Origin where
  | tick (k : ℕ)
  | broadcast
  deriving DecidableEq

/-- A status message of `checkOnCommand`. The message itself does not say what it answers. -/
structure Answer where
  origin : Origin
  ok : Bool
  deriving DecidableEq

/-- A result of `primaryCheckTimerObserver`: the tick whose window was open, and the status that
    decided it; `none` for the timer. -/
structure Result where
  tick : ℕ
  passed : Bool
  cause : Option Answer
  deriving DecidableEq

/-- `answers` and `results` record what the worker and the pipeline have put out. -/
structure State where
  now : ℕ
  monitor : Monitor
  /-- Requests on their way to the worker, or being worked on. -/
  requests : List Origin
  /-- Statuses on their way to the primary. -/
  statuses : List Answer
  answers : List Answer
  results : List Result

/-- What can happen next; messages take any time and overtake each other. -/
inductive Event where
  | elapse (ms : ℕ)
  | tick
  /-- The `timer(10)` of a tick; `worker.send` may throw. -/
  | request (tick : ℕ) (throws : Bool)
  | broadcast
  | answer (i : ℕ) (ok : Bool)
  | deliver (i : ℕ)
  | timeout
  | audit

def State.start (cfg : HealthCheckConfig) (now : ℕ) (worker : WorkerRef) : State where
  now := now
  monitor := .start cfg now worker
  requests := []
  statuses := []
  answers := []
  results := []

/-- The state after an event, if the event can happen. -/
def perform (cfg : HealthCheckConfig) (s : State) : Event → Option State
  | .elapse ms => some { s with now := s.now + ms }
  | .tick =>
    if s.monitor.TickDue s.now then some { s with monitor := s.monitor.tick cfg s.now } else none
  | .request k throws =>
    if s.monitor.RequestDue s.now k then
      some { s with
        monitor := s.monitor.request
        requests := if throws then s.requests else s.requests ++ [.tick k] }
    else none
  | .broadcast => some { s with requests := s.requests ++ [.broadcast] }
  | .answer i ok =>
    s.requests[i]?.map fun origin =>
      { s with
        requests := s.requests.eraseIdx i
        statuses := s.statuses ++ [⟨origin, ok⟩]
        answers := s.answers ++ [⟨origin, ok⟩] }
  | .deliver i =>
    s.statuses[i]?.map fun a =>
      { s with
        statuses := s.statuses.eraseIdx i
        monitor := s.monitor.status cfg s.now a.ok
        results := s.results ++ (s.monitor.window.map fun w => ⟨w.tick, a.ok, some a⟩).toList }
  | .timeout =>
    if s.monitor.TimeoutDue s.now then
      some { s with
        monitor := s.monitor.timeout cfg s.now
        results := s.results ++ (s.monitor.window.map fun w => ⟨w.tick, false, none⟩).toList }
    else none
  | .audit =>
    if s.monitor.AuditDue s.now then some { s with monitor := (s.monitor.audit cfg).1 } else none

def Step (cfg : HealthCheckConfig) (s : State) (e : Event) (t : State) : Prop :=
  perform cfg s e = some t

/-- A tick that passed was answered with `ok` itself, and did not pass by the answer to an earlier
    tick that had timed out. -/
def PassesOnOwnAnswer (s : State) : Prop :=
  ∀ r ∈ s.results, r.passed = true →
    ⟨.tick r.tick, true⟩ ∈ s.answers ∧
      ∀ j ok, r.cause = some ⟨.tick j, ok⟩ → j < r.tick → ⟨j, false, none⟩ ∉ s.results

/-- An `ok` that is delivered while a window is open answers the request of its tick. -/
def DeliversOwn (s : State) : Event → Prop
  | .deliver i => ∀ a ∈ s.statuses[i]?, a.ok = true →
      ∀ w ∈ s.monitor.window, a.origin = .tick w.tick
  | _ => True

instance (s : State) (e : Event) : Decidable (DeliversOwn s e) := by
  cases e <;> unfold DeliversOwn <;> infer_instance

variable {cfg : HealthCheckConfig} {s t : State} {e : Event}

/-- The statuses under way are answers, and every result that passed has its tick's. -/
structure Caused (s : State) : Prop where
  statuses : ∀ a ∈ s.statuses, a ∈ s.answers
  results : ∀ r ∈ s.results, r.passed = true →
    r.cause = some ⟨.tick r.tick, true⟩ ∧ ⟨.tick r.tick, true⟩ ∈ s.answers

theorem Caused.step (h : Caused s) (hown : DeliversOwn s e) (hstep : Step cfg s e t) : Caused t := by
  unfold Step at hstep
  cases e with
  | elapse | broadcast =>
    cases hstep
    exact ⟨h.statuses, h.results⟩
  | tick | request | audit =>
    simp only [perform] at hstep
    split at hstep <;> cases hstep
    exact ⟨h.statuses, h.results⟩
  | answer i ok =>
    obtain ⟨origin, -, rfl⟩ := Option.map_eq_some_iff.mp hstep
    refine ⟨fun a ha => ?_, fun r hr hp => ?_⟩
    · rcases List.mem_append.mp ha with ha | ha
      · exact List.mem_append_left _ (h.statuses a ha)
      · exact List.mem_append_right _ ha
    · obtain ⟨hcause, hanswer⟩ := h.results r hr hp
      exact ⟨hcause, List.mem_append_left _ hanswer⟩
  | deliver i =>
    obtain ⟨a, ha, rfl⟩ := Option.map_eq_some_iff.mp hstep
    refine ⟨fun b hb => h.statuses b (List.mem_of_mem_eraseIdx hb), fun r hr hp => ?_⟩
    rcases List.mem_append.mp hr with hr | hr
    · exact h.results r hr hp
    · obtain ⟨w, hw, rfl⟩ := Option.map_eq_some_iff.mp (Option.mem_toList.mp hr)
      have horigin := hown a ha hp w hw
      have hanswer := h.statuses a (List.mem_of_getElem? ha)
      obtain ⟨origin, ok⟩ := a
      obtain rfl : origin = .tick w.tick := horigin
      obtain rfl : ok = true := hp
      exact ⟨rfl, hanswer⟩
  | timeout =>
    simp only [perform] at hstep
    split at hstep <;> cases hstep
    refine ⟨h.statuses, fun r hr hp => ?_⟩
    rcases List.mem_append.mp hr with hr | hr
    · exact h.results r hr hp
    · obtain ⟨w, -, rfl⟩ := Option.map_eq_some_iff.mp (Option.mem_toList.mp hr)
      cases hp

/-- **Main theorem**: in a run that delivers no other `ok` into an open window, every tick that
    passes does so on its own answer. -/
theorem passes_on_own_answer {now : ℕ} {worker : WorkerRef} {es : List Event}
    (hrun : Run (Step cfg) (.start cfg now worker) es t)
    (hown : Along (Step cfg) DeliversOwn (.start cfg now worker) es) : PassesOnOwnAnswer t := by
  have hstart : Caused (.start cfg now worker) :=
    ⟨fun _ h => absurd h List.not_mem_nil, fun _ h => absurd h List.not_mem_nil⟩
  have hcaused : Caused t := hrun.invariant_along (fun _ _ _ h hp hs => h.step hp hs) hown hstart
  intro r hr hp
  obtain ⟨hcause, hanswer⟩ := hcaused.results r hr hp
  refine ⟨hanswer, fun j ok hj hlt => ?_⟩
  rw [hcause] at hj
  cases hj
  omega

/-- Any `ok` that arrives while a window is open makes its tick pass. -/
theorem deliver_passes {i : ℕ} {a : Answer} {w : Window} (ha : s.statuses[i]? = some a)
    (hok : a.ok = true) (hw : s.monitor.window = some w) :
    ∃ t, Step cfg s (.deliver i) t ∧ ⟨w.tick, true, some a⟩ ∈ t.results := by
  refine ⟨_, by rw [Step, perform, ha, Option.map_some], ?_⟩
  rw [hw, hok]
  simp

namespace Sample

/-- The default configuration: checks every 2 s, 80 % of 15 of them. -/
def config : HealthCheckConfig where
  primaryCheckInterval := 2000
  auditInterval := 2000
  totalAttempts := 15
  thresholdMet passedChecks := passedChecks * 100 ≥ 80 * 15

/-- The monitor of the first worker of the first CPU, from time 0. -/
def start : State := .start config 0 ⟨0, 0⟩

/-- The answer to the first tick comes after 30 ms. -/
def promptRun : List Event :=
  [.elapse 2000, .tick, .elapse 10, .request 0 false, .elapse 10, .answer 0 true, .elapse 10,
    .deliver 0]

/-- The answer to the first tick comes 3 ms after the second one. -/
def lateRun : List Event :=
  [.elapse 2000, .tick, .elapse 10, .request 0 false, .elapse 490, .timeout, .elapse 1000,
    .answer 0 true, .elapse 500, .tick, .elapse 3, .deliver 0]

end Sample

theorem passes_on_own_answer_sample :
    ∃ t, Run (Step Sample.config) Sample.start Sample.promptRun t ∧ PassesOnOwnAnswer t := by
  obtain ⟨t, ht⟩ := Option.isSome_iff_exists.mp
    (show (runAll (perform Sample.config) Sample.start Sample.promptRun).isSome = true by decide)
  exact ⟨t, run_runAll ht, passes_on_own_answer (run_runAll ht)
    (along_of_checkAlong (p := fun s e => decide (DeliversOwn s e)) (fun _ _ => of_decide_eq_true)
      (by decide))⟩

/-- The second tick passes on the answer to the first, which has timed out; its own request has
    not even been sent. -/
theorem passes_on_late_answer :
    ∃ t, Run (Step Sample.config) Sample.start Sample.lateRun t ∧ ¬ PassesOnOwnAnswer t := by
  obtain ⟨t, ht⟩ := Option.isSome_iff_exists.mp
    (show (runAll (perform Sample.config) Sample.start Sample.lateRun).isSome = true by decide)
  have hresults : (runAll (perform Sample.config) Sample.start Sample.lateRun).map
      (fun t => (t.results, t.answers)) = some
        ([⟨0, false, none⟩, ⟨1, true, some ⟨.tick 0, true⟩⟩], [⟨.tick 0, true⟩]) := by decide
  rw [ht] at hresults
  obtain ⟨hr, ha⟩ := Prod.mk.inj (Option.some.inj hresults)
  refine ⟨t, run_runAll ht, fun h => ?_⟩
  obtain ⟨hanswer, -⟩ := h ⟨1, true, some ⟨.tick 0, true⟩⟩ (by rw [hr]; decide) rfl
  rw [ha] at hanswer
  revert hanswer
  decide

end HealthCheck

end NestTemplate
