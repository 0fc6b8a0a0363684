import NestTemplate.Cluster.HealthCheck

/-!
# The verdict of the health audit

`tap` counts every check, and `auditTime` looks at the counters at its own
pace, so more checks than `totalAttempts` can be in the audit when it decides.
A `State` is the monitor with the results since the last reset; a flush of
`auditTime` may come at any time while its timer runs.

* `Counted.run`: the counters are those of the results since the audit started.
* `sound_iff`: the runs in which every verdict is right.
* `follows_run`: the timers and messages of `HealthCheck` make such runs.
* `passing_never_killed`: a worker whose checks all pass is never killed.
-/

namespace NestTemplate

open Common

/-- A configuration whose ratios are exact. The attempts need not be a whole number. -/
def HealthCheckConfig.exact (primaryCheckInterval auditInterval : ℕ)
    (totalAttempts thresholdPercentage : ℚ) : HealthCheckConfig where
  primaryCheckInterval := primaryCheckInterval
  auditInterval := auditInterval
  totalAttempts := ⌈totalAttempts⌉₊
  thresholdMet passedChecks := passedChecks / totalAttempts * 100 ≥ thresholdPercentage

namespace Audit

/-- `history` records the results since the last reset. -/
structure State where
  monitor : Monitor
  history : List Bool

/-- A result of `primaryCheckTimerObserver`, or the timer of `auditTime`. -/
inductive Event where
  | check (now : ℕ) (result : Bool)
  | flush

def State.start (cfg : HealthCheckConfig) (now : ℕ) (worker : WorkerRef) : State where
  monitor := .start cfg now worker
  history := []

/-- The state after an event, if the event can happen. -/
def perform (cfg : HealthCheckConfig) (s : State) : Event → Option State
  | .check now result =>
    if s.monitor.closed then none
    else some { monitor := s.monitor.observe cfg now result, history := s.history ++ [result] }
  | .flush =>
    if s.monitor.auditDue.isSome then
      some { monitor := (s.monitor.audit cfg).1
             history := if cfg.totalAttempts ≤ s.monitor.auditState.checks ∧
               (s.monitor.audit cfg).2 = false then [] else s.history }
    else none

def Step (cfg : HealthCheckConfig) (s : State) (e : Event) (t : State) : Prop :=
  perform cfg s e = some t

/-! ## What a verdict should be -/

/-- The checks since the audit started: it starts with the first one that fails. -/
def window (history : List Bool) : List Bool := history.dropWhile id

/-- The last check passed, and so did `thresholdPercentage` of all of them. -/
def Passing (thresholdPercentage : ℚ) (checks : List Bool) : Prop :=
  checks.getLast? = some true ∧ thresholdPercentage * checks.length ≤ 100 * checks.count true

/-- Outside an audit a passing check changes nothing. A flush with enough checks keeps the worker
    and resets the audit if it is passing, and kills the worker otherwise; a worker is killed only
    after a check that failed. -/
def Sound (cfg : HealthCheckConfig) (totalAttempts thresholdPercentage : ℚ) (s : State) :
    Event → Prop
  | .check now result =>
    false ∉ s.history → result = true → s.monitor.observe cfg now result = s.monitor
  | .flush =>
    (totalAttempts ≤ (window s.history).length →
      (Passing thresholdPercentage (window s.history) →
        (s.monitor.audit cfg).2 = false ∧ (s.monitor.audit cfg).1.auditState = .initial) ∧
      (¬ Passing thresholdPercentage (window s.history) → (s.monitor.audit cfg).2 = true)) ∧
    ((s.monitor.audit cfg).2 = true → false ∈ s.history)

/-- No flush finds enough checks, the last one passed, and as many passed as `totalAttempts` would
    need, but not as many as were made. -/
def Unambiguous (totalAttempts thresholdPercentage : ℚ) (s : State) : Event → Prop
  | .check _ _ => True
  | .flush => ¬ (totalAttempts ≤ (window s.history).length ∧
      (window s.history).getLast? = some true ∧
      thresholdPercentage * totalAttempts ≤ 100 * (window s.history).count true ∧
      100 * (window s.history).count true < thresholdPercentage * (window s.history).length)

/-! ## The counters -/

/-- The state of an audit after these results. -/
def summary (history : List Bool) : AuditState where
  isAuditing := false ∈ history
  checks := (window history).length
  passedChecks := (window history).count true
  lastFailed := (window history).getLast? = some false

theorem window_eq_nil {history : List Bool} : window history = [] ↔ false ∉ history := by
  rw [window, List.dropWhile_eq_nil_iff]
  constructor
  · exact fun h hmem => Bool.false_ne_true (h false hmem)
  · rintro h (_ | _) hb
    · exact absurd hb h
    · rfl

theorem summary_of_notMem {history : List Bool} (h : false ∉ history) :
    summary history = .initial := by
  unfold summary
  rw [window_eq_nil.mpr h, decide_eq_false h]
  rfl

/-- A check that fails starts the audit, and one inside it goes on with it. -/
theorem window_append {history : List Bool} {result : Bool}
    (h : false ∈ history ++ [result]) : window (history ++ [result]) = window history ++ [result] := by
  rw [window, List.dropWhile_append]
  split
  · rename_i hnil
    have hnone := window_eq_nil.mp (List.isEmpty_iff.mp hnil)
    obtain rfl : false = result := by simpa [hnone] using h
    rw [window_eq_nil.mpr hnone]
    rfl
  · rfl

theorem tap_summary {history : List Bool} {result : Bool} (h : false ∈ history ++ [result]) :
    (summary history).tap result = summary (history ++ [result]) := by
  unfold summary AuditState.tap
  rw [window_append h, decide_eq_true h]
  cases result <;> simp

/-- The audit's state is that of the results since the last reset. -/
def Counted (s : State) : Prop := s.monitor.auditState = summary s.history

variable {cfg : HealthCheckConfig} {s t : State} {e : Event}

theorem Counted.observe (h : Counted s) (now : ℕ) (result : Bool) :
    (s.monitor.observe cfg now result).auditState = summary (s.history ++ [result]) := by
  have hauditing : s.monitor.auditState.isAuditing = decide (false ∈ s.history) := by rw [h]; rfl
  unfold Monitor.observe
  rw [hauditing]
  split
  · rename_i hpass
    have hnone : false ∉ s.history := by simpa using hpass.2
    rw [h, summary_of_notMem hnone, summary_of_notMem]
    simp [hnone, hpass.1]
  · rename_i hpass
    have hmem : false ∈ s.history ++ [result] := by
      by_contra hnone
      simp only [List.mem_append, List.mem_singleton, not_or] at hnone
      exact hpass ⟨by simpa using hnone.2, by simpa using hnone.1⟩
    rw [h]
    exact tap_summary hmem

theorem Counted.step (h : Counted s) (hstep : Step cfg s e t) : Counted t := by
  unfold Step at hstep
  cases e with
  | check now result =>
    rw [perform] at hstep
    split at hstep <;> cases hstep
    exact h.observe now result
  | flush =>
    rw [perform] at hstep
    split at hstep <;> cases hstep
    unfold Counted
    rcases s.monitor.audit_cases cfg with ⟨hfew, haudit⟩ | ⟨hmany, -, haudit⟩ | ⟨-, -, haudit⟩
    · rw [haudit, if_neg (by rintro ⟨hmany, -⟩; omega)]
      exact h
    · rw [haudit, if_pos ⟨hmany, rfl⟩]
      rfl
    · rw [haudit, if_neg (by rintro ⟨-, ⟨⟩⟩)]
      exact h

theorem Counted.run {now : ℕ} {worker : WorkerRef} {es : List Event}
    (h : Run (Step cfg) (.start cfg now worker) es s) : Counted s :=
  h.invariant (P := Counted) (fun _ _ _ h hs => h.step hs) rfl

/-! ## The verdict -/

/-- A passing check outside an audit goes no further than the filter. -/
theorem Counted.observe_passing (h : Counted s) (hnone : false ∉ s.history) (now : ℕ) :
    s.monitor.observe cfg now true = s.monitor := by
  have hauditing : s.monitor.auditState.isAuditing = false := by
    rw [h, summary_of_notMem hnone]
    rfl
  rw [Monitor.observe, hauditing]
  exact if_pos ⟨rfl, Bool.false_ne_true⟩

/-- A worker is killed iff there are enough checks, and too few passed or the last one failed. -/
theorem Counted.killed_iff (h : Counted s) :
    (s.monitor.audit cfg).2 = true ↔ cfg.totalAttempts ≤ (window s.history).length ∧
      (cfg.thresholdMet ((window s.history).count true) = false ∨
        (window s.history).getLast? = some false) := by
  have hcases := s.monitor.audit_cases cfg
  rw [h] at hcases
  simp only [summary, decide_eq_false_iff_not] at hcases
  rcases hcases with ⟨hfew, haudit⟩ | ⟨hmany, hmet, haudit⟩ | ⟨hmany, hmet, haudit⟩
  · rw [haudit]
    exact iff_of_false Bool.false_ne_true fun hmany => absurd hmany.1 (not_le.mpr hfew)
  · rw [haudit]
    refine iff_of_false Bool.false_ne_true ?_
    rintro ⟨-, hfailed | hfailed⟩
    · exact Bool.false_ne_true (hfailed.symm.trans hmet.1)
    · exact hmet.2 hfailed
  · rw [haudit]
    rw [not_and_or, Bool.not_eq_true, not_not] at hmet
    exact iff_of_true rfl ⟨hmany, hmet⟩

/-- A worker that is kept after enough checks starts over. -/
theorem Counted.auditState_of_kept (h : Counted s)
    (hmany : cfg.totalAttempts ≤ (window s.history).length)
    (hkept : (s.monitor.audit cfg).2 = false) :
    (s.monitor.audit cfg).1.auditState = .initial := by
  have hchecks : s.monitor.auditState.checks = (window s.history).length := by rw [h]; rfl
  rcases s.monitor.audit_cases cfg with ⟨hfew, -⟩ | ⟨-, -, haudit⟩ | ⟨-, -, haudit⟩
  · omega
  · rw [haudit]
  · rw [haudit] at hkept
    cases hkept

/-- Only a worker with a failed check is killed. -/
theorem Counted.mem_of_killed (h : Counted s) (hattempts : 1 ≤ cfg.totalAttempts)
    (hkilled : (s.monitor.audit cfg).2 = true) : false ∈ s.history := by
  by_contra hnone
  have hmany := (h.killed_iff.mp hkilled).1
  rw [window_eq_nil.mpr hnone, List.length_nil] at hmany
  omega

/-! ## When the verdict is right -/

section

variable {primaryCheckInterval auditInterval : ℕ} {totalAttempts thresholdPercentage : ℚ}

theorem thresholdMet_exact (h : 0 < totalAttempts) (passedChecks : ℕ) :
    (HealthCheckConfig.exact primaryCheckInterval auditInterval totalAttempts
      thresholdPercentage).thresholdMet passedChecks = true ↔
        thresholdPercentage * totalAttempts ≤ 100 * passedChecks := by
  rw [HealthCheckConfig.exact, decide_eq_true_eq, ge_iff_le, div_mul_eq_mul_div, le_div_iff₀ h,
    mul_comm (100 : ℚ)]

/-- What passes for the checks that were made passes for `totalAttempts` too. -/
theorem met_of_passing {checks : List Bool} (h : 1 ≤ totalAttempts)
    (hmany : totalAttempts ≤ checks.length) (hpassing : Passing thresholdPercentage checks) :
    thresholdPercentage * totalAttempts ≤ 100 * checks.count true := by
  rcases le_total 0 thresholdPercentage with hpos | hneg
  · exact (mul_le_mul_of_nonneg_left hmany hpos).trans hpassing.2
  · calc thresholdPercentage * totalAttempts ≤ 0 :=
          mul_nonpos_of_nonpos_of_nonneg hneg (zero_le_one.trans h)
      _ ≤ 100 * checks.count true := by positivity

theorem one_le_totalAttempts_exact (h : 1 ≤ totalAttempts) :
    1 ≤ (HealthCheckConfig.exact primaryCheckInterval auditInterval totalAttempts
      thresholdPercentage).totalAttempts :=
  Nat.one_le_iff_ne_zero.mpr (Nat.ceil_pos.mpr (zero_lt_one.trans_le h)).ne'

/-- When the audit decides, the worker is kept iff the counters say so: enough checks passed for
    `totalAttempts` of them, and the last one did. -/
theorem Counted.killed_exact_iff (h : Counted s) (hattempts : 1 ≤ totalAttempts)
    (hmany : totalAttempts ≤ (window s.history).length) :
    (s.monitor.audit (.exact primaryCheckInterval auditInterval totalAttempts
      thresholdPercentage)).2 = true ↔
        ¬ (thresholdPercentage * totalAttempts ≤ 100 * (window s.history).count true ∧
          (window s.history).getLast? = some true) := by
  have hmany' : (HealthCheckConfig.exact primaryCheckInterval auditInterval totalAttempts
    thresholdPercentage).totalAttempts ≤ (window s.history).length := Nat.ceil_le.mpr hmany
  have hlast : (window s.history).getLast? = some false ↔
      ¬ (window s.history).getLast? = some true := by
    cases hget : (window s.history).getLast? with
    | none =>
      have hone := (one_le_totalAttempts_exact hattempts).trans hmany'
      rw [List.getLast?_eq_none_iff.mp hget] at hone
      cases hone
    | some b => cases b <;> simp
  rw [h.killed_iff, hlast, ← Bool.not_eq_true, thresholdMet_exact (zero_lt_one.trans_le hattempts),
    not_and_or]
  exact and_iff_right hmany'

/-- In a state whose counters are right, a verdict is right iff it is unambiguous. -/
theorem Counted.sound_step_iff (h : Counted s) (hattempts : 1 ≤ totalAttempts) :
    Sound (.exact primaryCheckInterval auditInterval totalAttempts thresholdPercentage)
        totalAttempts thresholdPercentage s e ↔
      Unambiguous totalAttempts thresholdPercentage s e := by
  cases e with
  | check now result =>
    refine ⟨fun _ => trivial, fun _ hnone hresult => ?_⟩
    rw [hresult]
    exact h.observe_passing hnone now
  | flush =>
    constructor
    · rintro ⟨hverdict, -⟩ ⟨hmany, hlast, hthreshold, hfew⟩
      have hnot : ¬ Passing thresholdPercentage (window s.history) := fun hp => hfew.not_ge hp.2
      exact (h.killed_exact_iff hattempts hmany).mp ((hverdict hmany).2 hnot) ⟨hthreshold, hlast⟩
    · intro hunambiguous
      refine ⟨fun hmany => ⟨fun hpassing => ?_, fun hnot => ?_⟩,
        h.mem_of_killed (one_le_totalAttempts_exact hattempts)⟩
      · have hkept : (s.monitor.audit (.exact primaryCheckInterval auditInterval totalAttempts
            thresholdPercentage)).2 = false := by
          rw [← Bool.not_eq_true, h.killed_exact_iff hattempts hmany, not_not]
          exact ⟨met_of_passing hattempts hmany hpassing, hpassing.1⟩
        exact ⟨hkept, h.auditState_of_kept (Nat.ceil_le.mpr hmany) hkept⟩
      · rw [h.killed_exact_iff hattempts hmany]
        rintro ⟨hthreshold, hlast⟩
        exact hunambiguous ⟨hmany, hlast, hthreshold,
          not_le.mp fun hratio => hnot ⟨hlast, hratio⟩⟩

/-- **Main theorem**: every verdict of a run is right iff every flush in it is unambiguous. -/
theorem sound_iff (hattempts : 1 ≤ totalAttempts) (now : ℕ) (worker : WorkerRef)
    (es : List Event) :
    Along (Step (.exact primaryCheckInterval auditInterval totalAttempts thresholdPercentage))
        (Sound (.exact primaryCheckInterval auditInterval totalAttempts thresholdPercentage)
          totalAttempts thresholdPercentage)
        (.start (.exact primaryCheckInterval auditInterval totalAttempts thresholdPercentage) now
          worker) es ↔
      Along (Step (.exact primaryCheckInterval auditInterval totalAttempts thresholdPercentage))
        (Unambiguous totalAttempts thresholdPercentage)
        (.start (.exact primaryCheckInterval auditInterval totalAttempts thresholdPercentage) now
          worker) es := by
  constructor
  · exact fun h pre e post m hes hrun =>
      ((Counted.run hrun).sound_step_iff hattempts).mp (h pre e post m hes hrun)
  · exact fun h pre e post m hes hrun =>
      ((Counted.run hrun).sound_step_iff hattempts).mpr (h pre e post m hes hrun)

end

namespace Sample

/-- The default configuration: 80 % of 15 attempts. -/
def config : HealthCheckConfig := .exact 2000 2000 15 80

def start : State := .start config 0 ⟨0, 0⟩

/-- Eight pairs of checks, of which the first `failed` ones fail; a flush follows each pair. -/
def pairs (failed : ℕ) : List Event :=
  (List.range 8).flatMap fun i =>
    [.check (4000 * i + 2000) (failed ≤ i), .check (4000 * i + 4000) (failed ≤ i), .flush]

end Sample

instance (totalAttempts thresholdPercentage : ℚ) (s : State) (e : Event) :
    Decidable (Unambiguous totalAttempts thresholdPercentage s e) := by
  cases e <;> unfold Unambiguous <;> infer_instance

theorem sound_iff_sample :
    Along (Step Sample.config) (Sound Sample.config 15 80) Sample.start (Sample.pairs 1) :=
  (sound_iff (by norm_num) 0 ⟨0, 0⟩ (Sample.pairs 1)).mpr
    (along_of_checkAlong (p := fun s e => decide (Unambiguous 15 80 s e))
      (fun _ _ => of_decide_eq_true) (by decide +kernel))

/-- Of the 16 checks of an audit 12 passed, which are 80 % of 15, but 75 % of 16: the worker is
    kept. -/
theorem kept_below_threshold :
    (∃ s, Run (Step Sample.config) Sample.start (Sample.pairs 2) s ∧ s.monitor.closed = false ∧
      s.monitor.auditState.isAuditing = false) ∧
    ¬ Along (Step Sample.config) (Sound Sample.config 15 80) Sample.start (Sample.pairs 2) := by
  constructor
  · obtain ⟨s, hs⟩ := Option.isSome_iff_exists.mp
      (show (runAll (perform Sample.config) Sample.start (Sample.pairs 2)).isSome = true by
        decide)
    have hkept : (runAll (perform Sample.config) Sample.start (Sample.pairs 2)).map (fun s =>
        (s.monitor.closed, s.monitor.auditState.isAuditing)) = some (false, false) := by
      decide +kernel
    rw [hs] at hkept
    obtain ⟨hclosed, hauditing⟩ := Prod.mk.inj (Option.some.inj hkept)
    exact ⟨s, run_runAll hs, hclosed, hauditing⟩
  · intro h
    -- the last flush finds the 16 checks
    obtain ⟨m, hm⟩ := Option.isSome_iff_exists.mp
      (show (runAll (perform Sample.config) Sample.start ((Sample.pairs 2).take 23)).isSome = true by
        decide)
    have hambiguous : (runAll (perform Sample.config) Sample.start ((Sample.pairs 2).take 23)).all
        (fun m => decide (¬ Unambiguous 15 80 m .flush)) = true := by decide +kernel
    rw [hm, Option.all_some, decide_eq_true_eq] at hambiguous
    exact hambiguous (((Counted.run (run_runAll hm)).sound_step_iff (by norm_num)).mp
      (h _ .flush [] m rfl (run_runAll hm)))

/-! ## The audits of the health check -/

/-- The audit `a` has seen the results of the pipeline since the last reset. -/
structure Follows (s : HealthCheck.State) (a : State) : Prop where
  auditState : a.monitor.auditState = s.monitor.auditState
  auditDue : a.monitor.auditDue = s.monitor.auditDue
  closed : a.monitor.closed = s.monitor.closed
  history : a.history <:+ s.results.map (·.passed)
  /-- A subscription that is closed has no window any more. -/
  window : s.monitor.closed = true → s.monitor.window = none

theorem observe_congr (cfg : HealthCheckConfig) {m m' : Monitor} (now : ℕ) (result : Bool)
    (hstate : m.auditState = m'.auditState) (hdue : m.auditDue = m'.auditDue) :
    (m.observe cfg now result).auditState = (m'.observe cfg now result).auditState ∧
      (m.observe cfg now result).auditDue = (m'.observe cfg now result).auditDue := by
  unfold Monitor.observe
  rw [hstate, hdue]
  split
  · exact ⟨hstate, hdue⟩
  · exact ⟨rfl, rfl⟩

theorem audit_congr (cfg : HealthCheckConfig) {m m' : Monitor} (hstate : m.auditState = m'.auditState)
    (hclosed : m.closed = m'.closed) :
    ((m.audit cfg).1.auditState = (m'.audit cfg).1.auditState ∧
      (m.audit cfg).1.auditDue = (m'.audit cfg).1.auditDue) ∧
      (m.audit cfg).1.closed = (m'.audit cfg).1.closed ∧ (m.audit cfg).2 = (m'.audit cfg).2 := by
  unfold Monitor.audit
  dsimp only
  rw [hstate]
  split
  · exact ⟨⟨rfl, rfl⟩, hclosed, rfl⟩
  · split
    · exact ⟨⟨rfl, rfl⟩, hclosed, rfl⟩
    · exact ⟨⟨rfl, rfl⟩, rfl, rfl⟩

/-- A result of the pipeline is a check of the audit. -/
theorem Follows.check {hs ht : HealthCheck.State} {a : State} {m : Monitor} {r : HealthCheck.Result}
    (h : Follows hs a) (hopen : hs.monitor.window ≠ none)
    (hm : m.auditState = hs.monitor.auditState ∧ m.auditDue = hs.monitor.auditDue ∧
      m.closed = hs.monitor.closed)
    (hmonitor : ht.monitor = m.observe cfg hs.now r.passed)
    (hresults : ht.results = hs.results ++ [r]) :
    ∃ es a', Run (Step cfg) a es a' ∧ Follows ht a' := by
  have hclosed : hs.monitor.closed = false := by
    by_contra hc
    exact hopen (h.window (by simpa using hc))
  obtain ⟨hstate, hdue⟩ := observe_congr cfg hs.now r.passed
    (h.auditState.trans hm.1.symm) (h.auditDue.trans hm.2.1.symm)
  have hstep : Step cfg a (.check hs.now r.passed) { monitor := a.monitor.observe cfg hs.now r.passed
                                                     history := a.history ++ [r.passed] } := by
    rw [Step, perform, h.closed, hclosed]
    rfl
  refine ⟨_, _, .cons hstep (.nil _), ?_⟩
  have hopen' : ht.monitor.closed = false := by
    rw [hmonitor, Monitor.observe_closed, hm.2.2, hclosed]
  refine ⟨by rw [hmonitor]; exact hstate, by rw [hmonitor]; exact hdue, ?_, ?_, ?_⟩
  · rw [hopen']
    exact (Monitor.observe_closed ..).trans (h.closed.trans hclosed)
  · obtain ⟨old, hold⟩ := h.history
    exact ⟨old, by rw [hresults, List.map_append, ← hold, List.append_assoc]; rfl⟩
  · rw [hopen']
    exact fun hc => absurd hc Bool.false_ne_true

/-- The timer of `auditTime` is a flush. -/
theorem Follows.flush {hs : HealthCheck.State} {a : State} (h : Follows hs a)
    (hdue : hs.monitor.auditDue ≠ none) :
    ∃ es a', Run (Step cfg) a es a' ∧
      Follows { hs with monitor := (hs.monitor.audit cfg).1 } a' := by
  have hsome : a.monitor.auditDue.isSome = true := by
    rw [h.auditDue]
    exact Option.isSome_iff_ne_none.mpr hdue
  obtain ⟨⟨hstate, hdue'⟩, hclosed, -⟩ := audit_congr cfg h.auditState h.closed
  have hstep : Step cfg a .flush { monitor := (a.monitor.audit cfg).1
                                   history := if cfg.totalAttempts ≤ a.monitor.auditState.checks ∧
                                     (a.monitor.audit cfg).2 = false then [] else a.history } := by
    rw [Step, perform, if_pos hsome]
  refine ⟨_, _, .cons hstep (.nil _), hstate, hdue', hclosed, ?_, ?_⟩
  · dsimp only
    split
    · exact List.nil_suffix
    · exact h.history
  · dsimp only
    rcases hs.monitor.audit_cases cfg with ⟨-, haudit⟩ | ⟨-, -, haudit⟩ | ⟨-, -, haudit⟩ <;>
      rw [haudit]
    · exact h.window
    · exact h.window
    · exact fun _ => rfl

/-- An event of the health check is an event of the audit, or none. -/
theorem Follows.step {hs ht : HealthCheck.State} {he : HealthCheck.Event} {a : State}
    (h : Follows hs a) (hstep : HealthCheck.Step cfg hs he ht) :
    ∃ es a', Run (Step cfg) a es a' ∧ Follows ht a' := by
  unfold HealthCheck.Step at hstep
  cases he with
  | elapse | broadcast =>
    cases hstep
    exact ⟨[], a, .nil a, h.auditState, h.auditDue, h.closed, h.history, h.window⟩
  | tick =>
    rw [HealthCheck.perform] at hstep
    split at hstep <;> cases hstep
    rename_i hdue
    exact ⟨[], a, .nil a, h.auditState, h.auditDue, h.closed, h.history,
      fun hc => absurd (hdue.1.symm.trans hc) Bool.false_ne_true⟩
  | request =>
    rw [HealthCheck.perform] at hstep
    split at hstep <;> cases hstep
    exact ⟨[], a, .nil a, h.auditState, h.auditDue, h.closed, h.history, h.window⟩
  | answer i ok =>
    obtain ⟨origin, -, rfl⟩ := Option.map_eq_some_iff.mp hstep
    exact ⟨[], a, .nil a, h.auditState, h.auditDue, h.closed, h.history, h.window⟩
  | deliver i =>
    obtain ⟨b, -, rfl⟩ := Option.map_eq_some_iff.mp hstep
    cases hw : hs.monitor.window with
    | none =>
      have hsame : hs.monitor.status cfg hs.now b.ok = hs.monitor := by rw [Monitor.status, hw]
      refine ⟨[], a, .nil a, ?_⟩
      rw [hsame, Option.map_none, Option.toList_none, List.append_nil]
      exact ⟨h.auditState, h.auditDue, h.closed, h.history, h.window⟩
    | some w =>
      exact h.check (m := { hs.monitor with window := some { w with answered := true } })
        (r := ⟨w.tick, b.ok, some b⟩) (by rw [hw]; rintro ⟨⟩) ⟨rfl, rfl, rfl⟩
        (by simp only [Monitor.status, hw]) rfl
  | timeout =>
    rw [HealthCheck.perform] at hstep
    split at hstep <;> cases hstep
    rename_i hdue
    obtain ⟨w, hw, -⟩ := hdue
    have hw : hs.monitor.window = some w := hw
    exact h.check (m := { hs.monitor with window := none }) (r := ⟨w.tick, false, none⟩)
      (by rw [hw]; rintro ⟨⟩) ⟨rfl, rfl, rfl⟩ rfl (by dsimp only; rw [hw]; rfl)
  | audit =>
    rw [HealthCheck.perform] at hstep
    split at hstep <;> cases hstep
    rename_i hdue
    obtain ⟨due, hdue, -⟩ := hdue
    exact h.flush (Option.ne_none_iff_exists'.mpr ⟨due, hdue⟩)

/-- Every run of the health check, with its timers and messages, is a run of the audit. -/
theorem follows_run {now : ℕ} {worker : WorkerRef} {es : List HealthCheck.Event}
    {ht : HealthCheck.State} (h : Run (HealthCheck.Step cfg) (.start cfg now worker) es ht) :
    ∃ fs a, Run (Step cfg) (.start cfg now worker) fs a ∧ Follows ht a := by
  refine h.invariant (P := fun hs => ∃ fs a, Run (Step cfg) (.start cfg now worker) fs a ∧
    Follows hs a) ?_ ⟨[], _, .nil _, rfl, rfl, rfl, List.nil_suffix, fun _ => rfl⟩
  rintro hs e ht ⟨fs, a, hrun, hfollows⟩ hstep
  obtain ⟨gs, a', hrun', hfollows'⟩ := hfollows.step hstep
  exact ⟨fs ++ gs, a', Run.append_iff.mpr ⟨a, hrun, hrun'⟩, hfollows'⟩

/-- A monitor that killed its worker has seen a check fail. -/
structure ClosedAfterFailure (s : State) : Prop where
  counted : Counted s
  mem : s.monitor.closed = true → false ∈ s.history
  due : s.monitor.closed = true → s.monitor.auditDue = none

theorem ClosedAfterFailure.step (h : ClosedAfterFailure s) (hattempts : 1 ≤ cfg.totalAttempts)
    (hstep : Step cfg s e t) : ClosedAfterFailure t := by
  have hcounted := h.counted.step hstep
  unfold Step at hstep
  cases e with
  | check now result =>
    rw [perform] at hstep
    split at hstep <;> cases hstep
    rename_i hopen
    rw [← Monitor.observe_closed cfg now result s.monitor] at hopen
    exact ⟨hcounted, fun hc => absurd hc hopen, fun hc => absurd hc hopen⟩
  | flush =>
    rw [perform] at hstep
    split at hstep <;> cases hstep
    rename_i hdue
    have hopen : s.monitor.closed = false := by
      by_contra hc
      rw [h.due (by simpa using hc)] at hdue
      cases hdue
    rcases s.monitor.audit_cases cfg with ⟨-, haudit⟩ | ⟨-, -, haudit⟩ | ⟨-, -, haudit⟩
    · refine ⟨hcounted, fun hc => ?_, fun _ => by rw [haudit]⟩
      rw [haudit] at hc
      cases hopen.symm.trans hc
    · refine ⟨hcounted, fun hc => ?_, fun _ => by rw [haudit]⟩
      rw [haudit] at hc
      cases hopen.symm.trans hc
    · refine ⟨hcounted, fun _ => ?_, fun _ => by rw [haudit]; rfl⟩
      dsimp only
      rw [haudit, if_neg (by rintro ⟨-, ⟨⟩⟩)]
      exact h.counted.mem_of_killed hattempts (by rw [haudit])

/-- A worker whose checks all pass is never killed. -/
theorem passing_never_killed {now : ℕ} {worker : WorkerRef} {es : List HealthCheck.Event}
    {ht : HealthCheck.State} (hattempts : 1 ≤ cfg.totalAttempts)
    (h : Run (HealthCheck.Step cfg) (.start cfg now worker) es ht)
    (hpassed : ∀ r ∈ ht.results, r.passed = true) : ht.monitor.closed = false := by
  obtain ⟨fs, a, hrun, hfollows⟩ := follows_run h
  have hinv : ClosedAfterFailure a := hrun.invariant (fun _ _ _ h hs => h.step hattempts hs)
    ⟨rfl, fun hc => absurd hc Bool.false_ne_true, fun _ => rfl⟩
  rw [← hfollows.closed, ← Bool.not_eq_true]
  intro hclosed
  obtain ⟨r, hr, hfailed⟩ := List.mem_map.mp (hfollows.history.subset (hinv.mem hclosed))
  rw [hpassed r hr] at hfailed
  cases hfailed

end Audit

end NestTemplate
