import NestTemplate.Cluster.Bookkeeping

/-!
# When the primary shuts down

`closeEvent` is emitted from the `'exit'` handler, by what is left of the
restart attempts; whether workers still run is not asked.

* `perform_closeEvents`: which events emit it.
* `Served.run`: a CPU with attempts left has a worker, and while nothing was
  emitted some worker runs.
* `close_event_when_exhausted`: `closeEvent` in every run.
-/

namespace NestTemplate

open Common SetupClusterService

/-- A worker of the slot runs. -/
def Slot.Alive (x : Slot) : Prop := ∃ v o, x.workers.get? v = some o ∧ o.running = true

namespace Primary

/-- No CPU has an attempt left. -/
def Exhausted (s : Primary) : Prop := ∀ r x, s.slot? r = some x → x.config.attemptsRemaining ≤ 0

/-- The event is the exit of a worker. -/
def Event.IsExit : Event → Prop
  | .exit _ _ => True
  | _ => False

theorem checkAllWorkerRemainingAttempts_closeEvents (s : Primary) :
    (s.Exhausted → (checkAllWorkerRemainingAttempts s).closeEvents = s.closeEvents + 1) ∧
      (¬ s.Exhausted → (checkAllWorkerRemainingAttempts s).closeEvents = s.closeEvents) := by
  have hany : s.workerAttemptCheck.objects.any (·.attemptsRemaining > 0) = true ↔ ¬ s.Exhausted := by
    rw [List.any_eq_true]
    constructor
    · rintro ⟨c, hc, hpos⟩ hex
      obtain ⟨r, hr⟩ := List.mem_iff_getElem?.mp hc
      have hle := hex r ⟨c, s.workers r⟩ (slot?_eq_some.mpr ⟨hr, rfl⟩)
      exact absurd (of_decide_eq_true hpos) (not_lt.mpr hle)
    · intro hex
      unfold Exhausted at hex
      push Not at hex
      obtain ⟨r, x, hx, hpos⟩ := hex
      exact ⟨x.config, List.mem_of_getElem? (slot?_eq_some.mp hx).1, decide_eq_true hpos⟩
  unfold checkAllWorkerRemainingAttempts
  constructor
  · intro hex
    rw [if_neg fun h => hany.mp h hex]
  · intro hex
    rw [if_pos (hany.mpr hex)]

theorem exited_exhausted (w : WorkerRef) (s : Primary) : (s.exited w).Exhausted ↔ s.Exhausted := by
  have hattempts : ∀ x : Slot, ∀ r, (if r = w.config then x.stop w.fork else x).config.attemptsRemaining
      = x.config.attemptsRemaining := by
    intro x r
    split <;> rfl
  constructor
  · intro h r x hx
    have hslot := slot?_exited (s := s) w r
    rw [hx, Option.map_some] at hslot
    have hle := h r _ hslot
    rwa [hattempts] at hle
  · intro h r y hy
    rw [slot?_exited] at hy
    obtain ⟨x, hx, rfl⟩ := Option.map_eq_some_iff.mp hy
    rw [hattempts]
    exact h r x hx

end Primary

namespace Bookkeeping

open Primary

variable {cfg : ClusterConfig} {m n : ℕ} {s t : Primary} {e : Event}

/-- `closeEvent` is emitted when a worker exits and no CPU has an attempt left. -/
theorem perform_closeEvents (h : Bookkeeping m n s) (hstep : Step cfg s e t) :
    (e.IsExit ∧ s.Exhausted → t.closeEvents = s.closeEvents + 1) ∧
      (¬ (e.IsExit ∧ s.Exhausted) → t.closeEvents = s.closeEvents) := by
  rcases perform_cases hstep with ⟨-, hexit, hquiet⟩ | ⟨w, o, rfl, ho, -, -, rfl⟩ |
    ⟨w, pid, o, rfl, ho, -, rfl⟩
  · refine ⟨fun hex => ?_, fun _ => hquiet.closeEvents⟩
    cases e with
    | exit w pid => exact absurd rfl (hexit w pid)
    | _ => exact hex.1.elim
  · exact ⟨fun hex => hex.1.elim, fun _ => rfl⟩
  · obtain ⟨x, hx, -⟩ := h.slot_of_worker ho
    obtain ⟨hemit, hsilent⟩ := checkAllWorkerRemainingAttempts_closeEvents (s.exited w)
    rw [exited_exhausted] at hemit hsilent
    rw [exit_eq cfg pid h.nodup hx]
    split
    · exact ⟨fun hex => hemit hex.2, fun hex => hsilent fun hs => hex ⟨trivial, hs⟩⟩
    · rename_i hattempts
      refine ⟨fun hex => absurd (hex.2 _ x hx) hattempts, fun _ => ?_⟩
      rw [(forkWorker_frame _ _ _).2]
      rfl

end Bookkeeping

/-! ## Workers that run -/

/-- Only an exit on a CPU without attempts leaves a slot without a running worker. -/
theorem SlotStep.alive {m : ℕ} {e : Primary.Event} {r : Heap.Ref} {x y : Slot}
    (h : SlotStep e r x y) (hx : Bookkept m r x) (halive : x.Alive) :
    y.Alive ∨ x.config.attemptsRemaining ≤ 0 ∧ ∃ v pid, e = .exit ⟨r, v⟩ pid := by
  obtain ⟨v, o, ho, hrun⟩ := halive
  cases h with
  | quiet _ hsame =>
    obtain ⟨o', ho', hkey⟩ := hsame.get? ho
    have hrunning : o'.running = o.running := congrArg (·.2.1) hkey
    exact .inl ⟨v, o', ho', hrunning.trans hrun⟩
  | @online _ u _ _ _ _ =>
    refine .inl ⟨v, _, Slot.online_get?_of ho, ?_⟩
    split <;> exact hrun
  | exhausted he _ _ hattempts => exact .inr ⟨hattempts, _, _, he⟩
  | @restarted _ u pid _ _ _ _ _ =>
    have hsub : Primary.OwnSubscription r (x.stop u).useAttempt := hx.ownSubscription
    have hnew := Slot.fork_get?_next hsub pid
    exact .inl ⟨_, _, hnew, rfl⟩

theorem SlotStep.attempts_le {e : Primary.Event} {r : Heap.Ref} {x y : Slot}
    (h : SlotStep e r x y) : y.config.attemptsRemaining ≤ x.config.attemptsRemaining := by
  cases h with
  | quiet | online | exhausted => exact le_refl _
  | @restarted _ v pid o =>
    show x.config.attemptsRemaining - 1 ≤ x.config.attemptsRemaining
    omega

/-- Without attempts, no worker is forked. -/
theorem SlotStep.allWorkerPid {e : Primary.Event} {r : Heap.Ref} {x y : Slot}
    (h : SlotStep e r x y) (hattempts : x.config.attemptsRemaining ≤ 0) :
    y.config.allWorkerPid = x.config.allWorkerPid := by
  cases h with
  | quiet | online | exhausted => rfl
  | restarted _ _ _ hpos => exact absurd hattempts (not_le.mpr hpos)

/-- A CPU with attempts left has a worker that runs, and some worker runs until `closeEvent` is
    emitted. -/
structure Served (s : Primary) : Prop where
  alive : ∀ r x, s.slot? r = some x → 0 < x.config.attemptsRemaining → x.Alive
  open_or_closed : 1 ≤ s.closeEvents ∨ ∃ r x, s.slot? r = some x ∧ x.Alive

namespace Served

open Primary

variable {cfg : ClusterConfig} {m n : ℕ} {s t : Primary} {e : Event} {es : List Event}

theorem step (hs : Served s) (h : Bookkeeping m n s) (hstep : Step cfg s e t) : Served t := by
  have hslots : ∀ r x, s.slot? r = some x → x.Alive → ∃ y, t.slot? r = some y ∧
      y.config.attemptsRemaining ≤ x.config.attemptsRemaining ∧
        (y.Alive ∨ x.config.attemptsRemaining ≤ 0 ∧ ∃ v pid, e = .exit ⟨r, v⟩ pid) := by
    intro r x hx halive
    obtain ⟨y, hy, hslot⟩ := h.perform_slots hstep hx
    exact ⟨y, hy, hslot.attempts_le, hslot.alive (h.slots r x hx) halive⟩
  obtain ⟨hemit, hsilent⟩ := h.perform_closeEvents hstep
  constructor
  · intro r y hy hpos
    obtain ⟨x, hx⟩ := h.slot_before hstep hy
    obtain ⟨y', hy', hslot⟩ := h.perform_slots hstep hx
    rw [hy] at hy'
    cases hy'
    have hposx : 0 < x.config.attemptsRemaining := lt_of_lt_of_le hpos hslot.attempts_le
    rcases hslot.alive (h.slots r x hx) (hs.alive r x hx hposx) with halive | ⟨hle, -⟩
    · exact halive
    · exact absurd hle (not_le.mpr hposx)
  · rcases hs.open_or_closed with hclosed | ⟨r, x, hx, halive⟩
    · left
      by_cases hex : e.IsExit ∧ s.Exhausted
      · rw [hemit hex]
        omega
      · rw [hsilent hex]
        exact hclosed
    · obtain ⟨y, hy, -, halive' | ⟨-, v, pid, rfl⟩⟩ := hslots r x hx halive
      · exact .inr ⟨r, y, hy, halive'⟩
      · -- the exit leaves another CPU with attempts, or none
        by_cases hex : s.Exhausted
        · left
          rw [hemit ⟨trivial, hex⟩]
          omega
        · right
          unfold Exhausted at hex
          push Not at hex
          obtain ⟨r', x', hx', hpos⟩ := hex
          obtain ⟨y', hy', -, halive' | ⟨hle, -⟩⟩ := hslots r' x' hx' (hs.alive r' x' hx' hpos)
          · exact ⟨r', y', hy', halive'⟩
          · exact absurd hle (not_le.mpr hpos)

theorem start {cpus : ℕ} {pid : ℕ → ℕ} (hcpus : 1 ≤ numberOfCpus cfg cpus) :
    Served (startInWorker cfg cpus pid) := by
  have hfirst : ∀ r x, (startInWorker cfg cpus pid).slot? r = some x → x.Alive := by
    intro r x hx
    have hsub : OwnSubscription r (Bookkeeping.firstSlot cfg (1 + r)) := fun p hp => by cases hp
    rw [Bookkeeping.slots_startInWorker hx]
    exact ⟨_, _, Slot.fork_get?_next hsub _, rfl⟩
  refine ⟨fun r x hx _ => hfirst r x hx, .inr ?_⟩
  obtain ⟨x, hx⟩ := Option.ne_none_iff_exists'.mp
    (show (startInWorker cfg cpus pid).slot? 0 ≠ none by
      rw [Ne, slot?_eq_none, (Bookkeeping.startInWorker cfg cpus pid).cpuIds, List.length_range']
      omega)
  exact ⟨0, x, hx, hfirst 0 x hx⟩

theorem run {cpus : ℕ} {pid : ℕ → ℕ} (hcpus : 1 ≤ numberOfCpus cfg cpus)
    (hrun : Run (Step cfg) (startInWorker cfg cpus pid) es t) : Served t :=
  (Bookkeeping.startInWorker cfg cpus pid).invariant hrun
    (fun _ _ _ h hs hstep => hs.step h hstep) (start hcpus)

end Served

/-! ## `closeEvent` -/

open Primary

variable {cfg : ClusterConfig} {cpus m n : ℕ} {pid : ℕ → ℕ} {s t : Primary} {e : Event}
  {es : List Event}

theorem Primary.Exhausted.step (hex : s.Exhausted) (h : Bookkeeping m n s) (hstep : Step cfg s e t) :
    t.Exhausted := by
  intro r y hy
  obtain ⟨x, hx⟩ := h.slot_before hstep hy
  obtain ⟨y', hy', hslot⟩ := h.perform_slots hstep hx
  rw [hy] at hy'
  cases hy'
  exact hslot.attempts_le.trans (hex r x hx)

/-- Once no CPU has an attempt left, no worker is forked. -/
theorem Primary.Exhausted.run (hex : s.Exhausted) (h : Bookkeeping m n s) {fs : List Event}
    (hrun : Run (Step cfg) s fs t) {r : Heap.Ref} {x y : Slot} (hx : s.slot? r = some x)
    (hy : t.slot? r = some y) : y.config.allWorkerPid = x.config.allWorkerPid := by
  have hall := h.invariant hrun
    (I := fun u => u.Exhausted ∧
      ∀ z, u.slot? r = some z → z.config.allWorkerPid = x.config.allWorkerPid) ?_
    ⟨hex, fun z hz => by rw [hx] at hz; cases hz; rfl⟩
  · exact hall.2 y hy
  · rintro u e u' hu ⟨huex, hpids⟩ hstep
    refine ⟨huex.step hu hstep, fun z' hz' => ?_⟩
    obtain ⟨z, hz⟩ := hu.slot_before hstep hz'
    obtain ⟨z'', hz'', hslot⟩ := hu.perform_slots hstep hz
    rw [hz'] at hz''
    cases hz''
    exact (hslot.allWorkerPid (huex r z hz)).trans (hpids z hz)

/-- **Main theorem**: `closeEvent` is emitted by the exits that happen when no CPU has an attempt
    left. From then on no worker is forked. Where no worker runs it has been emitted. -/
theorem close_event_when_exhausted (hcpus : 1 ≤ numberOfCpus cfg cpus)
    (hrun : Run (Step cfg) (startInWorker cfg cpus pid) es s) :
    (∀ e t, Step cfg s e t → (s.closeEvents < t.closeEvents ↔ e.IsExit ∧ s.Exhausted)) ∧
      (s.Exhausted → ∀ fs t, Run (Step cfg) s fs t → ∀ r x y, s.slot? r = some x →
        t.slot? r = some y → y.config.allWorkerPid = x.config.allWorkerPid) ∧
      ((∀ w o, s.worker? w = some o → o.running = false) → 1 ≤ s.closeEvents) := by
  have h := Bookkeeping.run hrun
  refine ⟨fun e t hstep => ?_, fun hex fs t hfs r x y hx hy => hex.run h hfs hx hy, fun hdown => ?_⟩
  · obtain ⟨hemit, hsilent⟩ := h.perform_closeEvents hstep
    constructor
    · intro hlt
      by_contra hnot
      rw [hsilent hnot] at hlt
      exact absurd hlt (Nat.lt_irrefl _)
    · intro hex
      rw [hemit hex]
      exact Nat.lt_succ_self _
  · rcases (Served.run hcpus hrun).open_or_closed with hclosed | ⟨r, x, hx, v, o, ho, hrunning⟩
    · exact hclosed
    · have hworker : s.worker? ⟨r, v⟩ = some o := by
        unfold worker?
        rw [(slot?_eq_some.mp hx).2]
        exact ho
      have hoff := hdown _ o hworker
      rw [hrunning] at hoff
      cases hoff

namespace Primary.Sample

/-- Two CPUs and no restarts. -/
def noRestarts : ClusterConfig := { config with maxWorkerAttempts := 0 }

/-- Both workers come online, and the first one exits. -/
def firstExit : List Event := [.online ⟨0, 0⟩, .online ⟨1, 0⟩, .exit ⟨0, 0⟩ 201]

end Primary.Sample

/-- Both workers exit. -/
theorem close_event_when_exhausted_sample :
    ∃ t, Run (Step Primary.Sample.noRestarts)
        (startInWorker Primary.Sample.noRestarts 8 (100 + ·))
        (Primary.Sample.firstExit ++ [.exit ⟨1, 0⟩ 202]) t ∧
      (∀ w o, t.worker? w = some o → o.running = false) ∧ 1 ≤ t.closeEvents := by
  have hrun : Run (Step Primary.Sample.noRestarts)
        (startInWorker Primary.Sample.noRestarts 8 (100 + ·))
        (Primary.Sample.firstExit ++ [.exit ⟨1, 0⟩ 202]) _ := run_runAll rfl
  have hclosed := (close_event_when_exhausted (by decide) hrun).2.2
  refine ⟨_, hrun, ?down, hclosed ?down⟩
  rintro ⟨r, v⟩ o ho
  -- two CPUs, each with one worker
  match r, v, ho with
  | 0, 0, ho => cases ho; rfl
  | 1, 0, ho => cases ho; rfl
  | 0, v + 1, ho => cases ho
  | 1, v + 1, ho => cases ho
  | r + 2, v, ho => cases ho

/-- With no restarts, the exit of the first worker closes the primary while the second one runs. -/
theorem close_event_with_running_worker :
    ∃ s t, Run (Step Primary.Sample.noRestarts)
        (startInWorker Primary.Sample.noRestarts 8 (100 + ·)) (Primary.Sample.firstExit.take 2) s ∧
      Step Primary.Sample.noRestarts s (.exit ⟨0, 0⟩ 201) t ∧ s.closeEvents < t.closeEvents ∧
      ∃ w o, t.worker? w = some o ∧ o.running = true := by
  refine ⟨_, _, run_runAll rfl, rfl, ?_, ⟨1, 0⟩, _, rfl, rfl⟩
  decide

end NestTemplate
