import NestTemplate.Cluster.Effects

/-!
# The bookkeeping of the workers

The invariant of the slots over all orders of events.

* `SlotStep`, `Bookkeeping.perform_slots`: the effect of every event on every slot.
* `Bookkeeping.step`, `Bookkeeping.run`: the invariant in every reachable state.
* `worker_bookkeeping`: what it says of the configurations and their workers.
-/

namespace NestTemplate

open Common SetupClusterService

/-! ## The invariant -/

/-- The bookkeeping of `n` CPUs, with `m` restarts each. -/
structure Bookkeeping (m n : ℕ) (s : Primary) : Prop where
  cpuIds : s.cpuIds = List.range' 1 n
  /-- Workers are forked for configurations only. -/
  unused : ∀ r, s.slot? r = none → s.workers r = ⟨[]⟩
  slots : ∀ r x, s.slot? r = some x → Bookkept m r x

theorem Bookkept.ownSubscription {m : ℕ} {r : Heap.Ref} {x : Slot} (h : Bookkept m r x) :
    Primary.OwnSubscription r x := by
  obtain ⟨w, -, -, -, -, -, -, hsub⟩ := h.last
  intro p hp
  rw [hsub] at hp
  cases hp
  rfl

/-- What an event does to the slot `r`. -/
inductive SlotStep (e : Primary.Event) (r : Heap.Ref) : Slot → Slot → Prop
  | quiet {c : WorkerConfig} {fs fs' : Heap WorkerObject} (hexit : ∀ v pid, e ≠ .exit ⟨r, v⟩ pid) :
      SameWorkers fs fs' → SlotStep e r ⟨c, fs⟩ ⟨c, fs'⟩
  | online {x : Slot} {v : ℕ} {o : WorkerObject} : e = .online ⟨r, v⟩ →
      x.workers.get? v = some o → o.running = true → SlotStep e r x (x.online v)
  | exhausted {x : Slot} {v pid : ℕ} {o : WorkerObject} : e = .exit ⟨r, v⟩ pid →
      x.workers.get? v = some o → o.running = true → x.config.attemptsRemaining ≤ 0 →
        SlotStep e r x (x.stop v)
  | restarted {x : Slot} {v pid : ℕ} {o : WorkerObject} : e = .exit ⟨r, v⟩ pid →
      x.workers.get? v = some o → o.running = true → 0 < x.config.attemptsRemaining →
        SlotStep e r x ((x.stop v).useAttempt.fork r pid)

/-- Every effect of an event keeps a slot as it has to be. -/
theorem Bookkept.step {m : ℕ} {e : Primary.Event} {r : Heap.Ref} {x y : Slot} (h : Bookkept m r x)
    (hstep : SlotStep e r x y) : Bookkept m r y := by
  cases hstep with
  | quiet _ hsame => exact h.of_same hsame
  | online _ ho hrun => exact h.online ho hrun
  | exhausted _ ho hrun _ => exact h.stop ho hrun
  | restarted _ ho hrun hattempts => exact (h.stop_useAttempt ho hrun hattempts).fork _

namespace Bookkeeping

open Primary

variable {cfg : ClusterConfig} {m n : ℕ} {s t : Primary} {e : Event}

theorem nodup (h : Bookkeeping m n s) : s.cpuIds.Nodup := by
  rw [h.cpuIds]
  exact List.nodup_range'

theorem next_eq (h : Bookkeeping m n s) : s.workerAttemptCheck.next = n := by
  have hlen := congrArg List.length h.cpuIds
  rwa [Primary.cpuIds, List.length_map, List.length_range'] at hlen

theorem ownSubscription (h : Bookkeeping m n s) (r : Heap.Ref) (x : Slot)
    (hx : s.slot? r = some x) : OwnSubscription r x := (h.slots r x hx).ownSubscription

/-- A worker object belongs to a slot. -/
theorem slot_of_worker (h : Bookkeeping m n s) {w : WorkerRef} {o : WorkerObject}
    (ho : s.worker? w = some o) :
    ∃ x, s.slot? w.config = some x ∧ x.workers.get? w.fork = some o := by
  cases hs : s.slot? w.config with
  | none =>
    unfold worker? at ho
    rw [h.unused _ hs] at ho
    cases ho
  | some x =>
    have hw := (slot?_eq_some.mp hs).2
    exact ⟨x, rfl, hw ▸ ho⟩

/-- The effect of an event on every slot. -/
theorem perform_slots (h : Bookkeeping m n s) (hstep : perform cfg s e = some t) {r : Heap.Ref}
    {x : Slot} (hx : s.slot? r = some x) : ∃ y, t.slot? r = some y ∧ SlotStep e r x y := by
  obtain ⟨hc, hw⟩ := slot?_eq_some.mp hx
  rcases perform_cases hstep with ⟨-, hexit, hquiet⟩ | ⟨w, o, rfl, ho, hrun, -, rfl⟩ |
    ⟨w, pid, o, rfl, ho, hrun, rfl⟩
  · refine ⟨⟨x.config, t.workers r⟩, slot?_eq_some.mpr ⟨?_, rfl⟩, .quiet (fun _ _ => hexit _ _) ?_⟩
    · rw [hquiet.workerAttemptCheck, hc]
    · rw [← hw]
      exact hquiet.sameWorkers r
  · obtain ⟨x', hx', ho'⟩ := h.slot_of_worker ho
    refine ⟨_, by rw [slot?_online, hx, Option.map_some], ?_⟩
    by_cases hr : r = w.config
    · subst hr
      rw [hx'] at hx
      cases hx
      rw [if_pos rfl]
      exact .online rfl ho' hrun
    · rw [if_neg hr]
      exact .quiet nofun rfl
  · obtain ⟨x', hx', ho'⟩ := h.slot_of_worker ho
    refine ⟨_, by rw [slot?_exit cfg pid h.nodup hx' (h.ownSubscription _ _ hx'), hx,
      Option.map_some], ?_⟩
    by_cases hr : r = w.config
    · subst hr
      rw [hx'] at hx
      cases hx
      rw [if_pos rfl]
      split
      · exact .exhausted rfl ho' hrun ‹_›
      · exact .restarted rfl ho' hrun (not_le.mp ‹_›)
    · rw [if_neg hr]
      refine .quiet (fun v pid' heq => ?_) rfl
      cases heq
      exact hr rfl

/-- No event adds a configuration, or removes one. -/
theorem perform_cpuIds (h : Bookkeeping m n s) (hstep : perform cfg s e = some t) :
    t.cpuIds = s.cpuIds := by
  rcases perform_cases hstep with ⟨-, -, hquiet⟩ | ⟨w, o, rfl, ho, -, -, rfl⟩ |
    ⟨w, pid, o, rfl, ho, -, rfl⟩
  · unfold Primary.cpuIds
    rw [hquiet.workerAttemptCheck]
  · exact cpuIds_updateConfig w.config fun _ => rfl
  · obtain ⟨x, hx, -⟩ := h.slot_of_worker ho
    rw [exit_eq cfg pid h.nodup hx]
    split
    · unfold Primary.cpuIds
      rw [(checkAllWorkerRemainingAttempts_frame _).1]
      exact cpuIds_exited w
    · rw [cpuIds_forkWorker, cpuIds_updateConfig, cpuIds_exited]
      exact fun _ => rfl

theorem perform_unused (h : Bookkeeping m n s) (hstep : perform cfg s e = some t) {r : Heap.Ref}
    (hr : s.slot? r = none) : t.workers r = ⟨[]⟩ := by
  have hempty := h.unused r hr
  have hne : ∀ w o, s.worker? w = some o → r ≠ w.config := by
    rintro w o ho rfl
    obtain ⟨x, hx, -⟩ := h.slot_of_worker ho
    rw [hr] at hx
    cases hx
  rcases perform_cases hstep with ⟨-, -, hquiet⟩ | ⟨w, o, rfl, ho, -, -, rfl⟩ |
    ⟨w, pid, o, rfl, ho, -, rfl⟩
  · have hlives := hquiet.lives r
    rw [hempty] at hlives
    exact congrArg Heap.mk (List.map_eq_nil_iff.mp hlives)
  · exact (Function.update_of_ne (hne w o ho) _ _).trans hempty
  · obtain ⟨x, hx, -⟩ := h.slot_of_worker ho
    have hexited : (s.exited w).workers r = ⟨[]⟩ :=
      (Function.update_of_ne (hne w o ho) _ _).trans hempty
    rw [exit_eq cfg pid h.nodup hx]
    split
    · rw [(checkAllWorkerRemainingAttempts_frame _).2.1]
      exact hexited
    · rw [workers_forkWorker pid ?_ (hne w o ho)]
      · exact hexited
      · intro y hy
        rw [slot?_updateConfig, slot?_exited, hx] at hy
        simp only [Option.map_some, if_true, Option.some.injEq] at hy
        subst hy
        have hown : OwnSubscription w.config x := h.ownSubscription _ _ hx
        exact hown

theorem slot?_eq_none_iff (h : Bookkeeping m n s) (hstep : Step cfg s e t) (r : Heap.Ref) :
    t.slot? r = none ↔ s.slot? r = none := by
  rw [slot?_eq_none, slot?_eq_none, h.perform_cpuIds hstep]

theorem slot_before (h : Bookkeeping m n s) (hstep : Step cfg s e t) {r : Heap.Ref} {y : Slot}
    (hy : t.slot? r = some y) : ∃ x, s.slot? r = some x := by
  refine Option.ne_none_iff_exists'.mp fun hr => ?_
  rw [(h.slot?_eq_none_iff hstep r).mpr hr] at hy
  cases hy

/-- Every event keeps the invariant. -/
theorem step (h : Bookkeeping m n s) (hstep : Step cfg s e t) : Bookkeeping m n t := by
  refine ⟨(h.perform_cpuIds hstep).trans h.cpuIds,
    fun r hr => h.perform_unused hstep ((h.slot?_eq_none_iff hstep r).mp hr), fun r y hy => ?_⟩
  obtain ⟨x, hx⟩ := h.slot_before hstep hy
  obtain ⟨y', hy', hslot⟩ := h.perform_slots hstep hx
  rw [hy] at hy'
  cases hy'
  exact (h.slots r x hx).step hslot

/-! ### The first workers -/

/-- Before the first worker is started. -/
theorem initial (m : ℕ) : Bookkeeping m 0 .initial :=
  ⟨rfl, fun _ _ => rfl, fun _ _ hx => nomatch hx⟩

/-- The slot that `pushConfig` adds. -/
def firstSlot (cfg : ClusterConfig) (workerCpuId : ℕ) : Slot where
  config :=
    { workerCpuId := workerCpuId
      currentWorkerPid := -1
      attemptsRemaining := cfg.maxWorkerAttempts
      allWorkerPid := []
      worker := none
      broadcastSubscription := none
      isOnline := false }
  workers := ⟨[]⟩

theorem slot?_pushConfig (h : Bookkeeping m n s) (cfg : ClusterConfig) (workerCpuId : ℕ) (r : Heap.Ref) :
    (pushConfig cfg workerCpuId s).slot? r =
      if r = n then some (firstSlot cfg workerCpuId) else s.slot? r := by
  rw [← h.next_eq]
  by_cases hr : r = s.workerAttemptCheck.next
  · subst hr
    have hnone : s.slot? s.workerAttemptCheck.next = none := by
      rw [slot?_eq_none, Primary.cpuIds, List.length_map]
      exact Nat.le_refl _
    rw [if_pos rfl]
    exact slot?_eq_some.mpr ⟨Heap.get?_alloc_next _ _, h.unused _ hnone⟩
  · rw [if_neg hr]
    refine Option.ext fun x => ?_
    rw [slot?_eq_some, slot?_eq_some]
    show Heap.get? (s.workerAttemptCheck.alloc _) r = _ ∧ _ ↔ _
    rw [Heap.get?_alloc_eq_some, or_iff_left (fun hnext => hr hnext.1)]
    rfl

/-- What the first worker of one more CPU is to the slots. -/
theorem startWorker_spec (h : Bookkeeping m n s) (cfg : ClusterConfig) (pid : ℕ) :
    (SetupClusterService.startWorker cfg pid (1 + n) none s).cpuIds = List.range' 1 (n + 1) ∧
      (∀ r, (SetupClusterService.startWorker cfg pid (1 + n) none s).slot? r =
        if r = n then some ((firstSlot cfg (1 + n)).fork r pid) else s.slot? r) ∧
      ∀ r, r ≠ n →
        (SetupClusterService.startWorker cfg pid (1 + n) none s).workers r = s.workers r := by
  have hpush := h.slot?_pushConfig cfg (1 + n)
  have hids : (pushConfig cfg (1 + n) s).cpuIds = List.range' 1 (n + 1) := by
    rw [List.range'_1_concat, ← h.cpuIds]
    simp [Primary.cpuIds, pushConfig, Heap.alloc]
  have hnew := hpush n
  rw [if_pos rfl] at hnew
  have hsub : ∀ x, (pushConfig cfg (1 + n) s).slot? n = some x → OwnSubscription n x := by
    intro x hx p hp
    rw [hnew] at hx
    cases hx
    cases hp
  have hfind := findConfig_eq_some (hids ▸ List.nodup_range') hnew
  rw [SetupClusterService.startWorker, startFork,
    show findConfig (pushConfig cfg (1 + n) s) (1 + n) = _ from hfind]
  dsimp only
  refine ⟨(cpuIds_forkWorker pid _).trans hids, fun r => ?_, fun r hr => workers_forkWorker pid hsub hr⟩
  rw [slot?_forkWorker pid hsub, hpush]
  by_cases hr : r = n
  · subst hr
    simp
  · simp [hr]

/-- The first worker of one more CPU. -/
theorem startWorker (h : Bookkeeping cfg.maxWorkerAttempts n s) (pid : ℕ) :
    Bookkeeping cfg.maxWorkerAttempts (n + 1) (startWorker cfg pid (1 + n) none s) := by
  obtain ⟨hids, hslots, hworkers⟩ := h.startWorker_spec cfg pid
  refine ⟨hids, fun r hr => ?_, fun r x hx => ?_⟩
  · rw [hslots] at hr
    split at hr
    · cases hr
    · rw [hworkers r ‹_›]
      exact h.unused r hr
  · rw [hslots] at hx
    split at hx
    · cases hx
      have hfirst : ReadyToFork cfg.maxWorkerAttempts r (firstSlot cfg (1 + n)) :=
        .first _ _ rfl rfl rfl rfl rfl
      exact hfirst.fork pid
    · exact h.slots r x hx

/-- The primary starts with one worker on every CPU. -/
theorem startInWorker (cfg : ClusterConfig) (cpus : ℕ) (pid : ℕ → ℕ) :
    Bookkeeping cfg.maxWorkerAttempts (numberOfCpus cfg cpus) (startInWorker cfg cpus pid) := by
  unfold SetupClusterService.startInWorker
  induction numberOfCpus cfg cpus with
  | zero => exact initial _
  | succ n ih =>
    rw [List.range'_1_concat, List.foldl_append]
    exact ih.startWorker (pid (1 + n))

/-- The slots the primary starts with. -/
theorem slots_startInWorker {cpus : ℕ} {pid : ℕ → ℕ} {r : Heap.Ref} {x : Slot}
    (hx : (SetupClusterService.startInWorker cfg cpus pid).slot? r = some x) :
    x = (firstSlot cfg (1 + r)).fork r (pid (1 + r)) := by
  unfold SetupClusterService.startInWorker at hx
  revert r x
  suffices hslots : ∀ n, ∃ s, (List.range' 1 n).foldl
      (fun s i => SetupClusterService.startWorker cfg (pid i) i none s) .initial = s ∧
        Bookkeeping cfg.maxWorkerAttempts n s ∧
        ∀ r x, s.slot? r = some x → x = (firstSlot cfg (1 + r)).fork r (pid (1 + r)) by
    intro r x hx
    obtain ⟨s, hs, -, hslots⟩ := hslots (numberOfCpus cfg cpus)
    rw [hs] at hx
    exact hslots r x hx
  intro n
  induction n with
  | zero => exact ⟨_, rfl, initial _, fun r x hx => nomatch hx⟩
  | succ n ih =>
    obtain ⟨s, hs, h, ih⟩ := ih
    rw [List.range'_1_concat, List.foldl_append, hs]
    refine ⟨_, rfl, h.startWorker (pid (1 + n)), fun r x hx => ?_⟩
    obtain ⟨-, hslots, -⟩ := h.startWorker_spec cfg (pid (1 + n))
    rw [List.foldl_cons, List.foldl_nil, hslots] at hx
    split at hx
    · rename_i hr
      subst hr
      cases hx
      rfl
    · exact ih r x hx

/-- The invariant rule for what steps preserve thanks to the bookkeeping. -/
theorem invariant {I : Primary → Prop} (h : Bookkeeping m n s) {es : List Event}
    (hrun : Run (Step cfg) s es t)
    (hstep : ∀ s e t, Bookkeeping m n s → I s → Step cfg s e t → I t) (hs : I s) : I t := by
  have hboth := hrun.invariant (P := fun s => Bookkeeping m n s ∧ I s)
    (fun s e t h he => ⟨h.1.step he, hstep s e t h.1 h.2 he⟩) ⟨h, hs⟩
  exact hboth.2

/-- The invariant holds in every reachable state. -/
theorem run {cpus : ℕ} {pid : ℕ → ℕ} {es : List Event}
    (hrun : Run (Step cfg) (SetupClusterService.startInWorker cfg cpus pid) es t) :
    Bookkeeping cfg.maxWorkerAttempts (numberOfCpus cfg cpus) t :=
  hrun.invariant (fun _ _ _ h hstep => h.step hstep) (startInWorker cfg cpus pid)

end Bookkeeping

open Primary

variable {cfg : ClusterConfig} {cpus : ℕ} {pid : ℕ → ℕ} {t : Primary} {es : List Event}

/-- **Main theorem**: in every reachable state every CPU has one configuration; a configuration
    has been forked for at most `m + 1` times, at most one of its workers runs, and what it
    records is about the last one. -/
theorem worker_bookkeeping (hrun : Run (Step cfg) (startInWorker cfg cpus pid) es t) :
    t.cpuIds = List.range' 1 (numberOfCpus cfg cpus) ∧
      (∀ w o, t.worker? w = some o → ∃ x, t.slot? w.config = some x) ∧
      ∀ r x, t.slot? r = some x →
        Bookkept cfg.maxWorkerAttempts r x ∧
          x.config.allWorkerPid.length ≤ cfg.maxWorkerAttempts + 1 ∧
          ∀ v v' o o', x.workers.get? v = some o → x.workers.get? v' = some o' →
            o.running = true → o'.running = true → v = v' := by
  have h := Bookkeeping.run hrun
  refine ⟨h.cpuIds, fun w o ho => ?_, fun r x hx => ?_⟩
  · obtain ⟨x, hx, -⟩ := h.slot_of_worker ho
    exact ⟨x, hx⟩
  · have hslot := h.slots r x hx
    refine ⟨hslot, ?_, fun v v' o o' ho ho' hrun hrun' => ?_⟩
    · have hforks := hslot.forks
      have hattempts := hslot.attempts_nonneg
      omega
    · exact Nat.succ.inj ((hslot.running v o ho hrun).trans (hslot.running v' o' ho' hrun').symm)

namespace Primary.Sample

/-- Two CPUs and one restart for each. -/
def config : ClusterConfig where
  cpuMax := 2
  maxWorkerAttempts := 1
  healthCheckConfig := HealthCheck.Sample.config

def start : Primary := startInWorker config 8 (100 + ·)

/-- The first worker is replaced, and the new one exits too, with the other one online. -/
def restarts : List Event :=
  [.online ⟨0, 0⟩, .exit ⟨0, 0⟩ 201, .online ⟨1, 0⟩, .online ⟨0, 1⟩, .exit ⟨0, 1⟩ 202]

end Primary.Sample

theorem worker_bookkeeping_sample :
    ∃ t, Run (Step Primary.Sample.config) Primary.Sample.start Primary.Sample.restarts t ∧
      ∀ r x, t.slot? r = some x → x.config.allWorkerPid.length ≤ 2 := by
  have hsome : (runAll (perform Primary.Sample.config) Primary.Sample.start
      Primary.Sample.restarts).isSome = true := by decide
  obtain ⟨t, ht⟩ := Option.isSome_iff_exists.mp hsome
  have hrun : Run (Step Primary.Sample.config) Primary.Sample.start Primary.Sample.restarts t :=
    run_runAll ht
  exact ⟨t, hrun, fun r x hx => ((worker_bookkeeping hrun).2.2 r x hx).2.1⟩

end NestTemplate
