import NestTemplate.Cluster.Bookkeeping

/-!
# Health checks and the lives of the workers

A health check begins when its worker comes online, and ends with its own
verdict. The `'exit'` handler does not end it.

* `Monitored.step`: no worker has two health checks.
* `exit_keeps_monitors`: what an exit leaves behind.
* `monitors_follow_iff`: the runs in which the health checks follow the workers.
-/

namespace NestTemplate

open Common SetupClusterService

namespace Primary

/-- Every live health check belongs to a worker that runs, and no worker has more than one. -/
structure MonitorsFollow (s : Primary) : Prop where
  running : ∀ i m, s.monitors.get? i = some m → m.closed = false →
    ∃ o, s.worker? m.worker = some o ∧ o.running = true
  unique : ∀ i j m m', s.monitors.get? i = some m → s.monitors.get? j = some m' →
    m.closed = false → m'.closed = false → m.worker = m'.worker → i = j

/-- A worker that exits has no live health check: its own one has killed it, or it never came
    online. -/
def ExitsUnmonitored (s : Primary) : Event → Prop
  | .exit w _ => ∀ i m, s.monitors.get? i = some m → m.worker = w → m.closed = true
  | _ => True

/-- A health check belongs to a worker that has come online, and to no other's worker. -/
structure Monitored (s : Primary) : Prop where
  online : ∀ i m, s.monitors.get? i = some m →
    ∃ o, s.worker? m.worker = some o ∧ o.online = true
  unique : ∀ i j m m', s.monitors.get? i = some m → s.monitors.get? j = some m' →
    m.worker = m'.worker → i = j

variable {cfg : ClusterConfig} {m n : ℕ} {s t : Primary} {e : Event}

/-- An event has one outcome. -/
theorem step_unique (s : Primary) (e : Event) (t t' : Primary) (h : Step cfg s e t)
    (h' : Step cfg s e t') : t = t' := Option.some.inj (h.symm.trans h')

/-! ## What an exit leaves behind -/

/-- The health checks go on as if nothing had happened. -/
theorem exit_keeps_monitors (h : Bookkeeping m n s) {w : WorkerRef} {pid : ℕ}
    (hstep : Step cfg s (.exit w pid) t) : t.monitors = s.monitors := by
  obtain ⟨o, ho, -, rfl⟩ := perform_exit hstep
  obtain ⟨x, hx, -⟩ := h.slot_of_worker ho
  rw [exit_eq cfg pid h.nodup hx]
  split
  · rw [(checkAllWorkerRemainingAttempts_frame _).2.2]
    rfl
  · rw [(forkWorker_frame _ _ _).1]
    rfl

/-- A worker that exits does not run on. -/
theorem exit_stops (h : Bookkeeping m n s) {w : WorkerRef} {pid : ℕ}
    (hstep : Step cfg s (.exit w pid) t) {o : WorkerObject} (ho : t.worker? w = some o) :
    o.running = false := by
  obtain ⟨o₀, ho₀, -, rfl⟩ := perform_exit hstep
  obtain ⟨x, hx, hv⟩ := h.slot_of_worker ho₀
  have hown : OwnSubscription w.config x := h.ownSubscription _ _ hx
  have hslot := slot?_exit cfg pid h.nodup hx hown w.config
  rw [hx, Option.map_some, if_pos rfl] at hslot
  have hstopped : ∀ o, (x.stop w.fork).workers.get? w.fork = some o → o.running = false := by
    intro o ho
    obtain ⟨_, -, rfl⟩ := Slot.stop_get? ho
    rw [if_pos rfl]
  rw [worker?_eq hslot] at ho
  split at ho
  · exact hstopped o ho
  · rcases Slot.fork_get? (x := (x.stop w.fork).useAttempt) hown ho with ⟨hnext, -⟩ | ⟨o₁, ho₁, rfl⟩
    · have hlt := Heap.lt_next hv
      rw [hnext] at hlt
      exact absurd (hlt.trans_eq Slot.stop_next.symm) (Nat.lt_irrefl _)
    · have hdown := hstopped o₁ ho₁
      split <;> exact hdown

/-- A worker goes on from `o` to `o'`: it stays online, and runs on unless it exits. -/
structure GoesOn (e : Event) (v : WorkerRef) (o o' : WorkerObject) : Prop where
  online : o.online = true → o'.online = true
  running : o.running = true → o'.running = true ∨ ∃ pid, e = .exit v pid

/-- What the exit of `w` is to the workers of its CPU. -/
theorem goesOn_exit {x : Slot} {v w : WorkerRef} {o : WorkerObject} (pid : ℕ)
    (hconfig : v.config = w.config) (ho : x.workers.get? v.fork = some o) :
    ∃ o', (x.stop w.fork).workers.get? v.fork = some o' ∧ GoesOn (.exit w pid) v o o' := by
  refine ⟨_, Slot.stop_get?_of ho, fun hon => ?_, fun hrun => ?_⟩
  · split <;> exact hon
  · split
    · rename_i hfork
      refine .inr ⟨pid, ?_⟩
      obtain ⟨_, _⟩ := v
      obtain ⟨_, _⟩ := w
      cases hconfig
      cases hfork
      rfl
    · exact .inl hrun

/-- No worker object is lost, and every worker goes on. -/
theorem perform_worker? (h : Bookkeeping m n s) (hstep : Step cfg s e t) {v : WorkerRef}
    {o : WorkerObject} (ho : s.worker? v = some o) :
    ∃ o', t.worker? v = some o' ∧ GoesOn e v o o' := by
  obtain ⟨x, hx, hv⟩ := h.slot_of_worker ho
  rcases perform_cases hstep with ⟨-, -, hquiet⟩ | ⟨w, _, rfl, -, -, -, rfl⟩ |
    ⟨w, pid, o₀, rfl, ho₀, -, rfl⟩
  · obtain ⟨o', ho', hlife⟩ := hquiet.worker? ho
    have honline : o'.online = o.online := congrArg Prod.snd hlife
    have hrunning : o'.running = o.running := congrArg (·.1.2.1) hlife
    exact ⟨o', ho', honline.trans, fun hrun => .inl (hrunning.trans hrun)⟩
  · have hslot := slot?_online cfg s w v.config
    rw [hx, Option.map_some] at hslot
    rw [worker?_eq hslot]
    split
    · refine ⟨_, Slot.online_get?_of hv, fun hon => ?_, fun hrun => .inl ?_⟩
      · split
        · rfl
        · exact hon
      · split <;> exact hrun
    · exact ⟨o, hv, id, .inl⟩
  · obtain ⟨x₀, hx₀, -⟩ := h.slot_of_worker ho₀
    have hown : OwnSubscription w.config x₀ := h.ownSubscription _ _ hx₀
    have hslot := slot?_exit cfg pid h.nodup hx₀ hown v.config
    rw [hx, Option.map_some] at hslot
    rw [worker?_eq hslot]
    by_cases hconfig : v.config = w.config
    · obtain ⟨o₁, ho₁, hgo⟩ := goesOn_exit pid hconfig hv
      rw [if_pos hconfig]
      split
      · exact ⟨o₁, ho₁, hgo⟩
      · obtain ⟨o₂, ho₂, honline, hrunning⟩ := Slot.fork_get?_old (r := v.config)
          (x := (x.stop w.fork).useAttempt) pid ho₁
        exact ⟨o₂, ho₂, fun hon => honline.trans (hgo.online hon),
          fun hrun => (hgo.running hrun).imp_left hrunning.trans⟩
    · rw [if_neg hconfig]
      exact ⟨o, hv, id, .inl⟩

/-- Where a health check comes from: it was there before, or its worker has just come online. -/
theorem perform_monitors (h : Bookkeeping m n s) (hstep : Step cfg s e t) {i : Heap.Ref}
    {k' : Monitor} (hk' : t.monitors.get? i = some k') :
    (∃ k, s.monitors.get? i = some k ∧ k.Becomes k') ∨
      ∃ o o', s.worker? k'.worker = some o ∧ o.online = false ∧ i = s.monitors.next ∧
        t.worker? k'.worker = some o' ∧ o'.online = true ∧ o'.running = true := by
  rcases perform_cases hstep with ⟨-, -, hquiet⟩ | ⟨w, o, rfl, ho, hrun, hoff, rfl⟩ |
    ⟨w, pid, o, rfl, -, -, -⟩
  · exact .inl (hquiet.monitors i k' hk')
  · rcases Heap.get?_alloc_eq_some.mp hk' with hk | ⟨rfl, rfl⟩
    · exact .inl ⟨k', hk, rfl, id⟩
    · obtain ⟨x, hx, hv⟩ := h.slot_of_worker ho
      have hslot := slot?_online cfg s w w.config
      rw [hx, Option.map_some, if_pos rfl] at hslot
      have hworker : (x.online w.fork).workers.get? w.fork = some { o with online := true } := by
        unfold Slot.online
        rw [Heap.get?_modify_self, hv, Option.map_some]
      exact .inr ⟨o, { o with online := true }, ho, hoff, rfl, (worker?_eq hslot).trans hworker, rfl,
        hrun⟩
  · rw [exit_keeps_monitors h hstep] at hk'
    exact .inl ⟨k', hk', rfl, id⟩

/-! ## The invariants -/

theorem Monitored.step (hs : Monitored s) (h : Bookkeeping m n s) (hstep : Step cfg s e t) :
    Monitored t := by
  have hold : ∀ i k, s.monitors.get? i = some k → ∃ o, s.worker? k.worker = some o ∧
      o.online = true := hs.online
  constructor
  · intro i k' hk'
    rcases perform_monitors h hstep hk' with ⟨k, hk, hworker, -⟩ | ⟨-, o', -, -, -, ho', hon, -⟩
    · obtain ⟨o, ho, hon⟩ := hold i k hk
      obtain ⟨o', ho', hgo⟩ := perform_worker? h hstep ho
      exact ⟨o', hworker ▸ ho', hgo.online hon⟩
    · exact ⟨o', ho', hon⟩
  · intro i j k' l' hk' hl' hworker
    have hne : ∀ {i k o}, s.monitors.get? i = some k → s.worker? k.worker = some o →
        o.online = false → False := by
      intro i k o hk ho hoff
      obtain ⟨o₁, ho₁, hon⟩ := hold i k hk
      rw [ho] at ho₁
      cases ho₁
      rw [hoff] at hon
      cases hon
    rcases perform_monitors h hstep hk' with ⟨k, hk, hkw, -⟩ | ⟨o, -, ho, hoff, hi, -⟩ <;>
      rcases perform_monitors h hstep hl' with ⟨l, hl, hlw, -⟩ | ⟨o', -, ho', hoff', hj, -⟩
    · exact hs.unique i j k l hk hl (hkw.symm.trans (hworker.trans hlw))
    · rw [← hworker, hkw] at ho'
      exact (hne hk ho' hoff').elim
    · rw [hworker, hlw] at ho
      exact (hne hl ho hoff).elim
    · rw [hi, hj]

/-- What one event keeps of the health checks that follow their workers. -/
theorem MonitorsFollow.running_step (hs : MonitorsFollow s) (h : Bookkeeping m n s)
    (hexit : ExitsUnmonitored s e) (hstep : Step cfg s e t) {i : Heap.Ref} {k' : Monitor}
    (hk' : t.monitors.get? i = some k') (hlive : k'.closed = false) :
    ∃ o, t.worker? k'.worker = some o ∧ o.running = true := by
  rcases perform_monitors h hstep hk' with ⟨k, hk, hworker, hclosed⟩ | ⟨-, o', -, -, -, ho', -, hrun⟩
  · have hopen : k.closed = false := by
      rw [Bool.eq_false_iff]
      intro hc
      rw [hclosed hc] at hlive
      cases hlive
    obtain ⟨o, ho, hrun⟩ := hs.running i k hk hopen
    obtain ⟨o', ho', hgo⟩ := perform_worker? h hstep ho
    rcases hgo.running hrun with hrun' | ⟨pid, rfl⟩
    · exact ⟨o', hworker ▸ ho', hrun'⟩
    · have hdead := hexit i k hk rfl
      rw [hopen] at hdead
      cases hdead
  · exact ⟨o', ho', hrun⟩

end Primary

open Primary

variable {cfg : ClusterConfig} {cpus : ℕ} {pid : ℕ → ℕ} {t : Primary} {es : List Event}

theorem startInWorker_monitors (cfg : ClusterConfig) (cpus : ℕ) (pid : ℕ → ℕ) :
    (startInWorker cfg cpus pid).monitors = ⟨[]⟩ := by
  unfold startInWorker
  refine List.foldlRecOn _ _ (motive := fun s : Primary => s.monitors = ⟨[]⟩) rfl fun s hs i _ => ?_
  rw [startWorker, startFork]
  split
  · rw [(forkWorker_frame _ _ _).1]
    exact hs
  · exact hs

/-- No worker has two health checks, whatever happens. -/
theorem Primary.Monitored.run (hrun : Run (Step cfg) (startInWorker cfg cpus pid) es t) :
    Monitored t := by
  have hnone : ∀ i k, (startInWorker cfg cpus pid).monitors.get? i ≠ some k := by
    intro i k hk
    rw [startInWorker_monitors] at hk
    cases hk
  exact (Bookkeeping.startInWorker cfg cpus pid).invariant hrun
    (fun _ _ _ h hs hstep => hs.step h hstep)
    ⟨fun i k hk => absurd hk (hnone i k), fun i _ k _ hk => absurd hk (hnone i k)⟩

/-- Where every worker that exits has no live health check, the health checks follow the workers. -/
theorem monitors_follow (hrun : Run (Step cfg) (startInWorker cfg cpus pid) es t)
    (hexits : Along (Step cfg) ExitsUnmonitored (startInWorker cfg cpus pid) es) :
    MonitorsFollow t := by
  have hnone : ∀ i k, (startInWorker cfg cpus pid).monitors.get? i ≠ some k := by
    intro i k hk
    rw [startInWorker_monitors] at hk
    cases hk
  have hall := hrun.invariant_along
    (I := fun s => (Bookkeeping cfg.maxWorkerAttempts (numberOfCpus cfg cpus) s ∧ Monitored s) ∧
      MonitorsFollow s) (fun s e t h hexit hstep => ?_) hexits
    ⟨⟨.startInWorker cfg cpus pid, .run (.nil _)⟩, fun i k hk => absurd hk (hnone i k),
      fun i _ k _ hk => absurd hk (hnone i k)⟩
  · exact hall.2
  · obtain ⟨⟨hbook, hmonitored⟩, hfollow⟩ := h
    have hmonitored' := hmonitored.step hbook hstep
    exact ⟨⟨hbook.step hstep, hmonitored'⟩,
      fun i k hk hlive => hfollow.running_step hbook hexit hstep hk hlive,
      fun i j k l hk hl _ _ hworker => hmonitored'.unique i j k l hk hl hworker⟩

/-- **Main theorem**: the health checks follow the workers in every state of a run if and only if
    every worker that exits in it has no live health check at that moment. -/
theorem monitors_follow_iff (hrun : Run (Step cfg) (startInWorker cfg cpus pid) es t) :
    (∀ pre post s, es = pre ++ post → Run (Step cfg) (startInWorker cfg cpus pid) pre s →
      MonitorsFollow s) ↔
      Along (Step cfg) ExitsUnmonitored (startInWorker cfg cpus pid) es := by
  constructor
  · intro hall pre e post s hes hpre
    subst hes
    obtain ⟨s', hpre', hrest⟩ := Run.append_iff.mp hrun
    obtain rfl : s' = s := Run.unique step_unique hpre' hpre
    obtain ⟨u, hstep, -⟩ := Run.cons_iff.mp hrest
    have hfollow : MonitorsFollow u := hall (pre ++ [e]) post u (by simp) (hpre.snoc hstep)
    cases e with
    | exit w pid' =>
      intro i k hk hworker
      have hbook := Bookkeeping.run hpre
      rw [← exit_keeps_monitors hbook hstep] at hk
      by_contra hlive
      obtain ⟨o, ho, hrunning⟩ := hfollow.running i k hk (Bool.eq_false_iff.mpr hlive)
      rw [hworker] at ho
      rw [exit_stops hbook hstep ho] at hrunning
      cases hrunning
    | _ => trivial
  · rintro hexits pre post s rfl hpre
    exact monitors_follow hpre hexits.of_append

namespace Primary.Sample

/-- The first worker exits before it is online, the one in its place comes online. -/
def earlyExit : List Event := [.exit ⟨0, 0⟩ 201, .online ⟨0, 1⟩]

/-- The first worker comes online, and crashes. -/
def crash : List Event := [.online ⟨0, 0⟩, .exit ⟨0, 0⟩ 201]

end Primary.Sample

theorem monitors_follow_iff_sample :
    ∃ t, Run (Step Primary.Sample.config) Primary.Sample.start Primary.Sample.earlyExit t ∧
      MonitorsFollow t := by
  obtain ⟨t, ht⟩ := Option.isSome_iff_exists.mp
    (show (runAll (perform Primary.Sample.config) Primary.Sample.start
      Primary.Sample.earlyExit).isSome = true by decide)
  have hrun : Run (Step Primary.Sample.config) Primary.Sample.start Primary.Sample.earlyExit t :=
    run_runAll ht
  have hexits : Along (Step Primary.Sample.config) ExitsUnmonitored Primary.Sample.start
      Primary.Sample.earlyExit :=
    .cons (fun i k hk => nomatch hk) fun s _ => .cons trivial fun s _ => .of_forall nofun
  exact ⟨t, hrun, (monitors_follow_iff hrun).mpr hexits _ [] t (List.append_nil _).symm hrun⟩

/-- The health check of a worker that has crashed stays. -/
theorem monitor_outlives_worker :
    ∃ t, Run (Step Primary.Sample.config) Primary.Sample.start Primary.Sample.crash t ∧
      ¬ MonitorsFollow t := by
  refine ⟨_, run_runAll rfl, fun h => ?_⟩
  obtain ⟨o, ho, hrunning⟩ := h.running 0 _ rfl rfl
  cases ho
  cases hrunning

end NestTemplate
