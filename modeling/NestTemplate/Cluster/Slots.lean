import NestTemplate.Cluster.SetupCluster

/-!
# The workers of a CPU

A `Slot` is a `WorkerConfig` with the worker objects that were forked for it. It
changes by a fork, by a worker that comes online and by one that exits.

* `Bookkept`: what holds of a slot between two events.
* `ReadyToFork.fork`, `Bookkept.online`, `Bookkept.stop`, `Bookkept.stop_useAttempt`: how the
  changes keep it.
* `Bookkept.of_same`: what the bookkeeping does not look at.
-/

namespace NestTemplate

open Common

/-! ## Slots -/

/-- A `WorkerConfig` and the worker objects that were forked for it, the last one at the end. -/
structure Slot where
  config : WorkerConfig
  workers : Heap WorkerObject

namespace Slot

/-- `forkWorker`, on the slot `r`. -/
def fork (r : Heap.Ref) (pid : ℕ) (x : Slot) : Slot where
  config :=
    { x.config with
      allWorkerPid := x.config.allWorkerPid ++ [pid]
      currentWorkerPid := pid
      worker := some ⟨r, x.workers.next⟩
      broadcastSubscription := some ⟨r, x.workers.next⟩ }
  workers :=
    let workers := x.workers.alloc (.forked pid)
    let workers := match x.config.broadcastSubscription with
      | some previous => workers.modify previous.fork (.removeListener .broadcast)
      | none => workers
    workers.modify x.workers.next (.addListener .broadcast)

/-- The worker `v` comes online. -/
def online (v : ℕ) (x : Slot) : Slot where
  config := { x.config with isOnline := true }
  workers := x.workers.modify v fun o => { o with online := true }

/-- The worker `v` exits. -/
def stop (v : ℕ) (x : Slot) : Slot where
  config := { x.config with isOnline := false }
  workers := x.workers.modify v fun o => { o with running := false }

/-- One attempt is used up. -/
def useAttempt (x : Slot) : Slot :=
  { x with config := { x.config with attemptsRemaining := x.config.attemptsRemaining - 1 } }

end Slot

/-- What the bookkeeping knows of a worker object. -/
def WorkerObject.key (o : WorkerObject) : ℕ × Bool × ℕ :=
  (o.pid, o.running, o.messageListeners.count .broadcast)

/-- The two differ in nothing the bookkeeping knows. -/
def SameWorkers (fs fs' : Heap WorkerObject) : Prop :=
  fs'.objects.map (·.key) = fs.objects.map (·.key)

namespace SameWorkers

variable {fs fs' : Heap WorkerObject}

theorem next_eq (h : SameWorkers fs fs') : fs'.next = fs.next := by
  simpa [Heap.next] using congrArg List.length h

theorem get? (h : SameWorkers fs fs') {v : ℕ} {o : WorkerObject} (ho : fs.get? v = some o) :
    ∃ o', fs'.get? v = some o' ∧ o'.key = o.key :=
  Heap.get?_of_map_prefix ⟨[], (List.append_nil _).trans h.symm⟩ ho

theorem map_pid (h : SameWorkers fs fs') : fs'.objects.map (·.pid) = fs.objects.map (·.pid) := by
  have hp := congrArg (List.map Prod.fst) h
  simpa [WorkerObject.key, Function.comp_def] using hp

theorem modify (fs : Heap WorkerObject) (v : ℕ) {f : WorkerObject → WorkerObject}
    (hf : ∀ o, (f o).key = o.key) : SameWorkers fs (fs.modify v f) :=
  Heap.map_objects_modify hf fs v

end SameWorkers

/-- The slot of a configuration holds what the service has to know about it, where `m` restarts
    are allowed. -/
structure Bookkept (m : ℕ) (r : Heap.Ref) (x : Slot) : Prop where
  attempts_nonneg : 0 ≤ x.config.attemptsRemaining
  attempts_le : x.config.attemptsRemaining ≤ m
  forks : (x.config.allWorkerPid.length : ℤ) = m - x.config.attemptsRemaining + 1
  allWorkerPid : x.config.allWorkerPid = x.workers.objects.map (·.pid)
  /-- The last fork is the worker the configuration denotes. -/
  last : ∃ w o, x.workers.get? w = some o ∧ w + 1 = x.workers.next ∧
    x.config.worker = some ⟨r, w⟩ ∧ x.config.currentWorkerPid = o.pid ∧
      (x.config.isOnline = true → o.running = true) ∧
        x.config.broadcastSubscription = some ⟨r, w⟩
  running : ∀ v o, x.workers.get? v = some o → o.running = true → v + 1 = x.workers.next
  listens : ∀ v o, x.workers.get? v = some o →
    o.messageListeners.count .broadcast = if v + 1 = x.workers.next then 1 else 0

/-- What holds of a slot right before a fork. -/
structure ReadyToFork (m : ℕ) (r : Heap.Ref) (x : Slot) : Prop where
  attempts_nonneg : 0 ≤ x.config.attemptsRemaining
  attempts_le : x.config.attemptsRemaining ≤ m
  forks : (x.config.allWorkerPid.length : ℤ) = m - x.config.attemptsRemaining
  allWorkerPid : x.config.allWorkerPid = x.workers.objects.map (·.pid)
  offline : x.config.isOnline = false
  down : ∀ v o, x.workers.get? v = some o → o.running = false
  subscription : ∀ p, x.config.broadcastSubscription = some p →
    p.config = r ∧ p.fork < x.workers.next
  listens : ∀ v o, x.workers.get? v = some o →
    o.messageListeners.count .broadcast =
      if x.config.broadcastSubscription = some ⟨r, v⟩ then 1 else 0

namespace Slot

variable {r : Heap.Ref} {x : Slot}

theorem fork_next (pid : ℕ) : (x.fork r pid).workers.next = x.workers.next + 1 := by
  unfold fork
  dsimp only
  split <;> simp

/-- A fork adds the new worker, and moves a listener. -/
theorem fork_map {β : Type} {g : WorkerObject → β}
    (hadd : ∀ o, g (o.addListener .broadcast) = g o)
    (hremove : ∀ o, g (o.removeListener .broadcast) = g o) (pid : ℕ) :
    (x.fork r pid).workers.objects.map g = x.workers.objects.map g ++ [g (.forked pid)] := by
  unfold fork
  dsimp only
  rw [Heap.map_objects_modify hadd]
  have halloc : (x.workers.alloc (.forked pid)).objects.map g =
      x.workers.objects.map g ++ [g (.forked pid)] := by simp [Heap.alloc]
  split
  · rw [Heap.map_objects_modify hremove, halloc]
  · exact halloc

theorem fork_pids (pid : ℕ) :
    (x.fork r pid).workers.objects.map (·.pid) = x.workers.objects.map (·.pid) ++ [pid] :=
  fork_map (fun _ => rfl) (fun _ => rfl) pid

/-- An old worker lives on as it was. -/
theorem fork_get?_old (pid : ℕ) {v : ℕ} {o : WorkerObject} (ho : x.workers.get? v = some o) :
    ∃ o', (x.fork r pid).workers.get? v = some o' ∧ o'.online = o.online ∧
      o'.running = o.running := by
  have hmap := fork_map (x := x) (r := r) (g := fun o => (o.online, o.running)) (fun _ => rfl)
    (fun _ => rfl) pid
  obtain ⟨o', ho', hkept⟩ := Heap.get?_of_map_prefix ⟨_, hmap.symm⟩ ho
  exact ⟨o', ho', congrArg Prod.fst hkept, congrArg Prod.snd hkept⟩

/-- The objects after a fork: the forked one with a listener, and the old ones, of which the one
    with the previous subscription has lost its listener. -/
theorem fork_get? (hsub : ∀ p, x.config.broadcastSubscription = some p → p.config = r) {pid v : ℕ}
    {o' : WorkerObject} (h : (x.fork r pid).workers.get? v = some o') :
    (v = x.workers.next ∧ o' = (WorkerObject.forked pid).addListener .broadcast) ∨
      ∃ o, x.workers.get? v = some o ∧
        o' = if x.config.broadcastSubscription = some ⟨r, v⟩ then o.removeListener .broadcast
          else o := by
  have hprevious : ∀ (H : Heap WorkerObject) (f : WorkerObject → WorkerObject),
      (match x.config.broadcastSubscription with
        | some previous => H.modify previous.fork f
        | none => H).get? v =
          (H.get? v).map fun a => if x.config.broadcastSubscription = some ⟨r, v⟩ then f a else a := by
    intro H f
    cases hs : x.config.broadcastSubscription with
    | none => simp
    | some p =>
      obtain ⟨config, fork⟩ := p
      obtain rfl : config = r := hsub _ hs
      simp [Heap.get?_modify, eq_comm]
  unfold fork at h
  dsimp only at h
  rw [Heap.get?_modify, hprevious, Option.map_map, Option.map_eq_some_iff] at h
  obtain ⟨o, ho, rfl⟩ := h
  rcases Heap.get?_alloc_eq_some.mp ho with ho | ⟨rfl, rfl⟩
  · have hne : v ≠ x.workers.next := Nat.ne_of_lt (Heap.lt_next ho)
    exact .inr ⟨o, ho, by simp [hne]⟩
  · refine .inl ⟨rfl, ?_⟩
    have hno : ∀ l, (WorkerObject.forked pid).removeListener l = .forked pid := fun _ => rfl
    simp [hno]

/-- The forked worker is the last one. -/
theorem fork_get?_next (hsub : ∀ p, x.config.broadcastSubscription = some p → p.config = r)
    (pid : ℕ) : (x.fork r pid).workers.get? x.workers.next =
      some ((WorkerObject.forked pid).addListener .broadcast) := by
  have hlt : x.workers.next < (x.fork r pid).workers.next := by
    rw [fork_next]
    exact Nat.lt_succ_self _
  obtain ⟨o', ho'⟩ : ∃ o', (x.fork r pid).workers.get? x.workers.next = some o' :=
    ⟨_, List.getElem?_eq_getElem hlt⟩
  rcases fork_get? hsub ho' with ⟨-, rfl⟩ | ⟨o, ho, -⟩
  · exact ho'
  · exact absurd (Heap.lt_next ho) (Nat.lt_irrefl _)

end Slot

/-- A fork makes the new worker the one the slot denotes and listens to. -/
theorem ReadyToFork.fork {m : ℕ} {r : Heap.Ref} {x : Slot} (h : ReadyToFork m r x) (pid : ℕ) :
    Bookkept m r (x.fork r pid) := by
  have hnext := x.fork_next (r := r) pid
  have hsub : ∀ p, x.config.broadcastSubscription = some p → p.config = r :=
    fun p hp => (h.subscription p hp).1
  have hget : ∀ v o', (x.fork r pid).workers.get? v = some o' → _ := fun v o' => Slot.fork_get? hsub
  have hlast := Slot.fork_get?_next hsub pid
  have hold : ∀ v o, x.workers.get? v = some o → v + 1 ≠ (x.fork r pid).workers.next := by
    intro v o ho
    rw [hnext]
    exact fun heq => Nat.ne_of_lt (Heap.lt_next ho) (Nat.succ.inj heq)
  refine ⟨h.attempts_nonneg, h.attempts_le, ?_, ?_, ?_, fun v o' ho' hrun => ?_, fun v o' ho' => ?_⟩
  · show ((x.config.allWorkerPid ++ [pid]).length : ℤ) = m - x.config.attemptsRemaining + 1
    rw [List.length_append, ← h.forks]
    rfl
  · show x.config.allWorkerPid ++ [pid] = _
    rw [Slot.fork_pids, h.allWorkerPid]
  · exact ⟨x.workers.next, _, hlast, hnext.symm, rfl, rfl, fun _ => rfl, rfl⟩
  · rcases hget v o' ho' with ⟨rfl, -⟩ | ⟨o, ho, rfl⟩
    · exact hnext.symm
    · have hdown := h.down v o ho
      split at hrun <;> exact absurd (hdown.symm.trans hrun) (by decide)
  · rcases hget v o' ho' with ⟨rfl, rfl⟩ | ⟨o, ho, rfl⟩
    · rw [if_pos hnext.symm]
      rfl
    · rw [if_neg (hold v o ho)]
      have hcount := h.listens v o ho
      split
      · rename_i hs
        rw [if_pos hs] at hcount
        show (o.messageListeners.erase .broadcast).count .broadcast = 0
        rw [List.count_erase_self, hcount]
      · rename_i hs
        rw [if_neg hs] at hcount
        exact hcount

/-- What the bookkeeping does not know may change. -/
theorem Bookkept.of_same {m : ℕ} {r : Heap.Ref} {c : WorkerConfig} {fs fs' : Heap WorkerObject}
    (h : Bookkept m r ⟨c, fs⟩) (hsame : SameWorkers fs fs') : Bookkept m r ⟨c, fs'⟩ := by
  obtain ⟨w, o, ho, hw, hworker, hpid, honline, hsub⟩ := h.last
  have hkey : ∀ {o o' : WorkerObject}, o.key = o'.key → o.pid = o'.pid ∧ o.running = o'.running ∧
      o.messageListeners.count .broadcast = o'.messageListeners.count .broadcast := by
    intro o o' hk
    simpa [WorkerObject.key] using hk
  have hback : SameWorkers fs' fs := hsame.symm
  refine ⟨h.attempts_nonneg, h.attempts_le, h.forks, h.allWorkerPid.trans hsame.map_pid.symm, ?_,
    fun v o' ho' hrun => ?_, fun v o' ho' => ?_⟩
  · obtain ⟨o', ho', hk⟩ := hsame.get? ho
    obtain ⟨hp, hr, -⟩ := hkey hk
    exact ⟨w, o', ho', hw.trans hsame.next_eq.symm, hworker, by rw [hpid, hp],
      fun hon => hr.trans (honline hon), hsub⟩
  · obtain ⟨o, ho, hk⟩ := hback.get? ho'
    show v + 1 = fs'.next
    rw [hsame.next_eq]
    exact h.running v o ho ((hkey hk).2.1.trans hrun)
  · obtain ⟨o, ho, hk⟩ := hback.get? ho'
    show _ = if v + 1 = fs'.next then 1 else 0
    rw [hsame.next_eq, ← (hkey hk).2.2]
    exact h.listens v o ho

/-- A worker that runs is the last fork, so the slot is online rightly. -/
theorem Bookkept.online {m : ℕ} {r : Heap.Ref} {x : Slot} (h : Bookkept m r x) {v : ℕ}
    {o : WorkerObject} (ho : x.workers.get? v = some o) (hrun : o.running = true) :
    Bookkept m r (x.online v) := by
  have hsame : SameWorkers x.workers (x.online v).workers := .modify _ _ fun _ => rfl
  have hx : Bookkept m r ⟨{ x.config with isOnline := true }, x.workers⟩ := by
    obtain ⟨w, o', ho', hw, hworker, hpid, -, hsub⟩ := h.last
    obtain rfl : v = w := Nat.succ.inj ((h.running v o ho hrun).trans hw.symm)
    obtain rfl : o = o' := Option.some.inj (ho.symm.trans ho')
    exact ⟨h.attempts_nonneg, h.attempts_le, h.forks, h.allWorkerPid,
      ⟨v, o, ho, hw, hworker, hpid, fun _ => hrun, hsub⟩, h.running, h.listens⟩
  exact hx.of_same hsame

section Stop

variable {m : ℕ} {r : Heap.Ref} {x : Slot} {v : ℕ} {o : WorkerObject}

/-- The objects after an exit. -/
theorem Slot.stop_get? {u : ℕ} {o' : WorkerObject} (ho' : (x.stop v).workers.get? u = some o') :
    ∃ o, x.workers.get? u = some o ∧ o' = if u = v then { o with running := false } else o := by
  unfold Slot.stop at ho'
  rw [Heap.get?_modify, Option.map_eq_some_iff] at ho'
  obtain ⟨o, ho, rfl⟩ := ho'
  exact ⟨o, ho, rfl⟩

theorem Slot.stop_get?_of {u : ℕ} (ho : x.workers.get? u = some o) :
    (x.stop v).workers.get? u = some (if u = v then { o with running := false } else o) := by
  unfold Slot.stop
  rw [Heap.get?_modify, ho, Option.map_some]

theorem Slot.online_get?_of {u : ℕ} (ho : x.workers.get? u = some o) :
    (x.online v).workers.get? u = some (if u = v then { o with online := true } else o) := by
  unfold Slot.online
  rw [Heap.get?_modify, ho, Option.map_some]

theorem Slot.stop_next : (x.stop v).workers.next = x.workers.next := Heap.next_modify _ _ _

theorem Slot.stop_pids :
    (x.stop v).workers.objects.map (·.pid) = x.workers.objects.map (·.pid) :=
  Heap.map_objects_modify (f := fun o : WorkerObject => { o with running := false }) (fun _ => rfl) _ _

/-- No other worker ran than the one that exits. -/
theorem Bookkept.stop_down (h : Bookkept m r x) (ho : x.workers.get? v = some o)
    (hrun : o.running = true) {u : ℕ} {o' : WorkerObject}
    (ho' : (x.stop v).workers.get? u = some o') : o'.running = false := by
  obtain ⟨o₁, ho₁, rfl⟩ := Slot.stop_get? ho'
  by_cases huv : u = v
  · rw [if_pos huv]
  · rw [if_neg huv, Bool.eq_false_iff]
    intro hrun₁
    exact huv (Nat.succ.inj ((h.running u o₁ ho₁ hrun₁).trans (h.running v o ho hrun).symm))

theorem Bookkept.stop_listens (h : Bookkept m r x) {u : ℕ} {o' : WorkerObject}
    (ho' : (x.stop v).workers.get? u = some o') :
    o'.messageListeners.count .broadcast = if u + 1 = x.workers.next then 1 else 0 := by
  obtain ⟨o₁, ho₁, rfl⟩ := Slot.stop_get? ho'
  rw [← h.listens u o₁ ho₁]
  split <;> rfl

/-- An exit without a restart. -/
theorem Bookkept.stop (h : Bookkept m r x) (ho : x.workers.get? v = some o)
    (hrun : o.running = true) : Bookkept m r (x.stop v) := by
  have hnext := x.stop_next (v := v)
  have hdown : ∀ {u : ℕ} {o' : WorkerObject}, (x.stop v).workers.get? u = some o' →
      o'.running = false := h.stop_down ho hrun
  refine ⟨h.attempts_nonneg, h.attempts_le, h.forks, h.allWorkerPid.trans Slot.stop_pids.symm, ?_,
    fun u o' ho' hrun' => ?_, fun u o' ho' => ?_⟩
  · obtain ⟨w, o', ho', hw, hworker, hpid, -, hsub⟩ := h.last
    refine ⟨w, _, Slot.stop_get?_of ho', hw.trans hnext.symm, hworker, ?_,
      fun hon => absurd hon Bool.false_ne_true, hsub⟩
    rw [show (x.stop v).config.currentWorkerPid = x.config.currentWorkerPid from rfl, hpid]
    split <;> rfl
  · exact absurd ((hdown ho').symm.trans hrun') (by decide)
  · rw [hnext]
    exact h.stop_listens ho'

/-- An exit after which the worker is restarted. -/
theorem Bookkept.stop_useAttempt (h : Bookkept m r x) (ho : x.workers.get? v = some o)
    (hrun : o.running = true) (hattempts : 0 < x.config.attemptsRemaining) :
    ReadyToFork m r (x.stop v).useAttempt := by
  have hle := h.attempts_le
  have hforks := h.forks
  obtain ⟨w, -, -, hw, -, -, -, hsub⟩ := h.last
  have hlast : ∀ u, x.config.broadcastSubscription = some ⟨r, u⟩ ↔ u + 1 = x.workers.next := by
    intro u
    rw [hsub, Option.some.injEq, WorkerRef.mk.injEq, and_iff_right rfl, ← hw]
    exact ⟨fun h => congrArg (· + 1) h.symm, fun h => (Nat.succ.inj h).symm⟩
  constructor
  · show 0 ≤ x.config.attemptsRemaining - 1
    omega
  · show x.config.attemptsRemaining - 1 ≤ m
    omega
  · show (x.config.allWorkerPid.length : ℤ) = m - (x.config.attemptsRemaining - 1)
    omega
  · exact h.allWorkerPid.trans Slot.stop_pids.symm
  · rfl
  · exact fun u o' ho' => h.stop_down ho hrun ho'
  · intro p hp
    have hsub' : x.config.broadcastSubscription = some p := hp
    rw [hsub] at hsub'
    cases hsub'
    refine ⟨rfl, ?_⟩
    show w < (x.stop v).workers.next
    rw [Slot.stop_next, ← hw]
    exact Nat.lt_succ_self w
  · intro u o' ho'
    show _ = if x.config.broadcastSubscription = some ⟨r, u⟩ then 1 else 0
    rw [h.stop_listens ho']
    simp only [hlast]

end Stop

/-- The slot of a CPU before its first fork. -/
theorem ReadyToFork.first (m : ℕ) (r : Heap.Ref) {x : Slot} (hworkers : x.workers = ⟨[]⟩)
    (hattempts : x.config.attemptsRemaining = m) (hpids : x.config.allWorkerPid = [])
    (hsub : x.config.broadcastSubscription = none) (hoffline : x.config.isOnline = false) :
    ReadyToFork m r x := by
  have hnone : ∀ v o, x.workers.get? v ≠ some o := by
    intro v o ho
    rw [hworkers] at ho
    cases ho
  refine ⟨by omega, hattempts.le, by rw [hpids, hattempts, sub_self]; rfl, by rw [hpids, hworkers]; rfl,
    hoffline, fun v o ho => absurd ho (hnone v o), fun p hp => ?_, fun v o ho => absurd ho (hnone v o)⟩
  rw [hsub] at hp
  cases hp

end NestTemplate
