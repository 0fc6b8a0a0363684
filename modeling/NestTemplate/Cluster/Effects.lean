import NestTemplate.Cluster.Slots

/-!
# What an event does to the workers

Most events of the primary leave the workers and their configurations alone. The
other two are a worker that comes online and one that exits.

* `perform_cases`: an event is a quiet one, or a worker comes online, or exits.
* `slot?_online`, `slot?_exit`: the effect of these on every slot.
-/

namespace NestTemplate

open Common SetupClusterService

/-! ## Quiet events -/

/-- What of a worker object changes with its life, or with the bookkeeping. -/
def WorkerObject.life (o : WorkerObject) : (ℕ × Bool × ℕ) × Bool := (o.key, o.online)

/-- `m'` is what has become of the monitor `m`: a closed one stays closed. -/
def Monitor.Becomes (m m' : Monitor) : Prop :=
  m'.worker = m.worker ∧ (m.closed = true → m'.closed = true)

namespace Monitor

theorem status_becomes (cfg : HealthCheckConfig) (now : ℕ) (ok : Bool) (m : Monitor) :
    m.Becomes (m.status cfg now ok) := by
  unfold status
  split
  · exact ⟨observe_worker .., fun hclosed => (observe_closed ..).trans hclosed⟩
  · exact ⟨rfl, id⟩

theorem timeout_becomes (cfg : HealthCheckConfig) (now : ℕ) (m : Monitor) :
    m.Becomes (m.timeout cfg now) :=
  ⟨observe_worker .., fun hclosed => (observe_closed ..).trans hclosed⟩

theorem audit_becomes (cfg : HealthCheckConfig) (m : Monitor) : m.Becomes (m.audit cfg).1 := by
  rcases m.audit_cases cfg with ⟨-, haudit⟩ | ⟨-, -, haudit⟩ | ⟨-, -, haudit⟩ <;> rw [haudit]
  · exact ⟨rfl, id⟩
  · exact ⟨rfl, id⟩
  · exact ⟨rfl, fun _ => rfl⟩

end Monitor

namespace Primary

/-- From `s` to `t`, no worker has come or gone, and no health check has begun. -/
structure Quiet (s t : Primary) : Prop where
  workerAttemptCheck : t.workerAttemptCheck = s.workerAttemptCheck
  lives : ∀ r, (t.workers r).objects.map (·.life) = (s.workers r).objects.map (·.life)
  closeEvents : t.closeEvents = s.closeEvents
  monitors : ∀ i m', t.monitors.get? i = some m' →
    ∃ m, s.monitors.get? i = some m ∧ m.Becomes m'

namespace Quiet

variable {s t u : Primary}

theorem of_eq (hconfigs : t.workerAttemptCheck = s.workerAttemptCheck)
    (hworkers : t.workers = s.workers) (hclose : t.closeEvents = s.closeEvents)
    (hmonitors : t.monitors = s.monitors) : Quiet s t where
  workerAttemptCheck := hconfigs
  lives _ := by rw [hworkers]
  closeEvents := hclose
  monitors i m' h := ⟨m', hmonitors ▸ h, rfl, id⟩

theorem refl (s : Primary) : Quiet s s := .of_eq rfl rfl rfl rfl

theorem trans (h : Quiet s t) (h' : Quiet t u) : Quiet s u where
  workerAttemptCheck := h'.workerAttemptCheck.trans h.workerAttemptCheck
  lives r := (h'.lives r).trans (h.lives r)
  closeEvents := h'.closeEvents.trans h.closeEvents
  monitors i m'' hm'' := by
    obtain ⟨m', hm', hw', hc'⟩ := h'.monitors i m'' hm''
    obtain ⟨m, hm, hw, hc⟩ := h.monitors i m' hm'
    exact ⟨m, hm, hw'.trans hw, fun hclosed => hc' (hc hclosed)⟩

theorem updateWorker (s : Primary) (w : WorkerRef) {f : WorkerObject → WorkerObject}
    (hf : ∀ o, (f o).life = o.life) : Quiet s (s.updateWorker w f) := by
  refine ⟨rfl, fun r => ?_, rfl, fun i m hm => ⟨m, hm, rfl, id⟩⟩
  unfold Primary.updateWorker
  dsimp only
  by_cases hr : r = w.config
  · subst hr
    rw [Function.update_self]
    exact Heap.map_objects_modify hf _ _
  · rw [Function.update_of_ne hr]

theorem updateMonitor (s : Primary) (i : Heap.Ref) {f : Monitor → Monitor}
    (hf : ∀ m, s.monitors.get? i = some m → m.Becomes (f m)) : Quiet s (s.updateMonitor i f) := by
  refine ⟨rfl, fun _ => rfl, rfl, fun j m' hm' => ?_⟩
  unfold Primary.updateMonitor at hm'
  rw [Heap.get?_modify, Option.map_eq_some_iff] at hm'
  obtain ⟨m, hm, rfl⟩ := hm'
  refine ⟨m, hm, ?_⟩
  split
  · rename_i hj
    exact hf m (hj ▸ hm)
  · exact ⟨rfl, id⟩

theorem sameWorkers (h : Quiet s t) (r : Heap.Ref) : SameWorkers (s.workers r) (t.workers r) := by
  have hkeys := congrArg (List.map Prod.fst) (h.lives r)
  simpa [SameWorkers, WorkerObject.life, Function.comp_def] using hkeys

theorem worker? (h : Quiet s t) {w : WorkerRef} {o : WorkerObject} (ho : s.worker? w = some o) :
    ∃ o', t.worker? w = some o' ∧ o'.life = o.life :=
  Heap.get?_of_map_prefix ⟨[], (List.append_nil _).trans (h.lives w.config).symm⟩ ho

end Quiet

/-- A health check's listener is none of the bookkeeping's. -/
theorem removeListener_healthCheck_life (i : Heap.Ref) (o : WorkerObject) :
    (o.removeListener (.healthCheck i)).life = o.life := by
  have hcount : (o.messageListeners.erase (.healthCheck i)).count .broadcast =
      o.messageListeners.count .broadcast := List.count_erase_of_ne (by intro h; cases h)
  simp [WorkerObject.life, WorkerObject.key, WorkerObject.removeListener, hcount]

theorem addListener_healthCheck_life (i : Heap.Ref) (o : WorkerObject) :
    (o.addListener (.healthCheck i)).life = o.life := by
  simp [WorkerObject.life, WorkerObject.key, WorkerObject.addListener]

theorem closeWindow_quiet (i : Heap.Ref) (m : Monitor) (s : Primary) :
    Quiet s (closeWindow i m s) := by
  unfold closeWindow
  split
  · exact .updateWorker s _ (removeListener_healthCheck_life i)
  · exact .refl s

theorem closeWindow_monitors (i : Heap.Ref) (m : Monitor) (s : Primary) :
    (closeWindow i m s).monitors = s.monitors := by
  unfold closeWindow
  split <;> rfl

theorem deliver_quiet (cfg : ClusterConfig) (throws : WorkerRef → Bool)
    (m : InterProcessCommunication) (s : Primary) (l : Listener) :
    Quiet s (deliver cfg throws m s l) := by
  cases l with
  | broadcast =>
    rw [deliver, broadcastToAllWorkers_eq_ok]
    split
    · exact .of_eq rfl rfl rfl rfl
    · exact .refl s
  | healthCheck i =>
    rw [deliver]
    split
    · split
      · exact .updateMonitor s i fun m _ => m.status_becomes _ _ _
      · have hclosed : Quiet s ((closeWindow i ‹Monitor› s).updateMonitor i Monitor.close) :=
          (closeWindow_quiet i _ s).trans (.updateMonitor _ i fun _ _ => ⟨rfl, fun _ => rfl⟩)
        exact hclosed.trans (.of_eq rfl rfl rfl rfl)
      · exact .refl s
    · exact .refl s

theorem message_quiet (cfg : ClusterConfig) (throws : WorkerRef → Bool) (event : Json)
    (ls : List Listener) (s : Primary) : Quiet s (message cfg throws event ls s) := by
  unfold message
  split
  · induction ls generalizing s with
    | nil => exact .refl s
    | cons l ls ih => exact (deliver_quiet cfg throws _ s l).trans (ih _)
  · exact .refl s

theorem performTimer_quiet {cfg : ClusterConfig} {s t : Primary} {i : Heap.Ref} {m : Monitor}
    {e : Event} (hm : s.monitors.get? i = some m) (h : performTimer cfg s i m e = some t) :
    Quiet s t := by
  cases e with
  | tick =>
    simp only [performTimer] at h
    split at h <;> cases h
    exact ((closeWindow_quiet i m s).trans (.updateWorker _ _ (addListener_healthCheck_life i))).trans
      (.updateMonitor _ _ fun _ _ => ⟨rfl, id⟩)
  | request =>
    simp only [performTimer] at h
    split at h <;> cases h
    rw [sendCommandToWorker_eq_ok]
    exact (Quiet.updateMonitor s i (f := Monitor.request) fun _ _ => ⟨rfl, id⟩).trans
      (.of_eq rfl rfl rfl rfl)
  | timeout =>
    simp only [performTimer] at h
    split at h <;> cases h
    exact (closeWindow_quiet i m s).trans (.updateMonitor _ _ fun m _ => m.timeout_becomes _ _)
  | audit =>
    simp only [performTimer] at h
    split at h
    · split at h <;> cases h
      · refine ((closeWindow_quiet i m s).trans (.updateMonitor _ i fun m' hm' => ?_)).trans
          (.updateWorker _ _ fun _ => rfl)
        rw [closeWindow_monitors, hm] at hm'
        cases hm'
        exact m.audit_becomes _
      · refine .updateMonitor _ i fun m' hm' => ?_
        rw [hm] at hm'
        cases hm'
        exact m.audit_becomes _
    · cases h
  | elapse | online | exit | message => cases h

/-- What an event is to the bookkeeping. -/
theorem perform_cases {cfg : ClusterConfig} {s t : Primary} {e : Event}
    (h : perform cfg s e = some t) :
    ((∀ w, e ≠ .online w) ∧ (∀ w pid, e ≠ .exit w pid) ∧ Quiet s t) ∨
      (∃ w o, e = .online w ∧ s.worker? w = some o ∧ o.running = true ∧ o.online = false ∧
        t = online cfg w (s.updateWorker w fun o => { o with online := true })) ∨
      ∃ w pid o, e = .exit w pid ∧ s.worker? w = some o ∧ o.running = true ∧
        t = exit cfg pid w (s.updateWorker w fun o => { o with running := false }) := by
  unfold perform at h
  split at h
  · cases h
  cases e with
  | elapse ms =>
    cases h
    exact .inl ⟨nofun, nofun, .of_eq rfl rfl rfl rfl⟩
  | online w =>
    obtain ⟨o, ho, h⟩ := Option.bind_eq_some_iff.mp h
    split at h
    · rename_i hon
      cases h
      exact .inr (.inl ⟨w, o, rfl, ho, hon.1, Bool.eq_false_iff.mpr hon.2, rfl⟩)
    · cases h
  | exit w pid =>
    obtain ⟨o, ho, h⟩ := Option.bind_eq_some_iff.mp h
    split at h
    · rename_i hrun
      cases h
      exact .inr (.inr ⟨w, pid, o, rfl, ho, hrun, rfl⟩)
    · cases h
  | message w event throws =>
    obtain ⟨o, -, rfl⟩ := Option.map_eq_some_iff.mp h
    exact .inl ⟨nofun, nofun, message_quiet cfg throws event _ s⟩
  | tick | request | timeout | audit =>
    obtain ⟨m, hm, h⟩ := Option.bind_eq_some_iff.mp h
    exact .inl ⟨nofun, nofun, performTimer_quiet hm h⟩

/-- An exit is handled by the `'exit'` handler. -/
theorem perform_exit {cfg : ClusterConfig} {s t : Primary} {w : WorkerRef} {pid : ℕ}
    (h : perform cfg s (.exit w pid) = some t) :
    ∃ o, s.worker? w = some o ∧ o.running = true ∧
      t = exit cfg pid w (s.updateWorker w fun o => { o with running := false }) := by
  rcases perform_cases h with ⟨-, hexit, -⟩ | ⟨_, _, he, -⟩ | ⟨w', pid', o, he, ho, hrun, ht⟩
  · exact absurd rfl (hexit w pid)
  · cases he
  · cases he
    exact ⟨o, ho, hrun, ht⟩

/-! ## Slots of the primary -/

/-- The slot of the configuration `r`. -/
def slot? (s : Primary) (r : Heap.Ref) : Option Slot :=
  (s.workerAttemptCheck.get? r).map (⟨·, s.workers r⟩)

/-- The CPUs of the configurations. -/
def cpuIds (s : Primary) : List ℕ := s.workerAttemptCheck.objects.map (·.workerCpuId)

variable {s t : Primary} {r : Heap.Ref} {x : Slot}

theorem slot?_eq_some : s.slot? r = some x ↔
    s.workerAttemptCheck.get? r = some x.config ∧ s.workers r = x.workers := by
  obtain ⟨config, workers⟩ := x
  unfold slot?
  simp [Option.map_eq_some_iff]

theorem worker?_eq {w : WorkerRef} (h : s.slot? w.config = some x) :
    s.worker? w = x.workers.get? w.fork := by
  rw [worker?, (slot?_eq_some.mp h).2]

theorem slot?_eq_none : s.slot? r = none ↔ s.cpuIds.length ≤ r := by
  unfold slot? cpuIds
  rw [Option.map_eq_none_iff, List.length_map]
  exact List.getElem?_eq_none_iff

theorem slot?_updateWorker (s : Primary) (w : WorkerRef) (f : WorkerObject → WorkerObject)
    (r : Heap.Ref) : (s.updateWorker w f).slot? r = (s.slot? r).map fun x =>
      if r = w.config then { x with workers := x.workers.modify w.fork f } else x := by
  unfold slot? updateWorker
  rw [Option.map_map]
  by_cases hr : r = w.config
  · subst hr
    simp [Function.comp_def]
  · simp [Function.comp_def, hr]

theorem slot?_updateConfig (s : Primary) (c : Heap.Ref) (f : WorkerConfig → WorkerConfig)
    (r : Heap.Ref) : (s.updateConfig c f).slot? r = (s.slot? r).map fun x =>
      if r = c then { x with config := f x.config } else x := by
  unfold slot? updateConfig
  rw [Heap.get?_modify, Option.map_map, Option.map_map]
  refine Option.map_congr fun conf _ => ?_
  show (⟨if r = c then f conf else conf, s.workers r⟩ : Slot) = _
  by_cases hr : r = c
  · rw [if_pos hr, Function.comp_apply, if_pos hr]
  · rw [if_neg hr, Function.comp_apply, if_neg hr]

theorem cpuIds_updateConfig (c : Heap.Ref) {f : WorkerConfig → WorkerConfig}
    (hf : ∀ c, (f c).workerCpuId = c.workerCpuId) : (s.updateConfig c f).cpuIds = s.cpuIds :=
  Heap.map_objects_modify hf _ _

/-- Where no CPU has two configurations, `find` finds the one that is asked for. -/
theorem findConfig_eq_some (hids : s.cpuIds.Nodup) (h : s.slot? r = some x) :
    findConfig s x.config.workerCpuId = some (r, x.config) := by
  have hc := (slot?_eq_some.mp h).1
  have hlt : r < s.workerAttemptCheck.objects.length := Heap.lt_next hc
  have hr : s.workerAttemptCheck.objects[r] = x.config := (List.getElem?_eq_some_iff.mp hc).2
  have hidx : s.workerAttemptCheck.objects.findIdx? (·.workerCpuId = x.config.workerCpuId) =
      some r := by
    refine List.findIdx?_eq_some_iff_getElem.mpr ⟨hlt, by simp [hr], fun j hj hid => ?_⟩
    have hsame : s.cpuIds[j]? = s.cpuIds[r]? := by
      have hj' : j < s.workerAttemptCheck.objects.length := hj.trans hlt
      simpa [cpuIds, hlt, hj', hr] using hid
    have hlen : j < s.cpuIds.length := by
      rw [cpuIds, List.length_map]
      exact hj.trans hlt
    exact absurd ((List.getElem?_inj hlen hids).mp hsame) (Nat.ne_of_lt hj)
  unfold findConfig
  rw [hidx, Option.bind_some, hc, Option.map_some]

/-- The old subscription of a slot listens to a worker of that slot. -/
def OwnSubscription (r : Heap.Ref) (x : Slot) : Prop :=
  ∀ p, x.config.broadcastSubscription = some p → p.config = r

/-- `setupSubscriptions` works on the slot of its configuration. -/
theorem slot?_setupSubscriptions {c : Heap.Ref} (fork : ℕ)
    (hsub : ∀ x, s.slot? c = some x → OwnSubscription c x) (r : Heap.Ref) :
    (setupSubscriptions c ⟨c, fork⟩ s).slot? r = (s.slot? r).map fun x =>
      if r = c then
        { config := { x.config with broadcastSubscription := some ⟨c, fork⟩ }
          workers := (match x.config.broadcastSubscription with
            | some previous => x.workers.modify previous.fork (.removeListener .broadcast)
            | none => x.workers).modify fork (.addListener .broadcast) }
      else x := by
  unfold setupSubscriptions
  dsimp only
  by_cases hr : r = c
  · subst hr
    cases hs : s.slot? r with
    | none =>
      have hnone : s.workerAttemptCheck.get? r = none := Option.map_eq_none_iff.mp hs
      rw [hnone, Option.bind_none]
      simp [slot?_updateConfig, slot?_updateWorker, hs]
    | some x =>
      rw [(slot?_eq_some.mp hs).1, Option.bind_some]
      cases hp : x.config.broadcastSubscription with
      | none => simp [slot?_updateConfig, slot?_updateWorker, hs, hp]
      | some p =>
        have hconfig : p.config = r := hsub x hs p hp
        simp [slot?_updateConfig, slot?_updateWorker, hs, hp, hconfig]
  · cases hs : (s.workerAttemptCheck.get? c).bind (·.broadcastSubscription) with
    | none => simp [slot?_updateConfig, slot?_updateWorker, hr]
    | some p =>
      obtain ⟨conf, hconf, hp⟩ := Option.bind_eq_some_iff.mp hs
      have hslot : s.slot? c = some ⟨conf, s.workers c⟩ := slot?_eq_some.mpr ⟨hconf, rfl⟩
      have hconfig : p.config = c := hsub _ hslot p hp
      simp [slot?_updateConfig, slot?_updateWorker, hr, hconfig]

/-- `forkWorker` works on the slot of its configuration. -/
theorem slot?_forkWorker (pid : ℕ) {c : Heap.Ref}
    (hsub : ∀ x, s.slot? c = some x → OwnSubscription c x) (r : Heap.Ref) :
    (forkWorker pid c s).slot? r =
      (s.slot? r).map fun x => if r = c then x.fork c pid else x := by
  have hforked : ({ s with
      workers := Function.update s.workers c ((s.workers c).alloc (.forked pid)) } : Primary).slot? =
        fun r => (s.slot? r).map fun x =>
          if r = c then { x with workers := x.workers.alloc (.forked pid) } else x := by
    funext r
    unfold slot?
    rw [Option.map_map]
    by_cases hr : r = c
    · subst hr
      simp [Function.comp_def]
    · simp [Function.comp_def, hr]
  unfold forkWorker
  dsimp only
  rw [slot?_setupSubscriptions, slot?_updateConfig, hforked]
  · rw [Option.map_map, Option.map_map]
    refine Option.map_congr fun x hx => ?_
    by_cases hr : r = c
    · subst hr
      have hw := (slot?_eq_some.mp hx).2
      simp only [Function.comp_apply, if_true, hw]
      rfl
    · simp only [Function.comp_apply, if_neg hr]
  · intro y hy
    rw [slot?_updateConfig, hforked, Option.map_map] at hy
    obtain ⟨x, hx, rfl⟩ := Option.map_eq_some_iff.mp hy
    simpa [OwnSubscription] using hsub x hx

/-! ### The other slots -/

theorem cpuIds_setupSubscriptions (c : Heap.Ref) (w : WorkerRef) :
    (setupSubscriptions c w s).cpuIds = s.cpuIds := by
  unfold setupSubscriptions
  dsimp only
  rw [cpuIds_updateConfig]
  · split <;> rfl
  · exact fun _ => rfl

theorem cpuIds_forkWorker (pid : ℕ) (c : Heap.Ref) : (forkWorker pid c s).cpuIds = s.cpuIds := by
  unfold forkWorker
  dsimp only
  rw [cpuIds_setupSubscriptions, cpuIds_updateConfig]
  · rfl
  · exact fun _ => rfl

theorem workers_setupSubscriptions {c : Heap.Ref} (fork : ℕ)
    (hsub : ∀ x, s.slot? c = some x → OwnSubscription c x) (hr : r ≠ c) :
    (setupSubscriptions c ⟨c, fork⟩ s).workers r = s.workers r := by
  unfold setupSubscriptions updateConfig updateWorker
  dsimp only
  rw [Function.update_of_ne hr]
  cases hs : (s.workerAttemptCheck.get? c).bind (·.broadcastSubscription) with
  | none => rfl
  | some p =>
    obtain ⟨conf, hconf, hp⟩ := Option.bind_eq_some_iff.mp hs
    have hslot : s.slot? c = some ⟨conf, s.workers c⟩ := slot?_eq_some.mpr ⟨hconf, rfl⟩
    have hconfig : p.config = c := hsub _ hslot p hp
    exact Function.update_of_ne (hconfig ▸ hr) _ _

theorem workers_forkWorker (pid : ℕ) {c : Heap.Ref}
    (hsub : ∀ x, s.slot? c = some x → OwnSubscription c x) (hr : r ≠ c) :
    (forkWorker pid c s).workers r = s.workers r := by
  unfold forkWorker
  dsimp only
  rw [workers_setupSubscriptions _ ?_ hr]
  · exact Function.update_of_ne hr _ _
  · intro y hy
    rw [slot?_updateConfig] at hy
    obtain ⟨x, hx, rfl⟩ := Option.map_eq_some_iff.mp hy
    obtain ⟨hconf, -⟩ := slot?_eq_some.mp hx
    simpa [OwnSubscription] using hsub ⟨x.config, s.workers c⟩ (slot?_eq_some.mpr ⟨hconf, rfl⟩)

/-! ### Restarts -/

/-- `startWorker` for an exited worker. -/
theorem startWorker_previous (cfg : ClusterConfig) (pid : ℕ) (p : WorkerRef)
    (hids : s.cpuIds.Nodup) (h : s.slot? r = some x) :
    startWorker cfg pid x.config.workerCpuId (some p) s =
      if x.config.attemptsRemaining ≤ 0 then checkAllWorkerRemainingAttempts s
      else
        forkWorker pid r <| s.updateConfig r fun c =>
          { c with attemptsRemaining := c.attemptsRemaining - 1 } := by
  rw [startWorker, findConfig_eq_some hids h]
  dsimp only
  split
  · rfl
  · have hslot := slot?_updateConfig s r
      (fun c => { c with attemptsRemaining := c.attemptsRemaining - 1 }) r
    rw [h, Option.map_some, if_pos rfl] at hslot
    have hids' := cpuIds_updateConfig (s := s) r
      (f := fun c => { c with attemptsRemaining := c.attemptsRemaining - 1 }) fun _ => rfl
    have hfind := findConfig_eq_some (hids'.symm ▸ hids) hslot
    rw [startFork, show x.config.workerCpuId = _ from rfl, hfind]

/-- The state in which the `'exit'` handler starts the next worker. -/
def exited (w : WorkerRef) (s : Primary) : Primary :=
  (s.updateWorker w fun o => { o with running := false }).updateConfig w.config fun c =>
    { c with isOnline := false }

theorem slot?_exited (w : WorkerRef) (r : Heap.Ref) :
    (s.exited w).slot? r = (s.slot? r).map fun x => if r = w.config then x.stop w.fork else x := by
  unfold exited
  rw [slot?_updateConfig, slot?_updateWorker, Option.map_map]
  refine Option.map_congr fun x _ => ?_
  by_cases hr : r = w.config
  · rw [if_pos hr, Function.comp_apply, if_pos hr, if_pos hr]
    rfl
  · rw [if_neg hr, Function.comp_apply, if_neg hr, if_neg hr]

theorem cpuIds_exited (w : WorkerRef) : (s.exited w).cpuIds = s.cpuIds := by
  unfold exited
  rw [cpuIds_updateConfig]
  · rfl
  · exact fun _ => rfl

/-- The `'exit'` handler of a worker. -/
theorem exit_eq (cfg : ClusterConfig) (pid : ℕ) {w : WorkerRef} (hids : s.cpuIds.Nodup)
    (h : s.slot? w.config = some x) :
    exit cfg pid w (s.updateWorker w fun o => { o with running := false }) =
      if x.config.attemptsRemaining ≤ 0 then checkAllWorkerRemainingAttempts (s.exited w)
      else
        forkWorker pid w.config <| (s.exited w).updateConfig w.config fun c =>
          { c with attemptsRemaining := c.attemptsRemaining - 1 } := by
  have hslot := slot?_exited (s := s) w w.config
  rw [h, Option.map_some, if_pos rfl] at hslot
  have hconf := (slot?_eq_some.mp hslot).1
  have hstart := startWorker_previous cfg pid w ((cpuIds_exited (s := s) w).symm ▸ hids) hslot
  unfold exit
  dsimp only
  rw [show (Primary.updateConfig _ _ _ : Primary) = s.exited w from rfl, hconf]
  exact hstart

/-- What the `'online'` handler does to the slots. -/
theorem slot?_online (cfg : ClusterConfig) (s : Primary) (w : WorkerRef) (r : Heap.Ref) :
    (online cfg w (s.updateWorker w fun o => { o with online := true })).slot? r =
      (s.slot? r).map fun x => if r = w.config then x.online w.fork else x := by
  show ((s.updateWorker w _).updateConfig _ _).slot? r = _
  rw [slot?_updateConfig, slot?_updateWorker, Option.map_map]
  refine Option.map_congr fun x _ => ?_
  by_cases hr : r = w.config
  · rw [if_pos hr, Function.comp_apply, if_pos hr, if_pos hr]
    rfl
  · rw [if_neg hr, Function.comp_apply, if_neg hr, if_neg hr]

/-- `checkAllWorkerRemainingAttempts` emits, and does nothing else. -/
theorem checkAllWorkerRemainingAttempts_frame (s : Primary) :
    (checkAllWorkerRemainingAttempts s).workerAttemptCheck = s.workerAttemptCheck ∧
      (checkAllWorkerRemainingAttempts s).workers = s.workers ∧
        (checkAllWorkerRemainingAttempts s).monitors = s.monitors := by
  unfold checkAllWorkerRemainingAttempts
  split <;> exact ⟨rfl, rfl, rfl⟩

/-- `forkWorker` works on configurations and workers. -/
theorem forkWorker_frame (pid : ℕ) (c : Heap.Ref) (s : Primary) :
    (forkWorker pid c s).monitors = s.monitors ∧
      (forkWorker pid c s).closeEvents = s.closeEvents := by
  unfold forkWorker setupSubscriptions
  dsimp only
  split <;> exact ⟨rfl, rfl⟩

/-- What the `'exit'` handler does to the slots. -/
theorem slot?_exit (cfg : ClusterConfig) (pid : ℕ) {w : WorkerRef} (hids : s.cpuIds.Nodup)
    (h : s.slot? w.config = some x) (hsub : OwnSubscription w.config x) (r : Heap.Ref) :
    (exit cfg pid w (s.updateWorker w fun o => { o with running := false })).slot? r =
      (s.slot? r).map fun y =>
        if r = w.config then
          if y.config.attemptsRemaining ≤ 0 then y.stop w.fork
          else (y.stop w.fork).useAttempt.fork r pid
        else y := by
  rw [exit_eq cfg pid hids h]
  by_cases hattempts : x.config.attemptsRemaining ≤ 0
  · obtain ⟨hconfigs, hworkers, -⟩ := checkAllWorkerRemainingAttempts_frame (s.exited w)
    have hslot := slot?_exited (s := s) w r
    rw [if_pos hattempts, slot?, hconfigs, hworkers]
    refine hslot.trans (Option.map_congr fun y hy => ?_)
    by_cases hr : r = w.config
    · subst hr
      rw [h] at hy
      cases hy
      simp [hattempts]
    · simp [hr]
  · rw [if_neg hattempts, slot?_forkWorker, slot?_updateConfig, slot?_exited, Option.map_map,
      Option.map_map]
    · refine Option.map_congr fun y hy => ?_
      by_cases hr : r = w.config
      · subst hr
        rw [h] at hy
        cases hy
        simp [hattempts, Slot.useAttempt]
      · simp [hr]
    · intro y hy
      rw [slot?_updateConfig, slot?_exited, h] at hy
      simp only [Option.map_some, if_true, Option.some.injEq] at hy
      subst hy
      exact hsub

end Primary

end NestTemplate
