import NestTemplate.Cluster.Bookkeeping

/-!
# Broadcasts

A broadcast is handed on by the subscription of the worker it comes from. The
bookkeeping attaches one subscription to the worker that a CPU owns, and none to
those that were replaced.

* `foldl_deliver_of_broadcast`: a broadcast is made once for every subscription.
* `broadcast_exact`: what a broadcast does in any reachable state.
-/

namespace NestTemplate

open Common SetupClusterService

namespace Primary

variable {cfg : ClusterConfig} {throws : WorkerRef → Bool} {m : InterProcessCommunication}

/-- The calls of a broadcast: one for every configuration that is online. -/
def broadcastCalls (s : Primary) (m : InterProcessCommunication) : List SendCall :=
  (s.workerAttemptCheck.objects.filter (·.isOnline)).map fun c =>
    { worker := c.worker, command := m.command, message := m.message }

/-- Only the subscription to broadcasts listens to one. -/
theorem deliver_of_broadcast (his : m.Is .BroadcastCommand) (s : Primary) (l : Listener) :
    deliver cfg throws m s l =
      if l = .broadcast then { s with calls := s.calls ++ s.broadcastCalls m } else s := by
  cases l with
  | broadcast =>
    rw [deliver, if_pos his, broadcastToAllWorkers_eq_ok, if_pos rfl]
    rfl
  | healthCheck i =>
    have hstatus : ¬ m.Is .HealthCheckStatus := by
      intro h
      cases h.unique his
    rw [deliver, if_neg hstatus, if_neg (by intro h; cases h)]

/-- A broadcast is made once for every subscription of the worker it comes from. -/
theorem foldl_deliver_of_broadcast (his : m.Is .BroadcastCommand) (ls : List Listener)
    (s : Primary) : ls.foldl (deliver cfg throws m) s =
      { s with
        calls := s.calls ++ (List.replicate (ls.count .broadcast) (s.broadcastCalls m)).flatten } := by
  induction ls generalizing s with
  | nil => simp
  | cons l ls ih =>
    rw [List.foldl_cons, deliver_of_broadcast his, ih, List.count_cons]
    by_cases hl : l = .broadcast
    · subst hl
      simp [List.replicate_succ, broadcastCalls]
    · simp [hl]

end Primary

namespace Bookkept

variable {m : ℕ} {x : Slot} {w : WorkerRef} {o : WorkerObject}

/-- The worker that a configuration owns is the one that is listened to. -/
theorem count_broadcast (h : Bookkept m w.config x) (ho : x.workers.get? w.fork = some o) :
    o.messageListeners.count .broadcast = if x.config.worker = some w then 1 else 0 := by
  obtain ⟨v, -, -, hv, hworker, -⟩ := h.last
  have howns : x.config.worker = some w ↔ w.fork + 1 = x.workers.next := by
    rw [hworker, ← hv]
    constructor
    · intro hw
      rw [← Option.some.inj hw]
    · intro heq
      rw [← Nat.succ.inj heq]
  rw [h.listens _ _ ho]
  simp only [howns]

end Bookkept

open Primary

variable {cfg : ClusterConfig} {cpus : ℕ} {pid : ℕ → ℕ} {s : Primary} {es : List Event}

/-- **Main theorem**: a broadcast from the worker that a CPU owns makes one call for every
    configuration that is online, with the message it brought, whichever sends throw; one from a
    worker that was replaced does nothing. -/
theorem broadcast_exact (hrun : Run (Step cfg) (startInWorker cfg cpus pid) es s)
    (hcrashed : s.crashed = false) {w : WorkerRef} {o : WorkerObject} {c : WorkerConfig}
    (ho : s.worker? w = some o) (hc : s.workerAttemptCheck.get? w.config = some c) {event : Json}
    {m : InterProcessCommunication} (hevent : InterProcessCommunication.ofEvent event = some m)
    (his : m.Is .BroadcastCommand) (throws : WorkerRef → Bool) :
    perform cfg s (.message w event throws) = some
      { s with
        calls := s.calls ++ if c.worker = some w then
          (s.workerAttemptCheck.objects.filter (·.isOnline)).map fun c =>
            { worker := c.worker, command := m.command, message := m.message }
        else [] } := by
  have hslot : s.slot? w.config = some ⟨c, s.workers w.config⟩ := slot?_eq_some.mpr ⟨hc, rfl⟩
  have hcount := ((Bookkeeping.run hrun).slots _ _ hslot).count_broadcast ho
  have hmessage : message cfg throws event o.messageListeners s =
      o.messageListeners.foldl (deliver cfg throws m) s := by
    rw [message, hevent]
  have hperform : perform cfg s (.message w event throws) =
      (s.worker? w).map fun o => message cfg throws event o.messageListeners s :=
    if_neg (by rw [hcrashed]; exact Bool.false_ne_true)
  rw [hperform, ho, Option.map_some, hmessage, foldl_deliver_of_broadcast his, hcount]
  split <;> simp [broadcastCalls]

namespace Primary.Sample

/-- A message to broadcast. -/
def reload : InterProcessCommunication where
  command := .str CommunicationCommands.BroadcastCommand.text
  message := .obj [("command", .str "reload"), ("message", .null)]

/-- The state after `restarts`, in which the second CPU's worker alone is online. -/
def restarted : Primary := (runAll (perform config) start restarts).getD start

end Primary.Sample

theorem broadcast_exact_sample :
    (perform Primary.Sample.config Primary.Sample.restarted
      (.message ⟨1, 0⟩ Primary.Sample.reload.event fun _ => true)).map (·.calls.length) = some 1 := by
  have hrun : Run (Step Primary.Sample.config) (startInWorker Primary.Sample.config 8 (100 + ·))
      Primary.Sample.restarts Primary.Sample.restarted := run_runAll rfl
  have hcalls := broadcast_exact hrun rfl (w := ⟨1, 0⟩) rfl rfl (m := Primary.Sample.reload)
    (InterProcessCommunication.ofEvent_message _) rfl fun _ => true
  rw [hcalls]
  rfl

end NestTemplate
