import NestTemplate.Cluster.HealthCheck

/-!
# `SetupClusterService`

The state of the primary: its `WorkerConfig`s, the worker objects with their
message listeners, and the subscriptions of the health checks. A worker object
is reached through the configuration it was forked for and its number there
(`WorkerRef`), a `WorkerConfig` through its place in `workerAttemptCheck`.
`Event` is what the event loop can hand to the primary next.

* `startWorker`, `setupSubscriptions`, `broadcastToAllWorkers`: the service's methods.
* `perform`: every event, with what the environment guarantees of it: a worker
  comes online at most once, and exits once, after that.
* `broadcastToAllWorkers_eq_ok`: no throwing send keeps the others from being made.
-/

namespace NestTemplate

open Common

/-! ## The state -/

/-- What a `'message'` listener of a worker object does with a command. -/
inductive Listener where
  /-- Hands broadcasts to `broadcastToAllWorkers`. -/
  | broadcast
  /-- Hands statuses to the open window of a health check. -/
  | healthCheck (monitor : Heap.Ref)
  deriving DecidableEq

/-- A `Worker` object, and the process behind it. -/
structure WorkerObject where
  pid : ℕ
  running : Bool
  online : Bool
  killed : Bool
  messageListeners : List Listener

namespace WorkerObject

/-- What `clusterManager.fork()` returns, for the process `pid`. -/
def forked (pid : ℕ) : WorkerObject where
  pid := pid
  running := true
  online := false
  killed := false
  messageListeners := []

/-- `worker.addListener('message', handler)`. -/
def addListener (l : Listener) (o : WorkerObject) : WorkerObject :=
  { o with messageListeners := o.messageListeners ++ [l] }

/-- `worker.removeListener('message', handler)`. -/
def removeListener (l : Listener) (o : WorkerObject) : WorkerObject :=
  { o with messageListeners := o.messageListeners.erase l }

end WorkerObject

structure WorkerConfig where
  workerCpuId : ℕ
  currentWorkerPid : ℤ
  attemptsRemaining : ℤ
  allWorkerPid : List ℕ
  worker : Option WorkerRef
  /-- The worker object that the subscription listens to. -/
  broadcastSubscription : Option WorkerRef
  isOnline : Bool

/-- A call of `sendCommandToWorker`. -/
structure SendCall where
  worker : Option WorkerRef
  command : Json
  message : Json

/-- The cluster's configuration; the number of attempts is a count. -/
structure ClusterConfig where
  cpuMax : ℕ
  maxWorkerAttempts : ℕ
  healthCheckConfig : HealthCheckConfig

/-- The primary process. `calls`, `crashed` and `closeEvents` record what it has done: its calls
    of `sendCommandToWorker`, whether it died of an uncaught error, and the emissions of
    `closeEvent`. -/
structure Primary where
  now : ℕ
  workerAttemptCheck : Heap WorkerConfig
  workers : Heap.Ref → Heap WorkerObject
  monitors : Heap Monitor
  calls : List SendCall
  crashed : Bool
  closeEvents : ℕ

namespace Primary

def initial : Primary where
  now := 0
  workerAttemptCheck := ⟨[]⟩
  workers := fun _ => ⟨[]⟩
  monitors := ⟨[]⟩
  calls := []
  crashed := false
  closeEvents := 0

def worker? (s : Primary) (w : WorkerRef) : Option WorkerObject := (s.workers w.config).get? w.fork

def updateWorker (s : Primary) (w : WorkerRef) (f : WorkerObject → WorkerObject) : Primary :=
  { s with workers := Function.update s.workers w.config ((s.workers w.config).modify w.fork f) }

def updateConfig (s : Primary) (config : Heap.Ref) (f : WorkerConfig → WorkerConfig) : Primary :=
  { s with workerAttemptCheck := s.workerAttemptCheck.modify config f }

def updateMonitor (s : Primary) (i : Heap.Ref) (f : Monitor → Monitor) : Primary :=
  { s with monitors := s.monitors.modify i f }

end Primary

/-! ## The service -/

namespace SetupClusterService

open Primary

/-- `numberOfCpus`, where `os.cpus()` has `cpus` elements. -/
def numberOfCpus (cfg : ClusterConfig) (cpus : ℕ) : ℕ :=
  if cfg.cpuMax = 0 then cpus else if cfg.cpuMax ≤ cpus then cfg.cpuMax else cpus

/-- `checkAllWorkerRemainingAttempts`. -/
def checkAllWorkerRemainingAttempts (s : Primary) : Primary :=
  if s.workerAttemptCheck.objects.any (·.attemptsRemaining > 0) then s
  else { s with closeEvents := s.closeEvents + 1 }

/-- `setupSubscriptions`. `unsubscribe` runs the `finalize` that removes the listener, and
    `subscribeCommandsFromWorker` adds the new one at once. -/
def setupSubscriptions (config : Heap.Ref) (worker : WorkerRef) (s : Primary) : Primary :=
  let s := match (s.workerAttemptCheck.get? config).bind (·.broadcastSubscription) with
    | some previous => s.updateWorker previous (.removeListener .broadcast)
    | none => s
  (s.updateWorker worker (.addListener .broadcast)).updateConfig config fun c =>
    { c with broadcastSubscription := some worker }

/-- `this.workerAttemptCheck.find((worker) => worker.workerCpuId === workerCpuId)`, with its place. -/
def findConfig (s : Primary) (workerCpuId : ℕ) : Option (Heap.Ref × WorkerConfig) :=
  (s.workerAttemptCheck.objects.findIdx? (·.workerCpuId = workerCpuId)).bind fun config =>
    (s.workerAttemptCheck.get? config).map (config, ·)

/-- The first block of `startWorker`, for a CPU without a previous worker. -/
def pushConfig (cfg : ClusterConfig) (workerCpuId : ℕ) (s : Primary) : Primary :=
  { s with
    workerAttemptCheck := s.workerAttemptCheck.alloc
      { workerCpuId := workerCpuId
        currentWorkerPid := -1
        attemptsRemaining := cfg.maxWorkerAttempts
        allWorkerPid := []
        worker := none
        broadcastSubscription := none
        isOnline := false } }

/-- The last block of `startWorker` once `find` has found `config`: `clusterManager.fork()` starts
    the process `pid`. -/
def forkWorker (pid : ℕ) (config : Heap.Ref) (s : Primary) : Primary :=
  let worker : WorkerRef := ⟨config, (s.workers config).next⟩
  let s := { s with
    workers := Function.update s.workers config ((s.workers config).alloc (.forked pid)) }
  setupSubscriptions config worker <| s.updateConfig config fun c =>
    { c with
      allWorkerPid := c.allWorkerPid ++ [pid]
      currentWorkerPid := pid
      worker := some worker }

/-- The last block of `startWorker`. -/
def startFork (pid workerCpuId : ℕ) (s : Primary) : Primary :=
  match findConfig s workerCpuId with
  | some (config, _) => forkWorker pid config s
  | none => s

/-- `startWorker`. A configuration that `find` is asked for is there (`as WorkerConfig`). -/
def startWorker (cfg : ClusterConfig) (pid workerCpuId : ℕ) (previousWorker : Option WorkerRef)
    (s : Primary) : Primary :=
  match previousWorker with
  | none => startFork pid workerCpuId (pushConfig cfg workerCpuId s)
  | some _ =>
    match findConfig s workerCpuId with
    | none => s
    | some (config, c) =>
      if c.attemptsRemaining ≤ 0 then checkAllWorkerRemainingAttempts s
      else
        startFork pid workerCpuId <| s.updateConfig config fun c =>
          { c with attemptsRemaining := c.attemptsRemaining - 1 }

/-- `startInWorker`; `pid i` is the first process for the CPU `i`. -/
def startInWorker (cfg : ClusterConfig) (cpus : ℕ) (pid : ℕ → ℕ) : Primary :=
  (List.range' 1 (numberOfCpus cfg cpus)).foldl (fun s i => startWorker cfg (pid i) i none s) .initial

/-- `sendCommandToWorker`. The `try` also catches that `worker` is `null`. -/
def sendCommandToWorker (throws : WorkerRef → Bool) (worker : Option WorkerRef)
    (command message : Json) : Action Unit Primary Unit := do
  Action.write fun s => .ok { s with calls := s.calls ++ [{ worker, command, message }] }
  Action.attempt (Action.guard (worker.any (!throws ·)) ())

/-- `broadcastToAllWorkers`. -/
def broadcastToAllWorkers (throws : WorkerRef → Bool) (command message : Json) :
    Action Unit Primary Unit := do
  let workers ← Action.read fun s => s.workerAttemptCheck.objects.filter (·.isOnline)
  Action.forEach (fun c => sendCommandToWorker throws c.worker command message) workers

/-! ### What the sends do -/

theorem sendCommandToWorker_eq_ok (throws : WorkerRef → Bool) (worker : Option WorkerRef)
    (command message : Json) (s : Primary) :
    sendCommandToWorker throws worker command message s =
      (.ok (), { s with calls := s.calls ++ [{ worker, command, message }] }) := by
  have hguard (t : Primary) : (Action.guard (worker.any (!throws ·)) () t).2 = t := by
    rw [Action.guard_run]
  exact congrArg (Prod.mk (Except.ok ()))
    (hguard { s with calls := s.calls ++ [{ worker, command, message }] })

/-- Every worker that is online is sent the command once, whichever of the sends throw. -/
theorem broadcastToAllWorkers_eq_ok (throws : WorkerRef → Bool) (command message : Json)
    (s : Primary) :
    broadcastToAllWorkers throws command message s =
      (.ok (), { s with
        calls := s.calls ++ (s.workerAttemptCheck.objects.filter (·.isOnline)).map fun c =>
          { worker := c.worker, command, message } }) := by
  have hfold : ∀ (cs : List WorkerConfig) (s : Primary),
      cs.foldl (fun s c => { s with calls := s.calls ++ [{ worker := c.worker, command, message }] })
        s = { s with calls := s.calls ++ cs.map fun c => { worker := c.worker, command, message } } := by
    intro cs
    induction cs with
    | nil => intro s; simp
    | cons c cs ih =>
      intro s
      rw [List.foldl_cons, ih, List.map_cons, List.append_assoc]
      rfl
  have hsends := Action.forEach_of_ok
    (f := fun c : WorkerConfig => sendCommandToWorker throws c.worker command message)
    (fun c s => sendCommandToWorker_eq_ok throws c.worker command message s)
    (s.workerAttemptCheck.objects.filter (·.isOnline)) s
  rw [hfold] at hsends
  exact (Action.bind_of_ok (Action.read_run _ s) _).trans hsends

end SetupClusterService

/-! ## The events -/

namespace Primary

open SetupClusterService

/-- The `'online'` handler. -/
def online (cfg : ClusterConfig) (w : WorkerRef) (s : Primary) : Primary :=
  let s := s.updateConfig w.config fun c => { c with isOnline := true }
  { s with monitors := s.monitors.alloc (.start cfg.healthCheckConfig s.now w) }

/-- The `'exit'` handler. The `workerCpuId` of its closure is that of the `workerConfig` there. -/
def exit (cfg : ClusterConfig) (pid : ℕ) (w : WorkerRef) (s : Primary) : Primary :=
  let s := s.updateConfig w.config fun c => { c with isOnline := false }
  match s.workerAttemptCheck.get? w.config with
  | some c => startWorker cfg pid c.workerCpuId (some w) s
  | none => s

/-- The window of a monitor closes, and `finalize` removes its listener. -/
def closeWindow (i : Heap.Ref) (m : Monitor) (s : Primary) : Primary :=
  if m.window.isSome then s.updateWorker m.worker (.removeListener (.healthCheck i)) else s

/-- A message listener gets a command. An error that a subscriber throws, and one that no
    subscriber handles, ends the process. -/
def deliver (cfg : ClusterConfig) (throws : WorkerRef → Bool) (m : InterProcessCommunication)
    (s : Primary) : Listener → Primary
  | .broadcast =>
    if m.Is .BroadcastCommand then
      match broadcastToAllWorkers throws m.command m.message s with
      | (.ok _, s) => s
      | (.error _, s) => { s with crashed := true }
    else s
  | .healthCheck i =>
    if m.Is .HealthCheckStatus then
      match statusOk m.message, s.monitors.get? i with
      | some ok, some _ => s.updateMonitor i (·.status cfg.healthCheckConfig s.now ok)
      | none, some monitor =>
        { (closeWindow i monitor s).updateMonitor i Monitor.close with crashed := true }
      | _, none => s
    else s

/-- `worker.emit('message', event)`. -/
def message (cfg : ClusterConfig) (throws : WorkerRef → Bool) (event : Json)
    (listeners : List Listener) (s : Primary) : Primary :=
  match InterProcessCommunication.ofEvent event with
  | some m => listeners.foldl (deliver cfg throws m) s
  | none => s

/-- What the event loop can hand to the primary. The timers are those of the health checks. -/
inductive Event where
  | elapse (ms : ℕ)
  | online (w : WorkerRef)
  /-- `pid` is the process that is forked in its place, if one is. -/
  | exit (w : WorkerRef) (pid : ℕ)
  | message (w : WorkerRef) (event : Json) (throws : WorkerRef → Bool)
  | tick (i : Heap.Ref)
  | request (i : Heap.Ref) (tick : ℕ) (throws : Bool)
  | timeout (i : Heap.Ref)
  | audit (i : Heap.Ref)

/-- The timer event of a monitor. -/
def performTimer (cfg : ClusterConfig) (s : Primary) (i : Heap.Ref) (m : Monitor) :
    Event → Option Primary
  | .tick _ =>
    if m.TickDue s.now then
      some (((closeWindow i m s).updateWorker m.worker (.addListener (.healthCheck i))).updateMonitor i
        (·.tick cfg.healthCheckConfig s.now))
    else none
  | .request _ tick throws =>
    if m.RequestDue s.now tick then
      some (sendCommandToWorker (fun _ => throws) (some m.worker)
        (.str CommunicationCommands.HealthCheckRequest.text) .null
          (s.updateMonitor i Monitor.request)).2
    else none
  | .timeout _ =>
    if m.TimeoutDue s.now then
      some ((closeWindow i m s).updateMonitor i (·.timeout cfg.healthCheckConfig s.now))
    else none
  | .audit _ =>
    if m.AuditDue s.now then
      let (m', kill) := m.audit cfg.healthCheckConfig
      if kill then
        some (((closeWindow i m s).updateMonitor i fun _ => m').updateWorker m.worker fun o =>
          { o with killed := true })
      else some (s.updateMonitor i fun _ => m')
    else none
  | _ => none

/-- The primary after an event, if the event can happen. -/
def perform (cfg : ClusterConfig) (s : Primary) (e : Event) : Option Primary :=
  if s.crashed then none
  else
    match e with
    | .elapse ms => some { s with now := s.now + ms }
    | .online w =>
      (s.worker? w).bind fun o =>
        if o.running ∧ ¬ o.online then
          some (online cfg w (s.updateWorker w fun o => { o with online := true }))
        else none
    | .exit w pid =>
      (s.worker? w).bind fun o =>
        if o.running then
          some (exit cfg pid w (s.updateWorker w fun o => { o with running := false }))
        else none
    | .message w event throws =>
      (s.worker? w).map fun o => message cfg throws event o.messageListeners s
    | .tick i | .request i _ _ | .timeout i | .audit i =>
      (s.monitors.get? i).bind fun m => performTimer cfg s i m e

/-- One event of a running primary. -/
def Step (cfg : ClusterConfig) (s : Primary) (e : Event) (t : Primary) : Prop :=
  perform cfg s e = some t

end Primary

end NestTemplate
