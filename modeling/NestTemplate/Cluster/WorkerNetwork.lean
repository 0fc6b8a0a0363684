import NestTemplate.Cluster.Broadcasts
import NestTemplate.Cluster.ProcessMessages
import NestTemplate.Common.Channel

/-!
# The primary and the processes of its workers

The primary, a process for each worker, and a channel each way between them. A
process hands its commands to its channel, the primary takes them one by one, and
what it sends reaches the workers later. Nothing is said about how fast a channel
is, so its messages interleave with everything else.

* `Cluster.log`: the broadcasts in the order in which the primary takes them.
* `broadcasts_in_one_order`: every worker gets the broadcasts that were taken while
  it was online, once each and in the order of the log.
-/

namespace NestTemplate

open Common SetupClusterService InterProcessCommunication

/-! ## Sending -/

namespace ProcessMessagingService

/-- `dispatchCommand`: the process afterwards, and what it hands to its channel. -/
def dispatchCommand (isPrimary : Bool) (message : InterProcessCommunication)
    (process : MessagingProcess) : Except Failure (MessagingProcess × List Json) :=
  if isPrimary then
    (convertCommandsToSystemEvents (some message.command) (some message.message)).map
      fun payloads =>
        ({ process with selfHealthStatus := process.selfHealthStatus ++ payloads }, [])
  else .ok (process, [message.event])

/-- `sendCommand`. -/
def sendCommand (isPrimary : Bool) (command : CommunicationCommands) (message : Json)
    (process : MessagingProcess) : Except Failure (MessagingProcess × List Json) :=
  dispatchCommand isPrimary ⟨.str command.text, message⟩ process

/-- `broadcastCommand`. -/
def broadcastCommand (isPrimary : Bool) (message : Json) (process : MessagingProcess) :
    Except Failure (MessagingProcess × List Json) :=
  sendCommand isPrimary .BroadcastCommand message process

end ProcessMessagingService

/-- What the calls of `sendCommandToWorker` put into the channel of the worker `v`. -/
def posted (throws : WorkerRef → Bool) (calls : List SendCall) (v : WorkerRef) : List Json :=
  (calls.filter fun call => call.worker = some v ∧ throws v = false).map fun call =>
    event ⟨call.command, call.message⟩

/-! ## The system -/

/-- The primary, the processes of the workers, and the channels. -/
structure Cluster where
  primary : Primary
  toPrimary : WorkerRef → Channel Json
  toWorker : WorkerRef → Channel Json
  process : WorkerRef → MessagingProcess

/-- Which sends of an event throw. -/
def Primary.Event.throws : Primary.Event → WorkerRef → Bool
  | .request _ _ throws => fun _ => throws
  | .message _ _ throws => throws
  | _ => fun _ => false

namespace Cluster

/-- The cluster right after `startInWorker`. -/
def start (cfg : ClusterConfig) (cpus : ℕ) (pid : ℕ → ℕ) : Cluster where
  primary := startInWorker cfg cpus pid
  toPrimary _ := {}
  toWorker _ := {}
  process _ := {}

inductive Event where
  /-- Something happens to the primary that is not a message. -/
  | primary (e : Primary.Event) (hmessage : ∀ w event throws, e ≠ .message w event throws)
  /-- The process of the worker `w` calls `sendCommand`. -/
  | sendCommand (w : WorkerRef) (command : CommunicationCommands) (message : Json)
  /-- The oldest message of the worker `w` arrives at the primary. -/
  | toPrimary (w : WorkerRef) (throws : WorkerRef → Bool)
  /-- The oldest message for the worker `w` arrives at its process. -/
  | toWorker (w : WorkerRef)

/-- The primary performs `e`, and its sends go into the channels. -/
def advance (cfg : ClusterConfig) (s : Cluster) (e : Primary.Event) : Option Cluster :=
  (Primary.perform cfg s.primary e).map fun primary =>
    { s with
      primary := primary
      toWorker := fun v => (s.toWorker v).send
        (posted e.throws (primary.calls.drop s.primary.calls.length) v) }

def perform (cfg : ClusterConfig) (s : Cluster) : Event → Option Cluster
  | .primary e _ => s.advance cfg e
  | .sendCommand w command message =>
    match ProcessMessagingService.sendCommand false command message (s.process w) with
    | .ok (process, sends) =>
      some { s with
        process := Function.update s.process w process
        toPrimary := Function.update s.toPrimary w ((s.toPrimary w).send sends) }
    | .error _ => none
  | .toPrimary w throws => (s.toPrimary w).take?.bind fun (event, channel) =>
    advance cfg { s with toPrimary := Function.update s.toPrimary w channel }
      (.message w event throws)
  | .toWorker w => (s.toWorker w).take?.map fun (event, channel) =>
    { s with
      toWorker := Function.update s.toWorker w channel
      process := Function.update s.process w
        (ProcessMessagingService.listener (s.process w) event) }

def Step (cfg : ClusterConfig) (s : Cluster) (e : Event) (t : Cluster) : Prop :=
  perform cfg s e = some t

/-! ## The log -/

/-- The broadcasts among messages. -/
def broadcasts (events : List Json) : List InterProcessCommunication :=
  (events.filterMap ofEvent).filter fun m => m.Is .BroadcastCommand

@[simp] theorem broadcasts_append (events events' : List Json) :
    broadcasts (events ++ events') = broadcasts events ++ broadcasts events' := by
  simp [broadcasts]

@[simp] theorem broadcasts_nil : broadcasts [] = [] := rfl

/-- A broadcast that the primary has taken, and to whom it sent it. -/
structure Accepted where
  sender : WorkerRef
  message : InterProcessCommunication
  targets : List WorkerRef

/-- To whom a broadcast of `w` is sent: to the workers of all configurations that are online, if a
    configuration has `w` for its worker. -/
def targets (s : Primary) (w : WorkerRef) (throws : WorkerRef → Bool) : List WorkerRef :=
  if (s.workerAttemptCheck.get? w.config).any (·.worker = some w) then
    ((s.workerAttemptCheck.objects.filter (·.isOnline)).filterMap (·.worker)).filter (!throws ·)
  else []

/-- The broadcast that is taken in an event. -/
def accepts (s : Cluster) : Event → List Accepted
  | .toPrimary w throws =>
    match (s.toPrimary w).take? with
    | some (event, _) => (broadcasts [event]).map (⟨w, ·, targets s.primary w throws⟩)
    | none => []
  | _ => []

/-- The broadcasts that are taken in a run, in order. -/
def log (cfg : ClusterConfig) : Cluster → List Event → List Accepted
  | _, [] => []
  | s, e :: es => s.accepts e ++ ((s.perform cfg e).map (log cfg · es)).getD []

/-! ## What the primary sends -/

section Calls

variable {cfg : ClusterConfig} {s t : Primary}

theorem calls_exit (cfg : ClusterConfig) (pid : ℕ) (w : WorkerRef) (s : Primary) :
    (Primary.exit cfg pid w s).calls = s.calls := by
  unfold Primary.exit startWorker startFork
  dsimp only
  split
  · split
    · rfl
    · split
      · unfold checkAllWorkerRemainingAttempts
        split <;> rfl
      · split
        · unfold forkWorker setupSubscriptions
          dsimp only
          split <;> rfl
        · rfl
  · rfl

theorem calls_closeWindow (i : Heap.Ref) (m : Monitor) (s : Primary) :
    (Primary.closeWindow i m s).calls = s.calls := by
  unfold Primary.closeWindow
  split <;> rfl

/-- Apart from messages, only health checks make the primary send anything. -/
theorem calls_of_perform {e : Primary.Event} (h : Primary.perform cfg s e = some t)
    (hmessage : ∀ w event throws, e ≠ .message w event throws) :
    ∃ new, t.calls = s.calls ++ new ∧
      ∀ call ∈ new, call.command = .str CommunicationCommands.HealthCheckRequest.text := by
  have same : t.calls = s.calls → ∃ new, t.calls = s.calls ++ new ∧
      ∀ call ∈ new, call.command = .str CommunicationCommands.HealthCheckRequest.text :=
    fun heq => ⟨[], heq.trans (List.append_nil _).symm, by simp⟩
  unfold Primary.perform at h
  split at h
  · cases h
  cases e with
  | elapse ms =>
    cases h
    exact same rfl
  | online w =>
    obtain ⟨o, -, h⟩ := Option.bind_eq_some_iff.mp h
    split at h <;> cases h
    exact same rfl
  | exit w pid =>
    obtain ⟨o, -, h⟩ := Option.bind_eq_some_iff.mp h
    split at h <;> cases h
    exact same (calls_exit cfg pid w _)
  | message w event throws => exact absurd rfl (hmessage w event throws)
  | tick | timeout =>
    obtain ⟨m, -, h⟩ := Option.bind_eq_some_iff.mp h
    simp only [Primary.performTimer] at h
    split at h <;> cases h
    exact same (calls_closeWindow _ m s)
  | request =>
    obtain ⟨m, -, h⟩ := Option.bind_eq_some_iff.mp h
    simp only [Primary.performTimer] at h
    split at h <;> cases h
    rw [sendCommandToWorker_eq_ok]
    exact ⟨_, rfl, by simp⟩
  | audit =>
    obtain ⟨m, -, h⟩ := Option.bind_eq_some_iff.mp h
    simp only [Primary.performTimer] at h
    split at h
    · split at h <;> cases h
      · exact same (calls_closeWindow _ m s)
      · exact same rfl
    · cases h

theorem calls_deliver_of_not_broadcast {m : InterProcessCommunication}
    (hm : ¬ m.Is .BroadcastCommand) (throws : WorkerRef → Bool) (s : Primary) (l : Listener) :
    (Primary.deliver cfg throws m s l).calls = s.calls := by
  cases l with
  | broadcast => rw [Primary.deliver, if_neg hm]
  | healthCheck i =>
    rw [Primary.deliver]
    split
    · split
      · rfl
      · exact calls_closeWindow _ _ s
      · rfl
    · rfl

theorem calls_foldl_of_not_broadcast {m : InterProcessCommunication}
    (hm : ¬ m.Is .BroadcastCommand) (throws : WorkerRef → Bool) (ls : List Listener)
    (s : Primary) : (ls.foldl (Primary.deliver cfg throws m) s).calls = s.calls := by
  induction ls generalizing s with
  | nil => rfl
  | cons l ls ih => exact (ih _).trans (calls_deliver_of_not_broadcast hm throws s l)

/-- What a message of the worker `w` makes the primary send. -/
theorem calls_message {m n : ℕ} (hs : Bookkeeping m n s) {w : WorkerRef} {o : WorkerObject}
    (ho : s.worker? w = some o) (throws : WorkerRef → Bool) (event : Json) :
    (Primary.message cfg throws event o.messageListeners s).calls = s.calls ++
      (broadcasts [event]).flatMap fun b =>
        if (s.workerAttemptCheck.get? w.config).any (·.worker = some w) then s.broadcastCalls b
        else [] := by
  unfold Primary.message
  cases hevent : ofEvent event with
  | none => simp [broadcasts, hevent]
  | some b =>
    by_cases hb : b.Is .BroadcastCommand
    · have hlist : broadcasts [event] = [b] := by simp [broadcasts, hevent, hb]
      obtain ⟨x, hx, -⟩ := hs.slot_of_worker ho
      have hcount := (hs.slots _ _ hx).count_broadcast (Primary.worker?_eq hx ▸ ho)
      rw [hlist, List.flatMap_singleton, (Primary.slot?_eq_some.mp hx).1]
      show (o.messageListeners.foldl (Primary.deliver cfg throws b) s).calls = _
      rw [Primary.foldl_deliver_of_broadcast hb, hcount]
      by_cases hw : x.config.worker = some w <;> simp [hw]
    · have hlist : broadcasts [event] = [] := by simp [broadcasts, hevent, hb]
      rw [hlist, List.flatMap_nil, List.append_nil]
      exact calls_foldl_of_not_broadcast hb throws o.messageListeners s

/-- The configurations have different workers, each its own. -/
theorem nodup_workers {m n : ℕ} (hs : Bookkeeping m n s) :
    (s.workerAttemptCheck.objects.filterMap (·.worker)).Nodup := by
  have hconfigs : s.workerAttemptCheck.objects.map (fun c => c.worker.map (·.config)) =
      (List.range s.workerAttemptCheck.objects.length).map some := by
    refine List.ext_getElem (by simp) fun i hi hi' => ?_
    rw [List.getElem_map, List.getElem_map, List.getElem_range]
    have hlt : i < s.workerAttemptCheck.objects.length := by simpa using hi
    have hslot : s.slot? i = some ⟨s.workerAttemptCheck.objects[i], s.workers i⟩ :=
      Primary.slot?_eq_some.mpr ⟨List.getElem?_eq_getElem hlt, rfl⟩
    obtain ⟨v, -, -, -, hworker, -⟩ := (hs.slots i _ hslot).last
    rw [show s.workerAttemptCheck.objects[i].worker = some ⟨i, v⟩ from hworker, Option.map_some]
  refine List.Nodup.of_map (·.config) ?_
  have hmap : (s.workerAttemptCheck.objects.filterMap (·.worker)).map (·.config) =
      (s.workerAttemptCheck.objects.map fun c => c.worker.map (·.config)).filterMap id := by
    rw [List.map_filterMap, List.filterMap_map]
    rfl
  rw [hmap, hconfigs, List.filterMap_map]
  simpa using List.nodup_range

theorem nodup_targets {m n : ℕ} (hs : Bookkeeping m n s) (w : WorkerRef)
    (throws : WorkerRef → Bool) : (targets s w throws).Nodup := by
  unfold targets
  split
  · exact ((List.filter_sublist.filterMap _).nodup (nodup_workers hs)).filter _
  · exact List.nodup_nil

/-- The calls of a broadcast put it into a channel once for every configuration with that worker. -/
theorem posted_calls (throws : WorkerRef → Bool) (b : InterProcessCommunication) (v : WorkerRef)
    (cs : List WorkerConfig) :
    posted throws (cs.map fun c =>
        { worker := c.worker, command := b.command, message := b.message }) v =
      List.replicate (((cs.filterMap (·.worker)).filter (!throws ·)).count v) b.event := by
  induction cs with
  | nil => rfl
  | cons c cs ih =>
    unfold posted at ih ⊢
    cases hw : c.worker with
    | none => simpa [hw] using ih
    | some u =>
      by_cases hu : u = v
      · subst hu
        cases hthrows : throws u <;> simp_all [List.replicate_succ]
      · cases hthrows : throws u <;> simp_all

/-- What a broadcast puts into the channel of `v`: the broadcast, if `v` is a target. -/
theorem posted_broadcast {m n : ℕ} (hs : Bookkeeping m n s) (w v : WorkerRef)
    (throws : WorkerRef → Bool) (b : InterProcessCommunication) :
    posted throws (if (s.workerAttemptCheck.get? w.config).any (·.worker = some w) then
      s.broadcastCalls b else []) v = if v ∈ targets s w throws then [b.event] else [] := by
  have hnodup := nodup_targets hs w throws
  unfold targets at hnodup ⊢
  split
  · rename_i hw
    rw [if_pos hw] at hnodup
    unfold Primary.broadcastCalls
    rw [posted_calls, hnodup.count]
    split <;> rfl
  · rfl

/-- A health check's request is no broadcast. -/
theorem broadcasts_posted_of_request {calls : List SendCall}
    (h : ∀ call ∈ calls, call.command = .str CommunicationCommands.HealthCheckRequest.text)
    (throws : WorkerRef → Bool) (v : WorkerRef) : broadcasts (posted throws calls v) = [] := by
  refine List.filter_eq_nil_iff.mpr fun b hb => ?_
  obtain ⟨event, hevent, hb⟩ := List.mem_filterMap.mp hb
  obtain ⟨call, hcall, rfl⟩ := List.mem_map.mp hevent
  rw [ofEvent_message] at hb
  obtain rfl := Option.some.inj hb
  have hrequest : InterProcessCommunication.Is ⟨call.command, call.message⟩ .HealthCheckRequest := by
    rw [h call (List.mem_of_mem_filter hcall)]
    rfl
  simp only [decide_eq_true_eq]
  intro hbroadcast
  cases hrequest.unique hbroadcast

/-- A message is a broadcast or none. -/
theorem broadcasts_singleton (event : Json) : broadcasts [event] = [] ∨
    ∃ b : InterProcessCommunication, b.Is .BroadcastCommand ∧ broadcasts [event] = [b] := by
  cases hevent : ofEvent event with
  | none => exact .inl (by simp [broadcasts, hevent])
  | some b =>
    by_cases hb : b.Is .BroadcastCommand
    · exact .inr ⟨b, hb, by simp [broadcasts, hevent, hb]⟩
    · exact .inl (by simp [broadcasts, hevent, hb])

@[simp] theorem broadcasts_event {b : InterProcessCommunication} (hb : b.Is .BroadcastCommand) :
    broadcasts [b.event] = [b] := by
  simp [broadcasts, hb]

end Calls

/-! ## One event -/

section Steps

variable {cfg : ClusterConfig} {s t : Cluster} {e : Event} {m n : ℕ}

theorem advance_eq_some {e : Primary.Event} : s.advance cfg e = some t ↔
    ∃ p, Primary.Step cfg s.primary e p ∧ { s with
      primary := p
      toWorker := fun v => (s.toWorker v).send
        (posted e.throws (p.calls.drop s.primary.calls.length) v) } = t :=
  Option.map_eq_some_iff

/-- What an event is to the primary. -/
theorem primary_step (h : Step cfg s e t) :
    t.primary = s.primary ∨ ∃ e', Primary.Step cfg s.primary e' t.primary := by
  cases e with
  | primary e hmessage =>
    obtain ⟨p, hp, rfl⟩ := advance_eq_some.mp h
    exact .inr ⟨e, hp⟩
  | sendCommand w command message =>
    cases h
    exact .inl rfl
  | toPrimary w throws =>
    obtain ⟨⟨event, c⟩, -, h⟩ := Option.bind_eq_some_iff.mp h
    obtain ⟨p, hp, rfl⟩ := advance_eq_some.mp h
    exact .inr ⟨_, hp⟩
  | toWorker w =>
    obtain ⟨⟨event, c⟩, -, rfl⟩ := Option.map_eq_some_iff.mp h
    exact .inl rfl

/-- What a broadcast of the worker `w` adds to the messages for `v`. -/
theorem broadcasts_posted_message (hs : Bookkeeping m n s.primary) {w : WorkerRef}
    {o : WorkerObject} (ho : s.primary.worker? w = some o) (throws : WorkerRef → Bool)
    (event : Json) (v : WorkerRef) :
    broadcasts (posted throws ((Primary.message cfg throws event o.messageListeners
      s.primary).calls.drop s.primary.calls.length) v) =
        (broadcasts [event]).filter fun _ => v ∈ targets s.primary w throws := by
  rw [calls_message hs ho, List.drop_left]
  rcases broadcasts_singleton event with hnil | ⟨b, hb, hlist⟩
  · rw [hnil]
    rfl
  · rw [hlist, List.flatMap_singleton, posted_broadcast hs]
    by_cases hv : v ∈ targets s.primary w throws <;> simp [hv, hb]

/-- The broadcasts for the worker `v` are those that the event accepts for it. -/
theorem toWorker_step (hs : Bookkeeping m n s.primary) (h : Step cfg s e t) (v : WorkerRef) :
    broadcasts (t.toWorker v).sent = broadcasts (s.toWorker v).sent ++
      ((s.accepts e).filter fun a => v ∈ a.targets).map (·.message) := by
  cases e with
  | primary e hmessage =>
    obtain ⟨p, hp, rfl⟩ := advance_eq_some.mp h
    obtain ⟨new, hnew, hrequest⟩ := calls_of_perform hp hmessage
    show broadcasts (Channel.send _ _).sent = _ ++ []
    rw [Channel.sent_send, broadcasts_append, hnew, List.drop_left,
      broadcasts_posted_of_request hrequest]
  | sendCommand w command message =>
    cases h
    exact (List.append_nil _).symm
  | toPrimary w throws =>
    obtain ⟨⟨event, c⟩, hc, h⟩ := Option.bind_eq_some_iff.mp h
    obtain ⟨p, hp, rfl⟩ := advance_eq_some.mp h
    have haccepts : s.accepts (.toPrimary w throws) =
        (broadcasts [event]).map (⟨w, ·, targets s.primary w throws⟩) := by
      rw [accepts, hc]
    have hmessage : Primary.perform cfg s.primary (.message w event throws) =
        if s.primary.crashed then none else (s.primary.worker? w).map fun o =>
          Primary.message cfg throws event o.messageListeners s.primary := rfl
    rw [Primary.Step, hmessage] at hp
    split at hp
    · cases hp
    · obtain ⟨o, ho, rfl⟩ := Option.map_eq_some_iff.mp hp
      show broadcasts (Channel.send _ _).sent = _
      rw [Channel.sent_send, broadcasts_append, haccepts, List.filter_map, List.map_map]
      exact congrArg (_ ++ ·)
        ((broadcasts_posted_message hs ho throws event v).trans (List.map_id _).symm)
  | toWorker w =>
    obtain ⟨⟨event, c⟩, hc, rfl⟩ := Option.map_eq_some_iff.mp h
    refine Eq.trans ?_ (List.append_nil _).symm
    show broadcasts (Function.update s.toWorker w c v).sent = _
    by_cases hv : v = w
    · subst hv
      rw [Function.update_self, Channel.sent_take? hc]
    · rw [Function.update_of_ne hv]

/-- The broadcasts that have arrived from the worker `w` are those that were accepted from it. -/
theorem toPrimary_step (h : Step cfg s e t) (w : WorkerRef) :
    broadcasts (t.toPrimary w).delivered = broadcasts (s.toPrimary w).delivered ++
      ((s.accepts e).filter fun a => a.sender = w).map (·.message) := by
  cases e with
  | primary e hmessage =>
    obtain ⟨p, hp, rfl⟩ := advance_eq_some.mp h
    exact (List.append_nil _).symm
  | sendCommand u command message =>
    cases h
    refine Eq.trans ?_ (List.append_nil _).symm
    show broadcasts (Function.update s.toPrimary u _ w).delivered = _
    by_cases hw : w = u
    · subst hw
      rw [Function.update_self, Channel.delivered_send]
    · rw [Function.update_of_ne hw]
  | toPrimary u throws =>
    obtain ⟨⟨event, c⟩, hc, h⟩ := Option.bind_eq_some_iff.mp h
    obtain ⟨p, hp, rfl⟩ := advance_eq_some.mp h
    have haccepts : s.accepts (.toPrimary u throws) =
        (broadcasts [event]).map (⟨u, ·, targets s.primary u throws⟩) := by
      rw [accepts, hc]
    show broadcasts (Function.update s.toPrimary u c w).delivered = _
    rw [haccepts, List.filter_map, List.map_map]
    by_cases hw : w = u
    · subst hw
      rw [Function.update_self, Channel.delivered_take? hc, broadcasts_append]
      simp [Function.comp_def]
    · rw [Function.update_of_ne hw]
      simp [Function.comp_def, Ne.symm hw]
  | toWorker u =>
    obtain ⟨⟨event, c⟩, hc, rfl⟩ := Option.map_eq_some_iff.mp h
    exact (List.append_nil _).symm

/-- What the process of `w` hands to its channel in an event. -/
def handed (w : WorkerRef) : Event → List Json
  | .sendCommand u command message =>
    if u = w then [InterProcessCommunication.event ⟨.str command.text, message⟩] else []
  | _ => []

theorem sent_step (h : Step cfg s e t) (w : WorkerRef) :
    (t.toPrimary w).sent = (s.toPrimary w).sent ++ handed w e := by
  cases e with
  | primary e hmessage =>
    obtain ⟨p, hp, rfl⟩ := advance_eq_some.mp h
    exact (List.append_nil _).symm
  | sendCommand u command message =>
    cases h
    show (Function.update s.toPrimary u _ w).sent = _ ++ ite _ _ _
    by_cases hw : w = u
    · subst hw
      rw [Function.update_self, Channel.sent_send, if_pos rfl]
    · rw [Function.update_of_ne hw, if_neg (Ne.symm hw), List.append_nil]
  | toPrimary u throws =>
    obtain ⟨⟨event, c⟩, hc, h⟩ := Option.bind_eq_some_iff.mp h
    obtain ⟨p, hp, rfl⟩ := advance_eq_some.mp h
    refine Eq.trans ?_ (List.append_nil _).symm
    show (Function.update s.toPrimary u c w).sent = _
    by_cases hw : w = u
    · subst hw
      rw [Function.update_self, Channel.sent_take? hc]
    · rw [Function.update_of_ne hw]
  | toWorker u =>
    obtain ⟨⟨event, c⟩, hc, rfl⟩ := Option.map_eq_some_iff.mp h
    exact (List.append_nil _).symm

theorem listener_messages (process : MessagingProcess) (event : Json) :
    (ProcessMessagingService.listener process event).messages = process.messages ++ [event] := by
  cases hevent : ofEvent event with
  | none => rw [ProcessMessagingService.listener_of_ofEvent_none hevent]
  | some m =>
    rw [ProcessMessagingService.listener_of_ofEvent hevent]
    unfold ProcessMessagingService.subscription
    split <;> rfl

/-- The messages of a process are those that arrived. -/
def Arrived (s : Cluster) : Prop := ∀ v, (s.process v).messages = (s.toWorker v).delivered

theorem Arrived.step (hs : s.Arrived) (h : Step cfg s e t) : t.Arrived := by
  intro v
  cases e with
  | primary e hmessage =>
    obtain ⟨p, hp, rfl⟩ := advance_eq_some.mp h
    exact hs v
  | sendCommand w command message =>
    cases h
    show (Function.update s.process w (s.process w) v).messages = _
    rw [Function.update_eq_self]
    exact hs v
  | toPrimary w throws =>
    obtain ⟨⟨event, c⟩, hc, h⟩ := Option.bind_eq_some_iff.mp h
    obtain ⟨p, hp, rfl⟩ := advance_eq_some.mp h
    exact hs v
  | toWorker w =>
    obtain ⟨⟨event, c⟩, hc, rfl⟩ := Option.map_eq_some_iff.mp h
    show (Function.update s.process w _ v).messages = (Function.update s.toWorker w c v).delivered
    by_cases hv : v = w
    · subst hv
      rw [Function.update_self, Function.update_self, listener_messages, hs v,
        Channel.delivered_take? hc]
    · rw [Function.update_of_ne hv, Function.update_of_ne hv]
      exact hs v

end Steps

/-! ## Whole runs -/

section Runs

variable {cfg : ClusterConfig} {s t : Cluster} {e : Event} {es : List Event} {m n : ℕ}

theorem bookkeeping_step (hs : Bookkeeping m n s.primary) (h : Step cfg s e t) :
    Bookkeeping m n t.primary := by
  rcases primary_step h with heq | ⟨e', he'⟩
  · exact heq ▸ hs
  · exact hs.step he'

theorem log_cons (h : Step cfg s e t) (es : List Event) :
    log cfg s (e :: es) = s.accepts e ++ log cfg t es := by
  rw [log, show s.perform cfg e = some t from h]
  rfl

/-- What a run adds to the channels. -/
structure Follows (cfg : ClusterConfig) (s : Cluster) (es : List Event) (t : Cluster) : Prop where
  toWorker : ∀ v, broadcasts (t.toWorker v).sent = broadcasts (s.toWorker v).sent ++
    ((log cfg s es).filter fun a => v ∈ a.targets).map (·.message)
  taken : ∀ w, broadcasts (t.toPrimary w).delivered = broadcasts (s.toPrimary w).delivered ++
    ((log cfg s es).filter fun a => a.sender = w).map (·.message)
  sent : ∀ w, (t.toPrimary w).sent = (s.toPrimary w).sent ++ es.flatMap (handed w)

theorem Follows.of_run (hs : Bookkeeping m n s.primary) (hrun : Run (Step cfg) s es t) :
    Follows cfg s es t := by
  induction hrun with
  | nil s => exact ⟨by simp [log], by simp [log], by simp⟩
  | cons hstep hrest ih =>
    have h := ih (bookkeeping_step hs hstep)
    refine ⟨fun v => ?_, fun w => ?_, fun w => ?_⟩
    · rw [h.toWorker, toWorker_step hs hstep, log_cons hstep, List.filter_append, List.map_append,
        List.append_assoc]
    · rw [h.taken, toPrimary_step hstep, log_cons hstep, List.filter_append, List.map_append,
        List.append_assoc]
    · rw [h.sent, sent_step hstep, List.flatMap_cons, List.append_assoc]

variable {cpus : ℕ} {pid : ℕ → ℕ}

theorem Follows.of_start (hrun : Run (Step cfg) (start cfg cpus pid) es s) :
    Follows cfg (start cfg cpus pid) es s :=
  .of_run (.startInWorker cfg cpus pid) hrun

theorem Arrived.of_start (hrun : Run (Step cfg) (start cfg cpus pid) es s) : s.Arrived :=
  hrun.invariant (fun _ _ _ h hstep => h.step hstep) fun _ => rfl

/-- **Main theorem**: the primary puts all broadcasts into one order. What every worker has got and
    will get from its channel are exactly the broadcasts whose target it was, once each and in that
    order; and the broadcasts of every process are taken once each, in the order it sent them. -/
theorem broadcasts_in_one_order (hrun : Run (Step cfg) (start cfg cpus pid) es s) :
    (∀ v, broadcasts ((s.process v).messages ++ (s.toWorker v).pending) =
      ((log cfg (start cfg cpus pid) es).filter fun a => v ∈ a.targets).map (·.message)) ∧
    ∀ w, ((log cfg (start cfg cpus pid) es).filter fun a => a.sender = w).map (·.message) ++
      broadcasts (s.toPrimary w).pending = broadcasts (es.flatMap (handed w)) := by
  have h := Follows.of_start hrun
  constructor
  · intro v
    rw [Arrived.of_start hrun v]
    exact h.toWorker v
  · intro w
    have htaken : broadcasts (s.toPrimary w).delivered =
        ((log cfg (start cfg cpus pid) es).filter fun a => a.sender = w).map (·.message) :=
      h.taken w
    have hsent : (s.toPrimary w).delivered ++ (s.toPrimary w).pending = es.flatMap (handed w) :=
      h.sent w
    rw [← htaken, ← hsent, broadcasts_append]

/-- The targets of a broadcast from a worker that a configuration owns are the workers that are
    online, but for those to whom the send throws. -/
theorem mem_targets_iff (hs : Bookkeeping m n s.primary) {w v : WorkerRef}
    {throws : WorkerRef → Bool} : v ∈ targets s.primary w throws ↔
      ((s.primary.workerAttemptCheck.get? w.config).bind (·.worker) = some w ∧
        ∃ c, s.primary.workerAttemptCheck.get? v.config = some c ∧ c.worker = some v ∧
          c.isOnline = true) ∧ throws v = false := by
  have hmem : v ∈ (s.primary.workerAttemptCheck.objects.filter (·.isOnline)).filterMap (·.worker) ↔
      ∃ c, s.primary.workerAttemptCheck.get? v.config = some c ∧ c.worker = some v ∧
        c.isOnline = true := by
    simp only [List.mem_filterMap, List.mem_filter]
    constructor
    · rintro ⟨c, ⟨hc, honline⟩, hv⟩
      obtain ⟨i, hi⟩ := List.mem_iff_getElem?.mp hc
      -- the worker of a configuration names its place
      obtain ⟨u, -, -, -, hworker, -⟩ :=
        (hs.slots i _ (Primary.slot?_eq_some.mpr ⟨hi, rfl⟩ :
          s.primary.slot? i = some ⟨c, s.primary.workers i⟩)).last
      obtain rfl : ⟨i, u⟩ = v := Option.some.inj (hworker.symm.trans hv)
      exact ⟨c, hi, hv, honline⟩
    · rintro ⟨c, hc, hv, honline⟩
      exact ⟨c, ⟨List.mem_of_getElem? hc, honline⟩, hv⟩
  have howner : (s.primary.workerAttemptCheck.get? w.config).any (·.worker = some w) = true ↔
      (s.primary.workerAttemptCheck.get? w.config).bind (·.worker) = some w := by
    cases s.primary.workerAttemptCheck.get? w.config <;> simp
  unfold targets
  split
  · rename_i hw
    rw [List.mem_filter, hmem, ← howner]
    simp [hw]
  · rename_i hw
    simp [← howner, hw]

/-- **Main theorem**: workers that were targets of the same broadcasts never disagree: what one of
    them has got is a beginning of what the other has got. -/
theorem same_targets_agree (hrun : Run (Step cfg) (start cfg cpus pid) es s) {v v' : WorkerRef}
    (hsame : ∀ a ∈ log cfg (start cfg cpus pid) es, v ∈ a.targets ↔ v' ∈ a.targets) :
    broadcasts (s.process v).messages <+: broadcasts (s.process v').messages ∨
      broadcasts (s.process v').messages <+: broadcasts (s.process v).messages := by
  have hall : ∀ u, broadcasts (s.process u).messages ++ broadcasts (s.toWorker u).pending =
      ((log cfg (start cfg cpus pid) es).filter fun a => u ∈ a.targets).map (·.message) := by
    intro u
    rw [Arrived.of_start hrun u, ← broadcasts_append]
    exact (Follows.of_start hrun).toWorker u
  have hlog : ((log cfg (start cfg cpus pid) es).filter fun a => v ∈ a.targets) =
      (log cfg (start cfg cpus pid) es).filter fun a => v' ∈ a.targets :=
    List.filter_congr fun a ha => decide_eq_decide.mpr (hsame a ha)
  refine List.prefix_or_prefix_of_prefix ⟨_, hall v⟩ ⟨_, (hall v').trans ?_⟩
  rw [hlog]

end Runs

end Cluster

namespace Cluster.Sample

def start : Cluster := .start Primary.Sample.config 8 (100 + ·)

def bothOnline : List Event :=
  [.primary (.online ⟨0, 0⟩) nofun, .primary (.online ⟨1, 0⟩) nofun]

/-- Both workers broadcast, and the second one's message arrives first. -/
def twoBroadcasts : List Event :=
  bothOnline ++ [.sendCommand ⟨0, 0⟩ .BroadcastCommand (.bool false),
    .sendCommand ⟨1, 0⟩ .BroadcastCommand (.bool true),
    .toPrimary ⟨1, 0⟩ fun _ => false, .toPrimary ⟨0, 0⟩ fun _ => false]

/-- One worker has got a broadcast that is still on its way to the other. -/
def oneAhead : List Event :=
  bothOnline ++ [.sendCommand ⟨0, 0⟩ .BroadcastCommand .null, .toPrimary ⟨0, 0⟩ fun _ => false,
    .toWorker ⟨1, 0⟩]

end Cluster.Sample

theorem Cluster.broadcasts_in_one_order_sample : ∃ s,
    Run (Step Primary.Sample.config) Sample.start Sample.twoBroadcasts s ∧
      (broadcasts ((s.process ⟨0, 0⟩).messages ++ (s.toWorker ⟨0, 0⟩).pending)).map (·.message) =
        [.bool true, .bool false] := by
  have hsome : (runAll (perform Primary.Sample.config) Sample.start
      Sample.twoBroadcasts).isSome = true := by decide
  obtain ⟨s, hs⟩ := Option.isSome_iff_exists.mp hsome
  have hrun : Run (Step Primary.Sample.config) Sample.start Sample.twoBroadcasts s := run_runAll hs
  refine ⟨s, hrun, ?_⟩
  rw [(broadcasts_in_one_order hrun).1 ⟨0, 0⟩]
  rfl

theorem Cluster.same_targets_agree_sample : ∃ s,
    Run (Step Primary.Sample.config) Sample.start Sample.oneAhead s ∧
      (broadcasts (s.process ⟨0, 0⟩).messages <+: broadcasts (s.process ⟨1, 0⟩).messages ∨
        broadcasts (s.process ⟨1, 0⟩).messages <+: broadcasts (s.process ⟨0, 0⟩).messages) := by
  have hsome : (runAll (perform Primary.Sample.config) Sample.start
      Sample.oneAhead).isSome = true := by decide
  obtain ⟨s, hs⟩ := Option.isSome_iff_exists.mp hsome
  have hrun : Run (Step Primary.Sample.config) Sample.start Sample.oneAhead s := run_runAll hs
  exact ⟨s, hrun, same_targets_agree hrun (by decide)⟩

end NestTemplate
