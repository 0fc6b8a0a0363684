import NestTemplate.Cluster.Messaging
import NestTemplate.Http.Validation

/-!
# What a process makes of its messages

`ProcessMessagingService` hands every message to two subjects and turns the
commands it knows into system events. The shape of a message is checked where
it arrives, and not again for what a broadcast carries.

* `convertCommandsToSystemEvents_broadcast`: what a broadcast comes to, by
  its payload.
* `Wraps.not_malformed`: a wrapped request is well formed at every level.
* `handledTotally_iff`: which messages are handled as they should be.
-/

namespace Common.Json

theorem sizeOf_lookup_lt {name : String} {ms : List (String × Json)} {v : Json}
    (h : lookup name ms = some v) : sizeOf v < sizeOf ms := by
  induction ms with
  | nil => cases h
  | cons m ms ih =>
    obtain ⟨k, w⟩ := m
    simp only [List.cons.sizeOf_spec, Prod.mk.sizeOf_spec]
    rcases Option.or_eq_some_iff.mp h with h | ⟨-, h⟩
    · have := ih h
      omega
    · rw [← Option.some.inj (Option.ite_none_right_eq_some.mp h).2]
      omega

/-- A member is smaller than its object. -/
theorem sizeOf_get?_lt (j : Json) (name : String) : sizeOf (j.get? name) < sizeOf (some j) := by
  have hpos : 0 < sizeOf j := by cases j <;> simp
  cases hget : j.get? name with
  | none => simp; omega
  | some v =>
    cases j with
    | obj ms =>
      have := sizeOf_lookup_lt hget
      simp only [Option.some.sizeOf_spec, obj.sizeOf_spec]
      omega
    | null | bool _ | num _ | str _ | arr _ => cases hget

end Common.Json

namespace NestTemplate

open Common

/-- A process and what its subscribers were given. A subscriber that throws does not stop the
    subject: RxJS reports the error as an uncaught exception. -/
structure MessagingProcess where
  /-- `generalMessageEmitter`. -/
  messages : List Json := []
  /-- `commandEmitter`. -/
  commands : List Json := []
  /-- The payloads `SelfHealthStatus` was emitted with, `none` for `undefined`. -/
  selfHealthStatus : List (Option Json) := []
  uncaught : List Failure := []

namespace ProcessMessagingService

/-- The payloads that `convertCommandsToSystemEvents` emits `SelfHealthStatus` with. -/
def convertCommandsToSystemEvents (command message : Option Json) :
    Except Failure (List (Option Json)) :=
  if command.bind Json.str? = some CommunicationCommands.HealthCheckRequest.text then .ok [message]
  else if command.bind Json.str? = some CommunicationCommands.BroadcastCommand.text then
    match message with
    | none => .error (.error "Cannot read properties of undefined (reading 'command')")
    | some .null => .error (.error "Cannot read properties of null (reading 'command')")
    | some broadcastMessageCommand =>
      convertCommandsToSystemEvents (broadcastMessageCommand.get? "command")
        (broadcastMessageCommand.get? "message")
  else .ok []
termination_by sizeOf message
decreasing_by exact Json.sizeOf_get?_lt _ _

/-- The subscription to the commands. -/
def subscription (process : MessagingProcess) (event : InterProcessCommunication) :
    MessagingProcess :=
  match convertCommandsToSystemEvents (some event.command) (some event.message) with
  | .ok payloads => { process with selfHealthStatus := process.selfHealthStatus ++ payloads }
  | .error e => { process with uncaught := process.uncaught ++ [e] }

/-- The listener for `message`. -/
def listener (process : MessagingProcess) (event : Json) : MessagingProcess :=
  let process := { process with messages := process.messages ++ [event] }
  if Json.truthy (some event) = false then process
  else
    match InterProcessCommunication.ofEvent event with
    | some command => subscription { process with commands := process.commands ++ [event] } command
    | none => process

end ProcessMessagingService

/-! ## What it is for -/

/-- The value is a request with this payload, wrapped in `k` broadcasts. -/
inductive Wraps (payload : Json) : ℕ → Json → Prop
  | request {event : Json} {m : InterProcessCommunication} :
      InterProcessCommunication.ofEvent event = some m → m.Is .HealthCheckRequest →
        m.message = payload → Wraps payload 0 event
  | broadcast {k : ℕ} {event : Json} {m : InterProcessCommunication} :
      InterProcessCommunication.ofEvent event = some m → m.Is .BroadcastCommand →
        Wraps payload k m.message → Wraps payload (k + 1) event

/-- The message is given to its subscribers, comes to its event and makes nothing throw. -/
structure HandledTotally (process : MessagingProcess) (event : Json) : Prop where
  uncaught : (ProcessMessagingService.listener process event).uncaught = process.uncaught
  messages : (ProcessMessagingService.listener process event).messages = process.messages ++ [event]
  commands : (ProcessMessagingService.listener process event).commands = process.commands ++
    if (InterProcessCommunication.ofEvent event).isSome then [event] else []
  request : ∀ payload k, Wraps payload k event →
    (ProcessMessagingService.listener process event).selfHealthStatus =
      process.selfHealthStatus ++ [some payload]
  other : (∀ payload k, ¬ Wraps payload k event) →
    (ProcessMessagingService.listener process event).selfHealthStatus = process.selfHealthStatus

/-- What a broadcast carries ends in `null`, or lacks the `message` of a command that is known. -/
inductive Malformed : Json → Prop
  | null : Malformed .null
  | missing {payload : Json} {command : CommunicationCommands} :
      command ≠ .HealthCheckStatus →
        (payload.get? "command").bind Json.str? = some command.text →
          payload.get? "message" = none → Malformed payload
  | broadcast {event : Json} {m : InterProcessCommunication} :
      InterProcessCommunication.ofEvent event = some m → m.Is .BroadcastCommand →
        Malformed m.message → Malformed event

/-- The condition under which a message can be dealt with. -/
def Deliverable (event : Json) : Prop :=
  ∀ m, InterProcessCommunication.ofEvent event = some m → m.Is .BroadcastCommand →
    ¬ Malformed m.message

/-! ## Wrapped requests -/

theorem InterProcessCommunication.ofEvent_eq_some {event : Json} {m : InterProcessCommunication} :
    ofEvent event = some m ↔
      event.get? "command" = some m.command ∧ event.get? "message" = some m.message := by
  unfold ofEvent
  constructor
  · intro h
    split at h
    · rename_i command message hcommand hmessage
      obtain rfl := Option.some.inj h
      exact ⟨hcommand, hmessage⟩
    · cases h
  · rintro ⟨hcommand, hmessage⟩
    rw [hcommand, hmessage]

section Wraps

open InterProcessCommunication

variable {event payload : Json} {m : InterProcessCommunication} {k : ℕ}

theorem wraps_of_request (hevent : ofEvent event = some m) (his : m.Is .HealthCheckRequest) :
    Wraps payload k event ↔ k = 0 ∧ payload = m.message := by
  constructor
  · intro h
    cases h with
    | request hevent' _ hpayload =>
      obtain rfl := Option.some.inj (hevent.symm.trans hevent')
      exact ⟨rfl, hpayload.symm⟩
    | broadcast hevent' his' _ =>
      obtain rfl := Option.some.inj (hevent.symm.trans hevent')
      cases his.unique his'
  · rintro ⟨rfl, rfl⟩
    exact .request hevent his rfl

theorem wraps_of_broadcast (hevent : ofEvent event = some m) (his : m.Is .BroadcastCommand) :
    (∃ k, Wraps payload k event) ↔ ∃ k, Wraps payload k m.message := by
  constructor
  · rintro ⟨k, h⟩
    cases h with
    | request hevent' his' _ =>
      obtain rfl := Option.some.inj (hevent.symm.trans hevent')
      cases his.unique his'
    | broadcast hevent' _ h =>
      obtain rfl := Option.some.inj (hevent.symm.trans hevent')
      exact ⟨_, h⟩
  · rintro ⟨k, h⟩
    exact ⟨k + 1, .broadcast hevent his h⟩

/-- A wrapped request is a request or a broadcast. -/
theorem Wraps.exists_command (h : Wraps payload k event) :
    ∃ m, ofEvent event = some m ∧ (m.Is .HealthCheckRequest ∨ m.Is .BroadcastCommand) := by
  cases h with
  | request hevent his _ => exact ⟨_, hevent, .inl his⟩
  | broadcast hevent his _ => exact ⟨_, hevent, .inr his⟩

/-- A wrapped request is well formed at every level. -/
theorem Wraps.not_malformed (h : Wraps payload k event) : ¬ Malformed event := by
  induction h with
  | request hevent his _ =>
    obtain ⟨-, hmessage⟩ := ofEvent_eq_some.mp hevent
    intro h
    cases h with
    | null => cases hevent
    | missing _ _ hnone => rw [hmessage] at hnone; cases hnone
    | broadcast hevent' his' _ =>
      obtain rfl := Option.some.inj (hevent.symm.trans hevent')
      cases his.unique his'
  | broadcast hevent his _ ih =>
    obtain ⟨-, hmessage⟩ := ofEvent_eq_some.mp hevent
    intro h
    cases h with
    | null => cases hevent
    | missing _ _ hnone => rw [hmessage] at hnone; cases hnone
    | broadcast hevent' _ h =>
      obtain rfl := Option.some.inj (hevent.symm.trans hevent')
      exact ih h

end Wraps

/-! ## The conversion -/

namespace ProcessMessagingService

open InterProcessCommunication

variable {command message : Option Json}

theorem convertCommandsToSystemEvents_request
    (h : command.bind Json.str? = some CommunicationCommands.HealthCheckRequest.text) :
    convertCommandsToSystemEvents command message = .ok [message] := by
  rw [convertCommandsToSystemEvents.eq_def, if_pos h]

theorem not_request_of_broadcast
    (h : command.bind Json.str? = some CommunicationCommands.BroadcastCommand.text) :
    ¬ command.bind Json.str? = some CommunicationCommands.HealthCheckRequest.text := by
  rw [h]
  intro heq
  cases CommunicationCommands.text_injective (Option.some.inj heq)

/-- A broadcast without a payload throws. -/
theorem convertCommandsToSystemEvents_stuck
    (h : command.bind Json.str? = some CommunicationCommands.BroadcastCommand.text)
    (hmessage : message = none ∨ message = some .null) :
    ∃ e, convertCommandsToSystemEvents command message = .error e := by
  rw [convertCommandsToSystemEvents.eq_def, if_neg (not_request_of_broadcast h), if_pos h]
  rcases hmessage with rfl | rfl
  · exact ⟨_, rfl⟩
  · exact ⟨_, rfl⟩

/-- A broadcast comes to what its payload comes to. -/
theorem convertCommandsToSystemEvents_broadcast {payload : Json}
    (h : command.bind Json.str? = some CommunicationCommands.BroadcastCommand.text)
    (hpayload : payload ≠ .null) :
    convertCommandsToSystemEvents command (some payload) =
      convertCommandsToSystemEvents (payload.get? "command") (payload.get? "message") := by
  rw [convertCommandsToSystemEvents.eq_def, if_neg (not_request_of_broadcast h), if_pos h]
  cases payload with
  | null => exact absurd rfl hpayload
  | bool _ | num _ | str _ | arr _ | obj _ => rfl

theorem convertCommandsToSystemEvents_other
    (hrequest : ¬ command.bind Json.str? = some CommunicationCommands.HealthCheckRequest.text)
    (hbroadcast : ¬ command.bind Json.str? = some CommunicationCommands.BroadcastCommand.text) :
    convertCommandsToSystemEvents command message = .ok [] := by
  rw [convertCommandsToSystemEvents.eq_def, if_neg hrequest, if_neg hbroadcast]

/-- A malformed payload makes the conversion throw, or a request of it that has no payload. -/
theorem convertCommandsToSystemEvents_of_malformed {payload : Json} (hmalformed : Malformed payload)
    (h : command.bind Json.str? = some CommunicationCommands.BroadcastCommand.text) :
    (∃ e, convertCommandsToSystemEvents command (some payload) = .error e) ∨
      convertCommandsToSystemEvents command (some payload) = .ok [none] := by
  induction hmalformed generalizing command with
  | null => exact .inl (convertCommandsToSystemEvents_stuck h (.inr rfl))
  | @missing payload known hknown hcommand hmessage =>
    have hpayload : payload ≠ .null := by
      rintro rfl
      cases hcommand
    rw [convertCommandsToSystemEvents_broadcast h hpayload, hmessage]
    cases known with
    | HealthCheckStatus => exact absurd rfl hknown
    | HealthCheckRequest => exact .inr (convertCommandsToSystemEvents_request hcommand)
    | BroadcastCommand => exact .inl (convertCommandsToSystemEvents_stuck hcommand (.inl rfl))
  | @broadcast event m hevent his _ ih =>
    obtain ⟨hcommand, hmessage⟩ := ofEvent_eq_some.mp hevent
    have hpayload : event ≠ .null := by
      rintro rfl
      cases hcommand
    rw [convertCommandsToSystemEvents_broadcast h hpayload, hmessage]
    exact ih (by rw [hcommand]; exact his)

/-- The events of a message are the payload that it wraps, if it wraps one. -/
def Emits (payloads : List (Option Json)) (event : Json) : Prop :=
  (∀ payload k, Wraps payload k event → payloads = [some payload]) ∧
    ((∀ payload k, ¬ Wraps payload k event) → payloads = [])

/-- What neither requests nor broadcasts comes to nothing. -/
theorem emits_nil {event : Json} (h : ∀ m, ofEvent event = some m →
    ¬ m.Is .HealthCheckRequest ∧ ¬ m.Is .BroadcastCommand) : Emits [] event := by
  refine ⟨fun payload k hwraps => ?_, fun _ => rfl⟩
  obtain ⟨m, hevent, his⟩ := hwraps.exists_command
  exact absurd his (not_or.mpr (h m hevent))

/-- A command comes to what it wraps, if its payload does. -/
theorem emits_of_command {event : Json} {m : InterProcessCommunication}
    (hevent : ofEvent event = some m)
    (hpayload : m.Is .BroadcastCommand → m.message ≠ .null ∧ ∃ payloads,
      convertCommandsToSystemEvents (m.message.get? "command") (m.message.get? "message") =
        .ok payloads ∧ Emits payloads m.message) :
    ∃ payloads, convertCommandsToSystemEvents (some m.command) (some m.message) = .ok payloads ∧
      Emits payloads event := by
  by_cases hrequest : m.Is .HealthCheckRequest
  · refine ⟨[some m.message], convertCommandsToSystemEvents_request hrequest, ?_, ?_⟩
    · intro payload k hwraps
      rw [((wraps_of_request hevent hrequest).mp hwraps).2]
    · intro hnone
      exact absurd (.request hevent hrequest rfl) (hnone m.message 0)
  · by_cases hbroadcast : m.Is .BroadcastCommand
    · have hcommand : (some m.command).bind Json.str? =
          some CommunicationCommands.BroadcastCommand.text := hbroadcast
      obtain ⟨hnull, payloads, hconvert, hwraps, hnone⟩ := hpayload hbroadcast
      refine ⟨payloads, (convertCommandsToSystemEvents_broadcast hcommand hnull).trans hconvert,
        ?_, ?_⟩
      · intro payload k h
        obtain ⟨k', h'⟩ := (wraps_of_broadcast hevent hbroadcast).mp ⟨k, h⟩
        exact hwraps payload k' h'
      · intro h
        refine hnone fun payload k h' => ?_
        obtain ⟨k', hk'⟩ := (wraps_of_broadcast hevent hbroadcast).mpr ⟨k, h'⟩
        exact h payload k' hk'
    · refine ⟨[], convertCommandsToSystemEvents_other hrequest hbroadcast, emits_nil fun m' hm' => ?_⟩
      obtain rfl := Option.some.inj (hevent.symm.trans hm')
      exact ⟨hrequest, hbroadcast⟩

/-- A value that is no message and not malformed either has no command that is known. -/
theorem not_known_of_not_malformed {event : Json} (hevent : ofEvent event = none)
    (hmalformed : ¬ Malformed event) {command : CommunicationCommands}
    (hknown : command ≠ .HealthCheckStatus) :
    ¬ (event.get? "command").bind Json.str? = some command.text := by
  intro hcommand
  cases hmessage : event.get? "message" with
  | none => exact hmalformed (.missing hknown hcommand hmessage)
  | some message =>
    cases hget : event.get? "command" with
    | none => rw [hget] at hcommand; cases hcommand
    | some value =>
      have hof : ofEvent event = some ⟨value, message⟩ := ofEvent_eq_some.mpr ⟨hget, hmessage⟩
      rw [hevent] at hof
      cases hof

/-- What is not malformed comes to what it wraps. The induction is on the size of the value, one
    level of broadcasts at a time. -/
theorem convertCommandsToSystemEvents_of_not_malformed (event : Json) (hevent : ¬ Malformed event) :
    ∃ payloads, convertCommandsToSystemEvents (event.get? "command") (event.get? "message") =
      .ok payloads ∧ Emits payloads event := by
  induction hsize : sizeOf event using Nat.strong_induction_on generalizing event with
  | _ n ih =>
    subst hsize
    cases hof : ofEvent event with
    | none =>
      refine ⟨[], convertCommandsToSystemEvents_other
        (not_known_of_not_malformed hof hevent (by decide))
        (not_known_of_not_malformed hof hevent (by decide)), emits_nil fun m hm => ?_⟩
      rw [hof] at hm
      cases hm
    | some m =>
      obtain ⟨hcommand, hmessage⟩ := ofEvent_eq_some.mp hof
      rw [hcommand, hmessage]
      refine emits_of_command hof fun hbroadcast => ?_
      have hpayload : ¬ Malformed m.message := fun h => hevent (.broadcast hof hbroadcast h)
      have hsmaller : sizeOf m.message < sizeOf event := by
        have := Json.sizeOf_get?_lt event "message"
        rw [hmessage] at this
        simpa using this
      exact ⟨fun hnull => hpayload (hnull ▸ .null), ih _ hsmaller m.message hpayload rfl⟩

/-! ## The listener -/

theorem listener_of_ofEvent_none {process : MessagingProcess} {event : Json}
    (h : ofEvent event = none) :
    listener process event = { process with messages := process.messages ++ [event] } := by
  unfold listener
  rw [h]
  exact ite_self _

/-- A value with the members of a command is not falsy. -/
theorem listener_of_ofEvent {process : MessagingProcess} {event : Json}
    {m : InterProcessCommunication} (h : ofEvent event = some m) :
    listener process event = subscription { process with
      messages := process.messages ++ [event], commands := process.commands ++ [event] } m := by
  unfold listener
  rw [h]
  cases event with
  | obj _ => rfl
  | null | bool _ | num _ | str _ | arr _ => cases h

end ProcessMessagingService

open ProcessMessagingService InterProcessCommunication

/-- What is no command is given to the subscribers of messages alone. -/
theorem handledTotally_of_ofEvent_none (process : MessagingProcess) {event : Json}
    (h : ofEvent event = none) : HandledTotally process event := by
  have hlistener : listener process event = _ := listener_of_ofEvent_none h
  refine ⟨by rw [hlistener], by rw [hlistener], by rw [hlistener, h]; simp, ?_, by simp [hlistener]⟩
  intro payload k hwraps
  obtain ⟨m, hm, -⟩ := hwraps.exists_command
  rw [h] at hm
  cases hm

/-- A command is handled as it should be where the conversion returns what it wraps. -/
theorem handledTotally_of_emits (process : MessagingProcess) {event : Json}
    {m : InterProcessCommunication} (hevent : ofEvent event = some m)
    {payloads : List (Option Json)}
    (hconvert : convertCommandsToSystemEvents (some m.command) (some m.message) = .ok payloads)
    (hemits : Emits payloads event) : HandledTotally process event := by
  have hlistener : listener process event = _ := listener_of_ofEvent hevent
  unfold subscription at hlistener
  rw [hconvert] at hlistener
  refine ⟨by rw [hlistener], by rw [hlistener], by rw [hlistener, hevent]; rfl, ?_, ?_⟩
  · intro payload k hwraps
    rw [hlistener, hemits.1 payload k hwraps]
  · intro hnone
    rw [hlistener, hemits.2 hnone]
    exact List.append_nil _

/-- A broadcast of a malformed payload is not. -/
theorem not_handledTotally_of_malformed {process : MessagingProcess} {event : Json}
    {m : InterProcessCommunication} (hevent : ofEvent event = some m) (his : m.Is .BroadcastCommand)
    (hmalformed : Malformed m.message) : ¬ HandledTotally process event := by
  intro h
  have hlistener : listener process event = _ := listener_of_ofEvent hevent
  have hcommand : (some m.command).bind Json.str? =
      some CommunicationCommands.BroadcastCommand.text := his
  unfold subscription at hlistener
  rcases convertCommandsToSystemEvents_of_malformed hmalformed hcommand with ⟨e, he⟩ | hok
  · have huncaught := h.uncaught
    rw [hlistener, he] at huncaught
    simp at huncaught
  · have hnone : ∀ payload k, ¬ Wraps payload k event := by
      intro payload k hwraps
      obtain ⟨_, hpayload⟩ := (wraps_of_broadcast hevent his).mp ⟨k, hwraps⟩
      exact hpayload.not_malformed hmalformed
    have hother := h.other hnone
    rw [hlistener, hok] at hother
    simp at hother

/-- A message is handled as it should be iff it is no broadcast of a malformed payload. -/
theorem handledTotally_iff (process : MessagingProcess) (event : Json) :
    HandledTotally process event ↔ Deliverable event := by
  constructor
  · intro h m hevent his hmalformed
    exact not_handledTotally_of_malformed hevent his hmalformed h
  · intro h
    cases hevent : ofEvent event with
    | none => exact handledTotally_of_ofEvent_none process hevent
    | some m =>
      obtain ⟨payloads, hconvert, hemits⟩ := emits_of_command hevent fun his =>
        ⟨fun hnull => h m hevent his (hnull ▸ .null),
          convertCommandsToSystemEvents_of_not_malformed _ (h m hevent his)⟩
      exact handledTotally_of_emits process hevent hconvert hemits

/-- A broadcast of `null`. -/
def nullBroadcast : InterProcessCommunication where
  command := .str CommunicationCommands.BroadcastCommand.text
  message := .null

/-- The subscriber throws on it. -/
theorem not_handledTotally_nullBroadcast : ¬ HandledTotally {} nullBroadcast.event :=
  not_handledTotally_of_malformed (ofEvent_message _) rfl .null

end NestTemplate
