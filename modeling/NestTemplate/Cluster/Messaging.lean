import NestTemplate.Common.Action
import NestTemplate.Common.Heap
import NestTemplate.Common.Json

/-!
# Messages between the primary and its workers

What arrives on a worker object is any JSON value; `subscribeCommandsFromWorker`
lets those through that have the members `command` and `message`.

* `ofEvent_message`: a message arrives as it was sent.
-/

namespace NestTemplate

open Common

/-- `CommunicationCommands`. -/
inductive CommunicationCommands where
  | HealthCheckRequest
  | HealthCheckStatus
  | BroadcastCommand
  deriving DecidableEq

/-- The enumeration's string values. -/
def CommunicationCommands.text : CommunicationCommands → String
  | .HealthCheckRequest => "health-check-request"
  | .HealthCheckStatus => "health-check-status"
  | .BroadcastCommand => "broadcast-command"

theorem CommunicationCommands.text_injective {c d : CommunicationCommands} (h : c.text = d.text) :
    c = d := by
  cases c <;> cases d <;> first | rfl | (revert h; decide)

/-- `InterProcessCommunication`. The sender chooses both members. -/
structure InterProcessCommunication where
  command : Json
  message : Json

namespace InterProcessCommunication

/-- The value that is sent over the channel. -/
def event (m : InterProcessCommunication) : Json :=
  .obj [("command", m.command), ("message", m.message)]

/-- The `handler` of `subscribeCommandsFromWorker`: `none` for what it does not emit. -/
def ofEvent (event : Json) : Option InterProcessCommunication :=
  match event.get? "command", event.get? "message" with
  | some command, some message => some ⟨command, message⟩
  | _, _ => none

@[simp] theorem ofEvent_message (m : InterProcessCommunication) : ofEvent m.event = some m := rfl

/-- `commandReceived.command === command`. -/
def Is (m : InterProcessCommunication) (command : CommunicationCommands) : Prop :=
  m.command.str? = some command.text

instance (m : InterProcessCommunication) (command : CommunicationCommands) :
    Decidable (m.Is command) := inferInstanceAs (Decidable (_ = _))

/-- A message has one command. -/
theorem Is.unique {m : InterProcessCommunication} {c d : CommunicationCommands} (h : m.Is c)
    (h' : m.Is d) : c = d :=
  CommunicationCommands.text_injective (Option.some.inj (h.symm.trans h'))

end InterProcessCommunication

end NestTemplate
