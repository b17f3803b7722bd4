import Hydrogenuine.Core.Host
import Hydrogenuine.Support.PyValue

/-!
# Realtime events

Embedding of `hg_realtime/schemas/event.py`.  The times of an event are not read by
the bus or the scheduler.
-/

namespace Hydrogenuine.Realtime

open Support Hydrogenuine.Core

inductive EventType where
  | timer
  | webhook
  | fileChange
  | uiAction
  | agentSignal
  | internal
deriving DecidableEq

structure Event where
  eventId : String
  eventType : EventType
  tenantId : String
  actorId : String
  correlationId : String
  payload : List (String × PyVal)
  dedupKey : Option String := none

/-- `Event.validate`; a payload is a dictionary here. -/
def Event.validate (event : Event) : Except PyError Unit :=
  if event.eventId.length < 8 then .error (.valueError "event_id is required")
  else if event.tenantId = "" then .error (.valueError "tenant_id is required")
  else if event.actorId = "" then .error (.valueError "actor_id is required")
  else if event.correlationId = "" then
    .error (.valueError "correlation_id is required")
  else .ok ()

end Hydrogenuine.Realtime
