import Hydrogenuine.Realtime.ApprovedRuns
import Hydrogenuine.Realtime.Event
import Mathlib.Algebra.Order.Ring.Rat

/-!
# The realtime scheduler

Embedding of `hg_realtime/scheduler/coalesce.py` and of `tick_once` of
`scheduler/service.py`.  A tick launches the approved runs and then handles the
polled events one by one.  What lies outside the process while an event is handled,
and may fail, is given with the event.  The attempts are recorded beside the state,
for the statements; nothing reads them.
-/

namespace Hydrogenuine.Realtime

open Support Hydrogenuine.Core

/-! ## The coalescer -/

/-- `Coalescer`: the last sighting of each key. -/
structure Coalescer where
  windowS : ℚ := 2
  lastSeen : Dict String (ℚ × String) := Dict.empty

def Coalescer.inWindow
    (coalescer : Coalescer) (dedupKey : Option String) (now : ℚ) : Bool :=
  match dedupKey with
  | none => false
  | some key =>
      key != "" && (coalescer.lastSeen.get? key).any fun seen =>
        decide (now - seen.1 ≤ coalescer.windowS)

/-- `should_drop`: the verdict, and the coalescer with this sighting. -/
def Coalescer.shouldDrop
    (coalescer : Coalescer) (dedupKey : Option String) (eventId : String) (now : ℚ) :
    Bool × Coalescer :=
  match dedupKey with
  | none => (false, coalescer)
  | some key =>
      if key = "" then (false, coalescer)
      else
        (coalescer.inWindow dedupKey now,
          { coalescer with lastSeen := coalescer.lastSeen.set key (now, eventId) })

/-! ## The state -/

/-- What lies outside the process while an event is handled: the clock, where the
event is routed to, the verdict of the policy, the record of a blocked run, the run
of a swarm, the launch with its new run id, and whether an acknowledgement returns. -/
structure HandlingWorld where
  now : ℚ
  route : Except PyError (Option (String × PyVal))
  allows : Except PyError Bool
  blockedRecord : Option (String × String)
  swarm : RunTable → Bool × RunTable
  launch : LaunchWorld
  runId : String
  acks : Bool

/-- What came of an event. -/
inductive Handling where
  | dropped
  | unrouted
  | denied
  | deferred
  | launched
  | failed
deriving DecidableEq

/-- An attempt to handle an event. -/
structure Attempt where
  event : Event
  world : HandlingWorld
  handling : Handling
  acked : Bool

/-- The scheduler: its coalescer, the table of runs, and the attempts so far. -/
structure Scheduler where
  coalescer : Coalescer := {}
  runs : RunTable := Dict.empty
  attempts : List Attempt := []

/-! ## Ticks -/

def runRequested (event : Event) (workflowId : String) (resolvedInputs : PyVal) :
    RunRequested where
  workflowId := workflowId
  tenantId := event.tenantId
  actorId := event.actorId
  correlationId := event.correlationId
  resolvedInputs := resolvedInputs
  dedupKey := .ofOption event.dedupKey

/-- The handling of a routed and allowed event, and the table after it. -/
def launchRouted
    (launcher : DagLauncher) (runs : RunTable) (event : Event) (world : HandlingWorld)
    (workflowId : String) (resolvedInputs : PyVal) : Handling × RunTable :=
  if workflowId = "swarm" then
    let done := world.swarm runs
    (if done.1 then .launched else .failed, done.2)
  else if (shouldSkipLaunch world.launch.guardReads runs workflowId).1 then
    (.deferred, runs)
  else
    let done := launcher.launch world.launch runs
      (runRequested event workflowId resolvedInputs) world.runId
    (if done.1 then .launched else .failed, done.2)

def recordBlocked (runs : RunTable) (world : HandlingWorld) (workflowId : String) :
    RunTable :=
  match world.blockedRecord with
  | some (runId, pendingRequest) =>
      runs.set runId
        { graphId := some workflowId
          status := some "blocked"
          pendingRequestJson := some pendingRequest }
  | none => runs

def handleKept
    (launcher : DagLauncher) (runs : RunTable) (event : Event)
    (world : HandlingWorld) : Handling × RunTable :=
  match world.route with
  | .error _ => (.failed, runs)
  | .ok none => (.unrouted, runs)
  | .ok (some (workflowId, resolvedInputs)) =>
      match world.allows with
      | .error _ => (.failed, runs)
      | .ok false => (.denied, recordBlocked runs world workflowId)
      | .ok true => launchRouted launcher runs event world workflowId resolvedInputs

def Scheduler.handling
    (launcher : DagLauncher) (s : Scheduler) (event : Event)
    (world : HandlingWorld) : Handling × RunTable :=
  if (s.coalescer.shouldDrop event.dedupKey event.eventId world.now).1 then
    (.dropped, s.runs)
  else handleKept launcher s.runs event world

/-- The loop of `tick_once` for one event.  A failed event is not acknowledged. -/
def Scheduler.handle
    (launcher : DagLauncher) (s : Scheduler) (event : Event)
    (world : HandlingWorld) : Scheduler :=
  let handling := s.handling launcher event world
  { coalescer := (s.coalescer.shouldDrop event.dedupKey event.eventId world.now).2
    runs := handling.2
    attempts := s.attempts ++
      [{ event
         world
         handling := handling.1
         acked := decide (handling.1 ≠ .failed) && world.acks }] }

/-- The steps of a scheduler: a pass over the approved runs, and the handling of a
polled event. -/
inductive SchedulerStep where
  | approvedRuns (services : PassServices)
  | deliver (event : Event) (world : HandlingWorld)

def Scheduler.step (launcher : DagLauncher) (s : Scheduler) :
    SchedulerStep → Scheduler
  | .approvedRuns services =>
      { s with runs := (processApprovedRuns { services with launcher } s.runs).runs }
  | .deliver event world => s.handle launcher event world

def schedulerMachine (launcher : DagLauncher) :
    Machine Scheduler SchedulerStep Unit where
  step s step := (s.step launcher step, ())

/-- A tick: what its pass over the approved runs meets, and the polled events. -/
structure Tick where
  services : PassServices
  polled : List (Event × HandlingWorld)

def Tick.steps (tick : Tick) : List SchedulerStep :=
  .approvedRuns tick.services ::
    tick.polled.map fun delivery => .deliver delivery.1 delivery.2

def Scheduler.tickOnce (launcher : DagLauncher) (s : Scheduler) (tick : Tick) :
    Scheduler :=
  (schedulerMachine launcher).final s tick.steps

end Hydrogenuine.Realtime
