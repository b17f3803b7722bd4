import Hydrogenuine.Core.Host
import Hydrogenuine.Support.Dict

/-!
# Launching runs

Embedding of `hg_realtime/integrations/launch_guard.py` and of the part of
`dag_launcher.py` that starts a run.  The table of runs is the one of the gateway
database; the registry of jobs is a parameter, and what may fail outside the process
is given with each launch.
-/

namespace Hydrogenuine.Realtime

open Support Hydrogenuine.Core

/-! ## The table of runs -/

/-- The columns of `runs` that are read here. -/
structure RunRow where
  graphId : Option String
  status : Option String
  pendingRequestJson : Option String := none
deriving DecidableEq

/-- The rows of `runs` under their primary key. -/
abbrev RunTable := Dict String RunRow

/-- A request for a run. -/
structure RunRequested where
  workflowId : String
  tenantId : String
  actorId : String
  correlationId : String
  resolvedInputs : PyVal
  dedupKey : PyVal

/-! ## The launch guard -/

def socialWorkflowIds : List String := ["social-media", "social_media_v1"]

def activeStatuses : List String :=
  ["running", "launching", "approved_pending_launch", "pending_approval", "pending"]

def RunRow.activeSocial (row : RunRow) : Bool :=
  row.graphId.any (· ∈ socialWorkflowIds) && row.status.any (· ∈ activeStatuses)

/-- `social_workflow_in_flight`; without a connection nothing is in flight. -/
def socialWorkflowInFlight (guardReads : Bool) (runs : RunTable) : Bool :=
  guardReads && runs.entries.any fun entry => entry.2.activeSocial

/-- `should_skip_launch`: the verdict and its reason. -/
def shouldSkipLaunch
    (guardReads : Bool) (runs : RunTable) (workflowId : String) : Bool × String :=
  if strip workflowId ∉ socialWorkflowIds then (false, "")
  else if socialWorkflowInFlight guardReads runs then
    (true, "social-media workflow already in flight")
  else (false, "")

/-! ## The launcher -/

/-- What lies outside the process at one launch: whether the guard gets a
connection, whether the lease and the record of the start are taken, and whether the
directory and the process of the run can be made. -/
structure LaunchWorld where
  guardReads : Bool
  prepares : Bool
  starts : Bool

/-- `DagLauncher`: the job that a workflow resolves to, and whether the start of a run
is recorded in the table. -/
structure DagLauncher where
  jobOf : String → Option String
  runIndexed : Bool

/-- `_resolved_inputs_to_cli_args` does not raise. -/
def readsAsInputs : PyVal → Bool
  | .dict _ => true
  | inputs => !inputs.truthy

/-- `record_start` of a launch. -/
def recordStart
    (runs : RunTable) (runId workflowId jobId : String) : RunTable :=
  runs.set runId
    { graphId := some (orText (some workflowId) jobId)
      status := some "running" }

/-- `DagLauncher.launch`: whether it returns, and the table after it. -/
def DagLauncher.launch
    (launcher : DagLauncher) (world : LaunchWorld) (runs : RunTable)
    (req : RunRequested) (runId : String) : Bool × RunTable :=
  match launcher.jobOf req.workflowId with
  | none => (false, runs)
  | some jobId =>
      if !world.prepares then (false, runs)
      else
        (readsAsInputs req.resolvedInputs && world.starts,
          if launcher.runIndexed then recordStart runs runId req.workflowId jobId
          else runs)

end Hydrogenuine.Realtime
