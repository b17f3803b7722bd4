import Mathlib.Algebra.Ring.Nat
import Mathlib.Data.List.Sort
import Hydrogenuine.Support.Dict
import Hydrogenuine.TaskGraph.Schema

/-!
# The state of a run and its scheduling functions

Embedding of the helpers of `hg_core/task_graph/executor.py`: reachability,
skipping, readiness, loop bodies and the final status.  What a run changes of
its nodes is one record for each id.  `trace` and `observed` are ghost records of
what the executor does, in order; no modelled function reads them.
-/

namespace Hydrogenuine.TaskGraph

open Support Hydrogenuine.Core

/-! ## The state of a run -/

inductive NodeStatus where
  | pending
  | ready
  | running
  | done
  | failed
  | skipped
  | blocked
deriving DecidableEq

/-- `can_transition` of `state_machine.py`. -/
def canTransition (fromStatus toStatus : NodeStatus) : Bool :=
  [(NodeStatus.pending, NodeStatus.ready), (.pending, .skipped),
    (.pending, .blocked), (.ready, .running), (.ready, .skipped),
    (.ready, .blocked), (.running, .done), (.running, .failed),
    (.running, .ready)].contains (fromStatus, toStatus)

/-- The runtime fields of a node.  An empty error is no error. -/
structure NodeRun where
  status : Option NodeStatus := some .pending
  attemptCount : ℤ := 0
  error : Items := []

/-- `node.status or PENDING`. -/
def NodeRun.current (run : NodeRun) : NodeStatus := run.status.getD .pending

def NodeRun.waiting (run : NodeRun) : Bool :=
  run.current == .pending || run.current == .ready

/-- The runtime record of a loop, with the defaults for missing items. -/
structure LoopRun where
  iteration : ℤ := 0
  active : Bool := false
  maxIterations : ℤ := 1
  lastConditionValue : Option Bool := none

/-- The parts of `RunState` that the executor works on. -/
structure RunState where
  nodeOutputs : Items := []
  state : Items := []
  loopState : Dict String LoopRun := Dict.empty
  finalStatus : Option String := none

/-- What the executor does to a node or a loop.  Starting and dispatching a
node are recorded with the statuses of all nodes at that moment. -/
inductive Event where
  | started (nid : String) (statuses : String → Option NodeStatus)
  | gateChecked (nid : String) (allowed : Bool)
  | dispatched (nid : String) (statuses : String → Option NodeStatus)
  | settled (nid : String) (status : NodeStatus)
  | evaluated (loopId : String) (value : Bool)
  | reset (ids : List String)

/-- What else is seen of a run: a change of statuses that is no reset of a loop
body, a call of the dispatcher with the run state it is given, and the entries
on escrow that the ledger takes. -/
inductive Observation where
  | changed (before after : String → Option NodeStatus)
  | called (nid : String) (runState : RunState)
  | locked (nid : String) (amount : PyVal)
  | released (nid : String) (amount : PyVal)
  | slashed (nid : String) (amount : PyVal)

/-- The state of `_run_loop` and of `resume` between two steps.  `tick` numbers
the steps, so that answers from outside may differ from step to step. -/
structure Exec where
  nodes : String → NodeRun
  runState : RunState := {}
  executionCount : ℕ := 0
  tick : ℕ := 0
  trace : List Event := []
  observed : List Observation := []

def Exec.statuses (e : Exec) : String → Option NodeStatus :=
  fun id => (e.nodes id).status

/-! ## Skipping -/

def setNode
    (nodes : String → NodeRun) (id : String) (run : NodeRun) :
    String → NodeRun :=
  fun id' => if id' = id then run else nodes id'

def setStatus
    (nodes : String → NodeRun) (id : String) (status : NodeStatus) :
    String → NodeRun :=
  setNode nodes id { nodes id with status := some status }

def skipWhere
    (nodes : String → NodeRun) (ids : List String)
    (test : NodeRun → Bool) : String → NodeRun :=
  ids.foldl
    (fun nodes id =>
      if test (nodes id) then setStatus nodes id .skipped else nodes) nodes

/-- The nodes, the ids that count as skipped, and whether a pass changed
anything. -/
structure Propagation where
  nodes : String → NodeRun
  skipped : List String
  changed : Bool := false

/-- The body of the inner loop of `_propagate_deps_all_skipped`. -/
def propagateNode (p : Propagation) (node : Node) : Propagation :=
  if (p.nodes node.id).waiting && !node.dependsOn.isEmpty &&
      node.dependsOn.all p.skipped.contains then
    { nodes := setStatus p.nodes node.id .skipped
      skipped := node.id :: p.skipped
      changed := true }
  else p

def propagatePass (dag : Dag) (p : Propagation) : Propagation :=
  (dag.nodes.insertionSort fun a b => a.id ≤ b.id).foldl propagateNode
    { p with changed := false }

/-- The passes: every pass but the last skips a waiting node, so that the
number of nodes bounds their number. -/
def propagatePasses (dag : Dag) : ℕ → Propagation → Propagation
  | 0, p => p
  | fuel + 1, p =>
      let p' := propagatePass dag p
      if p'.changed then propagatePasses dag fuel p' else p'

def propagateDepsAllSkipped
    (dag : Dag) (nodes : String → NodeRun) (skipped : List String) :
    String → NodeRun :=
  (propagatePasses dag (dag.nodes.length + 1) { nodes, skipped }).nodes

def idsWith
    (dag : Dag) (nodes : String → NodeRun) (status : NodeStatus) :
    List String :=
  dag.ids.filter fun id => (nodes id).status == some status

/-! ## Reachability -/

/-- `_successors_by_id`. -/
def successors (dag : Dag) (id : String) : List String :=
  dag.nodes.flatMap fun node =>
    (node.dependsOn.filter (· == id)).map fun _ => node.id

/-- The search of `_reachable_from`: a node is expanded at its first visit. -/
def reachFrom (dag : Dag) : ℕ → List String → List String → List String
  | 0, _, out => out
  | _ + 1, [], out => out
  | fuel + 1, nid :: queue, out =>
      if out.contains nid then reachFrom dag fuel queue out
      else
        let out' := out ++ [nid]
        let fresh := ((successors dag nid).insertionSort (· ≤ ·)).filter
          fun s => !out'.contains s
        reachFrom dag fuel (queue ++ fresh) out'

/-- `_reachable_from`.  No more ids are ever queued than there are seeds and
dependencies. -/
def reachableFrom (dag : Dag) (seeds : List String) : List String :=
  reachFrom dag
    (seeds.length + (dag.nodes.map fun node => node.dependsOn.length).sum + 1)
    (seeds.insertionSort (· ≤ ·)) []

/-! ## Readiness -/

/-- `get_ready_nodes`: the ready ids, and the nodes after the skips it
propagates. -/
def getReadyNodes
    (dag : Dag) (failureMode : String) (nodes : String → NodeRun) :
    List String × (String → NodeRun) :=
  let done := idsWith dag nodes .done
  let failed := idsWith dag nodes .failed
  let nodes' :=
    propagateDepsAllSkipped dag nodes (idsWith dag nodes .skipped)
  let isReady (node : Node) : Bool :=
    (nodes' node.id).waiting && node.dependsOn.all done.contains &&
      !(failureMode == "continue" && node.dependsOn.any failed.contains)
  (((dag.nodes.filter isReady).map Node.id).insertionSort (· ≤ ·), nodes')

def skipFailedDependents
    (dag : Dag) (nodes : String → NodeRun) : String → NodeRun :=
  dag.nodes.foldl
    (fun nodes node =>
      if (nodes node.id).status == some .pending &&
          node.dependsOn.any fun dep =>
            dag.ids.contains dep && (nodes dep).status == some .failed then
        setStatus nodes node.id .skipped
      else nodes) nodes

/-! ## Loops -/

/-- `_reset_loop_body_nodes` on the nodes. -/
def resetNodes
    (dag : Dag) (nodes : String → NodeRun) (body : List String) :
    String → NodeRun :=
  fun id => if body.contains id && dag.ids.contains id then {} else nodes id

/-- `_reset_loop_body_nodes` on the outputs. -/
def resetOutputs (dag : Dag) (outputs : Items) (body : List String) : Items :=
  outputs.filter fun entry =>
    !(body.contains entry.1 && dag.ids.contains entry.1)

/-- `_get_loop_body_complete`: the first active loop whose body is done or
skipped. -/
def getLoopBodyComplete
    (dag : Dag) (nodes : String → NodeRun) (loops : Dict String LoopRun) :
    Option Node :=
  loops.entries.findSome? fun entry =>
    if !entry.2.active then none
    else
      match dag.byId entry.1 with
      | none => none
      | some node =>
          if node.type == "loop" && !node.body.isEmpty &&
              node.body.all fun bid =>
                dag.ids.contains bid && ((nodes bid).status == some .done ||
                  (nodes bid).status == some .skipped) then
            some node
          else none

/-- `_body_to_loop_map`: the last loop whose body holds the node. -/
def bodyToLoop (dag : Dag) (bid : String) : Option Node :=
  (dag.nodes.filter fun node =>
    node.type == "loop" && node.body.contains bid).getLast?

/-- `_TERMINAL_NODE_STATUSES`. -/
def isTerminal (status : NodeStatus) : Bool :=
  [NodeStatus.done, .failed, .skipped, .blocked].contains status

def computeFinalRunStatus
    (dag : Dag) (nodes : String → NodeRun) (failureMode : String) : String :=
  if dag.ids.any fun id => (nodes id).status == some .failed then
    if failureMode == "fail_fast" then "failed" else "partial"
  else if dag.ids.any fun id => !isTerminal (nodes id).current then "partial"
  else "completed"

end Hydrogenuine.TaskGraph
