import Hydrogenuine.Core.ReferenceHost
import Hydrogenuine.TaskGraph.Scheduler

/-!
# The task graph executor

Embedding of `TaskGraphExecutor.run` and `resume` in
`hg_core/task_graph/executor.py`.  One step is either the head of the main loop,
which ends the run, advances a loop or fills the queue with a batch of ready
nodes, or the processing of the next node of the batch.  The two copies of the
main loop differ in the execution cap, the stakes gate and the escrow lock, which
only `run` has; they are one definition with a mode.

What the executor asks of others (dispatcher, gate, ledger, state store,
overseer, clock, expression engine) are services whose answers are arbitrary.
-/

namespace Hydrogenuine.TaskGraph

open Support Hydrogenuine.Core

/-! ## Services and settings -/

/-- The evaluation context of a condition. -/
structure EvalContext where
  state : Items
  nodeOutputs : Items
  graphInputs : Items
  /-- Id, iteration, bound and state of a loop. -/
  loop : Option (String × ℤ × ℤ × PyVal)

/-- What is read of a `GateResult`. -/
structure GateResult where
  allowed : Bool
  reason : String
  approvalRequired : Bool := false

/-- What the loop head reads from outside: an injected payload, the payload of
a cancel request, and the elapsed seconds when the runtime cap is exceeded. -/
structure Poll where
  inject : Option PyVal := none
  cancel : Option PyVal := none
  elapsed : ℤ → Option String := fun _ => none

/-- The answers from outside.  A step number tells the calls of different steps
apart. -/
structure Services where
  host : Host
  /-- `evaluate_expression`. -/
  evaluate : PyVal → EvalContext → Bool → Except PyError PyVal
  /-- `_ensure_run_state_initialized`. -/
  initializeState : Items → Items → Items
  /-- `check_before_dispatch`: the state after it and the error, if any. -/
  checkBeforeDispatch : RunPolicy → Items → Except PyError (Items × Option Items)
  /-- `apply_after_dispatch` with the usage observed on an output. -/
  applyAfterDispatch : RunPolicy → Items → Option Items → Except PyError Items
  /-- `classify_failure` of an exception. -/
  classifyFailure : PyError → String → Items
  /-- `type(e).__name__`. -/
  typeName : PyError → String
  /-- `failure_class_from_error_dict`. -/
  failureClass : Items → String → PyVal
  poll : ℕ → Poll
  /-- `overseer.before_node`: the reason of a block. -/
  beforeNode : ℕ → Node → Except PyError (Option PyVal)
  /-- `_get_stakes_context` and `check_gate`. -/
  checkGate : ℕ → String → String → Items → PyVal → Except PyError GateResult
  /-- The ledger append of `APPROVAL_REQUESTED`. -/
  emitApproval : ℕ → Except PyError Unit
  /-- The amount locked when the ledger append of `ESCROW_LOCKED` succeeds. -/
  lockEscrow : ℕ → PyVal → Option PyVal
  /-- Whether the append of `ESCROW_SLASHED` or `ESCROW_RELEASED` succeeds. -/
  settleEscrow : ℕ → Bool
  /-- The dispatcher, which gets the node with its attempt count, the inputs, the run
  state and the graph inputs: its answer and the state dictionary after the call. -/
  dispatch : ℕ → Node → ℤ → Items → RunState → Items →
    Except PyError (Option Items) × Items
  /-- The error, if any, of the saves of a step, numbered within the step. -/
  saveError : ℕ → ℕ → Option PyError

inductive Mode where
  | run
  | resume
deriving DecidableEq

/-- What stays fixed during a call of `run` or `resume`.  `stakesPolicy` is the
loaded policy when there is a run directory inside a workspace. -/
structure Setting where
  services : Services
  dag : Dag
  mode : Mode
  graphInputs : Items := []
  stakesPolicy : Option PyVal := none

/-- The result of a call, as far as it is modelled: `ok`, the status and the node
at whose checkpoint it paused. -/
structure RunResult where
  ok : Bool
  status : Option String
  pausedAt : Option String := none

/-- The state between two steps: the rest of the batch and the run. -/
structure Sched where
  queue : List String
  exec : Exec

/-- A step goes on, or the call returns or raises. -/
inductive Flow where
  | next (s : Sched)
  | stop (e : Exec) (result : Except PyError RunResult)

def Flow.exec : Flow → Exec
  | .next s => s.exec
  | .stop e _ => e

def Flow.goesOn : Flow → Bool
  | .next _ => true
  | .stop _ _ => false

/-! ## Changes of the run -/

namespace Exec

def observe (e : Exec) (observation : Observation) : Exec :=
  { e with observed := e.observed ++ [observation] }

def withNodes (e : Exec) (nodes : String → NodeRun) : Exec :=
  { e with nodes := nodes }.observe
    (.changed e.statuses fun id => (nodes id).status)

def withNode (e : Exec) (id : String) (f : NodeRun → NodeRun) : Exec :=
  e.withNodes (setNode e.nodes id (f (e.nodes id)))

def withState (e : Exec) (f : RunState → RunState) : Exec :=
  { e with runState := f e.runState }

def withItems (e : Exec) (f : Items → Items) : Exec :=
  e.withState fun r => { r with state := f r.state }

def output (e : Exec) (id : String) (v : PyVal) : Exec :=
  e.withState fun r =>
    { r with nodeOutputs := PyVal.setItem r.nodeOutputs id v }

def record (e : Exec) (event : Event) : Exec :=
  { e with trace := e.trace ++ [event] }

def settle (e : Exec) (id : String) (status : NodeStatus) : Exec :=
  (e.withNode id fun run => { run with status := some status }).record
    (.settled id status)

def fail (e : Exec) (id : String) (error : Items) : Exec :=
  e.withNode id fun run => { run with error := error }

def runError (e : Exec) (code message : String) : Exec :=
  e.withItems fun state =>
    PyVal.setItem state "_run_error"
      (.dict [("code", .str code), ("message", .str message)])

def final (e : Exec) (status : String) : Exec :=
  e.withState fun r => { r with finalStatus := some status }

def setLoop (e : Exec) (id : String) (loop : LoopRun) : Exec :=
  e.withState fun r => { r with loopState := r.loopState.set id loop }

def loop (e : Exec) (id : String) : LoopRun :=
  (e.runState.loopState.get? id).getD {}

/-- The return value of `_summary`. -/
def summary (e : Exec) (ok : Bool) : RunResult where
  ok := ok
  status := e.runState.finalStatus

end Exec

/-! ## Shared pieces -/

namespace Setting

variable (c : Setting)

/-- `state_store.save` and the artifacts of the run directory, the `n`-th time
in a step; an error leaves the call. -/
def save (e : Exec) (n : ℕ) (k : Flow) : Flow :=
  match c.services.saveError e.tick n with
  | some err => .stop e (.error err)
  | none => k

def saveAndReturn (e : Exec) (ok : Bool) : Flow :=
  c.save e 1 (.stop e (.ok (e.summary ok)))

/-- The evaluation of a node's condition; an error counts as false. -/
def conditionValue
    (e : Exec) (node : Node) (loop : Option (String × ℤ × ℤ × PyVal)) : Bool :=
  match c.services.evaluate (PyVal.getItem node.inputs "condition")
      { state := e.runState.state
        nodeOutputs := e.runState.nodeOutputs
        graphInputs := c.graphInputs
        loop := loop }
      c.dag.runPolicy.expressionStrictMode with
  | .ok v => v.truthy
  | .error _ => false

/-- `_should_pause` at the position `after`. -/
def shouldPauseAfter (node : Node) : Bool :=
  node.checkpoints.pauseAfter ||
    (c.dag.runPolicy.pauseAtCheckpoint && node.checkpoints.after)

/-- `_persist_after_node`, and the pause after a checkpoint. -/
def persistAfterNode (e : Exec) (node : Node) (rest : List String) : Flow :=
  c.save e 1
    (if c.shouldPauseAfter node then
      .stop e (.ok
        { e.summary true with
          status := some "paused"
          pausedAt := some node.id })
    else .next ⟨rest, e⟩)

/-- `run_state.state["loops"][id]`, created when missing. -/
def ensureLoopItem (state : Items) (id : String) :
    Except PyError (Items × PyVal) :=
  match PyVal.item? state "loops" with
  | none => .ok (PyVal.setItem state "loops" (.dict [(id, .dict [])]), .dict [])
  | some (.dict loops) =>
      let v := (PyVal.item? loops id).getD (.dict [])
      .ok (PyVal.setItem state "loops" (.dict (PyVal.setItem loops id v)), v)
  | some _ => .error (.attributeError "get")

/-- `run_state.state.get("loops", {}).get(id, {})`. -/
def loopItem (state : Items) (id : String) : PyVal :=
  match PyVal.getItem state "loops" with
  | .dict loops => (PyVal.item? loops id).getD (.dict [])
  | _ => .dict []

def resetBody (e : Exec) (body : List String) : Exec :=
  ({ e with nodes := resetNodes c.dag e.nodes body }.withState fun r =>
    { r with nodeOutputs := resetOutputs c.dag r.nodeOutputs body }).record
      (.reset body)

/-! ## Control nodes -/

/-- A gate: skip what only the branch not taken reaches, then the node is
done. -/
def gateStep (e : Exec) (node : Node) (rest : List String) : Flow :=
  let value := c.conditionValue e node none
  let trueTargets := node.idsOf "true_targets"
  let falseTargets := node.idsOf "false_targets"
  let taken := if value then trueTargets else falseTargets
  let nonTaken := if value then falseTargets else trueTargets
  let kept := reachableFrom c.dag taken
  let toSkip := (reachableFrom c.dag nonTaken).filter fun id =>
    c.dag.ids.contains id && !kept.contains id
  let skippedBefore := idsWith c.dag e.nodes .skipped
  let skippable (run : NodeRun) : Bool :=
    run.status != some .done && run.status != some .failed &&
      run.status != some .skipped
  let nodes := skipWhere e.nodes toSkip skippable
  let skipped := skippedBefore ++
    toSkip.filter fun id => skippable (e.nodes id)
  let e := e.withNodes (propagateDepsAllSkipped c.dag nodes skipped)
  let e := (e.settle node.id .done).output node.id
    (.dict [("taken", .bool value)])
  c.persistAfterNode e node rest

/-- A loop node: evaluate its condition once, and start the first iteration
when it holds. -/
def loopStep (e : Exec) (node : Node) (rest : List String) : Flow :=
  let maxIterations :=
    match node.policy.maxIterations with
    | some n => if n = 0 then 1 else n
    | none => 1
  match ensureLoopItem e.runState.state node.id with
  | .error err => .stop e (.error err)
  | .ok (state, item) =>
      let e := e.withItems fun _ => state
      let value := c.conditionValue e node
        (some (node.id, 1, maxIterations, item))
      let e := e.record (.evaluated node.id value)
      let loop : LoopRun :=
        { iteration := if value then 1 else 0
          active := value
          maxIterations := maxIterations
          lastConditionValue := some value }
      let e := e.setLoop node.id loop
      let e := if value then c.resetBody e node.body else e
      let outputs := if value then [("iteration", .int 1)] else []
      let e := (e.settle node.id .done).output node.id (.dict outputs)
      c.save e 1 (.next ⟨rest, e⟩)

/-! ## Binding and errors -/

/-- `val.replace(p, "")`. -/
def removeAll (p : List Char) : ℕ → List Char → List Char
  | 0, chars => chars
  | _ + 1, [] => []
  | fuel + 1, ch :: chars =>
      if p.isPrefixOf (ch :: chars) then
        removeAll p fuel ((ch :: chars).drop p.length)
      else ch :: removeAll p fuel chars

/-- `s.replace(p, "")` for a text that is not empty. -/
def removeText (s p : String) : String :=
  String.ofList (removeAll p.toList s.toList.length s.toList)

/-- One item of `resolve_inputs`. -/
def resolveInput (outputs graphInputs : Items) (v : PyVal) : PyVal :=
  match v with
  | .str text =>
      if startsWith text "$graph.inputs." then
        (PyVal.item? graphInputs (removeText text "$graph.inputs.")).getD
          (.str "")
      else if startsWith text "$node." then
        match splitDot (removeText text "$node.") with
        | none => v
        | some (nid, outKey) =>
            match PyVal.item? outputs nid with
            | some (.dict items) =>
                match PyVal.item? items outKey with
                | some out => out
                | none =>
                    if outKey == "result" && !items.isEmpty then .dict items
                    else v
            | _ => v
      else v
  | _ => v

def resolveInputs (e : Exec) (node : Node) : Items :=
  node.inputs.map fun entry =>
    (entry.1, resolveInput e.runState.nodeOutputs c.graphInputs entry.2)

def isUnresolved (entry : String × PyVal) : Bool :=
  match entry.2 with
  | .str text => startsWith text "$"
  | _ => false

def extractDispatchError (out : Items) : Items :=
  let default : Items :=
    [("code", .str "DISPATCH_FAILED"), ("message", .str "dispatch failed")]
  let nested : Items :=
    match PyVal.getItem out "outputs" with
    | .dict outputs =>
        match PyVal.getItem outputs "result" with
        | .dict result =>
            let error := PyVal.getItem result "error"
            let message :=
              if (PyVal.getItem result "message").truthy then
                PyVal.getItem result "message"
              else error
            if message.truthy then
              let text := c.services.host.str message
              let code :=
                match error with
                | .str code =>
                    if code == text || code == "" then "DISPATCH_FAILED"
                    else code
                | _ => "DISPATCH_FAILED"
              [("code", .str code), ("message", .str text)]
            else default
        | _ => default
    | _ => default
  match PyVal.getItem out "error" with
  | .dict err =>
      if (PyVal.getItem err "message").truthy ||
          (PyVal.getItem err "code").truthy then err
      else nested
  | .str text =>
      if strip text == "" then nested
      else
        [("code", .str "DISPATCH_FAILED"), ("message", .str (strip text))]
  | _ => nested

def dispatchError (nid : String) (out : Items) : Items :=
  let raw := PyVal.getItem out "error"
  let base :=
    match raw with
    | .dict err => err
    | v =>
        if v.truthy then
          [("code", .str "DISPATCH_FAILED"),
            ("message", .str (c.services.host.str v)),
            ("type", .str "DISPATCH_FAILED")]
        else c.extractDispatchError out
  if (PyVal.item? base "failure_class").isNone then
    PyVal.setItem base "failure_class" (c.services.failureClass base nid)
  else base

def raisedError (nid : String) (err : PyError) : Items :=
  let classified := c.services.classifyFailure err nid
  [("message", PyVal.getItem classified "message"),
    ("type", .str (c.services.typeName err)),
    ("failure_class", PyVal.getItem classified "failure_class"),
    ("context", PyVal.getItem classified "context")]

/-! ## Other nodes -/

/-- `_NODE_TYPE_TO_ACTION.get(node.type, "WRITE")`. -/
def nodeTypeToAction (type : String) : String :=
  (([("agent", "DECISION_PROPOSED"), ("tool", "WRITE"), ("eval", "READ"),
    ("gate", "READ"), ("transform", "WRITE")].lookup type).getD "WRITE")

/-- The escrow is settled when the lock is this node's and the append
succeeds. -/
def settleEscrowLock
    (e : Exec) (nid : String) (entry : String → PyVal → Observation) : Exec :=
  match PyVal.getItem e.runState.state "_escrow_lock" with
  | .dict lock =>
      if (PyVal.getItem lock "node_id").pyEq (.str nid) &&
          c.services.settleEscrow e.tick then
        (e.observe (entry nid
          ((PyVal.item? lock "amount").getD (.int 0)))).withItems fun state =>
            PyVal.setItem state "_escrow_lock" .none
      else e
  | _ => e

def skipPendingDependents (e : Exec) (nid : String) : Exec :=
  e.withNodes (skipWhere e.nodes
    ((c.dag.nodes.filter fun node => node.dependsOn.contains nid).map Node.id)
    fun run => run.status == some .pending)

/-- Stop the loop around a failed node, when the policy says so. -/
def stopLoop (e : Exec) (nid : String) : Exec :=
  match bodyToLoop c.dag nid with
  | none => e
  | some loopNode =>
      if c.dag.runPolicy.loopPolicyOnBodyFailure == "stop_loop" then
        let e := e.setLoop loopNode.id
          { e.loop loopNode.id with active := false }
        e.withNodes (skipWhere e.nodes
          (loopNode.body.filter c.dag.ids.contains) fun run =>
            run.status == some .pending || run.status == some .ready)
      else e

/-- The end of a failed attempt: retry, or fail the node. -/
def failureStep (e : Exec) (node : Node) (rest : List String) : Flow :=
  if (e.nodes node.id).attemptCount ≤ node.policy.maxRetries then
    .next ⟨rest, e.settle node.id .ready⟩
  else
    let e := (c.settleEscrowLock e node.id .slashed).settle node.id .failed
    if c.dag.runPolicy.failureMode == "fail_fast" then
      c.saveAndReturn ((c.skipPendingDependents e node.id).final "failed") false
    else
      let e := c.stopLoop e node.id
      c.save e 1 (.next ⟨rest, e⟩)

/-- Whether a value has the key `result`; `none` when it is no container. -/
def hasResult : PyVal → Option Bool
  | .dict items => some (PyVal.item? items "result").isSome
  | .list items => some (items.any fun v => v.pyEq (.str "result"))
  | .str s => some (isSubstring "result" s)
  | _ => none

def successStep
    (e : Exec) (node : Node) (output : Option Items) (rest : List String) :
    Flow :=
  let e := e.settle node.id .done
  let outputs :=
    match output with
    | some out => PyVal.getItem out "outputs"
    | none => .none
  let out := if outputs.truthy then outputs else .dict []
  let stored : Option PyVal :=
    if node.type == "agent" then
      (hasResult out).map fun has =>
        if has then out
        else
          .dict [("result",
            if out.truthy then out
            else .dict [("status", .str "completed")])]
    else some out
  match stored with
  | none => .stop e (.error (.typeError "argument is not iterable"))
  | some v =>
      c.persistAfterNode
        (c.settleEscrowLock (e.output node.id v) node.id .released) node rest

def outputsOf (output : Option Items) : PyVal :=
  let outputs :=
    match output with
    | some out => PyVal.getItem out "outputs"
    | none => .none
  if outputs.truthy then outputs else .dict []

/-- The end of a successful attempt: the outputs are stored and the escrow is
released, unless the outputs of an agent are no container. -/
theorem successStep_cases
    (e : Exec) (node : Node) (output : Option Items) (rest : List String) :
    (∃ err, node.type = "agent" ∧ hasResult (outputsOf output) = none ∧
      c.successStep e node output rest =
        .stop (e.settle node.id .done) (.error err)) ∨
    ∃ v, c.successStep e node output rest =
      c.persistAfterNode (c.settleEscrowLock
        ((e.settle node.id .done).output node.id v) node.id .released) node
        rest := by
  have hstep : c.successStep e node output rest =
      match (if node.type == "agent" then
        (hasResult (outputsOf output)).map fun has =>
          if has then outputsOf output
          else
            .dict [("result",
              if (outputsOf output).truthy then outputsOf output
              else .dict [("status", .str "completed")])]
        else some (outputsOf output)) with
      | none => .stop (e.settle node.id .done)
          (.error (.typeError "argument is not iterable"))
      | some v =>
          c.persistAfterNode (c.settleEscrowLock
            ((e.settle node.id .done).output node.id v) node.id .released)
            node rest := rfl
  rw [hstep]
  by_cases hagent : (node.type == "agent") = true
  · rw [if_pos hagent]
    cases hhas : hasResult (outputsOf output) with
    | none => exact Or.inl ⟨_, beq_iff_eq.mp hagent, rfl, rfl⟩
    | some has => exact Or.inr ⟨_, rfl⟩
  · rw [if_neg hagent]
    exact Or.inr ⟨_, rfl⟩

/-- Charge the budget for an attempt; an exception leaves the call. -/
def charge (e : Exec) (output : Option Items) (k : Exec → Flow) : Flow :=
  match c.services.applyAfterDispatch c.dag.runPolicy e.runState.state output
    with
  | .error err => .stop e (.error err)
  | .ok state => k (e.withItems fun _ => state)

/-- `_call_dispatcher`: the answer, and the state dictionary after the call. -/
def callDispatcher (e : Exec) (node : Node) (inputs : Items) :
    Except PyError (Option Items) × Items :=
  c.services.dispatch e.tick node (e.nodes node.id).attemptCount inputs
    e.runState c.graphInputs

/-- Call the dispatcher unless the node has an error already, charge the budget
and end the attempt. -/
def dispatchStep
    (e : Exec) (node : Node) (inputs : Items) (rest : List String) : Flow :=
  if (e.nodes node.id).error.isEmpty then
    let answer := c.callDispatcher e node inputs
    let e := ((e.record (.dispatched node.id e.statuses)).observe
      (.called node.id e.runState)).withItems fun _ => answer.2
    match answer.1 with
    | .error err =>
        c.charge (e.fail node.id (c.raisedError node.id err)) none
          fun e => c.failureStep e node rest
    | .ok output =>
        if output.elim false fun out => !(PyVal.getItem out "ok").truthy then
          c.charge (e.fail node.id (c.dispatchError node.id (output.getD [])))
            none fun e => c.failureStep e node rest
        else
          c.charge e output fun e => c.successStep e node output rest
  else
    c.charge e none fun e => c.failureStep e node rest

def lockEscrow (e : Exec) (node : Node) : Exec :=
  match c.mode, c.stakesPolicy with
  | .run, some policy =>
      if node.type == "agent" then
        match c.services.lockEscrow e.tick policy with
        | some amount =>
            (e.observe (.locked node.id amount)).withItems fun state =>
              PyVal.setItem state "_escrow_lock"
                (.dict [("node_id", .str node.id), ("amount", amount)])
        | none => e
      else e
  | _, _ => e

def gateDenied (result : GateResult) : Items :=
  [("code", .str "GATE_DENIED"), ("reason", .str result.reason),
    ("approval_required", .bool result.approvalRequired)]

def agentId (node : Node) : String :=
  let entity := if node.assignedEntity = "" then "system"
    else node.assignedEntity
  if strip entity = "" then "system" else strip entity

/-- The stakes gate, in `run` with a policy in force.  An exception inside the
block, of the gate, the ledger or the save, is swallowed and the node goes on to
its dispatch. -/
def stakesStep
    (e : Exec) (node : Node) (inputs : Items) (rest : List String) : Flow :=
  let goOn (e : Exec) : Flow :=
    c.dispatchStep (c.lockEscrow e node) node inputs rest
  match c.mode, c.stakesPolicy with
  | .run, some policy =>
      match c.services.checkGate e.tick (nodeTypeToAction node.type)
          (agentId node) e.runState.state policy with
      | .error _ => goOn e
      | .ok result =>
          let e := e.record (.gateChecked node.id result.allowed)
          if result.allowed then goOn e
          else
            match c.services.emitApproval e.tick with
            | .error _ => goOn e
            | .ok _ =>
                let e := (e.fail node.id (gateDenied result)).settle node.id
                  .failed
                match c.services.saveError e.tick 0 with
                | none => .next ⟨rest, e⟩
                | some _ => goOn e
  | _, _ => goOn e

/-- The budget check, whose refusal ends the run; an exception leaves the
call. -/
def budgetStep
    (e : Exec) (node : Node) (inputs : Items) (rest : List String) : Flow :=
  match c.services.checkBeforeDispatch c.dag.runPolicy e.runState.state with
  | .error err => .stop e (.error err)
  | .ok (state, some err) =>
      let e := e.withItems fun _ => state
      c.saveAndReturn
        ((e.withItems fun state =>
          PyVal.setItem state "_run_error" (.dict err)).final "failed") false
  | .ok (state, none) =>
      c.stakesStep (e.withItems fun _ => state) node inputs rest

def unresolvedMessage (inputs : Items) : PyVal :=
  .str ("Unresolved ref(s): " ++ c.services.host.str
    (PyVal.ofStrings ((inputs.filter isUnresolved).map Prod.fst)))

/-- The binding of the inputs: unresolved references fail the attempt, block the
node, or are passed on. -/
def bindingStep (e : Exec) (node : Node) (rest : List String) : Flow :=
  let inputs := c.resolveInputs e node
  let mode := c.dag.runPolicy.inputBindingMode
  if inputs.any isUnresolved && mode == "blocked" then
    let e := (e.fail node.id []).settle node.id .blocked
    c.save e 1 (.next ⟨rest, e⟩)
  else if inputs.any isUnresolved && mode == "strict" then
    c.budgetStep
      (e.fail node.id [("code", .str "INPUT_RESOLUTION_ERROR"),
        ("message", c.unresolvedMessage inputs)]) node inputs rest
  else c.budgetStep e node inputs rest

/-- The steering hook before a node, which may block it.  An exception of the
hook or of the save after the block is swallowed. -/
def steeringStep (e : Exec) (node : Node) (rest : List String) : Flow :=
  match c.services.beforeNode e.tick node with
  | .ok (some reason) =>
      let e := (e.fail node.id [("code", .str "STEERING_BLOCKED"),
        ("reason", if reason.truthy then reason else .str "steering blocked")])
        |>.settle node.id .blocked
      match c.services.saveError e.tick 0 with
      | none => .next ⟨rest, e⟩
      | some _ => c.bindingStep e node rest
  | _ => c.bindingStep e node rest

/-! ## Steps -/

def readyNode (e : Exec) (nid : String) : Exec :=
  e.withNode nid fun run =>
    if run.current = .pending then { run with status := some .ready } else run

/-- A node becomes running, and its attempt is counted. -/
def startNode (e : Exec) (nid : String) : Exec :=
  let e' := ((readyNode e nid).withNode nid fun run =>
    { status := some .running
      attemptCount := run.attemptCount + 1
      error := [] }).record (.started nid e.statuses)
  { e' with executionCount := e.executionCount + 1 }

def nodeStep (e : Exec) (nid : String) (rest : List String) : Flow :=
  match c.dag.byId nid with
  | none => .stop e (.error (.keyError nid))
  | some node =>
      let current := (e.nodes nid).current
      let current := if current = .pending then .ready else current
      if !canTransition current .running then .next ⟨rest, e⟩
      else
        let e := startNode e nid
        if node.type == "gate" then c.gateStep e node rest
        else if node.type == "loop" then c.loopStep e node rest
        else c.steeringStep e node rest

def advanceLoop (e : Exec) (node : Node) : Exec :=
  let lstate := e.loop node.id
  let nextIter := lstate.iteration + 1
  if lstate.maxIterations < nextIter then
    e.setLoop node.id { lstate with active := false }
  else
    let value := c.conditionValue e node
      (some (node.id, nextIter, lstate.maxIterations,
        loopItem e.runState.state node.id))
    let e := e.record (.evaluated node.id value)
    if value then
      c.resetBody
        (e.setLoop node.id
          { lstate with
            iteration := nextIter
            lastConditionValue := some value }) node.body
    else
      e.setLoop node.id
        { lstate with
          active := false
          lastConditionValue := some value }

def finish (e : Exec) : Flow :=
  let status := computeFinalRunStatus c.dag e.nodes c.dag.runPolicy.failureMode
  let e := e.final status
  c.saveAndReturn e (status == "completed")

/-- The loop that may be advanced when no node is ready. -/
def advanceOrFinish (e : Exec) : Flow :=
  match getLoopBodyComplete c.dag e.nodes e.runState.loopState with
  | some node => .next ⟨[], c.advanceLoop e node⟩
  | none => c.finish e

def idleStep (e : Exec) : Flow :=
  let failureMode := c.dag.runPolicy.failureMode
  if c.dag.ids.any fun id => (e.nodes id).status == some .running then
    c.finish e
  else if failureMode == "continue" then
    let e := e.withNodes (skipFailedDependents c.dag e.nodes)
    let found := getReadyNodes c.dag failureMode e.nodes
    let e := e.withNodes found.2
    if found.1.isEmpty then c.advanceOrFinish e else .next ⟨[], e⟩
  else c.advanceOrFinish e

/-- The cap on node executions, which only `run` has. -/
def capReached (e : Exec) : Option ℤ :=
  match c.mode, c.dag.runPolicy.maxNodeExecutions with
  | .run, some cap => if cap ≤ e.executionCount then some cap else none
  | _, _ => none

/-- The text of `RUN_CANCELLED`. -/
def cancelMessage (payload : PyVal) : String :=
  let text :=
    match payload with
    | .dict items =>
        let reason := PyVal.getItem items "reason"
        let message := PyVal.getItem items "message"
        if reason.truthy then c.services.host.str reason
        else if message.truthy then c.services.host.str message
        else ""
    | _ => ""
  if text = "" then "cancel requested" else text

def runtimeExceeded (poll : Poll) : Option (ℤ × String) :=
  match c.dag.runPolicy.maxTotalRuntimeS with
  | some cap => (poll.elapsed cap).map fun elapsed => (cap, elapsed)
  | none => none

def headStep (e : Exec) : Flow :=
  let poll := c.services.poll e.tick
  let e :=
    match poll.inject with
    | some payload =>
        e.withItems fun state => PyVal.setItem state "_steering_inject" payload
    | none => e
  match poll.cancel, c.runtimeExceeded poll with
  | some payload, _ =>
      c.saveAndReturn
        ((e.final "cancelled").runError "RUN_CANCELLED"
          (c.cancelMessage payload)) false
  | none, some (cap, elapsed) =>
      c.saveAndReturn
        ((e.final "failed").runError "MAX_TOTAL_RUNTIME_EXCEEDED"
          ("max_total_runtime_s cap (" ++ toString cap ++
            ") exceeded after " ++ elapsed ++ "s")) false
  | none, none =>
      let found := getReadyNodes c.dag c.dag.runPolicy.failureMode e.nodes
      let e := e.withNodes found.2
      match c.capReached e with
      | some cap =>
          c.saveAndReturn
            ((e.final "failed").runError "MAX_NODE_EXECUTIONS_EXCEEDED"
              ("max_node_executions cap (" ++ toString cap ++ ") exceeded"))
            false
      | none =>
          if found.1.isEmpty then c.idleStep e
          else
            .next ⟨found.1.take c.dag.runPolicy.maxConcurrency.toNat, e⟩

def step (s : Sched) : Flow :=
  let e := { s.exec with tick := s.exec.tick + 1 }
  match s.queue with
  | nid :: rest => c.nodeStep e nid rest
  | [] => c.headStep e

/-- `n` steps, unless the call ends before. -/
def steps : ℕ → Flow → Flow
  | 0, flow => flow
  | n + 1, .next s => steps n (c.step s)
  | _ + 1, .stop e result => .stop e result

end Setting

/-! ## Calls -/

/-- The state of the main loop at the start of `run`. -/
def runStart
    (services : Services) (graphInputs : Items) : Sched where
  queue := []
  exec :=
    { nodes := fun _ => {}
      runState := { state := services.initializeState graphInputs [] } }

/-- A persisted run: the runtime fields of the saved nodes and the run
state. -/
structure Persisted where
  nodeStates : String → Option NodeRun
  runState : RunState

/-- The state of the main loop at the start of `resume`: saved nodes keep their
records, except that a running node is ready again. -/
def resumeStart
    (services : Services) (graphInputs : Items) (persisted : Persisted) :
    Sched where
  queue := []
  exec :=
    { nodes := fun id =>
        match persisted.nodeStates id with
        | none => {}
        | some run =>
            if run.status = some .running then
              { run with status := some .ready }
            else run
      runState :=
        { persisted.runState with
          state := services.initializeState graphInputs
            persisted.runState.state } }

/-- The graph inputs of `run`: the defaults of the graph, overlaid. -/
def overlayInputs (defaults given : Items) : Items :=
  given.foldl (fun items entry => PyVal.setItem items entry.1 entry.2) defaults

/-- What `run` does before its main loop: validation, of the graph given and of
the reviewed graph that replaces it. -/
def run
    (services : Services) (dag : Dag) (given : Items)
    (reviewed : Option Dag) (stakesPolicy : Option PyVal) :
    Except (List ValidationError) (Setting × Sched) :=
  let graphInputs := overlayInputs dag.inputs given
  let errors := validateDag services.host dag
  if !errors.isEmpty then .error errors
  else
    let effective := reviewed.getD dag
    let errors := validateDag services.host effective
    if !errors.isEmpty then .error errors
    else
      .ok ({ services, dag := effective, mode := .run, graphInputs,
             stakesPolicy }, runStart services graphInputs)

/-- What `resume` does before its main loop; `none` when there is no persisted
run. -/
def resume
    (services : Services) (dag : Dag) (given : Option Items)
    (persisted : Option Persisted) (stakesPolicy : Option PyVal) :
    Option (Setting × Sched) :=
  persisted.map fun saved =>
    let graphInputs := given.getD dag.inputs
    ({ services, dag, mode := .resume, graphInputs, stakesPolicy },
      resumeStart services graphInputs saved)

/-! ## Quiet services -/

/-- Services under which every condition is false, every gate allows, every
dispatch succeeds without outputs and nothing else happens. -/
def quietServices : Services where
  host := referenceHost
  evaluate := fun _ _ _ => .ok (.bool false)
  initializeState := fun _ state => state
  checkBeforeDispatch := fun _ state => .ok (state, none)
  applyAfterDispatch := fun _ state _ => .ok state
  classifyFailure := fun _ _ => []
  typeName := fun _ => "Exception"
  failureClass := fun _ _ => .none
  poll := fun _ => {}
  beforeNode := fun _ _ => .ok none
  checkGate := fun _ _ _ _ _ => .ok { allowed := true, reason := "" }
  emitApproval := fun _ => .ok ()
  lockEscrow := fun _ _ => none
  settleEscrow := fun _ => true
  dispatch := fun _ _ _ _ r _ => (.ok (some [("ok", .bool true)]), r.state)
  saveError := fun _ _ => none

end Hydrogenuine.TaskGraph
