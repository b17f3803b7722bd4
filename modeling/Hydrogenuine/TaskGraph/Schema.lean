import Hydrogenuine.Core.Host

/-!
# Task graphs and their validation

Embedding of `hg_core/task_graph/schema.py` and `validator.py`.  A node is kept
as its definition; what the executor changes of it is kept apart, in the run.
Checks of the validator that only restate the field types of the records are
left out.

The last section draws from a passed validation what the executor relies on.
-/

namespace Hydrogenuine.TaskGraph

open Support Hydrogenuine.Core

abbrev Items : Type := List (String × PyVal)

/-! ## Schema -/

structure RunPolicy where
  maxConcurrency : ℤ := 1
  failureMode : String := "fail_fast"
  strictBindings : Bool := true
  inputBindingMode : String := "strict"
  allowSideEffectsInLoops : Bool := false
  expressionStrictMode : Bool := false
  maxNodeExecutions : Option ℤ := none
  maxTotalRuntimeS : Option ℤ := none
  defaultRetryBackoffMs : Option ℤ := none
  loopPolicyOnBodyFailure : String := "stop_loop"
  pauseAtCheckpoint : Bool := false
  budgets : Option PyVal := none

structure NodePolicy where
  timeoutS : Option ℤ := none
  maxRetries : ℤ := 0
  retryBackoffMs : ℤ := 500
  maxIterations : Option ℤ := none
  idempotencyKey : Option String := none
  effectClass : String := "none"

structure Checkpoints where
  before : Bool := false
  after : Bool := false
  pauseBefore : Bool := false
  pauseAfter : Bool := false

structure Node where
  id : String
  type : String
  assignedEntity : String
  dependsOn : List String := []
  inputs : Items := []
  outputs : Items := []
  policy : NodePolicy := {}
  checkpoints : Checkpoints := {}

structure Dag where
  graphId : String
  runPolicy : RunPolicy := {}
  inputs : Items := []
  nodes : List Node

def Dag.byId (dag : Dag) (id : String) : Option Node :=
  dag.nodes.find? fun node => node.id == id

def Dag.ids (dag : Dag) : List String := dag.nodes.map Node.id

def idList : PyVal → List String
  | .list items =>
      items.filterMap fun item =>
        match item with
        | .str id => some id
        | _ => none
  | _ => []

/-- `list((node.inputs or {}).get(k) or [])` for a list of node ids. -/
def Node.idsOf (node : Node) (k : String) : List String :=
  idList (PyVal.getItem node.inputs k)

def Node.body (node : Node) : List String := node.idsOf "body"

/-! ## Validation -/

/-- One entry of `ValidationResult.errors`. -/
structure ValidationError where
  message : String
  nodeId : Option String := none
  path : Option String := none
  code : Option String := none
  suggestion : Option String := none

def errorIf (condition : Bool) (error : ValidationError) :
    List ValidationError :=
  if condition then [error] else []

def nodeError (nodeId message path code : String) : ValidationError where
  message := message
  nodeId := some nodeId
  path := some path
  code := some code

def policyError (field requirement : String) : ValidationError where
  message := "run_policy." ++ field ++ " must be " ++ requirement
  path := some ("run_policy." ++ field)
  code := some "INVALID_RUN_POLICY"

/-- `x is not None and x < bound`. -/
def below (bound : ℤ) : Option ℤ → Bool
  | some x => decide (x < bound)
  | none => false

def runPolicyErrors (policy : RunPolicy) : List ValidationError :=
  errorIf (decide (policy.maxConcurrency < 1))
      (policyError "max_concurrency" ">= 1") ++
    errorIf (!(["fail_fast", "continue"].contains policy.failureMode))
      (policyError "failure_mode" "one of ('fail_fast', 'continue')") ++
    errorIf
      (!(["strict", "lenient", "blocked"].contains policy.inputBindingMode))
      (policyError "input_binding_mode"
        "one of ('strict', 'lenient', 'blocked')") ++
    errorIf
      (!(["stop_loop", "fail_run", "continue_iteration"].contains
        policy.loopPolicyOnBodyFailure))
      (policyError "loop_policy_on_body_failure"
        "one of ('stop_loop', 'fail_run', 'continue_iteration')") ++
    errorIf (below 1 policy.maxNodeExecutions)
      (policyError "max_node_executions" ">= 1") ++
    errorIf (below 0 policy.maxTotalRuntimeS)
      (policyError "max_total_runtime_s" "non-negative") ++
    errorIf (below 0 policy.defaultRetryBackoffMs)
      (policyError "default_retry_backoff_ms" "non-negative")

def splitDot (text : String) : Option (String × String) :=
  let chars := text.toList
  let before := chars.takeWhile (· != '.')
  if before.length = chars.length then none
  else
    some (String.ofList before, String.ofList (chars.drop (before.length + 1)))

def bindingErrors
    (dag : Dag) (node : Node) (entry : String × PyVal) :
    List ValidationError :=
  match entry.2 with
  | .str val =>
      if startsWith val "$node." then
        match splitDot (String.ofList (val.toList.drop 6)) with
        | none =>
            [nodeError node.id
              ("input '" ++ entry.1 ++ "' has invalid $node ref (expected " ++
                "$node.<node_id>.<output_key>)") "inputs" "MISSING_FIELD"]
        | some (refId, outKey) =>
            match dag.byId refId with
            | none =>
                [nodeError node.id
                  ("input '" ++ entry.1 ++ "' references unknown node: " ++
                    refId) "inputs" "UNKNOWN_DEPENDENCY"]
            | some refNode =>
                errorIf (PyVal.item? refNode.outputs outKey).isNone
                  (nodeError node.id
                    ("input '" ++ entry.1 ++ "' references output '" ++
                      outKey ++ "' of node '" ++ refId ++ "' which is not " ++
                      "declared in that node's outputs") "inputs"
                    "MISSING_FIELD")
      else []
  | _ => []

def nodePolicyErrors (node : Node) : List ValidationError :=
  let policy := node.policy
  let bad (field requirement : String) : ValidationError :=
    nodeError node.id ("policy." ++ field ++ " must be " ++ requirement)
      ("policy." ++ field) "INVALID_POLICY_VALUE"
  errorIf (below 0 policy.timeoutS) (bad "timeout_s" "non-negative") ++
    errorIf (decide (policy.maxRetries < 0))
      (bad "max_retries" "non-negative") ++
    errorIf (decide (policy.retryBackoffMs < 0))
      (bad "retry_backoff_ms" "non-negative") ++
    errorIf (!(["none", "read", "write"].contains policy.effectClass))
      (bad "effect_class" "one of ('none', 'read', 'write')") ++
    errorIf
      (policy.effectClass == "write" && decide (0 < policy.maxRetries) &&
        strip (policy.idempotencyKey.getD "") == "")
      { message := "write node with max_retries > 0 must have " ++
          "policy.idempotency_key"
        nodeId := some node.id
        path := some "policy.idempotency_key"
        code := some "WRITE_RETRY_NO_IDEMPOTENCY"
        suggestion := some ("Set policy.idempotency_key for write nodes " ++
          "with max_retries > 0.") } ++
    (if node.type == "loop" then
      match policy.maxIterations with
      | none =>
          [nodeError node.id "loop node requires policy.max_iterations"
            "policy.max_iterations" "MISSING_FIELD"]
      | some n =>
          errorIf (decide (n < 1))
            (nodeError node.id
              "policy.max_iterations must be >= 1 for loop node"
              "policy.max_iterations" "INVALID_POLICY_VALUE")
    else [])

def listItem? (inputs : Items) (k : String) : Option (List PyVal) :=
  match PyVal.item? inputs k with
  | some (.list items) => some items
  | _ => none

def Dag.named (dag : Dag) : PyVal → Option Node
  | .str id => dag.byId id
  | _ => none

def gateErrors (host : Host) (dag : Dag) (node : Node) :
    List ValidationError :=
  let unlisted (k : String) : List ValidationError :=
    errorIf (listItem? node.inputs k).isNone
      (nodeError node.id
        ("gate node requires inputs." ++ k ++ " (list of node IDs)")
        ("inputs." ++ k) "MISSING_FIELD")
  let unknown (k : String) : List ValidationError :=
    ((listItem? node.inputs k).getD []).flatMap fun refId =>
      errorIf (dag.named refId).isNone
        (nodeError node.id
          ("gate inputs." ++ k ++ " references unknown node: " ++
            host.str refId) ("inputs." ++ k) "INVALID_GATE_TARGET")
  errorIf (PyVal.item? node.inputs "condition").isNone
      (nodeError node.id "gate node requires inputs.condition"
        "inputs.condition" "MISSING_FIELD") ++
    unlisted "true_targets" ++ unlisted "false_targets" ++
    unknown "true_targets" ++ unknown "false_targets" ++
    (match listItem? node.inputs "true_targets",
        listItem? node.inputs "false_targets" with
      | some [], some [] =>
          [nodeError node.id
            ("gate must have at least one non-empty true_targets or " ++
              "false_targets") "inputs" "INVALID_GATE_TARGET"]
      | _, _ => [])

def loopErrors (host : Host) (dag : Dag) (node : Node) :
    List ValidationError :=
  errorIf (PyVal.item? node.inputs "condition").isNone
      (nodeError node.id "loop node requires inputs.condition"
        "inputs.condition" "MISSING_FIELD") ++
    (match listItem? node.inputs "body" with
      | none =>
          [nodeError node.id "loop node requires inputs.body (list of node IDs)"
            "inputs.body" "INVALID_LOOP_BODY"]
      | some body =>
          body.flatMap fun refId =>
            match dag.named refId with
            | none =>
                [nodeError node.id
                  ("loop inputs.body references unknown node: " ++
                    host.str refId) "inputs.body" "INVALID_LOOP_BODY"]
            | some bodyNode =>
                errorIf (bodyNode.type == "loop")
                  (nodeError node.id
                    ("nested loops disallowed: loop body may not contain " ++
                      "another loop node") "inputs.body"
                    "NESTED_LOOP_DISALLOWED"))

/-- The checks of one node; `seen` are the ids of the nodes before it. -/
def nodeErrors
    (host : Host) (dag : Dag) (seen : List String) (node : Node) :
    List ValidationError :=
  if node.id == "" then
    [{ message := "node id is required"
       path := some "nodes[].id"
       code := some "MISSING_FIELD" }]
  else
    errorIf (seen.contains node.id)
        { message := "duplicate node id: " ++ node.id
          nodeId := some node.id
          code := some "DUPLICATE_NODE_ID" } ++
      errorIf
        (!(["agent", "tool", "transform", "eval", "gate", "loop"].contains
          node.type))
        (nodeError node.id
          ("invalid node type '" ++ node.type ++ "', must be one of " ++
            "('agent', 'tool', 'transform', 'eval', 'gate', 'loop')")
          "type" "INVALID_NODE_TYPE") ++
      errorIf (strip node.assignedEntity == "")
        (nodeError node.id "assigned_entity is required and must be non-empty"
          "assigned_entity" "MISSING_FIELD") ++
      (node.dependsOn.flatMap fun dep =>
        errorIf (!dag.ids.contains dep)
          (nodeError node.id ("depends_on references unknown node: " ++ dep)
            "depends_on" "UNKNOWN_DEPENDENCY")) ++
      (if dag.runPolicy.strictBindings then
        node.inputs.flatMap (bindingErrors dag node)
      else []) ++
      nodePolicyErrors node ++
      (if node.type == "gate" then gateErrors host dag node else []) ++
      errorIf
        (node.type == "eval" && (PyVal.item? node.inputs "expression").isNone)
        (nodeError node.id "eval node requires inputs.expression"
          "inputs.expression" "MISSING_FIELD") ++
      (if node.type == "loop" then loopErrors host dag node else [])

def allNodeErrors (host : Host) (dag : Dag) :
    List String → List Node → List ValidationError
  | _, [] => []
  | seen, node :: rest =>
      nodeErrors host dag seen node ++
        allNodeErrors host dag
          (if node.id == "" then seen else node.id :: seen) rest

def bodyErrors (dag : Dag) (node : Node) : List ValidationError :=
  (node.body.filter dag.ids.contains).flatMap fun bid =>
    match dag.byId bid with
    | none => []
    | some bodyNode =>
        (bodyNode.dependsOn.filter dag.ids.contains).flatMap fun dep =>
          errorIf (dep != node.id && !node.body.contains dep)
            (nodeError node.id
              ("loop body node '" ++ bid ++ "' may only depend on the loop " ++
                "node or other body nodes; depends_on '" ++ dep ++
                "' is outside the loop") "inputs.body" "INVALID_LOOP_BODY")

def allBodyErrors (dag : Dag) :
    List String → List Node → List ValidationError
  | _, [] => []
  | bodies, node :: rest =>
      if node.type == "loop" then
        bodyErrors dag node ++
          allBodyErrors dag (bodies ++ node.body.filter dag.ids.contains) rest
      else
        errorIf
            (bodies.contains node.id && node.policy.effectClass == "write" &&
              !dag.runPolicy.allowSideEffectsInLoops &&
              !(node.checkpoints.before || node.checkpoints.after))
            (nodeError node.id
              ("node '" ++ node.id ++ "' has effect_class write and is in a " ++
                "loop body; require overseer checkpoint (before or after) " ++
                "or set run_policy.allow_side_effects_in_loops")
              "policy.effect_class" "WRITE_IN_LOOP_BLOCKED") ++
          allBodyErrors dag bodies rest

/-- The colors of the depth-first search: gray is `true`, black is `false`,
and white nodes are absent. -/
abbrev Colors : Type := List (String × Bool)

/-- `dfs`: whether a gray node is met again, with the colors after.  A call
colors a white node, so that the number of nodes bounds the depth. -/
def dfs (dag : Dag) : ℕ → String → Colors → Bool × Colors
  | 0, _, colors => (false, colors)
  | fuel + 1, nid, colors =>
      let deps := (dag.byId nid).elim [] Node.dependsOn
      let visit (acc : Bool × Colors) (dep : String) : Bool × Colors :=
        if acc.1 || !dag.ids.contains dep then acc
        else
          match lookupEntry dep acc.2 with
          | some gray => (gray, acc.2)
          | none => dfs dag fuel dep acc.2
      match deps.foldl visit (false, assignEntry nid true colors) with
      | (true, colors') => (true, colors')
      | (false, colors') => (false, assignEntry nid false colors')

def detectCycle (dag : Dag) : Bool :=
  let visit (acc : Bool × Colors) (nid : String) : Bool × Colors :=
    if acc.1 || (lookupEntry nid acc.2).isSome then acc
    else dfs dag dag.nodes.length nid acc.2
  (dag.ids.foldl visit (false, [])).1

/-- `validate_dag`: the list of errors, empty for a valid graph. -/
def validateDag (host : Host) (dag : Dag) : List ValidationError :=
  runPolicyErrors dag.runPolicy ++
    errorIf (dag.graphId == "")
      { message := "graph_id is required"
        path := some "graph_id"
        code := some "MISSING_GRAPH_ID" } ++
    allNodeErrors host dag [] dag.nodes ++
    allBodyErrors dag [] dag.nodes ++
    errorIf (detectCycle dag)
      { message := "cycle detected in dependency graph"
        code := some "CYCLE_DETECTED" }

/-! ## What a passed validation gives -/

/-- The facts about a valid graph that the executor relies on. -/
structure Accepted (dag : Dag) : Prop where
  concurrency : 1 ≤ dag.runPolicy.maxConcurrency
  cap : ∀ cap, dag.runPolicy.maxNodeExecutions = some cap → 1 ≤ cap
  ids_nodup : dag.ids.Nodup
  retries : ∀ node ∈ dag.nodes, 0 ≤ node.policy.maxRetries
  iterations : ∀ node ∈ dag.nodes, node.type = "loop" →
    ∃ n, node.policy.maxIterations = some n ∧ 1 ≤ n
  not_nested : ∀ node ∈ dag.nodes, node.type = "loop" →
    ∀ bid ∈ node.body, ∃ bodyNode, dag.byId bid = some bodyNode ∧
      bodyNode.type ≠ "loop"
  body_deps : ∀ node ∈ dag.nodes, node.type = "loop" →
    ∀ bid ∈ node.body, ∀ bodyNode, dag.byId bid = some bodyNode →
      ∀ dep ∈ bodyNode.dependsOn, dep = node.id ∨ dep ∈ node.body

theorem errorIf_eq_nil {condition : Bool} {error : ValidationError} :
    errorIf condition error = [] ↔ condition = false := by
  cases condition with
  | true => simp [errorIf]
  | false => simp [errorIf]

variable {dag : Dag} {node : Node} {id : String} {host : Host}

theorem Dag.byId_eq_some (hnodup : dag.ids.Nodup) :
    dag.byId node.id = some node ↔ node ∈ dag.nodes := by
  constructor
  · intro h
    exact List.mem_of_find?_eq_some h
  · intro hmem
    have hids : (dag.nodes.map Node.id).Nodup := hnodup
    obtain ⟨before, after, hsplit⟩ := List.append_of_mem hmem
    rw [Dag.byId, List.find?_eq_some_iff_append]
    refine ⟨by simp, before, after, hsplit, ?_⟩
    intro other hother
    rw [hsplit, List.map_append, List.map_cons] at hids
    have hne : other.id ≠ node.id :=
      (List.nodup_append.mp hids).2.2 _ (List.mem_map_of_mem hother) _
        List.mem_cons_self
    simpa using hne

theorem Dag.byId_id
    (h : dag.byId id = some node) : node.id = id := by
  have hid := List.find?_some h
  simpa using hid

theorem Dag.mem_of_byId
    (h : dag.byId id = some node) : node ∈ dag.nodes :=
  List.mem_of_find?_eq_some h

theorem Dag.mem_ids_of_byId
    (h : dag.byId id = some node) : id ∈ dag.ids := by
  rw [← Dag.byId_id h]
  exact List.mem_map_of_mem (Dag.mem_of_byId h)

theorem allNodeErrors_eq_nil {seen : List String} {nodes : List Node}
    (h : allNodeErrors host dag seen nodes = []) :
    (∀ node ∈ nodes, ∃ seen', nodeErrors host dag seen' node = []) ∧
      (nodes.map Node.id).Nodup ∧ ∀ node ∈ nodes, node.id ∉ seen := by
  induction nodes generalizing seen with
  | nil => simp
  | cons node rest ih =>
      rw [allNodeErrors, List.append_eq_nil_iff] at h
      obtain ⟨hnode, hrest⟩ := h
      have hid : (node.id == "") = false := by
        by_contra hempty
        rw [Bool.not_eq_false] at hempty
        simp [nodeErrors, hempty] at hnode
      rw [hid] at hrest
      obtain ⟨hall, hnodup, hfresh⟩ := ih hrest
      have hseen : node.id ∉ seen := by
        simp only [nodeErrors, hid, Bool.false_eq_true, if_false,
          List.append_eq_nil_iff, errorIf_eq_nil] at hnode
        have hcontains := hnode.1.1.1.1.1.1.1.1
        intro hmem
        rw [List.contains_iff_mem.mpr hmem] at hcontains
        exact Bool.noConfusion hcontains
      refine ⟨?_, ?_, ?_⟩
      · intro node' hmem
        rcases List.mem_cons.mp hmem with rfl | hmem
        · exact ⟨seen, hnode⟩
        · exact hall node' hmem
      · rw [List.map_cons, List.nodup_cons]
        refine ⟨?_, hnodup⟩
        intro hmem
        obtain ⟨node', hmem', heq⟩ := List.mem_map.mp hmem
        apply hfresh node' hmem'
        rw [heq]
        exact List.mem_cons_self
      · intro node' hmem
        rcases List.mem_cons.mp hmem with rfl | hmem
        · exact hseen
        · exact fun hmem' => hfresh node' hmem (List.mem_cons_of_mem _ hmem')

theorem allBodyErrors_eq_nil {bodies : List String} {nodes : List Node}
    (h : allBodyErrors dag bodies nodes = []) :
    ∀ node ∈ nodes, node.type = "loop" → bodyErrors dag node = [] := by
  induction nodes generalizing bodies with
  | nil => simp
  | cons first rest ih =>
      intro node hmem htype
      rw [allBodyErrors] at h
      split at h
      · rw [List.append_eq_nil_iff] at h
        rcases List.mem_cons.mp hmem with rfl | hmem
        · exact h.1
        · exact ih h.2 node hmem htype
      · rename_i hplain
        rw [List.append_eq_nil_iff] at h
        rcases List.mem_cons.mp hmem with rfl | hmem
        · exact absurd (by simpa using htype) hplain
        · exact ih h.2 node hmem htype

theorem Node.mem_body {bid : String} (h : bid ∈ node.body) :
    ∃ items, listItem? node.inputs "body" = some items ∧ .str bid ∈ items := by
  unfold Node.body Node.idsOf PyVal.getItem at h
  unfold listItem?
  cases hitem : PyVal.item? node.inputs "body" with
  | none => simp [hitem, idList] at h
  | some v =>
      rw [hitem, Option.getD_some] at h
      cases v with
      | list items =>
          refine ⟨items, rfl, ?_⟩
          obtain ⟨item, hmem, hid⟩ := List.mem_filterMap.mp h
          cases item with
          | str id =>
              obtain rfl := Option.some.inj hid
              exact hmem
          | _ => cases hid
      | _ => cases h

theorem nodeErrors_eq_nil {seen : List String}
    (h : nodeErrors host dag seen node = []) :
    0 ≤ node.policy.maxRetries ∧
      (∀ dep ∈ node.dependsOn, dep ∈ dag.ids) ∧
      (node.type = "loop" →
        (∃ n, node.policy.maxIterations = some n ∧ 1 ≤ n) ∧
          ∀ bid ∈ node.body, ∃ bodyNode, dag.byId bid = some bodyNode ∧
            bodyNode.type ≠ "loop") := by
  unfold nodeErrors at h
  split at h
  · cases h
  · simp only [List.append_eq_nil_iff] at h
    obtain ⟨⟨⟨⟨⟨-, hdeps⟩, -⟩, hpolicy⟩, -⟩, -⟩ := h.1
    have hloop := h.2
    simp only [nodePolicyErrors, List.append_eq_nil_iff, errorIf_eq_nil,
      decide_eq_false_iff_not, not_lt] at hpolicy
    refine ⟨hpolicy.1.1.1.1.2, ?_, ?_⟩
    · intro dep hdep
      have hnone := List.flatMap_eq_nil_iff.mp hdeps dep hdep
      rw [errorIf_eq_nil, Bool.not_eq_false'] at hnone
      exact List.contains_iff_mem.mp hnone
    · intro htype
      have hiterations := hpolicy.2
      rw [if_pos (by simpa using htype)] at hiterations hloop
      constructor
      · cases hmax : node.policy.maxIterations with
        | none => simp [hmax] at hiterations
        | some n =>
            rw [hmax] at hiterations
            have hn : ¬n < 1 := by
              simpa [errorIf_eq_nil] using hiterations
            exact ⟨n, rfl, not_lt.mp hn⟩
      · intro bid hbid
        obtain ⟨items, hitems, hmem⟩ := Node.mem_body hbid
        rw [loopErrors, List.append_eq_nil_iff, hitems] at hloop
        have hone := List.flatMap_eq_nil_iff.mp hloop.2 _ hmem
        have hnamed : dag.named (.str bid) = dag.byId bid := rfl
        rw [hnamed] at hone
        cases hbody : dag.byId bid with
        | none => simp [hbody] at hone
        | some bodyNode =>
            rw [hbody] at hone
            have htype' : bodyNode.type ≠ "loop" := by
              simpa [errorIf_eq_nil] using hone
            exact ⟨bodyNode, rfl, htype'⟩

theorem accepted_of_valid (h : validateDag host dag = []) :
    Accepted dag := by
  simp only [validateDag, List.append_eq_nil_iff] at h
  obtain ⟨⟨⟨⟨hpolicy, -⟩, hnodes⟩, hbodies⟩, -⟩ := h
  obtain ⟨hall, hnodup, -⟩ := allNodeErrors_eq_nil hnodes
  have hnode : ∀ node ∈ dag.nodes,
      0 ≤ node.policy.maxRetries ∧
        (∀ dep ∈ node.dependsOn, dep ∈ dag.ids) ∧
        (node.type = "loop" →
          (∃ n, node.policy.maxIterations = some n ∧ 1 ≤ n) ∧
            ∀ bid ∈ node.body, ∃ bodyNode, dag.byId bid = some bodyNode ∧
              bodyNode.type ≠ "loop") := by
    intro node hmem
    obtain ⟨seen, hseen⟩ := hall node hmem
    exact nodeErrors_eq_nil hseen
  constructor
  · simp only [runPolicyErrors, List.append_eq_nil_iff, errorIf_eq_nil,
      decide_eq_false_iff_not, not_lt] at hpolicy
    exact hpolicy.1.1.1.1.1.1
  · intro cap hcap
    simp only [runPolicyErrors, List.append_eq_nil_iff, errorIf_eq_nil] at hpolicy
    have hbelow := hpolicy.1.1.2
    rw [hcap] at hbelow
    exact not_lt.mp (of_decide_eq_false hbelow)
  · exact hnodup
  · exact fun node hmem => (hnode node hmem).1
  · exact fun node hmem htype => ((hnode node hmem).2.2 htype).1
  · exact fun node hmem htype => ((hnode node hmem).2.2 htype).2
  · intro node hmem htype bid hbid bodyNode hbody dep hdep
    have hnone := allBodyErrors_eq_nil hbodies node hmem htype
    have hknown : bid ∈ node.body.filter dag.ids.contains :=
      List.mem_filter.mpr
        ⟨hbid, List.contains_iff_mem.mpr (Dag.mem_ids_of_byId hbody)⟩
    have hone := List.flatMap_eq_nil_iff.mp hnone bid hknown
    rw [hbody] at hone
    have hdepKnown : dep ∈ bodyNode.dependsOn.filter dag.ids.contains :=
      List.mem_filter.mpr ⟨hdep, List.contains_iff_mem.mpr
        ((hnode bodyNode (Dag.mem_of_byId hbody)).2.1 dep hdep)⟩
    have hdepOk := List.flatMap_eq_nil_iff.mp hone dep hdepKnown
    rw [errorIf_eq_nil] at hdepOk
    by_cases hself : dep = node.id
    · exact Or.inl hself
    · have hin : node.body.contains dep = true := by
        simpa [hself] using hdepOk
      exact Or.inr (List.contains_iff_mem.mp hin)

end Hydrogenuine.TaskGraph
