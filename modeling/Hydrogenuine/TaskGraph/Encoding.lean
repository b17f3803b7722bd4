import Hydrogenuine.Support.Record
import Hydrogenuine.TaskGraph.Schema

/-!
# The encoding of task graphs

Embedding of `to_dict` and `from_dict` in `hg_core/task_graph/schema.py`, over records
with all their fields.  A graph is read back from its encoding unless the legacy flag of
a node's policy contradicts its effect class: the class `none` is left out, and the flag
is read in its place.

The fields are typed as the classes declare them.  A document with a value of another
type in a field, which the code takes over as it is, is rejected here.
-/

namespace Hydrogenuine.TaskGraph

open Support Hydrogenuine.Core

/-! ## Records -/

structure RunPolicyRecord where
  maxConcurrency : ℤ := 1
  failureMode : String := "fail_fast"
  strictBindings : Bool := true
  inputBindingMode : String := "strict"
  allowSideEffectsInLoops : Bool := false
  expressionStrictMode : Bool := false
  maxNodeExecutions : Option ℤ := none
  maxTotalRuntimeS : Option ℤ := none
  defaultRetryBackoffMs : Option ℤ := none
  maxStateBytes : Option ℤ := none
  maxStateKeys : Option ℤ := none
  loopPolicyOnBodyFailure : String := "stop_loop"
  pauseAtCheckpoint : Bool := false
  budgets : Option Items := none

structure NodePolicyRecord where
  timeoutS : Option ℤ := none
  maxRetries : ℤ := 0
  retryBackoffMs : ℤ := 500
  escalation : Option String := none
  budgetTokens : Option ℤ := none
  memoryProfile : Option String := none
  maxIterations : Option ℤ := none
  idempotencyKey : Option String := none
  effectClass : String := "none"
  sideEffect : Option Bool := none

structure NodeRecord where
  id : String
  type : String
  assignedEntity : String
  dependsOn : List String
  inputs : Items
  outputs : Items
  policy : NodePolicyRecord
  checkpoints : Checkpoints
  status : Option String := none
  attemptCount : ℤ := 0
  startedAt : Option String := none
  endedAt : Option String := none
  error : Option Items := none
  traceRef : Option String := none

structure DagRecord where
  graphId : String
  version : String
  runPolicy : RunPolicyRecord
  inputs : Items
  nodes : List NodeRecord

/-! ## `to_dict` -/

def RunPolicyRecord.toDict (policy : RunPolicyRecord) : Items :=
  Record.items
    [("max_concurrency", some (.int policy.maxConcurrency)),
      ("failure_mode", some (.str policy.failureMode)),
      ("strict_bindings",
        Record.leftOutIf policy.strictBindings (.bool policy.strictBindings)),
      ("input_binding_mode",
        Record.leftOutIf (policy.inputBindingMode == "strict")
          (.str policy.inputBindingMode)),
      ("allow_side_effects_in_loops",
        Record.leftOutIf (!policy.allowSideEffectsInLoops)
          (.bool policy.allowSideEffectsInLoops)),
      ("expression_strict_mode",
        Record.leftOutIf (!policy.expressionStrictMode)
          (.bool policy.expressionStrictMode)),
      ("max_node_executions", policy.maxNodeExecutions.map .int),
      ("max_total_runtime_s", policy.maxTotalRuntimeS.map .int),
      ("default_retry_backoff_ms", policy.defaultRetryBackoffMs.map .int),
      ("max_state_bytes", policy.maxStateBytes.map .int),
      ("max_state_keys", policy.maxStateKeys.map .int),
      ("loop_policy_on_body_failure",
        Record.leftOutIf (policy.loopPolicyOnBodyFailure == "stop_loop")
          (.str policy.loopPolicyOnBodyFailure)),
      ("pause_at_checkpoint",
        Record.leftOutIf (!policy.pauseAtCheckpoint) (.bool policy.pauseAtCheckpoint)),
      ("budgets", policy.budgets.map .dict)]

def NodePolicyRecord.toDict (policy : NodePolicyRecord) : Items :=
  Record.items
    [("timeout_s", policy.timeoutS.map .int),
      ("max_retries", some (.int policy.maxRetries)),
      ("retry_backoff_ms", some (.int policy.retryBackoffMs)),
      ("escalation", policy.escalation.map .str),
      ("budget_tokens", policy.budgetTokens.map .int),
      ("memory_profile", policy.memoryProfile.map .str),
      ("max_iterations", policy.maxIterations.map .int),
      ("idempotency_key", policy.idempotencyKey.map .str),
      ("effect_class",
        Record.leftOutIf (policy.effectClass == "none") (.str policy.effectClass)),
      ("side_effect", policy.sideEffect.map .bool)]

def Checkpoints.toDict (checkpoints : Checkpoints) : Items :=
  Record.items
    [("before", some (.bool checkpoints.before)),
      ("after", some (.bool checkpoints.after)),
      ("pause_before",
        Record.leftOutIf (!checkpoints.pauseBefore) (.bool checkpoints.pauseBefore)),
      ("pause_after",
        Record.leftOutIf (!checkpoints.pauseAfter) (.bool checkpoints.pauseAfter))]

def NodeRecord.toDict (node : NodeRecord) : Items :=
  Record.items
    [("id", some (.str node.id)),
      ("type", some (.str node.type)),
      ("assigned_entity", some (.str node.assignedEntity)),
      ("depends_on", some (.ofStrings node.dependsOn)),
      ("inputs", some (.dict node.inputs)),
      ("outputs", some (.dict node.outputs)),
      ("policy", some (.dict node.policy.toDict)),
      ("checkpoints", some (.dict node.checkpoints.toDict)),
      ("status", node.status.map .str),
      ("attempt_count",
        Record.leftOutIf (node.attemptCount == 0) (.int node.attemptCount)),
      ("started_at", node.startedAt.map .str),
      ("ended_at", node.endedAt.map .str),
      ("error", node.error.map .dict),
      ("trace_ref", node.traceRef.map .str)]

def DagRecord.toDict (dag : DagRecord) : Items :=
  Record.items
    [("graph_id", some (.str dag.graphId)),
      ("version", some (.str dag.version)),
      ("run_policy", some (.dict dag.runPolicy.toDict)),
      ("inputs", some (.dict dag.inputs)),
      ("nodes", some (.list (dag.nodes.map fun node => .dict node.toDict)))]

/-! ## `from_dict` -/

def mistyped (type : String) : PyError := .typeError ("no " ++ type)

def readInt : PyVal → Except PyError ℤ
  | .int n => .ok n
  | _ => .error (mistyped "int")

def readBool : PyVal → Except PyError Bool
  | .bool b => .ok b
  | _ => .error (mistyped "bool")

def readText : PyVal → Except PyError String
  | .str s => .ok s
  | _ => .error (mistyped "str")

def readDict : PyVal → Except PyError Items
  | .dict items => .ok items
  | _ => .error (mistyped "dict")

def readList : PyVal → Except PyError (List PyVal)
  | .list items => .ok items
  | _ => .error (mistyped "list")

def readTexts (value : PyVal) : Except PyError (List String) := do
  let items ← readList value
  items.mapM readText

/-- `d[k]`, read as a value of a type. -/
def readDemanded {α : Type} (read : PyVal → Except PyError α) (d : Items) (k : String) :
    Except PyError α :=
  match PyVal.item? d k with
  | some v => read v
  | none => .error (.keyError k)

def RunPolicyRecord.fromDict (d : Items) : Except PyError RunPolicyRecord := do
  let maxConcurrency ← Record.readOr readInt 1 (PyVal.item? d "max_concurrency")
  let failureMode ← Record.readOr readText "fail_fast" (PyVal.item? d "failure_mode")
  let strictBindings ← Record.readOr readBool true (PyVal.item? d "strict_bindings")
  let inputBindingMode ←
    Record.readOr readText "strict" (PyVal.item? d "input_binding_mode")
  let allowSideEffectsInLoops ←
    Record.readOr readBool false (PyVal.item? d "allow_side_effects_in_loops")
  let expressionStrictMode ←
    Record.readOr readBool false (PyVal.item? d "expression_strict_mode")
  let maxNodeExecutions ←
    Record.readOptional readInt (PyVal.item? d "max_node_executions")
  let maxTotalRuntimeS ←
    Record.readOptional readInt (PyVal.item? d "max_total_runtime_s")
  let defaultRetryBackoffMs ←
    Record.readOptional readInt (PyVal.item? d "default_retry_backoff_ms")
  let maxStateBytes ← Record.readOptional readInt (PyVal.item? d "max_state_bytes")
  let maxStateKeys ← Record.readOptional readInt (PyVal.item? d "max_state_keys")
  let loopPolicyOnBodyFailure ←
    Record.readOr readText "stop_loop" (PyVal.item? d "loop_policy_on_body_failure")
  let pauseAtCheckpoint ←
    Record.readOr readBool false (PyVal.item? d "pause_at_checkpoint")
  let budgets ← Record.readOptional readDict (PyVal.item? d "budgets")
  return { maxConcurrency, failureMode, strictBindings, inputBindingMode,
           allowSideEffectsInLoops, expressionStrictMode, maxNodeExecutions,
           maxTotalRuntimeS, defaultRetryBackoffMs, maxStateBytes, maxStateKeys,
           loopPolicyOnBodyFailure, pauseAtCheckpoint, budgets }

/-- The effect class of a policy, with the legacy flag where it is missing. -/
def effectOf : Option String → Option Bool → String
  | some effect, _ => effect
  | none, some sideEffect => if sideEffect then "write" else "none"
  | none, none => "none"

def NodePolicyRecord.fromDict (d : Items) : Except PyError NodePolicyRecord := do
  let effect ← Record.readOptional readText (PyVal.item? d "effect_class")
  let sideEffect ← Record.readOptional readBool (PyVal.item? d "side_effect")
  let timeoutS ← Record.readOptional readInt (PyVal.item? d "timeout_s")
  let maxRetries ← Record.readOr readInt 0 (PyVal.item? d "max_retries")
  let retryBackoffMs ← Record.readOr readInt 500 (PyVal.item? d "retry_backoff_ms")
  let escalation ← Record.readOptional readText (PyVal.item? d "escalation")
  let budgetTokens ← Record.readOptional readInt (PyVal.item? d "budget_tokens")
  let memoryProfile ← Record.readOptional readText (PyVal.item? d "memory_profile")
  let maxIterations ← Record.readOptional readInt (PyVal.item? d "max_iterations")
  let idempotencyKey ← Record.readOptional readText (PyVal.item? d "idempotency_key")
  return { timeoutS, maxRetries, retryBackoffMs, escalation, budgetTokens,
           memoryProfile, maxIterations, idempotencyKey,
           effectClass := effectOf effect sideEffect, sideEffect }

def Checkpoints.fromDict (d : Items) : Except PyError Checkpoints := do
  let before ← Record.readOr readBool false (PyVal.item? d "before")
  let after ← Record.readOr readBool false (PyVal.item? d "after")
  let pauseBefore ← Record.readOr readBool false (PyVal.item? d "pause_before")
  let pauseAfter ← Record.readOr readBool false (PyVal.item? d "pause_after")
  return { before, after, pauseBefore, pauseAfter }

def NodeRecord.fromDict (d : Items) : Except PyError NodeRecord := do
  let id ← readDemanded readText d "id"
  let type ← readDemanded readText d "type"
  let assignedEntity ← readDemanded readText d "assigned_entity"
  let dependsOn ← Record.readOr readTexts [] (PyVal.item? d "depends_on")
  let inputs ← Record.readOr readDict [] (PyVal.item? d "inputs")
  let outputs ← Record.readOr readDict [] (PyVal.item? d "outputs")
  let policy ← Record.readOr readDict [] (PyVal.item? d "policy")
  let policy ← NodePolicyRecord.fromDict policy
  let checkpoints ← Record.readOr readDict [] (PyVal.item? d "checkpoints")
  let checkpoints ← Checkpoints.fromDict checkpoints
  let status ← Record.readOptional readText (PyVal.item? d "status")
  let attemptCount ← Record.readOr readInt 0 (PyVal.item? d "attempt_count")
  let startedAt ← Record.readOptional readText (PyVal.item? d "started_at")
  let endedAt ← Record.readOptional readText (PyVal.item? d "ended_at")
  let error ← Record.readOptional readDict (PyVal.item? d "error")
  let traceRef ← Record.readOptional readText (PyVal.item? d "trace_ref")
  return { id, type, assignedEntity, dependsOn, inputs, outputs, policy, checkpoints,
           status, attemptCount, startedAt, endedAt, error, traceRef }

/-- `[Node.from_dict(n) for n in nodes]`. -/
def nodesFromDicts (nodes : List PyVal) : Except PyError (List NodeRecord) :=
  nodes.mapM fun node => do
    let items ← readDict node
    NodeRecord.fromDict items

def DagRecord.fromDict (d : Items) : Except PyError DagRecord := do
  let graphId ← readDemanded readText d "graph_id"
  let version ← Record.readOr readText "1.0" (PyVal.item? d "version")
  let runPolicy ← Record.readOr readDict [] (PyVal.item? d "run_policy")
  let runPolicy ← RunPolicyRecord.fromDict runPolicy
  let inputs ← Record.readOr readDict [] (PyVal.item? d "inputs")
  let nodes ← Record.readOr readList [] (PyVal.item? d "nodes")
  let nodes ← nodesFromDicts nodes
  return { graphId, version, runPolicy, inputs, nodes }

/-! ## Reading back -/

theorem ok_bind {ε α β : Type} (x : α) (f : α → Except ε β) :
    (Except.ok x >>= f) = f x := rfl

section

theorem readOptional_int (x : Option ℤ) :
    Record.readOptional readInt (x.map .int) = .ok x :=
  Record.readOptional_map .int (fun _ => rfl) (fun _ h => PyVal.noConfusion h) x

theorem readOptional_text (x : Option String) :
    Record.readOptional readText (x.map .str) = .ok x :=
  Record.readOptional_map .str (fun _ => rfl) (fun _ h => PyVal.noConfusion h) x

theorem readOptional_bool (x : Option Bool) :
    Record.readOptional readBool (x.map .bool) = .ok x :=
  Record.readOptional_map .bool (fun _ => rfl) (fun _ h => PyVal.noConfusion h) x

theorem readOptional_dict (x : Option Items) :
    Record.readOptional readDict (x.map .dict) = .ok x :=
  Record.readOptional_map .dict (fun _ => rfl) (fun _ h => PyVal.noConfusion h) x

theorem readOr_flag (b : Bool) :
    Record.readOr readBool false (Record.leftOutIf (!b) (.bool b)) = .ok b := by
  refine Record.readOr_leftOutIf rfl fun hnot => ?_
  cases b with
  | true => cases hnot
  | false => rfl

theorem readOr_text (x default : String) :
    Record.readOr readText default (Record.leftOutIf (x == default) (.str x)) = .ok x :=
  Record.readOr_leftOutIf rfl fun h => eq_of_beq h

theorem readTexts_ofStrings (xs : List String) :
    readTexts (PyVal.ofStrings xs) = .ok xs := by
  change (xs.map PyVal.str).mapM readText = .ok xs
  induction xs with
  | nil => rfl
  | cons x rest ih =>
      rw [List.map_cons, List.mapM_cons, ih]
      rfl

end

theorem RunPolicyRecord.fromDict_toDict (policy : RunPolicyRecord) :
    RunPolicyRecord.fromDict policy.toDict = .ok policy := by
  have hstrict : Record.readOr readBool true
      (Record.leftOutIf policy.strictBindings (.bool policy.strictBindings)) =
        .ok policy.strictBindings := Record.readOr_leftOutIf rfl id
  simp [fromDict, toDict, hstrict, readOptional_int, readOptional_dict, readOr_flag,
    readOr_text]
  rfl

/-- The legacy flag of the policy stands for another class than the policy has. -/
def FlagContradicts (policy : NodePolicyRecord) : Prop :=
  policy.effectClass = "none" ∧ policy.sideEffect = some true

instance (policy : NodePolicyRecord) : Decidable (FlagContradicts policy) :=
  inferInstanceAs (Decidable (_ ∧ _))

/-- A policy is read back with the class that its legacy flag stands for, where its own
class was left out. -/
theorem NodePolicyRecord.fromDict_toDict (policy : NodePolicyRecord) :
    NodePolicyRecord.fromDict policy.toDict =
      .ok
        { policy with
          effectClass :=
            if FlagContradicts policy then "write" else policy.effectClass } := by
  have heffect : ∃ effect,
      Record.readOptional readText
        (Record.leftOutIf (policy.effectClass == "none") (.str policy.effectClass)) =
          .ok effect ∧
      effectOf effect policy.sideEffect =
        if FlagContradicts policy then "write" else policy.effectClass := by
    by_cases hnone : policy.effectClass = "none"
    · refine ⟨none, by rw [hnone]; rfl, ?_⟩
      by_cases hflag : policy.sideEffect = some true
      · rw [if_pos ⟨hnone, hflag⟩, hflag]
        rfl
      · rw [if_neg (fun h => hflag h.2), hnone]
        rcases hside : policy.sideEffect with _ | _ | _
        · rfl
        · rfl
        · exact absurd hside hflag
    · refine ⟨some policy.effectClass, by rw [beq_false_of_ne hnone]; rfl, ?_⟩
      rw [if_neg (fun h => hnone h.1)]
      rfl
  obtain ⟨effect, hread, hclass⟩ := heffect
  rw [← hclass]
  simp [fromDict, toDict, hread, readOptional_int, readOptional_text, readOptional_bool]
  rfl

theorem Checkpoints.fromDict_toDict (checkpoints : Checkpoints) :
    Checkpoints.fromDict checkpoints.toDict = .ok checkpoints := by
  simp [fromDict, toDict, readOr_flag]
  rfl

theorem NodeRecord.fromDict_toDict (node : NodeRecord) :
    NodeRecord.fromDict node.toDict =
      (NodePolicyRecord.fromDict node.policy.toDict).map fun policy =>
        { node with policy := policy } := by
  have hattempts : Record.readOr readInt 0
      (Record.leftOutIf (node.attemptCount == 0) (.int node.attemptCount)) =
        .ok node.attemptCount := Record.readOr_leftOutIf rfl fun h => eq_of_beq h
  have hpolicy := NodePolicyRecord.fromDict_toDict node.policy
  rw [hpolicy]
  simp [fromDict, toDict, ok_bind, readDemanded, readText, readDict, Record.readOr_some,
    readTexts_ofStrings, hpolicy, Checkpoints.fromDict_toDict, readOptional_text,
    hattempts, readOptional_dict, Except.map]

theorem NodeRecord.fromDict_toDict_eq_iff (node : NodeRecord) :
    NodeRecord.fromDict node.toDict = .ok node ↔ ¬ FlagContradicts node.policy := by
  rw [NodeRecord.fromDict_toDict, NodePolicyRecord.fromDict_toDict]
  constructor
  · intro h hflag
    rw [if_pos hflag] at h
    have hclass : "write" = node.policy.effectClass :=
      congrArg (fun node => node.policy.effectClass) (Except.ok.inj h)
    rw [hflag.1] at hclass
    exact absurd hclass (by decide)
  · intro hflag
    rw [if_neg hflag]
    rfl

theorem nodesFromDicts_cons (d : Items) (rest : List PyVal) :
    nodesFromDicts (.dict d :: rest) = do
      let node ← NodeRecord.fromDict d
      let nodes ← nodesFromDicts rest
      return node :: nodes := by
  rw [nodesFromDicts, List.mapM_cons, readDict, ok_bind]
  rfl

theorem nodesFromDicts_toDict_eq_iff (nodes : List NodeRecord) :
    nodesFromDicts (nodes.map fun node => .dict node.toDict) = .ok nodes ↔
      ∀ node ∈ nodes, NodeRecord.fromDict node.toDict = .ok node := by
  induction nodes with
  | nil => exact iff_of_true rfl (List.forall_mem_nil _)
  | cons node rest ih =>
      obtain ⟨read, hread⟩ : ∃ read, NodeRecord.fromDict node.toDict = .ok read := by
        rw [NodeRecord.fromDict_toDict, NodePolicyRecord.fromDict_toDict]
        exact ⟨_, rfl⟩
      rw [List.map_cons, List.forall_mem_cons, ← ih, nodesFromDicts_cons, hread, ok_bind]
      cases nodesFromDicts (rest.map fun node => .dict node.toDict) with
      | error err =>
          refine iff_of_false (fun h => ?_) (fun h => ?_)
          · cases h
          · cases h.2
      | ok others =>
          rw [ok_bind]
          change Except.ok (read :: others) = Except.ok (node :: rest) ↔ _
          rw [Except.ok.injEq, Except.ok.injEq, Except.ok.injEq, List.cons.injEq]

theorem DagRecord.fromDict_toDict (dag : DagRecord) :
    DagRecord.fromDict dag.toDict =
      (nodesFromDicts (dag.nodes.map fun node => .dict node.toDict)).map fun nodes =>
        { dag with nodes := nodes } := by
  simp [DagRecord.fromDict, DagRecord.toDict, ok_bind, readDemanded, readText, readDict,
    readList, Record.readOr_some, RunPolicyRecord.fromDict_toDict]
  rfl

/-- A graph is read back from its encoding exactly if no legacy flag of a node
contradicts a class that is left out. -/
theorem dag_fromDict_toDict_eq_iff (dag : DagRecord) :
    DagRecord.fromDict dag.toDict = .ok dag ↔
      ∀ node ∈ dag.nodes, ¬ FlagContradicts node.policy := by
  have hnodes := nodesFromDicts_toDict_eq_iff dag.nodes
  simp only [NodeRecord.fromDict_toDict_eq_iff] at hnodes
  rw [← hnodes, DagRecord.fromDict_toDict]
  cases nodesFromDicts (dag.nodes.map fun node => .dict node.toDict) with
  | error err =>
      refine iff_of_false (fun h => ?_) (fun h => ?_)
      · cases h
      · cases h
  | ok nodes =>
      constructor
      · intro h
        exact congrArg Except.ok (congrArg DagRecord.nodes (Except.ok.inj h))
      · intro h
        rw [Except.ok.inj h]
        rfl

def flaggedDag : DagRecord where
  graphId := "g"
  version := "1.0"
  runPolicy := {}
  inputs := []
  nodes :=
    [{ id := "post"
       type := "tool"
       assignedEntity := "poster"
       dependsOn := []
       inputs := []
       outputs := []
       policy := { sideEffect := some true }
       checkpoints := {} }]

theorem dag_fromDict_toDict_ne :
    ¬ ∀ dag : DagRecord, DagRecord.fromDict dag.toDict = .ok dag := by
  intro h
  have hclass := congrArg (Except.map fun dag : DagRecord =>
    dag.nodes.map fun node => node.policy.effectClass) (h flaggedDag)
  have hread : (DagRecord.fromDict flaggedDag.toDict).map (fun dag =>
      dag.nodes.map fun node => node.policy.effectClass) = .ok ["write"] := rfl
  rw [hread] at hclass
  exact absurd (Except.ok.inj hclass) (by decide)

end Hydrogenuine.TaskGraph
