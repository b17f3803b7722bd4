import Hydrogenuine.Support.ListedChains
import Hydrogenuine.Support.PyValue

/-!
# The delegation graph

Embedding of `hg_core/task_graph/delegation_graph.py`: the builder takes up one
behavior event after the other, and its summary reports the depth and the width of
the graph.  Of a graph, the fields that are constant are left out.
-/

namespace Hydrogenuine.TaskGraph

open Support

/-! ## Events and the builder -/

def delegationEventTypes : List String :=
  ["delegation.assign", "delegation.handoff", "delegation.split", "delegation.merge"]

/-- A behavior event, as far as the builder reads it. -/
structure BehaviorEvent where
  eventType : String
  workItemId : String
  parentWorkItemId : Option String
  agentId : String
  payloadSummary : List (String × PyVal)

structure WorkItem where
  id : String
  owner : String

structure DelegationEdge where
  source : String
  target : String
  reason : PyVal
  receiptAligned : PyVal
  eventType : String

structure DelegationGraphBuilder where
  nodes : Dict String WorkItem
  edges : List DelegationEdge
  handoffCount : ℕ
  splitCount : ℕ
  mergeCount : ℕ
  depthByNode : Dict String ℕ
  children : Dict String (List String)

/-- The `metrics` of a summary, as far as they are read off the graph. -/
structure DelegationMetrics where
  delegationDepthMax : ℕ
  delegationWidthMax : ℕ
  totalWorkItems : ℕ
  handoffCount : ℕ
  splitCount : ℕ
  mergeCount : ℕ
deriving DecidableEq

def BehaviorEvent.delegation? (event : BehaviorEvent) : Option (String × String) :=
  match event.parentWorkItemId with
  | some parent =>
      if event.workItemId ≠ "" ∧ event.eventType ∈ delegationEventTypes ∧ parent ≠ "" then
        some (parent, event.workItemId)
      else none
  | none => none

namespace DelegationGraphBuilder

/-- `DelegationGraphBuilder(run_id, workflow_id)`. -/
def new : DelegationGraphBuilder := ⟨.empty, [], 0, 0, 0, .empty, .empty⟩

/-- `self._depth_by_node.get(id, 0)`. -/
def depthOf (b : DelegationGraphBuilder) (id : String) : ℕ :=
  (b.depthByNode.get? id).getD 0

def addNode (b : DelegationGraphBuilder) (event : BehaviorEvent) :
    DelegationGraphBuilder :=
  if b.nodes.contains event.workItemId then b
  else { b with
    nodes := b.nodes.set event.workItemId ⟨event.workItemId, event.agentId⟩ }

def count (b : DelegationGraphBuilder) (eventType : String) : DelegationGraphBuilder :=
  if eventType = "delegation.handoff" then { b with handoffCount := b.handoffCount + 1 }
  else if eventType = "delegation.split" then { b with splitCount := b.splitCount + 1 }
  else if eventType = "delegation.merge" then { b with mergeCount := b.mergeCount + 1 }
  else b

/-- The edge from the parent to the item, and the depth that follows from it. -/
def addEdge (b : DelegationGraphBuilder) (event : BehaviorEvent) (parent : String) :
    DelegationGraphBuilder :=
  { b with
    edges := b.edges ++
      [⟨parent, event.workItemId,
        (PyVal.item? event.payloadSummary "reason").getD (.str ""),
        (PyVal.item? event.payloadSummary "receipt_aligned").getD (.bool true),
        event.eventType⟩]
    children := b.children.set parent
      ((b.children.get? parent).getD [] ++ [event.workItemId])
    depthByNode := b.depthByNode.set event.workItemId
      (max (b.depthOf event.workItemId) (b.depthOf parent + 1)) }

def ingestEvent (b : DelegationGraphBuilder) (event : BehaviorEvent) :
    DelegationGraphBuilder :=
  if event.workItemId = "" then b
  else
    let counted := (b.addNode event).count event.eventType
    match event.parentWorkItemId with
    | some parent =>
        if event.eventType ∈ delegationEventTypes ∧ parent ≠ "" then
          counted.addEdge event parent
        else counted
    | none => counted

def maxDepth (b : DelegationGraphBuilder) : ℕ :=
  if b.depthByNode.values.isEmpty then 0
  else if b.nodes.values.isEmpty then 0
  else b.depthByNode.values.max?.getD 0

def maxWidth (b : DelegationGraphBuilder) : ℕ :=
  if b.children.values.isEmpty then b.nodes.values.length
  else (b.children.values.map List.length).max?.getD 0

/-- The `metrics` of `to_summary_dict`. -/
def metrics (b : DelegationGraphBuilder) : DelegationMetrics where
  delegationDepthMax := b.maxDepth
  delegationWidthMax := b.maxWidth
  totalWorkItems := b.nodes.values.length
  handoffCount := b.handoffCount
  splitCount := b.splitCount
  mergeCount := b.mergeCount

end DelegationGraphBuilder

/-- `build_graph_from_events`: the builder that graph and summary are read off. -/
def buildGraphFromEvents (events : List BehaviorEvent) : DelegationGraphBuilder :=
  events.foldl DelegationGraphBuilder.ingestEvent .new

def delegations (events : List BehaviorEvent) : List (String × String) :=
  events.filterMap BehaviorEvent.delegation?

/-! ## What one event does -/

namespace DelegationGraphBuilder

variable (b : DelegationGraphBuilder) (event : BehaviorEvent)

@[simp] theorem depthByNode_addNode : (b.addNode event).depthByNode = b.depthByNode := by
  unfold addNode
  split_ifs
  · rfl
  · rfl

@[simp] theorem depthByNode_count (eventType : String) :
    (b.count eventType).depthByNode = b.depthByNode := by
  unfold count
  split_ifs
  all_goals rfl

@[simp] theorem nodes_count (eventType : String) :
    (b.count eventType).nodes = b.nodes := by
  unfold count
  split_ifs
  all_goals rfl

theorem depthByNode_ingestEvent_of_none (h : event.delegation? = none) :
    (b.ingestEvent event).depthByNode = b.depthByNode := by
  unfold ingestEvent
  unfold BehaviorEvent.delegation? at h
  split_ifs with hid
  · rfl
  · cases hparent : event.parentWorkItemId with
    | none => simp
    | some parent =>
        simp only [hparent, ne_eq, hid, not_false_eq_true, true_and, ite_eq_right_iff,
          reduceCtorEq, imp_false] at h
        simp only [ne_eq, h, if_false, depthByNode_count, depthByNode_addNode]

theorem depthByNode_ingestEvent_of_some {parent item : String}
    (h : event.delegation? = some (parent, item)) :
    (b.ingestEvent event).depthByNode =
      b.depthByNode.set item (max (b.depthOf item) (b.depthOf parent + 1)) := by
  unfold BehaviorEvent.delegation? at h
  cases hparent : event.parentWorkItemId with
  | none =>
      rw [hparent] at h
      cases h
  | some parent' =>
      simp only [hparent, Option.ite_none_right_eq_some, Option.some.injEq,
        Prod.mk.injEq] at h
      obtain ⟨⟨hid, htype, htext⟩, rfl, rfl⟩ := h
      simp only [ingestEvent, if_neg hid, hparent, if_pos (And.intro htype htext), addEdge,
        depthOf, depthByNode_count, depthByNode_addNode]

theorem depthOf_ingestEvent :
    (b.ingestEvent event).depthOf =
      event.delegation?.toList.foldl deepen b.depthOf := by
  funext id
  cases hdelegation : event.delegation? with
  | none =>
      simp only [depthOf, depthByNode_ingestEvent_of_none b event hdelegation,
        Option.toList_none, List.foldl_nil]
  | some edge =>
      simp only [depthOf, depthByNode_ingestEvent_of_some b event hdelegation,
        Option.toList_some, List.foldl_cons, List.foldl_nil, deepen,
        Function.update_apply, Dict.get?_set]
      split_ifs
      · rfl
      · rfl

def DepthsHaveNodes : Prop := b.nodes.values = [] → b.depthByNode.values = []

theorem contains_addNode : (b.addNode event).nodes.contains event.workItemId := by
  unfold addNode
  split_ifs with hnode
  · exact hnode
  · simp [Dict.contains_set]

theorem nodes_ingestEvent_ne_nil (hid : event.workItemId ≠ "") :
    (b.ingestEvent event).nodes.values ≠ [] := by
  have hnodes : (b.ingestEvent event).nodes = (b.addNode event).nodes := by
    unfold ingestEvent
    rw [if_neg hid]
    cases event.parentWorkItemId with
    | none => exact nodes_count _ _
    | some parent =>
        dsimp only
        split_ifs
        · exact nodes_count _ _
        · exact nodes_count _ _
  obtain ⟨item, hitem⟩ :=
    (Dict.contains_eq_true_iff _ _).mp (b.contains_addNode event)
  rw [hnodes]
  exact List.ne_nil_of_mem ((Dict.mem_values_iff _).mpr ⟨_, hitem⟩)

variable {b}

theorem DepthsHaveNodes.ingestEvent (h : b.DepthsHaveNodes) :
    (b.ingestEvent event).DepthsHaveNodes := by
  by_cases hid : event.workItemId = ""
  · rwa [show b.ingestEvent event = b from if_pos hid]
  · exact fun hempty => absurd hempty (b.nodes_ingestEvent_ne_nil event hid)

end DelegationGraphBuilder

/-! ## What a whole run does -/

theorem buildGraphFromEvents_concat (events : List BehaviorEvent) (event : BehaviorEvent) :
    buildGraphFromEvents (events ++ [event]) =
      (buildGraphFromEvents events).ingestEvent event := by
  rw [buildGraphFromEvents, List.foldl_concat, buildGraphFromEvents]

theorem depthsHaveNodes_build (events : List BehaviorEvent) :
    (buildGraphFromEvents events).DepthsHaveNodes := by
  induction events using List.reverseRecOn with
  | nil => exact fun _ => rfl
  | append_singleton events event ih =>
      rw [buildGraphFromEvents_concat]
      exact ih.ingestEvent event

theorem depthOf_build (events : List BehaviorEvent) :
    (buildGraphFromEvents events).depthOf = listedDepth (delegations events) := by
  induction events using List.reverseRecOn with
  | nil => rfl
  | append_singleton events event ih =>
      rw [buildGraphFromEvents_concat, DelegationGraphBuilder.depthOf_ingestEvent, ih,
        listedDepth, listedDepth, ← List.foldl_append, delegations, delegations,
        List.filterMap_append]
      cases hdelegation : event.delegation? with
      | none => simp [hdelegation]
      | some edge => simp [hdelegation]

namespace DelegationGraphBuilder

variable {b : DelegationGraphBuilder}

theorem maxDepth_spec (h : b.DepthsHaveNodes) :
    (b.maxDepth = 0 ∨ ∃ id, b.depthOf id = b.maxDepth) ∧
      ∀ id, b.depthOf id ≤ b.maxDepth := by
  cases hmax : b.depthByNode.values.max? with
  | none =>
      have hvalues : b.depthByNode.values = [] := List.max?_eq_none_iff.mp hmax
      have hdepth (id : String) : b.depthOf id = 0 := by
        cases hget : b.depthByNode.get? id with
        | none => rw [depthOf, hget, Option.getD_none]
        | some depth =>
            have hmem := (Dict.mem_values_iff _).mpr ⟨id, hget⟩
            rw [hvalues] at hmem
            cases hmem
      have hzero : b.maxDepth = 0 := by
        rw [maxDepth, if_pos (by rw [hvalues, List.isEmpty_nil])]
      exact ⟨Or.inl hzero, fun id => (hdepth id).trans_le (Nat.zero_le _)⟩
  | some depth =>
      obtain ⟨hmem, hbound⟩ := List.max?_eq_some_iff.mp hmax
      have hdepths : b.depthByNode.values ≠ [] := List.ne_nil_of_mem hmem
      have hnodes : b.nodes.values ≠ [] := fun hempty => hdepths (h hempty)
      have heq : b.maxDepth = depth := by
        rw [maxDepth, if_neg (by simpa using hdepths), if_neg (by simpa using hnodes),
          hmax, Option.getD_some]
      rw [heq]
      constructor
      · obtain ⟨id, hget⟩ := (Dict.mem_values_iff _).mp hmem
        exact Or.inr ⟨id, by rw [depthOf, hget, Option.getD_some]⟩
      · intro id
        cases hget : b.depthByNode.get? id with
        | none =>
            rw [depthOf, hget, Option.getD_none]
            exact Nat.zero_le _
        | some depth' =>
            rw [depthOf, hget, Option.getD_some]
            exact hbound _ ((Dict.mem_values_iff _).mpr ⟨id, hget⟩)

end DelegationGraphBuilder

theorem isGreatest_listed_delegationDepthMax (events : List BehaviorEvent) :
    IsGreatest (listedLengths (delegations events))
      (buildGraphFromEvents events).metrics.delegationDepthMax := by
  obtain ⟨hreached, hbound⟩ :=
    DelegationGraphBuilder.maxDepth_spec (depthsHaveNodes_build events)
  rw [depthOf_build] at hreached hbound
  exact isGreatest_listedLengths hreached hbound

/-- It is the longest chain of all in the listings in which some longest chain is
listed from its root down, and in no other. -/
theorem isGreatest_delegationDepthMax_iff (events : List BehaviorEvent) :
    IsGreatest (chainLengths (delegations events))
        (buildGraphFromEvents events).metrics.delegationDepthMax ↔
      ∃ longest : List (String × String),
        longest.Sublist (delegations events) ∧ EdgeChain longest ∧
          ∀ chain : List (String × String), (∀ e ∈ chain, e ∈ delegations events) →
            EdgeChain chain → chain.length ≤ longest.length :=
  isGreatest_chainLengths_iff (isGreatest_listed_delegationDepthMax events)

def handoff (parent item : String) : BehaviorEvent :=
  ⟨"delegation.handoff", item, some parent, "", []⟩

/-- The lower of two delegations is listed first, and the depth stays at one. -/
theorem delegationDepthMax_child_first :
    AcyclicEdges (delegations [handoff "b" "c", handoff "a" "b"]) ∧
      ¬ IsGreatest (chainLengths (delegations [handoff "b" "c", handoff "a" "b"]))
        (buildGraphFromEvents
          [handoff "b" "c", handoff "a" "b"]).metrics.delegationDepthMax ∧
      (buildGraphFromEvents
          [handoff "a" "b", handoff "b" "c"]).metrics.delegationDepthMax = 2 := by
  have hdepth : (buildGraphFromEvents
      [handoff "b" "c", handoff "a" "b"]).metrics.delegationDepthMax = 1 := by
    decide
  refine ⟨acyclicEdges_of_rank (fun id => if id = "a" then 0 else if id = "b" then 1 else 2)
    (by decide), ?_, by decide⟩
  rw [hdepth]
  intro hgreatest
  have htwo : 2 ∈ chainLengths (delegations [handoff "b" "c", handoff "a" "b"]) :=
    ⟨[("a", "b"), ("b", "c")], by decide, by simp [EdgeChain], rfl⟩
  exact absurd (hgreatest.2 htwo) (by decide)

end Hydrogenuine.TaskGraph
