import Hydrogenuine.Support.Worklist
import Hydrogenuine.TaskGraph.TopologicalOrder
import Mathlib.Order.Bounds.Defs

/-!
# What a gate skips

`_reachable_from` computes the closure of its seeds under dependents, so that a
gate marks the nodes that a target of the branch not taken reaches and no target
of the taken branch does.  The propagation that follows ends, and what it skips
is the least set of waiting nodes that is closed under "all dependencies are
skipped".  A gate that depends on a target of the branch not taken marks itself,
and is done all the same.
-/

namespace Hydrogenuine.TaskGraph

open Support Hydrogenuine.Core Relation

/-! ## Reachability -/

/-- Some seed leads to the node along dependents, in any number of steps. -/
def Dag.Reaches (dag : Dag) (seeds : List String) (id : String) : Prop :=
  ∃ seed ∈ seeds, ReflTransGen dag.Precedes seed id

section Reachability

variable {dag : Dag}

def sortedSuccessors (dag : Dag) (nid : String) : List String :=
  (successors dag nid).insertionSort (· ≤ ·)

theorem reachFrom_eq_search
    (dag : Dag) (fuel : ℕ) (queue out : List String) :
    reachFrom dag fuel queue out =
      Worklist.search (sortedSuccessors dag) fuel queue out := by
  induction fuel generalizing queue out with
  | zero => rfl
  | succ fuel ih =>
      cases queue with
      | nil => rfl
      | cons nid queue =>
          rw [reachFrom, Worklist.search, ih, ih]
          rfl

theorem mem_sortedSuccessors
    (hnodup : dag.ids.Nodup) {dep id : String} :
    id ∈ sortedSuccessors dag dep ↔ dag.Precedes dep id := by
  rw [sortedSuccessors, List.mem_insertionSort]
  constructor
  · intro hid
    obtain ⟨node, hnode, hid⟩ := List.mem_flatMap.mp hid
    obtain ⟨dep', hdep', rfl⟩ := List.mem_map.mp hid
    obtain ⟨hdep, heq⟩ := List.mem_filter.mp hdep'
    rw [beq_iff_eq] at heq
    rw [Dag.Precedes, Dag.dependencies_id hnodup hnode]
    exact heq ▸ hdep
  · intro hprecedes
    unfold Dag.Precedes Dag.dependencies at hprecedes
    cases hnode : dag.byId id with
    | none =>
        rw [hnode] at hprecedes
        cases hprecedes
    | some node =>
        rw [hnode] at hprecedes
        refine List.mem_flatMap.mpr ⟨node, Dag.mem_of_byId hnode, ?_⟩
        exact List.mem_map.mpr ⟨dep,
          List.mem_filter.mpr ⟨hprecedes, beq_self_eq_true dep⟩,
          Dag.byId_id hnode⟩

theorem sum_count_le
    {ids : List String} (hnodup : ids.Nodup) (deps : List String) :
    (ids.map fun id => deps.count id).sum ≤ deps.length := by
  induction ids generalizing deps with
  | nil => exact Nat.zero_le _
  | cons id ids ih =>
      obtain ⟨hid, hrest⟩ := List.nodup_cons.mp hnodup
      have hothers : (ids.map fun id' => deps.count id') =
          ids.map fun id' => (deps.filter (· != id)).count id' := by
        refine List.map_congr_left fun id' hid' => ?_
        have hne : id' ≠ id := fun heq => hid (heq ▸ hid')
        rw [List.count_filter (by simpa using hne)]
      have hlength : deps.length =
          deps.count id + (deps.filter (· != id)).length := by
        rw [List.count, List.countP_eq_length_filter]
        exact List.length_eq_length_filter_add (· == id)
      rw [List.map_cons, List.sum_cons, hothers, hlength]
      exact Nat.add_le_add_left (ih hrest _) _

theorem length_successors (nodes : List Node) (nid : String) :
    (nodes.flatMap fun node =>
      (node.dependsOn.filter (· == nid)).map fun _ => node.id).length =
        (nodes.map fun node => node.dependsOn.count nid).sum := by
  rw [List.length_flatMap]
  congr 1
  refine List.map_congr_left fun node _ => ?_
  rw [List.length_map, List.count, List.countP_eq_length_filter]

theorem degrees_sortedSuccessors_le
    {ids : List String} (hnodup : ids.Nodup) :
    Worklist.degrees (sortedSuccessors dag) ids ≤
      (dag.nodes.map fun node => node.dependsOn.length).sum := by
  have hdegrees : Worklist.degrees (sortedSuccessors dag) ids =
      (ids.map fun id =>
        (dag.nodes.map fun node => node.dependsOn.count id).sum).sum := by
    unfold Worklist.degrees
    congr 1
    refine List.map_congr_left fun id _ => ?_
    rw [sortedSuccessors, List.length_insertionSort, successors,
      length_successors]
  rw [hdegrees]
  induction dag.nodes with
  | nil => simp
  | cons node nodes ih =>
      simp only [List.map_cons, List.sum_cons, List.sum_map_add]
      exact Nat.add_le_add (sum_count_le hnodup _) ih

theorem mem_reachableFrom_iff
    (hnodup : dag.ids.Nodup) {seeds : List String} {id : String} :
    id ∈ reachableFrom dag seeds ↔ dag.Reaches seeds id := by
  have hstep : (fun a b => b ∈ sortedSuccessors dag a) = dag.Precedes := by
    funext dep id
    exact propext (mem_sortedSuccessors hnodup)
  rw [reachableFrom, reachFrom_eq_search,
    Worklist.mem_search_iff (fun _ => degrees_sortedSuccessors_le)
      (by rw [List.length_insertionSort]; exact Nat.lt_succ_self _),
    Worklist.Reaches, hstep, Dag.Reaches]
  simp only [List.mem_insertionSort]

end Reachability

/-! ## Marks -/

def Node.targets (node : Node) (value : Bool) : List String :=
  node.idsOf (if value then "true_targets" else "false_targets")

def NodeRun.unfinished (run : NodeRun) : Bool :=
  run.status != some .done && run.status != some .failed &&
    run.status != some .skipped

variable {id : String}

theorem mem_gateSkips_iff
    {c : Setting} (hnodup : c.dag.ids.Nodup) {e : Exec} {node : Node} :
    id ∈ c.gateSkips e node ↔
      id ∈ c.dag.ids ∧
        c.dag.Reaches (node.targets !(c.conditionValue e node none)) id ∧
        ¬ c.dag.Reaches (node.targets (c.conditionValue e node none)) id := by
  unfold Setting.gateSkips Node.targets
  dsimp only
  generalize c.conditionValue e node none = value
  rw [List.mem_filter, mem_reachableFrom_iff hnodup, Bool.and_eq_true,
    List.contains_iff_mem, Bool.not_eq_true', ← Bool.not_eq_true,
    List.contains_iff_mem, mem_reachableFrom_iff hnodup]
  cases value with
  | false =>
      simp only [Bool.not_false, if_true, Bool.false_eq_true, if_false]
      tauto
  | true =>
      simp only [Bool.not_true, if_true, Bool.false_eq_true, if_false]
      tauto

theorem skipWhere_of_mem
    {nodes : String → NodeRun} {ids : List String} {test : NodeRun → Bool} (hid : id ∈ ids) (htest : test (nodes id) = true) :
    (skipWhere nodes ids test id).status = some .skipped := by
  induction ids generalizing nodes with
  | nil => cases hid
  | cons head ids ih =>
      rw [skipWhere, List.foldl_cons]
      by_cases heq : head = id
      · subst heq
        rw [if_pos htest]
        rcases skipWhere_apply (setStatus nodes head .skipped) ids test head with
          hsame | ⟨-, -, hskipped⟩
        · exact (congrArg NodeRun.status hsame).trans (by simp [setStatus, setNode])
        · exact congrArg NodeRun.status hskipped
      · have hother : (if test (nodes head) then setStatus nodes head .skipped
            else nodes) id = nodes id := by
          split
          · rw [setStatus, setNode, if_neg (Ne.symm heq)]
          · rfl
        exact ih ((List.mem_cons.mp hid).resolve_left (Ne.symm heq))
          (by rw [hother]; exact htest)

/-- After its step a gate is done, and the other marked nodes that were not
finished are skipped. -/
theorem gateStep_marks
    {c : Setting} {e : Exec} {node : Node} {rest : List String}
    (hid : id ∈ c.gateSkips e node) (hopen : (e.nodes id).unfinished = true) :
    (c.gateStep e node rest).exec.statuses id =
      some (if id = node.id then .done else .skipped) := by
  have hexec : ∃ skipped out, (c.gateStep e node rest).exec =
      ((e.withNodes (propagateDepsAllSkipped c.dag
        (skipWhere e.nodes (c.gateSkips e node) NodeRun.unfinished)
          skipped)).settle node.id .done).output node.id out :=
    ⟨_, _, Setting.persistAfterNode_exec⟩
  obtain ⟨skipped, out, hexec⟩ := hexec
  have hmarked : (skipWhere e.nodes (c.gateSkips e node) NodeRun.unfinished
      id).status = some .skipped := skipWhere_of_mem hid hopen
  have hkept := (propagateDepsAllSkipped_skips c.dag
    (skipWhere e.nodes (c.gateSkips e node) NodeRun.unfinished) skipped).skips id
  have hstatus : (propagateDepsAllSkipped c.dag
      (skipWhere e.nodes (c.gateSkips e node) NodeRun.unfinished) skipped
        id).status = some .skipped := by
    rcases hkept with hsame | ⟨-, -, hskipped⟩
    · exact hsame.trans hmarked
    · exact hskipped
  have hcore : (c.gateStep e node rest).exec.statuses =
      ((e.withNodes (propagateDepsAllSkipped c.dag
        (skipWhere e.nodes (c.gateSkips e node) NodeRun.unfinished)
          skipped)).core.settle node.id .done).status := by
    rw [hexec]
    change (Exec.core _).status = _
    rw [core_output, core_settle]
  rw [hcore]
  by_cases heq : id = node.id
  · rw [if_pos heq]
    exact if_pos heq
  · rw [if_neg heq]
    exact (if_neg heq).trans hstatus

/-! ## Propagation -/

/-- The set holds each waiting node with dependencies, once each of these was
skipped before or is in the set. -/
def SkipClosed
    (dag : Dag) (nodes : String → NodeRun) (skipped : List String)
    (ids : Set String) : Prop :=
  ∀ node ∈ dag.nodes, (nodes node.id).waiting = true → node.dependsOn ≠ [] →
    (∀ dep ∈ node.dependsOn, dep ∈ skipped ∨ dep ∈ ids) → node.id ∈ ids

def newlySkipped
    (dag : Dag) (nodes : String → NodeRun) (skipped : List String) :
    Set String :=
  {id | (nodes id).waiting = true ∧
    (propagateDepsAllSkipped dag nodes skipped id).status = some .skipped}

/-- What the passes keep to: a node is as before, or it waited and is skipped,
listed and in every closed set; no other node has come onto the list. -/
structure Propagates
    (dag : Dag) (nodes : String → NodeRun) (skipped : List String)
    (p : Propagation) : Prop where
  same : ∀ id, p.nodes id = nodes id ∨ (nodes id).waiting = true ∧
    (p.nodes id).status = some .skipped ∧ id ∈ p.skipped
  kept : ∀ id ∈ skipped, id ∈ p.skipped
  listed : ∀ id ∈ p.skipped, id ∈ skipped ∨ (nodes id).waiting = true ∧
    (p.nodes id).status = some .skipped
  least : ∀ ids, SkipClosed dag nodes skipped ids → ∀ id,
    (nodes id).waiting = true → (p.nodes id).status = some .skipped → id ∈ ids

theorem not_waiting_of_skipped {run : NodeRun}
    (h : run.status = some .skipped) : run.waiting = false := by
  simp [NodeRun.waiting, NodeRun.current, h]

section Propagation

variable {dag : Dag} {nodes : String → NodeRun} {skipped : List String}

theorem propagates_start :
    Propagates dag nodes skipped { nodes, skipped } := by
  refine ⟨fun _ => Or.inl rfl, fun _ h => h, fun _ h => Or.inl h, ?_⟩
  intro ids _ id hwaiting hskipped
  rw [not_waiting_of_skipped hskipped] at hwaiting
  cases hwaiting

variable {p : Propagation}

theorem Propagates.node (h : Propagates dag nodes skipped p) {node : Node}
    (hnode : node ∈ dag.nodes) :
    Propagates dag nodes skipped (propagateNode p node) := by
  cases hfollows : FollowsSkipped p node with
  | false =>
      rw [propagateNode_of_not_follows hfollows]
      exact h
  | true =>
      rw [propagateNode_of_follows hfollows]
      unfold FollowsSkipped at hfollows
      rw [Bool.and_eq_true, Bool.and_eq_true] at hfollows
      obtain ⟨⟨hwaiting, hsome⟩, hall⟩ := hfollows
      have hbefore : (nodes node.id).waiting = true := by
        rcases h.same node.id with hsame | ⟨hwaited, -⟩
        · exact hsame ▸ hwaiting
        · exact hwaited
      have hnew : (setStatus p.nodes node.id .skipped node.id).status =
          some .skipped := by
        simp [setStatus, setNode]
      have hother : ∀ id, id ≠ node.id →
          setStatus p.nodes node.id .skipped id = p.nodes id :=
        fun id hne => by rw [setStatus, setNode, if_neg hne]
      refine ⟨?_, ?_, ?_, ?_⟩
      · intro id
        dsimp only
        by_cases heq : id = node.id
        · subst heq
          exact Or.inr ⟨hbefore, hnew, List.mem_cons_self⟩
        · rw [hother id heq]
          rcases h.same id with hsame | ⟨hwaited, hskipped, hmem⟩
          · exact Or.inl hsame
          · exact Or.inr ⟨hwaited, hskipped, List.mem_cons_of_mem _ hmem⟩
      · exact fun id hid => List.mem_cons_of_mem _ (h.kept id hid)
      · intro id hid
        dsimp only at hid ⊢
        by_cases heq : id = node.id
        · subst heq
          exact Or.inr ⟨hbefore, hnew⟩
        · rw [hother id heq]
          exact h.listed id ((List.mem_cons.mp hid).resolve_left heq)
      · intro ids hclosed id hwaited hskipped
        dsimp only at hskipped
        by_cases heq : id = node.id
        · subst heq
          refine hclosed node hnode hbefore (by simpa using hsome) ?_
          intro dep hdep
          have hmem := List.contains_iff_mem.mp (List.all_eq_true.mp hall dep hdep)
          rcases h.listed dep hmem with hold | ⟨hdepWaited, hdepSkipped⟩
          · exact Or.inl hold
          · exact Or.inr (h.least ids hclosed dep hdepWaited hdepSkipped)
        · rw [hother id heq] at hskipped
          exact h.least ids hclosed id hwaited hskipped

theorem Propagates.pass (h : Propagates dag nodes skipped p) :
    Propagates dag nodes skipped (propagatePass dag p) := by
  have hstart : Propagates dag nodes skipped { p with changed := false } :=
    ⟨h.same, h.kept, h.listed, h.least⟩
  unfold propagatePass
  refine List.foldlRecOn _ propagateNode
    (motive := Propagates dag nodes skipped) hstart fun q hq node hnode => ?_
  exact hq.node ((List.mem_insertionSort _).mp hnode)

theorem Propagates.passes
    (fuel : ℕ) (h : Propagates dag nodes skipped p) :
    Propagates dag nodes skipped (propagatePasses dag fuel p) := by
  induction fuel generalizing p with
  | zero => exact h
  | succ fuel ih =>
      rw [propagatePasses]
      split
      · exact ih h.pass
      · exact h.pass

theorem newlySkipped_isLeast :
    IsLeast {ids | SkipClosed dag nodes skipped ids}
      (newlySkipped dag nodes skipped) := by
  have hend : Propagates dag nodes skipped
      (propagatePasses dag (dag.nodes.length + 1) { nodes, skipped }) :=
    propagates_start.passes _
  have hstable : ∀ node ∈ dag.nodes, FollowsSkipped
      (propagatePasses dag (dag.nodes.length + 1) { nodes, skipped }) node =
        false :=
    (propagatePasses_stable _ _ (Nat.lt_succ_of_le List.countP_le_length)).2
  generalize hp : propagatePasses dag (dag.nodes.length + 1) { nodes, skipped } =
    p at hend hstable
  have hresult : propagateDepsAllSkipped dag nodes skipped = p.nodes := by
    rw [propagateDepsAllSkipped, hp]
  constructor
  · intro node hnode hwaiting hsome hall
    refine ⟨hwaiting, ?_⟩
    rw [hresult]
    by_contra hnot
    have hsame : p.nodes node.id = nodes node.id :=
      (hend.same node.id).resolve_right fun h => hnot h.2.1
    have hfollows : FollowsSkipped p node = true := by
      unfold FollowsSkipped
      rw [Bool.and_eq_true, Bool.and_eq_true]
      refine ⟨⟨hsame ▸ hwaiting, by simpa using hsome⟩, ?_⟩
      refine List.all_eq_true.mpr fun dep hdep => List.contains_iff_mem.mpr ?_
      rcases hall dep hdep with hold | ⟨hwaited, hskipped⟩
      · exact hend.kept dep hold
      · rw [hresult] at hskipped
        rcases hend.same dep with hdepSame | ⟨-, -, hmem⟩
        · rw [hdepSame] at hskipped
          rw [not_waiting_of_skipped hskipped] at hwaited
          cases hwaited
        · exact hmem
    rw [hstable node hnode] at hfollows
    cases hfollows
  · rintro ids hclosed id ⟨hwaiting, hskipped⟩
    rw [hresult] at hskipped
    exact hend.least ids hclosed id hwaiting hskipped

theorem propagateDepsAllSkipped_of_not_mem
    {id : String} (hid : id ∉ newlySkipped dag nodes skipped) :
    propagateDepsAllSkipped dag nodes skipped id = nodes id := by
  have hend : Propagates dag nodes skipped
      (propagatePasses dag (dag.nodes.length + 1) { nodes, skipped }) :=
    propagates_start.passes _
  exact (hend.same id).resolve_right fun h => hid ⟨h.1, h.2.1⟩

end Propagation

/-! ## Gates of valid graphs -/

/-- In every valid graph the search computes what its seeds reach, a gate marks
what targets not taken reach and taken ones do not, skips of it what is not
finished and is done itself, and the propagation ends with the least closed set
of waiting nodes skipped and all other nodes unchanged. -/
theorem gate_skips_exact
    {host : Host} {dag : Dag} (hvalid : validateDag host dag = []) :
    (∀ seeds id, id ∈ reachableFrom dag seeds ↔ dag.Reaches seeds id) ∧
    (∀ (c : Setting) (e : Exec) (node : Node) (rest : List String),
      c.dag = dag →
        (∀ id, id ∈ c.gateSkips e node ↔
          id ∈ dag.ids ∧
            dag.Reaches (node.targets !(c.conditionValue e node none)) id ∧
            ¬ dag.Reaches (node.targets (c.conditionValue e node none)) id) ∧
        ∀ id ∈ c.gateSkips e node, (e.nodes id).unfinished = true →
          (c.gateStep e node rest).exec.statuses id =
            some (if id = node.id then .done else .skipped)) ∧
    ∀ nodes skipped,
      (propagatePasses dag (dag.nodes.length + 1) { nodes, skipped }).changed =
          false ∧
        IsLeast {ids | SkipClosed dag nodes skipped ids}
          (newlySkipped dag nodes skipped) ∧
        ∀ id, id ∉ newlySkipped dag nodes skipped →
          propagateDepsAllSkipped dag nodes skipped id = nodes id := by
  have hnodup := (accepted_of_valid hvalid).ids_nodup
  refine ⟨fun seeds id => mem_reachableFrom_iff hnodup, ?_, ?_⟩
  · rintro c e node rest rfl
    exact ⟨fun id => mem_gateSkips_iff hnodup,
      fun id hid hopen => gateStep_marks hid hopen⟩
  · intro nodes skipped
    exact ⟨(propagatePasses_stable _ _ (Nat.lt_succ_of_le List.countP_le_length)).1,
      newlySkipped_isLeast, fun id hid => propagateDepsAllSkipped_of_not_mem hid⟩

def upstreamDag : Dag where
  graphId := "g"
  nodes :=
    [{ id := "tool", type := "tool", assignedEntity := "system" },
     { id := "gate"
       type := "gate"
       assignedEntity := "system"
       dependsOn := ["tool"]
       inputs := [("condition", .bool true),
         ("true_targets", .list [.str "tool"]), ("false_targets", .list [])] }]

theorem upstreamDag_valid : validateDag referenceHost upstreamDag = [] := by
  decide +kernel

/-- The search in the graph of two nodes finds the gate from the tool. -/
theorem upstreamDag_reaches :
    upstreamDag.Reaches ["tool"] "gate" :=
  ((gate_skips_exact upstreamDag_valid).1 ["tool"] "gate").mp (by decide +kernel)

/-- The gate whose condition is false: the target not taken reaches it and none
is taken.  It is not finished before its step, and done and not skipped after
it. -/
theorem upstream_gate_done :
    ∃ c s gate, run quietServices upstreamDag [] none none = .ok (c, s) ∧
      gate ∈ upstreamDag.nodes ∧
      ((c.steps 3 (.next s)).exec.nodes gate.id).unfinished = true ∧
      c.conditionValue (c.steps 3 (.next s)).exec gate none = false ∧
      (c.steps 4 (.next s)).exec.runState.nodeOutputs.getLast? =
        some (gate.id, .dict [("taken", .bool false)]) ∧
      upstreamDag.Reaches (gate.targets true) gate.id ∧
      ¬ upstreamDag.Reaches (gate.targets false) gate.id ∧
      (c.steps 4 (.next s)).exec.statuses gate.id = some .done := by
  have hreaches : upstreamDag.Reaches ["tool"] "gate" :=
    ⟨"tool", List.mem_singleton_self _, ReflTransGen.single
      (List.mem_singleton_self _)⟩
  refine ⟨_, _, upstreamDag.nodes.getLast (by decide),
    run_of_valid upstreamDag_valid, List.getLast_mem _, ?_, rfl, rfl, hreaches,
    ?_, ?_⟩
  · decide +kernel
  · rintro ⟨seed, hseed, -⟩
    cases hseed
  · decide +kernel

end Hydrogenuine.TaskGraph
