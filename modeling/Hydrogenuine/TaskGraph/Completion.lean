import Hydrogenuine.Support.DepthFirst
import Hydrogenuine.TaskGraph.Termination

/-!
# Idle schedules

The validator's search for cycles leaves the dependencies of an accepted graph
well-founded.  The search for ready nodes propagates skips until no waiting node
has only skipped dependencies.  When it then finds no ready node, each node is
done or skipped, unless one waits for a done and for a skipped node.
-/

namespace Hydrogenuine.TaskGraph

open Support Hydrogenuine.Core

/-! ## The order of the dependencies -/

def Dag.dependencies (dag : Dag) (id : String) : List String :=
  (dag.byId id).elim [] Node.dependsOn

theorem dfs_eq_search (dag : Dag) (fuel : ℕ) :
    dfs dag fuel = DepthFirst.search dag.dependencies dag.ids fuel := by
  induction fuel with
  | zero => rfl
  | succ fuel ih =>
      funext nid colors
      rw [dfs, DepthFirst.search, List.foldl_ext _ (DepthFirst.visit dag.ids
        (DepthFirst.search dag.dependencies dag.ids fuel))]
      · rw [Dag.dependencies]
        generalize List.foldl _ _ _ = found
        obtain ⟨_ | _, colors'⟩ := found <;> rfl
      · intro acc dep _
        rw [DepthFirst.visit]
        cases hlookup : lookupEntry dep acc.2 with
        | none => rw [ih]
        | some gray => rfl

theorem detectCycle_eq_searchAll (dag : Dag) :
    detectCycle dag =
      (DepthFirst.searchAll dag.dependencies dag.ids).1 := by
  have hlength : dag.ids.length = dag.nodes.length := List.length_map _
  unfold detectCycle DepthFirst.searchAll DepthFirst.enter
  rw [dfs_eq_search, hlength]

/-- Dependencies are in the graph, and none of them goes in a circle. -/
structure Ordered (dag : Dag) : Prop where
  known : ∀ node ∈ dag.nodes, ∀ dep ∈ node.dependsOn, dep ∈ dag.ids
  acyclic : ∀ id ∈ dag.ids,
    Acc (DepthFirst.Precedes dag.dependencies dag.ids) id

variable {dag : Dag} {nodes : String → NodeRun} {p : Propagation} {node : Node}

theorem ordered_of_valid
    {host : Host} (h : validateDag host dag = []) :
    Ordered dag := by
  simp only [validateDag, List.append_eq_nil_iff, errorIf_eq_nil] at h
  obtain ⟨⟨⟨-, hnodes⟩, -⟩, hcycle⟩ := h
  constructor
  · intro node hmem
    obtain ⟨seen, hseen⟩ := (allNodeErrors_eq_nil hnodes).1 node hmem
    exact (nodeErrors_eq_nil hseen).2.1
  · rw [detectCycle_eq_searchAll] at hcycle
    exact DepthFirst.acc_of_searchAll hcycle

/-! ## Skips are propagated to the end -/

/-- The list holds exactly the nodes that are skipped. -/
def Marked (dag : Dag) (p : Propagation) : Prop :=
  ∀ id ∈ dag.ids, id ∈ p.skipped ↔ (p.nodes id).status = some .skipped

/-- The node is skipped because its dependencies are. -/
def FollowsSkipped (p : Propagation) (node : Node) : Bool :=
  (p.nodes node.id).waiting && !node.dependsOn.isEmpty &&
    node.dependsOn.all p.skipped.contains

theorem propagateNode_of_not_follows (h : FollowsSkipped p node = false) :
    propagateNode p node = p := by
  unfold FollowsSkipped at h
  rw [propagateNode, h]
  rfl

theorem propagateNode_of_follows (h : FollowsSkipped p node = true) :
    propagateNode p node =
      { nodes := setStatus p.nodes node.id .skipped
        skipped := node.id :: p.skipped
        changed := true } := by
  unfold FollowsSkipped at h
  rw [propagateNode, h]
  rfl

theorem propagateNode_marked (h : Marked dag p) (node : Node) :
    Marked dag (propagateNode p node) := by
  cases hfollows : FollowsSkipped p node with
  | false =>
      rw [propagateNode_of_not_follows hfollows]
      exact h
  | true =>
      rw [propagateNode_of_follows hfollows]
      intro id hid
      dsimp only
      by_cases heq : id = node.id
      · subst heq
        simp [setStatus, setNode]
      · rw [List.mem_cons, setStatus_status_of_ne heq, ← h id hid]
        simp [heq]

theorem propagatePass_marked (h : Marked dag p) :
    Marked dag (propagatePass dag p) := by
  unfold propagatePass
  refine List.foldlRecOn _ propagateNode (motive := Marked dag) h
    fun q hq node _ => ?_
  exact propagateNode_marked hq node

theorem propagatePasses_marked (fuel : ℕ) (h : Marked dag p) :
    Marked dag (propagatePasses dag fuel p) := by
  induction fuel generalizing p with
  | zero => exact h
  | succ fuel ih =>
      rw [propagatePasses]
      split
      · exact ih (propagatePass_marked h)
      · exact propagatePass_marked h

def waitingCount (dag : Dag) (nodes : String → NodeRun) : ℕ :=
  dag.nodes.countP fun node => (nodes node.id).waiting

theorem waitingCount_setStatus
    (hnode : node ∈ dag.nodes) (hwaiting : (nodes node.id).waiting = true) :
    waitingCount dag (setStatus nodes node.id .skipped) <
      waitingCount dag nodes := by
  apply countP_lt_of_exists
  · intro other _ hother
    by_cases heq : other.id = node.id
    · rw [heq]
      exact hwaiting
    · rw [setStatus, setNode, if_neg heq] at hother
      exact hother
  · refine ⟨node, hnode, hwaiting, ?_⟩
    rw [setStatus, setNode, if_pos rfl]
    rfl

theorem foldl_propagateNode (nodes : List Node) (hnodes : ∀ node ∈ nodes, node ∈ dag.nodes)
    (p : Propagation) :
    (nodes.foldl propagateNode p = p ∧ ∀ node ∈ nodes, FollowsSkipped p node = false) ∨
      ((nodes.foldl propagateNode p).changed = true ∧
        waitingCount dag (nodes.foldl propagateNode p).nodes <
          waitingCount dag p.nodes) := by
  induction nodes generalizing p with
  | nil => exact Or.inl ⟨rfl, List.forall_mem_nil _⟩
  | cons node nodes ih =>
      have hrest : ∀ node' ∈ nodes, node' ∈ dag.nodes :=
        fun node' h => hnodes node' (List.mem_cons_of_mem _ h)
      rw [List.foldl_cons]
      cases hfollows : FollowsSkipped p node with
      | false =>
          rw [propagateNode_of_not_follows hfollows]
          rcases ih hrest p with ⟨hsame, hnone⟩ | hchanged
          · refine Or.inl ⟨hsame, ?_⟩
            intro node' hmem
            rcases List.mem_cons.mp hmem with rfl | hmem
            · exact hfollows
            · exact hnone node' hmem
          · exact Or.inr hchanged
      | true =>
          right
          have hwaiting : (p.nodes node.id).waiting = true := by
            unfold FollowsSkipped at hfollows
            rw [Bool.and_eq_true, Bool.and_eq_true] at hfollows
            exact hfollows.1.1
          have hless := waitingCount_setStatus
            (hnodes node List.mem_cons_self) hwaiting
          rw [propagateNode_of_follows hfollows]
          rcases ih hrest
            { nodes := setStatus p.nodes node.id .skipped
              skipped := node.id :: p.skipped
              changed := true } with ⟨hsame, -⟩ | ⟨hchanged, hcount⟩
          · rw [hsame]
            exact ⟨rfl, hless⟩
          · exact ⟨hchanged, hcount.trans hless⟩

theorem propagatePasses_stable (fuel : ℕ) (p : Propagation)
    (hfuel : waitingCount dag p.nodes < fuel) :
    (propagatePasses dag fuel p).changed = false ∧
      ∀ node ∈ dag.nodes, FollowsSkipped (propagatePasses dag fuel p) node = false := by
  induction fuel generalizing p with
  | zero => omega
  | succ fuel ih =>
      have hsorted : ∀ node ∈ dag.nodes.insertionSort fun a b => a.id ≤ b.id,
          node ∈ dag.nodes := fun node h => (List.mem_insertionSort _).mp h
      rw [propagatePasses]
      rcases foldl_propagateNode _ hsorted { p with changed := false } with
        ⟨hsame, hnone⟩ | ⟨hchanged, hcount⟩
      · have hpass : propagatePass dag p = { p with changed := false } := hsame
        rw [hpass]
        exact ⟨rfl, fun node hnode => hnone node ((List.mem_insertionSort _).mpr hnode)⟩
      · have hpass : (propagatePass dag p).changed = true := hchanged
        rw [if_pos hpass]
        have hless : waitingCount dag (propagatePass dag p).nodes <
            waitingCount dag p.nodes := hcount
        exact ih _ (by omega)

theorem getReadyNodes_stable (hdag : Ordered dag) (failureMode : String)
    (nodes : String → NodeRun) (hnode : node ∈ dag.nodes)
    (hwaits : Waits ((getReadyNodes dag failureMode nodes).2 node.id).status)
    (hsome : node.dependsOn ≠ []) :
    ∃ dep ∈ node.dependsOn,
      ((getReadyNodes dag failureMode nodes).2 dep).status ≠ some .skipped := by
  by_contra hall
  push Not at hall
  have hstart : Marked dag { nodes, skipped := idsWith dag nodes .skipped } := by
    intro id hid
    rw [mem_idsWith]
    exact ⟨fun h => h.2, fun h => ⟨hid, h⟩⟩
  have hmarked := propagatePasses_marked (dag.nodes.length + 1) hstart
  have hstable := (propagatePasses_stable (dag.nodes.length + 1)
    { nodes, skipped := idsWith dag nodes .skipped }
    (Nat.lt_succ_of_le List.countP_le_length)).2 node hnode
  have hfollows : FollowsSkipped (propagatePasses dag (dag.nodes.length + 1)
      { nodes, skipped := idsWith dag nodes .skipped }) node = true := by
    unfold FollowsSkipped
    rw [Bool.and_eq_true, Bool.and_eq_true]
    refine ⟨⟨(waiting_iff _).mpr hwaits, ?_⟩, ?_⟩
    · simpa using hsome
    · refine List.all_eq_true.mpr fun dep hdep => ?_
      rw [List.contains_iff_mem, hmarked dep (hdag.known node hnode dep hdep)]
      exact hall dep hdep
  rw [hstable] at hfollows
  cases hfollows

theorem propagateDepsAllSkipped_of_stable {skipped : List String}
    (h : ∀ node ∈ dag.nodes, FollowsSkipped { nodes, skipped } node = false) :
    propagateDepsAllSkipped dag nodes skipped = nodes := by
  have hfold : ∀ xs : List Node, (∀ node ∈ xs, node ∈ dag.nodes) →
      xs.foldl propagateNode { nodes, skipped } = { nodes, skipped } := by
    intro xs hxs
    induction xs with
    | nil => rfl
    | cons node xs ih =>
        rw [List.foldl_cons, propagateNode_of_not_follows
          (h node (hxs node List.mem_cons_self))]
        exact ih fun node' hnode' => hxs node' (List.mem_cons_of_mem _ hnode')
  have hpass : propagatePass dag { nodes, skipped } = { nodes, skipped } :=
    hfold _ fun node hnode => (List.mem_insertionSort _).mp hnode
  rw [propagateDepsAllSkipped, propagatePasses, hpass]
  rfl

theorem getReadyNodes_twice (hdag : Ordered dag) (failureMode : String)
    (nodes : String → NodeRun) :
    (getReadyNodes dag failureMode
      (getReadyNodes dag failureMode nodes).2).2 =
        (getReadyNodes dag failureMode nodes).2 := by
  refine propagateDepsAllSkipped_of_stable fun node hnode => ?_
  by_contra hfollows
  rw [Bool.not_eq_false, FollowsSkipped, Bool.and_eq_true, Bool.and_eq_true,
    waiting_iff] at hfollows
  obtain ⟨⟨hwaits, hsome⟩, hall⟩ := hfollows
  obtain ⟨dep, hdep, hnot⟩ := getReadyNodes_stable hdag failureMode nodes hnode
    hwaits (by simpa using hsome)
  have hskipped := List.all_eq_true.mp hall dep hdep
  exact hnot (mem_idsWith.mp (List.contains_iff_mem.mp hskipped)).2

theorem skipFailedDependents_of_no_failure
    (h : ∀ id, (nodes id).status ≠ some .failed) :
    skipFailedDependents dag nodes = nodes := by
  unfold skipFailedDependents
  refine List.foldlRecOn dag.nodes _ (motive := fun nodes' => nodes' = nodes) rfl
    fun nodes' hsame node _ => ?_
  subst hsame
  refine if_neg ?_
  rw [Bool.and_eq_true, List.any_eq_true]
  rintro ⟨-, dep, -, hfailed⟩
  rw [Bool.and_eq_true, beq_iff_eq] at hfailed
  exact h dep hfailed.2

/-! ## Statuses in an undisturbed run -/

def Healthy (status : String → Option NodeStatus) : Prop :=
  ∀ id, Waits (status id) ∨ status id = some .done ∨ status id = some .skipped

section Healthy

variable {dag : Dag} {status status' : String → Option NodeStatus}

theorem Healthy.skips {P : Option NodeStatus → Prop}
    (h : Healthy status) (hskips : Skips dag P status status') :
    Healthy status' := by
  intro id
  rcases hskips id with heq | ⟨-, -, hskipped⟩
  · rw [heq]
    exact h id
  · exact Or.inr (Or.inr hskipped)

theorem Healthy.ne
    (h : Healthy status) {other : NodeStatus} (hopen : ¬Waits (some other))
    (hdone : other ≠ .done) (hskipped : other ≠ .skipped) (id : String) :
    status id ≠ some other := by
  intro heq
  rcases h id with hwaits | hsettled | hsettled
  · exact hopen (heq ▸ hwaits)
  · exact hdone (Option.some.inj (heq.symm.trans hsettled))
  · exact hskipped (Option.some.inj (heq.symm.trans hsettled))

theorem Healthy.advances {k k' : RunCore} {node : Node}
    (h : Healthy k.status) (hadvances : Setting.Advances dag node k k') :
    Healthy k'.status := by
  cases hadvances with
  | «over» => exact h
  | off => exact h
  | on =>
      intro id
      by_cases hbody : (node.body.contains id && dag.ids.contains id) = true
      · exact Or.inl (Or.inr (Or.inl (if_pos hbody)))
      · have hsame : ∀ k : RunCore,
            (k.resetBody dag node.body).status id = k.status id :=
          fun k => if_neg hbody
        rw [hsame]
        exact h id

theorem not_waits
    {other : NodeStatus} (hpending : other ≠ .pending) (hready : other ≠ .ready) :
    ¬Waits (some other) := by
  rintro (h | h | h)
  · cases h
  · exact hpending (Option.some.inj h)
  · exact hready (Option.some.inj h)

theorem healthy_of_done
    (id : String) (hdone : status id = some .done)
    (hothers : ∀ id', id' ≠ id → Waits (status id') ∨
      status id' = some .done ∨ status id' = some .skipped) :
    Healthy status := by
  intro id'
  by_cases heq : id' = id
  · rw [heq]
    exact Or.inr (Or.inl hdone)
  · exact hothers id' heq

end Healthy

theorem computeFinalRunStatus_of_settled (failureMode : String)
    (h : ∀ id ∈ dag.ids, (nodes id).status = some .done ∨
      (nodes id).status = some .skipped) :
    computeFinalRunStatus dag nodes failureMode = "completed" := by
  have hfailed : ¬(dag.ids.any fun id =>
      (nodes id).status == some .failed) = true := by
    rw [List.any_eq_true]
    rintro ⟨id, hid, hstatus⟩
    rcases h id hid with hsettled | hsettled
    · rw [hsettled] at hstatus
      cases hstatus
    · rw [hsettled] at hstatus
      cases hstatus
  have hopen : ¬(dag.ids.any fun id => !isTerminal (nodes id).current) = true := by
    rw [List.any_eq_true]
    rintro ⟨id, hid, hstatus⟩
    rw [NodeRun.current] at hstatus
    rcases h id hid with hsettled | hsettled
    · rw [hsettled] at hstatus
      cases hstatus
    · rw [hsettled] at hstatus
      cases hstatus
  rw [computeFinalRunStatus, if_neg hfailed, if_neg hopen]

/-- No waiting node depends on a node that is done and on one that is skipped. -/
def Unmixed (dag : Dag) (status : String → Option NodeStatus) : Prop :=
  ∀ node ∈ dag.nodes, Waits (status node.id) →
    ¬((∃ dep ∈ node.dependsOn, status dep = some .done) ∧
      ∃ dep ∈ node.dependsOn, status dep = some .skipped)

/-- When no node is ready, none waits, unless one depends on a done and on a
skipped node.  A first waiting node in the order of the dependencies would have
only done or only skipped ones. -/
theorem settled_of_idle (hdag : Ordered dag) (hnodup : dag.ids.Nodup) {failureMode : String}
    (hhealthy : Healthy fun id => (nodes id).status)
    (hnone : (getReadyNodes dag failureMode nodes).1 = [])
    (hunmixed : Unmixed dag fun id =>
      ((getReadyNodes dag failureMode nodes).2 id).status) :
    ∀ id ∈ dag.ids,
      ((getReadyNodes dag failureMode nodes).2 id).status = some .done ∨
        ((getReadyNodes dag failureMode nodes).2 id).status =
          some .skipped := by
  have hskips := (getReadyNodes_skips dag failureMode nodes).skips
  have hafter := hhealthy.skips hskips
  intro id hid
  induction hdag.acyclic id hid with
  | intro id _ ih =>
      rcases hafter id with hwaits | hsettled
      · exfalso
        obtain ⟨node, hnode, rfl⟩ := List.mem_map.mp hid
        have hbefore : ∀ dep ∈ node.dependsOn,
            ((getReadyNodes dag failureMode nodes).2 dep).status = some .done ∨
              ((getReadyNodes dag failureMode nodes).2 dep).status =
                some .skipped := by
          intro dep hdep
          have hknown := hdag.known node hnode dep hdep
          refine ih dep ⟨?_, hknown⟩ hknown
          rw [Dag.dependencies, (Dag.byId_eq_some hnodup).mpr hnode]
          exact hdep
        by_cases hall : ∀ dep ∈ node.dependsOn,
            ((getReadyNodes dag failureMode nodes).2 dep).status = some .done
        · have hdone : ∀ dep ∈ node.dependsOn,
              dep ∈ dag.ids ∧ (nodes dep).status = some .done := by
            intro dep hdep
            refine ⟨hdag.known node hnode dep hdep, ?_⟩
            rcases hskips dep with heq | ⟨-, -, hskipped⟩
            · exact heq.symm.trans (hall dep hdep)
            · exact absurd (hskipped.symm.trans (hall dep hdep)) (by decide)
          have hready : node.id ∈ (getReadyNodes dag failureMode nodes).1 := by
            refine mem_getReadyNodes.mpr ⟨node, hnode, rfl, hwaits, ?_, ?_⟩
            · exact fun dep hdep => mem_idsWith.mpr (hdone dep hdep)
            · intro _ dep hdep hfailed
              exact absurd ((mem_idsWith.mp hfailed).2.symm.trans
                (hdone dep hdep).2) (by decide)
          rw [hnone] at hready
          cases hready
        · push Not at hall
          obtain ⟨dep, hdep, hnot⟩ := hall
          have hdepSkipped := (hbefore dep hdep).resolve_left hnot
          obtain ⟨dep', hdep', hnot'⟩ := getReadyNodes_stable hdag failureMode
            nodes hnode hwaits (List.ne_nil_of_mem hdep)
          have hdepDone := (hbefore dep' hdep').resolve_right hnot'
          exact hunmixed node hnode hwaits
            ⟨⟨dep', hdep', hdepDone⟩, dep, hdep, hdepSkipped⟩
      · exact hsettled

end Hydrogenuine.TaskGraph
