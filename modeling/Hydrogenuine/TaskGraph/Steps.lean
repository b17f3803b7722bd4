import Hydrogenuine.TaskGraph.Moves

/-!
# What the executor does in one step

A step over a node of the batch either leaves the run alone or starts the node
and makes moves.  The head of the main loop skips nodes and then fills the batch,
skips once more, advances a loop, or ends the call.
-/

namespace Hydrogenuine.TaskGraph

open Support Hydrogenuine.Core Relation

/-- The run when a step is taken from `s`. -/
def Sched.now (s : Sched) : Exec := { s.exec with tick := s.exec.tick + 1 }

namespace Setting

/-! ## The rest of the batch -/

/-- When the step over a node goes on, the rest of the batch is left, and when it
returns, the run is not completed. -/
structure Leaves (rest : List String) (flow : Flow) : Prop where
  queue : ∀ s, flow = .next s → s.queue = rest
  incomplete : ∀ e r, flow = .stop e (.ok r) → r.status ≠ some "completed"

section Leaves

variable {c : Setting} {node : Node} {rest : List String} {e : Exec}

theorem leaves_next : Leaves rest (.next ⟨rest, e⟩) := by
  constructor
  · intro s hs
    obtain rfl := Flow.next.inj hs
    rfl
  · intro e' r hr
    cases hr

theorem leaves_raise (err : PyError) : Leaves rest (.stop e (.error err)) := by
  constructor
  · intro s hs
    cases hs
  · intro e' r hr
    cases (Flow.stop.inj hr).2

theorem leaves_return {result : RunResult}
    (hstatus : result.status ≠ some "completed") :
    Leaves rest (.stop e (.ok result)) := by
  constructor
  · intro s hs
    cases hs
  · intro e' r hr
    obtain rfl := Except.ok.inj (Flow.stop.inj hr).2
    exact hstatus

theorem save_leaves (n : ℕ) {k : Flow} (hk : Leaves rest k) :
    Leaves rest (c.save e n k) := by
  unfold save
  split
  · exact leaves_raise _
  · exact hk

theorem saveAndReturn_leaves (ok : Bool)
    (hstatus : e.runState.finalStatus ≠ some "completed") :
    Leaves rest (c.saveAndReturn e ok) :=
  save_leaves 1 (leaves_return hstatus)

theorem persistAfterNode_leaves :
    Leaves rest (c.persistAfterNode e node rest) := by
  refine save_leaves 1 ?_
  split
  · exact leaves_return fun h => absurd (Option.some.inj h) (by decide)
  · exact leaves_next

theorem gateStep_leaves : Leaves rest (c.gateStep e node rest) :=
  persistAfterNode_leaves

theorem loopStep_leaves : Leaves rest (c.loopStep e node rest) := by
  unfold loopStep
  dsimp only
  split
  · exact leaves_raise _
  · exact save_leaves 1 leaves_next

theorem failureStep_leaves : Leaves rest (c.failureStep e node rest) := by
  unfold failureStep
  split
  · exact leaves_next
  · dsimp only
    split
    · exact saveAndReturn_leaves false fun h =>
        absurd (Option.some.inj h) (by decide)
    · exact save_leaves 1 leaves_next

theorem successStep_leaves (output : Option Items) :
    Leaves rest (c.successStep e node output rest) := by
  unfold successStep
  dsimp only
  split
  · exact leaves_raise _
  · exact persistAfterNode_leaves

theorem charge_leaves {output : Option Items} {k : Exec → Flow}
    (hk : ∀ e', Leaves rest (k e')) : Leaves rest (c.charge e output k) := by
  rcases charge_cases c e output k with ⟨err, heq⟩ | ⟨state, -, heq⟩
  · rw [heq]
    exact leaves_raise err
  · rw [heq]
    exact hk _

theorem dispatchStep_leaves (inputs : Items) :
    Leaves rest (c.dispatchStep e node inputs rest) := by
  rcases dispatchStep_cases c e node inputs rest with
    ⟨-, heq⟩ | ⟨-, ⟨error, -, heq⟩ | ⟨output, -, -, heq⟩⟩
  · rw [heq]
    exact charge_leaves fun _ => failureStep_leaves
  · rw [heq]
    exact charge_leaves fun _ => failureStep_leaves
  · rw [heq]
    exact charge_leaves fun _ => successStep_leaves output

theorem stakesStep_leaves (inputs : Items) :
    Leaves rest (c.stakesStep e node inputs rest) := by
  rcases stakesStep_cases c e node inputs rest with
    ⟨-, heq | heq⟩ | ⟨-, heq⟩ | ⟨-, result, heq | ⟨-, heq⟩⟩
  · rw [heq]
    exact dispatchStep_leaves inputs
  · rw [heq]
    exact dispatchStep_leaves inputs
  · rw [heq]
    exact dispatchStep_leaves inputs
  · rw [heq]
    exact leaves_next
  · rw [heq]
    exact dispatchStep_leaves inputs

theorem budgetStep_leaves (inputs : Items) :
    Leaves rest (c.budgetStep e node inputs rest) := by
  rcases budgetStep_cases c e node inputs rest with
    ⟨-, ⟨err, heq⟩ | ⟨err, heq⟩⟩ | ⟨-, heq⟩
  · rw [heq]
    exact leaves_raise err
  · rw [heq]
    exact saveAndReturn_leaves false fun h =>
      absurd (Option.some.inj h) (by decide)
  · rw [heq]
    exact stakesStep_leaves inputs

theorem bindingStep_leaves : Leaves rest (c.bindingStep e node rest) := by
  rcases bindingStep_cases c e node rest with
    ⟨-, heq⟩ | ⟨-, -, heq⟩ | ⟨-, -, heq⟩
  · rw [heq]
    exact save_leaves 1 leaves_next
  · rw [heq]
    exact budgetStep_leaves _
  · rw [heq]
    exact budgetStep_leaves _

theorem steeringStep_leaves : Leaves rest (c.steeringStep e node rest) := by
  rcases steeringStep_cases c e node rest with
    ⟨reason, -, heq | ⟨-, heq⟩⟩ | ⟨-, heq⟩
  · rw [heq]
    exact leaves_next
  · rw [heq]
    exact bindingStep_leaves
  · rw [heq]
    exact bindingStep_leaves

theorem nodeStep_leaves (nid : String) :
    Leaves rest (c.nodeStep e nid rest) := by
  unfold nodeStep
  split
  · exact leaves_raise _
  · dsimp only
    generalize canTransition _ .running = allowed
    split
    · exact leaves_next
    · split
      · exact gateStep_leaves
      · split
        · exact loopStep_leaves
        · exact steeringStep_leaves

end Leaves

/-! ## A node of the batch -/

/-- The step dispatches a started node that no gate has allowed. -/
def StepBypasses (c : Setting) (e : Exec) (node : Node) : Prop :=
  node.type ≠ "gate" ∧ node.type ≠ "loop" ∧
    c.Bypasses (startNode e node.id) node

/-- The step fails a started node that the gate denies. -/
def StepDenies (c : Setting) (e : Exec) (node : Node) : Prop :=
  node.type ≠ "gate" ∧ node.type ≠ "loop" ∧
    c.GateDenies (startNode e node.id) node

def processNode
    (c : Setting) (e : Exec) (node : Node) (rest : List String) : Flow :=
  if node.type == "gate" then c.gateStep e node rest
  else if node.type == "loop" then c.loopStep e node rest
  else c.steeringStep e node rest

theorem processNode_cases
    (c : Setting) (e : Exec) (node : Node) (rest : List String) :
    (node.type = "gate" ∧ c.processNode e node rest = c.gateStep e node rest) ∨
    (node.type = "loop" ∧ c.processNode e node rest = c.loopStep e node rest) ∨
    (node.type ≠ "gate" ∧ node.type ≠ "loop" ∧
      c.processNode e node rest = c.steeringStep e node rest) := by
  unfold processNode
  by_cases hgate : (node.type == "gate") = true
  · rw [if_pos hgate]
    exact Or.inl ⟨beq_iff_eq.mp hgate, rfl⟩
  · rw [if_neg hgate]
    rw [beq_iff_eq] at hgate
    by_cases hloop : (node.type == "loop") = true
    · rw [if_pos hloop]
      exact Or.inr (Or.inl ⟨beq_iff_eq.mp hloop, rfl⟩)
    · rw [if_neg hloop]
      rw [beq_iff_eq] at hloop
      exact Or.inr (Or.inr ⟨hgate, hloop, rfl⟩)

/-- The step over a node of the batch: the node is unknown, does not wait, or is
started and processed. -/
theorem nodeStep_ways
    (c : Setting) (e : Exec) (nid : String) (rest : List String) :
    (c.dag.byId nid = none ∧
      c.nodeStep e nid rest = .stop e (.error (.keyError nid))) ∨
    (¬Waits (e.core.status nid) ∧ c.nodeStep e nid rest = .next ⟨rest, e⟩) ∨
    ∃ node, c.dag.byId nid = some node ∧ Waits (e.core.status nid) ∧
      c.nodeStep e nid rest = c.processNode (startNode e nid) node rest := by
  cases hnode : c.dag.byId nid with
  | none =>
      refine Or.inl ⟨rfl, ?_⟩
      rw [nodeStep, hnode]
  | some node =>
      right
      have hcurrent : canTransition
          (if (e.nodes nid).current = .pending then .ready
            else (e.nodes nid).current) .running = true ↔
          Waits (e.core.status nid) := by
        have hwaiting := waiting_iff (e.nodes nid)
        rw [← show (e.nodes nid).status = e.core.status nid from rfl,
          ← hwaiting, NodeRun.waiting]
        cases (e.nodes nid).current <;> decide
      by_cases hwaits : Waits (e.core.status nid)
      · refine Or.inr ⟨node, rfl, hwaits, ?_⟩
        rw [nodeStep, hnode]
        dsimp only
        rw [hcurrent.mpr hwaits]
        rfl
      · refine Or.inl ⟨hwaits, ?_⟩
        rw [nodeStep, hnode]
        dsimp only
        rw [if_pos]
        rw [Bool.not_eq_true']
        exact Bool.eq_false_iff.mpr fun h => hwaits (hcurrent.mp h)

theorem startNode_node (e : Exec) (nid : String) :
    (startNode e nid).nodes nid =
      { status := some .running
        attemptCount := (e.nodes nid).attemptCount + 1
        error := [] } := by
  have hattempts := attempts_readyNode e nid
  have hnode : (startNode e nid).nodes nid =
      { status := some .running
        attemptCount := ((readyNode e nid).nodes nid).attemptCount + 1
        error := [] } := if_pos rfl
  rw [hnode, hattempts]

theorem nodeStep_cases
    (c : Setting) (e : Exec) (nid : String) (rest : List String) :
    (c.dag.byId nid = none ∧
      c.nodeStep e nid rest = .stop e (.error (.keyError nid))) ∨
    (¬Waits (e.core.status nid) ∧ c.nodeStep e nid rest = .next ⟨rest, e⟩) ∨
    ∃ node, c.dag.byId nid = some node ∧ Waits (e.core.status nid) ∧
      Moves c.dag node (c.StepBypasses e node)
        (MayFailWith c (c.nodeStep e nid rest) ∨ c.StepDenies e node)
        (c.LoopValue e node) (e.core.start nid) (c.nodeStep e nid rest).exec.core := by
  rcases c.nodeStep_ways e nid rest with
    hunknown | hskip | ⟨node, hnode, hwaits, hstep⟩
  · exact Or.inl hunknown
  · exact Or.inr (Or.inl hskip)
  · refine Or.inr (Or.inr ⟨node, hnode, hwaits, ?_⟩)
    obtain rfl := Dag.byId_id hnode
    have hrunning : ((startNode e node.id).nodes node.id).status =
        some .running := by
      rw [startNode_node]
    have hopen : ((startNode e node.id).nodes node.id).status ≠
        some .done := by
      rw [hrunning]
      decide
    have hstart : pendingStart (startNode e node.id).trace = some node.id :=
      pendingStart_concat e.trace (.started node.id e.statuses)
    rw [hstep, ← core_startNode]
    rcases c.processNode_cases (startNode e node.id) node rest with
      ⟨htype, heq⟩ | ⟨htype, heq⟩ | ⟨hgate, hloop, heq⟩
    · rw [heq]
      refine gateStep_moves ?_ hopen
      rw [htype]
      decide
    · rw [heq]
      exact loopStep_moves htype hrunning fun _ h => h
    · rw [heq]
      refine steeringStep_moves hloop ?_ hstart ?_ hopen
      · rintro (h | h)
        · exact Or.inl h
        · exact Or.inr ⟨hgate, hloop, h⟩
      · intro h
        exact ⟨hgate, hloop, h⟩

/-! ## The head of the main loop -/

/-- The active loop `node` has a body, all of it done or skipped. -/
structure BodyComplete
    (dag : Dag) (k : RunCore) (node : Node) : Prop where
  known : dag.byId node.id = some node
  isLoop : node.type = "loop"
  active : (k.loop node.id).active = true
  nonempty : node.body ≠ []
  complete : ∀ bid ∈ node.body,
    k.status bid = some .done ∨ k.status bid = some .skipped

def nextLoop (k : RunCore) (id : String) : LoopRun :=
  { k.loop id with
    iteration := (k.loop id).iteration + 1
    lastConditionValue := some true }

/-- What advancing a loop does: it is over, goes on, or its condition fails. -/
inductive Advances (dag : Dag) (node : Node) (k : RunCore) : RunCore → Prop where
  | over (hmax : (k.loop node.id).maxIterations <
        (k.loop node.id).iteration + 1) :
      Advances dag node k
        (k.setLoop node.id { k.loop node.id with active := false })
  | on (hmax : (k.loop node.id).iteration + 1 ≤
        (k.loop node.id).maxIterations) :
      Advances dag node k
        (((k.record (.evaluated node.id true)).setLoop node.id
          (nextLoop k node.id)).resetBody dag node.body)
  | off (hmax : (k.loop node.id).iteration + 1 ≤
        (k.loop node.id).maxIterations) :
      Advances dag node k
        ((k.record (.evaluated node.id false)).setLoop node.id
          { k.loop node.id with
            active := false
            lastConditionValue := some false })


theorem getLoopBodyComplete_complete
    {dag : Dag} {e : Exec} {node : Node}
    (h : getLoopBodyComplete dag e.nodes e.runState.loopState = some node) :
    BodyComplete dag e.core node := by
  obtain ⟨⟨id, loop⟩, hmem, hentry⟩ := List.exists_of_findSome?_eq_some h
  dsimp only at hentry
  split at hentry
  · cases hentry
  · rename_i hactive
    split at hentry
    · cases hentry
    · rename_i node' hnode
      split at hentry
      · rename_i htest
        obtain rfl := Option.some.inj hentry
        obtain rfl := Dag.byId_id hnode
        simp only [Bool.and_eq_true, beq_iff_eq, Bool.not_eq_true'] at htest
        obtain ⟨⟨htype, hnonempty⟩, hall⟩ := htest
        have hget := (e.runState.loopState.mem_entries_iff).mp hmem
        refine ⟨hnode, htype, ?_, ?_, ?_⟩
        · have hloop : e.core.loop node'.id = loop := by
            show (e.runState.loopState.get? node'.id).getD {} = loop
            rw [hget, Option.getD_some]
          rw [hloop]
          simpa using hactive
        · intro hnil
          rw [hnil] at hnonempty
          exact absurd hnonempty (by decide)
        · intro bid hbid
          have hone := List.all_eq_true.mp hall bid hbid
          simp only [Bool.and_eq_true, Bool.or_eq_true, beq_iff_eq] at hone
          exact hone.2
      · cases hentry

theorem advanceLoop_advances
    (c : Setting) (e : Exec) (node : Node) :
    Advances c.dag node e.core (c.advanceLoop e node).core := by
  unfold advanceLoop
  dsimp only
  split
  · rename_i hmax
    exact Advances.over hmax
  · rename_i hmax
    have hmax' := not_lt.mp hmax
    generalize c.conditionValue _ node _ = value
    cases value with
    | true =>
      rw [if_pos rfl, core_resetBody]
      exact Advances.on hmax'
    | false =>
      rw [if_neg Bool.false_ne_true]
      exact Advances.off hmax'

/-- A completed run: every node is settled without a failure, and no loop can be
advanced. -/
structure Final (dag : Dag) (k : RunCore) : Prop where
  settled : ∀ id ∈ dag.ids, k.status id = some .done ∨
    k.status id = some .skipped ∨ k.status id = some .blocked
  advanced : ∀ node, ¬BodyComplete dag k node

/-- What the search for a batch skips. -/
structure HeadSkips
    (dag : Dag) (status status' : String → Option NodeStatus) : Prop where
  skips : Skips dag Waits status status'
  spares : Spares dag status status'

/-- What the head of the main loop does. -/
inductive HeadMove (c : Setting) (k : RunCore) : Flow → Prop where
  | batch {status : String → Option NodeStatus} {queue : List String}
      {e : Exec}
      (hskips : HeadSkips c.dag k.status status)
      (hcore : e.core = { k with status := status })
      (hqueue : queue ≠ []) (hnodup : queue.Nodup)
      (hready : ∀ nid ∈ queue, ReadyIn c.dag status nid) :
      HeadMove c k (.next ⟨queue, e⟩)
  | skipped {status : String → Option NodeStatus} {e : Exec}
      (hskips : HeadSkips c.dag k.status status)
      (hcore : e.core = { k with status := status })
      (hsome : ∃ id ∈ c.dag.ids, Waits (k.status id) ∧
        status id = some .skipped) :
      HeadMove c k (.next ⟨[], e⟩)
  | advanced {status : String → Option NodeStatus} {node : Node} {e : Exec}
      (hskips : HeadSkips c.dag k.status status)
      (hcomplete : BodyComplete c.dag { k with status := status } node)
      (hcore : Advances c.dag node { k with status := status } e.core) :
      HeadMove c k (.next ⟨[], e⟩)
  | stopped {status : String → Option NodeStatus} {e : Exec}
      {result : Except PyError RunResult}
      (hskips : HeadSkips c.dag k.status status)
      (hcore : e.core = { k with status := status })
      (hfinal : ∀ r, result = .ok r → r.status = some "completed" →
        Final c.dag e.core) :
      HeadMove c k (.stop e result)

section Head

variable {c : Setting} {e : Exec}

variable {status : String → Option NodeStatus} {nodes : String → NodeRun} {k : RunCore}
  {dag : Dag}

theorem HeadSkips.refl :
    HeadSkips dag status status :=
  ⟨Skips.refl, Spares.refl⟩

theorem HeadSkips.trans {status status' status'' : String → Option NodeStatus}
    (h : HeadSkips dag status status') (h' : HeadSkips dag status' status'') :
    HeadSkips dag status status'' :=
  ⟨h.skips.trans h'.skips, h.spares.trans h'.spares⟩

theorem getReadyNodes_headSkips
    (dag : Dag) (failureMode : String) (nodes : String → NodeRun) :
    HeadSkips dag (fun id => (nodes id).status)
      fun id => ((getReadyNodes dag failureMode nodes).2 id).status :=
  ⟨(getReadyNodes_skips dag failureMode nodes).skips,
    getReadyNodes_spares dag failureMode nodes⟩

theorem skipFailedDependents_headSkips
    (dag : Dag) (nodes : String → NodeRun) :
    HeadSkips dag (fun id => (nodes id).status)
      fun id => (skipFailedDependents dag nodes id).status :=
  ⟨(skipFailedDependents_skips dag nodes).skips,
    skipFailedDependents_spares dag nodes⟩

theorem saveAndReturn_shape (ok : Bool) :
    ∃ result, c.saveAndReturn e ok = .stop e result ∧
      ∀ r, result = .ok r → r.status = e.runState.finalStatus := by
  unfold saveAndReturn save
  split
  · exact ⟨_, rfl, fun r hr => by cases hr⟩
  · refine ⟨_, rfl, fun r hr => ?_⟩
    obtain rfl := Except.ok.inj hr
    rfl

theorem saveAndReturn_head (ok : Bool)
    (hskips : HeadSkips c.dag k.status status)
    (hcore : e.core = { k with status := status })
    (hfinal : e.runState.finalStatus = some "completed" →
      Final c.dag e.core) :
    HeadMove c k (c.saveAndReturn e ok) := by
  have hshape : ∃ result, c.saveAndReturn e ok = .stop e result ∧
      ∀ r, result = .ok r → r.status = e.runState.finalStatus :=
    saveAndReturn_shape ok
  obtain ⟨result, heq, hresult⟩ := hshape
  rw [heq]
  refine HeadMove.stopped hskips hcore fun r hr hcompleted => hfinal ?_
  rw [← hresult r hr, hcompleted]

theorem computeFinalRunStatus_completed {failureMode : String}
    (h : computeFinalRunStatus dag nodes failureMode = "completed") :
    ∀ id ∈ dag.ids, (nodes id).status = some .done ∨
      (nodes id).status = some .skipped ∨ (nodes id).status = some .blocked := by
  unfold computeFinalRunStatus at h
  split at h
  · split at h
    · exact absurd h (by decide)
    · exact absurd h (by decide)
  · rename_i hfailed
    split at h
    · exact absurd h (by decide)
    · rename_i hterminal
      intro id hid
      have hnot : (nodes id).status ≠ some .failed := by
        intro hstatus
        exact hfailed (List.any_eq_true.mpr ⟨id, hid, by simp [hstatus]⟩)
      have hsettled : isTerminal (nodes id).current = true := by
        by_contra hopen
        rw [Bool.not_eq_true] at hopen
        exact hterminal (List.any_eq_true.mpr ⟨id, hid, by simp [hopen]⟩)
      unfold NodeRun.current at hsettled
      cases hstatus : (nodes id).status with
      | none =>
          rw [hstatus] at hsettled
          exact absurd hsettled (by decide)
      | some status =>
          rw [hstatus] at hsettled hnot
          cases status with
          | done => exact Or.inl rfl
          | skipped => exact Or.inr (Or.inl rfl)
          | blocked => exact Or.inr (Or.inr rfl)
          | failed => exact absurd rfl hnot
          | pending => exact absurd hsettled (by decide)
          | ready => exact absurd hsettled (by decide)
          | running => exact absurd hsettled (by decide)

theorem bodyComplete_found
    (hdag : Accepted c.dag)
    (h : getLoopBodyComplete c.dag e.nodes e.runState.loopState = none)
    (node : Node) : ¬BodyComplete c.dag e.core node := by
  intro hcomplete
  have hactive := hcomplete.active
  have hget : ∃ loop, e.runState.loopState.get? node.id = some loop ∧
      loop.active = true := by
    have hloop : e.core.loop node.id =
        (e.runState.loopState.get? node.id).getD {} := rfl
    rw [hloop] at hactive
    cases hlookup : e.runState.loopState.get? node.id with
    | none =>
        rw [hlookup] at hactive
        exact absurd hactive (by decide)
    | some loop =>
        rw [hlookup] at hactive
        exact ⟨loop, rfl, hactive⟩
  obtain ⟨loop, hlookup, hon⟩ := hget
  have hmem := (e.runState.loopState.mem_entries_iff).mpr hlookup
  have hnone := List.findSome?_eq_none_iff.mp h _ hmem
  dsimp only at hnone
  rw [hon, hcomplete.known] at hnone
  have htest : (node.type == "loop" && !node.body.isEmpty &&
      node.body.all fun bid => c.dag.ids.contains bid &&
        ((e.nodes bid).status == some .done ||
          (e.nodes bid).status == some .skipped)) = true := by
    rw [Bool.and_eq_true, Bool.and_eq_true]
    refine ⟨⟨by simpa using hcomplete.isLoop, ?_⟩, ?_⟩
    · simpa using hcomplete.nonempty
    · refine List.all_eq_true.mpr fun bid hbid => ?_
      obtain ⟨bodyNode, hbody, -⟩ := hdag.not_nested node
        (Dag.mem_of_byId hcomplete.known) hcomplete.isLoop bid hbid
      rw [Bool.and_eq_true]
      refine ⟨List.contains_iff_mem.mpr (Dag.mem_ids_of_byId hbody), ?_⟩
      rcases hcomplete.complete bid hbid with hdone | hskipped
      · have hstatus : (e.nodes bid).status = some .done := hdone
        simp [hstatus]
      · have hstatus : (e.nodes bid).status = some .skipped := hskipped
        simp [hstatus]
  rw [if_neg (by decide)] at hnone
  dsimp only at hnone
  rw [if_pos htest] at hnone
  cases hnone

theorem finish_head
    (hskips : HeadSkips c.dag k.status status)
    (hcore : e.core = { k with status := status })
    (hadvanced : (∀ id ∈ c.dag.ids, (e.nodes id).status = some .done ∨
        (e.nodes id).status = some .skipped ∨
          (e.nodes id).status = some .blocked) →
      ∀ node, ¬BodyComplete c.dag e.core node) :
    HeadMove c k (c.finish e) := by
  refine saveAndReturn_head _ hskips hcore fun hcompleted => ?_
  have hsettled := computeFinalRunStatus_completed
    (Option.some.inj hcompleted)
  exact ⟨hsettled, hadvanced hsettled⟩

theorem advanceOrFinish_head
    (hdag : Accepted c.dag)
    (hskips : HeadSkips c.dag k.status status)
    (hcore : e.core = { k with status := status }) :
    HeadMove c k (c.advanceOrFinish e) := by
  unfold advanceOrFinish
  split
  · rename_i node hnode
    have hcomplete := getLoopBodyComplete_complete hnode
    have hadvances := advanceLoop_advances c e node
    rw [hcore] at hcomplete hadvances
    exact HeadMove.advanced hskips hcomplete hadvances
  · rename_i hnone
    exact finish_head hskips hcore fun _ => bodyComplete_found hdag hnone

theorem ready_after_skips {failureMode : String}
    (hnone : (getReadyNodes c.dag failureMode nodes).1 = [])
    (hstatus : status = fun id =>
      ((getReadyNodes c.dag failureMode nodes).2 id).status)
    {nodes' : String → NodeRun}
    (hskips : Skips c.dag Waits status fun id => (nodes' id).status)
    (hsome : (getReadyNodes c.dag failureMode nodes').1 ≠ []) :
    ∃ id ∈ c.dag.ids, Waits (status id) ∧
      ((getReadyNodes c.dag failureMode nodes').2 id).status =
        some .skipped := by
  by_contra hnever
  push Not at hnever
  have hfirst := (getReadyNodes_skips c.dag failureMode nodes).skips
  have hsecond := (getReadyNodes_skips c.dag failureMode nodes').skips
  have hkeep : ∀ id, ((getReadyNodes c.dag failureMode nodes').2 id).status =
      status id := by
    intro id
    rcases (hskips.trans hsecond) id with heq | ⟨hid, hwaits, hskipped⟩
    · exact heq
    · exact absurd hskipped (hnever id hid hwaits)
  have hmid : ∀ id, (nodes' id).status = status id := by
    intro id
    rcases hskips id with heq | ⟨hid, hwaits, hskipped⟩
    · exact heq
    · have hsame : ((getReadyNodes c.dag failureMode nodes').2 id).status =
          (nodes' id).status := by
        rcases hsecond id with heq | ⟨-, hwaits', -⟩
        · exact heq
        · have hstill : Waits (some .skipped) := hskipped ▸ hwaits'
          rcases hstill with h | h | h
          · exact absurd h (by decide)
          · exact absurd h (by decide)
          · exact absurd h (by decide)
      exact absurd (hsame.trans hskipped) (hnever id hid hwaits)
  obtain ⟨nid, hnid⟩ := List.exists_mem_of_ne_nil _ hsome
  obtain ⟨node, hnode, rfl, hwaits, hdeps, hfailed⟩ := mem_getReadyNodes.mp hnid
  have hfound : node.id ∈ (getReadyNodes c.dag failureMode nodes).1 := by
    refine mem_getReadyNodes.mpr ⟨node, hnode, rfl, ?_, ?_, ?_⟩
    · rw [hkeep, hstatus] at hwaits
      exact hwaits
    · intro dep hdep
      obtain ⟨hid, hdone⟩ := mem_idsWith.mp (hdeps dep hdep)
      rw [hmid, hstatus] at hdone
      refine mem_idsWith.mpr ⟨hid, ?_⟩
      rcases hfirst dep with heq | ⟨-, -, hskipped⟩
      · exact heq.symm.trans hdone
      · exact absurd (hskipped.symm.trans hdone) (by decide)
    · intro hmode dep hdep hmem
      obtain ⟨hid, hfail⟩ := mem_idsWith.mp hmem
      refine hfailed hmode dep hdep (mem_idsWith.mpr ⟨hid, ?_⟩)
      rw [hmid, hstatus]
      rcases hfirst dep with heq | ⟨-, hwaits', -⟩
      · exact heq.trans hfail
      · exact absurd hfail hwaits'.open.2
  rw [hnone] at hfound
  cases hfound

theorem idleStep_head (hdag : Accepted c.dag)
    (hnone : (getReadyNodes c.dag c.dag.runPolicy.failureMode nodes).1 = [])
    (hnodes : e.nodes =
      (getReadyNodes c.dag c.dag.runPolicy.failureMode nodes).2)
    (hskips : HeadSkips c.dag k.status e.core.status)
    (hcore : e.core = { k with status := e.core.status }) :
    HeadMove c k (c.idleStep e) := by
  unfold idleStep
  dsimp only
  split
  · rename_i hrunning
    refine finish_head hskips hcore fun hsettled => ?_
    obtain ⟨id, hid, hstatus⟩ := List.any_eq_true.mp hrunning
    rw [beq_iff_eq] at hstatus
    rcases hsettled id hid with h | h | h
    · exact absurd (hstatus.symm.trans h) (by decide)
    · exact absurd (hstatus.symm.trans h) (by decide)
    · exact absurd (hstatus.symm.trans h) (by decide)
  · split
    · have hfailed := skipFailedDependents_skips c.dag e.nodes
      have hready := getReadyNodes_skips c.dag
        c.dag.runPolicy.failureMode (skipFailedDependents c.dag e.nodes)
      have hboth := hfailed.trans hready
      have hskips' := (hskips.trans
        (skipFailedDependents_headSkips c.dag e.nodes)).trans
          (getReadyNodes_headSkips c.dag c.dag.runPolicy.failureMode
            (skipFailedDependents c.dag e.nodes))
      have hcore' : ((e.withNodes (skipFailedDependents c.dag
          e.nodes)).withNodes (getReadyNodes c.dag
            c.dag.runPolicy.failureMode
            (skipFailedDependents c.dag e.nodes)).2).core =
          { k with status := fun id => ((getReadyNodes c.dag
            c.dag.runPolicy.failureMode
            (skipFailedDependents c.dag e.nodes)).2 id).status } := by
        have hafter := core_withNodes hboth
        rw [hcore] at hafter
        exact hafter
      split
      · exact advanceOrFinish_head hdag hskips' hcore'
      · rename_i hsome
        rw [List.isEmpty_iff] at hsome
        refine HeadMove.skipped hskips' hcore' ?_
        have hstatus : e.core.status = fun id =>
            ((getReadyNodes c.dag c.dag.runPolicy.failureMode nodes).2
              id).status := by
          rw [← hnodes]
          rfl
        obtain ⟨id, hid, hwaits, hskipped⟩ :=
          ready_after_skips hnone hstatus hfailed.skips hsome
        refine ⟨id, hid, ?_, hskipped⟩
        rcases hskips.skips id with heq | ⟨-, hwaits', -⟩
        · exact heq ▸ hwaits
        · exact hwaits'
    · exact advanceOrFinish_head hdag hskips hcore

def injected (c : Setting) (e : Exec) : Exec :=
  match (c.services.poll e.tick).inject with
  | some payload =>
      e.withItems fun state => PyVal.setItem state "_steering_inject" payload
  | none => e

def batchStep (c : Setting) (e : Exec) : Flow :=
  let found := getReadyNodes c.dag c.dag.runPolicy.failureMode e.nodes
  let e := e.withNodes found.2
  match c.capReached e with
  | some cap =>
      c.saveAndReturn
        ((e.final "failed").runError "MAX_NODE_EXECUTIONS_EXCEEDED"
          ("max_node_executions cap (" ++ toString cap ++ ") exceeded"))
        false
  | none =>
      if found.1.isEmpty then c.idleStep e
      else .next ⟨found.1.take c.dag.runPolicy.maxConcurrency.toNat, e⟩

def Polled (c : Setting) (e : Exec) : Prop :=
  (c.services.poll e.tick).cancel = none ∧
    c.runtimeExceeded (c.services.poll e.tick) = none

theorem headStep_cases (c : Setting) (e : Exec) :
    (∃ code message status,
      c.headStep e = c.saveAndReturn
        (((c.injected e).final status).runError code message) false ∧
      status ≠ "completed" ∧ code ≠ "MAX_NODE_EXECUTIONS_EXCEEDED") ∨
    (c.Polled e ∧ c.headStep e = c.batchStep (c.injected e)) := by
  unfold headStep Polled
  dsimp only
  cases (c.services.poll e.tick).cancel with
  | some payload =>
      exact Or.inl ⟨_, _, _, rfl, by decide, by decide⟩
  | none =>
      cases c.runtimeExceeded (c.services.poll e.tick) with
      | some pair =>
          exact Or.inl ⟨_, _, _, rfl, by decide, by decide⟩
      | none => exact Or.inr ⟨⟨rfl, rfl⟩, rfl⟩

theorem injected_core : (c.injected e).core = e.core := by
  unfold injected
  split
  · rfl
  · rfl

theorem batchStep_head (hdag : Accepted c.dag) :
    HeadMove c e.core (c.batchStep e) := by
  unfold batchStep
  dsimp only
  have hskips := getReadyNodes_headSkips c.dag c.dag.runPolicy.failureMode
    e.nodes
  have hafter := core_withNodes
    (getReadyNodes_skips c.dag c.dag.runPolicy.failureMode e.nodes)
  split
  · exact saveAndReturn_head false hskips hafter fun h =>
      absurd (Option.some.inj h) (by decide)
  · split
    · rename_i hempty
      rw [List.isEmpty_iff] at hempty
      exact idleStep_head hdag hempty rfl hskips hafter
    · rename_i hsome
      rw [List.isEmpty_iff] at hsome
      refine HeadMove.batch hskips hafter ?_ ?_ ?_
      · intro hnil
        rw [List.take_eq_nil_iff] at hnil
        rcases hnil with h | h
        · have hconcurrency := hdag.concurrency
          omega
        · exact hsome h
      · exact (getReadyNodes_nodup hdag.ids_nodup _ _).sublist
          (List.take_sublist _ _)
      · intro nid hnid
        exact getReadyNodes_ready hdag.ids_nodup (List.mem_of_mem_take hnid)

theorem headStep_head (hdag : Accepted c.dag) :
    HeadMove c e.core (c.headStep e) := by
  rcases headStep_cases c e with
    ⟨code, message, status, heq, hstatus, -⟩ | ⟨-, heq⟩
  · rw [heq]
    have hcore : (((c.injected e).final status).runError code message).core =
        { e.core with status := e.core.status } := by
      rw [core_runError, core_final, injected_core]
    exact saveAndReturn_head false HeadSkips.refl hcore fun h =>
      absurd (Option.some.inj h) hstatus
  · rw [heq]
    have hhead : HeadMove c (c.injected e).core
        (c.batchStep (c.injected e)) :=
      batchStep_head hdag
    rw [injected_core] at hhead
    exact hhead

end Head

/-! ## Steps of a run -/

/-- The step from `s` starts the node. -/
structure Starts (c : Setting) (s : Sched) (node : Node) : Prop where
  next : ∃ rest, s.queue = node.id :: rest
  known : c.dag.byId node.id = some node
  waits : Waits (s.exec.core.status node.id)

/-- A step is one of the head of the main loop, leaves the run alone, or starts
a node and makes its moves. -/
theorem step_cases
    {c : Setting} (hdag : Accepted c.dag) (s : Sched) :
    (s.queue = [] ∧ HeadMove c s.exec.core (c.step s)) ∨
    (∃ nid rest, s.queue = nid :: rest ∧ Leaves rest (c.step s) ∧
      (c.step s).exec.core = s.exec.core) ∨
    ∃ node rest, s.queue = node.id :: rest ∧ Leaves rest (c.step s) ∧
      c.Starts s node ∧
      Moves c.dag node (c.StepBypasses s.now node)
        (MayFailWith c (c.step s) ∨ c.StepDenies s.now node)
        (c.LoopValue s.now node) (s.exec.core.start node.id) (c.step s).exec.core := by
  obtain ⟨queue, e⟩ := s
  cases queue with
  | nil =>
      have hhead : HeadMove c e.core (c.step ⟨[], e⟩) :=
        headStep_head (e := { e with tick := e.tick + 1 }) hdag
      exact Or.inl ⟨rfl, hhead⟩
  | cons nid rest =>
      right
      have hleaves : Leaves rest (c.step ⟨nid :: rest, e⟩) :=
        nodeStep_leaves nid
      rcases c.nodeStep_cases { e with tick := e.tick + 1 } nid rest with
        ⟨-, heq⟩ | ⟨-, heq⟩ | ⟨node, hnode, hwaits, hmoves⟩
      · refine Or.inl ⟨nid, rest, rfl, hleaves, ?_⟩
        exact congrArg (fun flow => flow.exec.core) heq
      · refine Or.inl ⟨nid, rest, rfl, hleaves, ?_⟩
        exact congrArg (fun flow => flow.exec.core) heq
      · obtain rfl := Dag.byId_id hnode
        exact Or.inr ⟨node, rest, rfl, hleaves, ⟨⟨rest, rfl⟩, hnode, hwaits⟩,
          hmoves⟩

def after (c : Setting) : Flow → Flow
  | .next s => c.step s
  | .stop e result => .stop e result

theorem steps_succ {c : Setting} (n : ℕ) (flow : Flow) :
    c.steps (n + 1) flow = c.after (c.steps n flow) := by
  induction n generalizing flow with
  | zero =>
      cases flow with
      | next s => rfl
      | stop e result => rfl
  | succ n ih =>
      cases flow with
      | next s => exact ih (c.step s)
      | stop e result => rfl

theorem steps_invariant
    {c : Setting} {Q : Flow → Prop} {guard : Sched → Prop}
    (hstep : ∀ s, Q (.next s) → guard s → Q (c.step s))
    (n : ℕ) {flow : Flow}
    (hguard : ∀ m < n, ∀ s, c.steps m flow = .next s → guard s)
    (h : Q flow) : Q (c.steps n flow) := by
  induction n generalizing flow with
  | zero => exact h
  | succ n ih =>
      cases flow with
      | stop e result => exact h
      | next s =>
          refine ih ?_ (hstep s h (hguard 0 (Nat.succ_pos n) s rfl))
          intro m hm s' hs'
          exact hguard (m + 1) (Nat.succ_lt_succ hm) s' hs'

end Setting

end Hydrogenuine.TaskGraph
