import Hydrogenuine.TaskGraph.Caps

/-!
# Nodes that follow a loop

A loop node is done as soon as its condition has been evaluated for the first time,
and a body node after its first iteration.  A node outside the bodies that depends
on one of them is then ready although the loop goes on.  In every call whose batches
pick such a node only when the loops it follows are over, it is dispatched only
then.
-/

namespace Hydrogenuine.TaskGraph

open Support Hydrogenuine.Core Relation

/-! ## Following a loop -/

def Outside (dag : Dag) (node : Node) : Prop :=
  ∀ loop ∈ dag.nodes, loop.type = "loop" → node.id ∉ loop.body

/-- The node depends on a loop node or on a node of its body. -/
structure Follows (dag : Dag) (node loop : Node) : Prop where
  known : loop ∈ dag.nodes
  isLoop : loop.type = "loop"
  depends : ∃ dep ∈ node.dependsOn, dep = loop.id ∨ dep ∈ loop.body

/-- The loop has been evaluated and is not active. -/
structure LoopRun.Over (loop : LoopRun) : Prop where
  evaluated : loop.lastConditionValue ≠ none
  inactive : loop.active = false

/-- The loops that a node outside the bodies follows are over. -/
def FollowsOver (dag : Dag) (loops : String → LoopRun) (node : Node) : Prop :=
  Outside dag node → ∀ loop, Follows dag node loop → (loops loop.id).Over

/-- A node that is dispatched follows only loops that are over. -/
def DispatchedAfterLoops (dag : Dag) (e : Exec) : Prop :=
  ∀ nid runState, (nid, runState) ∈ e.calls →
    ∀ node, dag.byId nid = some node →
      FollowsOver dag (fun id => (runState.loopState.get? id).getD {}) node

/-- What is picked follows loops that are over and that no node before it
in the batch starts again. -/
def PicksAfterLoops
    (dag : Dag) (loops : String → LoopRun) (queue : List String) : Prop :=
  ∀ before nid after, queue = before ++ nid :: after →
    ∀ node, dag.byId nid = some node → node.type ≠ "gate" →
      node.type ≠ "loop" → FollowsOver dag loops node ∧
        (Outside dag node → ∀ loop, Follows dag node loop → loop.id ∉ before)

/-! ## Loops that are over -/

section Moves

variable {dag : Dag} {node : Node} {ungated mayFail : Prop}
  {value : Bool → Prop} {k k' : RunCore}

theorem over_move {id : String}
    (hmove : Move dag node ungated mayFail value k k') (hne : id ≠ node.id)
    (hover : (k.loop id).Over) : (k'.loop id).Over := by
  cases hmove with
  | skip => exact hover
  | block => exact hover
  | fail => exact hover
  | retry => exact hover
  | complete => exact hover
  | check => exact hover
  | dispatch => exact hover
  | loopOff =>
      rw [RunCore.loop_settle, RunCore.loop_setLoop, if_neg hne]
      exact hover
  | loopOn =>
      rw [RunCore.loop_settle, RunCore.loop_resetBody, RunCore.loop_setLoop,
        if_neg hne]
      exact hover
  | @loopStop loopNode _ _ _ _ =>
      rw [RunCore.loop_setLoop]
      by_cases heq : id = loopNode.id
      · rw [if_pos heq, ← heq]
        exact ⟨hover.evaluated, rfl⟩
      · rw [if_neg heq]
        exact hover

theorem over_moves {id : String}
    (hmoves : Moves dag node ungated mayFail value k k') (hne : id ≠ node.id)
    (hover : (k.loop id).Over) : (k'.loop id).Over := by
  induction hmoves with
  | refl => exact hover
  | tail _ hmove ih => exact over_move hmove hne ih

theorem PicksAfterLoops.tail {nid : String} {rest : List String}
    {loops loops' : String → LoopRun}
    (h : PicksAfterLoops dag loops (nid :: rest))
    (hkeep : ∀ id, id ≠ nid → (loops id).Over → (loops' id).Over) :
    PicksAfterLoops dag loops' rest := by
  intro before nid' after hrest node' hnode' hgate hloop
  have hsplit : nid :: rest = (nid :: before) ++ nid' :: after := by
    rw [hrest, List.cons_append]
  obtain ⟨hover, hbefore⟩ := h (nid :: before) nid' after hsplit node' hnode'
    hgate hloop
  constructor
  · intro houtside loop hfollows
    have hne : loop.id ≠ nid := by
      intro heq
      exact hbefore houtside loop hfollows (heq ▸ List.mem_cons_self)
    exact hkeep loop.id hne (hover houtside loop hfollows)
  · intro houtside loop hfollows hmem
    exact hbefore houtside loop hfollows (List.mem_cons_of_mem nid hmem)

theorem picksAfterLoops_nil {loops : String → LoopRun} :
    PicksAfterLoops dag loops [] := by
  intro before nid after hnil
  cases before with
  | nil => cases hnil
  | cons id before => cases hnil

theorem picksAfterLoops_singleton {nid : String} {loops : String → LoopRun}
    (h : ∀ node, dag.byId nid = some node → node.type ≠ "loop" →
      FollowsOver dag loops node) :
    PicksAfterLoops dag loops [nid] := by
  intro before nid' after hsplit node hnode _ hloop
  rcases List.cons_eq_append_iff.mp hsplit with ⟨rfl, hcons⟩ | ⟨_, _, hnil⟩
  · obtain ⟨rfl, -⟩ := List.cons.inj hcons
    exact ⟨h node hnode hloop, fun _ _ _ hmem => nomatch hmem⟩
  · cases (List.append_eq_nil_iff.mp hnil.symm).2

end Moves

namespace Setting

variable {c : Setting} {s : Sched}

/-- A node is picked only when the loops that it follows are over. -/
def PicksOver (c : Setting) (s : Sched) : Prop :=
  s.queue = [] → c.Polled s.now → c.capReached s.exec = none →
    PicksAfterLoops c.dag s.exec.loop (c.batch s.exec)

/-- What is kept along a run: the dispatched nodes and the batch follow loops that
are over. -/
structure AfterLoops (c : Setting) (flow : Flow) : Prop where
  dispatched : DispatchedAfterLoops c.dag flow.exec
  picked : ∀ s, flow = .next s →
    PicksAfterLoops c.dag s.exec.loop s.queue

theorem HeadMove.loop_eq {k : RunCore} {s' : Sched}
    (h : HeadMove c k (.next s')) (hqueue : s'.queue ≠ []) :
    s'.exec.loop = k.loop := by
  cases h with
  | batch _ hcore =>
      exact congrArg RunCore.loop hcore
  | skipped => exact absurd rfl hqueue
  | advanced => exact absurd rfl hqueue

theorem loopState_callState (c : Setting) (s : Sched) (node : Node) :
    (c.callState s node).loopState = s.exec.runState.loopState := by
  unfold callState atDispatch
  rw [lockEscrow_eq]
  cases c.escrowAmount _ node with
  | none => rfl
  | some amount => rfl

theorem AfterLoops.dispatched_step
    (h : c.AfterLoops (.next s)) : DispatchedAfterLoops c.dag (c.step s).exec := by
  intro nid runState hmem node hnode
  rcases (mem_calls_step s (nid, runState)).mp hmem with
    hold | ⟨node', hdispatches, heq⟩
  · exact h.dispatched nid runState hold node hnode
  · obtain ⟨rfl, rfl⟩ := Prod.mk.inj heq
    have hknown := hdispatches.starts.known
    rw [hnode] at hknown
    obtain rfl := Option.some.inj hknown
    obtain ⟨rest, hqueue⟩ := hdispatches.starts.next
    rw [loopState_callState]
    exact (h.picked s rfl [] node.id rest hqueue node hnode
      hdispatches.notGate hdispatches.notLoop).1

theorem AfterLoops.step
    (hdag : Accepted c.dag) (h : c.AfterLoops (.next s))
    (hpicks : c.PicksOver s) : c.AfterLoops (c.step s) := by
  refine ⟨h.dispatched_step, fun s' hs' => ?_⟩
  have hpicked := h.picked s rfl
  rcases step_cases hdag s with
    ⟨hempty, hhead⟩ | ⟨nid, rest, hqueue, hleaves, hcore⟩ |
      ⟨node, rest, hqueue, hleaves, -, hmoves⟩
  · obtain ⟨queue, e⟩ := s
    obtain rfl : queue = [] := hempty
    rcases headStep_queue hs' with hnone | ⟨hpolled, hbelow, hbatch⟩
    · rw [hnone]
      exact picksAfterLoops_nil
    · rw [hs'] at hhead
      by_cases hnil : s'.queue = []
      · rw [hnil]
        exact picksAfterLoops_nil
      · rw [hhead.loop_eq hnil, hbatch]
        exact hpicks rfl hpolled hbelow
  · rw [hleaves.queue s' hs']
    rw [hqueue] at hpicked
    rw [hs'] at hcore
    refine hpicked.tail fun id _ hover => ?_
    have hloop : s'.exec.loop id = s.exec.loop id :=
      congrArg (fun k : RunCore => k.loop id) hcore
    rw [hloop]
    exact hover
  · rw [hleaves.queue s' hs']
    rw [hqueue] at hpicked
    rw [hs'] at hmoves
    refine hpicked.tail fun id hne hover => ?_
    exact over_moves hmoves hne hover

end Setting

/-! ## Calls -/

/-- In every call of a valid graph whose batches pick nodes only when the loops
they follow are over, nodes are dispatched only then. -/
theorem dispatched_after_loops
    (host : Host) (dag : Dag) (hvalid : validateDag host dag = [])
    (call : Call) (hcall : IsCall dag call)
    (hpicks : ∀ m < call.length, ∀ s,
      call.setting.steps m (.next call.start) = .next s →
        call.setting.PicksOver s) :
    DispatchedAfterLoops dag call.flow.exec := by
  have hdag := hcall.accepted hvalid
  obtain ⟨hqueue, -, -⟩ := hcall.start_fresh
  have hstart : call.setting.AfterLoops (.next call.start) := by
    constructor
    · intro nid runState hmem
      have hnone : (nid, runState) ∈ call.start.exec.calls := hmem
      rw [hcall.calls_start] at hnone
      cases hnone
    · intro s hs
      obtain rfl := Flow.next.inj hs
      rw [hqueue]
      exact picksAfterLoops_nil
  have hrun : call.setting.AfterLoops call.flow :=
    Setting.steps_invariant
      (fun s hs hguard => Setting.AfterLoops.step hdag hs hguard) call.length
      hpicks hstart
  rw [← hcall.dag_eq]
  exact hrun.dispatched

/-! ## A loop whose result is reduced -/

def segmentFanout : Node where
  id := "segment_fanout"
  type := "loop"
  assignedEntity := "loop_controller"
  inputs := [("condition", .bool true), ("body", .list [.str "segment_review"])]
  policy := { maxIterations := some 2 }

def reduce : Node where
  id := "reduce"
  type := "agent"
  assignedEntity := "summarizer_agent"
  dependsOn := ["segment_fanout"]

def reviewDag : Dag where
  graphId := "planned_document_review_fanout_v1"
  nodes :=
    [segmentFanout,
     { id := "segment_review"
       type := "agent"
       assignedEntity := "worker_agent"
       dependsOn := ["segment_fanout"] },
     reduce]

theorem reviewDag_valid : validateDag referenceHost reviewDag = [] := by
  decide +kernel

def loopingServices : Services :=
  { quietServices with evaluate := fun _ _ _ => .ok (.bool true) }

/-- A call of `run` on the review under these services. -/
def reviewCall : Call where
  setting :=
    { services := loopingServices
      dag := reviewDag
      mode := .run
      graphInputs := reviewDag.inputs }
  start := runStart loopingServices reviewDag.inputs
  length := 4

theorem reviewCall_isCall : IsCall reviewDag reviewCall := by
  have hrun : run loopingServices reviewDag [] none none =
      .ok (reviewCall.setting, reviewCall.start) :=
    run_of_valid reviewDag_valid
  exact IsCall.run 4 hrun rfl

theorem reduce_follows : Follows reviewDag reduce segmentFanout where
  known := List.mem_cons_self
  isLoop := rfl
  depends := ⟨"segment_fanout", List.mem_singleton.mpr rfl, Or.inl rfl⟩

theorem loop_of_reviewDag {loop : Node} (hmem : loop ∈ reviewDag.nodes)
    (hloop : loop.type = "loop") : loop = segmentFanout := by
  rcases List.mem_cons.mp hmem with rfl | hmem
  · rfl
  · have hagent : ∀ node ∈ reviewDag.nodes.tail, node.type = "agent" := by
      decide
    rw [hagent loop hmem] at hloop
    exact absurd hloop (by decide)

theorem reduce_outside : Outside reviewDag reduce := by
  unfold Outside
  decide +kernel

/-- The segments are reduced while the loop is active. -/
theorem reduced_early :
    IsCall reviewDag reviewCall ∧
      ¬DispatchedAfterLoops reviewDag reviewCall.flow.exec := by
  refine ⟨reviewCall_isCall, fun h => ?_⟩
  have hcalls : reviewCall.flow.exec.calls.map (fun entry =>
      (entry.1, ((entry.2.loopState.get? "segment_fanout").getD {}).active)) =
        [("reduce", true)] := by
    decide +kernel
  obtain ⟨⟨nid, runState⟩, hmem, heq⟩ :=
    List.mem_map.mp (hcalls ▸ List.mem_singleton.mpr rfl)
  obtain ⟨hnid, hactive⟩ := Prod.mk.inj heq
  obtain rfl : nid = "reduce" := hnid
  have hover := h "reduce" runState hmem reduce rfl reduce_outside
    segmentFanout reduce_follows
  have hinactive := hover.inactive
  rw [show segmentFanout.id = "segment_fanout" from rfl, hactive] at hinactive
  cases hinactive

/-- When the condition is false at once, the loop is over before the node that
reduces is picked. -/
theorem reduced_after :
    DispatchedAfterLoops reviewDag (quietCall reviewDag 4).flow.exec := by
  refine dispatched_after_loops referenceHost reviewDag reviewDag_valid
    (quietCall reviewDag 4) (quietCall_isCall 4 reviewDag_valid) ?_
  intro m hm s hs hempty hpolled hbelow
  have hlt : m < 4 := hm
  obtain rfl | rfl | rfl | rfl : m = 0 ∨ m = 1 ∨ m = 2 ∨ m = 3 := by omega
  · obtain rfl := Flow.next.inj hs
    refine picksAfterLoops_singleton fun node hnode hloop => ?_
    obtain rfl := Option.some.inj hnode
    exact absurd rfl hloop
  · obtain rfl := Flow.next.inj hs
    cases hempty
  · obtain rfl := Flow.next.inj hs
    refine picksAfterLoops_singleton fun node hnode _ _ loop hfollows => ?_
    obtain rfl := loop_of_reviewDag hfollows.known hfollows.isLoop
    exact ⟨nofun, rfl⟩
  · obtain rfl := Flow.next.inj hs
    cases hempty

end Hydrogenuine.TaskGraph
