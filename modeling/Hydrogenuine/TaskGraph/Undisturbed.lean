import Hydrogenuine.TaskGraph.Budgets
import Hydrogenuine.TaskGraph.Caps
import Hydrogenuine.TaskGraph.Completion
import Hydrogenuine.TaskGraph.Escrow

/-!
# Undisturbed runs

The dispatcher always succeeds, and nothing pauses, steers, charges, caps, cancels
or interrupts the run.  Such a run completes, with every node done or skipped, when
its started nodes are served and the schedule never idles with a node that depends
on a done and on a skipped one.
-/

namespace Hydrogenuine.TaskGraph

open Support Hydrogenuine.Core

theorem ordered_of_run
    {services : Services} {dag : Dag} {given : Items} {reviewed : Option Dag}
    {stakesPolicy : Option PyVal} {c : Setting} {s : Sched}
    (h : run services dag given reviewed stakesPolicy = .ok (c, s)) :
    Ordered c.dag ∧ c.services = services := by
  unfold run at h
  dsimp only at h
  split at h
  · cases h
  · split at h
    · cases h
    · rename_i hvalid
      obtain rfl := (Prod.mk.inj (Except.ok.inj h)).1
      have hnil : validateDag services.host (reviewed.getD dag) = [] := by
        simpa using hvalid
      exact ⟨ordered_of_valid hnil, rfl⟩

/-! ## One step of an undisturbed run -/

namespace Setting

variable {c : Setting} {e : Exec} {node : Node} (rest : List String)

/-- The dispatcher always succeeds, and there are no pauses, overseer, budgets or
caps; nothing cancels the run, and everything is saved. -/
structure Undisturbed (c : Setting) : Prop where
  dispatches : ∀ e node inputs, ∃ output,
    (c.callDispatcher e node inputs).1 = .ok output ∧ notOk output = false
  steering : ∀ tick node reason,
    c.services.beforeNode tick node ≠ .ok (some reason)
  budgets : c.dag.runPolicy.budgets = none
  executions : c.dag.runPolicy.maxNodeExecutions = none
  runtime : c.dag.runPolicy.maxTotalRuntimeS = none
  pauses : ∀ node ∈ c.dag.nodes, c.shouldPauseAfter node = false
  cancels : ∀ tick, (c.services.poll tick).cancel = none
  saves : ∀ tick n, c.services.saveError tick n = none

/-- What a started node that is dispatched needs: its inputs are resolved, or
passed on unresolved, the gate does not deny it, and its answer can be charged and
stored. -/
structure Served (c : Setting) (e : Exec) (node : Node) : Prop where
  blocked : c.Binds e node "blocked"
  strict : c.Binds e node "strict"
  granted : ¬c.Denies e.tick (c.stakesState e) node
  answered : ∀ output,
    (c.answer e node).1 = .ok output →
    (node.type = "agent" → hasResult (outputsOf output) ≠ none) ∧
      ∃ state, c.services.applyAfterDispatch c.dag.runPolicy (c.answer e node).2
        output = .ok state

theorem save_none (hclear : c.Undisturbed) (n : ℕ) (k : Flow) :
    c.save e n k = k := by
  rw [save, hclear.saves]

theorem persist_goesOn
    (hclear : c.Undisturbed) (hnode : node ∈ c.dag.nodes) :
    c.persistAfterNode e node rest = .next ⟨rest, e⟩ := by
  rw [persistAfterNode, save_none hclear, hclear.pauses node hnode]
  rfl

theorem tick_lockEscrow (c : Setting) (e : Exec) (node : Node) :
    (c.lockEscrow e node).tick = e.tick := by
  rw [lockEscrow_eq]
  cases c.escrowAmount e.tick node with
  | none => rfl
  | some amount => rfl

theorem afterGate_done
    (hclear : c.Undisturbed) (hnode : node ∈ c.dag.nodes) {inputs : Items}
    (herror : (e.nodes node.id).error = [])
    (hanswered : ∀ output,
      (c.callDispatcher (c.lockEscrow e node) node inputs).1 = .ok output →
      (node.type = "agent" → hasResult (outputsOf output) ≠ none) ∧
        ∃ state, c.services.applyAfterDispatch c.dag.runPolicy
          (c.callDispatcher (c.lockEscrow e node) node inputs).2 output =
            .ok state) :
    ∃ e', c.afterGate e node inputs rest = .next ⟨rest, e'⟩ ∧
      e'.core.status = (e.core.settle node.id .done).status := by
  have hnodes : (c.lockEscrow e node).nodes = e.nodes := nodes_lockEscrow
  unfold afterGate
  rcases dispatchStep_cases c (c.lockEscrow e node) node inputs rest with
    ⟨hbad, -⟩ | ⟨-, ⟨error, hbad, -⟩ | ⟨output, hanswer, -, heq⟩⟩
  · rw [hnodes] at hbad
    exact absurd herror hbad
  · obtain ⟨output, houtput, hok⟩ :=
      hclear.dispatches (c.lockEscrow e node) node inputs
    rw [hbad output houtput] at hok
    cases hok
  · obtain ⟨hagent, state, hstate⟩ := hanswered output hanswer
    have hcharge : c.charge (c.called (c.lockEscrow e node) node inputs) output
        (fun e => c.successStep e node output rest) =
      c.successStep ((c.called (c.lockEscrow e node) node inputs).withItems
        fun _ => state) node output rest := by
      have hcalled : (c.called (c.lockEscrow e node) node inputs).runState.state =
          (c.callDispatcher (c.lockEscrow e node) node inputs).2 := rfl
      rw [charge, hcalled, hstate]
    rw [heq, hcharge]
    rcases successStep_cases c ((c.called (c.lockEscrow e node) node
        inputs).withItems fun _ => state) node output rest with
      ⟨err, htype, hnone, -⟩ | ⟨v, hsuccess⟩
    · exact absurd hnone (hagent htype)
    · rw [hsuccess, persist_goesOn rest hclear hnode]
      refine ⟨_, rfl, ?_⟩
      rw [core_settleEscrowLock, core_output, core_settle, core_withItems,
        core_called, core_lockEscrow]
      rfl

theorem steeringStep_done
    (hclear : c.Undisturbed) (hnode : node ∈ c.dag.nodes)
    (herror : (e.nodes node.id).error = []) (hbudget : c.WithinBudget e)
    (hserved : c.Served e node) :
    ∃ e', c.steeringStep e node rest = .next ⟨rest, e'⟩ ∧
      e'.core.status = (e.core.settle node.id .done).status := by
  have hafter : ∀ e₁ : Exec, e₁.nodes = e.nodes → e₁.tick = e.tick →
      e₁.core.status = e.core.status →
      (c.lockEscrow e₁ node).runState = c.atDispatch e node →
      ∃ e', c.afterGate e₁ node (c.resolveInputs e node) rest =
          .next ⟨rest, e'⟩ ∧
        e'.core.status = (e.core.settle node.id .done).status := by
    intro e₁ hnodes htick hstatus hstate
    have hcall : c.callDispatcher (c.lockEscrow e₁ node) node
        (c.resolveInputs e node) = c.answer e node := by
      have hticks : (c.lockEscrow e₁ node).tick = e.tick := by
        rw [tick_lockEscrow, htick]
      have hsame : (c.lockEscrow e₁ node).nodes = e.nodes := by
        rw [nodes_lockEscrow, hnodes]
      rw [callDispatcher, hticks, hsame, hstate]
      rfl
    obtain ⟨e', heq, hdone⟩ := afterGate_done (e := e₁) rest hclear hnode
      (hnodes ▸ herror) (by
        rw [hcall]
        exact hserved.answered)
    refine ⟨e', heq, hdone.trans ?_⟩
    unfold RunCore.settle
    rw [hstatus]
  rcases steeringStep_cases c e node rest with
    ⟨reason, hreason, -⟩ | ⟨-, hsteering⟩
  · exact absurd hreason (hclear.steering _ _ _)
  rcases bindingStep_cases c e node rest with
    ⟨hblocked, -⟩ | ⟨-, hstrict, -⟩ | ⟨-, -, hbinding⟩
  · exact absurd hserved.blocked hblocked
  · exact absurd hserved.strict hstrict
  rcases budgetStep_cases c e node (c.resolveInputs e node) rest with
    ⟨hover, -⟩ | ⟨-, hchecked⟩
  · exact absurd hbudget hover
  rw [hsteering, hbinding, hchecked]
  rcases stakesStep_cases c (e.withItems fun _ => c.stakesState e) node
      (c.resolveInputs e node) rest with
    ⟨-, hway | hway⟩ | ⟨-, hway⟩ | ⟨hdenies, -⟩
  · rw [hway]
    exact hafter _ rfl rfl rfl rfl
  · rw [hway]
    refine hafter _ rfl rfl rfl ?_
    rw [lockEscrow_record]
    rfl
  · rw [hway]
    refine hafter _ rfl rfl rfl ?_
    rw [lockEscrow_record]
    rfl
  · exact absurd hdenies hserved.granted

theorem gateStep_healthy
    (hclear : c.Undisturbed) (hnode : node ∈ c.dag.nodes)
    (hothers : ∀ id, id ≠ node.id → Waits (e.core.status id) ∨
      e.core.status id = some .done ∨ e.core.status id = some .skipped) :
    ∃ e', c.gateStep e node rest = .next ⟨rest, e'⟩ ∧
      Healthy e'.core.status := by
  obtain ⟨nodes, out, hskips, hexec⟩ := gateStep_exec (P := Open) c e node rest
    (fun _ => Waits.open) fun _ _ hopen _ => hopen
  have hnext : c.gateStep e node rest =
      .next ⟨rest, (c.gateStep e node rest).exec⟩ := by
    have hstep : ∃ e', c.gateStep e node rest = .next ⟨rest, e'⟩ :=
      ⟨_, persist_goesOn rest hclear hnode⟩
    obtain ⟨e', heq⟩ := hstep
    rw [heq]
    rfl
  refine ⟨_, hnext, ?_⟩
  rw [hexec, core_output, core_settle]
  refine healthy_of_done node.id (if_pos rfl) fun id hne => ?_
  have hsame : (((e.withNodes nodes).core.settle node.id .done).status id) =
      (nodes id).status := if_neg hne
  rw [hsame]
  rcases hskips.skips id with heq | ⟨-, -, hskipped⟩
  · have hstatus : (nodes id).status = e.core.status id := heq
    rw [hstatus]
    exact hothers id hne
  · exact Or.inr (Or.inr hskipped)

theorem loopStep_healthy
    (hclear : c.Undisturbed)
    (hitem : ∃ item, ensureLoopItem e.runState.state node.id = .ok item)
    (hothers : ∀ id, id ≠ node.id → Waits (e.core.status id) ∨
      e.core.status id = some .done ∨ e.core.status id = some .skipped) :
    ∃ e', c.loopStep e node rest = .next ⟨rest, e'⟩ ∧
      Healthy e'.core.status := by
  obtain ⟨⟨state, item⟩, hitem⟩ := hitem
  unfold loopStep
  rw [hitem]
  dsimp only
  rw [save_none hclear]
  refine ⟨_, rfl, ?_⟩
  rw [core_output, core_settle]
  refine healthy_of_done node.id (if_pos rfl) fun id hne => ?_
  have hsettle : ∀ k : RunCore,
      (k.settle node.id .done).status id = k.status id := fun k => if_neg hne
  rw [hsettle]
  generalize c.conditionValue _ node _ = v
  cases v with
  | true =>
      rw [if_pos rfl, core_resetBody, core_setLoop, core_record, core_withItems]
      by_cases hbody : (node.body.contains id && c.dag.ids.contains id) = true
      · exact Or.inl (Or.inr (Or.inl (if_pos hbody)))
      · have hsame : ∀ k : RunCore,
            (k.resetBody c.dag node.body).status id = k.status id :=
          fun k => if_neg hbody
        rw [hsame]
        exact hothers id hne
  | false =>
      rw [if_neg Bool.false_ne_true, core_setLoop, core_record, core_withItems]
      exact hothers id hne

/-! ## One step of the main loop -/

/-- The head of the main loop finds no ready node and no loop to advance. -/
structure Idle (c : Setting) (s : Sched) : Prop where
  queue : s.queue = []
  ready : c.ready s.exec = []
  loops : getLoopBodyComplete c.dag (c.searched s.exec).nodes
    s.exec.runState.loopState = none

/-- What an undisturbed run relies on at a step: started nodes are served, started
loops can be recorded, and no idle schedule waits for a node that depends on a done
and on a skipped one. -/
structure Unhindered (c : Setting) (s : Sched) : Prop where
  served : ∀ node, c.Starts s node → node.type ≠ "gate" →
    node.type ≠ "loop" → c.Served (startNode s.now node.id) node
  loops : ∀ node, c.Starts s node → node.type = "loop" → ∃ item,
    ensureLoopItem s.exec.runState.state node.id = .ok item
  joins : c.Idle s → Unmixed c.dag (c.searched s.exec).core.status

def Settled (dag : Dag) (status : String → Option NodeStatus) : Prop :=
  ∀ id ∈ dag.ids, status id = some .done ∨ status id = some .skipped

/-- The run goes on in health, or is completed. -/
def Completing (c : Setting) : Flow → Prop
  | .next s => Healthy s.exec.core.status ∧ ∀ id ∈ s.queue, id ∈ c.dag.ids
  | .stop e result => Settled c.dag e.core.status ∧ ∃ r : RunResult,
      result = .ok r ∧ r.status = some "completed"

theorem finish_completing
    (hclear : c.Undisturbed) (hsettled : Settled c.dag e.core.status) :
    c.Completing (c.finish e) := by
  have hstatus : computeFinalRunStatus c.dag e.nodes
      c.dag.runPolicy.failureMode = "completed" :=
    computeFinalRunStatus_of_settled _ hsettled
  rw [finish, saveAndReturn, save_none hclear, hstatus]
  exact ⟨hsettled, _, rfl, rfl⟩

theorem advanceOrFinish_completing
    (hclear : c.Undisturbed) (hhealthy : Healthy e.core.status)
    (hsettled : getLoopBodyComplete c.dag e.nodes e.runState.loopState = none →
      Settled c.dag e.core.status) :
    c.Completing (c.advanceOrFinish e) := by
  unfold advanceOrFinish
  split
  · rename_i node _
    exact ⟨hhealthy.advances (advanceLoop_advances c e node),
      List.forall_mem_nil _⟩
  · rename_i hnone
    exact finish_completing hclear (hsettled hnone)

theorem idleStep_completing
    (hclear : c.Undisturbed) (hdag : Ordered c.dag)
    (hhealthy : Healthy e.core.status)
    (hsettled : getLoopBodyComplete c.dag (c.searched e).nodes
      e.runState.loopState = none → Settled c.dag (c.searched e).core.status) :
    c.Completing (c.idleStep (c.searched e)) := by
  have hskips := getReadyNodes_skips c.dag c.dag.runPolicy.failureMode e.nodes
  have hafter : Healthy (c.searched e).core.status :=
    hhealthy.skips hskips.skips
  have hnever : ∀ id, ((c.searched e).nodes id).status ≠ some .running :=
    hafter.ne (not_waits (by decide) (by decide)) (by decide) (by decide)
  have hunfailed : ∀ id, ((c.searched e).nodes id).status ≠ some .failed :=
    hafter.ne (not_waits (by decide) (by decide)) (by decide) (by decide)
  have hsame : skipFailedDependents c.dag (c.searched e).nodes =
      (c.searched e).nodes :=
    skipFailedDependents_of_no_failure hunfailed
  have htwice : (getReadyNodes c.dag c.dag.runPolicy.failureMode
      (c.searched e).nodes).2 = (c.searched e).nodes :=
    getReadyNodes_twice hdag _ e.nodes
  unfold idleStep
  dsimp only
  split
  · rename_i hrunning
    obtain ⟨id, -, hstatus⟩ := List.any_eq_true.mp hrunning
    exact absurd (beq_iff_eq.mp hstatus) (hnever id)
  · split
    · have hnodes : ((c.searched e).withNodes (skipFailedDependents c.dag
          (c.searched e).nodes)).nodes = (c.searched e).nodes := hsame
      rw [hnodes, htwice]
      by_cases hempty : (getReadyNodes c.dag c.dag.runPolicy.failureMode
          (c.searched e).nodes).1.isEmpty = true
      · rw [if_pos hempty]
        exact advanceOrFinish_completing hclear hafter hsettled
      · rw [if_neg hempty]
        exact ⟨hafter, List.forall_mem_nil _⟩
    · exact advanceOrFinish_completing hclear hafter hsettled

theorem headStep_polled (hpolled : c.Polled e) :
    c.headStep e = c.batchStep (c.injected e) := by
  unfold headStep
  dsimp only
  rw [hpolled.1, hpolled.2]
  rfl

theorem headStep_completing
    (hclear : c.Undisturbed) (hdag : Ordered c.dag)
    (hnodup : c.dag.ids.Nodup) (hhealthy : Healthy e.core.status)
    (hjoins : c.ready e = [] →
      getLoopBodyComplete c.dag (c.searched e).nodes e.runState.loopState =
        none → Unmixed c.dag (c.searched e).core.status) :
    c.Completing (c.headStep e) := by
  have hpolled : c.Polled e := by
    refine ⟨hclear.cancels e.tick, ?_⟩
    rw [runtimeExceeded, hclear.runtime]
  have hcap : c.capReached (c.injected e) = none := by
    rw [capReached, hclear.executions]
    cases c.mode with
    | run => rfl
    | resume => rfl
  have hcore : (c.injected e).core = e.core := injected_core
  have hnodes := nodes_injected c e
  have hloops : (c.injected e).runState.loopState = e.runState.loopState :=
    congrArg RunCore.loops hcore
  have hsearched : (c.searched (c.injected e)).nodes = (c.searched e).nodes :=
    congrArg (fun nodes => (getReadyNodes c.dag
      c.dag.runPolicy.failureMode nodes).2) hnodes
  rw [← hcore] at hhealthy
  rw [headStep_polled hpolled]
  rcases batchStep_cases c (c.injected e) with
    ⟨hreached, -⟩ | ⟨-, hready, heq⟩ | ⟨-, heq⟩
  · exact absurd hcap hreached
  · rw [heq]
    refine idleStep_completing hclear hdag hhealthy fun hnone => ?_
    rw [hsearched, hloops] at hnone
    rw [ready_injected] at hready
    have hunmixed := hjoins hready hnone
    rw [hcore] at hhealthy
    have hsettled := settled_of_idle hdag hnodup hhealthy hready hunmixed
    intro id hid
    have hid' := hsettled id hid
    rw [← hnodes] at hid'
    exact hid'
  · rw [heq]
    have hskips := getReadyNodes_skips c.dag c.dag.runPolicy.failureMode
      (c.injected e).nodes
    refine ⟨hhealthy.skips hskips.skips, ?_⟩
    intro id hid
    obtain ⟨node, hnode, rfl, -⟩ := mem_getReadyNodes.mp (List.mem_of_mem_take hid)
    exact List.mem_map_of_mem hnode

theorem withinBudget_of_none
    {floats : FloatHost} {services : Services}
    (hservices : c.services = Budgets.enforcing floats services)
    (hclear : c.Undisturbed) : c.WithinBudget e := by
  refine ⟨Budgets.setDefaultUsed e.runState.state, ?_⟩
  rw [hservices]
  show Budgets.checkBeforeDispatch floats c.dag.runPolicy e.runState.state = _
  rw [Budgets.checkBeforeDispatch, Budgets.getBudgets, hclear.budgets]
  rfl

theorem step_completing
    {floats : FloatHost} {services : Services} {s : Sched}
    (hservices : c.services = Budgets.enforcing floats services)
    (hclear : c.Undisturbed) (hdag : Ordered c.dag)
    (hnodup : c.dag.ids.Nodup) (h : c.Completing (.next s))
    (hfree : c.Unhindered s) : c.Completing (c.step s) := by
  obtain ⟨queue, e⟩ := s
  obtain ⟨hhealthy, hknown⟩ := h
  cases queue with
  | nil =>
      exact headStep_completing (e := { e with tick := e.tick + 1 }) hclear hdag
        hnodup hhealthy fun hready hnone => hfree.joins ⟨rfl, hready, hnone⟩
  | cons nid rest =>
      have hrest : ∀ id ∈ rest, id ∈ c.dag.ids :=
        fun id hid => hknown id (List.mem_cons_of_mem _ hid)
      obtain ⟨known, hmem, hid⟩ := List.mem_map.mp
        (hknown nid List.mem_cons_self)
      have hbyId := (Dag.byId_eq_some hnodup).mpr hmem
      rw [hid] at hbyId
      rcases c.nodeStep_ways { e with tick := e.tick + 1 } nid rest with
        ⟨hunknown, -⟩ | ⟨-, heq⟩ | ⟨node, hnode, hwaits, heq⟩
      · rw [hunknown] at hbyId
        cases hbyId
      · show c.Completing (c.nodeStep { e with tick := e.tick + 1 } nid rest)
        rw [heq]
        exact ⟨hhealthy, hrest⟩
      · show c.Completing (c.nodeStep { e with tick := e.tick + 1 } nid rest)
        obtain rfl := Dag.byId_id hnode
        have hstarts : c.Starts ⟨node.id :: rest, e⟩ node :=
          ⟨⟨rest, rfl⟩, hnode, hwaits⟩
        have hmem := Dag.mem_of_byId hnode
        have hothers : ∀ id, id ≠ node.id →
            Waits ((startNode { e with tick := e.tick + 1 }
              node.id).core.status id) ∨
            (startNode { e with tick := e.tick + 1 }
              node.id).core.status id = some .done ∨
            (startNode { e with tick := e.tick + 1 }
              node.id).core.status id = some .skipped := by
          intro id hne
          have hsame : (startNode { e with tick := e.tick + 1 }
              node.id).core.status id = e.core.status id := by
            rw [core_startNode]
            exact if_neg hne
          rw [hsame]
          exact hhealthy id
        rw [heq]
        rcases c.processNode_cases (startNode { e with tick := e.tick + 1 }
            node.id) node rest with
          ⟨-, hprocess⟩ | ⟨htype, hprocess⟩ | ⟨hgate, hloop, hprocess⟩
        · obtain ⟨e', hstep, hdone⟩ := gateStep_healthy rest hclear hmem
            hothers
          rw [hprocess, hstep]
          exact ⟨hdone, hrest⟩
        · obtain ⟨e', hstep, hdone⟩ := loopStep_healthy
            (e := startNode { e with tick := e.tick + 1 } node.id)
            rest hclear (hfree.loops node hstarts htype) hothers
          rw [hprocess, hstep]
          exact ⟨hdone, hrest⟩
        · obtain ⟨e', hstep, hdone⟩ := steeringStep_done
            (e := startNode { e with tick := e.tick + 1 } node.id)
            rest hclear hmem (by rw [startNode_node])
            (withinBudget_of_none hservices hclear)
            (hfree.served node hstarts hgate hloop)
          rw [hprocess, hstep]
          refine ⟨?_, hrest⟩
          rw [hdone]
          refine healthy_of_done node.id (if_pos rfl) fun id hne => ?_
          have hsettle : ∀ k : RunCore,
              (k.settle node.id .done).status id = k.status id :=
            fun k => if_neg hne
          rw [hsettle]
          exact hothers id hne

end Setting

/-! ## Whole runs -/

namespace Setting

/-- The run from `s` is completed, with every node done or skipped. -/
def Completes (c : Setting) (s : Sched) : Prop :=
  ∃ (n : ℕ) (e : Exec) (r : RunResult), c.steps n (.next s) = .stop e (.ok r) ∧
    r.status = some "completed" ∧ Settled c.dag e.core.status

theorem steps_stopped
    (c : Setting) (n : ℕ) (e : Exec) (result : Except PyError RunResult) :
    c.steps n (.stop e result) = .stop e result := by
  cases n with
  | zero => rfl
  | succ n => rfl

theorem steps_of_stop
    {c : Setting} {flow : Flow} {m n : ℕ} {e : Exec}
    {result : Except PyError RunResult}
    (h : c.steps m flow = .stop e result) (hle : m ≤ n) :
    c.steps n flow = .stop e result := by
  obtain ⟨k, rfl⟩ := Nat.exists_eq_add_of_le hle
  rw [steps_add, h, steps_stopped]

theorem not_completes
    {c : Setting} {s : Sched} {n : ℕ} {e : Exec} {r : RunResult}
    (h : c.steps n (.next s) = .stop e (.ok r))
    (hstatus : r.status ≠ some "completed") : ¬c.Completes s := by
  rintro ⟨m, e', r', hend, hcompleted, -⟩
  have hfirst := steps_of_stop h (Nat.le_max_left n m)
  have hsecond := steps_of_stop hend (Nat.le_max_right n m)
  rw [hfirst] at hsecond
  obtain ⟨-, hresult⟩ := Flow.stop.inj hsecond
  obtain rfl := Except.ok.inj hresult
  exact hstatus hcompleted

end Setting

/-- An undisturbed run is completed, with every node done or skipped. -/
theorem run_completes
    (floats : FloatHost) (services : Services) (dag : Dag) (given : Items)
    (reviewed : Option Dag) (stakesPolicy : Option PyVal)
    (c : Setting) (s : Sched)
    (hrun : run (Budgets.enforcing floats services) dag given reviewed
      stakesPolicy = .ok (c, s))
    (hclear : c.Undisturbed)
    (hfree : ∀ (m : ℕ) (s' : Sched), c.steps m (.next s) = .next s' →
      c.Unhindered s') :
    c.Completes s := by
  obtain ⟨hordered, hservices⟩ := ordered_of_run hrun
  have hdag := accepted_of_run hrun
  have hstart : c.Completing (.next s) := by
    rw [start_of_run hrun]
    refine ⟨fun id => ?_, List.forall_mem_nil _⟩
    exact Or.inl (Or.inr (Or.inl rfl))
  obtain ⟨n, e, result, hend⟩ := Setting.main_loop_ends hdag s
  have hcomplete : c.Completing (c.steps n (.next s)) :=
    Setting.steps_invariant
      (fun s' h hfree' => Setting.step_completing hservices hclear hordered
        hdag.ids_nodup h hfree')
      n (fun m _ s' hs' => hfree m s' hs') hstart
  rw [hend] at hcomplete
  obtain ⟨hsettled, r, rfl, hstatus⟩ := hcomplete
  exact ⟨n, e, r, hend, hstatus, hsettled⟩

/-! ## Undisturbed graphs -/

def gatedServices (gate : GateResult) : Services :=
  Budgets.enforcing Budgets.exactFloats
    { quietServices with checkGate := fun _ _ _ _ _ => .ok gate }

def allowing : GateResult := { allowed := true, reason := "" }

/-- A call of `run` on a graph under a stakes policy. -/
def gatedSetting (gate : GateResult) (dag : Dag) : Setting where
  services := gatedServices gate
  dag := dag
  mode := .run
  graphInputs := dag.inputs
  stakesPolicy := some (.dict [])

theorem gatedSetting_undisturbed
    (gate : GateResult) {dag : Dag} (hpolicy : dag.runPolicy = {})
    (hpauses : ∀ node ∈ dag.nodes, node.checkpoints.pauseAfter = false) :
    (gatedSetting gate dag).Undisturbed where
  dispatches := fun _ _ _ => ⟨_, rfl, rfl⟩
  steering := fun _ _ _ => nofun
  budgets := congrArg RunPolicy.budgets hpolicy
  executions := congrArg RunPolicy.maxNodeExecutions hpolicy
  runtime := congrArg RunPolicy.maxTotalRuntimeS hpolicy
  pauses := by
    intro node hnode
    show (node.checkpoints.pauseAfter ||
      dag.runPolicy.pauseAtCheckpoint && node.checkpoints.after) = false
    rw [hpauses node hnode, hpolicy]
    rfl
  cancels := fun _ => rfl
  saves := fun _ _ => rfl

def plainTool (id : String) (dependsOn : List String) : Node where
  id := id
  type := "tool"
  assignedEntity := "system"
  dependsOn := dependsOn

def branchDag (last : Node) : Dag where
  graphId := "g"
  nodes :=
    [{ id := "gate"
       type := "gate"
       assignedEntity := "system"
       inputs :=
        [("condition", .bool true), ("true_targets", .list [.str "left"]),
          ("false_targets", .list [.str "right"])] },
     { plainTool "left" ["gate"] with
       outputs := [("result", .str "result")] },
     plainTool "right" ["gate"],
     last]

def joinDag : Dag := branchDag (plainTool "last" ["left", "right"])

def mergeDag : Dag := branchDag (plainTool "last" ["gate"])

def readingDag : Dag :=
  branchDag
    { plainTool "last" ["gate"] with
      inputs := [("text", .str "$node.left.result")] }

def denying : GateResult := { allowed := false, reason := "stakes" }

theorem joinDag_valid : validateDag referenceHost joinDag = [] := by
  decide +kernel

theorem mergeDag_valid : validateDag referenceHost mergeDag = [] := by
  decide +kernel

theorem readingDag_valid : validateDag referenceHost readingDag = [] := by
  decide +kernel

/-- A run of the graph is undisturbed and does not complete. -/
def FailsUndisturbed (gate : GateResult) (dag : Dag) : Prop :=
  run (gatedServices gate) dag [] none (some (.dict [])) =
      .ok (gatedSetting gate dag, runStart (gatedServices gate) dag.inputs) ∧
    (gatedSetting gate dag).Undisturbed ∧
      ¬(gatedSetting gate dag).Completes
        (runStart (gatedServices gate) dag.inputs)

/-- The tool after both branches is left waiting, the tool that reads the skipped
branch fails, and so does the tool that the gate denies. -/
theorem undisturbed_not_completed :
    FailsUndisturbed allowing joinDag ∧ FailsUndisturbed allowing readingDag ∧
      FailsUndisturbed denying toolDag := by
  refine ⟨⟨run_of_valid joinDag_valid, ?_, ?_⟩,
    ⟨run_of_valid readingDag_valid, ?_, ?_⟩, run_of_valid toolDag_valid, ?_, ?_⟩
  · exact gatedSetting_undisturbed allowing rfl (by decide)
  · have hend : ∃ (e : Exec) (r : RunResult),
        (gatedSetting allowing joinDag).steps 5
          (.next (runStart (gatedServices allowing) joinDag.inputs)) =
            .stop e (.ok r) ∧ r.status = some "partial" := ⟨_, _, rfl, rfl⟩
    obtain ⟨e, r, hend, hstatus⟩ := hend
    exact Setting.not_completes hend (by rw [hstatus]; decide)
  · exact gatedSetting_undisturbed allowing rfl (by decide)
  · have hend : ∃ (e : Exec) (r : RunResult),
        (gatedSetting allowing readingDag).steps 4
          (.next (runStart (gatedServices allowing) readingDag.inputs)) =
            .stop e (.ok r) ∧ r.status = some "failed" := ⟨_, _, rfl, rfl⟩
    obtain ⟨e, r, hend, hstatus⟩ := hend
    exact Setting.not_completes hend (by rw [hstatus]; decide)
  · exact gatedSetting_undisturbed denying rfl (by decide)
  · have hend : ∃ (e : Exec) (r : RunResult),
        (gatedSetting denying toolDag).steps 3
          (.next (runStart (gatedServices denying) toolDag.inputs)) =
            .stop e (.ok r) ∧ r.status = some "failed" := ⟨_, _, rfl, rfl⟩
    obtain ⟨e, r, hend, hstatus⟩ := hend
    exact Setting.not_completes hend (by rw [hstatus]; decide)

theorem mergeDag_unmixed (status : String → Option NodeStatus) :
    Unmixed mergeDag status := by
  intro node hnode _ ⟨⟨dep, hdep, hdone⟩, dep', hdep', hskipped⟩
  have hsingle : ∀ node ∈ mergeDag.nodes,
      node.dependsOn = [] ∨ node.dependsOn = ["gate"] := by decide
  rcases hsingle node hnode with hnone | hgate
  · rw [hnone] at hdep
    cases hdep
  · rw [hgate, List.mem_singleton] at hdep hdep'
    rw [hdep] at hdone
    rw [hdep', hdone] at hskipped
    cases hskipped

/-- A started node of the merging graph is served, as long as the usage of the
budget can be recorded. -/
theorem mergeDag_unhindered
    {s : Sched}
    (hcharge : ∃ state, Budgets.applyAfterDispatch Budgets.exactFloats {}
      (Budgets.setDefaultUsed s.exec.runState.state)
      (some [("ok", .bool true)]) = .ok state) :
    (gatedSetting allowing mergeDag).Unhindered s where
  served := by
    intro node hstarts hgate _
    have hnode := Dag.mem_of_byId hstarts.known
    have htool : ∀ node ∈ mergeDag.nodes, node.type ≠ "gate" →
        node.inputs = [] ∧ node.type = "tool" := by decide
    obtain ⟨hinputs, htype⟩ := htool node hnode hgate
    have hbinds : ∀ mode, (gatedSetting allowing mergeDag).Binds
        (Setting.startNode s.now node.id) node mode := by
      intro mode hany
      rw [Setting.resolveInputs, hinputs] at hany
      cases hany
    refine ⟨hbinds _, hbinds _, ?_, ?_⟩
    · rintro ⟨result, hanswer, hdenied, -⟩
      obtain rfl := Except.ok.inj (Option.some.inj hanswer)
      cases hdenied
    · intro output hanswer
      obtain rfl := Except.ok.inj hanswer
      refine ⟨fun hagent => ?_, ?_⟩
      · rw [htype] at hagent
        exact absurd hagent (by decide)
      · have hstate : ((gatedSetting allowing mergeDag).atDispatch
            (Setting.startNode s.now node.id) node).state =
              Budgets.setDefaultUsed s.exec.runState.state := by
          rw [Setting.atDispatch, Setting.lockEscrow_eq]
          have hamount : ∀ tick, (gatedSetting allowing mergeDag).escrowAmount
              tick node = none := by
            intro tick
            unfold Setting.escrowAmount
            split
            · split
              · rfl
              · rfl
            · rfl
          rw [hamount]
          rfl
        rw [← hstate] at hcharge
        exact hcharge
  loops := by
    intro node hstarts hloop
    have hnone : ∀ node ∈ mergeDag.nodes, node.type ≠ "loop" := by decide
    exact absurd hloop (hnone node (Dag.mem_of_byId hstarts.known))
  joins := fun _ => mergeDag_unmixed _

/-- The tool that depends on the gate alone runs, and the run completes. -/
theorem merge_completes :
    (gatedSetting allowing mergeDag).Completes
      (runStart (gatedServices allowing) mergeDag.inputs) := by
  have hstop : ∃ (e : Exec) (result : Except PyError RunResult),
      (gatedSetting allowing mergeDag).steps 7
        (.next (runStart (gatedServices allowing) mergeDag.inputs)) =
          .stop e result := ⟨_, _, rfl⟩
  obtain ⟨e, result, hstop⟩ := hstop
  refine run_completes Budgets.exactFloats
    { quietServices with checkGate := fun _ _ _ _ _ => .ok allowing }
    mergeDag [] none (some (.dict [])) _ _ (run_of_valid mergeDag_valid)
    (gatedSetting_undisturbed allowing rfl (by decide)) ?_
  intro m s' hs
  by_cases hlt : m < 7
  · refine mergeDag_unhindered ?_
    obtain rfl | rfl | rfl | rfl | rfl | rfl | rfl : m = 0 ∨ m = 1 ∨ m = 2 ∨
        m = 3 ∨ m = 4 ∨ m = 5 ∨ m = 6 := by omega
    all_goals
      obtain rfl := Flow.next.inj hs
      exact ⟨_, rfl⟩
  · have hsame := Setting.steps_of_stop hstop (not_lt.mp hlt)
    have himpossible : Flow.stop e result = .next s' := hsame.symm.trans hs
    cases himpossible

end Hydrogenuine.TaskGraph
