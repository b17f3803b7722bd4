import Mathlib.Logic.Relation
import Hydrogenuine.TaskGraph.Cores

/-!
# What a started node can do

On cores there are a few moves, each with the condition under which the executor
makes it, and processing a started node is a sequence of moves.  The properties
of runs below are proved from the moves, not from the code of the steps.
-/

namespace Hydrogenuine.TaskGraph

open Support Hydrogenuine.Core Relation

/-! ## Moves of a node -/

/-- The stakes gate has just allowed the node. -/
def JustAllowed (k : RunCore) (nid : String) : Prop :=
  k.trace.getLast? = some (.gateChecked nid true)

/-- The node that was started last, while only gate checks have followed. -/
def pendingStart (trace : List Event) : Option String :=
  trace.foldl
    (fun started event =>
      match event with
      | .started nid _ => some nid
      | .gateChecked _ _ => started
      | _ => none) none

theorem pendingStart_concat (trace : List Event) (event : Event) :
    pendingStart (trace ++ [event]) =
      match event with
      | .started nid _ => some nid
      | .gateChecked _ _ => pendingStart trace
      | _ => none := by
  rw [pendingStart, List.foldl_concat]
  rfl

/-- The moves of a node that has been started.  `ungated` says that its dispatch
may go without an allowing gate, `mayFail` that its failure may be recorded, and
`value` which values its loop condition may have. -/
inductive Move
    (dag : Dag) (node : Node) (ungated mayFail : Prop) (value : Bool → Prop) :
    RunCore → RunCore → Prop where
  | skip {k : RunCore} {status : String → Option NodeStatus}
      (htype : node.type ≠ "loop") (hskips : Skips dag Open k.status status) :
      Move dag node ungated mayFail value k { k with status := status }
  | block {k : RunCore} (htype : node.type ≠ "loop") :
      Move dag node ungated mayFail value k (k.settle node.id .blocked)
  | fail {k : RunCore} (htype : node.type ≠ "loop") (hmay : mayFail) :
      Move dag node ungated mayFail value k (k.settle node.id .failed)
  | retry {k : RunCore} (htype : node.type ≠ "loop")
      (hattempts : k.attempts node.id ≤ node.policy.maxRetries) :
      Move dag node ungated mayFail value k (k.settle node.id .ready)
  | complete {k : RunCore} (htype : node.type ≠ "loop")
      (hstatus : k.status node.id ≠ some .done) :
      Move dag node ungated mayFail value k (k.settle node.id .done)
  | check {k : RunCore} (allowed : Bool) :
      Move dag node ungated mayFail value k
        (k.record (.gateChecked node.id allowed))
  | dispatch {k : RunCore} (htype : node.type ≠ "loop")
      (hstart : pendingStart k.trace = some node.id)
      (hgate : JustAllowed k node.id ∨ ungated) :
      Move dag node ungated mayFail value k
        (k.record (.dispatched node.id k.status))
  | loopOff {k : RunCore} {loop : LoopRun} (htype : node.type = "loop")
      (hrunning : k.status node.id = some .running) (hvalue : value false)
      (hactive : loop.active = false) (hiteration : loop.iteration = 0) :
      Move dag node ungated mayFail value k
        (((k.record (.evaluated node.id false)).setLoop node.id loop).settle
          node.id .done)
  | loopOn {k : RunCore} {loop : LoopRun} (htype : node.type = "loop")
      (hrunning : k.status node.id = some .running) (hvalue : value true)
      (hactive : loop.active = true) (hiteration : loop.iteration = 1)
      (hmax : ∀ n, node.policy.maxIterations = some n → 1 ≤ n →
        loop.maxIterations = n) :
      Move dag node ungated mayFail value k
        ((((k.record (.evaluated node.id true)).setLoop node.id
          loop).resetBody dag node.body).settle node.id .done)
  | loopStop {k : RunCore} {loopNode : Node} (htype : node.type ≠ "loop")
      (hmem : loopNode ∈ dag.nodes) (hbody : node.id ∈ loopNode.body)
      (hfailed : .settled node.id .failed ∈ k.trace) :
      Move dag node ungated mayFail value k
        (k.setLoop loopNode.id { k.loop loopNode.id with active := false })

abbrev Moves
    (dag : Dag) (node : Node) (ungated mayFail : Prop) (value : Bool → Prop) :
    RunCore → RunCore → Prop :=
  ReflTransGen (Move dag node ungated mayFail value)

namespace Setting

variable {c : Setting} {node : Node} {rest : List String} {e : Exec}
  {ungated mayFail : Prop} {value : Bool → Prop}

theorem save_exec (n : ℕ) {flow : Flow} (hflow : flow.exec = e) :
    (c.save e n flow).exec = e := by
  unfold save
  split
  · rfl
  · exact hflow

theorem save_next_exec (n : ℕ) (e : Exec) (rest : List String) :
    (c.save e n (.next ⟨rest, e⟩)).exec = e :=
  save_exec n rfl

theorem saveAndReturn_exec (ok : Bool) : (c.saveAndReturn e ok).exec = e :=
  save_exec 1 rfl

theorem persistAfterNode_exec :
    (c.persistAfterNode e node rest).exec = e := by
  refine save_exec 1 ?_
  split
  · rfl
  · rfl

theorem saveAndReturn_stops (ok : Bool) :
    (c.saveAndReturn e ok).goesOn = false := by
  unfold saveAndReturn save
  split
  · rfl
  · rfl

/-- A failure may be recorded when the run goes on after failures, or the call
ends with it. -/
def MayFailWith (c : Setting) (flow : Flow) : Prop :=
  c.dag.runPolicy.failureMode ≠ "fail_fast" ∨ flow.goesOn = false

theorem move_withNodes
    {nodes : String → NodeRun} (htype : node.type ≠ "loop")
    (h : SkipsNodes c.dag Open e.nodes nodes) :
    Moves c.dag node ungated mayFail value e.core (e.withNodes nodes).core := by
  rw [core_withNodes h]
  exact ReflTransGen.single (Move.skip htype h.skips)

theorem skipPendingDependents_moves
    (htype : node.type ≠ "loop") (nid : String) :
    Moves c.dag node ungated mayFail value e.core
      (c.skipPendingDependents e nid).core := by
  refine move_withNodes htype (skipWhere_skips ?_ ?_)
  · intro id hid
    obtain ⟨dependent, hdependent, rfl⟩ := List.mem_map.mp hid
    exact List.mem_map_of_mem (List.mem_filter.mp hdependent).1
  · intro id hid hrun
    have hpending : (e.nodes id).status = some .pending := by simpa using hrun
    exact Waits.open (Or.inr (Or.inl hpending))

theorem bodyToLoop_mem {dag : Dag} {bid : String} {loopNode : Node}
    (h : bodyToLoop dag bid = some loopNode) :
    loopNode ∈ dag.nodes ∧ bid ∈ loopNode.body := by
  obtain ⟨hmem, htest⟩ := List.mem_filter.mp (List.mem_of_getLast? h)
  rw [Bool.and_eq_true] at htest
  exact ⟨hmem, List.contains_iff_mem.mp htest.2⟩

theorem stopLoop_moves
    (htype : node.type ≠ "loop")
    (hfailed : .settled node.id .failed ∈ e.trace) :
    Moves c.dag node ungated mayFail value e.core
      (c.stopLoop e node.id).core := by
  unfold stopLoop
  split
  · exact ReflTransGen.refl
  · rename_i loopNode hloop
    obtain ⟨hmem, hbody⟩ := bodyToLoop_mem hloop
    split
    · refine ReflTransGen.head (Move.loopStop htype hmem hbody hfailed) ?_
      rw [core_loop, ← core_setLoop]
      refine move_withNodes htype (skipWhere_skips ?_ ?_)
      · intro id hid
        exact List.contains_iff_mem.mp (List.mem_filter.mp hid).2
      · intro id hid hrun
        rw [Bool.or_eq_true, beq_iff_eq, beq_iff_eq] at hrun
        exact Waits.open (Or.inr hrun)
    · exact ReflTransGen.refl

theorem failureStep_moves
    (ungated : Prop) (value : Bool → Prop) (htype : node.type ≠ "loop")
    (hmay : MayFailWith c (c.failureStep e node rest) → mayFail) :
    Moves c.dag node ungated mayFail value e.core
      (c.failureStep e node rest).exec.core := by
  unfold failureStep at hmay ⊢
  split
  · rename_i hattempts
    have hcore := core_settle e node.id .ready
    refine ReflTransGen.single ?_
    rw [Flow.exec, hcore]
    exact Move.retry htype hattempts
  · rename_i hattempts
    rw [if_neg hattempts] at hmay
    dsimp only at hmay ⊢
    have hsettled : ((c.settleEscrowLock e node.id .slashed).settle node.id
        .failed).core =
        e.core.settle node.id .failed := by
      rw [core_settle, core_settleEscrowLock]
    split
    · rename_i hfast
      rw [if_pos hfast] at hmay
      refine ReflTransGen.head
        (Move.fail htype (hmay (Or.inr (saveAndReturn_stops false)))) ?_
      rw [← hsettled, saveAndReturn_exec, core_final]
      exact skipPendingDependents_moves htype node.id
    · rename_i hfast
      have hmode : c.dag.runPolicy.failureMode ≠ "fail_fast" := by
        simpa using hfast
      refine ReflTransGen.head (Move.fail htype (hmay (Or.inl hmode))) ?_
      rw [← hsettled, save_next_exec]
      exact stopLoop_moves htype (List.mem_append_right _ List.mem_cons_self)

theorem successStep_moves
    (htype : node.type ≠ "loop") (output : Option Items)
    (hstatus : (e.nodes node.id).status ≠ some .done) :
    Moves c.dag node ungated mayFail value e.core
      (c.successStep e node output rest).exec.core := by
  have hsettled : (e.settle node.id .done).core =
      e.core.settle node.id .done :=
    core_settle e node.id .done
  refine ReflTransGen.single ?_
  have hcore : (c.successStep e node output rest).exec.core =
      e.core.settle node.id .done := by
    unfold successStep
    dsimp only
    split
    · exact hsettled
    · rw [persistAfterNode_exec, core_settleEscrowLock, core_output, hsettled]
  rw [hcore]
  exact Move.complete htype hstatus

/-! ### The ways through a node -/

theorem charge_cases
    (c : Setting) (e : Exec) (output : Option Items) (k : Exec → Flow) :
    (∃ err, c.charge e output k = .stop e (.error err)) ∨
    ∃ state, c.services.applyAfterDispatch c.dag.runPolicy e.runState.state
        output = .ok state ∧
      c.charge e output k = k (e.withItems fun _ => state) := by
  unfold charge
  cases c.services.applyAfterDispatch c.dag.runPolicy e.runState.state output
    with
  | error err => exact Or.inl ⟨err, rfl⟩
  | ok state => exact Or.inr ⟨state, rfl, rfl⟩

def called (c : Setting) (e : Exec) (node : Node) (inputs : Items) : Exec :=
  ((e.record (.dispatched node.id e.statuses)).observe
    (.called node.id e.runState)).withItems fun _ =>
      (c.callDispatcher e node inputs).2

def notOk (output : Option Items) : Bool :=
  output.elim false fun out => !(PyVal.getItem out "ok").truthy

/-- The ways through a dispatch: the dispatcher is not called, raises, answers
with a failure, or succeeds. -/
theorem dispatchStep_cases
    (c : Setting) (e : Exec) (node : Node) (inputs : Items)
    (rest : List String) :
    ((e.nodes node.id).error ≠ [] ∧
      c.dispatchStep e node inputs rest =
        c.charge e none fun e => c.failureStep e node rest) ∨
    ((e.nodes node.id).error = [] ∧
      ((∃ error,
        (∀ output,
          (c.callDispatcher e node inputs).1 = .ok output →
            notOk output = true) ∧
        c.dispatchStep e node inputs rest =
          c.charge ((c.called e node inputs).fail node.id error) none
            fun e => c.failureStep e node rest) ∨
      ∃ output,
        (c.callDispatcher e node inputs).1 = .ok output ∧
        notOk output = false ∧
        c.dispatchStep e node inputs rest =
          c.charge (c.called e node inputs) output
            fun e => c.successStep e node output rest)) := by
  unfold dispatchStep
  dsimp only
  by_cases hempty : (e.nodes node.id).error.isEmpty = true
  · rw [if_pos hempty]
    refine Or.inr ⟨List.isEmpty_iff.mp hempty, ?_⟩
    cases hanswer : (c.callDispatcher e node inputs).1 with
    | error err => exact Or.inl ⟨c.raisedError node.id err, nofun, rfl⟩
    | ok output =>
        dsimp only
        by_cases hbad : notOk output = true
        · have hif : (output.elim false fun out =>
              !(PyVal.getItem out "ok").truthy) = true := hbad
          rw [if_pos hif]
          refine Or.inl ⟨c.dispatchError node.id (output.getD []), ?_, rfl⟩
          intro output' houtput
          obtain rfl := Except.ok.inj houtput
          exact hbad
        · have hif : ¬(output.elim false fun out =>
              !(PyVal.getItem out "ok").truthy) = true := hbad
          rw [if_neg hif]
          rw [Bool.not_eq_true] at hbad
          exact Or.inr ⟨output, rfl, hbad, rfl⟩
  · rw [if_neg hempty]
    exact Or.inl ⟨fun h => hempty (List.isEmpty_iff.mpr h), rfl⟩

theorem core_called (c : Setting) (e : Exec) (node : Node) (inputs : Items) :
    (c.called e node inputs).core =
      e.core.record (.dispatched node.id e.core.status) := rfl

theorem charged_failure_moves
    (ungated : Prop) (value : Bool → Prop) (htype : node.type ≠ "loop")
    (hmay : MayFailWith c (c.charge e none fun e => c.failureStep e node rest) →
      mayFail) :
    Moves c.dag node ungated mayFail value e.core
      (c.charge e none fun e => c.failureStep e node rest).exec.core := by
  rcases charge_cases c e none fun e => c.failureStep e node rest with
    ⟨err, heq⟩ | ⟨state, -, heq⟩
  · rw [heq]
    exact ReflTransGen.refl
  · rw [heq] at hmay ⊢
    have hmoves := failureStep_moves ungated value htype hmay
    rw [core_withItems] at hmoves
    exact hmoves

theorem dispatchStep_moves
    (ungated : Prop) (value : Bool → Prop) (htype : node.type ≠ "loop")
    (inputs : Items)
    (hmay : MayFailWith c (c.dispatchStep e node inputs rest) → mayFail)
    (hstart : (e.nodes node.id).error = [] →
      pendingStart e.trace = some node.id)
    (hgate : (e.nodes node.id).error = [] →
      JustAllowed e.core node.id ∨ ungated)
    (hstatus : (e.nodes node.id).error = [] →
      (e.nodes node.id).status ≠ some .done) :
    Moves c.dag node ungated mayFail value e.core
      (c.dispatchStep e node inputs rest).exec.core := by
  rcases dispatchStep_cases c e node inputs rest with
    ⟨-, heq⟩ | ⟨herror, hcalled⟩
  · rw [heq] at hmay ⊢
    exact charged_failure_moves ungated value htype hmay
  · refine ReflTransGen.head
      (Move.dispatch htype (hstart herror) (hgate herror)) ?_
    rcases hcalled with ⟨error, -, heq⟩ | ⟨output, -, -, heq⟩
    · rw [heq] at hmay ⊢
      have hmoves := charged_failure_moves ungated value htype hmay
      rw [core_fail, core_called] at hmoves
      exact hmoves
    · rw [heq]
      rcases charge_cases c (c.called e node inputs) output
          fun e => c.successStep e node output rest with
        ⟨err, hcharge⟩ | ⟨state, -, hcharge⟩
      · rw [hcharge]
        exact ReflTransGen.refl
      · rw [hcharge]
        have hmoves : Moves c.dag node ungated mayFail value
            ((c.called e node inputs).withItems fun _ => state).core
            (c.successStep ((c.called e node inputs).withItems fun _ => state)
              node output rest).exec.core :=
          successStep_moves htype output (hstatus herror)
        rw [core_withItems, core_called] at hmoves
        exact hmoves

def stakesState (c : Setting) (e : Exec) : Items :=
  match c.services.checkBeforeDispatch c.dag.runPolicy e.runState.state with
  | .ok checked => checked.1
  | .error _ => e.runState.state

def gateAnswer (c : Setting) (tick : ℕ) (state : Items) (node : Node) :
    Option (Except PyError GateResult) :=
  match c.mode, c.stakesPolicy with
  | .run, some policy =>
      some (c.services.checkGate tick (nodeTypeToAction node.type)
        (agentId node) state policy)
  | _, _ => none

/-- The gate is not asked, raises, or its denial is not recorded. -/
def GateGivesWay (c : Setting) (tick : ℕ) (state : Items) (node : Node) :
    Prop :=
  match c.gateAnswer tick state node with
  | some (.ok result) =>
      result.allowed = false ∧ ∃ err, c.services.emitApproval tick = .error err
  | _ => True

/-- The gate denies the node, and the denial is recorded. -/
def Denies (c : Setting) (tick : ℕ) (state : Items) (node : Node) : Prop :=
  ∃ result, c.gateAnswer tick state node = some (.ok result) ∧
    result.allowed = false ∧ c.services.emitApproval tick = .ok ()

theorem not_denies_of_gateGivesWay {tick : ℕ} {state : Items}
    (h : c.GateGivesWay tick state node) : ¬c.Denies tick state node := by
  rintro ⟨result, hanswer, -, hemit⟩
  unfold GateGivesWay at h
  rw [hanswer] at h
  obtain ⟨-, err, herr⟩ := h
  rw [hemit] at herr
  cases herr

def afterGate
    (c : Setting) (e : Exec) (node : Node) (inputs : Items)
    (rest : List String) : Flow :=
  c.dispatchStep (c.lockEscrow e node) node inputs rest

def denied (e : Exec) (node : Node) (result : GateResult) : Exec :=
  ((e.record (.gateChecked node.id false)).fail node.id
    (gateDenied result)).settle node.id .failed

theorem stakesStep_cases
    (c : Setting) (e : Exec) (node : Node) (inputs : Items)
    (rest : List String) :
    (c.GateGivesWay e.tick e.runState.state node ∧
      (c.stakesStep e node inputs rest = c.afterGate e node inputs rest ∨
        c.stakesStep e node inputs rest =
          c.afterGate (e.record (.gateChecked node.id false)) node inputs
            rest)) ∨
    (¬c.Denies e.tick e.runState.state node ∧
      c.stakesStep e node inputs rest =
        c.afterGate (e.record (.gateChecked node.id true)) node inputs rest) ∨
    (c.Denies e.tick e.runState.state node ∧ ∃ result,
      (c.stakesStep e node inputs rest = .next ⟨rest, denied e node result⟩ ∨
        (∃ err, c.services.saveError e.tick 0 = some err) ∧
          c.stakesStep e node inputs rest =
            c.afterGate (denied e node result) node inputs rest)) := by
  unfold stakesStep GateGivesWay Denies gateAnswer
  cases hmode : c.mode with
  | resume => exact Or.inl ⟨trivial, Or.inl rfl⟩
  | run =>
      cases hpolicy : c.stakesPolicy with
      | none => exact Or.inl ⟨trivial, Or.inl rfl⟩
      | some policy =>
          dsimp only
          cases hcheck : c.services.checkGate e.tick
              (nodeTypeToAction node.type) (agentId node) e.runState.state
              policy with
          | error err => exact Or.inl ⟨trivial, Or.inl rfl⟩
          | ok result =>
              dsimp only
              by_cases hallowed : result.allowed = true
              · rw [if_pos hallowed, hallowed]
                refine Or.inr (Or.inl ⟨?_, rfl⟩)
                rintro ⟨result', heq, hdenied, -⟩
                obtain rfl := Except.ok.inj (Option.some.inj heq)
                rw [hallowed] at hdenied
                cases hdenied
              · rw [if_neg hallowed]
                rw [Bool.not_eq_true] at hallowed
                rw [hallowed]
                have htick : (e.record
                    (.gateChecked node.id false)).tick = e.tick := rfl
                rw [htick]
                cases hemit : c.services.emitApproval e.tick with
                | error err =>
                    exact Or.inl ⟨⟨rfl, err, rfl⟩, Or.inr rfl⟩
                | ok u =>
                    refine Or.inr (Or.inr ⟨⟨result, rfl, hallowed, rfl⟩,
                      result, ?_⟩)
                    dsimp only
                    split
                    · exact Or.inl rfl
                    · rename_i err herr
                      exact Or.inr ⟨⟨err, herr⟩, rfl⟩

theorem nodes_lockEscrow : (c.lockEscrow e node).nodes = e.nodes := by
  unfold lockEscrow
  split
  · split
    · split
      · rfl
      · rfl
    · rfl
  · rfl

theorem afterGate_moves
    (htype : node.type ≠ "loop") (inputs : Items)
    (hmay : MayFailWith c (c.afterGate e node inputs rest) → mayFail)
    (hstart : (e.nodes node.id).error = [] →
      pendingStart e.trace = some node.id)
    (hgate : (e.nodes node.id).error = [] →
      JustAllowed e.core node.id ∨ ungated)
    (hstatus : (e.nodes node.id).error = [] →
      (e.nodes node.id).status ≠ some .done) :
    Moves c.dag node ungated mayFail value e.core
      (c.afterGate e node inputs rest).exec.core := by
  have hcore := core_lockEscrow e c node
  have hmoves := dispatchStep_moves ungated value htype inputs hmay
  have htrace : (c.lockEscrow e node).trace = e.trace :=
    congrArg RunCore.trace hcore
  rw [nodes_lockEscrow, hcore, htrace] at hmoves
  exact hmoves hstart hgate hstatus

theorem error_denied (result : GateResult) :
    ((denied e node result).nodes node.id).error ≠ [] := by
  have herror : ((denied e node result).nodes node.id).error =
      gateDenied result := by
    simp [denied, Exec.settle, Exec.fail, Exec.withNode, Exec.withNodes,
      Exec.observe, Exec.record, setNode]
  rw [herror]
  exact List.cons_ne_nil _ _

theorem core_denied (result : GateResult) :
    (denied e node result).core =
      (e.core.record (.gateChecked node.id false)).settle node.id .failed := by
  rw [denied, core_settle, core_fail, core_record]

theorem stakesStep_moves
    (htype : node.type ≠ "loop") (inputs : Items)
    (hmay : MayFailWith c (c.stakesStep e node inputs rest) ∨
      c.Denies e.tick e.runState.state node → mayFail)
    (hstart : (e.nodes node.id).error = [] →
      pendingStart e.trace = some node.id)
    (hgate : (e.nodes node.id).error = [] →
      c.GateGivesWay e.tick e.runState.state node → ungated)
    (hstatus : (e.nodes node.id).error = [] →
      (e.nodes node.id).status ≠ some .done) :
    Moves c.dag node ungated mayFail value e.core
      (c.stakesStep e node inputs rest).exec.core := by
  have hchecked : ∀ allowed, (e.nodes node.id).error = [] →
      pendingStart (e.record (.gateChecked node.id allowed)).trace =
        some node.id := by
    intro allowed herror
    have hkeep := pendingStart_concat e.trace (.gateChecked node.id allowed)
    exact hkeep.trans (hstart herror)
  rcases stakesStep_cases c e node inputs rest with
    ⟨hway, heq | heq⟩ | ⟨-, heq⟩ | ⟨hdenies, result, heq | ⟨-, heq⟩⟩
  · rw [heq] at hmay ⊢
    exact afterGate_moves htype inputs (fun h => hmay (Or.inl h)) hstart
      (fun herror => Or.inr (hgate herror hway)) hstatus
  · rw [heq] at hmay ⊢
    refine ReflTransGen.head (Move.check false) ?_
    rw [← core_record]
    exact afterGate_moves htype inputs (fun h => hmay (Or.inl h))
      (hchecked false) (fun herror => Or.inr (hgate herror hway)) hstatus
  · rw [heq] at hmay ⊢
    refine ReflTransGen.head (Move.check true) ?_
    rw [← core_record]
    refine afterGate_moves htype inputs (fun h => hmay (Or.inl h))
      (hchecked true) (fun _ => Or.inl ?_) hstatus
    exact List.getLast?_concat
  · rw [heq] at hmay ⊢
    refine ReflTransGen.head (Move.check false) (ReflTransGen.single ?_)
    rw [Flow.exec, core_denied]
    exact Move.fail htype (hmay (Or.inr hdenies))
  · rw [heq] at hmay ⊢
    refine ReflTransGen.head (Move.check false)
      (ReflTransGen.head (Move.fail htype (hmay (Or.inr hdenies))) ?_)
    rw [← core_denied result]
    exact afterGate_moves htype inputs (fun h => hmay (Or.inl h))
      (fun h => absurd h (error_denied result))
      (fun h => absurd h (error_denied result))
      (fun h => absurd h (error_denied result))

/-- The inputs of a node are resolved unless the binding mode is another. -/
def Binds (c : Setting) (e : Exec) (node : Node) (mode : String) : Prop :=
  (c.resolveInputs e node).any isUnresolved = true →
    c.dag.runPolicy.inputBindingMode ≠ mode

def WithinBudget (c : Setting) (e : Exec) : Prop :=
  ∃ state, c.services.checkBeforeDispatch c.dag.runPolicy e.runState.state =
    .ok (state, none)

/-- The stakes gate is asked about a node that is started: steering, binding
and budget let it pass. -/
structure Asked (c : Setting) (e : Exec) (node : Node) : Prop where
  steering : ∀ reason, c.services.beforeNode e.tick node = .ok (some reason) →
    ∃ err, c.services.saveError e.tick 0 = some err
  binding : c.Binds e node "blocked"
  budget : c.WithinBudget e

/-- Nor do steering and binding give the node an error. -/
structure Clean (c : Setting) (e : Exec) (node : Node) : Prop where
  steering : ∀ reason,
    c.services.beforeNode e.tick node ≠ .ok (some reason)
  binding : c.Binds e node "strict"

/-- A started node is dispatched although no gate has allowed it. -/
def Bypasses (c : Setting) (e : Exec) (node : Node) : Prop :=
  c.Asked e node ∧ c.Clean e node ∧
    c.GateGivesWay e.tick (c.stakesState e) node

/-- A started node fails because the gate denies it. -/
def GateDenies (c : Setting) (e : Exec) (node : Node) : Prop :=
  c.Asked e node ∧ c.Denies e.tick (c.stakesState e) node

def refused (c : Setting) (e : Exec) (err : Items) : Exec :=
  ((e.withItems fun _ => c.stakesState e).withItems fun state =>
    PyVal.setItem state "_run_error" (.dict err)).final "failed"

theorem budgetStep_cases
    (c : Setting) (e : Exec) (node : Node) (inputs : Items)
    (rest : List String) :
    (¬c.WithinBudget e ∧
      ((∃ err, c.budgetStep e node inputs rest = .stop e (.error err)) ∨
        ∃ err, c.budgetStep e node inputs rest =
          c.saveAndReturn (c.refused e err) false)) ∨
    (c.WithinBudget e ∧ c.budgetStep e node inputs rest =
      c.stakesStep (e.withItems fun _ => c.stakesState e) node inputs rest) := by
  unfold budgetStep WithinBudget refused stakesState
  cases c.services.checkBeforeDispatch c.dag.runPolicy e.runState.state with
  | error err => exact Or.inl ⟨nofun, Or.inl ⟨err, rfl⟩⟩
  | ok checked =>
      obtain ⟨state, refusal⟩ := checked
      cases refusal with
      | some err => exact Or.inl ⟨nofun, Or.inr ⟨err, rfl⟩⟩
      | none => exact Or.inr ⟨⟨state, rfl⟩, rfl⟩

theorem budgetStep_moves
    (htype : node.type ≠ "loop") (inputs : Items)
    (hmay : MayFailWith c (c.budgetStep e node inputs rest) ∨
      c.WithinBudget e ∧ c.Denies e.tick (c.stakesState e) node → mayFail)
    (hstart : (e.nodes node.id).error = [] →
      pendingStart e.trace = some node.id)
    (hgate : (e.nodes node.id).error = [] → c.WithinBudget e →
      c.GateGivesWay e.tick (c.stakesState e) node → ungated)
    (hstatus : (e.nodes node.id).status ≠ some .done) :
    Moves c.dag node ungated mayFail value e.core
      (c.budgetStep e node inputs rest).exec.core := by
  rcases budgetStep_cases c e node inputs rest with
    ⟨-, ⟨err, heq⟩ | ⟨err, heq⟩⟩ | ⟨hbudget, heq⟩
  · rw [heq]
    exact ReflTransGen.refl
  · rw [heq, saveAndReturn_exec]
    exact ReflTransGen.refl
  · rw [heq] at hmay ⊢
    rw [← core_withItems e fun _ => c.stakesState e]
    refine stakesStep_moves htype inputs ?_ hstart (fun h => hgate h hbudget)
      fun _ => hstatus
    rintro (h | h)
    · exact hmay (Or.inl h)
    · exact hmay (Or.inr ⟨hbudget, h⟩)

def bindingBlocked (e : Exec) (node : Node) : Exec :=
  (e.fail node.id []).settle node.id .blocked

def unbound (c : Setting) (e : Exec) (node : Node) : Exec :=
  e.fail node.id
    [("code", .str "INPUT_RESOLUTION_ERROR"),
      ("message", c.unresolvedMessage (c.resolveInputs e node))]

theorem bindingStep_cases
    (c : Setting) (e : Exec) (node : Node) (rest : List String) :
    (¬c.Binds e node "blocked" ∧ c.bindingStep e node rest =
      c.save (bindingBlocked e node) 1
        (.next ⟨rest, bindingBlocked e node⟩)) ∨
    (c.Binds e node "blocked" ∧ ¬c.Binds e node "strict" ∧
      c.bindingStep e node rest =
        c.budgetStep (c.unbound e node) node (c.resolveInputs e node) rest) ∨
    (c.Binds e node "blocked" ∧ c.Binds e node "strict" ∧
      c.bindingStep e node rest =
        c.budgetStep e node (c.resolveInputs e node) rest) := by
  have hbinds : ∀ mode, ((c.resolveInputs e node).any isUnresolved &&
      c.dag.runPolicy.inputBindingMode == mode) = true ↔
      ¬c.Binds e node mode := by
    intro mode
    unfold Binds
    rw [Bool.and_eq_true, beq_iff_eq, Classical.not_imp, not_not]
  unfold bindingStep
  dsimp only
  by_cases hblocked : c.Binds e node "blocked"
  · rw [if_neg ((hbinds "blocked").not.mpr (not_not.mpr hblocked))]
    by_cases hstrict : c.Binds e node "strict"
    · rw [if_neg ((hbinds "strict").not.mpr (not_not.mpr hstrict))]
      exact Or.inr (Or.inr ⟨hblocked, hstrict, rfl⟩)
    · rw [if_pos ((hbinds "strict").mpr hstrict)]
      exact Or.inr (Or.inl ⟨hblocked, hstrict, rfl⟩)
  · rw [if_pos ((hbinds "blocked").mpr hblocked)]
    exact Or.inl ⟨hblocked, rfl⟩

theorem error_unbound (c : Setting) (e : Exec) (node : Node) :
    ((c.unbound e node).nodes node.id).error ≠ [] := by
  intro herror
  simp [unbound, Exec.fail, Exec.withNode, Exec.withNodes, Exec.observe,
    setNode] at herror

theorem bindingStep_moves
    (htype : node.type ≠ "loop")
    (hmay : MayFailWith c (c.bindingStep e node rest) ∨
      c.Binds e node "blocked" ∧ c.WithinBudget e ∧
        c.Denies e.tick (c.stakesState e) node → mayFail)
    (hstart : (e.nodes node.id).error = [] →
      pendingStart e.trace = some node.id)
    (hgate : (e.nodes node.id).error = [] → c.Binds e node "blocked" →
      c.Binds e node "strict" → c.WithinBudget e →
      c.GateGivesWay e.tick (c.stakesState e) node → ungated)
    (hstatus : (e.nodes node.id).status ≠ some .done) :
    Moves c.dag node ungated mayFail value e.core
      (c.bindingStep e node rest).exec.core := by
  rcases bindingStep_cases c e node rest with
    ⟨-, heq⟩ | ⟨hbinds, -, heq⟩ | ⟨hbinds, hclean, heq⟩
  · rw [heq, save_next_exec, bindingBlocked, core_settle, core_fail]
    exact ReflTransGen.single (Move.block htype)
  · rw [heq] at hmay ⊢
    have hcore : (c.unbound e node).core = e.core := core_fail e node.id _
    have herror := error_unbound c e node
    rw [← hcore]
    refine budgetStep_moves htype _ ?_ (fun h => absurd h herror)
      (fun h => absurd h herror) ?_
    · rintro (h | ⟨hbudget, hdenies⟩)
      · exact hmay (Or.inl h)
      · exact hmay (Or.inr ⟨hbinds, hbudget, hdenies⟩)
    · have hsame : ((c.unbound e node).nodes node.id).status =
          (e.nodes node.id).status :=
        congrFun (congrArg RunCore.status hcore) node.id
      rw [hsame]
      exact hstatus
  · rw [heq] at hmay ⊢
    refine budgetStep_moves htype _ ?_ hstart ?_ hstatus
    · rintro (h | ⟨hbudget, hdenies⟩)
      · exact hmay (Or.inl h)
      · exact hmay (Or.inr ⟨hbinds, hbudget, hdenies⟩)
    · exact fun herror => hgate herror hbinds hclean

def steeringBlocked (e : Exec) (node : Node) (reason : PyVal) : Exec :=
  (e.fail node.id [("code", .str "STEERING_BLOCKED"),
    ("reason", if reason.truthy then reason else .str "steering blocked")])
    |>.settle node.id .blocked

theorem steeringBlocked_node (reason : PyVal) :
    ((steeringBlocked e node reason).nodes node.id).error ≠ [] ∧
      ((steeringBlocked e node reason).nodes node.id).status =
        some .blocked := by
  constructor
  · intro herror
    simp [steeringBlocked, Exec.settle, Exec.fail, Exec.withNode,
      Exec.withNodes, Exec.observe, Exec.record, setNode] at herror
  · simp [steeringBlocked, Exec.settle, Exec.withNode, Exec.withNodes,
      Exec.observe, Exec.record, setNode]

theorem steeringStep_cases
    (c : Setting) (e : Exec) (node : Node) (rest : List String) :
    (∃ reason, c.services.beforeNode e.tick node = .ok (some reason) ∧
      (c.steeringStep e node rest =
          .next ⟨rest, steeringBlocked e node reason⟩ ∨
        (∃ err, c.services.saveError e.tick 0 = some err) ∧
          c.steeringStep e node rest =
            c.bindingStep (steeringBlocked e node reason) node rest)) ∨
    (∀ reason, c.services.beforeNode e.tick node ≠ .ok (some reason)) ∧
      c.steeringStep e node rest = c.bindingStep e node rest := by
  unfold steeringStep
  split
  · rename_i reason hreason
    refine Or.inl ⟨reason, hreason, ?_⟩
    dsimp only
    split
    · exact Or.inl rfl
    · rename_i err herr
      exact Or.inr ⟨⟨err, herr⟩, rfl⟩
  · rename_i hpass
    exact Or.inr ⟨hpass, rfl⟩

theorem steeringStep_moves
    (htype : node.type ≠ "loop")
    (hmay : MayFailWith c (c.steeringStep e node rest) ∨
      c.GateDenies e node → mayFail)
    (hstart : pendingStart e.trace = some node.id)
    (hgate : c.Bypasses e node → ungated)
    (hstatus : (e.nodes node.id).status ≠ some .done) :
    Moves c.dag node ungated mayFail value e.core
      (c.steeringStep e node rest).exec.core := by
  rcases steeringStep_cases c e node rest with
    ⟨reason, hreason, heq | ⟨hsave, heq⟩⟩ | ⟨hsteering, heq⟩
  · rw [heq, Flow.exec, steeringBlocked, core_settle, core_fail]
    exact ReflTransGen.single (Move.block htype)
  · rw [heq] at hmay ⊢
    have hblock : ((steeringBlocked e node reason).nodes node.id).error ≠ [] ∧
        ((steeringBlocked e node reason).nodes node.id).status =
          some .blocked :=
      steeringBlocked_node reason
    obtain ⟨herror, hblocked⟩ := hblock
    have hcore : (steeringBlocked e node reason).core =
        e.core.settle node.id .blocked := by
      rw [steeringBlocked, core_settle, core_fail]
    refine ReflTransGen.head (Move.block htype) ?_
    rw [← hcore]
    refine bindingStep_moves htype ?_ (fun h => absurd h herror)
      (fun h => absurd h herror) ?_
    · rintro (h | ⟨hbinds, hbudget, hdenies⟩)
      · exact hmay (Or.inl h)
      · exact hmay (Or.inr ⟨⟨fun _ _ => hsave, hbinds, hbudget⟩, hdenies⟩)
    · rw [hblocked]
      decide
  · rw [heq] at hmay ⊢
    have hpass : ∀ reason,
        c.services.beforeNode e.tick node = .ok (some reason) →
          ∃ err, c.services.saveError e.tick 0 = some err :=
      fun reason hreason => absurd hreason (hsteering reason)
    refine bindingStep_moves htype ?_ (fun _ => hstart) ?_ hstatus
    · rintro (h | ⟨hbinds, hbudget, hdenies⟩)
      · exact hmay (Or.inl h)
      · exact hmay (Or.inr ⟨⟨hpass, hbinds, hbudget⟩, hdenies⟩)
    · intro _ hblocked hstrict hbudget hway
      exact hgate ⟨⟨hpass, hblocked, hbudget⟩, ⟨hsteering, hstrict⟩, hway⟩

/-! ## Control nodes and whole steps -/

/-- The nodes that a gate skips: what only the branch not taken reaches. -/
def gateSkips (c : Setting) (e : Exec) (node : Node) : List String :=
  let value := c.conditionValue e node none
  let trueTargets := node.idsOf "true_targets"
  let falseTargets := node.idsOf "false_targets"
  let taken := if value then trueTargets else falseTargets
  let nonTaken := if value then falseTargets else trueTargets
  (reachableFrom c.dag nonTaken).filter fun id =>
    c.dag.ids.contains id && !(reachableFrom c.dag taken).contains id

theorem gateStep_exec
    {P : Option NodeStatus → Prop} (c : Setting) (e : Exec) (node : Node)
    (rest : List String) (hwaits : ∀ status, Waits status → P status)
    (hskips : ∀ id ∈ c.gateSkips e node, Open (e.nodes id).status →
      (e.nodes id).status ≠ some .skipped → P (e.nodes id).status) :
    ∃ nodes out, SkipsNodes c.dag P e.nodes nodes ∧
      (c.gateStep e node rest).exec =
        ((e.withNodes nodes).settle node.id .done).output node.id out := by
  have hskip : SkipsNodes c.dag P e.nodes
      (skipWhere e.nodes (c.gateSkips e node) fun run =>
        run.status != some .done && run.status != some .failed &&
          run.status != some .skipped) := by
    refine skipWhere_skips ?_ ?_
    · intro id hid
      have htest := (List.mem_filter.mp hid).2
      rw [Bool.and_eq_true] at htest
      exact List.contains_iff_mem.mp htest.1
    · intro id hid hrun
      simp only [Bool.and_eq_true, bne_iff_ne, ne_eq] at hrun
      exact hskips id hid hrun.1 hrun.2
  have hexec : ∃ skipped out, (c.gateStep e node rest).exec =
      ((e.withNodes (propagateDepsAllSkipped c.dag
        (skipWhere e.nodes (c.gateSkips e node) fun run =>
          run.status != some .done && run.status != some .failed &&
            run.status != some .skipped) skipped)).settle node.id
              .done).output node.id out :=
    ⟨_, _, persistAfterNode_exec⟩
  obtain ⟨skipped, out, hexec⟩ := hexec
  have hpropagate := propagateDepsAllSkipped_skips c.dag
    (skipWhere e.nodes (c.gateSkips e node) fun run =>
      run.status != some .done && run.status != some .failed &&
        run.status != some .skipped) skipped
  exact ⟨_, out, hskip.trans (hpropagate.mono hwaits), hexec⟩

theorem gateStep_moves
    (htype : node.type ≠ "loop")
    (hstatus : (e.nodes node.id).status ≠ some .done) :
    Moves c.dag node ungated mayFail value e.core
      (c.gateStep e node rest).exec.core := by
  obtain ⟨nodes, out, hskips, hexec⟩ := gateStep_exec (P := Open) c e node rest
    (fun _ => Waits.open) fun _ _ hopen _ => hopen
  rw [hexec, core_output, core_settle]
  refine ReflTransGen.trans (move_withNodes htype hskips)
    (ReflTransGen.single (Move.complete htype ?_))
  intro hdone
  rcases hskips.skips node.id with heq | ⟨-, -, hskipped⟩
  · exact hstatus (heq.symm.trans hdone)
  · have hstill : some NodeStatus.skipped = some .done :=
      hskipped.symm.trans hdone
    exact absurd hstill (by decide)

def firstBound (node : Node) : ℤ :=
  match node.policy.maxIterations with
  | some n => if n = 0 then 1 else n
  | none => 1

/-- The value of a loop's condition when the loop node is started. -/
def LoopValue (c : Setting) (e : Exec) (node : Node) (value : Bool) : Prop :=
  ∃ state item, ensureLoopItem e.runState.state node.id = .ok (state, item) ∧
    c.conditionValue (e.withItems fun _ => state) node
      (some (node.id, 1, firstBound node, item)) = value

theorem loopStep_moves
    (htype : node.type = "loop")
    (hrunning : (e.nodes node.id).status = some .running)
    (hvalue : ∀ v, c.LoopValue e node v → value v) :
    Moves c.dag node ungated mayFail value e.core
      (c.loopStep e node rest).exec.core := by
  unfold loopStep
  dsimp only
  split
  · exact ReflTransGen.refl
  · rename_i state item hitem
    rw [save_next_exec, core_output, core_settle]
    generalize hv : c.conditionValue _ node _ = v
    have hloop : c.LoopValue e node v := ⟨state, item, hitem, hv⟩
    refine ReflTransGen.single ?_
    cases v with
    | true =>
      rw [if_pos rfl, core_resetBody, core_setLoop, core_record,
        core_withItems]
      refine Move.loopOn htype hrunning (hvalue true hloop) rfl rfl ?_
      intro n hn hpos
      dsimp only
      rw [hn]
      dsimp only
      rw [if_neg (by omega)]
    | false =>
      rw [if_neg Bool.false_ne_true, core_setLoop, core_record,
        core_withItems]
      exact Move.loopOff htype hrunning (hvalue false hloop) rfl rfl

end Setting

end Hydrogenuine.TaskGraph
