import Hydrogenuine.TaskGraph.Gating
import Hydrogenuine.TaskGraph.Observations

/-!
# Pauses before a node

`_should_pause` is only asked at the position `after`, so that no call ever pauses
before it executes a node: a call that returns at a checkpoint has dispatched the
node already, or the node is a gate.  A sequence of calls honours the pauses that
nodes ask for before their execution exactly when no step dispatches such a node.
-/

namespace Hydrogenuine.TaskGraph

open Support Hydrogenuine.Core

/-! ## Calls and pauses -/

/-- `_should_pause` at the position `before`. -/
def shouldPauseBefore (dag : Dag) (node : Node) : Bool :=
  node.checkpoints.pauseBefore ||
    (dag.runPolicy.pauseAtCheckpoint && node.checkpoints.before)

/-- A call of `run` or `resume`, as far as some number of steps. -/
structure Call where
  setting : Setting
  start : Sched
  length : ℕ

namespace Call

def flow (call : Call) : Flow :=
  call.setting.steps call.length (.next call.start)

/-- The call has returned `paused` at a node. -/
def PausedAt (call : Call) (nid : String) : Prop :=
  ∃ e r, call.flow = .stop e (.ok r) ∧ r.status = some "paused" ∧
    r.pausedAt = some nid

end Call

/-- The calls of `run` and `resume` that execute a graph. -/
inductive IsCall (dag : Dag) : Call → Prop where
  | run {services : Services} {original : Dag} {given : Items}
      {reviewed : Option Dag} {stakesPolicy : Option PyVal} {c : Setting}
      {s : Sched} (n : ℕ)
      (h : run services original given reviewed stakesPolicy = .ok (c, s))
      (hdag : c.dag = dag) :
      IsCall dag ⟨c, s, n⟩
  | resume {services : Services} {given : Option Items}
      {persisted : Option Persisted} {stakesPolicy : Option PyVal}
      {c : Setting} {s : Sched} (n : ℕ)
      (h : resume services dag given persisted stakesPolicy = some (c, s)) :
      IsCall dag ⟨c, s, n⟩

/-- A node that asks for a pause before its execution is dispatched only after an
earlier call has paused at it and a resume has followed. -/
def PauseHonoured (dag : Dag) (calls : List Call) : Prop :=
  ∀ (i : ℕ) (call : Call), calls[i]? = some call →
    ∀ nid runState, (nid, runState) ∈ call.flow.exec.calls →
      ∀ node, dag.byId nid = some node → shouldPauseBefore dag node = true →
        ∃ (j k : ℕ) (paused resumed : Call), j < k ∧ k ≤ i ∧ calls[j]? = some paused ∧
          paused.PausedAt nid ∧ calls[k]? = some resumed ∧
          resumed.setting.mode = .resume

variable {call : Call} {dag : Dag}

theorem IsCall.dag_eq (h : IsCall dag call) :
    call.setting.dag = dag := by
  cases h with
  | run n hrun hdag => exact hdag
  | resume n hresume =>
      obtain ⟨saved, -, heq⟩ := Option.map_eq_some_iff.mp hresume
      obtain rfl := (Prod.mk.inj heq).1
      rfl

theorem IsCall.start_fresh (h : IsCall dag call) :
    call.start.queue = [] ∧ call.start.exec.trace = [] ∧
      call.start.exec.observed = [] := by
  cases h with
  | run n hrun hdag =>
      rw [start_of_run hrun]
      exact ⟨rfl, rfl, rfl⟩
  | resume n hresume =>
      obtain ⟨saved, -, heq⟩ := Option.map_eq_some_iff.mp hresume
      obtain rfl := (Prod.mk.inj heq).2
      exact ⟨rfl, rfl, rfl⟩

theorem IsCall.calls_start (h : IsCall dag call) :
    call.start.exec.calls = [] := by
  rw [Exec.calls, h.start_fresh.2.2]
  rfl

theorem IsCall.accepted (h : IsCall dag call)
    {host : Host} (hvalid : validateDag host dag = []) :
    Accepted call.setting.dag := by
  rw [h.dag_eq]
  exact accepted_of_valid hvalid

namespace Setting

variable {c : Setting} {node : Node} {rest : List String} {e : Exec}

/-! ## Where a call can pause -/

/-- A return at a checkpoint is one of the right kind. -/
def PausesOnly (P : String → Exec → Prop) (flow : Flow) : Prop :=
  ∀ e r nid, flow = .stop e (.ok r) → r.pausedAt = some nid → P nid e

section PausesOnly

variable {P Q : String → Exec → Prop}

theorem PausesOnly.mono {flow : Flow} (h : PausesOnly P flow)
    (hPQ : ∀ nid e, P nid e → Q nid e) : PausesOnly Q flow :=
  fun e r nid hflow hpaused => hPQ nid e (h e r nid hflow hpaused)

theorem pausesOnly_next (s : Sched) : PausesOnly P (.next s) := nofun

theorem pausesOnly_raise (err : PyError) :
    PausesOnly P (.stop e (.error err)) := nofun

theorem pausesOnly_return {r : RunResult} (h : r.pausedAt = none) :
    PausesOnly P (.stop e (.ok r)) := by
  intro e' r' nid hflow hpaused
  obtain rfl := Except.ok.inj (Flow.stop.inj hflow).2
  rw [h] at hpaused
  cases hpaused

theorem pausesOnly_save (n : ℕ) {flow : Flow} (h : PausesOnly P flow) :
    PausesOnly P (c.save e n flow) := by
  unfold save
  split
  · exact pausesOnly_raise _
  · exact h

theorem pausesOnly_saveAndReturn (ok : Bool) :
    PausesOnly P (c.saveAndReturn e ok) :=
  pausesOnly_save 1 (pausesOnly_return rfl)

theorem pausesOnly_persistAfterNode (h : P node.id e) :
    PausesOnly P (c.persistAfterNode e node rest) := by
  refine pausesOnly_save 1 ?_
  split
  · intro e' r nid hflow hpaused
    obtain ⟨rfl, hresult⟩ := Flow.stop.inj hflow
    obtain rfl := Except.ok.inj hresult
    obtain rfl := Option.some.inj hpaused
    exact h
  · exact pausesOnly_next _

theorem failureStep_pausesOnly : PausesOnly P (c.failureStep e node rest) := by
  unfold failureStep
  split
  · exact pausesOnly_next _
  · dsimp only
    split
    · exact pausesOnly_saveAndReturn false
    · exact pausesOnly_save 1 (pausesOnly_next _)

theorem successStep_pausesOnly (output : Option Items) :
    PausesOnly (fun nid _ => nid = node.id)
      (c.successStep e node output rest) := by
  rcases successStep_cases c e node output rest with
    ⟨err, -, -, heq⟩ | ⟨v, heq⟩
  · rw [heq]
    exact pausesOnly_raise err
  · rw [heq]
    exact pausesOnly_persistAfterNode rfl

/-- A call that pauses has just called the dispatcher with the node. -/
def Dispatched (node : Node) (nid : String) (e : Exec) : Prop :=
  nid = node.id ∧ ∃ runState, (nid, runState) ∈ e.calls

theorem pausesOnly_charge {output : Option Items} {k : Exec → Flow}
    (hk : ∀ e', PausesOnly P (k e')) : PausesOnly P (c.charge e output k) := by
  rcases charge_cases c e output k with ⟨err, heq⟩ | ⟨state, -, heq⟩
  · rw [heq]
    exact pausesOnly_raise err
  · rw [heq]
    exact hk _

theorem dispatchStep_pausesOnly (inputs : Items) :
    PausesOnly (Dispatched node) (c.dispatchStep e node inputs rest) := by
  rcases dispatchStep_cases c e node inputs rest with
    ⟨-, heq⟩ | ⟨herror, ⟨error, -, heq⟩ | ⟨output, -, -, heq⟩⟩
  · rw [heq]
    exact pausesOnly_charge fun _ => failureStep_pausesOnly
  · rw [heq]
    exact pausesOnly_charge fun _ => failureStep_pausesOnly
  · intro e' r nid hflow hpaused
    have hends : PausesOnly (fun nid _ => nid = node.id)
        (c.dispatchStep e node inputs rest) := by
      rw [heq]
      exact pausesOnly_charge fun _ => successStep_pausesOnly output
    have hnid := hends e' r nid hflow hpaused
    rcases dispatchStep_calls c e node inputs rest with
      ⟨hsome, -⟩ | ⟨-, hcalls⟩
    · exact absurd herror hsome
    · rw [hflow] at hcalls
      refine ⟨hnid, e.runState, ?_⟩
      rw [hnid, show e'.calls = _ from hcalls]
      exact List.mem_append_right _ List.mem_cons_self

theorem stakesStep_pausesOnly (inputs : Items) :
    PausesOnly (Dispatched node) (c.stakesStep e node inputs rest) := by
  rcases stakesStep_cases c e node inputs rest with
    ⟨-, heq | heq⟩ | ⟨-, heq⟩ | ⟨-, result, heq | ⟨-, heq⟩⟩
  · rw [heq]
    exact dispatchStep_pausesOnly inputs
  · rw [heq]
    exact dispatchStep_pausesOnly inputs
  · rw [heq]
    exact dispatchStep_pausesOnly inputs
  · rw [heq]
    exact pausesOnly_next _
  · rw [heq]
    exact dispatchStep_pausesOnly inputs

theorem budgetStep_pausesOnly (inputs : Items) :
    PausesOnly (Dispatched node) (c.budgetStep e node inputs rest) := by
  rcases budgetStep_cases c e node inputs rest with
    ⟨-, ⟨err, heq⟩ | ⟨err, heq⟩⟩ | ⟨-, heq⟩
  · rw [heq]
    exact pausesOnly_raise err
  · rw [heq]
    exact pausesOnly_saveAndReturn false
  · rw [heq]
    exact stakesStep_pausesOnly inputs

theorem bindingStep_pausesOnly :
    PausesOnly (Dispatched node) (c.bindingStep e node rest) := by
  rcases bindingStep_cases c e node rest with
    ⟨-, heq⟩ | ⟨-, -, heq⟩ | ⟨-, -, heq⟩
  · rw [heq]
    exact pausesOnly_save 1 (pausesOnly_next _)
  · rw [heq]
    exact budgetStep_pausesOnly _
  · rw [heq]
    exact budgetStep_pausesOnly _

theorem steeringStep_pausesOnly :
    PausesOnly (Dispatched node) (c.steeringStep e node rest) := by
  rcases steeringStep_cases c e node rest with
    ⟨reason, -, heq | ⟨-, heq⟩⟩ | ⟨-, heq⟩
  · rw [heq]
    exact pausesOnly_next _
  · rw [heq]
    exact bindingStep_pausesOnly
  · rw [heq]
    exact bindingStep_pausesOnly

theorem loopStep_pausesOnly : PausesOnly P (c.loopStep e node rest) := by
  unfold loopStep
  dsimp only
  split
  · exact pausesOnly_raise _
  · exact pausesOnly_save 1 (pausesOnly_next _)

theorem advanceOrFinish_pausesOnly : PausesOnly P (c.advanceOrFinish e) := by
  unfold advanceOrFinish
  split
  · exact pausesOnly_next _
  · exact pausesOnly_saveAndReturn _

theorem headStep_pausesOnly : PausesOnly P (c.headStep e) := by
  rcases headStep_cases c e with
    ⟨code, message, status, heq, -⟩ | ⟨-, heq⟩
  · rw [heq]
    exact pausesOnly_saveAndReturn false
  · rw [heq]
    unfold batchStep
    dsimp only
    split
    · exact pausesOnly_saveAndReturn false
    · split
      · unfold idleStep
        dsimp only
        split
        · exact pausesOnly_saveAndReturn _
        · split
          · split
            · exact advanceOrFinish_pausesOnly
            · exact pausesOnly_next _
          · exact advanceOrFinish_pausesOnly
      · exact pausesOnly_next _

end PausesOnly

/-- A call pauses at a gate, or at a node that it has dispatched. -/
def GateOrDispatched (c : Setting) (nid : String) (e : Exec) : Prop :=
  ∃ node, c.dag.byId nid = some node ∧
    (node.type = "gate" ∨ ∃ runState, (nid, runState) ∈ e.calls)

theorem step_pausesOnly (c : Setting) (s : Sched) :
    PausesOnly (c.GateOrDispatched) (c.step s) := by
  obtain ⟨queue, e⟩ := s
  cases queue with
  | nil => exact headStep_pausesOnly
  | cons nid rest =>
      rcases c.nodeStep_ways { e with tick := e.tick + 1 } nid rest with
        ⟨-, heq⟩ | ⟨-, heq⟩ | ⟨node, hnode, -, heq⟩
      · have hstep : c.step ⟨nid :: rest, e⟩ = _ := heq
        rw [hstep]
        exact pausesOnly_raise _
      · have hstep : c.step ⟨nid :: rest, e⟩ = _ := heq
        rw [hstep]
        exact pausesOnly_next _
      · obtain rfl := Dag.byId_id hnode
        have hstep : c.step ⟨node.id :: rest, e⟩ = _ := heq
        rw [hstep]
        rcases c.processNode_cases
            (startNode { e with tick := e.tick + 1 } node.id) node rest with
          ⟨htype, hprocess⟩ | ⟨-, hprocess⟩ | ⟨-, -, hprocess⟩
        · rw [hprocess]
          exact pausesOnly_persistAfterNode ⟨node, hnode, Or.inl htype⟩
        · rw [hprocess]
          exact loopStep_pausesOnly
        · rw [hprocess]
          refine steeringStep_pausesOnly.mono ?_
          rintro nid e' ⟨rfl, hcalls⟩
          exact ⟨node, hnode, Or.inr hcalls⟩

theorem steps_pausesOnly {P : String → Exec → Prop}
    (hstep : ∀ s, PausesOnly P (c.step s)) (n : ℕ) (s : Sched) :
    PausesOnly P (c.steps n (.next s)) :=
  steps_invariant (Q := PausesOnly P) (fun s _ (_ : True) => hstep s) n
    (fun _ _ _ _ => trivial) (pausesOnly_next s)

end Setting

/-! ## Sequences of calls -/

/-- No step of the calls dispatches a node that asks for a pause before its
execution. -/
def NeverPassesPause (dag : Dag) (calls : List Call) : Prop :=
  ∀ call ∈ calls, ∀ m < call.length, ∀ s,
    call.setting.steps m (.next call.start) = .next s →
      ∀ node, call.setting.Dispatches s node →
        shouldPauseBefore dag node = false

theorem IsCall.mem_calls_iff (h : IsCall dag call)
    (nid : String) :
    (∃ runState, (nid, runState) ∈ call.flow.exec.calls) ↔
      ∃ m < call.length, ∃ s,
        call.setting.steps m (.next call.start) = .next s ∧
          ∃ node, node.id = nid ∧ call.setting.Dispatches s node := by
  have hiff := fun runState => Setting.mem_calls_iff (c := call.setting)
    h.calls_start call.length (nid, runState)
  constructor
  · rintro ⟨runState, hmem⟩
    obtain ⟨m, hm, s, hs, node, hnode, heq⟩ := (hiff runState).mp hmem
    exact ⟨m, hm, s, hs, node, (Prod.mk.inj heq).1.symm, hnode⟩
  · rintro ⟨m, hm, s, hs, node, rfl, hnode⟩
    exact ⟨_, (hiff _).mpr ⟨m, hm, s, hs, node, hnode, rfl⟩⟩

theorem IsCall.dispatched_of_pausedAt (h : IsCall dag call) {nid : String}
    (hpaused : call.PausedAt nid) {node : Node}
    (hnode : dag.byId nid = some node) (hgate : node.type ≠ "gate") :
    ∃ runState, (nid, runState) ∈ call.flow.exec.calls := by
  obtain ⟨e, r, hflow, -, hr⟩ := hpaused
  have hpauses := Setting.steps_pausesOnly
    (Setting.step_pausesOnly call.setting) call.length call.start
  obtain ⟨node', hnode', hkind⟩ := hpauses e r nid hflow hr
  rw [h.dag_eq, hnode] at hnode'
  obtain rfl := Option.some.inj hnode'
  rw [hflow]
  exact hkind.resolve_left hgate

theorem IsCall.known_of_dispatched (h : IsCall dag call) {nid : String}
    (hcalled : ∃ runState, (nid, runState) ∈ call.flow.exec.calls) :
    ∃ node, dag.byId nid = some node ∧ node.type ≠ "gate" := by
  obtain ⟨m, -, s, -, node, rfl, hnode⟩ := (h.mem_calls_iff nid).mp hcalled
  have hknown := hnode.starts.known
  rw [h.dag_eq] at hknown
  exact ⟨node, hknown, hnode.notGate⟩

/-- A sequence of calls honours the pauses before execution exactly when none of
its steps dispatches a node that asks for one. -/
theorem pauseHonoured_iff
    (dag : Dag) (calls : List Call) (hcalls : ∀ call ∈ calls, IsCall dag call) :
    PauseHonoured dag calls ↔ NeverPassesPause dag calls := by
  constructor
  · intro hhonoured
    -- The first call that dispatches such a node has no earlier pause at it.
    have hnever : ∀ (i : ℕ) (call : Call), calls[i]? = some call →
        ∀ nid node, dag.byId nid = some node → shouldPauseBefore dag node = true →
          ¬∃ runState, (nid, runState) ∈ call.flow.exec.calls := by
      intro i
      induction i using Nat.strong_induction_on with
      | _ i ih =>
        rintro call hcall nid node hnode hasks ⟨runState, hmem⟩
        obtain ⟨j, k, paused, resumed, hjk, hki, hpaused, hat, -, -⟩ :=
          hhonoured i call hcall nid runState hmem node hnode hasks
        have hisCall := hcalls call (List.mem_of_getElem? hcall)
        obtain ⟨node', hnode', hgate⟩ :=
          hisCall.known_of_dispatched ⟨runState, hmem⟩
        rw [hnode] at hnode'
        obtain rfl := Option.some.inj hnode'
        have hearlier := hcalls paused (List.mem_of_getElem? hpaused)
        exact ih j (lt_of_lt_of_le hjk hki) paused hpaused nid node hnode hasks
          (hearlier.dispatched_of_pausedAt hat hnode hgate)
    intro call hcall m hm s hs node hnode
    by_contra hasks
    rw [Bool.not_eq_false] at hasks
    obtain ⟨i, hi⟩ := List.getElem?_of_mem hcall
    have hisCall := hcalls call hcall
    have hknown := hnode.starts.known
    rw [hisCall.dag_eq] at hknown
    exact hnever i call hi node.id node hknown hasks
      ((hisCall.mem_calls_iff node.id).mpr ⟨m, hm, s, hs, node, rfl, hnode⟩)
  · intro hnever i call hcall nid runState hmem node hnode hasks
    have hmemCall := List.mem_of_getElem? hcall
    have hisCall := hcalls call hmemCall
    obtain ⟨m, hm, s, hs, node', hid, hdispatch⟩ :=
      (hisCall.mem_calls_iff nid).mp ⟨runState, hmem⟩
    have hknown := hdispatch.starts.known
    rw [hisCall.dag_eq, hid, hnode] at hknown
    obtain rfl := Option.some.inj hknown
    have hfalse := hnever call hmemCall m hm s hs node hdispatch
    rw [hasks] at hfalse
    cases hfalse

/-! ## A tool that asks for a pause -/

def pausingDag : Dag where
  graphId := "g"
  nodes :=
    [{ id := "tool", type := "tool", assignedEntity := "system",
       checkpoints := { pauseBefore := true } }]

theorem pausingDag_valid : validateDag referenceHost pausingDag = [] := by
  decide +kernel

/-- A call of `run` on a graph without inputs, under quiet services. -/
def quietCall (dag : Dag) (n : ℕ) : Call where
  setting :=
    { services := quietServices
      dag := dag
      mode := .run
      graphInputs := dag.inputs }
  start := runStart quietServices dag.inputs
  length := n

theorem quietCall_isCall (n : ℕ)
    (hvalid : validateDag referenceHost dag = []) :
    IsCall dag (quietCall dag n) := by
  have hrun : run quietServices dag [] none none =
      .ok ((quietCall dag n).setting, (quietCall dag n).start) :=
    run_of_valid hvalid
  exact IsCall.run n hrun rfl

/-- The tool is dispatched by the first call. -/
theorem pausing_tool_dispatched :
    (∀ call ∈ [quietCall pausingDag 2], IsCall pausingDag call) ∧
      ¬PauseHonoured pausingDag [quietCall pausingDag 2] := by
  constructor
  · exact List.forall_mem_singleton.mpr (quietCall_isCall 2 pausingDag_valid)
  · intro hhonoured
    obtain ⟨j, k, paused, resumed, hjk, hk, -, -, -, -⟩ :=
      hhonoured 0 _ rfl "tool" _ List.mem_cons_self _ rfl rfl
    omega

/-- A tool that asks for no pause is honoured. -/
theorem quiet_tool_honoured :
    PauseHonoured toolDag [quietCall toolDag 2] := by
  refine (pauseHonoured_iff toolDag [quietCall toolDag 2]
    (List.forall_mem_singleton.mpr (quietCall_isCall 2 toolDag_valid))).mpr ?_
  intro call hcall m hm s hs node hnode
  obtain rfl := List.mem_singleton.mp hcall
  have hmem := Dag.mem_of_byId hnode.starts.known
  obtain rfl := List.mem_singleton.mp hmem
  rfl

end Hydrogenuine.TaskGraph
