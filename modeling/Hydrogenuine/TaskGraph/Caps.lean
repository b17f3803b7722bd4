import Mathlib.Algebra.BigOperators.Group.List.Basic
import Hydrogenuine.TaskGraph.Pauses

/-!
# The cap on node executions

The cap is compared at the head of the main loop of `run`, before a batch is
picked, and not at all in `resume`.  A batch may be longer than the executions that
are left, a resumed call executes nodes without a cap, and a call that has used up
its executions fails even when no node is ready any more.  While every batch fits
into what is left over all calls, the cap holds.
-/

namespace Hydrogenuine.TaskGraph

open Support Hydrogenuine.Core Relation

/-! ## Counting executions -/

def Event.isStart : Event → Bool
  | .started _ _ => true
  | _ => false

def executions (trace : List Event) : ℕ := trace.countP Event.isStart

theorem executions_concat (trace : List Event) (event : Event) :
    executions (trace ++ [event]) =
      executions trace + if event.isStart then 1 else 0 := by
  unfold executions
  rw [List.countP_append, List.countP_singleton]

theorem executions_other (trace : List Event) (event : Event)
    (h : event.isStart = false) :
    executions (trace ++ [event]) = executions trace := by
  rw [executions_concat, h, if_neg Bool.false_ne_true, Nat.add_zero]

section Moves

variable {dag : Dag} {node : Node} {ungated mayFail : Prop}
  {value : Bool → Prop} {k k' : RunCore}

theorem executions_move (hmove : Move dag node ungated mayFail value k k') :
    executions k'.trace = executions k.trace := by
  cases hmove with
  | skip => rfl
  | block => exact executions_other k.trace _ rfl
  | fail => exact executions_other k.trace _ rfl
  | retry => exact executions_other k.trace _ rfl
  | complete => exact executions_other k.trace _ rfl
  | check => exact executions_other k.trace _ rfl
  | dispatch => exact executions_other k.trace _ rfl
  | loopOff =>
      have hevaluated :=
        executions_other k.trace (.evaluated node.id false) rfl
      exact (executions_other _ _ rfl).trans hevaluated
  | loopOn =>
      have hevaluated :=
        executions_other k.trace (.evaluated node.id true) rfl
      have hreset := executions_other
        (k.trace ++ [.evaluated node.id true]) (.reset node.body) rfl
      exact (executions_other _ _ rfl).trans (hreset.trans hevaluated)
  | loopStop => rfl

theorem executions_moves
    (hmoves : Moves dag node ungated mayFail value k k') :
    executions k'.trace = executions k.trace := by
  induction hmoves with
  | refl => rfl
  | tail _ hmove ih => exact (executions_move hmove).trans ih

theorem executions_advances (h : Setting.Advances dag node k k') :
    executions k'.trace = executions k.trace := by
  cases h with
  | «over» => rfl
  | on =>
      have hevaluated :=
        executions_other k.trace (.evaluated node.id true) rfl
      exact (executions_other _ (.reset node.body) rfl).trans hevaluated
  | off => exact executions_other k.trace _ rfl

theorem executions_head {c : Setting} {flow : Flow} (h : c.HeadMove k flow) :
    executions flow.exec.core.trace = executions k.trace := by
  cases h with
  | batch _ hcore =>
      rw [Flow.exec, hcore]
  | skipped _ hcore =>
      rw [Flow.exec, hcore]
  | @advanced status _ _ _ _ hcore =>
      exact executions_advances (k := { k with status := status }) hcore
  | stopped _ hcore =>
      rw [Flow.exec, hcore]

end Moves

namespace Setting

variable {c : Setting} {e : Exec} {s : Sched}

/-! ## The head of the main loop -/

def ready (c : Setting) (e : Exec) : List String :=
  (getReadyNodes c.dag c.dag.runPolicy.failureMode e.nodes).1

def batch (c : Setting) (e : Exec) : List String :=
  (c.ready e).take c.dag.runPolicy.maxConcurrency.toNat

def searched (c : Setting) (e : Exec) : Exec :=
  e.withNodes (getReadyNodes c.dag c.dag.runPolicy.failureMode e.nodes).2

theorem batchStep_cases (c : Setting) (e : Exec) :
    (c.capReached e ≠ none ∧ ∃ message,
      c.batchStep e = c.saveAndReturn (((c.searched e).final "failed").runError
        "MAX_NODE_EXECUTIONS_EXCEEDED" message) false) ∨
    (c.capReached e = none ∧ c.ready e = [] ∧
      c.batchStep e = c.idleStep (c.searched e)) ∨
    (c.capReached e = none ∧
      c.batchStep e = .next ⟨c.batch e, c.searched e⟩) := by
  have hsearched : ∀ nodes, c.capReached (e.withNodes nodes) = c.capReached e := fun _ => rfl
  cases hcap : c.capReached e with
  | some cap =>
      refine Or.inl ⟨Option.some_ne_none _,
        "max_node_executions cap (" ++ toString cap ++ ") exceeded", ?_⟩
      unfold Setting.batchStep
      simp only [hsearched, hcap]
      rfl
  | none =>
      have hstep : c.batchStep e =
          if (c.ready e).isEmpty then c.idleStep (c.searched e)
          else .next ⟨c.batch e, c.searched e⟩ := by
        unfold Setting.batchStep
        simp only [hsearched, hcap]
        rfl
      rw [hstep]
      by_cases hempty : (c.ready e).isEmpty = true
      · rw [if_pos hempty]
        exact Or.inr (Or.inl ⟨rfl, List.isEmpty_iff.mp hempty, rfl⟩)
      · rw [if_neg hempty]
        exact Or.inr (Or.inr ⟨rfl, rfl⟩)

theorem advanceOrFinish_queue {s' : Sched}
    (h : c.advanceOrFinish e = .next s') : s'.queue = [] := by
  unfold advanceOrFinish at h
  split at h
  · obtain rfl := Flow.next.inj h
    rfl
  · have hstops : (c.finish e).goesOn = false := saveAndReturn_stops _
    rw [h] at hstops
    cases hstops

theorem idleStep_queue {s' : Sched} (h : c.idleStep e = .next s') :
    s'.queue = [] := by
  unfold idleStep at h
  dsimp only at h
  split at h
  · have hstops : (c.finish e).goesOn = false := saveAndReturn_stops _
    rw [h] at hstops
    cases hstops
  · split at h
    · split at h
      · exact advanceOrFinish_queue h
      · obtain rfl := Flow.next.inj h
        rfl
    · exact advanceOrFinish_queue h

theorem nodes_injected (c : Setting) (e : Exec) :
    (c.injected e).nodes = e.nodes := by
  unfold injected
  split
  · rfl
  · rfl

theorem executionCount_injected (c : Setting) (e : Exec) :
    (c.injected e).executionCount = e.executionCount := by
  unfold injected
  split
  · rfl
  · rfl

theorem capReached_injected (c : Setting) (e : Exec) :
    c.capReached (c.injected e) = c.capReached e := by
  unfold capReached
  rw [executionCount_injected]

theorem ready_injected (c : Setting) (e : Exec) :
    c.ready (c.injected e) = c.ready e := by
  unfold ready
  rw [nodes_injected]

theorem headStep_queue {s' : Sched} (h : c.headStep e = .next s') :
    s'.queue = [] ∨
      (c.Polled e ∧ c.capReached e = none ∧ s'.queue = c.batch e) := by
  rcases headStep_cases c e with
    ⟨code, message, status, heq, -⟩ | ⟨hpolled, heq⟩
  · have hstops := saveAndReturn_stops (c := c)
      (e := ((c.injected e).final status).runError code message) false
    rw [← heq, h] at hstops
    cases hstops
  · rw [heq] at h
    rcases batchStep_cases c (c.injected e) with
      ⟨-, message, hbatch⟩ | ⟨-, -, hbatch⟩ | ⟨hcap, hbatch⟩
    · have hstops := saveAndReturn_stops (c := c)
        (e := ((c.searched (c.injected e)).final "failed").runError
          "MAX_NODE_EXECUTIONS_EXCEEDED" message) false
      rw [← hbatch, h] at hstops
      cases hstops
    · rw [hbatch] at h
      exact Or.inl (idleStep_queue h)
    · rw [hbatch] at h
      obtain rfl := Flow.next.inj h
      rw [capReached_injected] at hcap
      refine Or.inr ⟨hpolled, hcap, ?_⟩
      show c.batch (c.injected e) = c.batch e
      unfold batch
      rw [ready_injected]

/-! ## Failing at the cap -/

def runErrorCode (e : Exec) : PyVal :=
  match PyVal.getItem e.runState.state "_run_error" with
  | .dict error => PyVal.getItem error "code"
  | _ => .none

/-- The head of the main loop fails the run with
`MAX_NODE_EXECUTIONS_EXCEEDED`. -/
def FailsAtCap (c : Setting) (s : Sched) : Prop :=
  s.queue = [] ∧
    runErrorCode s.exec ≠ .str "MAX_NODE_EXECUTIONS_EXCEEDED" ∧
    runErrorCode (c.step s).exec = .str "MAX_NODE_EXECUTIONS_EXCEEDED"

theorem runErrorCode_runError (e : Exec) (code message : String) :
    runErrorCode (e.runError code message) = .str code := by
  unfold runErrorCode Exec.runError Exec.withItems Exec.withState
  dsimp only
  rw [PyVal.getItem_setItem, if_pos rfl]
  rfl

theorem runErrorCode_injected (c : Setting) (e : Exec) :
    runErrorCode (c.injected e) = runErrorCode e := by
  unfold injected
  split
  · unfold runErrorCode Exec.withItems Exec.withState
    dsimp only
    rw [PyVal.getItem_setItem, if_neg (by decide)]
  · rfl

theorem advanceLoop_state (c : Setting) (e : Exec) (node : Node) :
    (c.advanceLoop e node).runState.state = e.runState.state := by
  unfold advanceLoop
  dsimp only
  split
  · rfl
  · split
    · rfl
    · rfl

theorem finish_state (c : Setting) (e : Exec) :
    (c.finish e).exec.runState.state = e.runState.state := by
  unfold finish
  dsimp only
  rw [saveAndReturn_exec]
  rfl

theorem advanceOrFinish_state (c : Setting) (e : Exec) :
    (c.advanceOrFinish e).exec.runState.state = e.runState.state := by
  unfold advanceOrFinish
  split
  · exact advanceLoop_state c e _
  · exact finish_state c e

theorem idleStep_state (c : Setting) (e : Exec) :
    (c.idleStep e).exec.runState.state = e.runState.state := by
  unfold idleStep
  dsimp only
  split
  · exact finish_state c e
  · split
    · split
      · exact advanceOrFinish_state c _
      · rfl
    · exact advanceOrFinish_state c e

theorem FailsAtCap.reached (h : c.FailsAtCap s) :
    c.Polled s.now ∧ c.capReached s.exec ≠ none := by
  obtain ⟨queue, e⟩ := s
  obtain ⟨rfl, hbefore, hafter⟩ := h
  have hstep : c.step ⟨[], e⟩ = c.headStep { e with tick := e.tick + 1 } := rfl
  have hcap : c.capReached { e with tick := e.tick + 1 } = c.capReached e := rfl
  have hcode : runErrorCode { e with tick := e.tick + 1 } = runErrorCode e :=
    rfl
  rw [hstep] at hafter
  rcases headStep_cases c { e with tick := e.tick + 1 } with
    ⟨code, message, status, heq, -, hcode'⟩ | ⟨hpolled, heq⟩
  · rw [heq, saveAndReturn_exec, runErrorCode_runError] at hafter
    exact absurd (PyVal.str.inj hafter) hcode'
  · refine ⟨hpolled, ?_⟩
    rw [heq] at hafter
    rcases batchStep_cases c (c.injected { e with tick := e.tick + 1 }) with
      ⟨hreached, -⟩ | ⟨-, -, hbatch⟩ | ⟨-, hbatch⟩
    · rw [capReached_injected, hcap] at hreached
      exact hreached
    · have hsame : runErrorCode (c.batchStep
          (c.injected { e with tick := e.tick + 1 })).exec =
            runErrorCode (c.injected { e with tick := e.tick + 1 }) := by
        rw [hbatch]
        unfold runErrorCode
        rw [idleStep_state]
        rfl
      rw [hsame, runErrorCode_injected, hcode] at hafter
      exact absurd hafter hbefore
    · have hsame : runErrorCode (c.batchStep
          (c.injected { e with tick := e.tick + 1 })).exec =
            runErrorCode (c.injected { e with tick := e.tick + 1 }) := by
        rw [hbatch]
        rfl
      rw [hsame, runErrorCode_injected, hcode] at hafter
      exact absurd hafter hbefore

/-! ## Runs -/

/-- When the main loop looks for a batch below the cap, the batch fits into what
the executions so far leave, and at the cap a node is ready. -/
structure Fits (c : Setting) (prior : ℕ) (s : Sched) : Prop where
  room : c.capReached s.exec = none →
    ∀ cap, c.dag.runPolicy.maxNodeExecutions = some cap →
      (prior + executions s.exec.trace + (c.batch s.exec).length : ℤ) ≤ cap
  ready : c.capReached s.exec ≠ none → c.ready s.exec ≠ []

/-- The executions so far and those of the batch are within the cap. -/
def WithinCap (prior : ℕ) (cap : ℤ) : Flow → Prop
  | .next s =>
      (prior + executions s.exec.trace + s.queue.length : ℤ) ≤ cap
  | .stop e _ => (prior + executions e.trace : ℤ) ≤ cap

theorem withinCap_of
    {prior : ℕ} {cap : ℤ} {flow : Flow} {count : ℕ} (left : ℕ)
    (hcount : executions flow.exec.trace ≤ count)
    (hqueue : ∀ s, flow = .next s → s.queue.length ≤ left)
    (h : (prior + count + left : ℤ) ≤ cap) : WithinCap prior cap flow := by
  cases flow with
  | next s =>
      have hlength := hqueue s rfl
      have hcount' : executions s.exec.trace ≤ count := hcount
      unfold WithinCap
      omega
  | stop e r =>
      have hcount' : executions e.trace ≤ count := hcount
      unfold WithinCap
      omega

theorem WithinCap.step
    (hdag : Accepted c.dag) {prior : ℕ} {cap : ℤ}
    (hcap : c.dag.runPolicy.maxNodeExecutions = some cap)
    (h : WithinCap prior cap (.next s))
    (hfits : s.queue = [] → c.Polled s.now → c.Fits prior s) :
    WithinCap prior cap (c.step s) := by
  have hbefore : (prior + executions s.exec.trace + s.queue.length : ℤ) ≤ cap :=
    h
  rcases step_cases hdag s with
    ⟨hempty, hhead⟩ | ⟨nid, rest, hqueue, hleaves, hcore⟩ |
      ⟨node, rest, hqueue, hleaves, -, hmoves⟩
  · have hcount : executions (c.step s).exec.trace =
        executions s.exec.trace := executions_head hhead
    obtain ⟨queue, e⟩ := s
    obtain rfl : queue = [] := hempty
    cases hflow : c.step ⟨[], e⟩ with
    | stop e' r =>
        rw [hflow] at hcount
        refine withinCap_of 0 (le_of_eq hcount) nofun ?_
        simpa using hbefore
    | next s' =>
        rw [hflow] at hcount
        rcases headStep_queue hflow with hnone | ⟨hpolled, hbelow, hbatch⟩
        · refine withinCap_of 0 (le_of_eq hcount) ?_ ?_
          · intro s'' hs''
            obtain rfl := Flow.next.inj hs''
            rw [hnone]
            exact le_rfl
          · simpa using hbefore
        · have hroom := (hfits rfl hpolled).room hbelow cap hcap
          refine withinCap_of _ (le_of_eq hcount) ?_ hroom
          intro s'' hs''
          obtain rfl := Flow.next.inj hs''
          rw [hbatch]
          exact le_rfl
  · have hcount : executions (c.step s).exec.trace =
        executions s.exec.trace :=
      congrArg (fun k : RunCore => executions k.trace) hcore
    rw [hqueue, List.length_cons] at hbefore
    refine withinCap_of rest.length (le_of_eq hcount) ?_ ?_
    · intro s' hs'
      rw [hleaves.queue s' hs']
    · push_cast at hbefore
      omega
  · have hstart : executions (s.exec.core.start node.id).trace =
        executions s.exec.trace + 1 :=
      executions_concat s.exec.trace (.started node.id s.exec.core.status)
    have hcount : executions (c.step s).exec.trace =
        executions s.exec.trace + 1 := (executions_moves hmoves).trans hstart
    rw [hqueue, List.length_cons] at hbefore
    refine withinCap_of rest.length (le_of_eq hcount) ?_ ?_
    · intro s' hs'
      rw [hleaves.queue s' hs']
    · push_cast at hbefore ⊢
      omega

end Setting

def executed (calls : List Call) : ℕ :=
  (calls.map fun call => executions call.flow.exec.trace).sum

/-- What the cap shall do over all calls: no more nodes are executed, and the run
fails at the cap only while a node is ready. -/
structure CapRespected (dag : Dag) (calls : List Call) : Prop where
  total : ∀ cap, dag.runPolicy.maxNodeExecutions = some cap →
    (executed calls : ℤ) ≤ cap
  failure : ∀ call ∈ calls, ∀ m < call.length, ∀ s,
    call.setting.steps m (.next call.start) = .next s →
      call.setting.FailsAtCap s → call.setting.ready s.exec ≠ []

/-- Every batch of the calls fits into what the calls so far leave. -/
def BatchesFit (calls : List Call) : Prop :=
  ∀ (i : ℕ) (call : Call), calls[i]? = some call → ∀ m < call.length, ∀ s,
    call.setting.steps m (.next call.start) = .next s → s.queue = [] →
      call.setting.Polled s.now →
        call.setting.Fits (executed (calls.take i)) s

theorem IsCall.within_cap
    {dag : Dag} {call : Call} (h : IsCall dag call) {host : Host}
    (hvalid : validateDag host dag = []) {prior : ℕ} {cap : ℤ}
    (hcap : dag.runPolicy.maxNodeExecutions = some cap)
    (hprior : (prior : ℤ) ≤ cap)
    (hfits : ∀ m < call.length, ∀ s,
      call.setting.steps m (.next call.start) = .next s → s.queue = [] →
        call.setting.Polled s.now → call.setting.Fits prior s) :
    (prior + executions call.flow.exec.trace : ℤ) ≤ cap := by
  have hdag := h.accepted hvalid
  rw [← h.dag_eq] at hcap
  obtain ⟨hqueue, htrace, -⟩ := h.start_fresh
  have hstart : Setting.WithinCap prior cap (.next call.start) := by
    have hnone : (prior + executions call.start.exec.trace +
        call.start.queue.length : ℤ) ≤ cap := by
      rw [hqueue, htrace]
      simpa [executions] using hprior
    exact hnone
  have hrun : Setting.WithinCap prior cap call.flow :=
    Setting.steps_invariant
      (fun s hs hguard => Setting.WithinCap.step hdag hcap hs hguard)
      call.length hfits hstart
  cases hflow : call.flow with
  | stop e r =>
      rw [hflow] at hrun
      exact hrun
  | next s =>
      rw [hflow] at hrun
      have hwithin : (prior + executions s.exec.trace + s.queue.length : ℤ) ≤
          cap := hrun
      show (prior + executions s.exec.trace : ℤ) ≤ cap
      omega

/-- Along all calls of a valid graph whose batches fit, the cap is respected. -/
theorem cap_respected
    (host : Host) (dag : Dag) (hvalid : validateDag host dag = [])
    (calls : List Call) (hcalls : ∀ call ∈ calls, IsCall dag call)
    (hfits : BatchesFit calls) : CapRespected dag calls := by
  constructor
  · intro cap hcap
    have hupTo : ∀ i ≤ calls.length, (executed (calls.take i) : ℤ) ≤ cap := by
      intro i
      induction i with
      | zero =>
          intro _
          have hpos := (accepted_of_valid hvalid).cap cap hcap
          have hnone : executed (calls.take 0) = 0 := rfl
          rw [hnone]
          exact le_trans (by decide) hpos
      | succ i ih =>
          intro hi
          obtain ⟨call, hget⟩ : ∃ call, calls[i]? = some call :=
            ⟨_, List.getElem?_eq_getElem hi⟩
          have hlast := (hcalls call (List.mem_of_getElem? hget)).within_cap
            hvalid hcap (ih (Nat.le_of_succ_le hi)) (hfits i call hget)
          have hsum : executed (calls.take (i + 1)) =
              executed (calls.take i) + executions call.flow.exec.trace := by
            unfold executed
            rw [List.take_add_one, hget, List.map_append, List.sum_append]
            simp
          rw [hsum]
          push_cast
          exact hlast
    have hall := hupTo calls.length le_rfl
    rw [List.take_length] at hall
    exact hall
  · intro call hcall m hm s hs hfails
    obtain ⟨i, hi⟩ := List.getElem?_of_mem hcall
    obtain ⟨hpolled, hreached⟩ := hfails.reached
    exact (hfits i call hi m hm s hs hfails.1 hpolled).ready hreached

/-! ## Caps that are passed -/

def cappedDag (cap concurrency : ℤ) (nodes : List Node) : Dag where
  graphId := "g"
  runPolicy := { maxNodeExecutions := some cap, maxConcurrency := concurrency }
  nodes := nodes

def capTool (id : String) (dependsOn : List String) : Node where
  id := id
  type := "tool"
  assignedEntity := "system"
  dependsOn := dependsOn

def batchDag : Dag := cappedDag 1 2 [capTool "a" [], capTool "b" []]

def onceDag : Dag := cappedDag 1 1 [capTool "a" []]

def chainDag : Dag := cappedDag 1 1 [capTool "a" [], capTool "b" ["a"]]

/-- A call of `resume` on what another call has left. -/
def resumedCall (call : Call) (n : ℕ) : Call where
  setting := { call.setting with mode := .resume }
  start := resumeStart quietServices call.setting.graphInputs
    { nodeStates := fun id => some (call.flow.exec.nodes id)
      runState := call.flow.exec.runState }
  length := n

theorem resumedCall_isCall (dag : Dag) (n m : ℕ) :
    IsCall dag (resumedCall (quietCall dag n) m) := by
  have hresume : resume quietServices dag none
      (some
        { nodeStates := fun id => some ((quietCall dag n).flow.exec.nodes id)
          runState := (quietCall dag n).flow.exec.runState }) none =
      some ((resumedCall (quietCall dag n) m).setting,
        (resumedCall (quietCall dag n) m).start) := rfl
  exact IsCall.resume m hresume

/-- The batch, the completed run and the resumed run pass their caps. -/
theorem caps_passed :
    (∃ calls, (∀ call ∈ calls, IsCall batchDag call) ∧
      ¬CapRespected batchDag calls) ∧
    (∃ calls, (∀ call ∈ calls, IsCall onceDag call) ∧
      ¬CapRespected onceDag calls) ∧
    ∃ calls, (∀ call ∈ calls, IsCall chainDag call) ∧
      ¬CapRespected chainDag calls := by
  refine ⟨⟨[quietCall batchDag 3], ?_, fun h => ?_⟩,
    ⟨[quietCall onceDag 3], ?_, fun h => ?_⟩,
    ⟨[quietCall chainDag 3, resumedCall (quietCall chainDag 3) 2], ?_,
      fun h => ?_⟩⟩
  · exact List.forall_mem_singleton.mpr (quietCall_isCall 3 (by decide +kernel))
  · have hover : executed [quietCall batchDag 3] = 2 := by decide +kernel
    have htotal := h.total 1 rfl
    rw [hover] at htotal
    exact absurd htotal (by decide)
  · exact List.forall_mem_singleton.mpr (quietCall_isCall 3 (by decide +kernel))
  · refine h.failure _ List.mem_cons_self 2 (by decide) _ rfl ⟨rfl, ?_, rfl⟩ rfl
    intro hcode
    cases hcode
  · refine List.forall_mem_cons.mpr
      ⟨quietCall_isCall 3 (by decide +kernel),
        List.forall_mem_singleton.mpr (resumedCall_isCall chainDag 3 2)⟩
  · have hover : executed
        [quietCall chainDag 3, resumedCall (quietCall chainDag 3) 2] = 2 := by
      decide +kernel
    have htotal := h.total 1 rfl
    rw [hover] at htotal
    exact absurd htotal (by decide)

/-- One tool whose only batch fits. -/
theorem batch_fits :
    CapRespected (cappedDag 2 1 [capTool "a" []])
      [quietCall (cappedDag 2 1 [capTool "a" []]) 2] := by
  have hvalid : validateDag referenceHost
      (cappedDag 2 1 [capTool "a" []]) = [] := by
    decide +kernel
  refine cap_respected referenceHost (cappedDag 2 1 [capTool "a" []]) hvalid
    [quietCall (cappedDag 2 1 [capTool "a" []]) 2]
    (List.forall_mem_singleton.mpr (quietCall_isCall 2 hvalid)) ?_
  intro i call hcall m hm s hs hempty hpolled
  cases i with
  | succ i => cases hcall
  | zero =>
      obtain rfl := Option.some.inj hcall
      cases m with
      | zero =>
          obtain rfl := Flow.next.inj hs
          refine ⟨fun _ cap hcap => ?_, fun hreached => absurd rfl hreached⟩
          obtain rfl := Option.some.inj hcap
          decide +kernel
      | succ m =>
          have hone : m = 0 := by
            have hlt : m + 1 < 2 := hm
            omega
          subst hone
          obtain rfl := Flow.next.inj hs
          cases hempty

end Hydrogenuine.TaskGraph
