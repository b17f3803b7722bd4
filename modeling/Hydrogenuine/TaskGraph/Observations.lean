import Hydrogenuine.TaskGraph.Steps

/-!
# What is observed of a step

Each function of the executor adds observations to the run.  The head of the main
loop and the control nodes add only changes of statuses; any other node reaches the
dispatcher when nothing before it gives the node an error, and then one call is
added, with a run state that is known before the step.
-/

namespace Hydrogenuine.TaskGraph

open Support Hydrogenuine.Core Relation

/-! ## Added observations -/

namespace Observation

def IsChange : Observation → Prop
  | .changed _ _ => True
  | _ => False

def SkipsOf (dag : Dag) (P : Option NodeStatus → Prop) : Observation → Prop
  | .changed before after => Skips dag P before after
  | _ => False

def NotCall : Observation → Prop
  | .called _ _ => False
  | _ => True

theorem IsChange.notCall {o : Observation} (h : o.IsChange) : o.NotCall := by
  cases o with
  | changed => trivial
  | _ => exact h.elim

theorem SkipsOf.isChange {dag : Dag} {P : Option NodeStatus → Prop}
    {o : Observation} (h : o.SkipsOf dag P) : o.IsChange := by
  cases o with
  | changed => trivial
  | _ => exact h

end Observation

def withStatus
    (statuses : String → Option NodeStatus) (id : String)
    (status : NodeStatus) : String → Option NodeStatus :=
  fun id' => if id' = id then some status else statuses id'

/-- What is observed after `e` and up to `e'` is of a kind. -/
def Adds (P : Observation → Prop) (e e' : Exec) : Prop :=
  ∃ more, e'.observed = e.observed ++ more ∧ ∀ o ∈ more, P o

section Adds

variable {P Q : Observation → Prop} {e e' e'' : Exec}

theorem Adds.same (h : e'.observed = e.observed) : Adds P e e' :=
  ⟨[], by rw [h, List.append_nil], nofun⟩

theorem Adds.one {o : Observation} (h : e'.observed = e.observed ++ [o])
    (ho : P o) : Adds P e e' :=
  ⟨[o], h, List.forall_mem_singleton.mpr ho⟩

theorem Adds.trans (h : Adds P e e') (h' : Adds P e' e'') : Adds P e e'' := by
  obtain ⟨more, heq, hmore⟩ := h
  obtain ⟨more', heq', hmore'⟩ := h'
  refine ⟨more ++ more', ?_, List.forall_mem_append.mpr ⟨hmore, hmore'⟩⟩
  rw [heq', heq, List.append_assoc]

theorem Adds.mono (h : Adds P e e') (hPQ : ∀ o, P o → Q o) : Adds Q e e' := by
  obtain ⟨more, heq, hmore⟩ := h
  exact ⟨more, heq, fun o ho => hPQ o (hmore o ho)⟩

theorem Adds.forall (h : Adds P e e') (he : ∀ o ∈ e.observed, P o) :
    ∀ o ∈ e'.observed, P o := by
  obtain ⟨more, heq, hmore⟩ := h
  rw [heq]
  exact List.forall_mem_append.mpr ⟨he, hmore⟩

end Adds

def Exec.calls (e : Exec) : List (String × RunState) :=
  e.observed.filterMap fun o =>
    match o with
    | .called nid runState => some (nid, runState)
    | _ => none

theorem Adds.calls {e e' : Exec} (h : Adds Observation.NotCall e e') :
    e'.calls = e.calls := by
  obtain ⟨more, heq, hmore⟩ := h
  have hnone : more.filterMap (fun o =>
      match o with
      | .called nid runState => some (nid, runState)
      | _ => none) = [] := by
    refine List.filterMap_eq_nil_iff.mpr fun o ho => ?_
    cases o with
    | called => exact (hmore _ ho).elim
    | _ => rfl
  rw [Exec.calls, heq, List.filterMap_append, hnone, List.append_nil]
  rfl

/-! ### Observations of the small changes -/

section Observed

variable (e : Exec) (id : String)

theorem observed_withNodes (nodes : String → NodeRun) :
    (e.withNodes nodes).observed =
      e.observed ++ [.changed e.statuses fun id => (nodes id).status] := rfl

theorem observed_settle (status : NodeStatus) :
    (e.settle id status).observed =
      e.observed ++ [.changed e.statuses (withStatus e.statuses id status)] := by
  have hstatus : (fun id' => (setNode e.nodes id
      { e.nodes id with status := some status } id').status) =
        withStatus e.statuses id status := by
    funext id'
    unfold setNode withStatus
    split
    · rfl
    · rfl
  rw [← hstatus]
  rfl

theorem observed_fail (error : Items) :
    (e.fail id error).observed =
      e.observed ++ [.changed e.statuses e.statuses] := by
  have hstatus : (fun id' => (setNode e.nodes id
      { e.nodes id with error := error } id').status) = e.statuses := by
    funext id'
    unfold setNode
    split
    · rename_i heq
      rw [heq]
      rfl
    · rfl
  have hobserved : (e.fail id error).observed =
      e.observed ++ [.changed e.statuses fun id' => (setNode e.nodes id
        { e.nodes id with error := error } id').status] := rfl
  rw [hobserved, hstatus]

end Observed

def readied
    (statuses : String → Option NodeStatus) (id : String) :
    String → Option NodeStatus :=
  if (statuses id).getD .pending = .pending then withStatus statuses id .ready
  else statuses

theorem statuses_readyNode (e : Exec) (id : String) :
    (Setting.readyNode e id).statuses = readied e.statuses id := by
  unfold Setting.readyNode Exec.withNode Exec.withNodes Exec.observe
    Exec.statuses setNode readied NodeRun.current withStatus
  funext id'
  dsimp only
  by_cases hpending : (e.nodes id).status.getD .pending = .pending
  · rw [if_pos hpending, if_pos hpending]
    split
    · rfl
    · rfl
  · rw [if_neg hpending, if_neg hpending]
    split
    · rename_i heq
      rw [heq]
    · rfl

theorem observed_startNode (e : Exec) (id : String) :
    (Setting.startNode e id).observed =
      e.observed ++ [.changed e.statuses (readied e.statuses id)] ++
        [.changed (readied e.statuses id)
          (withStatus (readied e.statuses id) id .running)] := by
  have hready := statuses_readyNode e id
  have hrunning : (fun id' => (setNode (Setting.readyNode e id).nodes id
      { status := some .running
        attemptCount := ((Setting.readyNode e id).nodes id).attemptCount + 1
        error := [] } id').status) =
        withStatus (Setting.readyNode e id).statuses id .running := by
    funext id'
    unfold setNode withStatus
    split
    · rfl
    · rfl
  have hobserved : (Setting.startNode e id).observed =
      e.observed ++ [.changed e.statuses (Setting.readyNode e id).statuses] ++
        [.changed (Setting.readyNode e id).statuses
          fun id' => (setNode (Setting.readyNode e id).nodes id
            { status := some .running
              attemptCount :=
                ((Setting.readyNode e id).nodes id).attemptCount + 1
              error := [] } id').status] := rfl
  rw [hobserved, hrunning, hready]

namespace Setting

variable {c : Setting} {node : Node} {rest : List String} {e : Exec}

/-! ## The ways through a node -/

def failed (c : Setting) (e : Exec) (node : Node) : Exec :=
  (c.settleEscrowLock e node.id .slashed).settle node.id .failed

theorem failureStep_cases
    (c : Setting) (e : Exec) (node : Node) (rest : List String) :
    ((e.nodes node.id).attemptCount ≤ node.policy.maxRetries ∧
      c.failureStep e node rest = .next ⟨rest, e.settle node.id .ready⟩) ∨
    (node.policy.maxRetries < (e.nodes node.id).attemptCount ∧
      (c.dag.runPolicy.failureMode = "fail_fast" ∧
        (c.failureStep e node rest).exec =
          (c.skipPendingDependents (c.failed e node) node.id).final "failed" ∨
      c.dag.runPolicy.failureMode ≠ "fail_fast" ∧
        (c.failureStep e node rest).exec =
          c.stopLoop (c.failed e node) node.id)) := by
  unfold failureStep
  by_cases hattempts :
      (e.nodes node.id).attemptCount ≤ node.policy.maxRetries
  · rw [if_pos hattempts]
    exact Or.inl ⟨hattempts, rfl⟩
  · rw [if_neg hattempts]
    refine Or.inr ⟨not_le.mp hattempts, ?_⟩
    dsimp only
    by_cases hfast : (c.dag.runPolicy.failureMode == "fail_fast") = true
    · rw [if_pos hfast, saveAndReturn_exec]
      exact Or.inl ⟨beq_iff_eq.mp hfast, rfl⟩
    · rw [if_neg hfast, save_next_exec]
      rw [beq_iff_eq] at hfast
      exact Or.inr ⟨hfast, rfl⟩

variable {P : Observation → Prop}

theorem adds_settle {status : NodeStatus}
    (id : String)
    (h : P (.changed e.statuses (withStatus e.statuses id status))) :
    Adds P e (e.settle id status) :=
  Adds.one (observed_settle e id status) h

theorem adds_fail (id : String) (error : Items)
    (h : P (.changed e.statuses e.statuses)) :
    Adds P e (e.fail id error) :=
  Adds.one (observed_fail e id error) h

theorem adds_withNodes {nodes : String → NodeRun}
    (h : P (.changed e.statuses fun id => (nodes id).status)) :
    Adds P e (e.withNodes nodes) :=
  Adds.one (observed_withNodes e nodes) h

theorem settleEscrowLock_adds
    (c : Setting) (e : Exec) (nid : String)
    (entry : String → PyVal → Observation) :
    Adds (fun o => ∃ amount, o = entry nid amount) e
      (c.settleEscrowLock e nid entry) := by
  unfold settleEscrowLock
  split
  · split
    · exact Adds.one rfl ⟨_, rfl⟩
    · exact Adds.same rfl
  · exact Adds.same rfl

def escrowAmount (c : Setting) (tick : ℕ) (node : Node) : Option PyVal :=
  match c.mode, c.stakesPolicy with
  | .run, some policy =>
      if node.type == "agent" then c.services.lockEscrow tick policy else none
  | _, _ => none

def locked (e : Exec) (node : Node) (amount : PyVal) : Exec :=
  (e.observe (.locked node.id amount)).withItems fun state =>
    PyVal.setItem state "_escrow_lock"
      (.dict [("node_id", .str node.id), ("amount", amount)])

theorem lockEscrow_eq (c : Setting) (e : Exec) (node : Node) :
    c.lockEscrow e node = (c.escrowAmount e.tick node).elim e
      (locked e node) := by
  unfold lockEscrow escrowAmount
  cases hmode : c.mode with
  | resume => rfl
  | run =>
      cases hpolicy : c.stakesPolicy with
      | none => rfl
      | some policy =>
          dsimp only
          split
          · cases c.services.lockEscrow e.tick policy with
            | none => rfl
            | some amount => rfl
          · rfl

theorem lockEscrow_adds (c : Setting) (e : Exec) (node : Node) :
    Adds (fun o => ∃ amount, o = .locked node.id amount) e
      (c.lockEscrow e node) := by
  rw [lockEscrow_eq]
  cases c.escrowAmount e.tick node with
  | none => exact Adds.same rfl
  | some amount => exact Adds.one rfl ⟨amount, rfl⟩

theorem failed_adds (c : Setting) (e : Exec) (node : Node) :
    Adds Observation.NotCall e (c.failed e node) := by
  have hslash := settleEscrowLock_adds c e node.id .slashed
  refine (hslash.mono ?_).trans (adds_settle node.id trivial)
  rintro _ ⟨amount, rfl⟩
  trivial

theorem stopLoop_adds (c : Setting) (e : Exec) (nid : String) :
    Adds Observation.IsChange e (c.stopLoop e nid) := by
  unfold stopLoop
  split
  · exact Adds.same rfl
  · split
    · exact Adds.one rfl trivial
    · exact Adds.same rfl

theorem failureStep_adds (c : Setting) (e : Exec) (node : Node)
    (rest : List String) :
    Adds Observation.NotCall e (c.failureStep e node rest).exec := by
  rcases failureStep_cases c e node rest with
    ⟨-, heq⟩ | ⟨-, ⟨-, heq⟩ | ⟨-, heq⟩⟩
  · rw [heq]
    exact adds_settle node.id trivial
  · rw [heq]
    have hskip : Adds Observation.NotCall (c.failed e node)
        (c.skipPendingDependents (c.failed e node) node.id) :=
      adds_withNodes trivial
    exact (failed_adds c e node).trans (hskip.trans (Adds.same rfl))
  · rw [heq]
    exact (failed_adds c e node).trans
      ((stopLoop_adds c _ node.id).mono fun _ => Observation.IsChange.notCall)

theorem successStep_adds (c : Setting) (e : Exec) (node : Node)
    (output : Option Items) (rest : List String) :
    Adds Observation.NotCall e (c.successStep e node output rest).exec := by
  have hdone : Adds Observation.NotCall e (e.settle node.id .done) :=
    adds_settle node.id trivial
  rcases successStep_cases c e node output rest with
    ⟨err, -, -, heq⟩ | ⟨v, heq⟩
  · rw [heq]
    exact hdone
  · rw [heq, persistAfterNode_exec]
    have houtput : Adds Observation.NotCall (e.settle node.id .done)
        ((e.settle node.id .done).output node.id v) := Adds.same rfl
    have hrelease := settleEscrowLock_adds c
      ((e.settle node.id .done).output node.id v) node.id .released
    refine hdone.trans (houtput.trans (hrelease.mono ?_))
    rintro _ ⟨amount, rfl⟩
    trivial

/-! ## Calls of the dispatcher -/

theorem calls_called (c : Setting) (e : Exec) (node : Node) (inputs : Items) :
    (c.called e node inputs).calls = e.calls ++ [(node.id, e.runState)] :=
  List.filterMap_append

theorem charge_adds (output : Option Items)
    {k : Exec → Flow}
    (hk : ∀ state, Adds P (e.withItems fun _ => state)
      (k (e.withItems fun _ => state)).exec) :
    Adds P e (c.charge e output k).exec := by
  rcases charge_cases c e output k with ⟨err, heq⟩ | ⟨state, -, heq⟩
  · rw [heq]
    exact Adds.same rfl
  · rw [heq]
    have hcharged : Adds P e (e.withItems fun _ => state) := Adds.same rfl
    exact hcharged.trans (hk state)

theorem dispatchStep_calls
    (c : Setting) (e : Exec) (node : Node) (inputs : Items)
    (rest : List String) :
    ((e.nodes node.id).error ≠ [] ∧
      (c.dispatchStep e node inputs rest).exec.calls = e.calls) ∨
    ((e.nodes node.id).error = [] ∧
      (c.dispatchStep e node inputs rest).exec.calls =
        e.calls ++ [(node.id, e.runState)]) := by
  rcases dispatchStep_cases c e node inputs rest with
    ⟨herror, heq⟩ | ⟨herror, ⟨error, -, heq⟩ | ⟨output, -, -, heq⟩⟩
  · rw [heq]
    have hend : Adds Observation.NotCall e
        (c.charge e none fun e => c.failureStep e node rest).exec :=
      charge_adds none fun _ => failureStep_adds c _ node rest
    exact Or.inl ⟨herror, hend.calls⟩
  · rw [heq]
    have hfail : Adds Observation.NotCall (c.called e node inputs)
        ((c.called e node inputs).fail node.id error) :=
      adds_fail node.id error trivial
    have hcharge : Adds Observation.NotCall
        ((c.called e node inputs).fail node.id error)
        (c.charge ((c.called e node inputs).fail node.id error) none
          fun e => c.failureStep e node rest).exec :=
      charge_adds none fun _ => failureStep_adds c _ node rest
    have hend := hfail.trans hcharge
    refine Or.inr ⟨herror, ?_⟩
    rw [hend.calls, calls_called]
  · rw [heq]
    have hend : Adds Observation.NotCall (c.called e node inputs)
        (c.charge (c.called e node inputs) output
          fun e => c.successStep e node output rest).exec :=
      charge_adds output fun _ => successStep_adds c _ node output rest
    refine Or.inr ⟨herror, ?_⟩
    rw [hend.calls, calls_called]

/-- A started node gets to the dispatcher: steering, binding, budget and gate let
it pass, and it has no error. -/
structure Passes (c : Setting) (e : Exec) (node : Node) : Prop where
  asked : c.Asked e node
  clean : c.Clean e node
  granted : ¬c.Denies e.tick (c.stakesState e) node

def atDispatch (c : Setting) (e : Exec) (node : Node) : RunState :=
  (c.lockEscrow (e.withItems fun _ => c.stakesState e) node).runState

theorem lockEscrow_record (c : Setting) (e : Exec) (node : Node)
    (event : Event) :
    c.lockEscrow (e.record event) node = (c.lockEscrow e node).record event := by
  have htick : (e.record event).tick = e.tick := rfl
  rw [lockEscrow_eq, lockEscrow_eq, htick]
  cases c.escrowAmount e.tick node with
  | none => rfl
  | some amount => rfl

theorem afterGate_calls
    (c : Setting) (e : Exec) (node : Node) (inputs : Items)
    (rest : List String) :
    ((e.nodes node.id).error ≠ [] ∧
      (c.afterGate e node inputs rest).exec.calls = e.calls) ∨
    ((e.nodes node.id).error = [] ∧
      (c.afterGate e node inputs rest).exec.calls =
        e.calls ++ [(node.id, (c.lockEscrow e node).runState)]) := by
  have hlock : (c.lockEscrow e node).calls = e.calls := by
    refine ((lockEscrow_adds c e node).mono ?_).calls
    rintro _ ⟨amount, rfl⟩
    trivial
  have hcalls := dispatchStep_calls c (c.lockEscrow e node) node inputs rest
  rw [nodes_lockEscrow, hlock] at hcalls
  exact hcalls

theorem denied_adds (e : Exec) (node : Node) (result : GateResult) :
    Adds Observation.NotCall e (denied e node result) := by
  have hfail : Adds Observation.NotCall
      (e.record (.gateChecked node.id false))
      ((e.record (.gateChecked node.id false)).fail node.id
        (gateDenied result)) :=
    adds_fail node.id _ trivial
  have hrecord : Adds Observation.NotCall e
      (e.record (.gateChecked node.id false)) := Adds.same rfl
  exact hrecord.trans (hfail.trans (adds_settle node.id trivial))

theorem stakesStep_calls
    (c : Setting) (e : Exec) (node : Node) (inputs : Items)
    (rest : List String) :
    (((e.nodes node.id).error ≠ [] ∨ c.Denies e.tick e.runState.state node) ∧
      (c.stakesStep e node inputs rest).exec.calls = e.calls) ∨
    ((e.nodes node.id).error = [] ∧ ¬c.Denies e.tick e.runState.state node ∧
      (c.stakesStep e node inputs rest).exec.calls =
        e.calls ++ [(node.id, (c.lockEscrow e node).runState)]) := by
  have hgranted : ¬c.Denies e.tick e.runState.state node →
      ∀ flow : Flow,
      ((e.nodes node.id).error ≠ [] ∧ flow.exec.calls = e.calls) ∨
        ((e.nodes node.id).error = [] ∧ flow.exec.calls =
          e.calls ++ [(node.id, (c.lockEscrow e node).runState)]) →
      (((e.nodes node.id).error ≠ [] ∨
          c.Denies e.tick e.runState.state node) ∧
        flow.exec.calls = e.calls) ∨
      ((e.nodes node.id).error = [] ∧
        ¬c.Denies e.tick e.runState.state node ∧ flow.exec.calls =
          e.calls ++ [(node.id, (c.lockEscrow e node).runState)]) := by
    rintro hnot flow (⟨herror, hcalls⟩ | ⟨herror, hcalls⟩)
    · exact Or.inl ⟨Or.inl herror, hcalls⟩
    · exact Or.inr ⟨herror, hnot, hcalls⟩
  have hchecked : ∀ allowed,
      ((e.nodes node.id).error ≠ [] ∧ (c.afterGate
        (e.record (.gateChecked node.id allowed)) node inputs rest).exec.calls =
          e.calls) ∨
      ((e.nodes node.id).error = [] ∧ (c.afterGate
        (e.record (.gateChecked node.id allowed)) node inputs rest).exec.calls =
          e.calls ++ [(node.id, (c.lockEscrow e node).runState)]) := by
    intro allowed
    have hcalls := afterGate_calls c (e.record (.gateChecked node.id allowed))
      node inputs rest
    rw [lockEscrow_record] at hcalls
    exact hcalls
  rcases stakesStep_cases c e node inputs rest with
    ⟨hway, heq | heq⟩ | ⟨hnot, heq⟩ | ⟨hdenies, result, heq | ⟨-, heq⟩⟩
  · rw [heq]
    exact hgranted (not_denies_of_gateGivesWay hway) _
      (afterGate_calls c e node inputs rest)
  · rw [heq]
    exact hgranted (not_denies_of_gateGivesWay hway) _ (hchecked false)
  · rw [heq]
    exact hgranted hnot _ (hchecked true)
  · rw [heq]
    exact Or.inl ⟨Or.inr hdenies, (denied_adds e node result).calls⟩
  · rw [heq]
    refine Or.inl ⟨Or.inr hdenies, ?_⟩
    rcases afterGate_calls c (denied e node result) node inputs rest with
      ⟨-, hcalls⟩ | ⟨herror, -⟩
    · rw [hcalls, (denied_adds e node result).calls]
    · exact absurd herror (error_denied result)

theorem budgetStep_calls
    (c : Setting) (e : Exec) (node : Node) (inputs : Items)
    (rest : List String) :
    (((e.nodes node.id).error ≠ [] ∨ ¬c.WithinBudget e ∨
        c.Denies e.tick (c.stakesState e) node) ∧
      (c.budgetStep e node inputs rest).exec.calls = e.calls) ∨
    ((e.nodes node.id).error = [] ∧ c.WithinBudget e ∧
      ¬c.Denies e.tick (c.stakesState e) node ∧
      (c.budgetStep e node inputs rest).exec.calls =
        e.calls ++ [(node.id, c.atDispatch e node)]) := by
  rcases budgetStep_cases c e node inputs rest with
    ⟨hbudget, ⟨err, heq⟩ | ⟨err, heq⟩⟩ | ⟨hbudget, heq⟩
  · rw [heq]
    exact Or.inl ⟨Or.inr (Or.inl hbudget), rfl⟩
  · rw [heq, saveAndReturn_exec]
    exact Or.inl ⟨Or.inr (Or.inl hbudget), rfl⟩
  · rw [heq]
    rcases stakesStep_calls c (e.withItems fun _ => c.stakesState e) node inputs
        rest with ⟨herror | hdenies, hcalls⟩ | ⟨herror, hgranted, hcalls⟩
    · exact Or.inl ⟨Or.inl herror, hcalls⟩
    · exact Or.inl ⟨Or.inr (Or.inr hdenies), hcalls⟩
    · exact Or.inr ⟨herror, hbudget, hgranted, hcalls⟩

theorem bindingStep_calls_of_error
    (rest : List String) (herror : (e.nodes node.id).error ≠ []) :
    (c.bindingStep e node rest).exec.calls = e.calls := by
  have hunbound : (c.unbound e node).calls = e.calls := by
    have hadds : Adds Observation.NotCall e (c.unbound e node) :=
      adds_fail node.id _ trivial
    exact hadds.calls
  rcases bindingStep_cases c e node rest with
    ⟨-, heq⟩ | ⟨-, -, heq⟩ | ⟨-, -, heq⟩
  · rw [heq, save_next_exec]
    have hfail : Adds Observation.NotCall e (e.fail node.id []) :=
      adds_fail node.id [] trivial
    exact (hfail.trans (adds_settle node.id trivial)).calls
  · rw [heq]
    rcases budgetStep_calls c (c.unbound e node) node (c.resolveInputs e node)
        rest with ⟨-, hcalls⟩ | ⟨hnone, -⟩
    · rw [hcalls, hunbound]
    · exact absurd hnone (error_unbound c e node)
  · rw [heq]
    rcases budgetStep_calls c e node (c.resolveInputs e node) rest with
      ⟨-, hcalls⟩ | ⟨hnone, -⟩
    · exact hcalls
    · exact absurd hnone herror

theorem steeringBlocked_adds (e : Exec) (node : Node) (reason : PyVal) :
    Adds Observation.NotCall e (steeringBlocked e node reason) := by
  have hfail : Adds Observation.NotCall e (e.fail node.id
      [("code", .str "STEERING_BLOCKED"),
        ("reason", if reason.truthy then reason
          else .str "steering blocked")]) :=
    adds_fail node.id _ trivial
  exact hfail.trans (adds_settle node.id trivial)

/-- A started node is dispatched exactly when it passes, with the run state that
steering, binding, budget and escrow leave. -/
theorem steeringStep_calls
    (rest : List String) (herror : (e.nodes node.id).error = []) :
    (¬c.Passes e node ∧
      (c.steeringStep e node rest).exec.calls = e.calls) ∨
    (c.Passes e node ∧ (c.steeringStep e node rest).exec.calls =
      e.calls ++ [(node.id, c.atDispatch e node)]) := by
  rcases steeringStep_cases c e node rest with
    ⟨reason, hreason, hblock⟩ | ⟨hpass, heq⟩
  · have hblocked := (steeringBlocked_adds e node reason).calls
    refine Or.inl ⟨fun h => h.clean.steering reason hreason, ?_⟩
    rcases hblock with heq | ⟨-, heq⟩
    · rw [heq]
      exact hblocked
    · rw [heq, bindingStep_calls_of_error rest (steeringBlocked_node reason).1]
      exact hblocked
  · rw [heq]
    rcases bindingStep_cases c e node rest with
      ⟨hbinds, heq'⟩ | ⟨hbinds, hstrict, heq'⟩ | ⟨hbinds, hstrict, heq'⟩
    · refine Or.inl ⟨fun h => hbinds h.asked.binding, ?_⟩
      rw [heq', save_next_exec]
      have hfail : Adds Observation.NotCall e (e.fail node.id []) :=
        adds_fail node.id [] trivial
      exact (hfail.trans (adds_settle node.id trivial)).calls
    · refine Or.inl ⟨fun h => hstrict h.clean.binding, ?_⟩
      rw [heq']
      have hadds : Adds Observation.NotCall e (c.unbound e node) :=
        adds_fail node.id _ trivial
      rcases budgetStep_calls c (c.unbound e node) node
          (c.resolveInputs e node) rest with ⟨-, hcalls⟩ | ⟨hnone, -⟩
      · rw [hcalls, hadds.calls]
      · exact absurd hnone (error_unbound c e node)
    · rw [heq']
      rcases budgetStep_calls c e node (c.resolveInputs e node) rest with
        ⟨hno, hcalls⟩ | ⟨-, hbudget, hgranted, hcalls⟩
      · refine Or.inl ⟨fun h => ?_, hcalls⟩
        rcases hno with hnone | hbudget | hdenies
        · exact hnone herror
        · exact hbudget h.asked.budget
        · exact h.granted hdenies
      · exact Or.inr ⟨⟨⟨fun r hr => absurd hr (hpass r), hbinds, hbudget⟩,
          ⟨hpass, hstrict⟩, hgranted⟩, hcalls⟩

/-! ## Control nodes and the head of the main loop -/

theorem gateStep_adds (c : Setting) (e : Exec) (node : Node)
    (rest : List String) :
    Adds Observation.IsChange e (c.gateStep e node rest).exec := by
  obtain ⟨nodes, out, -, hexec⟩ := gateStep_exec (P := Open) c e node rest
    (fun _ => Waits.open) fun _ _ hopen _ => hopen
  rw [hexec]
  have hskip : Adds Observation.IsChange e (e.withNodes nodes) :=
    adds_withNodes trivial
  have hdone : Adds Observation.IsChange (e.withNodes nodes)
      ((e.withNodes nodes).settle node.id .done) := adds_settle node.id trivial
  exact hskip.trans (hdone.trans (Adds.same rfl))

theorem loopStep_exec (c : Setting) (e : Exec) (node : Node)
    (rest : List String) :
    (c.loopStep e node rest).exec = e ∨
    ∃ (e' : Exec) (out : PyVal) (state : Items) (item : PyVal),
      ensureLoopItem e.runState.state node.id = .ok (state, item) ∧
      e'.runState.state = state ∧ e'.observed = e.observed ∧
      (∀ id ∉ node.body, e'.statuses id = e.statuses id) ∧
      (c.loopStep e node rest).exec =
        (e'.settle node.id .done).output node.id out := by
  unfold loopStep
  dsimp only
  split
  · exact Or.inl rfl
  · rename_i state item hitem
    right
    rw [save_next_exec]
    generalize c.conditionValue _ node _ = value
    refine ⟨_, _, state, item, hitem, ?_, ?_, ?_, rfl⟩
    · cases value with
      | false => rfl
      | true => rfl
    · cases value with
      | false => rfl
      | true => rfl
    · intro id hid
      have hnot : ¬(node.body.contains id && c.dag.ids.contains id) = true := by
        intro h
        rw [Bool.and_eq_true] at h
        exact hid (List.contains_iff_mem.mp h.1)
      cases value with
      | false => rfl
      | true => exact congrArg NodeRun.status (if_neg hnot)

theorem loopStep_adds (c : Setting) (e : Exec) (node : Node)
    (rest : List String) :
    Adds Observation.IsChange e (c.loopStep e node rest).exec := by
  rcases loopStep_exec c e node rest with
    heq | ⟨e', out, -, -, -, -, hobserved, -, heq⟩
  · rw [heq]
    exact Adds.same rfl
  · rw [heq]
    have hstart : Adds Observation.IsChange e e' := Adds.same hobserved
    have hdone : Adds Observation.IsChange e' (e'.settle node.id .done) :=
      adds_settle node.id trivial
    exact hstart.trans (hdone.trans (Adds.same rfl))

theorem advanceLoop_observed (c : Setting) (e : Exec) (node : Node) :
    (c.advanceLoop e node).observed = e.observed := by
  unfold advanceLoop
  dsimp only
  split
  · rfl
  · split
    · rfl
    · rfl

theorem advanceOrFinish_observed (c : Setting) (e : Exec) :
    (c.advanceOrFinish e).exec.observed = e.observed := by
  unfold advanceOrFinish
  split
  · rename_i node _
    exact advanceLoop_observed c e node
  · unfold finish
    dsimp only
    rw [saveAndReturn_exec]
    rfl

theorem idleStep_adds (c : Setting) (e : Exec) :
    Adds (Observation.SkipsOf c.dag Waits) e (c.idleStep e).exec := by
  unfold idleStep
  dsimp only
  split
  · unfold finish
    dsimp only
    rw [saveAndReturn_exec]
    exact Adds.same rfl
  · split
    · have hfailed : Adds (Observation.SkipsOf c.dag Waits) e
          (e.withNodes (skipFailedDependents c.dag e.nodes)) :=
        adds_withNodes (skipFailedDependents_skips c.dag e.nodes).skips
      have hready : Adds (Observation.SkipsOf c.dag Waits)
          (e.withNodes (skipFailedDependents c.dag e.nodes))
          ((e.withNodes (skipFailedDependents c.dag e.nodes)).withNodes
            (getReadyNodes c.dag c.dag.runPolicy.failureMode
              (skipFailedDependents c.dag e.nodes)).2) :=
        adds_withNodes (getReadyNodes_skips c.dag
          c.dag.runPolicy.failureMode
          (skipFailedDependents c.dag e.nodes)).skips
      split
      · exact hfailed.trans (hready.trans
          (Adds.same (advanceOrFinish_observed c _)))
      · exact hfailed.trans hready
    · exact Adds.same (advanceOrFinish_observed c e)

theorem headStep_adds (c : Setting) (e : Exec) :
    Adds (Observation.SkipsOf c.dag Waits) e (c.headStep e).exec := by
  have hinjected : Adds (Observation.SkipsOf c.dag Waits) e
      (c.injected e) := by
    unfold injected
    split
    · exact Adds.same rfl
    · exact Adds.same rfl
  rcases headStep_cases c e with
    ⟨code, message, status, heq, -⟩ | ⟨-, heq⟩
  · rw [heq, saveAndReturn_exec]
    exact hinjected.trans (Adds.same rfl)
  · rw [heq]
    refine hinjected.trans ?_
    have hready : Adds (Observation.SkipsOf c.dag Waits) (c.injected e)
        ((c.injected e).withNodes (getReadyNodes c.dag
          c.dag.runPolicy.failureMode (c.injected e).nodes).2) :=
      adds_withNodes (getReadyNodes_skips c.dag
        c.dag.runPolicy.failureMode (c.injected e).nodes).skips
    unfold batchStep
    dsimp only
    split
    · rw [saveAndReturn_exec]
      exact hready.trans (Adds.same rfl)
    · split
      · exact hready.trans (idleStep_adds c _)
      · exact hready

/-! ## Steps -/

/-- The step from `s` dispatches the node. -/
structure Dispatches (c : Setting) (s : Sched) (node : Node) : Prop where
  starts : c.Starts s node
  notGate : node.type ≠ "gate"
  notLoop : node.type ≠ "loop"
  passes : c.Passes (startNode s.now node.id) node

/-- A step calls the dispatcher exactly when it dispatches a node. -/
theorem step_calls (c : Setting) (s : Sched) :
    ((∀ node, ¬c.Dispatches s node) ∧
      (c.step s).exec.calls = s.exec.calls) ∨
    ∃ node, c.Dispatches s node ∧ (c.step s).exec.calls =
      s.exec.calls ++
        [(node.id, c.atDispatch (startNode s.now node.id) node)] := by
  obtain ⟨queue, e⟩ := s
  cases queue with
  | nil =>
      refine Or.inl ⟨fun node h => ?_, ?_⟩
      · obtain ⟨rest, hrest⟩ := h.starts.next
        cases hrest
      · exact ((headStep_adds c { e with tick := e.tick + 1 }).mono
          fun _ h => h.isChange.notCall).calls
  | cons nid rest =>
      have hstarts : ∀ node, c.Starts ⟨nid :: rest, e⟩ node →
          node.id = nid ∧ c.dag.byId nid = some node ∧
            Waits (e.core.status nid) := by
        intro node h
        obtain ⟨rest', hrest⟩ := h.next
        obtain ⟨rfl, -⟩ := List.cons.inj hrest
        exact ⟨rfl, h.known, h.waits⟩
      rcases c.nodeStep_ways { e with tick := e.tick + 1 } nid rest with
        ⟨hnone, heq⟩ | ⟨hnot, heq⟩ | ⟨node, hnode, hwaits, heq⟩
      · refine Or.inl ⟨fun node h => ?_, ?_⟩
        · have hknown := (hstarts node h.starts).2.1
          rw [hnone] at hknown
          cases hknown
        · exact congrArg (fun flow => flow.exec.calls) heq
      · refine Or.inl ⟨fun node h => ?_, ?_⟩
        · exact hnot (hstarts node h.starts).2.2
        · exact congrArg (fun flow => flow.exec.calls) heq
      · obtain rfl := Dag.byId_id hnode
        have hstep : c.step ⟨node.id :: rest, e⟩ = c.processNode
            (startNode { e with tick := e.tick + 1 } node.id) node rest := heq
        have hstartCalls :
            (startNode { e with tick := e.tick + 1 } node.id).calls =
              e.calls := by
          have hadds : Adds Observation.NotCall e
              (startNode { e with tick := e.tick + 1 } node.id) := by
            refine ⟨_, (observed_startNode _ _).trans
              (List.append_assoc _ _ _), ?_⟩
            exact List.forall_mem_append.mpr
              ⟨List.forall_mem_singleton.mpr trivial,
                List.forall_mem_singleton.mpr trivial⟩
          exact hadds.calls
        have hsame : ∀ node', c.Starts ⟨node.id :: rest, e⟩ node' →
            node' = node := by
          intro node' h
          have hknown := (hstarts node' h).2.1
          rw [hnode] at hknown
          exact (Option.some.inj hknown).symm
        have herror : ((startNode { e with tick := e.tick + 1 }
            node.id).nodes node.id).error = [] := by
          rw [startNode_node]
        rw [hstep]
        rcases c.processNode_cases
            (startNode { e with tick := e.tick + 1 } node.id) node rest with
          ⟨htype, hprocess⟩ | ⟨htype, hprocess⟩ | ⟨hgate, hloop, hprocess⟩
        · rw [hprocess]
          refine Or.inl ⟨fun node' h => ?_, ?_⟩
          · obtain rfl := hsame node' h.starts
            exact h.notGate htype
          · have hadds := gateStep_adds c
              (startNode { e with tick := e.tick + 1 } node.id) node rest
            rw [(hadds.mono fun _ h => h.notCall).calls, hstartCalls]
        · rw [hprocess]
          refine Or.inl ⟨fun node' h => ?_, ?_⟩
          · obtain rfl := hsame node' h.starts
            exact h.notLoop htype
          · have hadds := loopStep_adds c
              (startNode { e with tick := e.tick + 1 } node.id) node rest
            rw [(hadds.mono fun _ h => h.notCall).calls, hstartCalls]
        · rw [hprocess]
          rcases steeringStep_calls rest herror with
            ⟨hnot, hcalls⟩ | ⟨hpasses, hcalls⟩
          · refine Or.inl ⟨fun node' h => ?_, ?_⟩
            · obtain rfl := hsame node' h.starts
              exact hnot h.passes
            · rw [hcalls, hstartCalls]
          · refine Or.inr ⟨node, ⟨⟨⟨rest, rfl⟩, hnode, hwaits⟩, hgate, hloop,
              hpasses⟩, ?_⟩
            rw [hcalls, hstartCalls]
            rfl

/-- The run state with which a step from `s` calls the dispatcher for a node. -/
def callState (c : Setting) (s : Sched) (node : Node) : RunState :=
  c.atDispatch (startNode s.now node.id) node

theorem Dispatches.unique {s : Sched} {node node' : Node}
    (h : c.Dispatches s node) (h' : c.Dispatches s node') : node = node' := by
  obtain ⟨rest, hqueue⟩ := h.starts.next
  obtain ⟨rest', hqueue'⟩ := h'.starts.next
  rw [hqueue] at hqueue'
  have hknown := h'.starts.known
  rw [← (List.cons.inj hqueue').1, h.starts.known] at hknown
  exact Option.some.inj hknown

theorem mem_calls_step (s : Sched) (entry : String × RunState) :
    entry ∈ (c.step s).exec.calls ↔ entry ∈ s.exec.calls ∨
      ∃ node, c.Dispatches s node ∧ entry = (node.id, c.callState s node) := by
  rcases step_calls c s with ⟨hnone, hcalls⟩ | ⟨node, hnode, hcalls⟩
  · rw [hcalls]
    constructor
    · exact Or.inl
    · rintro (hmem | ⟨node, hnode, -⟩)
      · exact hmem
      · exact absurd hnode (hnone node)
  · rw [hcalls, List.mem_append, List.mem_singleton]
    constructor
    · rintro (hmem | heq)
      · exact Or.inl hmem
      · exact Or.inr ⟨node, hnode, heq⟩
    · rintro (hmem | ⟨node', hnode', heq⟩)
      · exact Or.inl hmem
      · obtain rfl := hnode.unique hnode'
        exact Or.inr heq

/-- The calls of the dispatcher in a run are those of the steps that dispatch a
node. -/
theorem mem_calls_iff {s : Sched} (hs : s.exec.calls = []) (n : ℕ)
    (entry : String × RunState) :
    entry ∈ (c.steps n (.next s)).exec.calls ↔
      ∃ m < n, ∃ s', c.steps m (.next s) = .next s' ∧
        ∃ node, c.Dispatches s' node ∧
          entry = (node.id, c.callState s' node) := by
  induction n with
  | zero =>
      have hnone : (c.steps 0 (.next s)).exec.calls = [] := hs
      rw [hnone]
      constructor
      · intro hmem
        cases hmem
      · rintro ⟨m, hm, -⟩
        cases hm
  | succ n ih =>
      rw [steps_succ]
      have hsplit : (∃ m < n + 1, ∃ s', c.steps m (.next s) = .next s' ∧
          ∃ node, c.Dispatches s' node ∧
            entry = (node.id, c.callState s' node)) ↔
          entry ∈ (c.steps n (.next s)).exec.calls ∨
            ∃ s', c.steps n (.next s) = .next s' ∧
              ∃ node, c.Dispatches s' node ∧
                entry = (node.id, c.callState s' node) := by
        rw [ih]
        constructor
        · rintro ⟨m, hm, hrest⟩
          rcases Nat.lt_succ_iff_lt_or_eq.mp hm with hlt | rfl
          · exact Or.inl ⟨m, hlt, hrest⟩
          · exact Or.inr hrest
        · rintro (⟨m, hm, hrest⟩ | hrest)
          · exact ⟨m, Nat.lt_succ_of_lt hm, hrest⟩
          · exact ⟨n, Nat.lt_succ_self n, hrest⟩
      rw [hsplit]
      cases c.steps n (.next s) with
      | stop e r =>
          constructor
          · exact Or.inl
          · rintro (hmem | ⟨s', hs', -⟩)
            · exact hmem
            · cases hs'
      | next s₁ =>
          have hstep := mem_calls_step (c := c) s₁ entry
          refine hstep.trans (or_congr Iff.rfl ?_)
          constructor
          · intro hnode
            exact ⟨s₁, rfl, hnode⟩
          · rintro ⟨s', hs', hnode⟩
            obtain rfl := Flow.next.inj hs'
            exact hnode

end Setting

end Hydrogenuine.TaskGraph
