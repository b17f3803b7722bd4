import Hydrogenuine.TaskGraph.Pauses

/-!
# The status table and the executor

`state_machine.py` lists the allowed changes of a node's status, but the executor
sets statuses without asking it.  A node that steering or an unresolved input
blocks, a denied node that is retried, and a gate that skips itself or a blocked
node leave the table.  Every call whose steps do none of this keeps to it.
-/

namespace Hydrogenuine.TaskGraph

open Support Hydrogenuine.Core Relation

/-! ## Changes of a status -/

/-- The status stays, or changes as the table allows. -/
def Keeps (before after : Option NodeStatus) : Prop :=
  after = before ∨
    canTransition (before.getD .pending) (after.getD .pending) = true

instance (before after : Option NodeStatus) : Decidable (Keeps before after) :=
  inferInstanceAs (Decidable (_ ∨ _))

def Observation.InTable : Observation → Prop
  | .changed before after => ∀ id, Keeps (before id) (after id)
  | _ => True

/-- A call keeps to the table: what it changes, and what a resume changes of the
persisted nodes. -/
structure KeepsTable (call : Call) : Prop where
  changes : ∀ o ∈ call.flow.exec.observed, o.InTable
  resumed : ∀ services given saved,
    call.start = resumeStart services given saved →
      ∀ id run, saved.nodeStates id = some run →
        Keeps run.status (call.start.exec.nodes id).status

theorem Keeps.refl (status : Option NodeStatus) : Keeps status status :=
  Or.inl rfl

theorem Waits.keeps_skipped {status : Option NodeStatus} (h : Waits status) :
    Keeps status (some .skipped) := by
  rcases h with rfl | rfl | rfl
  · exact Or.inr rfl
  · exact Or.inr rfl
  · exact Or.inr rfl

theorem Skips.inTable
    {dag : Dag} {before after : String → Option NodeStatus}
    (h : Skips dag Waits before after) :
    (Observation.changed before after).InTable := by
  intro id
  rcases h id with heq | ⟨-, hwaits, hskipped⟩
  · rw [heq]
    exact Keeps.refl _
  · rw [hskipped]
    exact hwaits.keeps_skipped

theorem withStatus_inTable
    {statuses : String → Option NodeStatus} {id : String}
    {status : NodeStatus} (h : Keeps (statuses id) (some status)) :
    (Observation.changed statuses (withStatus statuses id status)).InTable := by
  intro id'
  unfold withStatus
  by_cases heq : id' = id
  · rw [if_pos heq, heq]
    exact h
  · rw [if_neg heq]
    exact Keeps.refl _

theorem same_inTable (statuses : String → Option NodeStatus) :
    (Observation.changed statuses statuses).InTable :=
  fun _ => Keeps.refl _

/-- A started node ends its attempt from `running`, or, when it was denied, from
`failed` without an attempt left. -/
def AttemptEnds (k : RunCore) (node : Node) : Prop :=
  k.status node.id = some .running ∨
    k.status node.id = some .failed ∧
      node.policy.maxRetries < k.attempts node.id

namespace Setting

variable {c : Setting} {node : Node} {rest : List String} {e : Exec}

/-! ## The end of an attempt -/

theorem settle_keeps {status : NodeStatus}
    (h : Keeps (e.core.status node.id) (some status)) :
    Adds Observation.InTable e (e.settle node.id status) :=
  adds_settle node.id (withStatus_inTable h)

theorem fail_keeps (id : String) (error : Items) :
    Adds Observation.InTable e (e.fail id error) :=
  adds_fail id error (same_inTable _)

theorem withNodes_keeps {nodes : String → NodeRun}
    (h : SkipsNodes c.dag Waits e.nodes nodes) :
    Adds Observation.InTable e (e.withNodes nodes) :=
  adds_withNodes h.skips.inTable

theorem settleEscrowLock_keeps
    (c : Setting) (e : Exec) (nid : String)
    {entry : String → PyVal → Observation}
    (hentry : ∀ amount, (entry nid amount).InTable) :
    Adds Observation.InTable e (c.settleEscrowLock e nid entry) := by
  refine (settleEscrowLock_adds c e nid entry).mono ?_
  rintro _ ⟨amount, rfl⟩
  exact hentry amount

theorem skipPendingDependents_keeps (nid : String) :
    Adds Observation.InTable e (c.skipPendingDependents e nid) := by
  refine withNodes_keeps (c := c) (skipWhere_skips ?_ ?_)
  · intro id hid
    obtain ⟨dependent, hdependent, rfl⟩ := List.mem_map.mp hid
    exact List.mem_map_of_mem (List.mem_filter.mp hdependent).1
  · intro id hid hrun
    exact Or.inr (Or.inl (beq_iff_eq.mp hrun))

theorem stopLoop_keeps (nid : String) :
    Adds Observation.InTable e (c.stopLoop e nid) := by
  unfold stopLoop
  split
  · exact Adds.same rfl
  · rename_i loopNode hloop
    split
    · have hoff : Adds Observation.InTable e
          (e.setLoop loopNode.id { e.loop loopNode.id with active := false }) :=
        Adds.same rfl
      refine hoff.trans (withNodes_keeps (c := c) (skipWhere_skips ?_ ?_))
      · intro id hid
        exact List.contains_iff_mem.mp (List.mem_filter.mp hid).2
      · intro id hid hrun
        rw [Bool.or_eq_true, beq_iff_eq, beq_iff_eq] at hrun
        exact Or.inr hrun
    · exact Adds.same rfl

theorem failed_keeps (h : AttemptEnds e.core node) :
    Adds Observation.InTable e (c.failed e node) := by
  have hslash : Adds Observation.InTable e
      (c.settleEscrowLock e node.id .slashed) :=
    settleEscrowLock_keeps c e node.id fun _ => trivial
  refine hslash.trans (settle_keeps ?_)
  rw [core_settleEscrowLock]
  rcases h with hrunning | ⟨hfailed, -⟩
  · rw [hrunning]
    exact Or.inr rfl
  · rw [hfailed]
    exact Keeps.refl _

theorem failureStep_keeps (h : AttemptEnds e.core node) :
    Adds Observation.InTable e (c.failureStep e node rest).exec := by
  rcases failureStep_cases c e node rest with
    ⟨hleft, heq⟩ | ⟨-, ⟨-, heq⟩ | ⟨-, heq⟩⟩
  · rw [heq]
    refine settle_keeps ?_
    rcases h with hrunning | ⟨-, hover⟩
    · rw [hrunning]
      exact Or.inr rfl
    · exact absurd hleft (not_le.mpr hover)
  · rw [heq]
    exact (failed_keeps h).trans
      ((skipPendingDependents_keeps node.id).trans (Adds.same rfl))
  · rw [heq]
    exact (failed_keeps h).trans (stopLoop_keeps node.id)

theorem successStep_keeps (output : Option Items)
    (hrunning : e.core.status node.id = some .running) :
    Adds Observation.InTable e (c.successStep e node output rest).exec := by
  have hdone : Adds Observation.InTable e (e.settle node.id .done) := by
    refine settle_keeps ?_
    rw [hrunning]
    exact Or.inr rfl
  rcases successStep_cases c e node output rest with
    ⟨err, -, -, heq⟩ | ⟨v, heq⟩
  · rw [heq]
    exact hdone
  · rw [heq, persistAfterNode_exec]
    have houtput : Adds Observation.InTable (e.settle node.id .done)
        ((e.settle node.id .done).output node.id v) := Adds.same rfl
    exact hdone.trans (houtput.trans
      (settleEscrowLock_keeps c _ node.id fun _ => trivial))

/-! ## The way to the dispatcher -/

theorem called_keeps (inputs : Items) :
    Adds Observation.InTable e (c.called e node inputs) :=
  Adds.one rfl trivial

theorem charged_failure_keeps (h : AttemptEnds e.core node) :
    Adds Observation.InTable e
      (c.charge e none fun e => c.failureStep e node rest).exec :=
  charge_adds none fun _ => failureStep_keeps h

/-- An attempt is ended in the table.  A node that is denied has an error, so that
only a running one succeeds. -/
theorem dispatchStep_keeps (inputs : Items) (h : AttemptEnds e.core node)
    (hrunning : (e.nodes node.id).error = [] →
      e.core.status node.id = some .running) :
    Adds Observation.InTable e (c.dispatchStep e node inputs rest).exec := by
  rcases dispatchStep_cases c e node inputs rest with
    ⟨-, heq⟩ | ⟨herror, ⟨error, -, heq⟩ | ⟨output, -, -, heq⟩⟩
  · rw [heq]
    exact charged_failure_keeps h
  · rw [heq]
    refine (called_keeps inputs).trans ((fail_keeps node.id error).trans
      (charged_failure_keeps ?_))
    rw [core_fail]
    exact h
  · rw [heq]
    have hcharge : Adds Observation.InTable (c.called e node inputs)
        (c.charge (c.called e node inputs) output
          fun e => c.successStep e node output rest).exec :=
      charge_adds output fun _ => successStep_keeps output (hrunning herror)
    exact (called_keeps inputs).trans hcharge

theorem afterGate_keeps (inputs : Items) (h : AttemptEnds e.core node)
    (hrunning : (e.nodes node.id).error = [] →
      e.core.status node.id = some .running) :
    Adds Observation.InTable e (c.afterGate e node inputs rest).exec := by
  have hlock : Adds Observation.InTable e (c.lockEscrow e node) := by
    refine (lockEscrow_adds c e node).mono ?_
    rintro _ ⟨amount, rfl⟩
    trivial
  refine hlock.trans (dispatchStep_keeps inputs ?_ ?_)
  · rw [core_lockEscrow]
    exact h
  · rw [core_lockEscrow, nodes_lockEscrow]
    exact hrunning

theorem denied_keeps (result : GateResult)
    (hrunning : e.core.status node.id = some .running) :
    Adds Observation.InTable e (denied e node result) := by
  have hrecord : Adds Observation.InTable e
      (e.record (.gateChecked node.id false)) := Adds.same rfl
  refine hrecord.trans ((fail_keeps node.id _).trans (settle_keeps ?_))
  rw [core_fail, core_record]
  have hstill : (e.core.record (.gateChecked node.id false)).status node.id =
      some .running := hrunning
  rw [hstill]
  exact Or.inr rfl

/-- The attempts of a denied node are used up, unless the save after the denial
succeeds. -/
def DeniedForGood (c : Setting) (e : Exec) (node : Node) : Prop :=
  c.WithinBudget e → c.Denies e.tick (c.stakesState e) node →
    c.services.saveError e.tick 0 = none ∨
      node.policy.maxRetries < (e.nodes node.id).attemptCount

theorem stakesStep_keeps (inputs : Items)
    (hrunning : e.core.status node.id = some .running)
    (hdenied : c.Denies e.tick e.runState.state node →
      c.services.saveError e.tick 0 = none ∨
        node.policy.maxRetries < (e.nodes node.id).attemptCount) :
    Adds Observation.InTable e (c.stakesStep e node inputs rest).exec := by
  have hchecked : ∀ allowed, Adds Observation.InTable e
      (c.afterGate (e.record (.gateChecked node.id allowed)) node inputs
        rest).exec := by
    intro allowed
    have hrecord : Adds Observation.InTable e
        (e.record (.gateChecked node.id allowed)) := Adds.same rfl
    exact hrecord.trans
      (afterGate_keeps inputs (Or.inl hrunning) fun _ => hrunning)
  rcases stakesStep_cases c e node inputs rest with
    ⟨-, heq | heq⟩ | ⟨-, heq⟩ | ⟨hdenies, result, heq | ⟨⟨err, hsave⟩, heq⟩⟩
  · rw [heq]
    exact afterGate_keeps inputs (Or.inl hrunning) fun _ => hrunning
  · rw [heq]
    exact hchecked false
  · rw [heq]
    exact hchecked true
  · rw [heq]
    exact denied_keeps result hrunning
  · rw [heq]
    refine (denied_keeps result hrunning).trans (afterGate_keeps inputs ?_ ?_)
    · have hattempts : node.policy.maxRetries <
          (e.nodes node.id).attemptCount := by
        rcases hdenied hdenies with hnone | hover
        · rw [hsave] at hnone
          cases hnone
        · exact hover
      rw [core_denied]
      exact Or.inr ⟨if_pos rfl, hattempts⟩
    · intro hnone
      exact absurd hnone (error_denied result)

theorem budgetStep_keeps (inputs : Items)
    (hrunning : e.core.status node.id = some .running)
    (hdenied : c.DeniedForGood e node) :
    Adds Observation.InTable e (c.budgetStep e node inputs rest).exec := by
  rcases budgetStep_cases c e node inputs rest with
    ⟨-, ⟨err, heq⟩ | ⟨err, heq⟩⟩ | ⟨hbudget, heq⟩
  · rw [heq]
    exact Adds.same rfl
  · rw [heq, saveAndReturn_exec]
    exact Adds.same rfl
  · rw [heq]
    have hchecked : Adds Observation.InTable e
        (e.withItems fun _ => c.stakesState e) := Adds.same rfl
    exact hchecked.trans (stakesStep_keeps inputs hrunning (hdenied hbudget))

theorem bindingStep_keeps
    (hrunning : e.core.status node.id = some .running)
    (hbinds : c.Binds e node "blocked") (hdenied : c.DeniedForGood e node) :
    Adds Observation.InTable e (c.bindingStep e node rest).exec := by
  rcases bindingStep_cases c e node rest with
    ⟨hblocked, -⟩ | ⟨-, -, heq⟩ | ⟨-, -, heq⟩
  · exact absurd hbinds hblocked
  · rw [heq]
    have hcore : (c.unbound e node).core = e.core := core_fail e node.id _
    have hattempts : ((c.unbound e node).nodes node.id).attemptCount =
        (e.nodes node.id).attemptCount :=
      congrFun (congrArg RunCore.attempts hcore) node.id
    refine (fail_keeps node.id _).trans (budgetStep_keeps _ ?_ ?_)
    · rw [core_fail]
      exact hrunning
    · intro hbudget hdenies
      have hended := hdenied hbudget hdenies
      rw [← hattempts] at hended
      exact hended
  · rw [heq]
    exact budgetStep_keeps _ hrunning hdenied

theorem steeringStep_keeps
    (hrunning : e.core.status node.id = some .running)
    (hsteering : ∀ reason,
      c.services.beforeNode e.tick node ≠ .ok (some reason))
    (hbinds : c.Binds e node "blocked") (hdenied : c.DeniedForGood e node) :
    Adds Observation.InTable e (c.steeringStep e node rest).exec := by
  rcases steeringStep_cases c e node rest with
    ⟨reason, hreason, -⟩ | ⟨-, heq⟩
  · exact absurd hreason (hsteering reason)
  · rw [heq]
    exact bindingStep_keeps hrunning hbinds hdenied

/-! ## Control nodes -/

/-- A gate skips only nodes that wait: neither itself nor a blocked node. -/
def SkipsWaiting (c : Setting) (e : Exec) (node : Node) : Prop :=
  ∀ id ∈ c.gateSkips e node,
    e.statuses id ≠ some .running ∧ e.statuses id ≠ some .blocked

theorem waits_of_open {status : Option NodeStatus} (hopen : Open status)
    (hskipped : status ≠ some .skipped) (hrunning : status ≠ some .running)
    (hblocked : status ≠ some .blocked) : Waits status := by
  cases status with
  | none => exact Or.inl rfl
  | some status =>
      cases status with
      | pending => exact Or.inr (Or.inl rfl)
      | ready => exact Or.inr (Or.inr rfl)
      | running => exact absurd rfl hrunning
      | done => exact absurd rfl hopen.1
      | failed => exact absurd rfl hopen.2
      | skipped => exact absurd rfl hskipped
      | blocked => exact absurd rfl hblocked

theorem gateStep_keeps
    (hrunning : e.core.status node.id = some .running)
    (hskips : c.SkipsWaiting e node) :
    Adds Observation.InTable e (c.gateStep e node rest).exec := by
  obtain ⟨nodes, out, hnodes, heq⟩ := gateStep_exec (P := Waits) c e node rest
    (fun _ h => h) fun id hid hopen hskipped =>
      waits_of_open hopen hskipped (hskips id hid).1 (hskips id hid).2
  rw [heq]
  have hstill : (e.withNodes nodes).core.status node.id = some .running := by
    rw [core_withNodes hnodes]
    rcases hnodes.skips node.id with hsame | ⟨-, hwaits, -⟩
    · exact hsame.trans hrunning
    · have hno : Waits (some .running) := hrunning ▸ hwaits
      rcases hno with h | h | h
      · cases h
      · cases h
      · cases h
  have hdone : Adds Observation.InTable (e.withNodes nodes)
      ((e.withNodes nodes).settle node.id .done) := by
    refine settle_keeps ?_
    rw [hstill]
    exact Or.inr rfl
  exact (withNodes_keeps hnodes).trans (hdone.trans (Adds.same rfl))

theorem loopStep_keeps
    (hrunning : e.core.status node.id = some .running)
    (hbody : node.id ∉ node.body) :
    Adds Observation.InTable e (c.loopStep e node rest).exec := by
  rcases loopStep_exec c e node rest with
    heq | ⟨e', out, -, -, -, -, hobserved, hothers, heq⟩
  · rw [heq]
    exact Adds.same rfl
  · rw [heq]
    have hstart : Adds Observation.InTable e e' := Adds.same hobserved
    have hdone : Adds Observation.InTable e' (e'.settle node.id .done) := by
      refine settle_keeps ?_
      have hstill : e'.core.status node.id = some .running :=
        (hothers node.id hbody).trans hrunning
      rw [hstill]
      exact Or.inr rfl
    exact hstart.trans (hdone.trans (Adds.same rfl))

/-! ## Steps -/

/-- The step keeps to the table: a gate that it starts skips only nodes that wait;
another node is blocked neither by steering nor by its inputs, and is not retried
after a denial. -/
structure StepKeeps (c : Setting) (s : Sched) : Prop where
  gate : ∀ node, c.Starts s node → node.type = "gate" →
    c.SkipsWaiting (startNode s.now node.id) node
  steering : ∀ node, c.Starts s node → node.type ≠ "gate" →
    node.type ≠ "loop" → ∀ reason,
      c.services.beforeNode s.now.tick node ≠ .ok (some reason)
  binding : ∀ node, c.Starts s node → node.type ≠ "gate" →
    node.type ≠ "loop" → c.Binds (startNode s.now node.id) node "blocked"
  denied : ∀ node, c.Starts s node → node.type ≠ "gate" →
    node.type ≠ "loop" → c.DeniedForGood (startNode s.now node.id) node

theorem startNode_keeps {nid : String} (h : Waits (e.core.status nid)) :
    Adds Observation.InTable e (startNode e nid) := by
  have hready : Keeps (e.statuses nid) (readied e.statuses nid nid) ∧
      readied e.statuses nid nid = some .ready := by
    have hstatus : Waits (e.statuses nid) := h
    unfold readied
    by_cases hpending : (e.statuses nid).getD .pending = .pending
    · rw [if_pos hpending, withStatus, if_pos rfl]
      exact ⟨Or.inr (by rw [hpending]; rfl), rfl⟩
    · rw [if_neg hpending]
      refine ⟨Keeps.refl _, ?_⟩
      rcases hstatus with hnone | hsome | hsome
      · rw [hnone] at hpending
        exact absurd rfl hpending
      · rw [hsome] at hpending
        exact absurd rfl hpending
      · exact hsome
  have hchange : (Observation.changed e.statuses
      (readied e.statuses nid)).InTable := by
    intro id
    by_cases heq : id = nid
    · rw [heq]
      exact hready.1
    · unfold readied
      split
      · rw [withStatus, if_neg heq]
        exact Keeps.refl _
      · exact Keeps.refl _
  refine ⟨_, (observed_startNode e nid).trans (List.append_assoc _ _ _), ?_⟩
  refine List.forall_mem_append.mpr
    ⟨List.forall_mem_singleton.mpr hchange, List.forall_mem_singleton.mpr ?_⟩
  refine withStatus_inTable ?_
  rw [hready.2]
  exact Or.inr rfl

theorem headStep_keeps (c : Setting) (e : Exec) :
    Adds Observation.InTable e (c.headStep e).exec := by
  refine (headStep_adds c e).mono fun o h => ?_
  cases o with
  | changed before after => exact Skips.inTable h
  | _ => exact h.elim

theorem step_keeps (hdag : Accepted c.dag) {s : Sched} (h : c.StepKeeps s) :
    Adds Observation.InTable s.exec (c.step s).exec := by
  obtain ⟨queue, e⟩ := s
  have hnow : Adds Observation.InTable e { e with tick := e.tick + 1 } :=
    Adds.same rfl
  refine hnow.trans ?_
  cases queue with
  | nil => exact headStep_keeps c { e with tick := e.tick + 1 }
  | cons nid rest =>
      rcases c.nodeStep_ways { e with tick := e.tick + 1 } nid rest with
        ⟨-, heq⟩ | ⟨-, heq⟩ | ⟨node, hnode, hwaits, heq⟩
      · exact Adds.same (congrArg (fun flow => flow.exec.observed) heq)
      · exact Adds.same (congrArg (fun flow => flow.exec.observed) heq)
      · obtain rfl := Dag.byId_id hnode
        have hstep : c.step ⟨node.id :: rest, e⟩ = c.processNode
            (startNode { e with tick := e.tick + 1 } node.id) node rest := heq
        have hstarts : c.Starts ⟨node.id :: rest, e⟩ node :=
          ⟨⟨rest, rfl⟩, hnode, hwaits⟩
        have hrunning : (startNode { e with tick := e.tick + 1 }
            node.id).core.status node.id = some .running :=
          congrArg NodeRun.status (startNode_node _ node.id)
        rw [hstep]
        refine (startNode_keeps hwaits).trans ?_
        rcases c.processNode_cases
            (startNode { e with tick := e.tick + 1 } node.id) node rest with
          ⟨htype, hprocess⟩ | ⟨htype, hprocess⟩ | ⟨hgate, hloop, hprocess⟩
        · rw [hprocess]
          exact gateStep_keeps hrunning (h.gate node hstarts htype)
        · rw [hprocess]
          refine loopStep_keeps hrunning fun hbody => ?_
          obtain ⟨bodyNode, hfound, hordinary⟩ :=
            hdag.not_nested node (Dag.mem_of_byId hnode) htype node.id hbody
          rw [hnode] at hfound
          obtain rfl := Option.some.inj hfound
          exact hordinary htype
        · rw [hprocess]
          exact steeringStep_keeps hrunning
            (h.steering node hstarts hgate hloop)
            (h.binding node hstarts hgate hloop)
            (h.denied node hstarts hgate hloop)

end Setting

/-! ## Calls -/

theorem resumeStart_keeps
    (services : Services) (given : Items) (saved : Persisted)
    {id : String} {run : NodeRun} (hrun : saved.nodeStates id = some run) :
    Keeps run.status
      ((resumeStart services given saved).exec.nodes id).status := by
  unfold resumeStart
  dsimp only
  rw [hrun]
  dsimp only
  by_cases hrunning : run.status = some .running
  · rw [if_pos hrunning, hrunning]
    exact Or.inr rfl
  · rw [if_neg hrunning]
    exact Keeps.refl _

/-- Every call of a valid graph whose steps keep to the table keeps to it. -/
theorem call_keeps_table
    (host : Host) (dag : Dag) (hvalid : validateDag host dag = [])
    (call : Call) (hcall : IsCall dag call)
    (hsteps : ∀ m < call.length, ∀ s,
      call.setting.steps m (.next call.start) = .next s →
        call.setting.StepKeeps s) :
    KeepsTable call := by
  have hdag := hcall.accepted hvalid
  constructor
  · have hstart : ∀ o ∈ (Flow.next call.start).exec.observed, o.InTable := by
      intro o ho
      have hnone : o ∈ call.start.exec.observed := ho
      rw [hcall.start_fresh.2.2] at hnone
      cases hnone
    exact Setting.steps_invariant
      (Q := fun flow => ∀ o ∈ flow.exec.observed, o.InTable)
      (fun s hs hkeeps => (Setting.step_keeps hdag hkeeps).forall hs)
      call.length hsteps hstart
  · intro services given saved hstart id run hrun
    rw [hstart]
    exact resumeStart_keeps services given saved hrun

/-! ## A blocked node -/

/-- A tool that needs an output which the tool before it declares and does not
give, under the mode that blocks such nodes. -/
def blockedDag : Dag where
  graphId := "g"
  runPolicy := { inputBindingMode := "blocked" }
  nodes :=
    [{ id := "source", type := "tool", assignedEntity := "system",
       outputs := [("text", .dict [])] },
     { id := "tool", type := "tool", assignedEntity := "system",
       dependsOn := ["source"],
       inputs := [("text", .str "$node.source.text")] }]

theorem blockedDag_valid : validateDag referenceHost blockedDag = [] := by
  decide +kernel

def Exec.changesOf (e : Exec) (id : String) :
    List (Option NodeStatus × Option NodeStatus) :=
  e.observed.filterMap fun o =>
    match o with
    | .changed before after =>
        if after id = before id then none else some (before id, after id)
    | _ => none

/-- The tool is blocked while it is running. -/
theorem running_node_blocked :
    IsCall blockedDag (quietCall blockedDag 4) ∧
      ¬KeepsTable (quietCall blockedDag 4) := by
  refine ⟨quietCall_isCall 4 blockedDag_valid, fun h => ?_⟩
  have hchanges : (quietCall blockedDag 4).flow.exec.changesOf "tool" =
      [(some .pending, some .ready), (some .ready, some .running),
        (some .running, some .blocked)] := by
    decide +kernel
  have hmem : (some NodeStatus.running, some NodeStatus.blocked) ∈
      (quietCall blockedDag 4).flow.exec.changesOf "tool" := by
    rw [hchanges]
    decide
  obtain ⟨o, ho, hsome⟩ := List.mem_filterMap.mp hmem
  have hin := h.changes o ho
  cases o with
  | changed before after =>
      dsimp only at hsome
      split at hsome
      · cases hsome
      · obtain ⟨hbefore, hafter⟩ := Prod.mk.inj (Option.some.inj hsome)
        have hkeeps := hin "tool"
        rw [hbefore, hafter] at hkeeps
        exact absurd hkeeps (by decide)
  | _ => cases hsome

/-- A tool that is run without a hitch keeps to the table. -/
theorem quiet_tool_keeps_table : KeepsTable (quietCall toolDag 2) := by
  refine call_keeps_table referenceHost toolDag toolDag_valid
    (quietCall toolDag 2) (quietCall_isCall 2 toolDag_valid) ?_
  intro m hm s hs
  have hordinary : ∀ node, (quietCall toolDag 2).setting.Starts s node →
      node.type = "tool" := by
    intro node hstarts
    obtain rfl := List.mem_singleton.mp (Dag.mem_of_byId hstarts.known)
    rfl
  constructor
  · intro node hstarts htype
    rw [hordinary node hstarts] at htype
    exact absurd htype (by decide)
  · intro node hstarts _ _ reason hreason
    cases hreason
  · intro node hstarts _ _ hunresolved
    obtain rfl := List.mem_singleton.mp (Dag.mem_of_byId hstarts.known)
    cases hunresolved
  · rintro node hstarts - - - ⟨result, hanswer, -⟩
    cases hanswer

end Hydrogenuine.TaskGraph
