import Hydrogenuine.TaskGraph.Executor

/-!
# The core of a run

The executor's state is reduced to its core: statuses, attempts, loops and the
record of events.  Skipping is described on cores: which statuses it replaces,
what the ready nodes are afterwards, and which sets of nodes it spares.
-/

namespace Hydrogenuine.TaskGraph

open Support Hydrogenuine.Core

/-! ## Cores -/

/-- Statuses, attempts, loops and events of a run. -/
structure RunCore where
  status : String → Option NodeStatus
  attempts : String → ℤ
  loops : Dict String LoopRun
  trace : List Event

def Exec.core (e : Exec) : RunCore where
  status := fun id => (e.nodes id).status
  attempts := fun id => (e.nodes id).attemptCount
  loops := e.runState.loopState
  trace := e.trace

/-- A status that waits to be run: `None` counts as pending. -/
def Waits (status : Option NodeStatus) : Prop :=
  status = none ∨ status = some .pending ∨ status = some .ready

namespace RunCore

def loop (k : RunCore) (id : String) : LoopRun := (k.loops.get? id).getD {}

def record (k : RunCore) (event : Event) : RunCore :=
  { k with trace := k.trace ++ [event] }

def settle (k : RunCore) (id : String) (status : NodeStatus) : RunCore :=
  { k with
    status := fun id' => if id' = id then some status else k.status id'
    trace := k.trace ++ [.settled id status] }

def start (k : RunCore) (id : String) : RunCore :=
  { k with
    status := fun id' => if id' = id then some .running else k.status id'
    attempts := fun id' =>
      if id' = id then k.attempts id + 1 else k.attempts id'
    trace := k.trace ++ [.started id k.status] }

def setLoop (k : RunCore) (id : String) (loop : LoopRun) : RunCore :=
  { k with loops := k.loops.set id loop }

def resetBody (k : RunCore) (dag : Dag) (body : List String) : RunCore :=
  { k with
    status := fun id =>
      if body.contains id && dag.ids.contains id then some .pending
      else k.status id
    attempts := fun id =>
      if body.contains id && dag.ids.contains id then 0 else k.attempts id
    trace := k.trace ++ [.reset body] }

@[simp] theorem loop_settle
    (k : RunCore) (id : String) (status : NodeStatus) (id' : String) :
    (k.settle id status).loop id' = k.loop id' := rfl

@[simp] theorem loop_resetBody
    (k : RunCore) (dag : Dag) (body : List String) (id : String) :
    (k.resetBody dag body).loop id = k.loop id := rfl

theorem loop_setLoop (k : RunCore) (id : String) (loop : LoopRun) (id' : String) :
    (k.setLoop id loop).loop id' = if id' = id then loop else k.loop id' := by
  unfold setLoop RunCore.loop
  rw [Dict.get?_set]
  split
  · rfl
  · rfl

@[simp] theorem loop_setLoop_self (k : RunCore) (id : String) (loop : LoopRun) :
    (k.setLoop id loop).loop id = loop := by
  rw [loop_setLoop, if_pos rfl]

end RunCore

/-! ### The core of a changed run -/

section CoreSimp

variable (e : Exec) (id : String)

@[simp] theorem core_withItems (f : Items → Items) :
    (e.withItems f).core = e.core := rfl

@[simp] theorem core_output (v : PyVal) : (e.output id v).core = e.core := rfl

@[simp] theorem core_final (status : String) :
    (e.final status).core = e.core := rfl

@[simp] theorem core_runError (code message : String) :
    (e.runError code message).core = e.core := rfl

@[simp] theorem core_record (event : Event) :
    (e.record event).core = e.core.record event := rfl

@[simp] theorem core_setLoop (loop : LoopRun) :
    (e.setLoop id loop).core = e.core.setLoop id loop := rfl

@[simp] theorem core_loop : e.core.loop id = e.loop id := rfl

@[simp] theorem core_fail (error : Items) : (e.fail id error).core = e.core := by
  unfold Exec.core Exec.fail Exec.withNode Exec.withNodes Exec.observe setNode
  congr 1
  · funext id'
    dsimp only
    split
    · rename_i h
      rw [h]
    · rfl
  · funext id'
    dsimp only
    split
    · rename_i h
      rw [h]
    · rfl

@[simp] theorem core_settle (status : NodeStatus) :
    (e.settle id status).core = e.core.settle id status := by
  unfold Exec.core Exec.settle Exec.withNode Exec.withNodes Exec.observe
    Exec.record setNode RunCore.settle
  congr 1
  · funext id'
    dsimp only
    split
    · rfl
    · rfl
  · funext id'
    dsimp only
    split
    · rename_i h
      rw [h]
    · rfl

theorem attempts_readyNode :
    ((Setting.readyNode e id).nodes id).attemptCount =
      (e.nodes id).attemptCount := by
  unfold Setting.readyNode Exec.withNode Exec.withNodes Exec.observe setNode
  dsimp only
  rw [if_pos rfl]
  split
  · rfl
  · rfl

@[simp] theorem core_startNode :
    (Setting.startNode e id).core = e.core.start id := by
  have hattempts := attempts_readyNode e id
  unfold Setting.startNode Exec.core Exec.withNode Exec.withNodes Exec.observe
    Exec.record RunCore.start
  congr 1
  · funext id'
    dsimp only [setNode]
    split
    · rfl
    · rename_i hne
      exact congrArg NodeRun.status (if_neg hne)
  · funext id'
    dsimp only [setNode]
    split
    · rw [hattempts]
    · rename_i hne
      exact congrArg NodeRun.attemptCount (if_neg hne)

@[simp] theorem core_resetBody (c : Setting) (body : List String) :
    (c.resetBody e body).core = e.core.resetBody c.dag body := by
  unfold Setting.resetBody Exec.core Exec.withState
    Exec.record resetNodes RunCore.resetBody
  congr 1
  · funext id'
    dsimp only
    split
    · rfl
    · rfl
  · funext id'
    dsimp only
    split
    · rfl
    · rfl

@[simp] theorem core_settleEscrowLock
    (c : Setting) (nid : String) (entry : String → PyVal → Observation) :
    (c.settleEscrowLock e nid entry).core = e.core := by
  unfold Setting.settleEscrowLock
  split
  · split
    · rfl
    · rfl
  · rfl

@[simp] theorem core_lockEscrow (c : Setting) (node : Node) :
    (c.lockEscrow e node).core = e.core := by
  unfold Setting.lockEscrow
  split
  · split
    · split
      · rfl
      · rfl
    · rfl
  · rfl

end CoreSimp

/-! ## Skipping -/

/-- Some nodes of a kind of status become skipped, and nothing else changes. -/
def Skips
    (dag : Dag) (P : Option NodeStatus → Prop)
    (status status' : String → Option NodeStatus) : Prop :=
  ∀ id, status' id = status id ∨
    (id ∈ dag.ids ∧ P (status id) ∧ status' id = some .skipped)

def Open (status : Option NodeStatus) : Prop :=
  status ≠ some .done ∧ status ≠ some .failed

theorem Waits.open {status : Option NodeStatus} (h : Waits status) :
    Open status := by
  rcases h with rfl | rfl | rfl
  · exact ⟨by decide, by decide⟩
  · exact ⟨by decide, by decide⟩
  · exact ⟨by decide, by decide⟩

theorem waiting_iff (run : NodeRun) :
    run.waiting = true ↔ Waits run.status := by
  unfold NodeRun.waiting NodeRun.current Waits
  cases run.status with
  | none => simp
  | some status => cases status <;> simp

section Skips

variable {dag : Dag} {P Q : Option NodeStatus → Prop}
  {status status' status'' : String → Option NodeStatus}

theorem Skips.refl : Skips dag P status status := fun _ => Or.inl rfl

theorem Skips.trans
    (h : Skips dag P status status') (h' : Skips dag P status' status'') :
    Skips dag P status status'' := by
  intro id
  rcases h' id with heq | ⟨hid, hP, hskipped⟩
  · rw [heq]
    exact h id
  · rcases h id with heq' | ⟨-, hP', -⟩
    · rw [heq'] at hP
      exact Or.inr ⟨hid, hP, hskipped⟩
    · exact Or.inr ⟨hid, hP', hskipped⟩

theorem Skips.mono
    (h : Skips dag P status status') (hPQ : ∀ s, P s → Q s) :
    Skips dag Q status status' :=
  fun id => (h id).imp_right fun ⟨hid, hP, hskipped⟩ =>
    ⟨hid, hPQ _ hP, hskipped⟩

theorem Skips.done
    (h : Skips dag Open status status') {id : String}
    (hdone : status id = some .done) : status' id = some .done := by
  rcases h id with heq | ⟨-, hopen, -⟩
  · rw [heq, hdone]
  · exact absurd hdone hopen.1

end Skips

/-- Skipping on the records of the nodes, whose attempts stay. -/
structure SkipsNodes
    (dag : Dag) (P : Option NodeStatus → Prop)
    (nodes nodes' : String → NodeRun) : Prop where
  skips : Skips dag P (fun id => (nodes id).status) fun id => (nodes' id).status
  attempts : ∀ id, (nodes' id).attemptCount = (nodes id).attemptCount

section SkipsNodes

variable {dag : Dag} {P Q : Option NodeStatus → Prop}
  {nodes nodes' nodes'' : String → NodeRun}

theorem SkipsNodes.refl : SkipsNodes dag P nodes nodes :=
  ⟨Skips.refl, fun _ => rfl⟩

theorem SkipsNodes.trans
    (h : SkipsNodes dag P nodes nodes')
    (h' : SkipsNodes dag P nodes' nodes'') :
    SkipsNodes dag P nodes nodes'' :=
  ⟨h.skips.trans h'.skips, fun id => (h'.attempts id).trans (h.attempts id)⟩

theorem SkipsNodes.mono
    (h : SkipsNodes dag P nodes nodes') (hPQ : ∀ s, P s → Q s) :
    SkipsNodes dag Q nodes nodes' :=
  ⟨h.skips.mono hPQ, h.attempts⟩

theorem setStatus_skips
    {id : String} (hid : id ∈ dag.ids) (hP : P (nodes id).status) :
    SkipsNodes dag P nodes (setStatus nodes id .skipped) where
  skips := by
    intro id'
    dsimp only [setStatus, setNode]
    split
    · rename_i h
      rw [h]
      exact Or.inr ⟨hid, hP, rfl⟩
    · exact Or.inl rfl
  attempts := by
    intro id'
    dsimp only [setStatus, setNode]
    split
    · rename_i h
      rw [h]
    · rfl

theorem foldl_skips
    {α : Type} {f : (String → NodeRun) → α → String → NodeRun} {xs : List α}
    (hf : ∀ nodes, ∀ x ∈ xs, SkipsNodes dag P nodes (f nodes x)) :
    SkipsNodes dag P nodes (xs.foldl f nodes) := by
  refine List.foldlRecOn xs f (motive := SkipsNodes dag P nodes)
    SkipsNodes.refl fun nodes' h x hx => ?_
  exact h.trans (hf nodes' x hx)

theorem skipWhere_apply
    (nodes : String → NodeRun) (ids : List String) (test : NodeRun → Bool)
    (id : String) :
    skipWhere nodes ids test id = nodes id ∨
      (id ∈ ids ∧ test (nodes id) = true ∧
        skipWhere nodes ids test id =
          { nodes id with status := some .skipped }) := by
  induction ids generalizing nodes with
  | nil => exact Or.inl rfl
  | cons id' ids ih =>
      have hcons : skipWhere nodes (id' :: ids) test = skipWhere
          (if test (nodes id') then setStatus nodes id' .skipped else nodes)
          ids test := rfl
      rw [hcons]
      by_cases htest : test (nodes id') = true
      · rw [if_pos htest]
        by_cases heq : id = id'
        · subst heq
          have hself : setStatus nodes id .skipped id =
              { nodes id with status := some .skipped } := if_pos rfl
          refine Or.inr ⟨List.mem_cons_self, htest, ?_⟩
          rcases ih (setStatus nodes id .skipped) with hsame | ⟨-, -, hskip⟩
          · rw [hsame, hself]
          · rw [hskip, hself]
        · have hother : setStatus nodes id' .skipped id = nodes id :=
            if_neg heq
          rcases ih (setStatus nodes id' .skipped) with
            hsame | ⟨hmem, hpass, hskip⟩
          · exact Or.inl (hsame.trans hother)
          · rw [hother] at hpass hskip
            exact Or.inr ⟨List.mem_cons_of_mem _ hmem, hpass, hskip⟩
      · rw [if_neg htest]
        rcases ih nodes with hsame | ⟨hmem, hpass, hskip⟩
        · exact Or.inl hsame
        · exact Or.inr ⟨List.mem_cons_of_mem _ hmem, hpass, hskip⟩

theorem skipWhere_skips
    {ids : List String} {test : NodeRun → Bool}
    (hids : ∀ id ∈ ids, id ∈ dag.ids)
    (htest : ∀ id ∈ ids, test (nodes id) = true → P (nodes id).status) :
    SkipsNodes dag P nodes (skipWhere nodes ids test) := by
  constructor
  · intro id
    rcases skipWhere_apply nodes ids test id with heq | ⟨hid, hpass, heq⟩
    · exact Or.inl (congrArg NodeRun.status heq)
    · exact Or.inr ⟨hids id hid, htest id hid hpass,
        congrArg NodeRun.status heq⟩
  · intro id
    rcases skipWhere_apply nodes ids test id with heq | ⟨-, -, heq⟩
    · rw [heq]
    · rw [heq]

theorem propagateNode_skips
    {p : Propagation} {node : Node} (hnode : node ∈ dag.nodes) :
    SkipsNodes dag Waits p.nodes (propagateNode p node).nodes := by
  unfold propagateNode
  split
  · rename_i h
    simp only [Bool.and_eq_true] at h
    exact setStatus_skips (List.mem_map_of_mem hnode)
      ((waiting_iff _).mp h.1.1)
  · exact SkipsNodes.refl

theorem propagatePass_skips (p : Propagation) :
    SkipsNodes dag Waits p.nodes (propagatePass dag p).nodes := by
  unfold propagatePass
  have hstart : SkipsNodes dag Waits p.nodes
      { p with changed := false }.nodes := SkipsNodes.refl
  refine List.foldlRecOn _ propagateNode
    (motive := fun q => SkipsNodes dag Waits p.nodes q.nodes)
    hstart fun q h node hnode => ?_
  exact h.trans (propagateNode_skips ((List.mem_insertionSort _).mp hnode))

theorem propagatePasses_skips (fuel : ℕ) (p : Propagation) :
    SkipsNodes dag Waits p.nodes (propagatePasses dag fuel p).nodes := by
  induction fuel generalizing p with
  | zero => exact SkipsNodes.refl
  | succ fuel ih =>
      rw [propagatePasses]
      have hpass : SkipsNodes dag Waits p.nodes
          (propagatePass dag p).nodes :=
        propagatePass_skips p
      split
      · exact hpass.trans (ih _)
      · exact hpass

theorem propagateDepsAllSkipped_skips
    (dag : Dag) (nodes : String → NodeRun) (skipped : List String) :
    SkipsNodes dag Waits nodes
      (propagateDepsAllSkipped dag nodes skipped) :=
  propagatePasses_skips _ { nodes, skipped }

theorem getReadyNodes_skips
    (dag : Dag) (failureMode : String) (nodes : String → NodeRun) :
    SkipsNodes dag Waits nodes (getReadyNodes dag failureMode nodes).2 :=
  propagateDepsAllSkipped_skips _ _ _

theorem skipFailedDependents_skips
    (dag : Dag) (nodes : String → NodeRun) :
    SkipsNodes dag Waits nodes (skipFailedDependents dag nodes) := by
  refine foldl_skips fun nodes node hnode => ?_
  split
  · rename_i h
    simp only [Bool.and_eq_true, beq_iff_eq] at h
    exact setStatus_skips (List.mem_map_of_mem hnode)
      (Or.inr (Or.inl h.1))
  · exact SkipsNodes.refl

end SkipsNodes

variable {nodes : String → NodeRun} {dag : Dag}

theorem core_withNodes {P : Option NodeStatus → Prop} {e : Exec} (h : SkipsNodes dag P e.nodes nodes) :
    (e.withNodes nodes).core =
      { e.core with status := fun id => (nodes id).status } := by
  unfold Exec.withNodes Exec.core
  congr 1
  funext id
  exact h.attempts id

/-! ## Ready nodes -/

/-- A ready node is in the graph, waits, and has all its dependencies done. -/
structure ReadyIn
    (dag : Dag) (status : String → Option NodeStatus) (nid : String) : Prop
    where
  known : ∃ node, dag.byId nid = some node
  waits : Waits (status nid)
  deps : ∀ node, dag.byId nid = some node →
    ∀ dep ∈ node.dependsOn, status dep = some .done

theorem mem_idsWith {status : NodeStatus}
    {id : String} :
    id ∈ idsWith dag nodes status ↔
      id ∈ dag.ids ∧ (nodes id).status = some status := by
  rw [idsWith, List.mem_filter, beq_iff_eq]

/-- The ready nodes: they wait after the skips, their dependencies were done,
and in the continue mode none of these had failed. -/
theorem mem_getReadyNodes {failureMode : String}
    {nid : String} :
    nid ∈ (getReadyNodes dag failureMode nodes).1 ↔
      ∃ node ∈ dag.nodes, node.id = nid ∧
        Waits ((getReadyNodes dag failureMode nodes).2 node.id).status ∧
        (∀ dep ∈ node.dependsOn, dep ∈ idsWith dag nodes .done) ∧
        (failureMode = "continue" →
          ∀ dep ∈ node.dependsOn, dep ∉ idsWith dag nodes .failed) := by
  have hready : ∀ node : Node,
      (((getReadyNodes dag failureMode nodes).2 node.id).waiting &&
        node.dependsOn.all (idsWith dag nodes .done).contains &&
        !(failureMode == "continue" &&
          node.dependsOn.any (idsWith dag nodes .failed).contains)) = true ↔
      Waits ((getReadyNodes dag failureMode nodes).2 node.id).status ∧
        (∀ dep ∈ node.dependsOn, dep ∈ idsWith dag nodes .done) ∧
        (failureMode = "continue" →
          ∀ dep ∈ node.dependsOn, dep ∉ idsWith dag nodes .failed) := by
    intro node
    rw [Bool.and_eq_true, Bool.and_eq_true, waiting_iff, and_assoc]
    refine and_congr Iff.rfl (and_congr ?_ ?_)
    · simp
    · by_cases hmode : failureMode = "continue"
      · simp [hmode]
      · simp [hmode]
  unfold getReadyNodes at hready ⊢
  rw [List.mem_insertionSort, List.mem_map]
  constructor
  · rintro ⟨node, hmem, rfl⟩
    obtain ⟨hnode, htest⟩ := List.mem_filter.mp hmem
    exact ⟨node, hnode, rfl, (hready node).mp htest⟩
  · rintro ⟨node, hnode, rfl, htest⟩
    exact ⟨node, List.mem_filter.mpr ⟨hnode, (hready node).mpr htest⟩, rfl⟩

theorem getReadyNodes_ready (hnodup : dag.ids.Nodup) {failureMode : String} {nid : String}
    (h : nid ∈ (getReadyNodes dag failureMode nodes).1) :
    ReadyIn dag
      (fun id => ((getReadyNodes dag failureMode nodes).2 id).status) nid := by
  have hskips := getReadyNodes_skips dag failureMode nodes
  obtain ⟨node, hnode, rfl, hwaits, hdeps, -⟩ := mem_getReadyNodes.mp h
  have hbyId := (Dag.byId_eq_some hnodup).mpr hnode
  refine ⟨⟨node, hbyId⟩, hwaits, ?_⟩
  intro node' hnode' dep hdep
  rw [hbyId] at hnode'
  obtain rfl := Option.some.inj hnode'
  have hdone := (mem_idsWith.mp (hdeps dep hdep)).2
  exact (hskips.skips.mono fun _ => Waits.open).done hdone

theorem getReadyNodes_nodup (hnodup : dag.ids.Nodup) (failureMode : String)
    (nodes : String → NodeRun) :
    (getReadyNodes dag failureMode nodes).1.Nodup := by
  unfold getReadyNodes
  dsimp only
  refine (List.perm_insertionSort _ _).nodup_iff.mpr ?_
  exact hnodup.sublist (List.filter_sublist.map Node.id)

/-! ## What skipping spares -/

/-- A set without skipped and failed nodes whose waiting nodes depend on nothing
outside it. -/
structure Closed
    (dag : Dag) (S : String → Prop) (status : String → Option NodeStatus) :
    Prop where
  sound : ∀ id, S id →
    status id ≠ some .skipped ∧ status id ≠ some .failed
  deps : ∀ node ∈ dag.nodes, S node.id → Waits (status node.id) →
    ∀ dep ∈ node.dependsOn, S dep

def Spares
    (dag : Dag) (status status' : String → Option NodeStatus) : Prop :=
  ∀ S : String → Prop, Closed dag S status → ∀ id, S id → status' id = status id

section Spares

variable {dag : Dag} {S : String → Prop} {nodes : String → NodeRun}

theorem Spares.refl {status : String → Option NodeStatus} :
    Spares dag status status :=
  fun _ _ _ _ => rfl

theorem Spares.trans {status status' status'' : String → Option NodeStatus}
    (h : Spares dag status status') (h' : Spares dag status' status'') :
    Spares dag status status'' := by
  intro S hclosed id hid
  have hsame := h S hclosed
  have hclosed' : Closed dag S status' := by
    constructor
    · intro id' hid'
      rw [hsame id' hid']
      exact hclosed.sound id' hid'
    · intro node hnode hS hwaits
      rw [hsame node.id hS] at hwaits
      exact hclosed.deps node hnode hS hwaits
  rw [h' S hclosed' id hid, hsame id hid]

theorem setStatus_status_of_ne
    {id id' : String} {status : NodeStatus} (hne : id' ≠ id) :
    (setStatus nodes id status id').status = (nodes id').status := by
  rw [setStatus, setNode, if_neg hne]

def Untouched
    (S : String → Prop) (nodes : String → NodeRun) (p : Propagation) : Prop :=
  ∀ id, S id → (p.nodes id).status = (nodes id).status ∧ id ∉ p.skipped

variable {p : Propagation}

theorem propagateNode_untouched
    (hclosed : Closed dag S fun id => (nodes id).status)
    (h : Untouched S nodes p) {node : Node} (hnode : node ∈ dag.nodes) :
    Untouched S nodes (propagateNode p node) := by
  unfold propagateNode
  split
  · rename_i htest
    simp only [Bool.and_eq_true, Bool.not_eq_true'] at htest
    obtain ⟨⟨hwaiting, hsome⟩, hall⟩ := htest
    have hnot : ¬S node.id := by
      intro hS
      rw [waiting_iff, (h node.id hS).1] at hwaiting
      obtain ⟨dep, hdep⟩ := List.exists_mem_of_ne_nil node.dependsOn (by
        intro hnil
        rw [hnil] at hsome
        exact absurd hsome (by decide))
      have hSdep := hclosed.deps node hnode hS hwaiting dep hdep
      have hskipped := List.all_eq_true.mp hall dep hdep
      exact (h dep hSdep).2 (List.contains_iff_mem.mp hskipped)
    intro id hid
    have hne : id ≠ node.id := fun heq => hnot (heq ▸ hid)
    refine ⟨?_, ?_⟩
    · rw [← (h id hid).1]
      exact setStatus_status_of_ne hne
    · intro hmem
      rcases List.mem_cons.mp hmem with heq | hmem
      · exact hne heq
      · exact (h id hid).2 hmem
  · exact h

theorem propagatePass_untouched
    (hclosed : Closed dag S fun id => (nodes id).status)
    (h : Untouched S nodes p) : Untouched S nodes (propagatePass dag p) := by
  unfold propagatePass
  refine List.foldlRecOn _ propagateNode
    (motive := Untouched S nodes) h fun q hq node hnode => ?_
  exact propagateNode_untouched hclosed hq
    ((List.mem_insertionSort _).mp hnode)

theorem propagatePasses_untouched
    (hclosed : Closed dag S fun id => (nodes id).status) (fuel : ℕ) (h : Untouched S nodes p) :
    Untouched S nodes (propagatePasses dag fuel p) := by
  induction fuel generalizing p with
  | zero => exact h
  | succ fuel ih =>
      rw [propagatePasses]
      have hpass : Untouched S nodes (propagatePass dag p) :=
        propagatePass_untouched hclosed h
      split
      · exact ih hpass
      · exact hpass

theorem getReadyNodes_spares
    (dag : Dag) (failureMode : String) (nodes : String → NodeRun) :
    Spares dag (fun id => (nodes id).status)
      fun id => ((getReadyNodes dag failureMode nodes).2 id).status := by
  intro S hclosed id hid
  have hstart : Untouched S nodes
      { nodes, skipped := idsWith dag nodes .skipped } := by
    intro id' hid'
    refine ⟨rfl, fun hmem => ?_⟩
    exact (hclosed.sound id' hid').1 (mem_idsWith.mp hmem).2
  exact (propagatePasses_untouched hclosed _ hstart id hid).1

theorem skipFailedDependents_spares
    (dag : Dag) (nodes : String → NodeRun) :
    Spares dag (fun id => (nodes id).status)
      fun id => (skipFailedDependents dag nodes id).status := by
  intro S hclosed
  have hfold : ∀ id, S id →
      (skipFailedDependents dag nodes id).status = (nodes id).status := by
    unfold skipFailedDependents
    refine List.foldlRecOn _ _
      (motive := fun nodes' : String → NodeRun =>
        ∀ id, S id → (nodes' id).status = (nodes id).status)
      (fun _ _ => rfl) fun nodes' hsame node hnode => ?_
    split
    · rename_i htest
      rw [Bool.and_eq_true, beq_iff_eq] at htest
      obtain ⟨hpending, hany⟩ := htest
      have hnot : ¬S node.id := by
        intro hS
        rw [hsame node.id hS] at hpending
        obtain ⟨dep, hdep, hfailed⟩ := List.any_eq_true.mp hany
        rw [Bool.and_eq_true, beq_iff_eq] at hfailed
        have hSdep := hclosed.deps node hnode hS (Or.inr (Or.inl hpending))
          dep hdep
        rw [hsame dep hSdep] at hfailed
        exact (hclosed.sound dep hSdep).2 hfailed.2
      intro id hid
      have hne : id ≠ node.id := fun heq => hnot (heq ▸ hid)
      rw [setStatus_status_of_ne hne]
      exact hsame id hid
    · exact hsame
  exact hfold

end Spares

end Hydrogenuine.TaskGraph
