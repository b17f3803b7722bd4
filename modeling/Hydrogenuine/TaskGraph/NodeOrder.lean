import Hydrogenuine.TaskGraph.TopologicalOrder

/-!
# Validation and the order of the nodes

Nearly all checks of `validate_dag` say the same whatever the order in which the nodes are
listed.  The check for writes inside loop bodies goes over the nodes while it collects the
bodies, and sees a node in the body of a loop only if the loop is listed before it.
-/

namespace Hydrogenuine.TaskGraph

open Support Hydrogenuine.Core

def Dag.reordered (dag : Dag) (nodes : List Node) : Dag := { dag with nodes }

def Dag.allowing (dag : Dag) : Dag :=
  { dag with runPolicy := { dag.runPolicy with allowSideEffectsInLoops := true } }

/-- A write needs a checkpoint before or after it, unless writes in loops are allowed. -/
def Unguarded (dag : Dag) (node : Node) : Bool :=
  node.policy.effectClass == "write" && !dag.runPolicy.allowSideEffectsInLoops &&
    !(node.checkpoints.before || node.checkpoints.after)

/-- Every write inside a loop body has a checkpoint, or writes in loops are allowed. -/
def WritesGuarded (dag : Dag) : Prop :=
  ∀ loop ∈ dag.nodes, loop.type = "loop" → ∀ node ∈ dag.nodes, node.id ∈ loop.body →
    node.policy.effectClass = "write" →
      dag.runPolicy.allowSideEffectsInLoops = true ∨
        node.checkpoints.before = true ∨ node.checkpoints.after = true

/-- The verdict is the same in every order of the nodes, and a valid graph has its writes
inside loop bodies guarded. -/
def OrderIndependent (host : Host) (dag : Dag) : Prop :=
  (∀ nodes, nodes.Perm dag.nodes →
    (validateDag host (dag.reordered nodes) = [] ↔ validateDag host dag = [])) ∧
  (validateDag host dag = [] → WritesGuarded dag)

/-! ## The parts of the verdict -/

variable {dag : Dag}

theorem unguarded_eq_false_iff {node : Node} :
    Unguarded dag node = false ↔
      (node.policy.effectClass = "write" →
        dag.runPolicy.allowSideEffectsInLoops = true ∨
          node.checkpoints.before = true ∨ node.checkpoints.after = true) := by
  unfold Unguarded
  by_cases hwrite : node.policy.effectClass = "write"
  · rcases dag.runPolicy.allowSideEffectsInLoops with _ | _
    · rcases node.checkpoints.before with _ | _
      · simp [hwrite]
      · simp [hwrite]
    · simp [hwrite]
  · simp [hwrite]

def loopBodies (dag : Dag) (nodes : List Node) : List String :=
  nodes.flatMap fun node =>
    if node.type = "loop" then node.body.filter dag.ids.contains else []

/-- The second pass: the bodies of all loops, and the nodes in the bodies of the loops
before them. -/
theorem allBodyErrors_eq_nil_iff {bodies : List String} {nodes : List Node} :
    allBodyErrors dag bodies nodes = [] ↔
      (∀ loop ∈ nodes, loop.type = "loop" → bodyErrors dag loop = []) ∧
        ∀ before node after, nodes = before ++ node :: after → node.type ≠ "loop" →
          node.id ∈ bodies ++ loopBodies dag before → Unguarded dag node = false := by
  induction nodes generalizing bodies with
  | nil =>
      refine iff_of_true rfl ⟨fun _ h => absurd h List.not_mem_nil, ?_⟩
      intro before node after h
      exact absurd h.symm (List.append_ne_nil_of_right_ne_nil _ (List.cons_ne_nil _ _))
  | cons first rest ih =>
      have hsplit (P : List Node → Node → Prop) :
          (∀ before node after, first :: rest = before ++ node :: after → P before node) ↔
            P [] first ∧ ∀ before node after, rest = before ++ node :: after →
              P (first :: before) node := by
        constructor
        · intro h
          refine ⟨h [] first rest rfl, fun before node after heq => ?_⟩
          exact h (first :: before) node after (by rw [heq, List.cons_append])
        · rintro ⟨hfirst, hrest⟩ before node after heq
          rcases before with _ | ⟨head, before⟩
          · obtain ⟨rfl, -⟩ := List.cons.inj heq
            exact hfirst
          · obtain ⟨rfl, hafter⟩ := List.cons.inj heq
            exact hrest before node after hafter
      rw [hsplit fun before node => node.type ≠ "loop" →
        node.id ∈ bodies ++ loopBodies dag before → Unguarded dag node = false,
        List.forall_mem_cons, allBodyErrors]
      by_cases hloop : first.type = "loop"
      · have hbodies (before : List Node) :
            bodies ++ loopBodies dag (first :: before) =
              bodies ++ first.body.filter dag.ids.contains ++ loopBodies dag before := by
          rw [loopBodies, List.flatMap_cons, if_pos hloop, List.append_assoc]
          rfl
        rw [if_pos (beq_iff_eq.mpr hloop), List.append_eq_nil_iff, ih]
        simp only [hbodies]
        constructor
        · rintro ⟨hfirst, hrest, hwrites⟩
          exact ⟨⟨fun _ => hfirst, hrest⟩, fun hne => absurd hloop hne, hwrites⟩
        · rintro ⟨⟨hfirst, hrest⟩, -, hwrites⟩
          exact ⟨hfirst hloop, hrest, hwrites⟩
      · have hbodies (before : List Node) :
            loopBodies dag (first :: before) = loopBodies dag before := by
          rw [loopBodies, List.flatMap_cons, if_neg hloop, List.nil_append]
          rfl
        have hnone : bodies ++ loopBodies dag [] = bodies := List.append_nil bodies
        rw [if_neg (fun h => hloop (beq_iff_eq.mp h)), List.append_eq_nil_iff, ih, hnone]
        simp only [hbodies]
        have hwrite : (bodies.contains first.id && first.policy.effectClass == "write" &&
            !dag.runPolicy.allowSideEffectsInLoops &&
              !(first.checkpoints.before || first.checkpoints.after)) =
            (bodies.contains first.id && Unguarded dag first) := by
          unfold Unguarded
          simp only [Bool.and_assoc]
        rw [hwrite, errorIf_eq_nil, Bool.and_eq_false_imp, List.contains_iff_mem]
        constructor
        · rintro ⟨hfirst, hrest, hwrites⟩
          exact ⟨⟨fun h => absurd h hloop, hrest⟩, fun _ => hfirst, hwrites⟩
        · rintro ⟨⟨-, hrest⟩, hfirst, hwrites⟩
          exact ⟨hfirst hloop, hrest, hwrites⟩

theorem errorIf_nil_iff_not {condition : Bool} {error : ValidationError} :
    errorIf condition error = [] ↔ ¬ condition = true := by
  rw [errorIf_eq_nil, Bool.not_eq_true]

theorem nodeErrors_eq_nil_iff {host : Host} {seen : List String} {node : Node} :
    nodeErrors host dag seen node = [] ↔
      node.id ∉ seen ∧ nodeErrors host dag [] node = [] := by
  unfold nodeErrors
  by_cases hid : (node.id == "") = true
  · rw [if_pos hid, if_pos hid]
    exact iff_of_false nofun fun h => by cases h.2
  · rw [if_neg hid, if_neg hid]
    simp only [List.append_eq_nil_iff, errorIf_nil_iff_not, List.contains_iff_mem,
      List.not_mem_nil, not_false_iff, true_and, and_assoc]

theorem allNodeErrors_eq_nil_iff {host : Host} {seen : List String}
    {nodes : List Node} :
    allNodeErrors host dag seen nodes = [] ↔
      (∀ node ∈ nodes, nodeErrors host dag [] node = [] ∧ node.id ∉ seen) ∧
        (nodes.map Node.id).Nodup := by
  induction nodes generalizing seen with
  | nil => exact iff_of_true rfl ⟨fun _ h => absurd h List.not_mem_nil, List.nodup_nil⟩
  | cons node rest ih =>
      rw [allNodeErrors, List.append_eq_nil_iff, nodeErrors_eq_nil_iff, ih,
        List.forall_mem_cons, List.map_cons, List.nodup_cons]
      have hseen (h : nodeErrors host dag [] node = []) :
          (if node.id == "" then seen else node.id :: seen) = node.id :: seen := by
        refine if_neg fun hempty => ?_
        rw [nodeErrors, if_pos hempty] at h
        cases h
      constructor
      · rintro ⟨⟨hfresh, hnode⟩, hrest, hnodup⟩
        rw [hseen hnode] at hrest
        refine ⟨⟨⟨hnode, hfresh⟩, fun other hother => ?_⟩, fun hmem => ?_, hnodup⟩
        · obtain ⟨hother, hnew⟩ := hrest other hother
          exact ⟨hother, fun h => hnew (List.mem_cons_of_mem _ h)⟩
        · obtain ⟨other, hother, heq⟩ := List.mem_map.mp hmem
          exact (hrest other hother).2 (heq ▸ List.mem_cons_self)
      · rintro ⟨⟨⟨hnode, hfresh⟩, hrest⟩, hnew, hnodup⟩
        rw [hseen hnode]
        refine ⟨⟨hfresh, hnode⟩, fun other hother => ⟨(hrest other hother).1, ?_⟩, hnodup⟩
        intro hmem
        rcases List.mem_cons.mp hmem with heq | hold
        · exact hnew (List.mem_map.mpr ⟨other, hother, heq⟩)
        · exact (hrest other hother).2 hold

/-! ## Graphs that name the same nodes -/

/-- The same ids stand for the same nodes, under the same run policy but for writes in
loops. -/
structure SameNames (dag dag' : Dag) : Prop where
  byId : dag'.byId = dag.byId
  contains : dag'.ids.contains = dag.ids.contains
  strictBindings : dag'.runPolicy.strictBindings = dag.runPolicy.strictBindings

section

variable {host : Host} {dag dag' : Dag}

theorem SameNames.nodeErrors (h : SameNames dag dag') (seen : List String) (node : Node) :
    nodeErrors host dag' seen node = nodeErrors host dag seen node := by
  have hnamed : dag'.named = dag.named := by
    funext v
    cases v with
    | str id => exact congrFun h.byId id
    | _ => rfl
  have hbinding : bindingErrors dag' = bindingErrors dag := by
    funext node entry
    unfold bindingErrors
    rw [h.byId]
  have hgate : gateErrors host dag' node = gateErrors host dag node := by
    unfold gateErrors
    rw [hnamed]
  have hloop : loopErrors host dag' node = loopErrors host dag node := by
    unfold loopErrors
    rw [hnamed]
  unfold TaskGraph.nodeErrors
  rw [h.contains, h.strictBindings, hbinding, hgate, hloop]

theorem SameNames.bodyErrors (h : SameNames dag dag') (node : Node) :
    bodyErrors dag' node = bodyErrors dag node := by
  unfold TaskGraph.bodyErrors
  rw [h.contains, h.byId]

theorem sameNames_allowing (dag : Dag) : SameNames dag dag.allowing := ⟨rfl, rfl, rfl⟩

variable {nodes : List Node}

theorem sameNames_of_perm (hnodup : dag.ids.Nodup)
    (hperm : nodes.Perm dag.nodes) : SameNames dag (dag.reordered nodes) where
  byId := funext fun id => byId_eq_of_perm hnodup hperm id
  contains := by
    funext id
    have hmem : id ∈ (dag.reordered nodes).ids ↔ id ∈ dag.ids :=
      (hperm.map Node.id).mem_iff
    rw [Bool.eq_iff_iff, List.contains_iff_mem, List.contains_iff_mem, hmem]
  strictBindings := rfl

/-! ## The verdict -/

/-- The checks other than that for writes in loops. -/
structure PlainlyValid (host : Host) (dag : Dag) : Prop where
  policy : runPolicyErrors dag.runPolicy = []
  named : dag.graphId ≠ ""
  ids_nodup : dag.ids.Nodup
  nodes : ∀ node ∈ dag.nodes, nodeErrors host dag [] node = []
  bodies : ∀ loop ∈ dag.nodes, loop.type = "loop" → TaskGraph.bodyErrors dag loop = []
  acyclic : detectCycle dag = false

theorem validateDag_eq_nil_iff :
    validateDag host dag = [] ↔
      PlainlyValid host dag ∧
        ∀ before node after, dag.nodes = before ++ node :: after → node.type ≠ "loop" →
          node.id ∈ loopBodies dag before → Unguarded dag node = false := by
  rw [validateDag]
  simp only [List.append_eq_nil_iff, errorIf_eq_nil, allNodeErrors_eq_nil_iff,
    allBodyErrors_eq_nil_iff, List.nil_append]
  constructor
  · rintro ⟨⟨⟨⟨hpolicy, hnamed⟩, hnodes, hnodup⟩, hbodies, hwrites⟩, hcycle⟩
    exact ⟨⟨hpolicy, by simpa using hnamed, hnodup, fun node hnode => (hnodes node hnode).1,
      hbodies, hcycle⟩, hwrites⟩
  · rintro ⟨h, hwrites⟩
    exact ⟨⟨⟨⟨h.policy, by simpa using h.named⟩,
      fun node hnode => ⟨h.nodes node hnode, List.not_mem_nil⟩, h.ids_nodup⟩,
      h.bodies, hwrites⟩, h.acyclic⟩

theorem validateDag_allowing_iff :
    validateDag host dag.allowing = [] ↔ PlainlyValid host dag := by
  have hnames := sameNames_allowing dag
  have hcycle : detectCycle dag.allowing = detectCycle dag := by
    rw [detectCycle_eq_searchAll, detectCycle_eq_searchAll]
    rfl
  rw [validateDag_eq_nil_iff]
  constructor
  · rintro ⟨h, -⟩
    exact ⟨h.policy, h.named, h.ids_nodup,
      fun node hnode => (hnames.nodeErrors [] node).symm.trans (h.nodes node hnode),
      fun loop hloop htype => (hnames.bodyErrors loop).symm.trans (h.bodies loop hloop htype),
      hcycle.symm.trans h.acyclic⟩
  · intro h
    refine ⟨⟨h.policy, h.named, h.ids_nodup,
      fun node hnode => (hnames.nodeErrors [] node).trans (h.nodes node hnode),
      fun loop hloop htype => (hnames.bodyErrors loop).trans (h.bodies loop hloop htype),
      hcycle.trans h.acyclic⟩, fun _ node _ _ _ _ => ?_⟩
    exact unguarded_eq_false_iff.mpr fun _ => Or.inl rfl

theorem PlainlyValid.resolvable (h : PlainlyValid host dag) : Resolvable dag where
  ids_nodup := h.ids_nodup
  known := fun node hnode => (nodeErrors_eq_nil (h.nodes node hnode)).2.1

theorem PlainlyValid.reordered (h : PlainlyValid host dag)
    (hperm : nodes.Perm dag.nodes) : PlainlyValid host (dag.reordered nodes) := by
  have hnames := sameNames_of_perm h.ids_nodup hperm
  have hids : (dag.reordered nodes).ids.Perm dag.ids := hperm.map Node.id
  have hnodes : ∀ node ∈ (dag.reordered nodes).nodes,
      nodeErrors host (dag.reordered nodes) [] node = [] := fun node hnode =>
    (hnames.nodeErrors [] node).trans (h.nodes node (hperm.mem_iff.mp hnode))
  refine ⟨h.policy, h.named, hids.nodup_iff.mpr h.ids_nodup, hnodes,
    fun loop hloop htype => ?_, ?_⟩
  · exact (hnames.bodyErrors loop).trans (h.bodies loop (hperm.mem_iff.mp hloop) htype)
  · have hresolvable : Resolvable (dag.reordered nodes) :=
      ⟨hids.nodup_iff.mpr h.ids_nodup,
        fun node hnode => (nodeErrors_eq_nil (hnodes node hnode)).2.1⟩
    have hcyclic : (dag.reordered nodes).Cyclic ↔ dag.Cyclic := by
      have hdeps : (dag.reordered nodes).dependencies = dag.dependencies := by
        funext id
        rw [Dag.dependencies, Dag.dependencies, hnames.byId]
      unfold Dag.Cyclic Dag.Precedes
      rw [hdeps]
    have hacyclic : ¬ dag.Cyclic := by
      rw [← detectCycleIn_iff h.resolvable (List.Perm.refl _), ← detectCycle_eq, h.acyclic]
      exact Bool.false_ne_true
    rw [detectCycle_eq, Bool.eq_false_iff]
    exact fun hcycle =>
      hacyclic (hcyclic.mp ((detectCycleIn_iff hresolvable (List.Perm.refl _)).mp hcycle))

theorem plainlyValid_reordered_iff (hperm : nodes.Perm dag.nodes) :
    PlainlyValid host (dag.reordered nodes) ↔ PlainlyValid host dag :=
  ⟨fun h => h.reordered hperm.symm, fun h => h.reordered hperm⟩

theorem validateDag_iff_of_guarded (hguarded : WritesGuarded dag) :
    validateDag host dag = [] ↔ PlainlyValid host dag := by
  rw [validateDag_eq_nil_iff]
  refine ⟨And.left, fun h => ⟨h, fun before node after heq _ hmem => ?_⟩⟩
  obtain ⟨loop, hloop, hbody⟩ := List.mem_flatMap.mp hmem
  have hnodes : ∀ other ∈ before, other ∈ dag.nodes := by
    intro other hother
    rw [heq]
    exact List.mem_append_left _ hother
  have hnode : node ∈ dag.nodes := by
    rw [heq]
    exact List.mem_append_right _ List.mem_cons_self
  by_cases htype : loop.type = "loop"
  · rw [if_pos htype] at hbody
    exact unguarded_eq_false_iff.mpr (hguarded loop (hnodes loop hloop) htype node hnode
      (List.mem_filter.mp hbody).1)
  · rw [if_neg htype] at hbody
    cases hbody

def loopsLast (dag : Dag) : List Node :=
  dag.nodes.filter (fun node => node.type != "loop") ++
    dag.nodes.filter (fun node => !(node.type != "loop"))

theorem loopsLast_perm (dag : Dag) : (loopsLast dag).Perm dag.nodes :=
  List.filter_append_perm _ _

theorem validateDag_loopsLast (h : PlainlyValid host dag) :
    validateDag host (dag.reordered (loopsLast dag)) = [] := by
  have hordered : (loopsLast dag).Pairwise fun x y =>
      y.type ≠ "loop" → x.type ≠ "loop" := by
    have hplain : ∀ node ∈ dag.nodes.filter (fun node => node.type != "loop"),
        node.type ≠ "loop" := fun node hnode => by simpa using (List.mem_filter.mp hnode).2
    have hloop : ∀ node ∈ dag.nodes.filter (fun node => !(node.type != "loop")),
        node.type = "loop" := fun node hnode => by simpa using (List.mem_filter.mp hnode).2
    refine List.pairwise_append.mpr ⟨?_, ?_, fun x hx _ _ _ => hplain x hx⟩
    · exact List.pairwise_of_forall_mem_list fun x hx _ _ _ => hplain x hx
    · exact List.pairwise_of_forall_mem_list fun _ _ y hy hne => absurd (hloop y hy) hne
  refine validateDag_eq_nil_iff.mpr
    ⟨h.reordered (loopsLast_perm dag), fun before node after heq htype hmem => ?_⟩
  rw [show (dag.reordered (loopsLast dag)).nodes = loopsLast dag from rfl] at heq
  rw [heq] at hordered
  obtain ⟨loop, hloop, hbody⟩ := List.mem_flatMap.mp hmem
  have hplain := (List.pairwise_append.mp hordered).2.2 loop hloop node List.mem_cons_self
    htype
  rw [if_neg hplain] at hbody
  cases hbody

/-- The verdict does not depend on the order of the nodes if and only if the graph fails
another check or all its writes in loop bodies are guarded. -/
theorem validateDag_order_independent_iff (host : Host) (dag : Dag) :
    OrderIndependent host dag ↔
      validateDag host dag.allowing ≠ [] ∨ WritesGuarded dag := by
  constructor
  · rintro ⟨hsame, hguarded⟩
    by_cases hplain : validateDag host dag.allowing = []
    · have hlast := validateDag_loopsLast (validateDag_allowing_iff.mp hplain)
      exact Or.inr (hguarded ((hsame _ (loopsLast_perm dag)).mp hlast))
    · exact Or.inl hplain
  · intro hcondition
    have hsame (nodes : List Node) (hperm : nodes.Perm dag.nodes) :
        validateDag host (dag.reordered nodes) = [] ↔ validateDag host dag = [] := by
      rcases hcondition with hother | hguarded
      · rw [Ne, validateDag_allowing_iff] at hother
        refine iff_of_false (fun h => hother ?_) fun h => hother ?_
        · exact (plainlyValid_reordered_iff hperm).mp (validateDag_eq_nil_iff.mp h).1
        · exact (validateDag_eq_nil_iff.mp h).1
      · have hguarded' : WritesGuarded (dag.reordered nodes) :=
          fun loop hloop htype node hnode =>
            hguarded loop (hperm.mem_iff.mp hloop) htype node (hperm.mem_iff.mp hnode)
        rw [validateDag_iff_of_guarded hguarded', validateDag_iff_of_guarded hguarded,
          plainlyValid_reordered_iff hperm]
    refine ⟨hsame, fun hvalid => ?_⟩
    rcases hcondition with hother | hguarded
    · exact absurd (validateDag_allowing_iff.mpr (validateDag_eq_nil_iff.mp hvalid).1) hother
    · exact hguarded

end

def writeFirstDag : Dag where
  graphId := "g"
  nodes :=
    [{ id := "write"
       type := "tool"
       assignedEntity := "system"
       dependsOn := ["loop"]
       policy := { effectClass := "write" } },
     { id := "loop"
       type := "loop"
       assignedEntity := "system"
       inputs := [("condition", .bool true), ("body", .list [.str "write"])]
       policy := { maxIterations := some 2 } }]

/-- The unguarded write is let through. -/
theorem validateDag_order_dependent :
    ¬ ∀ (host : Host) (dag : Dag), OrderIndependent host dag := by
  intro hclaim
  obtain ⟨-, hguarded⟩ := hclaim referenceHost writeFirstDag
  have hvalid : validateDag referenceHost writeFirstDag = [] := by decide +kernel
  have hwrite := hguarded hvalid _ (List.mem_cons_of_mem _ List.mem_cons_self) rfl _
    List.mem_cons_self (List.mem_singleton.mpr rfl) rfl
  exact absurd hwrite (by decide)

end Hydrogenuine.TaskGraph
