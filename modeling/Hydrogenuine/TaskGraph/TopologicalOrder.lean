import Hydrogenuine.Support.Layering
import Hydrogenuine.TaskGraph.Completion

/-!
# Cycles and the topological order

Embedding of `topological_order`, and of `_detect_cycle` for every order in which
the set of ids may be walked.  The queue of the source holds, whenever a batch
is taken from it, exactly the nodes that are ready, so that the order is built
layer by layer; the counts of open dependencies are what keeps it so.
-/

namespace Hydrogenuine.TaskGraph

open Support Hydrogenuine.Core Relation

/-- `_detect_cycle`, with the ids in the order in which the set is walked. -/
def detectCycleIn (dag : Dag) (order : List String) : Bool :=
  let visit (acc : Bool × Colors) (nid : String) : Bool × Colors :=
    if acc.1 || (lookupEntry nid acc.2).isSome then acc
    else dfs dag dag.nodes.length nid acc.2
  (order.foldl visit (false, [])).1

theorem detectCycle_eq (dag : Dag) :
    detectCycle dag = detectCycleIn dag dag.ids := rfl

/-! ## The algorithm -/

/-- The locals of `topological_order`. -/
structure Kahn where
  inDegree : Dict String ℤ
  queue : List String
  order : List String := []

/-- One dependency less: a node without further ones is queued. -/
def countDown (k : Kahn) (j : String) : Kahn :=
  let degree := (k.inDegree.get? j).getD 0 - 1
  { k with
    inDegree := k.inDegree.set j degree
    queue := if degree = 0 then k.queue ++ [j] else k.queue }

/-- Append a node to the order and count down its successors. -/
def emit (dag : Dag) (k : Kahn) (nid : String) : Kahn :=
  (successors dag nid).foldl countDown { k with order := k.order ++ [nid] }

/-- Batches, each the sorted queue, until the queue is empty. -/
def drain (dag : Dag) : ℕ → Kahn → Kahn
  | 0, k => k
  | fuel + 1, k =>
      if k.queue.isEmpty then k
      else
        drain dag fuel ((k.queue.insertionSort (· ≤ ·)).foldl (emit dag)
          { k with queue := [] })

def kahnStart (dag : Dag) : Kahn :=
  let inDegree := Dict.ofList (dag.nodes.map fun node =>
    (node.id, (node.dependsOn.length : ℤ)))
  { inDegree
    queue := (inDegree.entries.filter fun entry => entry.2 == 0).map Prod.fst }

/-- `topological_order`.  Every batch takes a node, so that the number of nodes
bounds the number of batches. -/
def topologicalOrder (dag : Dag) : List String :=
  (drain dag (dag.nodes.length + 1) (kahnStart dag)).order

/-! ## Graphs with unique ids and known dependencies -/

/-- Unique ids and resolvable dependencies. -/
structure Resolvable (dag : Dag) : Prop where
  ids_nodup : dag.ids.Nodup
  known : ∀ node ∈ dag.nodes, ∀ dep ∈ node.dependsOn, dep ∈ dag.ids

/-- `dep` is a dependency of the node `id`. -/
def Dag.Precedes (dag : Dag) (dep id : String) : Prop :=
  dep ∈ dag.dependencies id

/-- The dependencies of some node lead back to it. -/
def Dag.Cyclic (dag : Dag) : Prop :=
  ∃ id, TransGen dag.Precedes id id

section Graph

variable {dag : Dag}

theorem Dag.dependencies_id
    (hnodup : dag.ids.Nodup) {node : Node} (hnode : node ∈ dag.nodes) :
    dag.dependencies node.id = node.dependsOn := by
  rw [Dag.dependencies, (Dag.byId_eq_some hnodup).mpr hnode]
  rfl

theorem Resolvable.dependencies_known
    (h : Resolvable dag) (id : String) :
    ∀ dep ∈ dag.dependencies id, dep ∈ dag.ids := by
  intro dep hdep
  unfold Dag.dependencies at hdep
  cases hnode : dag.byId id with
  | none =>
      rw [hnode] at hdep
      cases hdep
  | some node =>
      rw [hnode] at hdep
      exact h.known node (Dag.mem_of_byId hnode) dep hdep

theorem Resolvable.precedes_eq (h : Resolvable dag) :
    DepthFirst.Precedes dag.dependencies dag.ids = dag.Precedes := by
  funext dep id
  exact propext ⟨fun hdep => hdep.1, fun hdep =>
    ⟨hdep, h.dependencies_known id dep hdep⟩⟩

theorem detectCycleIn_eq (dag : Dag) (order : List String) :
    detectCycleIn dag order =
      (order.foldl (DepthFirst.enter dag.dependencies dag.ids)
        (false, [])).1 := by
  have hlength : dag.ids.length = dag.nodes.length := List.length_map _
  unfold detectCycleIn DepthFirst.enter
  rw [dfs_eq_search, hlength]

variable {order : List String} {k : Kahn} {nid : String}

theorem detectCycleIn_iff
    (h : Resolvable dag) (horder : order.Perm dag.ids) :
    detectCycleIn dag order = true ↔ dag.Cyclic := by
  rw [detectCycleIn_eq,
    DepthFirst.entered_iff_cyclic fun id => horder.mem_iff,
    DepthFirst.Cyclic, h.precedes_eq]
  rfl

theorem Resolvable.acc
    (h : Resolvable dag) (hacyclic : ¬ dag.Cyclic) :
    ∀ id ∈ dag.ids, Acc (DepthFirst.Precedes dag.dependencies dag.ids) id := by
  have hnone : detectCycle dag = false := by
    rw [detectCycle_eq, Bool.eq_false_iff]
    exact fun hcycle =>
      hacyclic ((detectCycleIn_iff h (List.Perm.refl _)).mp hcycle)
  rw [detectCycle_eq_searchAll] at hnone
  exact DepthFirst.acc_of_searchAll hnone

theorem byId_eq_of_perm
    {dag' : Dag} (hnodup : dag.ids.Nodup) (h : dag'.nodes.Perm dag.nodes)
    (id : String) : dag'.byId id = dag.byId id := by
  have hnodup' : dag'.ids.Nodup := (h.map Node.id).nodup_iff.mpr hnodup
  apply Option.ext
  intro node
  constructor
  · intro hnode
    obtain rfl := Dag.byId_id hnode
    exact (Dag.byId_eq_some hnodup).mpr (h.mem_iff.mp (Dag.mem_of_byId hnode))
  · intro hnode
    obtain rfl := Dag.byId_id hnode
    exact (Dag.byId_eq_some hnodup').mpr (h.mem_iff.mpr (Dag.mem_of_byId hnode))

theorem count_successors_eq_zero
    {nodes : List Node} {nid id : String} (hid : id ∉ nodes.map Node.id) :
    (nodes.flatMap fun node =>
      (node.dependsOn.filter (· == nid)).map fun _ => node.id).count id = 0 := by
  rw [List.count_eq_zero]
  intro hmem
  obtain ⟨node, hnode, hmem⟩ := List.mem_flatMap.mp hmem
  obtain ⟨_, -, rfl⟩ := List.mem_map.mp hmem
  exact hid (List.mem_map_of_mem hnode)

theorem count_successors
    (hnodup : dag.ids.Nodup) {node : Node} (hnode : node ∈ dag.nodes)
    (nid : String) :
    (successors dag nid).count node.id = node.dependsOn.count nid := by
  unfold successors
  have hids : (dag.nodes.map Node.id).Nodup := hnodup
  generalize dag.nodes = nodes at hids hnode
  induction nodes with
  | nil => cases hnode
  | cons first rest ih =>
      rw [List.map_cons, List.nodup_cons] at hids
      rw [List.flatMap_cons, List.count_append]
      rcases List.mem_cons.mp hnode with rfl | hrest
      · rw [count_successors_eq_zero hids.1, Nat.add_zero, List.map_const',
          List.count_replicate_self, List.count, List.countP_eq_length_filter]
      · have hne : first.id ≠ node.id := by
          intro heq
          exact hids.1 (heq ▸ List.mem_map_of_mem hrest)
        rw [ih hids.2 hrest, List.map_const', List.count_replicate,
          if_neg (by simpa using hne), Nat.zero_add]

theorem mem_ids_of_mem_successors {nid j : String}
    (h : j ∈ successors dag nid) : j ∈ dag.ids := by
  obtain ⟨node, hnode, hj⟩ := List.mem_flatMap.mp h
  obtain ⟨_, -, rfl⟩ := List.mem_map.mp hj
  exact List.mem_map_of_mem hnode

/-! ## The counts and the queue -/

/-- The number of dependencies of a node that are not in the order yet, each
counted as often as it is listed. -/
def openDeps (dag : Dag) (order : List String) (id : String) : ℕ :=
  (dag.dependencies id).countP fun dep => !order.contains dep

/-- The locals while a batch is worked on: `waiting` are the nodes of the batch
that are still to be appended, `pending` the successors of the last one that are
still to be counted down. -/
structure Counting
    (dag : Dag) (waiting pending : List String) (k : Kahn) : Prop where
  degree : ∀ id ∈ dag.ids, k.inDegree.get? id =
    some ((openDeps dag k.order id + pending.count id : ℕ) : ℤ)
  queue : ∀ id, id ∈ k.queue ↔ id ∈ dag.ids ∧ id ∉ k.order ∧ id ∉ waiting ∧
    openDeps dag k.order id + pending.count id = 0
  nodup : k.queue.Nodup
  counted : ∀ id, id ∈ k.order ∨ id ∈ waiting →
    openDeps dag k.order id + pending.count id = 0

theorem openDeps_eq_zero_iff {id : String} :
    openDeps dag order id = 0 ↔ ∀ dep ∈ dag.dependencies id, dep ∈ order := by
  simp [openDeps, List.countP_eq_zero]

theorem countP_concat (hnid : nid ∉ order)
    (deps : List String) :
    (deps.countP fun dep => !(order ++ [nid]).contains dep) + deps.count nid =
      deps.countP fun dep => !order.contains dep := by
  induction deps with
  | nil => rfl
  | cons dep deps ih =>
      rw [List.countP_cons, List.countP_cons, List.count_cons]
      by_cases heq : dep = nid
      · subst heq
        have hnew : (!(order ++ [dep]).contains dep) = false := by simp
        have hold : (!order.contains dep) = true := by simp [hnid]
        rw [hnew, hold]
        simp only [beq_self_eq_true, if_true, Bool.false_eq_true, if_false]
        omega
      · have hsame : (!(order ++ [nid]).contains dep) = !order.contains dep := by
          simp [heq]
        have hbeq : (dep == nid) = false := by simpa using heq
        rw [hsame, hbeq]
        simp only [Bool.false_eq_true, if_false]
        omega

/-- Appending a node to the order closes as many dependencies of another one as
the node stands among its dependencies. -/
theorem openDeps_concat
    (hnodup : dag.ids.Nodup)
    (hnid : nid ∉ order) (id : String) :
    openDeps dag (order ++ [nid]) id + (successors dag nid).count id =
      openDeps dag order id := by
  by_cases hid : id ∈ dag.ids
  · obtain ⟨node, hnode, rfl⟩ := List.mem_map.mp hid
    rw [count_successors hnodup hnode, openDeps, openDeps,
      Dag.dependencies_id hnodup hnode]
    exact countP_concat hnid node.dependsOn
  · have hnone : dag.byId id = none := by
      rw [Option.eq_none_iff_forall_ne_some]
      exact fun node hnode => hid (Dag.mem_ids_of_byId hnode)
    rw [openDeps, openDeps, Dag.dependencies, hnone, successors,
      count_successors_eq_zero hid]
    rfl

theorem Counting.countDown
    {waiting js : List String} {j : String}
    (h : Counting dag waiting (j :: js) k) (hj : j ∈ dag.ids) :
    Counting dag waiting js (countDown k j) := by
  have hdegree := h.degree j hj
  rw [List.count_cons_self] at hdegree
  have hleft : (k.inDegree.get? j).getD 0 - 1 =
      ((openDeps dag k.order j + js.count j : ℕ) : ℤ) := by
    rw [hdegree, Option.getD_some]
    omega
  have hnew : j ∉ k.order ∧ j ∉ waiting := by
    refine ⟨fun hmem => ?_, fun hmem => ?_⟩
    · have hzero := h.counted j (Or.inl hmem)
      rw [List.count_cons_self] at hzero
      omega
    · have hzero := h.counted j (Or.inr hmem)
      rw [List.count_cons_self] at hzero
      omega
  have hnotQueued : j ∉ k.queue := by
    intro hmem
    have hzero := ((h.queue j).mp hmem).2.2.2
    rw [List.count_cons_self] at hzero
    omega
  have hother : ∀ id, id ≠ j → (j :: js).count id = js.count id :=
    fun id hne => List.count_cons_of_ne (Ne.symm hne)
  have hordinary : (TaskGraph.countDown k j).order = k.order := rfl
  refine ⟨?_, ?_, ?_, ?_⟩
  · intro id hid
    rw [hordinary]
    show (k.inDegree.set j _).get? id = _
    rw [Dict.get?_set, hleft]
    split
    · next heq => rw [heq]
    · next hne => rw [h.degree id hid, hother id hne]
  · intro id
    rw [hordinary]
    show id ∈ (if _ then k.queue ++ [j] else k.queue) ↔ _
    rw [hleft]
    by_cases heq : id = j
    · subst heq
      by_cases hzero : openDeps dag k.order id + js.count id = 0
      · rw [if_pos (by exact_mod_cast hzero)]
        simp [hj, hnew, hzero]
      · rw [if_neg (by exact_mod_cast hzero)]
        exact ⟨fun hmem => absurd hmem hnotQueued,
          fun hready => absurd hready.2.2.2 hzero⟩
    · have hmem : id ∈ (if ((openDeps dag k.order j + js.count j : ℕ) : ℤ) = 0 then
            k.queue ++ [j] else k.queue) ↔ id ∈ k.queue := by
        split
        · simp [heq]
        · rfl
      rw [hmem, h.queue id, hother id heq]
  · show (if _ then k.queue ++ [j] else k.queue).Nodup
    split
    · refine List.nodup_append.mpr ⟨h.nodup, List.nodup_singleton j, ?_⟩
      rintro x hx _ hy rfl
      rw [List.mem_singleton] at hy
      exact hnotQueued (hy ▸ hx)
    · exact h.nodup
  · intro id hid
    rw [hordinary] at hid ⊢
    have hzero := h.counted id hid
    by_cases heq : id = j
    · subst heq
      rcases hid with hid | hid
      · exact absurd hid hnew.1
      · exact absurd hid hnew.2
    · rw [hother id heq] at hzero
      exact hzero

theorem Counting.countDowns
    {waiting : List String} (js : List String)
    (h : Counting dag waiting js k) (hjs : ∀ j ∈ js, j ∈ dag.ids) :
    Counting dag waiting [] (js.foldl TaskGraph.countDown k) ∧
      (js.foldl TaskGraph.countDown k).order = k.order := by
  induction js generalizing k with
  | nil => exact ⟨h, rfl⟩
  | cons j js ih =>
      exact ih (h.countDown (hjs j List.mem_cons_self))
        fun j' hj' => hjs j' (List.mem_cons_of_mem _ hj')

theorem Counting.emit
    (hnodup : dag.ids.Nodup) {waiting : List String}
    (h : Counting dag (nid :: waiting) [] k) (hnid : nid ∉ k.order) :
    Counting dag waiting [] (emit dag k nid) ∧
      (emit dag k nid).order = k.order ++ [nid] := by
  have hcount := openDeps_concat hnodup hnid
  have hstart : Counting dag waiting (successors dag nid)
      { k with order := k.order ++ [nid] } := by
    refine ⟨?_, ?_, h.nodup, ?_⟩
    · intro id hid
      rw [hcount id]
      exact h.degree id hid
    · intro id
      rw [hcount id, h.queue id, List.count_nil, Nat.add_zero, List.mem_cons,
        List.mem_append, List.mem_singleton]
      tauto
    · intro id hid
      rw [hcount id]
      refine h.counted id ?_
      rw [List.mem_append, List.mem_singleton] at hid
      rw [List.mem_cons]
      tauto
  exact hstart.countDowns _ fun j hj => mem_ids_of_mem_successors hj

theorem Counting.emits
    (hnodup : dag.ids.Nodup) (batch : List String)
    (h : Counting dag batch [] k) (hbatch : batch.Nodup)
    (hnew : ∀ nid ∈ batch, nid ∉ k.order) :
    Counting dag [] [] (batch.foldl (TaskGraph.emit dag) k) ∧
      (batch.foldl (TaskGraph.emit dag) k).order = k.order ++ batch := by
  induction batch generalizing k with
  | nil => exact ⟨h, (List.append_nil _).symm⟩
  | cons nid batch ih =>
      obtain ⟨hnid, hrest⟩ := List.nodup_cons.mp hbatch
      obtain ⟨hemit, horder⟩ := h.emit hnodup (hnew nid List.mem_cons_self)
      have hnew' : ∀ nid' ∈ batch, nid' ∉ (TaskGraph.emit dag k nid).order := by
        intro nid' hmem hold
        rw [horder, List.mem_append, List.mem_singleton] at hold
        rcases hold with hold | rfl
        · exact hnew nid' (List.mem_cons_of_mem _ hmem) hold
        · exact hnid hmem
      obtain ⟨hcounting, hend⟩ := ih hemit hrest hnew'
      refine ⟨hcounting, hend.trans ?_⟩
      rw [horder, List.append_assoc, List.singleton_append]

theorem Counting.queue_eq_layer
    (hnodup : dag.ids.Nodup) (h : Counting dag [] [] k) :
    k.queue.insertionSort (· ≤ ·) =
      Layering.layer (· ≤ ·) dag.dependencies dag.ids k.order := by
  refine Layering.insertionSort_eq_of_perm ?_
  refine (List.perm_ext_iff_of_nodup h.nodup (hnodup.filter _)).mpr fun id => ?_
  rw [h.queue id, List.mem_filter, Layering.ready_eq_true_iff,
    List.count_nil, Nat.add_zero, openDeps_eq_zero_iff]
  simp

theorem Counting.drain
    (hnodup : dag.ids.Nodup) (fuel : ℕ)
    (h : Counting dag [] [] k) :
    (drain dag fuel k).order =
      Layering.layers (· ≤ ·) dag.dependencies dag.ids fuel k.order := by
  induction fuel generalizing k with
  | zero => rfl
  | succ fuel ih =>
      have hlayer := h.queue_eq_layer hnodup
      rw [TaskGraph.drain, Layering.layers, ← hlayer]
      have hempty : (k.queue.insertionSort (· ≤ ·)).isEmpty = k.queue.isEmpty := by
        rw [Bool.eq_iff_iff, List.isEmpty_iff_length_eq_zero,
          List.isEmpty_iff_length_eq_zero, List.length_insertionSort]
      rw [hempty]
      split
      · rfl
      · have hbatch : Counting dag (k.queue.insertionSort (· ≤ ·)) []
            { k with queue := [] } := by
          refine ⟨h.degree, ?_, List.nodup_nil, ?_⟩
          · intro id
            have hqueue := h.queue id
            rw [List.mem_insertionSort]
            simp only [List.not_mem_nil, not_false_eq_true, true_and,
              false_iff] at hqueue ⊢
            tauto
          · intro id hid
            rw [List.mem_insertionSort] at hid
            rcases hid with hid | hid
            · exact h.counted id (Or.inl hid)
            · exact ((h.queue id).mp hid).2.2.2
        have hsorted : (k.queue.insertionSort (· ≤ ·)).Nodup :=
          (List.perm_insertionSort _ _).nodup_iff.mpr h.nodup
        obtain ⟨hnext, horder⟩ := hbatch.emits hnodup _ hsorted fun nid hnid =>
          ((h.queue nid).mp ((List.mem_insertionSort _).mp hnid)).2.1
        rw [ih hnext, horder]

theorem get?_inDegree_iff
    (hnodup : dag.ids.Nodup) {id : String} {degree : ℤ} :
    (kahnStart dag).inDegree.get? id = some degree ↔
      id ∈ dag.ids ∧ (openDeps dag [] id : ℤ) = degree := by
  have hkeys : ((dag.nodes.map fun node =>
      (node.id, (node.dependsOn.length : ℤ))).map Prod.fst).Nodup := by
    rw [List.map_map]
    exact hnodup
  have hopen : ∀ node ∈ dag.nodes,
      openDeps dag [] node.id = node.dependsOn.length := by
    intro node hnode
    rw [openDeps, Dag.dependencies_id hnodup hnode]
    simp
  rw [kahnStart, Dict.get?_ofList hkeys, ← mem_iff_lookupEntry hkeys,
    List.mem_map]
  constructor
  · rintro ⟨node, hnode, hentry⟩
    obtain ⟨rfl, rfl⟩ := Prod.mk.inj hentry
    exact ⟨List.mem_map_of_mem hnode, by rw [hopen node hnode]⟩
  · rintro ⟨hid, rfl⟩
    obtain ⟨node, hnode, rfl⟩ := List.mem_map.mp hid
    exact ⟨node, hnode, by rw [hopen node hnode]⟩

theorem counting_start (hnodup : dag.ids.Nodup) :
    Counting dag [] [] (kahnStart dag) := by
  have horder : (kahnStart dag).order = [] := rfl
  refine ⟨?_, ?_, ?_, ?_⟩
  · intro id hid
    rw [horder, List.count_nil, Nat.add_zero]
    exact (get?_inDegree_iff hnodup).mpr ⟨hid, rfl⟩
  · intro id
    have hzero : id ∈ (kahnStart dag).queue ↔
        (kahnStart dag).inDegree.get? id = some 0 := by
      rw [← Dict.mem_entries_iff]
      simp [kahnStart]
    rw [hzero, get?_inDegree_iff hnodup, horder]
    simp
  · exact (kahnStart dag).inDegree.nodupKeys.sublist
      (List.filter_sublist.map Prod.fst)
  · rintro id (hid | hid) <;> cases hid

theorem topologicalOrder_eq_layers (hnodup : dag.ids.Nodup) :
    topologicalOrder dag =
      Layering.layers (· ≤ ·) dag.dependencies dag.ids (dag.ids.length + 1)
        [] := by
  have hlength : dag.ids.length = dag.nodes.length := List.length_map _
  rw [hlength]
  exact (counting_start hnodup).drain hnodup (dag.nodes.length + 1)

theorem topologicalOrder_eq_of_perm
    {dag' : Dag} (hnodup : dag.ids.Nodup) (h : dag'.nodes.Perm dag.nodes) :
    topologicalOrder dag' = topologicalOrder dag := by
  have hids : dag'.ids.Perm dag.ids := h.map Node.id
  have hdeps : dag'.dependencies = dag.dependencies := by
    funext id
    rw [Dag.dependencies, Dag.dependencies, byId_eq_of_perm hnodup h]
  rw [topologicalOrder_eq_layers hnodup,
    topologicalOrder_eq_layers (hids.nodup_iff.mpr hnodup), hdeps, hids.length_eq]
  exact Layering.layers_eq_of_perm hids _

end Graph

/-! ## Both algorithms -/

/-- On every graph with unique ids and known dependencies the search reports a
cycle exactly when there is one, and without one the topological order lists
every node once, after all of its dependencies, whatever the order of the
nodes. -/
theorem cycles_and_order
    {dag : Dag} (h : Resolvable dag) :
    (∀ order, order.Perm dag.ids →
      (detectCycleIn dag order = true ↔ dag.Cyclic)) ∧
    (¬ dag.Cyclic →
      (topologicalOrder dag).Perm dag.ids ∧
        (∀ before id after, topologicalOrder dag = before ++ id :: after →
          ∀ dep ∈ dag.dependencies id, dep ∈ before) ∧
        ∀ dag' : Dag, dag'.nodes.Perm dag.nodes →
          topologicalOrder dag' = topologicalOrder dag) := by
  refine ⟨fun order horder => detectCycleIn_iff h horder, fun hacyclic => ?_⟩
  have hlayers := topologicalOrder_eq_layers h.ids_nodup
  refine ⟨?_, ?_, ?_⟩
  · rw [hlayers]
    exact Layering.layers_perm h.ids_nodup
      (fun id _ => h.dependencies_known id) (h.acc hacyclic) (Nat.lt_succ_self _)
  · rw [hlayers]
    exact (Layering.layered_nil.layers h.ids_nodup _).topological
  · exact fun dag' hperm => topologicalOrder_eq_of_perm h.ids_nodup hperm

def diamondDag : Dag where
  graphId := "g"
  nodes := [("c", ["a", "b"]), ("b", ["a", "a"]), ("d", []), ("a", [])].map
    fun (id, deps) =>
      { id, type := "tool", assignedEntity := "system", dependsOn := deps }

example : topologicalOrder diamondDag = ["a", "d", "b", "c"] := by
  decide +kernel

theorem diamondDag_resolvable : Resolvable diamondDag :=
  ⟨by decide +kernel, by decide +kernel⟩

theorem diamondDag_order :
    ¬ diamondDag.Cyclic ∧
      (topologicalOrder diamondDag).Perm diamondDag.ids := by
  obtain ⟨hdetect, horder⟩ := cycles_and_order diamondDag_resolvable
  have hacyclic : ¬ diamondDag.Cyclic := by
    rw [← hdetect diamondDag.ids (List.Perm.refl _)]
    decide +kernel
  exact ⟨hacyclic, (horder hacyclic).1⟩

end Hydrogenuine.TaskGraph
