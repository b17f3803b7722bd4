import Mathlib.Algebra.Order.BigOperators.Group.List
import Mathlib.Algebra.Order.Ring.Nat
import Mathlib.Data.Prod.Lex
import Hydrogenuine.TaskGraph.Steps

/-!
# The main loop ends

A run has a credit: the iterations that its loops may still start, and the
attempts that its waiting nodes may still make, compared lexicographically.
Starting a node of the batch, skipping a node and advancing a loop each lower
the credit, and nothing raises it.
-/

namespace Hydrogenuine.TaskGraph

open Support Hydrogenuine.Core Relation

/-! ## Credits -/

instance : DecidablePred Waits := fun status =>
  inferInstanceAs (Decidable (status = none ∨ status = some .pending ∨
    status = some .ready))

def loopCredit (k : RunCore) (node : Node) : ℕ :=
  if node.type = "loop" then
    (if Waits (k.status node.id) then
      2 + (node.policy.maxIterations.getD 1).toNat
    else 0) +
    if (k.loop node.id).active then
      1 + ((k.loop node.id).maxIterations - (k.loop node.id).iteration).toNat
    else 0
  else 0

def nodeCredit (k : RunCore) (node : Node) : ℕ :=
  if Waits (k.status node.id) then
    1 + (node.policy.maxRetries + 1 - k.attempts node.id).toNat
  else 0

def credit (dag : Dag) (k : RunCore) : ℕ ×ₗ ℕ :=
  toLex ((dag.nodes.map (loopCredit k)).sum, (dag.nodes.map (nodeCredit k)).sum)

section Credits

variable {dag : Dag} {k k' : RunCore}

theorem credit_le
    (hloops : ∀ node ∈ dag.nodes, loopCredit k' node ≤ loopCredit k node)
    (hnodes : ∀ node ∈ dag.nodes, nodeCredit k' node ≤ nodeCredit k node) :
    credit dag k' ≤ credit dag k :=
  Prod.Lex.toLex_le_toLex'.mpr
    ⟨List.sum_le_sum hloops, fun _ => List.sum_le_sum hnodes⟩

theorem credit_lt_of_loop
    (hloops : ∀ node ∈ dag.nodes, loopCredit k' node ≤ loopCredit k node)
    (hsome : ∃ node ∈ dag.nodes, loopCredit k' node < loopCredit k node) :
    credit dag k' < credit dag k :=
  Prod.Lex.toLex_lt_toLex.mpr (Or.inl (List.sum_lt_sum _ _ hloops hsome))

theorem credit_lt_of_node
    (hloops : ∀ node ∈ dag.nodes, loopCredit k' node ≤ loopCredit k node)
    (hnodes : ∀ node ∈ dag.nodes, nodeCredit k' node ≤ nodeCredit k node)
    (hsome : ∃ node ∈ dag.nodes, nodeCredit k' node < nodeCredit k node) :
    credit dag k' < credit dag k :=
  Prod.Lex.toLex_lt_toLex.mpr <| by
    rcases (List.sum_le_sum hloops).lt_or_eq with hlt | heq
    · exact Or.inl hlt
    · exact Or.inr ⟨heq, List.sum_lt_sum _ _ hnodes hsome⟩

end Credits

/-! ## Skips -/

theorem not_waits_skipped : ¬Waits (some .skipped) := by decide

section SkipCredit

variable {dag : Dag} {P : Option NodeStatus → Prop} {k : RunCore}
  {status : String → Option NodeStatus}

theorem Skips.waits
    (h : Skips dag P k.status status) {id : String} (hwaits : Waits (status id)) :
    Waits (k.status id) := by
  rcases h id with heq | ⟨-, -, hskipped⟩
  · exact heq ▸ hwaits
  · rw [hskipped] at hwaits
    exact absurd hwaits not_waits_skipped

theorem loopCredit_le {k' : RunCore} {node : Node}
    (hwaits : Waits (k'.status node.id) → Waits (k.status node.id))
    (hloop : k'.loop node.id = k.loop node.id) :
    loopCredit k' node ≤ loopCredit k node := by
  unfold loopCredit
  rw [hloop]
  by_cases h' : Waits (k'.status node.id)
  · rw [if_pos h', if_pos (hwaits h')]
  · rw [if_neg h']
    split
    · omega
    · exact le_rfl

theorem nodeCredit_le {k' : RunCore} {node : Node}
    (hwaits : Waits (k'.status node.id) → Waits (k.status node.id))
    (hattempts : k'.attempts node.id = k.attempts node.id) :
    nodeCredit k' node ≤ nodeCredit k node := by
  unfold nodeCredit
  rw [hattempts]
  by_cases h' : Waits (k'.status node.id)
  · rw [if_pos h', if_pos (hwaits h')]
  · rw [if_neg h']
    exact Nat.zero_le _

theorem skips_credit_le (h : Skips dag P k.status status) :
    credit dag { k with status := status } ≤ credit dag k :=
  credit_le (fun _ _ => loopCredit_le h.waits rfl)
    fun _ _ => nodeCredit_le h.waits rfl

theorem skips_credit_lt
    (h : Skips dag P k.status status)
    (hsome : ∃ id ∈ dag.ids, Waits (k.status id) ∧
      status id = some .skipped) :
    credit dag { k with status := status } < credit dag k := by
  refine credit_lt_of_node (fun _ _ => loopCredit_le h.waits rfl)
    (fun _ _ => nodeCredit_le h.waits rfl) ?_
  obtain ⟨id, hid, hwaits, hskipped⟩ := hsome
  obtain ⟨node, hnode, rfl⟩ := List.mem_map.mp hid
  refine ⟨node, hnode, ?_⟩
  have hnot : ¬Waits (status node.id) := by
    rw [hskipped]
    exact not_waits_skipped
  unfold nodeCredit
  dsimp only
  rw [if_neg hnot, if_pos hwaits]
  omega

end SkipCredit

/-! ## Nodes of a graph -/

section Accepted

variable {dag : Dag} (hdag : Accepted dag)
include hdag

theorem Accepted.id_inj {node node' : Node}
    (hnode : node ∈ dag.nodes) (hnode' : node' ∈ dag.nodes)
    (hid : node.id = node'.id) : node = node' := by
  have h := (Dag.byId_eq_some hdag.ids_nodup).mpr hnode
  have h' := (Dag.byId_eq_some hdag.ids_nodup).mpr hnode'
  rw [hid, h'] at h
  exact (Option.some.inj h).symm

theorem Accepted.loop_not_mem_body {node loopNode : Node}
    (hnode : node ∈ dag.nodes) (htype : node.type = "loop")
    (hloop : loopNode ∈ dag.nodes) (htype' : loopNode.type = "loop") :
    node.id ∉ loopNode.body := by
  intro hmem
  obtain ⟨bodyNode, hbody, hplain⟩ :=
    hdag.not_nested loopNode hloop htype' node.id hmem
  rw [(Dag.byId_eq_some hdag.ids_nodup).mpr hnode] at hbody
  obtain rfl := Option.some.inj hbody
  exact hplain htype

theorem Accepted.resetBody_status {k : RunCore} {node loopNode : Node}
    (hnode : node ∈ dag.nodes) (htype : node.type = "loop")
    (hloop : loopNode ∈ dag.nodes) (htype' : loopNode.type = "loop") :
    (k.resetBody dag loopNode.body).status node.id = k.status node.id := by
  have hnot := hdag.loop_not_mem_body hnode htype hloop htype'
  unfold RunCore.resetBody
  dsimp only
  rw [if_neg]
  intro h
  rw [Bool.and_eq_true] at h
  exact hnot (List.contains_iff_mem.mp h.1)

end Accepted

/-! ## Starting a node -/

theorem loopCredit_off_le {k : RunCore} {id : String} {loop : LoopRun}
    (hactive : loop.active = false) (node : Node) :
    loopCredit (k.setLoop id loop) node ≤ loopCredit k node := by
  have hloop := k.loop_setLoop id loop node.id
  by_cases hid : node.id = id
  · rw [if_pos hid] at hloop
    unfold loopCredit
    rw [hloop, hactive]
    have hstatus : (k.setLoop id loop).status = k.status := rfl
    rw [hstatus]
    split
    · simp
    · exact le_rfl
  · rw [if_neg hid] at hloop
    exact loopCredit_le (fun h => h) hloop

/-- What holds after a node that is no loop has been started: it has used an
attempt, and it waits again only if another is left. -/
structure WorkSpent (dag : Dag) (node : Node) (k k' : RunCore) : Prop where
  loops : ∀ node' ∈ dag.nodes, loopCredit k' node' ≤ loopCredit k node'
  others : ∀ node' ∈ dag.nodes, node' ≠ node →
    nodeCredit k' node' ≤ nodeCredit k node'
  attempts : k'.attempts node.id = k.attempts node.id + 1
  again : Waits (k'.status node.id) →
    k.attempts node.id + 1 ≤ node.policy.maxRetries

section Work

variable {dag : Dag} (hdag : Accepted dag) {node : Node}
  (hnode : node ∈ dag.nodes) (htype : node.type ≠ "loop")
include hdag hnode htype

theorem WorkSpent.settle {k k' : RunCore} {status : NodeStatus}
    (h : WorkSpent dag node k k')
    (hagain : Waits (some status) →
      k.attempts node.id + 1 ≤ node.policy.maxRetries) :
    WorkSpent dag node k (k'.settle node.id status) := by
  have hother : ∀ node' ∈ dag.nodes, node' ≠ node →
      (k'.settle node.id status).status node'.id = k'.status node'.id := by
    intro node' hnode' hne
    unfold RunCore.settle
    dsimp only
    rw [if_neg]
    exact fun hid => hne (hdag.id_inj hnode' hnode hid)
  constructor
  · intro node' hnode'
    by_cases hne : node' = node
    · subst hne
      unfold loopCredit
      rw [if_neg htype]
      exact Nat.zero_le _
    · have hle : loopCredit (k'.settle node.id status) node' ≤
          loopCredit k' node' := by
        refine loopCredit_le ?_ rfl
        rw [hother node' hnode' hne]
        exact fun h => h
      exact le_trans hle (h.loops node' hnode')
  · intro node' hnode' hne
    have hle : nodeCredit (k'.settle node.id status) node' ≤
        nodeCredit k' node' := by
      refine nodeCredit_le ?_ rfl
      rw [hother node' hnode' hne]
      exact fun h => h
    exact le_trans hle (h.others node' hnode' hne)
  · exact h.attempts
  · intro hwaits
    have hself : (k'.settle node.id status).status node.id = some status :=
      if_pos rfl
    rw [hself] at hwaits
    exact hagain hwaits

theorem WorkSpent.step {k k₁ k₂ : RunCore} {ungated mayFail : Prop} {value : Bool → Prop}
    (h : WorkSpent dag node k k₁)
    (hmove : Move dag node ungated mayFail value k₁ k₂) :
    WorkSpent dag node k k₂ := by
  cases hmove with
  | skip _ hskips =>
      constructor
      · exact fun node' hnode' =>
          le_trans (loopCredit_le hskips.waits rfl) (h.loops node' hnode')
      · exact fun node' hnode' hne =>
          le_trans (nodeCredit_le hskips.waits rfl) (h.others node' hnode' hne)
      · exact h.attempts
      · exact fun hwaits => h.again (hskips.waits hwaits)
  | block => exact h.settle hdag hnode htype fun hw => absurd hw (by decide)
  | fail => exact h.settle hdag hnode htype fun hw => absurd hw (by decide)
  | complete => exact h.settle hdag hnode htype fun hw => absurd hw (by decide)
  | retry _ hattempts =>
      refine h.settle hdag hnode htype fun _ => ?_
      rw [← h.attempts]
      exact hattempts
  | check => exact ⟨h.loops, h.others, h.attempts, h.again⟩
  | dispatch => exact ⟨h.loops, h.others, h.attempts, h.again⟩
  | loopOff htype' => exact absurd htype' htype
  | loopOn htype' => exact absurd htype' htype
  | loopStop =>
      refine ⟨?_, h.others, h.attempts, h.again⟩
      exact fun node' hnode' =>
        le_trans (loopCredit_off_le rfl node') (h.loops node' hnode')

theorem workSpent_start {k : RunCore} :
    WorkSpent dag node k (k.start node.id) := by
  have hother : ∀ node' ∈ dag.nodes, node' ≠ node → node'.id ≠ node.id :=
    fun node' hnode' hne hid => hne (hdag.id_inj hnode' hnode hid)
  constructor
  · intro node' hnode'
    by_cases hne : node' = node
    · subst hne
      unfold loopCredit
      rw [if_neg htype]
      exact Nat.zero_le _
    · refine loopCredit_le ?_ rfl
      unfold RunCore.start
      dsimp only
      rw [if_neg (hother node' hnode' hne)]
      exact fun h => h
  · intro node' hnode' hne
    refine nodeCredit_le ?_ (if_neg (hother node' hnode' hne))
    unfold RunCore.start
    dsimp only
    rw [if_neg (hother node' hnode' hne)]
    exact fun h => h
  · exact if_pos rfl
  · intro hwaits
    have hself : (k.start node.id).status node.id = some .running := if_pos rfl
    rw [hself] at hwaits
    exact absurd hwaits (by decide)

end Work

theorem workSpent_lt {dag : Dag} {node : Node} {k k' : RunCore}
    (hnode : node ∈ dag.nodes) (hwaits : Waits (k.status node.id))
    (h : WorkSpent dag node k k') : credit dag k' < credit dag k := by
  have hlt : nodeCredit k' node < nodeCredit k node := by
    unfold nodeCredit
    rw [if_pos hwaits]
    by_cases hagain : Waits (k'.status node.id)
    · have hleft := h.again hagain
      rw [if_pos hagain, h.attempts]
      omega
    · rw [if_neg hagain]
      omega
  refine credit_lt_of_node h.loops ?_ ⟨node, hnode, hlt⟩
  intro node' hnode'
  by_cases hne : node' = node
  · rw [hne]
    exact le_of_lt hlt
  · exact h.others node' hnode' hne

/-- What holds after a loop node has been started: its own credit is spent for
less, and it does not wait. -/
structure LoopSpent (dag : Dag) (node : Node) (k k' : RunCore) : Prop where
  others : ∀ node' ∈ dag.nodes, node' ≠ node →
    loopCredit k' node' ≤ loopCredit k node'
  less : loopCredit k' node < loopCredit k node
  settled : ¬Waits (k'.status node.id)

section Loop

variable {dag : Dag} (hdag : Accepted dag) {node : Node}
  (hnode : node ∈ dag.nodes) (htype : node.type = "loop")
include hdag hnode htype

theorem loopSpent_start {k : RunCore} (hwaits : Waits (k.status node.id)) :
    LoopSpent dag node k (k.start node.id) := by
  have hself : (k.start node.id).status node.id = some .running := if_pos rfl
  have hnot : ¬Waits ((k.start node.id).status node.id) := by
    rw [hself]
    decide
  refine ⟨?_, ?_, hnot⟩
  · intro node' hnode' hne
    refine loopCredit_le ?_ rfl
    unfold RunCore.start
    dsimp only
    rw [if_neg fun hid => hne (hdag.id_inj hnode' hnode hid)]
    exact fun h => h
  · have hloop : (k.start node.id).loop node.id = k.loop node.id := rfl
    unfold loopCredit
    rw [if_pos htype, if_pos htype, if_neg hnot, if_pos hwaits, hloop]
    omega

omit htype in
theorem LoopSpent.settle {k k' : RunCore} {status : NodeStatus}
    (h : LoopSpent dag node k k') (hstatus : ¬Waits (some status)) :
    LoopSpent dag node k (k'.settle node.id status) := by
  have hself : (k'.settle node.id status).status node.id = some status :=
    if_pos rfl
  have hnot : ¬Waits ((k'.settle node.id status).status node.id) := by
    rw [hself]
    exact hstatus
  refine ⟨?_, ?_, hnot⟩
  · intro node' hnode' hne
    have hle : loopCredit (k'.settle node.id status) node' ≤
        loopCredit k' node' := by
      refine loopCredit_le ?_ rfl
      unfold RunCore.settle
      dsimp only
      rw [if_neg fun hid => hne (hdag.id_inj hnode' hnode hid)]
      exact fun h => h
    exact le_trans hle (h.others node' hnode' hne)
  · have hle : loopCredit (k'.settle node.id status) node ≤
        loopCredit k' node :=
      loopCredit_le (fun hwaits => absurd hwaits hnot) rfl
    exact lt_of_le_of_lt hle h.less

theorem loopOn_others {k : RunCore} {loop : LoopRun} {node' : Node}
    (hnode' : node' ∈ dag.nodes) (hne : node' ≠ node) :
    loopCredit (((k.record (.evaluated node.id true)).setLoop node.id
      loop).resetBody dag node.body) node' ≤ loopCredit k node' := by
  by_cases htype' : node'.type = "loop"
  · refine loopCredit_le ?_ ?_
    · rw [hdag.resetBody_status hnode' htype' hnode htype]
      exact fun h => h
    · rw [RunCore.loop_resetBody, RunCore.loop_setLoop, if_neg]
      · rfl
      · exact fun hid => hne (hdag.id_inj hnode' hnode hid)
  · unfold loopCredit
    rw [if_neg htype']
    exact Nat.zero_le _

theorem LoopSpent.step {k k₁ k₂ : RunCore} {ungated mayFail : Prop} {value : Bool → Prop}
    (hwaits : Waits (k.status node.id)) (h : LoopSpent dag node k k₁)
    (hmove : Move dag node ungated mayFail value k₁ k₂) :
    LoopSpent dag node k k₂ := by
  cases hmove with
  | skip _ hskips =>
      refine ⟨?_, ?_, fun hw => h.settled (hskips.waits hw)⟩
      · exact fun node' hnode' hne =>
          le_trans (loopCredit_le hskips.waits rfl) (h.others node' hnode' hne)
      · exact lt_of_le_of_lt (loopCredit_le hskips.waits rfl) h.less
  | block => exact h.settle hdag hnode (by decide)
  | fail => exact h.settle hdag hnode (by decide)
  | complete => exact h.settle hdag hnode (by decide)
  | retry htype' => exact absurd htype htype'
  | check => exact ⟨h.others, h.less, h.settled⟩
  | dispatch => exact ⟨h.others, h.less, h.settled⟩
  | loopOff _ _ _ hactive =>
      refine LoopSpent.settle hdag hnode ⟨?_, ?_, h.settled⟩ (by decide)
      · exact fun node' hnode' hne => le_trans
          (loopCredit_off_le hactive node') (h.others node' hnode' hne)
      · exact lt_of_le_of_lt (loopCredit_off_le hactive node) h.less
  | @loopOn loop _ _ _ hactive hiteration hmax =>
      obtain ⟨n, hn, hpos⟩ := hdag.iterations node hnode htype
      have hstatus : ¬Waits ((((k₁.record
          (.evaluated node.id true)).setLoop node.id loop).resetBody dag
            node.body).status node.id) := by
        rw [hdag.resetBody_status hnode htype hnode htype]
        exact h.settled
      refine LoopSpent.settle hdag hnode ⟨?_, ?_, hstatus⟩ (by decide)
      · exact fun node' hnode' hne => le_trans
          (loopOn_others hdag hnode htype hnode' hne)
          (h.others node' hnode' hne)
      · have hloop : (((k₁.record (.evaluated node.id true)).setLoop node.id
            loop).resetBody dag node.body).loop node.id = loop := by
          rw [RunCore.loop_resetBody, RunCore.loop_setLoop_self]
        have hbound := hmax n hn hpos
        unfold loopCredit
        rw [if_pos htype, if_pos htype, if_neg hstatus, if_pos hwaits, hloop,
          hactive, hiteration, hbound, hn, Option.getD_some, if_pos rfl]
        omega
  | loopStop =>
      refine ⟨?_, ?_, h.settled⟩
      · exact fun node' hnode' hne =>
          le_trans (loopCredit_off_le rfl node') (h.others node' hnode' hne)
      · exact lt_of_le_of_lt (loopCredit_off_le rfl node) h.less

end Loop

/-! ## Steps -/

section Steps

variable {c : Setting} (hdag : Accepted c.dag)
include hdag

theorem moves_credit_lt {node : Node} {k k' : RunCore} {ungated mayFail : Prop} {value : Bool → Prop}
    (hnode : node ∈ c.dag.nodes) (hwaits : Waits (k.status node.id))
    (hmoves : Moves c.dag node ungated mayFail value (k.start node.id) k') :
    credit c.dag k' < credit c.dag k := by
  by_cases htype : node.type = "loop"
  · have hspent : LoopSpent c.dag node k k' := by
      induction hmoves with
      | refl => exact loopSpent_start hdag hnode htype hwaits
      | tail _ hmove ih => exact ih.step hdag hnode htype hwaits hmove
    refine credit_lt_of_loop ?_ ⟨node, hnode, hspent.less⟩
    intro node' hnode'
    by_cases hne : node' = node
    · rw [hne]
      exact le_of_lt hspent.less
    · exact hspent.others node' hnode' hne
  · have hspent : WorkSpent c.dag node k k' := by
      induction hmoves with
      | refl => exact workSpent_start hdag hnode htype
      | tail _ hmove ih => exact ih.step hdag hnode htype hmove
    exact workSpent_lt hnode hwaits hspent

theorem nodeStep_credit
    (e : Exec) (nid : String) (rest : List String) :
    credit c.dag (c.nodeStep e nid rest).exec.core ≤ credit c.dag e.core ∧
      (Waits (e.core.status nid) → (∃ node, c.dag.byId nid = some node) →
        credit c.dag (c.nodeStep e nid rest).exec.core <
          credit c.dag e.core) := by
  rcases c.nodeStep_cases e nid rest with
    ⟨hnone, heq⟩ | ⟨hnot, heq⟩ | ⟨node, hnode, hwaits, hmoves⟩
  · rw [heq]
    refine ⟨le_rfl, ?_⟩
    rintro - ⟨node, hnode⟩
    rw [hnone] at hnode
    cases hnode
  · rw [heq]
    exact ⟨le_rfl, fun hwaits => absurd hwaits hnot⟩
  · obtain rfl := Dag.byId_id hnode
    have hlt := moves_credit_lt hdag (Dag.mem_of_byId hnode) hwaits hmoves
    exact ⟨le_of_lt hlt, fun _ _ => hlt⟩

theorem advances_credit_lt {node : Node} {k k' : RunCore}
    (hcomplete : Setting.BodyComplete c.dag k node)
    (hadvances : Setting.Advances c.dag node k k') :
    credit c.dag k' < credit c.dag k := by
  have hnode := Dag.mem_of_byId hcomplete.known
  have htype := hcomplete.isLoop
  have hactive := hcomplete.active
  have hoff : ∀ (k₁ : RunCore) (loop : LoopRun), k₁.status = k.status →
      k₁.loops = k.loops → loop.active = false →
      credit c.dag (k₁.setLoop node.id loop) < credit c.dag k := by
    intro k₁ loop hstatus hloops hloop
    have hsame : ∀ node', loopCredit k₁ node' = loopCredit k node' := by
      intro node'
      unfold loopCredit RunCore.loop
      rw [hstatus, hloops]
    refine credit_lt_of_loop ?_ ⟨node, hnode, ?_⟩
    · intro node' _
      rw [← hsame]
      exact loopCredit_off_le hloop node'
    · have hself := k₁.loop_setLoop_self node.id loop
      have hstatus' : (k₁.setLoop node.id loop).status = k.status := hstatus
      unfold loopCredit
      rw [if_pos htype, if_pos htype, hself, hloop, hactive, hstatus',
        if_pos rfl, if_neg Bool.false_ne_true]
      omega
  cases hadvances with
  | «over» => exact hoff k _ rfl rfl rfl
  | off => exact hoff (k.record _) _ rfl rfl rfl
  | on hmax =>
      set loop := Setting.nextLoop k node.id with hloop
      set k₁ := (k.record (.evaluated node.id true)).setLoop node.id loop
        with hk₁
      have hself : (k₁.resetBody c.dag node.body).loop node.id = loop := by
        rw [RunCore.loop_resetBody, hk₁, RunCore.loop_setLoop_self]
      have hstatus : (k₁.resetBody c.dag node.body).status node.id =
          k.status node.id :=
        hdag.resetBody_status hnode htype hnode htype
      have hactive' : loop.active = true := hactive
      have hiteration : loop.iteration = (k.loop node.id).iteration + 1 := rfl
      have hbound : loop.maxIterations = (k.loop node.id).maxIterations := rfl
      have hless : loopCredit (k₁.resetBody c.dag node.body) node <
          loopCredit k node := by
        unfold loopCredit
        rw [if_pos htype, if_pos htype, hself, hstatus, hactive', hactive,
          hiteration, hbound, if_pos rfl, if_pos rfl]
        omega
      refine credit_lt_of_loop ?_ ⟨node, hnode, hless⟩
      intro node' hnode'
      by_cases hne : node' = node
      · rw [hne]
        exact le_of_lt hless
      · exact loopOn_others hdag hnode htype hnode' hne

end Steps

/-! ## Runs -/

namespace Setting

variable {c : Setting}

theorem steps_add (m n : ℕ) (flow : Flow) :
    c.steps (m + n) flow = c.steps n (c.steps m flow) := by
  induction m generalizing flow with
  | zero => rw [Nat.zero_add, steps]
  | succ m ih =>
      rw [Nat.succ_add]
      cases flow with
      | next s =>
          rw [steps, steps]
          exact ih (c.step s)
      | stop e result =>
          rw [steps, steps]
          cases n with
          | zero => rfl
          | succ n => rfl

def Ends (c : Setting) (flow : Flow) : Prop :=
  ∃ n e result, c.steps n flow = .stop e result

theorem Ends.of_steps {flow : Flow} (n : ℕ) (h : c.Ends (c.steps n flow)) :
    c.Ends flow := by
  obtain ⟨m, e, result, heq⟩ := h
  exact ⟨n + m, e, result, by rw [steps_add, heq]⟩

theorem ends_stop (e : Exec) (result : Except PyError RunResult) :
    c.Ends (.stop e result) :=
  ⟨0, e, result, rfl⟩

theorem batch_drains (hdag : Accepted c.dag) (queue : List String) (e : Exec) :
    c.Ends (.next ⟨queue, e⟩) ∨ ∃ n e',
      c.steps n (.next ⟨queue, e⟩) = .next ⟨[], e'⟩ ∧
        credit c.dag e'.core ≤ credit c.dag e.core := by
  induction queue generalizing e with
  | nil => exact Or.inr ⟨0, e, rfl, le_rfl⟩
  | cons nid rest ih =>
      have hcredit := (nodeStep_credit hdag
        { e with tick := e.tick + 1 } nid rest).1
      have hone : c.steps 1 (.next ⟨nid :: rest, e⟩) =
          c.nodeStep { e with tick := e.tick + 1 } nid rest := rfl
      have hleaves : Leaves rest
          (c.nodeStep { e with tick := e.tick + 1 } nid rest) :=
        nodeStep_leaves nid
      cases hflow : c.nodeStep { e with tick := e.tick + 1 } nid rest with
      | stop e' result =>
          refine Or.inl (Ends.of_steps 1 ?_)
          rw [hone, hflow]
          exact ends_stop e' result
      | next s =>
          have hqueue := hleaves.queue s hflow
          obtain ⟨queue, e'⟩ := s
          obtain rfl : queue = rest := hqueue
          rw [hflow] at hone hcredit
          rcases ih e' with hends | ⟨n, e'', hsteps, hle⟩
          · exact Or.inl (Ends.of_steps 1 (hone ▸ hends))
          · refine Or.inr ⟨1 + n, e'', ?_, le_trans hle hcredit⟩
            rw [steps_add, hone, hsteps]

/-- From the head of the main loop the call ends, or comes to the head again
with a lower credit. -/
theorem head_ends_or_lowers (hdag : Accepted c.dag) (e : Exec) :
    c.Ends (.next ⟨[], e⟩) ∨ ∃ n e',
      c.steps n (.next ⟨[], e⟩) = .next ⟨[], e'⟩ ∧
        credit c.dag e'.core < credit c.dag e.core := by
  have hone : c.steps 1 (.next ⟨[], e⟩) =
      c.headStep { e with tick := e.tick + 1 } := rfl
  have hhead : HeadMove c e.core (c.headStep { e with tick := e.tick + 1 }) :=
    headStep_head (e := { e with tick := e.tick + 1 }) hdag
  generalize hflow : c.headStep { e with tick := e.tick + 1 } = flow
    at hhead hone
  cases hhead with
  | @stopped _ e' result => exact Or.inl (Ends.of_steps 1 (hone ▸ ends_stop e' result))
  | skipped hskips hcore hsome =>
      refine Or.inr ⟨1, _, hone, ?_⟩
      rw [hcore]
      exact skips_credit_lt hskips.skips hsome
  | advanced hskips hcomplete hcore =>
      refine Or.inr ⟨1, _, hone, ?_⟩
      exact lt_of_lt_of_le (advances_credit_lt hdag hcomplete hcore)
        (skips_credit_le hskips.skips)
  | @batch status queue e' hskips hcore hqueue _ hready =>
      obtain ⟨nid, rest, rfl⟩ := List.exists_cons_of_ne_nil hqueue
      have hnid := hready nid List.mem_cons_self
      have hle : credit c.dag e'.core ≤ credit c.dag e.core := by
        rw [hcore]
        exact skips_credit_le hskips.skips
      have hwaits : Waits (e'.core.status nid) := by
        rw [hcore]
        exact hnid.waits
      have hlt := (nodeStep_credit hdag
        { e' with tick := e'.tick + 1 } nid rest).2 hwaits hnid.known
      have htwo : c.steps (1 + 1) (.next ⟨[], e⟩) =
          c.nodeStep { e' with tick := e'.tick + 1 } nid rest := by
        rw [steps_add, hone]
        rfl
      have hleaves : Leaves rest
          (c.nodeStep { e' with tick := e'.tick + 1 } nid rest) :=
        nodeStep_leaves nid
      cases hnode : c.nodeStep { e' with tick := e'.tick + 1 } nid rest with
      | stop e'' result =>
          refine Or.inl (Ends.of_steps (1 + 1) ?_)
          rw [htwo, hnode]
          exact ends_stop e'' result
      | next s =>
          have hrest := hleaves.queue s hnode
          obtain ⟨queue, e''⟩ := s
          obtain rfl : queue = rest := hrest
          rw [hnode] at htwo hlt
          rcases batch_drains hdag queue e'' with hends | ⟨n, e₃, hsteps, hle'⟩
          · exact Or.inl (Ends.of_steps (1 + 1) (htwo ▸ hends))
          · refine Or.inr ⟨1 + 1 + n, e₃, ?_, ?_⟩
            · rw [steps_add, htwo, hsteps]
            · exact lt_of_le_of_lt hle' (lt_of_lt_of_le hlt hle)

theorem main_loop_ends (hdag : Accepted c.dag) (s : Sched) :
    c.Ends (.next s) := by
  have hhead : ∀ e, c.Ends (.next ⟨[], e⟩) := by
    intro e
    induction hm : credit c.dag e.core using WellFoundedLT.induction
      generalizing e with
    | ind m ih =>
        rcases head_ends_or_lowers hdag e with hends | ⟨n, e', hsteps, hlt⟩
        · exact hends
        · have hrest := ih _ (hm ▸ hlt) e' rfl
          exact Ends.of_steps n (hsteps ▸ hrest)
  obtain ⟨queue, e⟩ := s
  rcases batch_drains hdag queue e with hends | ⟨n, e', hsteps, -⟩
  · exact hends
  · exact Ends.of_steps n (hsteps ▸ hhead e')

end Setting

/-! ## Calls -/

section Calls

variable {services : Services} {dag : Dag} {stakesPolicy : Option PyVal}
  {c : Setting} {s : Sched}

theorem accepted_of_run {given : Items} {reviewed : Option Dag}
    (h : run services dag given reviewed stakesPolicy = .ok (c, s)) :
    Accepted c.dag := by
  unfold run at h
  dsimp only at h
  split at h
  · cases h
  · split at h
    · cases h
    · rename_i hvalid
      obtain rfl := (Prod.mk.inj (Except.ok.inj h)).1
      have hnil : validateDag services.host (reviewed.getD dag) = [] := by
        simpa using hvalid
      exact accepted_of_valid hnil

theorem start_of_run {given : Items} {reviewed : Option Dag}
    (h : run services dag given reviewed stakesPolicy = .ok (c, s)) :
    s = runStart services (overlayInputs dag.inputs given) := by
  unfold run at h
  dsimp only at h
  split at h
  · cases h
  · split at h
    · cases h
    · exact (Prod.mk.inj (Except.ok.inj h)).2.symm

theorem accepted_of_resume {given : Option Items} {persisted : Option Persisted}
    (hvalid : validateDag services.host dag = [])
    (h : resume services dag given persisted stakesPolicy = some (c, s)) :
    Accepted c.dag := by
  obtain ⟨saved, -, heq⟩ := Option.map_eq_some_iff.mp h
  obtain rfl := (Prod.mk.inj heq).1
  exact accepted_of_valid hvalid

theorem run_of_valid
    (hvalid : validateDag services.host dag = []) :
    run services dag [] none stakesPolicy =
      .ok ({ services, dag, mode := .run, graphInputs := dag.inputs,
             stakesPolicy }, runStart services dag.inputs) := by
  unfold run
  simp only [Option.getD_none, hvalid, List.isEmpty_nil, Bool.not_true,
    Bool.false_eq_true, if_false]
  rfl

end Calls

def loopDag : Dag where
  graphId := "g"
  nodes :=
    [{ id := "loop"
       type := "loop"
       assignedEntity := "system"
       inputs := [("condition", .bool true), ("body", .list [.str "tool"])]
       policy := { maxIterations := some 2 } },
     { id := "tool"
       type := "tool"
       assignedEntity := "system"
       dependsOn := ["loop"] }]

theorem loopDag_valid : validateDag quietServices.host loopDag = [] := by
  decide +kernel

end Hydrogenuine.TaskGraph
