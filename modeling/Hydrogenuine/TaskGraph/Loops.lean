import Hydrogenuine.TaskGraph.Attempts

/-!
# The iterations of a loop

The record of a loop and one of its body nodes is a word over the evaluations of
the loop condition and the starts of the node.  The loop is as it should be when
the word is a number of rounds, each a true evaluation and one start, ended by
the bound or by a false evaluation.

A body node without dependencies is started before its loop, and a condition that
is false at the loop's entry leaves the body to be run once.  Along every run
without these two, in which the body nodes succeed, the loop is as it should be.
-/

namespace Hydrogenuine.TaskGraph

open Support Hydrogenuine.Core Relation

/-! ## Histories -/

/-- The condition of a loop is evaluated, or a body node is started. -/
inductive LoopEvent where
  | evaluated (value : Bool)
  | ran
deriving DecidableEq

def loopEvent (loopId bid : String) : Event → Option LoopEvent
  | .evaluated id value => if id = loopId then some (.evaluated value) else none
  | .started id _ => if id = bid then some .ran else none
  | _ => none

def loopHistory (loopId bid : String) (trace : List Event) : List LoopEvent :=
  trace.filterMap (loopEvent loopId bid)

def rounds (n : ℕ) : List LoopEvent :=
  (List.replicate n [LoopEvent.evaluated true, .ran]).flatten

theorem rounds_succ (n : ℕ) :
    rounds (n + 1) = rounds n ++ [.evaluated true] ++ [.ran] := by
  unfold rounds
  rw [List.replicate_succ', List.flatten_append, List.flatten_singleton,
    List.append_assoc]
  rfl

/-- The history of a loop that counts `iteration` iterations: complete rounds,
then perhaps a further iteration that has begun, or a false evaluation. -/
def LoopWord (max iteration : ℤ) (history : List LoopEvent) : Prop :=
  ∃ n : ℕ,
    (history = rounds n ∧ iteration = n ∧ (n : ℤ) ≤ max) ∨
    (history = rounds n ++ [.evaluated true] ∧ iteration = n + 1 ∧
      (n : ℤ) + 1 ≤ max) ∨
    history = rounds n ++ [.evaluated false] ∧ iteration = n ∧
      (n : ℤ) + 1 ≤ max

/-- The history of a loop that is over: as many rounds as the bound says, or
rounds below the bound and a false evaluation. -/
def LoopOver (max iteration : ℤ) (history : List LoopEvent) : Prop :=
  ∃ n : ℕ, iteration = n ∧
    ((history = rounds n ∧ (n : ℤ) = max) ∨
      history = rounds n ++ [.evaluated false] ∧ (n : ℤ) + 1 ≤ max)

theorem LoopOver.word {max iteration : ℤ} {history : List LoopEvent}
    (h : LoopOver max iteration history) : LoopWord max iteration history := by
  obtain ⟨n, hn, ⟨hhistory, hmax⟩ | ⟨hhistory, hmax⟩⟩ := h
  · exact ⟨n, Or.inl ⟨hhistory, hn, le_of_eq hmax⟩⟩
  · exact ⟨n, Or.inr (Or.inr ⟨hhistory, hn, hmax⟩)⟩

section History

variable {loopId bid : String} {trace : List Event}

theorem loopHistory_concat (event : Event) :
    loopHistory loopId bid (trace ++ [event]) =
      loopHistory loopId bid trace ++
        (loopEvent loopId bid event).toList := by
  unfold loopHistory
  rw [List.filterMap_append]
  cases hevent : loopEvent loopId bid event with
  | none => rw [List.filterMap_cons_none hevent]; rfl
  | some e => rw [List.filterMap_cons_some hevent]; rfl

theorem loopHistory_other {event : Event}
    (h : loopEvent loopId bid event = none) :
    loopHistory loopId bid (trace ++ [event]) =
      loopHistory loopId bid trace := by
  rw [loopHistory_concat, h]
  exact List.append_nil _

theorem loopHistory_event {event : Event} {e : LoopEvent}
    (h : loopEvent loopId bid event = some e) :
    loopHistory loopId bid (trace ++ [event]) =
      loopHistory loopId bid trace ++ [e] := by
  rw [loopHistory_concat, h]
  rfl

theorem loopHistory_evaluated (value : Bool) :
    loopHistory loopId bid (trace ++ [.evaluated loopId value]) =
      loopHistory loopId bid trace ++ [.evaluated value] :=
  loopHistory_event (if_pos rfl)

end History

/-! ## Phases -/

def Succeeds (L : Node) (trace : List Event) : Prop :=
  ∀ b ∈ L.body, ∀ status, .settled b status ∈ trace → status = .done

/-- A body node in iteration `n + 1`: it is still to be run, or has been
started. -/
def InIteration (L : Node) (n : ℕ) (k : RunCore) (b : String) : Prop :=
  (loopHistory L.id b k.trace = rounds n ++ [.evaluated true] ∧
    (Waits (k.status b) ∨ k.status b = some .skipped)) ∨
  loopHistory L.id b k.trace = rounds (n + 1) ∧ ¬Waits (k.status b)

/-- The phases of a loop. -/
inductive LoopPhase (L : Node) (max : ℤ) (k : RunCore) : Prop where
  | before (hstatus : k.status L.id ≠ some .done) (hloop : k.loop L.id = {})
      (hbody : ∀ b ∈ L.body, loopHistory L.id b k.trace = [] ∧
        k.status b ≠ some .done)
  | active (n : ℕ) (hstatus : k.status L.id = some .done)
      (hactive : (k.loop L.id).active = true)
      (hmax : (k.loop L.id).maxIterations = max)
      (hiteration : (k.loop L.id).iteration = n + 1) (hle : (n : ℤ) + 1 ≤ max)
      (hbody : ∀ b ∈ L.body, InIteration L n k b)
  | over (hstatus : k.status L.id = some .done)
      (hactive : (k.loop L.id).active = false)
      (hbody : ∀ b ∈ L.body, ¬Waits (k.status b) ∧
        LoopOver max (k.loop L.id).iteration (loopHistory L.id b k.trace))

section Phases

variable {L : Node} {max : ℤ} {k k' : RunCore}

/-- The last event of a body node's history is its start. -/
def HasRun (L : Node) (k : RunCore) (b : String) : Prop :=
  ∃ history, loopHistory L.id b k.trace = history ++ [.ran]

theorem not_hasRun_fresh {b : String} {n : ℕ}
    (h : loopHistory L.id b k.trace = rounds n ++ [.evaluated true]) :
    ¬HasRun L k b := by
  rintro ⟨history, hrun⟩
  rw [h] at hrun
  obtain ⟨-, hlast⟩ := List.append_inj' hrun rfl
  cases hlast

/-- A change that the loop does not see keeps its phase: body nodes keep their
status, are skipped, or have run and do not wait. -/
theorem LoopPhase.frame
    (h : LoopPhase L max k)
    (hhistory : ∀ b ∈ L.body,
      loopHistory L.id b k'.trace = loopHistory L.id b k.trace)
    (hloop : k'.loop L.id = k.loop L.id)
    (hstatus : k'.status L.id = some .done ↔ k.status L.id = some .done)
    (hbody : ∀ b ∈ L.body, k'.status b = k.status b ∨
      k'.status b = some .skipped ∨
        (HasRun L k b ∧ ¬Waits (k'.status b))) :
    LoopPhase L max k' := by
  cases h with
  | before hopen hnone hidle =>
      refine LoopPhase.before (fun hdone => hopen (hstatus.mp hdone))
        (hloop.trans hnone) fun b hb => ?_
      obtain ⟨hempty, hundone⟩ := hidle b hb
      refine ⟨(hhistory b hb).trans hempty, ?_⟩
      rcases hbody b hb with hsame | hskipped | ⟨⟨history, hrun⟩, -⟩
      · rw [hsame]
        exact hundone
      · rw [hskipped]
        decide
      · rw [hempty] at hrun
        exact absurd hrun.symm (List.append_ne_nil_of_right_ne_nil _ nofun)
  | active n hdone hactive hmax hiteration hle hin =>
      refine LoopPhase.active n (hstatus.mpr hdone) (by rw [hloop, hactive])
        (by rw [hloop, hmax]) (by rw [hloop, hiteration]) hle fun b hb => ?_
      unfold InIteration
      rw [hhistory b hb]
      rcases hin b hb with ⟨hfresh, hwaits⟩ | ⟨hran, hsettled⟩
      · refine Or.inl ⟨hfresh, ?_⟩
        rcases hbody b hb with hsame | hskipped | ⟨hrun, -⟩
        · rw [hsame]
          exact hwaits
        · exact Or.inr hskipped
        · exact absurd hrun (not_hasRun_fresh hfresh)
      · refine Or.inr ⟨hran, ?_⟩
        rcases hbody b hb with hsame | hskipped | ⟨-, hnot⟩
        · rw [hsame]
          exact hsettled
        · rw [hskipped]
          exact not_waits_skipped
        · exact hnot
  | «over» hdone hactive hover =>
      refine LoopPhase.over (hstatus.mpr hdone) (by rw [hloop, hactive])
        fun b hb => ?_
      obtain ⟨hsettled, hword⟩ := hover b hb
      rw [hhistory b hb, hloop]
      refine ⟨?_, hword⟩
      rcases hbody b hb with hsame | hskipped | ⟨-, hnot⟩
      · rw [hsame]
        exact hsettled
      · rw [hskipped]
        exact not_waits_skipped
      · exact hnot

end Phases

/-! ## Steps of other nodes -/

/-- The loop whose iterations are followed: it is a loop of the graph, and no
other loop shares its body. -/
structure LoopOf (dag : Dag) (L : Node) : Prop where
  accepted : Accepted dag
  known : L ∈ dag.nodes
  isLoop : L.type = "loop"
  disjoint : ∀ node ∈ dag.nodes, node.type = "loop" → node ≠ L →
    ∀ b ∈ L.body, b ∉ node.body

section Other

variable {dag : Dag} {L node : Node} {max : ℤ} {k k' : RunCore}
  {ungated mayFail : Prop} {value : Bool → Prop}

theorem LoopOf.not_mem_body (hL : LoopOf dag L) {node : Node}
    (hnode : node ∈ dag.nodes) (htype : node.type = "loop") :
    L.id ∉ node.body :=
  hL.accepted.loop_not_mem_body hL.known hL.isLoop hnode htype

theorem LoopOf.ne_of_mem_body (hL : LoopOf dag L) {b : String}
    (hb : b ∈ L.body) : b ≠ L.id := by
  rintro rfl
  exact hL.not_mem_body hL.known hL.isLoop hb

theorem start_status_of_ne {id id' : String} (hne : id' ≠ id) :
    (k.start id).status id' = k.status id' := by
  unfold RunCore.start
  dsimp only
  rw [if_neg hne]

theorem LoopPhase.start_other
    (hne : node.id ≠ L.id) (hbody : node.id ∉ L.body)
    (h : LoopPhase L max k) : LoopPhase L max (k.start node.id) := by
  refine h.frame ?_ rfl ?_ ?_
  · intro b hb
    refine loopHistory_other (if_neg ?_)
    rintro rfl
    exact hbody hb
  · rw [start_status_of_ne (Ne.symm hne)]
  · intro b hb
    refine Or.inl (start_status_of_ne ?_)
    rintro rfl
    exact hbody hb

theorem LoopPhase.start_self
    (hL : LoopOf dag L) (hwaits : Waits (k.status L.id))
    (h : LoopPhase L max k) : LoopPhase L max (k.start L.id) := by
  have hdone : k.status L.id ≠ some .done := by
    intro hdone
    rw [hdone] at hwaits
    exact absurd hwaits (by decide)
  have hrunning : (k.start L.id).status L.id = some .running := if_pos rfl
  refine h.frame ?_ rfl ?_ ?_
  · intro b hb
    exact loopHistory_other (if_neg (Ne.symm (hL.ne_of_mem_body hb)))
  · rw [hrunning]
    constructor
    · intro hself
      exact absurd hself (by decide)
    · exact fun hself => absurd hself hdone
  · exact fun b hb =>
      Or.inl (start_status_of_ne (hL.ne_of_mem_body hb))

theorem LoopPhase.start_body
    (hL : LoopOf dag L) (hbody : node.id ∈ L.body)
    (hwaits : Waits (k.status node.id)) (hdone : k.status L.id = some .done)
    (h : LoopPhase L max k) :
    LoopPhase L max (k.start node.id) ∧ HasRun L (k.start node.id) node.id := by
  have hne := hL.ne_of_mem_body hbody
  have hstatus : (k.start node.id).status L.id = some .done :=
    (start_status_of_ne (Ne.symm hne)).trans hdone
  have hrunning : (k.start node.id).status node.id = some .running :=
    if_pos rfl
  have hran : loopHistory L.id node.id (k.start node.id).trace =
      loopHistory L.id node.id k.trace ++ [.ran] :=
    loopHistory_event (if_pos rfl)
  refine ⟨?_, ⟨_, hran⟩⟩
  cases h with
  | before hopen => exact absurd hdone hopen
  | active n _ hactive hmax hiteration hle hin =>
      refine LoopPhase.active n hstatus hactive hmax hiteration hle
        fun b hb => ?_
      by_cases hself : b = node.id
      · subst hself
        rcases hin node.id hb with ⟨hfresh, -⟩ | ⟨-, hsettled⟩
        · refine Or.inr ⟨?_, ?_⟩
          · rw [hran, hfresh, rounds_succ]
          · rw [hrunning]
            decide
        · exact absurd hwaits hsettled
      · have hsame := start_status_of_ne (k := k) hself
        have hhistory : loopHistory L.id b (k.start node.id).trace =
            loopHistory L.id b k.trace :=
          loopHistory_other (if_neg (Ne.symm hself))
        unfold InIteration
        rw [hsame, hhistory]
        exact hin b hb
  | «over» _ _ hover => exact absurd hwaits (hover node.id hbody).1

/-- A move of a node other than the loop keeps the phase. -/
theorem LoopPhase.move
    (hL : LoopOf dag L) (hnode : node ∈ dag.nodes) (hne : node.id ≠ L.id)
    (hran : node.id ∈ L.body → HasRun L k node.id)
    (hgood : Succeeds L k'.trace) (h : LoopPhase L max k)
    (hmove : Move dag node ungated mayFail value k k') :
    LoopPhase L max k' := by
  have hsettle : ∀ status : NodeStatus,
      (node.id ∈ L.body → ¬Waits (some status)) →
        LoopPhase L max (k.settle node.id status) := by
    intro status hwaits
    refine h.frame (fun b _ => loopHistory_other rfl) rfl ?_ fun b hb => ?_
    · rw [settle_status_of_ne (Ne.symm hne)]
    · by_cases hself : b = node.id
      · subst hself
        refine Or.inr (Or.inr ⟨hran hb, ?_⟩)
        have hstatus : (k.settle node.id status).status node.id =
            some status := if_pos rfl
        rw [hstatus]
        exact hwaits hb
      · exact Or.inl (settle_status_of_ne hself)
  have hrecord : ∀ event, (∀ b, loopEvent L.id b event = none) →
      LoopPhase L max (k.record event) := fun event hevent =>
    h.frame (fun b _ => loopHistory_other (hevent b)) rfl Iff.rfl
      fun _ _ => Or.inl rfl
  cases hmove with
  | skip _ hskips =>
      refine h.frame (fun _ _ => rfl) rfl ?_ fun b _ => ?_
      · constructor
        · intro hdone
          rcases hskips L.id with hsame | ⟨-, -, hskipped⟩
          · exact hsame.symm.trans hdone
          · exact absurd (hskipped.symm.trans hdone) (by decide)
        · exact fun hdone => hskips.done hdone
      · rcases hskips b with hsame | ⟨-, -, hskipped⟩
        · exact Or.inl hsame
        · exact Or.inr (Or.inl hskipped)
  | block => exact hsettle _ fun _ => by decide
  | fail => exact hsettle _ fun _ => by decide
  | complete => exact hsettle _ fun _ => by decide
  | retry =>
      refine hsettle _ fun hb => ?_
      have hbad : NodeStatus.ready = .done := hgood node.id hb _
        (List.mem_append_right _ List.mem_cons_self)
      cases hbad
  | check => exact hrecord _ fun _ => rfl
  | dispatch => exact hrecord _ fun _ => rfl
  | @loopOff loop htype =>
      have hbody : ∀ b ∈ L.body, b ≠ node.id := by
        rintro b hb rfl
        exact hL.accepted.loop_not_mem_body hnode htype hL.known hL.isLoop hb
      refine h.frame ?_ ?_ ?_ ?_
      · intro b _
        refine (loopHistory_other rfl).trans ?_
        exact loopHistory_other (if_neg hne)
      · rw [RunCore.loop_settle, RunCore.loop_setLoop, if_neg (Ne.symm hne)]
        rfl
      · rw [settle_status_of_ne (Ne.symm hne)]
        exact Iff.rfl
      · exact fun b hb => Or.inl (settle_status_of_ne (hbody b hb))
  | @loopOn loop htype =>
      have hbody : ∀ b ∈ L.body, b ≠ node.id := by
        rintro b hb rfl
        exact hL.accepted.loop_not_mem_body hnode htype hL.known hL.isLoop hb
      have hother : node ≠ L := fun heq => hne (congrArg Node.id heq)
      refine h.frame ?_ ?_ ?_ ?_
      · intro b _
        refine (loopHistory_other rfl).trans ?_
        refine (loopHistory_other rfl).trans ?_
        exact loopHistory_other (if_neg hne)
      · rw [RunCore.loop_settle, RunCore.loop_resetBody,
          RunCore.loop_setLoop, if_neg (Ne.symm hne)]
        rfl
      · rw [settle_status_of_ne (Ne.symm hne),
          resetBody_status_of_not_mem (hL.not_mem_body hnode htype)]
        exact Iff.rfl
      · intro b hb
        refine Or.inl ((settle_status_of_ne (hbody b hb)).trans ?_)
        exact resetBody_status_of_not_mem
          (hL.disjoint node hnode htype hother b hb)
  | @loopStop loopNode _ hmem hin hfailed =>
      have hother : L.id ≠ loopNode.id := by
        intro hid
        obtain rfl := hL.accepted.id_inj hL.known hmem hid
        have hbad : NodeStatus.failed = .done := hgood node.id hin _ hfailed
        cases hbad
      refine h.frame (fun _ _ => rfl) ?_ Iff.rfl fun _ _ => Or.inl rfl
      rw [RunCore.loop_setLoop, if_neg hother]

theorem move_history (hmove : Move dag node ungated mayFail value k k')
    (hne : node.id ≠ L.id) (b : String) :
    loopHistory L.id b k'.trace = loopHistory L.id b k.trace := by
  cases hmove with
  | skip => rfl
  | block => exact loopHistory_other rfl
  | fail => exact loopHistory_other rfl
  | retry => exact loopHistory_other rfl
  | complete => exact loopHistory_other rfl
  | check => exact loopHistory_other rfl
  | dispatch => exact loopHistory_other rfl
  | loopOff =>
      refine (loopHistory_other rfl).trans ?_
      exact loopHistory_other (if_neg hne)
  | loopOn =>
      refine (loopHistory_other rfl).trans ?_
      refine (loopHistory_other rfl).trans ?_
      exact loopHistory_other (if_neg hne)
  | loopStop => rfl

theorem move_trace (hmove : Move dag node ungated mayFail value k k') :
    k.trace <+: k'.trace := by
  cases hmove with
  | skip => exact List.prefix_rfl
  | block => exact List.prefix_append _ _
  | fail => exact List.prefix_append _ _
  | retry => exact List.prefix_append _ _
  | complete => exact List.prefix_append _ _
  | check => exact List.prefix_append _ _
  | dispatch => exact List.prefix_append _ _
  | loopOff =>
      exact (List.prefix_append _ [.evaluated node.id false]).trans
        (List.prefix_append _ _)
  | loopOn =>
      have hevaluated := List.prefix_append k.trace [.evaluated node.id true]
      have hreset := hevaluated.trans
        (List.prefix_append _ [.reset node.body])
      exact hreset.trans (List.prefix_append _ _)
  | loopStop => exact List.prefix_rfl

theorem Succeeds.of_trace {trace trace' : List Event}
    (h : Succeeds L trace') (htrace : trace <+: trace') : Succeeds L trace :=
  fun b hb status hmem => h b hb status (htrace.subset hmem)

theorem LoopPhase.moves
    (hL : LoopOf dag L) (hnode : node ∈ dag.nodes) (hne : node.id ≠ L.id)
    (hran : node.id ∈ L.body → HasRun L k node.id)
    (hgood : Succeeds L k'.trace) (h : LoopPhase L max k)
    (hmoves : Moves dag node ungated mayFail value k k') :
    LoopPhase L max k' := by
  have hboth : LoopPhase L max k' ∧
      loopHistory L.id node.id k'.trace =
        loopHistory L.id node.id k.trace := by
    induction hmoves with
    | refl => exact ⟨h, rfl⟩
    | @tail k₁ k₂ _ hmove ih =>
        obtain ⟨hphase, hsame⟩ := ih (hgood.of_trace (move_trace hmove))
        refine ⟨hphase.move hL hnode hne ?_ hgood hmove,
          (move_history hmove hne node.id).trans hsame⟩
        intro hb
        obtain ⟨history, hrun⟩ := hran hb
        exact ⟨history, hsame.trans hrun⟩
  exact hboth.1

end Other

/-! ## Steps of the loop -/

section Self

variable {dag : Dag} {L : Node} {max : ℤ} {k k' : RunCore}
  {ungated mayFail : Prop} {value : Bool → Prop}

theorem resetBody_status_of_mem (hL : LoopOf dag L) {b : String}
    (hb : b ∈ L.body) :
    (k.resetBody dag L.body).status b = some .pending := by
  obtain ⟨bodyNode, hknown, -⟩ :=
    hL.accepted.not_nested L hL.known hL.isLoop b hb
  unfold RunCore.resetBody
  dsimp only
  rw [if_pos]
  rw [Bool.and_eq_true]
  exact ⟨List.contains_iff_mem.mpr hb,
    List.contains_iff_mem.mpr (Dag.mem_ids_of_byId hknown)⟩

theorem LoopPhase.loop_move
    (hL : LoopOf dag L) (hmax : L.policy.maxIterations = some max)
    (hpos : 1 ≤ max) (hvalue : ¬value false) (h : LoopPhase L max k)
    (hmove : Move dag L ungated mayFail value k k') : LoopPhase L max k' := by
  cases hmove with
  | skip htype => exact absurd hL.isLoop htype
  | block htype => exact absurd hL.isLoop htype
  | fail htype => exact absurd hL.isLoop htype
  | retry htype => exact absurd hL.isLoop htype
  | complete htype => exact absurd hL.isLoop htype
  | dispatch htype => exact absurd hL.isLoop htype
  | loopStop htype => exact absurd hL.isLoop htype
  | loopOff _ _ hfalse => exact absurd hfalse hvalue
  | check =>
      exact h.frame (fun _ _ => loopHistory_other rfl) rfl Iff.rfl
        fun _ _ => Or.inl rfl
  | @loopOn loop _ hrunning _ hactive hiteration hbound =>
      cases h with
      | active _ hdone =>
          exact absurd (hrunning.symm.trans hdone) (by decide)
      | «over» hdone => exact absurd (hrunning.symm.trans hdone) (by decide)
      | before _ _ hidle =>
          have hloop : (((((k.record (.evaluated L.id true)).setLoop L.id
              loop).resetBody dag L.body).settle L.id .done).loop L.id) =
                loop := by
            rw [RunCore.loop_settle, RunCore.loop_resetBody,
              RunCore.loop_setLoop_self]
          refine LoopPhase.active 0 (if_pos rfl) ?_ ?_ ?_ ?_ fun b hb => ?_
          · rw [hloop, hactive]
          · rw [hloop, hbound max hmax hpos]
          · rw [hloop, hiteration]
            rfl
          · simpa using hpos
          · refine Or.inl ⟨?_, Or.inl ?_⟩
            · refine (loopHistory_other rfl).trans ?_
              refine (loopHistory_other rfl).trans ?_
              refine (loopHistory_evaluated _).trans ?_
              rw [(hidle b hb).1]
              rfl
            · rw [settle_status_of_ne (hL.ne_of_mem_body hb),
                resetBody_status_of_mem hL hb]
              exact Or.inr (Or.inl rfl)

theorem LoopPhase.loop_moves
    (hL : LoopOf dag L) (hmax : L.policy.maxIterations = some max)
    (hpos : 1 ≤ max) (hvalue : ¬value false) (h : LoopPhase L max k)
    (hmoves : Moves dag L ungated mayFail value k k') :
    LoopPhase L max k' := by
  induction hmoves with
  | refl => exact h
  | tail _ hmove ih => exact ih.loop_move hL hmax hpos hvalue hmove

/-- When the loop is advanced, each of its body nodes has run. -/
theorem LoopPhase.advance_self
    (hL : LoopOf dag L) (h : LoopPhase L max k)
    (hactive : (k.loop L.id).active = true)
    (hbody : ∀ b ∈ L.body, k.status b = some .done)
    (hadvances : Setting.Advances dag L k k') : LoopPhase L max k' := by
  cases h with
  | before _ hloop =>
      rw [hloop] at hactive
      cases hactive
  | «over» _ hoff =>
      rw [hoff] at hactive
      cases hactive
  | active n hdone _ hmax hiteration hle hin =>
      have hran : ∀ b ∈ L.body,
          loopHistory L.id b k.trace = rounds (n + 1) := by
        intro b hb
        rcases hin b hb with ⟨-, hwaits | hskipped⟩ | ⟨hran, -⟩
        · rw [hbody b hb] at hwaits
          exact absurd hwaits (by decide)
        · exact absurd ((hbody b hb).symm.trans hskipped) (by decide)
        · exact hran
      have hsettled : ∀ b ∈ L.body, ¬Waits (k.status b) := by
        intro b hb
        rw [hbody b hb]
        decide
      cases hadvances with
      | «over» hlast =>
          refine LoopPhase.over hdone ?_ fun b hb => ⟨hsettled b hb, ?_⟩
          · rw [RunCore.loop_setLoop_self]
          · rw [RunCore.loop_setLoop_self]
            refine ⟨n + 1, ?_, Or.inl ⟨hran b hb, ?_⟩⟩
            · rw [hiteration]
              push_cast
              rfl
            · rw [hmax, hiteration] at hlast
              push_cast
              omega
      | off hmore =>
          refine LoopPhase.over hdone ?_ fun b hb => ⟨hsettled b hb, ?_⟩
          · rw [RunCore.loop_setLoop_self]
          · rw [RunCore.loop_setLoop_self]
            refine ⟨n + 1, ?_, Or.inr ⟨?_, ?_⟩⟩
            · rw [hiteration]
              push_cast
              rfl
            · refine (loopHistory_evaluated _).trans ?_
              rw [hran b hb]
            · rw [hmax, hiteration] at hmore
              push_cast
              omega
      | on hmore =>
          have hloop : (((k.record (.evaluated L.id true)).setLoop L.id
              (Setting.nextLoop k L.id)).resetBody dag L.body).loop L.id =
                Setting.nextLoop k L.id := by
            rw [RunCore.loop_resetBody, RunCore.loop_setLoop_self]
          refine LoopPhase.active (n + 1) ?_ ?_ ?_ ?_ ?_ fun b hb => ?_
          · exact (resetBody_status_of_not_mem
              (hL.not_mem_body hL.known hL.isLoop)).trans hdone
          · rw [hloop]
            exact hactive
          · rw [hloop]
            exact hmax
          · rw [hloop]
            show (k.loop L.id).iteration + 1 = _
            rw [hiteration]
            push_cast
            rfl
          · rw [hmax, hiteration] at hmore
            push_cast
            omega
          · refine Or.inl ⟨?_, Or.inl ?_⟩
            · refine (loopHistory_other rfl).trans ?_
              refine (loopHistory_evaluated _).trans ?_
              rw [hran b hb]
            · rw [resetBody_status_of_mem hL hb]
              exact Or.inr (Or.inl rfl)

theorem LoopPhase.advance_other
    (hL : LoopOf dag L) {node : Node} (hnode : node ∈ dag.nodes)
    (htype : node.type = "loop") (hne : node ≠ L) (h : LoopPhase L max k)
    (hadvances : Setting.Advances dag node k k') : LoopPhase L max k' := by
  have hid : L.id ≠ node.id := fun hid =>
    hne (hL.accepted.id_inj hnode hL.known hid.symm)
  cases hadvances with
  | «over» =>
      refine h.frame (fun _ _ => rfl) ?_ Iff.rfl fun _ _ => Or.inl rfl
      rw [RunCore.loop_setLoop, if_neg hid]
  | off =>
      refine h.frame ?_ ?_ Iff.rfl fun _ _ => Or.inl rfl
      · exact fun b _ => loopHistory_other (if_neg (Ne.symm hid))
      · rw [RunCore.loop_setLoop, if_neg hid]
        rfl
  | on =>
      refine h.frame ?_ ?_ ?_ ?_
      · intro b _
        refine (loopHistory_other rfl).trans ?_
        exact loopHistory_other (if_neg (Ne.symm hid))
      · rw [RunCore.loop_resetBody, RunCore.loop_setLoop, if_neg hid]
        rfl
      · rw [resetBody_status_of_not_mem (hL.not_mem_body hnode htype)]
        exact Iff.rfl
      · exact fun b hb => Or.inl (resetBody_status_of_not_mem
          (hL.disjoint node hnode htype hne b hb))

end Self

/-! ## Steps of a run -/

/-- The body nodes succeed: none is skipped, blocked or failed, or has to be
tried again. -/
structure BodySucceeds (L : Node) (k : RunCore) : Prop where
  settled : Succeeds L k.trace
  status : ∀ b ∈ L.body, k.status b ≠ some .skipped ∧
    k.status b ≠ some .failed ∧ k.status b ≠ some .blocked

/-- What every step keeps: the phase of the loop, body nodes in a batch only once
the loop is done, and what a completed run means. -/
structure Iterating (c : Setting) (L : Node) (max : ℤ) (flow : Flow) : Prop where
  phase : LoopPhase L max flow.exec.core
  batch : ∀ s, flow = .next s → ∀ b ∈ L.body, b ∈ s.queue →
    s.exec.core.status L.id = some .done
  final : ∀ e r, flow = .stop e (.ok r) → r.status = some "completed" →
    Setting.Final c.dag e.core

def BodyDepends (dag : Dag) (L : Node) : Prop :=
  ∀ b ∈ L.body, ∀ bodyNode, dag.byId b = some bodyNode →
    bodyNode.dependsOn ≠ []

section Steps

variable {c : Setting} {L : Node} {max : ℤ} {s : Sched}

variable {k : RunCore}

theorem LoopPhase.headSkips {dag : Dag}
    {status : String → Option NodeStatus} (h : LoopPhase L max k)
    (hskips : Setting.HeadSkips dag k.status status) :
    LoopPhase L max { k with status := status } := by
  refine h.frame (fun _ _ => rfl) rfl ?_ fun b _ => ?_
  · constructor
    · intro hdone
      rcases hskips.skips L.id with hsame | ⟨-, -, hskipped⟩
      · exact hsame.symm.trans hdone
      · exact absurd (hskipped.symm.trans hdone) (by decide)
    · exact (hskips.skips.mono fun _ => Waits.open).done
  · rcases hskips.skips b with hsame | ⟨-, -, hskipped⟩
    · exact Or.inl hsame
    · exact Or.inr (Or.inl hskipped)

theorem LoopPhase.ready
    (hL : LoopOf c.dag L) (hdeps : BodyDepends c.dag L)
    (h : LoopPhase L max k) {b : String} (hb : b ∈ L.body)
    (hready : ReadyIn c.dag k.status b) : k.status L.id = some .done := by
  obtain ⟨bodyNode, hknown⟩ := hready.known
  obtain ⟨dep, hdep⟩ :=
    List.exists_mem_of_ne_nil _ (hdeps b hb bodyNode hknown)
  have hdone := hready.deps bodyNode hknown dep hdep
  rcases hL.accepted.body_deps L hL.known hL.isLoop b hb bodyNode hknown dep
    hdep with rfl | hin
  · exact hdone
  · cases h with
    | before _ _ hidle => exact absurd hdone (hidle dep hin).2
    | active _ hstatus => exact hstatus
    | «over» hstatus => exact hstatus

theorem closed_loop
    (hL : LoopOf c.dag L) (hdone : k.status L.id = some .done)
    (hbody : BodySucceeds L k) :
    Closed c.dag (fun id => id = L.id ∨ id ∈ L.body) k.status := by
  constructor
  · rintro id (rfl | hid)
    · rw [hdone]
      exact ⟨by decide, by decide⟩
    · exact ⟨(hbody.status id hid).1, (hbody.status id hid).2.1⟩
  · rintro node hnode (hself | hin) hwaits dep hdep
    · rw [hself, hdone] at hwaits
      exact absurd hwaits (by decide)
    · have hknown := (Dag.byId_eq_some hL.accepted.ids_nodup).mpr hnode
      exact hL.accepted.body_deps L hL.known hL.isLoop node.id hin node hknown
        dep hdep

theorem LoopPhase.done_of_active (h : LoopPhase L max k)
    (hactive : (k.loop L.id).active = true) :
    k.status L.id = some .done := by
  cases h with
  | before _ hloop =>
      rw [hloop] at hactive
      cases hactive
  | active _ hstatus => exact hstatus
  | «over» hstatus => exact hstatus

theorem LoopPhase.advance
    (hL : LoopOf c.dag L) {k k' : RunCore}
    {status : String → Option NodeStatus} {node : Node}
    (h : LoopPhase L max k) (hbody : BodySucceeds L k)
    (hskips : Setting.HeadSkips c.dag k.status status)
    (hcomplete : Setting.BodyComplete c.dag { k with status := status } node)
    (hadvances : Setting.Advances c.dag node { k with status := status } k') :
    LoopPhase L max k' := by
  have hphase := h.headSkips hskips
  by_cases hself : node = L
  · subst hself
    have hdone := h.done_of_active hcomplete.active
    have hclosed := closed_loop hL hdone hbody
    refine hphase.advance_self hL hcomplete.active (fun b hb => ?_) hadvances
    rcases hcomplete.complete b hb with hb' | hskipped
    · exact hb'
    · have hsame := hskips.spares _ hclosed b (Or.inr hb)
      have hbad : k.status b = some .skipped := hsame.symm.trans hskipped
      exact absurd hbad (hbody.status b hb).1
  · exact hphase.advance_other hL (Dag.mem_of_byId hcomplete.known)
      hcomplete.isLoop hself hadvances

theorem Iterating.head
    (hL : LoopOf c.dag L) (hdeps : BodyDepends c.dag L)
    (h : Iterating c L max (.next s)) (hbody : BodySucceeds L s.exec.core)
    {flow : Flow} (hhead : c.HeadMove s.exec.core flow) :
    Iterating c L max flow := by
  have hempty : ∀ e : Exec, ∀ s', Flow.next ⟨[], e⟩ = .next s' →
      ∀ b ∈ L.body, b ∈ s'.queue → s'.exec.core.status L.id = some .done := by
    intro e s' hs' b _ hmem
    obtain rfl := Flow.next.inj hs'
    exact absurd hmem List.not_mem_nil
  cases hhead with
  | batch hskips hcore _ _ hready =>
      have hphase := h.phase.headSkips hskips
      refine ⟨?_, ?_, fun _ _ h => by cases h⟩
      · rw [Flow.exec, hcore]
        exact hphase
      · intro s' hs' b hb hmem
        obtain rfl := Flow.next.inj hs'
        rw [hcore]
        exact hphase.ready hL hdeps hb (hready b hmem)
  | skipped hskips hcore =>
      refine ⟨?_, hempty _, fun _ _ h => by cases h⟩
      rw [Flow.exec, hcore]
      exact h.phase.headSkips hskips
  | advanced hskips hcomplete hcore =>
      refine ⟨?_, hempty _, fun _ _ h => by cases h⟩
      exact h.phase.advance hL hbody hskips hcomplete hcore
  | stopped hskips hcore hfinal =>
      refine ⟨?_, by rintro _ ⟨⟩, ?_⟩
      · rw [Flow.exec, hcore]
        exact h.phase.headSkips hskips
      · intro e' r hflow hcompleted
        obtain ⟨rfl, hresult⟩ := Flow.stop.inj hflow
        exact hfinal r hresult hcompleted

theorem Iterating.node
    (hL : LoopOf c.dag L) (hmax : L.policy.maxIterations = some max)
    (hpos : 1 ≤ max) {node : Node} {rest : List String}
    (h : Iterating c L max (.next s))
    (hentry : c.Starts s L → ¬c.LoopValue s.now L false)
    (hbody : BodySucceeds L (c.step s).exec.core)
    (hqueue : s.queue = node.id :: rest)
    (hleaves : Setting.Leaves rest (c.step s)) (hstarts : c.Starts s node)
    (hmoves : Moves c.dag node (c.StepBypasses s.now node)
      (c.MayFailWith (c.step s) ∨ c.StepDenies s.now node)
      (c.LoopValue s.now node) (s.exec.core.start node.id)
      (c.step s).exec.core) :
    Iterating c L max (c.step s) := by
  have hnode := Dag.mem_of_byId hstarts.known
  refine ⟨?_, ?_, fun e r hflow hcompleted =>
    absurd hcompleted (hleaves.incomplete e r hflow)⟩
  · by_cases hself : node.id = L.id
    · obtain rfl := hL.accepted.id_inj hnode hL.known hself
      have hstarted := h.phase.start_self hL hstarts.waits
      exact hstarted.loop_moves hL hmax hpos (hentry hstarts) hmoves
    · by_cases hin : node.id ∈ L.body
      · have hdone := h.batch s rfl node.id hin (by
          rw [hqueue]
          exact List.mem_cons_self)
        obtain ⟨hstarted, hran⟩ :=
          h.phase.start_body hL hin hstarts.waits hdone
        exact hstarted.moves hL hnode hself (fun _ => hran) hbody.settled
          hmoves
      · have hstarted := h.phase.start_other hself hin
        exact hstarted.moves hL hnode hself (fun hb => absurd hb hin)
          hbody.settled hmoves
  · intro s' hs' b hb hmem
    rw [hleaves.queue s' hs'] at hmem
    have hdone := h.batch s rfl b hb (by
      rw [hqueue]
      exact List.mem_cons_of_mem _ hmem)
    obtain ⟨hne, hstarted⟩ := start_done hstarts.waits hdone
    have hexec : (c.step s).exec = s'.exec := by rw [hs', Flow.exec]
    rw [← hexec]
    exact moves_done hmoves hne
      (fun htype _ => hL.not_mem_body hnode htype) hstarted

theorem Iterating.step
    (hL : LoopOf c.dag L) (hmax : L.policy.maxIterations = some max)
    (hpos : 1 ≤ max) (hdeps : BodyDepends c.dag L)
    (h : Iterating c L max (.next s))
    (hentry : c.Starts s L → ¬c.LoopValue s.now L false)
    (hbefore : BodySucceeds L s.exec.core)
    (hafter : BodySucceeds L (c.step s).exec.core) :
    Iterating c L max (c.step s) := by
  rcases Setting.step_cases hL.accepted s with
    ⟨-, hhead⟩ | ⟨nid, rest, hqueue, hleaves, hcore⟩ |
      ⟨node, rest, hqueue, hleaves, hstarts, hmoves⟩
  · exact h.head hL hdeps hbefore hhead
  · refine ⟨?_, ?_, fun e r hflow hcompleted =>
      absurd hcompleted (hleaves.incomplete e r hflow)⟩
    · rw [hcore]
      exact h.phase
    · intro s' hs' b hb hmem
      rw [hleaves.queue s' hs'] at hmem
      have hdone := h.batch s rfl b hb (by
        rw [hqueue]
        exact List.mem_cons_of_mem _ hmem)
      have hexec : (c.step s).exec = s'.exec := by rw [hs', Flow.exec]
      rw [← hexec, hcore]
      exact hdone
  · exact h.node hL hmax hpos hentry hafter hqueue hleaves hstarts hmoves

end Steps

/-! ## Runs -/

section Runs

variable {c : Setting} {L : Node} {max : ℤ}

theorem LoopPhase.word {k : RunCore} (h : LoopPhase L max k)
    (hpos : 1 ≤ max) {b : String} (hb : b ∈ L.body) :
    LoopWord max (k.loop L.id).iteration
      (loopHistory L.id b k.trace) := by
  cases h with
  | before _ hloop hidle =>
      rw [hloop]
      refine ⟨0, Or.inl ⟨(hidle b hb).1, rfl, ?_⟩⟩
      push_cast
      omega
  | active n _ _ _ hiteration hle hin =>
      rcases hin b hb with ⟨hfresh, -⟩ | ⟨hran, -⟩
      · exact ⟨n, Or.inr (Or.inl ⟨hfresh, hiteration, hle⟩)⟩
      · refine ⟨n + 1, Or.inl ⟨hran, ?_, ?_⟩⟩
        · rw [hiteration]
          push_cast
          rfl
        · push_cast
          exact hle
  | «over» _ _ hover => exact (hover b hb).2.word

theorem LoopPhase.final
    {k : RunCore} (h : LoopPhase L max k) (hL : LoopOf c.dag L)
    (hbody : BodySucceeds L k) (hfinal : Setting.Final c.dag k) {b : String}
    (hb : b ∈ L.body) :
    LoopOver max (k.loop L.id).iteration
      (loopHistory L.id b k.trace) := by
  have hdone : ∀ b ∈ L.body, k.status b = some .done := by
    intro b hb
    obtain ⟨bodyNode, hknown, -⟩ :=
      hL.accepted.not_nested L hL.known hL.isLoop b hb
    rcases hfinal.settled b (Dag.mem_ids_of_byId hknown) with h | h | h
    · exact h
    · exact absurd h (hbody.status b hb).1
    · exact absurd h (hbody.status b hb).2.2
  cases h with
  | before _ _ hidle => exact absurd (hdone b hb) (hidle b hb).2
  | active _ _ hactive =>
      refine absurd ?_ (hfinal.advanced L)
      constructor
      · exact (Dag.byId_eq_some hL.accepted.ids_nodup).mpr hL.known
      · exact hL.isLoop
      · exact hactive
      · exact List.ne_nil_of_mem hb
      · exact fun b' hb' => Or.inl (hdone b' hb')
  | «over» _ _ hover => exact (hover b hb).2

theorem iterating_runStart
    (services : Services) (graphInputs : Items) :
    Iterating c L max (.next (runStart services graphInputs)) := by
  refine ⟨LoopPhase.before ?_ rfl fun b _ => ⟨rfl, ?_⟩, ?_, fun _ _ => nofun⟩
  · intro hdone
    have hpending : some NodeStatus.pending = some .done := hdone
    cases hpending
  · intro hdone
    have hpending : some NodeStatus.pending = some .done := hdone
    cases hpending
  · intro s hs b _ hmem
    obtain rfl := Flow.next.inj hs
    exact absurd hmem List.not_mem_nil

end Runs

/-- Along every `run` in which the loop's condition holds at its entry and its
body nodes succeed, each body node, which depends on something and is in no other
body, is started exactly once in each iteration, and the iterations are the true
evaluations of the condition, up to the bound. -/
theorem run_loop_iterations
    (services : Services) (dag : Dag) (given : Items) (reviewed : Option Dag)
    (stakesPolicy : Option PyVal) (c : Setting) (s : Sched)
    (hrun : run services dag given reviewed stakesPolicy = .ok (c, s))
    (L : Node) (hknown : L ∈ c.dag.nodes) (htype : L.type = "loop")
    (hdeps : BodyDepends c.dag L)
    (hdisjoint : ∀ node ∈ c.dag.nodes, node.type = "loop" → node ≠ L →
      ∀ b ∈ L.body, b ∉ node.body)
    (n : ℕ)
    (hentry : ∀ m < n, ∀ s', c.steps m (.next s) = .next s' →
      c.Starts s' L → ¬c.LoopValue s'.now L false)
    (hbody : ∀ m ≤ n, BodySucceeds L (c.steps m (.next s)).exec.core)
    (max : ℤ) (hmax : L.policy.maxIterations = some max) (b : String)
    (hb : b ∈ L.body) :
    LoopWord max ((c.steps n (.next s)).exec.core.loop L.id).iteration
        (loopHistory L.id b (c.steps n (.next s)).exec.trace) ∧
      ∀ e r, c.steps n (.next s) = .stop e (.ok r) →
        r.status = some "completed" →
          LoopOver max (e.core.loop L.id).iteration
            (loopHistory L.id b e.trace) := by
  have hdag := accepted_of_run hrun
  have hL : LoopOf c.dag L := ⟨hdag, hknown, htype, hdisjoint⟩
  have hpos : 1 ≤ max := by
    obtain ⟨bound, hbound, hpos⟩ := hdag.iterations L hknown htype
    rw [hmax] at hbound
    obtain rfl := Option.some.inj hbound
    exact hpos
  have hstart : Iterating c L max (.next s) := by
    rw [start_of_run hrun]
    exact iterating_runStart services _
  have hguard : ∀ m < n, ∀ s', c.steps m (.next s) = .next s' →
      (c.Starts s' L → ¬c.LoopValue s'.now L false) ∧
        BodySucceeds L s'.exec.core ∧
          BodySucceeds L (c.step s').exec.core := by
    intro m hm s' hs'
    have hbefore := hbody m (le_of_lt hm)
    have hafter := hbody (m + 1) hm
    rw [Setting.steps_add, hs'] at hafter
    rw [hs'] at hbefore
    exact ⟨hentry m hm s' hs', hbefore, hafter⟩
  have hiterating := Setting.steps_invariant (Q := Iterating c L max)
    (fun _ h hstep => h.step hL hmax hpos hdeps hstep.1 hstep.2.1 hstep.2.2)
    n hguard hstart
  refine ⟨hiterating.phase.word hpos hb, ?_⟩
  intro e r hflow hcompleted
  have hfinal := hiterating.final e r hflow hcompleted
  have hphase := hiterating.phase
  have hsucceeds := hbody n le_rfl
  rw [hflow] at hphase hsucceeds
  exact hphase.final hL hsucceeds hfinal hb

/-! ## Loops that go wrong -/

def settlesBadly (L : Node) : Event → Bool
  | .settled b status => L.body.contains b && status != .done
  | _ => false

instance (L : Node) (trace : List Event) : Decidable (Succeeds L trace) :=
  decidable_of_iff (∀ event ∈ trace, settlesBadly L event = false) <| by
    constructor
    · intro h b hb status hmem
      have hgood := h _ hmem
      rw [settlesBadly, List.contains_iff_mem.mpr hb, Bool.true_and] at hgood
      simpa using hgood
    · intro h event hmem
      cases event with
      | settled b status =>
          rw [settlesBadly]
          by_cases hb : b ∈ L.body
          · rw [h b hb status hmem]
            simp
          · simp [hb]
      | _ => rfl

instance (L : Node) (k : RunCore) : Decidable (BodySucceeds L k) :=
  decidable_of_iff (Succeeds L k.trace ∧
    ∀ b ∈ L.body, k.status b ≠ some .skipped ∧ k.status b ≠ some .failed ∧
      k.status b ≠ some .blocked)
    ⟨fun h => ⟨h.1, h.2⟩, fun h => ⟨h.settled, h.status⟩⟩

theorem LoopWord.head {max iteration : ℤ} {history : List LoopEvent}
    (h : LoopWord max iteration history) :
    history = [] ∨ history = [.evaluated false] ∨
      history.head? = some (.evaluated true) := by
  obtain ⟨n, hn⟩ := h
  cases n with
  | zero =>
      rcases hn with ⟨hhistory, -⟩ | ⟨hhistory, -⟩ | ⟨hhistory, -⟩
      · exact Or.inl hhistory
      · rw [hhistory]
        exact Or.inr (Or.inr rfl)
      · exact Or.inr (Or.inl hhistory)
  | succ n =>
      have hrounds : rounds (n + 1) =
          .evaluated true :: .ran :: rounds n := rfl
      right
      right
      rcases hn with ⟨hhistory, -⟩ | ⟨hhistory, -⟩ | ⟨hhistory, -⟩
      · rw [hhistory, hrounds]
        rfl
      · rw [hhistory, hrounds]
        rfl
      · rw [hhistory, hrounds]
        rfl

/-- The loop over one tool runs the tool once in each of its two iterations. -/
theorem loopDag_iterations :
    ∃ c s e r L, run truthfulServices loopDag [] none none = .ok (c, s) ∧
      c.steps 9 (.next s) = .stop e (.ok r) ∧ L ∈ c.dag.nodes ∧
      L.type = "loop" ∧ loopHistory L.id "tool" e.trace = rounds 2 ∧
      LoopOver 2 (e.core.loop L.id).iteration
        (loopHistory L.id "tool" e.trace) := by
  refine ⟨_, _, _, _, _, run_of_valid loopDag_valid, rfl, List.mem_cons_self,
    rfl, rfl, ?_⟩
  refine (run_loop_iterations truthfulServices loopDag [] none none _ _
    (run_of_valid loopDag_valid) _ List.mem_cons_self rfl ?_ ?_ 9 ?_ ?_ 2 rfl
    "tool" (by decide)).2 _ _ rfl rfl
  · intro b hb bodyNode hknown
    obtain rfl : b = "tool" := List.mem_singleton.mp hb
    obtain rfl := Option.some.inj hknown
    exact List.cons_ne_nil _ _
  · intro node hnode htype hne
    rcases List.mem_cons.mp hnode with hloop | htool
    · exact absurd hloop hne
    · obtain rfl := List.mem_singleton.mp htool
      exact absurd htype (by decide)
  · rintro m - s' - - ⟨state, item, -, hvalue⟩
    cases hvalue
  · decide +kernel

def earlyDag : Dag where
  graphId := "g"
  nodes :=
    [{ id := "loop"
       type := "loop"
       assignedEntity := "system"
       inputs := [("condition", .bool true), ("body", .list [.str "body"])]
       policy := { maxIterations := some 2 } },
     { id := "body", type := "tool", assignedEntity := "system" }]

theorem earlyDag_valid : validateDag referenceHost earlyDag = [] := by
  decide +kernel

/-- A body node without dependencies runs before its loop, and a body node runs
although the condition of its loop is false at the entry; in both runs the body
succeeds. -/
theorem loop_goes_wrong :
    (∃ c s n L, run truthfulServices earlyDag [] none none = .ok (c, s) ∧
      L ∈ c.dag.nodes ∧ L.type = "loop" ∧
      L.policy.maxIterations = some 2 ∧ "body" ∈ L.body ∧
      (∀ m ≤ n, BodySucceeds L (c.steps m (.next s)).exec.core) ∧
      ¬LoopWord 2 ((c.steps n (.next s)).exec.core.loop L.id).iteration
        (loopHistory L.id "body" (c.steps n (.next s)).exec.trace)) ∧
    ∃ c s n L, run quietServices loopDag [] none none = .ok (c, s) ∧
      L ∈ c.dag.nodes ∧ L.type = "loop" ∧
      L.policy.maxIterations = some 2 ∧ "tool" ∈ L.body ∧
      (∀ m ≤ n, BodySucceeds L (c.steps m (.next s)).exec.core) ∧
      ¬LoopWord 2 ((c.steps n (.next s)).exec.core.loop L.id).iteration
        (loopHistory L.id "tool" (c.steps n (.next s)).exec.trace) := by
  constructor
  · refine ⟨_, _, 2, _, run_of_valid earlyDag_valid, List.mem_cons_self, rfl,
      rfl, by decide, by decide +kernel, fun hword => ?_⟩
    rcases hword.head with h | h | h
    · cases h
    · cases h
    · cases h
  · refine ⟨_, _, 4, _, run_of_valid loopDag_valid, List.mem_cons_self, rfl,
      rfl, by decide, by decide +kernel, fun hword => ?_⟩
    rcases hword.head with h | h | h
    · cases h
    · cases h
    · cases h

end Hydrogenuine.TaskGraph
