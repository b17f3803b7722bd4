import Mathlib.Data.List.Pairwise
import Hydrogenuine.TaskGraph.Gating

/-!
# When nodes are attempted

A node is started, and dispatched, with all its dependencies done, at most once
more than its retries between two resets, and never after a failure under
fail-fast.  A loop node that starts in a batch may reset what a later node of the
batch depends on, and a denied node fails without ending the call; along every
run without such steps the three properties hold.
-/

namespace Hydrogenuine.TaskGraph

open Support Hydrogenuine.Core Relation

/-! ## Events -/

namespace Event

def isStartOf (nid : String) : Event → Bool
  | .started id _ => id == nid
  | _ => false

def isDispatchOf (nid : String) : Event → Bool
  | .dispatched id _ => id == nid
  | _ => false

def isAttempt : Event → Bool
  | .started _ _ => true
  | .dispatched _ _ => true
  | _ => false

def isFailure : Event → Bool
  | .settled _ .failed => true
  | _ => false

/-- A node is started or dispatched only with all its dependencies done. -/
def DepsDone (dag : Dag) : Event → Prop
  | .started nid statuses => ∀ node, dag.byId nid = some node →
      ∀ dep ∈ node.dependsOn, statuses dep = some .done
  | .dispatched nid statuses => ∀ node, dag.byId nid = some node →
      ∀ dep ∈ node.dependsOn, statuses dep = some .done
  | _ => True

end Event

def countSince (kind : Event → Bool) (nid : String) (trace : List Event) : ℕ :=
  trace.foldl
    (fun n event =>
      match event with
      | .reset ids => if nid ∈ ids then 0 else n
      | event => if kind event then n + 1 else n) 0

theorem countSince_reset
    (kind : Event → Bool) (nid : String) (trace : List Event)
    (ids : List String) :
    countSince kind nid (trace ++ [.reset ids]) =
      if nid ∈ ids then 0 else countSince kind nid trace := by
  rw [countSince, List.foldl_concat]
  rfl

theorem countSince_concat
    {kind : Event → Bool} {nid : String} {trace : List Event} {event : Event}
    (hreset : ∀ ids, event ≠ .reset ids) :
    countSince kind nid (trace ++ [event]) =
      countSince kind nid trace + if kind event then 1 else 0 := by
  rw [countSince, List.foldl_concat]
  split
  · rename_i ids
    exact absurd rfl (hreset ids)
  · split
    · rfl
    · rfl

def startsSince (nid : String) (trace : List Event) : ℕ :=
  countSince (Event.isStartOf nid) nid trace

def dispatchesSince (nid : String) (trace : List Event) : ℕ :=
  countSince (Event.isDispatchOf nid) nid trace

/-- What a run shall keep: nodes are started and dispatched with their
dependencies done, at most once more than their retries since their last reset,
and under fail-fast never after a failure. -/
structure DispatchSafe (dag : Dag) (trace : List Event) : Prop where
  ready : ∀ event ∈ trace, event.DepsDone dag
  attempts : ∀ node ∈ dag.nodes,
    (startsSince node.id trace : ℤ) ≤ node.policy.maxRetries + 1 ∧
      dispatchesSince node.id trace ≤ startsSince node.id trace
  failFast : dag.runPolicy.failureMode = "fail_fast" →
    trace.Pairwise fun earlier later =>
      earlier.isFailure = true → later.isAttempt = false

theorem forall_concat {P : Event → Prop} {trace : List Event}
    (h : ∀ event ∈ trace, P event) (event : Event) (hevent : P event) :
    ∀ event' ∈ trace ++ [event], P event' :=
  List.forall_mem_append.mpr ⟨h, List.forall_mem_singleton.mpr hevent⟩

/-! ## Dependencies -/

/-- Every node of the batch has its dependencies done. -/
def BatchReady
    (dag : Dag) (status : String → Option NodeStatus) (queue : List String) :
    Prop :=
  ∀ nid ∈ queue, ∀ node, dag.byId nid = some node →
    ∀ dep ∈ node.dependsOn, status dep = some .done

section Dependencies

variable {dag : Dag} {node : Node} {ungated mayFail : Prop}
  {value : Bool → Prop} {k k' : RunCore}

theorem settle_status_of_ne {id dep : String} {status : NodeStatus}
    (hne : dep ≠ id) : (k.settle id status).status dep = k.status dep := by
  unfold RunCore.settle
  dsimp only
  rw [if_neg hne]

variable {dep : String}

theorem resetBody_status_of_not_mem {body : List String}
    (hbody : dep ∉ body) :
    (k.resetBody dag body).status dep = k.status dep := by
  unfold RunCore.resetBody
  dsimp only
  rw [if_neg]
  intro h
  rw [Bool.and_eq_true] at h
  exact hbody (List.contains_iff_mem.mp h.1)

theorem move_done
    (hmove : Move dag node ungated mayFail value k k') (hne : dep ≠ node.id)
    (hbody : node.type = "loop" → value true → dep ∉ node.body)
    (hdone : k.status dep = some .done) : k'.status dep = some .done := by
  cases hmove with
  | skip _ hskips => exact hskips.done hdone
  | block => exact (settle_status_of_ne hne).trans hdone
  | fail => exact (settle_status_of_ne hne).trans hdone
  | retry => exact (settle_status_of_ne hne).trans hdone
  | complete => exact (settle_status_of_ne hne).trans hdone
  | check => exact hdone
  | dispatch => exact hdone
  | loopOff => exact (settle_status_of_ne hne).trans hdone
  | loopOn htype _ hvalue =>
      exact (settle_status_of_ne hne).trans
        ((resetBody_status_of_not_mem (hbody htype hvalue)).trans hdone)
  | loopStop => exact hdone

theorem moves_done
    (hmoves : Moves dag node ungated mayFail value k k') (hne : dep ≠ node.id)
    (hbody : node.type = "loop" → value true → dep ∉ node.body)
    (hdone : k.status dep = some .done) : k'.status dep = some .done := by
  induction hmoves with
  | refl => exact hdone
  | tail _ hmove ih => exact move_done hmove hne hbody ih

theorem start_done
    (hwaits : Waits (k.status node.id)) (hdone : k.status dep = some .done) :
    dep ≠ node.id ∧ (k.start node.id).status dep = some .done := by
  have hne : dep ≠ node.id := by
    rintro rfl
    rw [hdone] at hwaits
    exact absurd hwaits (by decide)
  refine ⟨hne, ?_⟩
  unfold RunCore.start
  dsimp only
  rw [if_neg hne]
  exact hdone

theorem moves_depsDone
    (hnode : dag.byId node.id = some node)
    (hne : ∀ dep ∈ node.dependsOn, dep ≠ node.id)
    (hmoves : Moves dag node ungated mayFail value k k')
    (hdone : ∀ dep ∈ node.dependsOn, k.status dep = some .done)
    (h : ∀ event ∈ k.trace, event.DepsDone dag) :
    ∀ event ∈ k'.trace, event.DepsDone dag := by
  induction hmoves with
  | refl => exact h
  | @tail k₁ k₂ hmoves hmove ih =>
      cases hmove with
      | skip => exact ih
      | block => exact forall_concat ih _ trivial
      | fail => exact forall_concat ih _ trivial
      | retry => exact forall_concat ih _ trivial
      | complete => exact forall_concat ih _ trivial
      | check => exact forall_concat ih _ trivial
      | dispatch htype =>
          refine forall_concat ih _ fun node' hnode' dep hdep => ?_
          rw [hnode] at hnode'
          obtain rfl := Option.some.inj hnode'
          exact moves_done hmoves (hne dep hdep)
            (fun hloop => absurd hloop htype) (hdone dep hdep)
      | loopOff =>
          have hevaluated := forall_concat ih (.evaluated node.id false) trivial
          exact forall_concat hevaluated _ trivial
      | loopOn =>
          have hevaluated := forall_concat ih (.evaluated node.id true) trivial
          have hreset := forall_concat hevaluated (.reset node.body) trivial
          exact forall_concat hreset _ trivial
      | loopStop => exact ih

end Dependencies

/-! ## Counting attempts -/

/-- The counts of a node: it is dispatched at most as often as it is started, its
starts are among its attempts, and while it waits a further start is left. -/
structure Counted (node : Node) (k : RunCore) : Prop where
  dispatches : dispatchesSince node.id k.trace ≤ startsSince node.id k.trace
  pending : pendingStart k.trace = some node.id →
    dispatchesSince node.id k.trace < startsSince node.id k.trace
  attempts : (startsSince node.id k.trace : ℤ) ≤ k.attempts node.id
  waiting : Waits (k.status node.id) →
    (startsSince node.id k.trace : ℤ) ≤ node.policy.maxRetries
  bound : (startsSince node.id k.trace : ℤ) ≤ node.policy.maxRetries + 1

section Counted

variable {dag : Dag} {node counted : Node} {k k' : RunCore}

theorem Counted.status
    (h : Counted counted k) {status : String → Option NodeStatus}
    (hwaits : Waits (status counted.id) → Waits (k.status counted.id)) :
    Counted counted { k with status := status } :=
  ⟨h.dispatches, h.pending, h.attempts, fun hw => h.waiting (hwaits hw),
    h.bound⟩

theorem Counted.record
    (h : Counted counted k) (event : Event)
    (hreset : ∀ ids, event ≠ .reset ids) (hattempt : event.isAttempt = false) :
    Counted counted (k.record event) := by
  have hstart : event.isStartOf counted.id = false := by
    cases event with
    | started => cases hattempt
    | _ => rfl
  have hdispatch : event.isDispatchOf counted.id = false := by
    cases event with
    | dispatched => cases hattempt
    | _ => rfl
  have hstarts : startsSince counted.id (k.trace ++ [event]) =
      startsSince counted.id k.trace := by
    unfold startsSince
    rw [countSince_concat hreset, hstart]
    rfl
  have hdispatches : dispatchesSince counted.id (k.trace ++ [event]) =
      dispatchesSince counted.id k.trace := by
    unfold dispatchesSince
    rw [countSince_concat hreset, hdispatch]
    rfl
  have hpending : pendingStart (k.trace ++ [event]) = some counted.id →
      pendingStart k.trace = some counted.id := by
    rw [pendingStart_concat]
    cases event with
    | started => cases hattempt
    | gateChecked => exact fun hp => hp
    | _ => exact fun hp => by cases hp
  constructor
  · rw [RunCore.record, hstarts, hdispatches]
    exact h.dispatches
  · rw [RunCore.record, hstarts, hdispatches]
    exact fun hp => h.pending (hpending hp)
  · rw [RunCore.record, hstarts]
    exact h.attempts
  · rw [RunCore.record, hstarts]
    exact h.waiting
  · rw [RunCore.record, hstarts]
    exact h.bound

theorem Counted.settle
    (h : Counted counted k) (hnode : node = counted ∨ node.id ≠ counted.id)
    {status : NodeStatus}
    (hagain : Waits (some status) →
      k.attempts node.id ≤ node.policy.maxRetries) :
    Counted counted (k.settle node.id status) := by
  have hrecorded : Counted counted (k.record (.settled node.id status)) :=
    h.record _ (fun _ => nofun) rfl
  refine ⟨hrecorded.dispatches, hrecorded.pending, hrecorded.attempts, ?_,
    hrecorded.bound⟩
  intro hwaits
  rcases hnode with rfl | hne
  · have hself : (k.settle node.id status).status node.id = some status :=
      if_pos rfl
    rw [hself] at hwaits
    exact le_trans hrecorded.attempts (hagain hwaits)
  · rw [settle_status_of_ne (Ne.symm hne)] at hwaits
    exact hrecorded.waiting hwaits

theorem Counted.start
    (h : Counted counted k) (hnode : node = counted ∨ node.id ≠ counted.id)
    (hwaits : Waits (k.status node.id)) :
    Counted counted (k.start node.id) := by
  have hstarts : startsSince counted.id (k.start node.id).trace =
      startsSince counted.id k.trace +
        if node.id == counted.id then 1 else 0 :=
    countSince_concat fun _ => nofun
  have hdispatches : dispatchesSince counted.id (k.start node.id).trace =
      dispatchesSince counted.id k.trace +
        if Event.isDispatchOf counted.id (.started node.id k.status) then 1
        else 0 :=
    countSince_concat fun _ => nofun
  have hnone : Event.isDispatchOf counted.id (.started node.id k.status) =
      false := rfl
  rw [hnone, if_neg Bool.false_ne_true, Nat.add_zero] at hdispatches
  have hpending : pendingStart (k.start node.id).trace = some node.id :=
    pendingStart_concat k.trace (.started node.id k.status)
  rcases hnode with rfl | hne
  · rw [if_pos (beq_self_eq_true node.id)] at hstarts
    have hattempts : (k.start node.id).attempts node.id =
        k.attempts node.id + 1 := if_pos rfl
    have hrunning : (k.start node.id).status node.id = some .running :=
      if_pos rfl
    have hleft := h.waiting hwaits
    have hcounted := h.attempts
    have hbelow := h.dispatches
    constructor
    · rw [hstarts, hdispatches]
      omega
    · intro _
      rw [hstarts, hdispatches]
      omega
    · rw [hstarts, hattempts]
      push_cast
      omega
    · intro hagain
      rw [hrunning] at hagain
      exact absurd hagain (by decide)
    · rw [hstarts]
      push_cast
      omega
  · rw [if_neg (by simpa using hne), Nat.add_zero] at hstarts
    have hattempts : (k.start node.id).attempts counted.id =
        k.attempts counted.id := if_neg (Ne.symm hne)
    have hstatus : (k.start node.id).status counted.id =
        k.status counted.id := if_neg (Ne.symm hne)
    constructor
    · rw [hstarts, hdispatches]
      exact h.dispatches
    · intro hp
      rw [hpending] at hp
      exact absurd (Option.some.inj hp) hne
    · rw [hstarts, hattempts]
      exact h.attempts
    · rw [hstarts, hstatus]
      exact h.waiting
    · rw [hstarts]
      exact h.bound

theorem Counted.dispatch
    (h : Counted counted k) (hnode : node = counted ∨ node.id ≠ counted.id)
    (hstart : pendingStart k.trace = some node.id) :
    Counted counted (k.record (.dispatched node.id k.status)) := by
  have hstarts : startsSince counted.id
      (k.record (.dispatched node.id k.status)).trace =
        startsSince counted.id k.trace +
          if Event.isStartOf counted.id (.dispatched node.id k.status) then 1
          else 0 :=
    countSince_concat fun _ => nofun
  have hnone : Event.isStartOf counted.id (.dispatched node.id k.status) =
      false := rfl
  rw [hnone, if_neg Bool.false_ne_true, Nat.add_zero] at hstarts
  have hdispatches : dispatchesSince counted.id
      (k.record (.dispatched node.id k.status)).trace =
        dispatchesSince counted.id k.trace +
          if node.id == counted.id then 1 else 0 :=
    countSince_concat fun _ => nofun
  have hpending : pendingStart
      (k.record (.dispatched node.id k.status)).trace = none :=
    pendingStart_concat k.trace (.dispatched node.id k.status)
  constructor
  · rw [hstarts, hdispatches]
    rcases hnode with rfl | hne
    · rw [if_pos (beq_self_eq_true node.id)]
      exact h.pending hstart
    · rw [if_neg (by simpa using hne)]
      exact h.dispatches
  · intro hp
    rw [hpending] at hp
    cases hp
  · rw [hstarts]
    exact h.attempts
  · rw [hstarts]
    exact h.waiting
  · rw [hstarts]
    exact h.bound

theorem Counted.resetBody
    (hdag : Accepted dag) (hcounted : counted ∈ dag.nodes)
    (h : Counted counted k) (body : List String) :
    Counted counted (k.resetBody dag body) := by
  have hstarts : startsSince counted.id (k.resetBody dag body).trace =
      if counted.id ∈ body then 0 else startsSince counted.id k.trace :=
    countSince_reset _ _ _ _
  have hdispatches : dispatchesSince counted.id (k.resetBody dag body).trace =
      if counted.id ∈ body then 0 else dispatchesSince counted.id k.trace :=
    countSince_reset _ _ _ _
  have hpending : pendingStart (k.resetBody dag body).trace = none :=
    pendingStart_concat k.trace (.reset body)
  have hknown : dag.ids.contains counted.id = true :=
    List.contains_iff_mem.mpr (List.mem_map_of_mem hcounted)
  have hretries := hdag.retries counted hcounted
  have hnever : pendingStart (k.resetBody dag body).trace = some counted.id →
      dispatchesSince counted.id (k.resetBody dag body).trace <
        startsSince counted.id (k.resetBody dag body).trace := by
    intro hp
    rw [hpending] at hp
    cases hp
  by_cases hbody : counted.id ∈ body
  · rw [if_pos hbody] at hstarts hdispatches
    have hattempts : (k.resetBody dag body).attempts counted.id = 0 := by
      unfold RunCore.resetBody
      dsimp only
      rw [if_pos]
      rw [hknown, List.contains_iff_mem.mpr hbody]
      rfl
    constructor
    · rw [hdispatches]
      exact Nat.zero_le _
    · exact hnever
    · rw [hstarts, hattempts]
      exact le_rfl
    · rw [hstarts]
      exact fun _ => hretries
    · rw [hstarts]
      push_cast
      omega
  · rw [if_neg hbody] at hstarts hdispatches
    have hattempts : (k.resetBody dag body).attempts counted.id =
        k.attempts counted.id := by
      unfold RunCore.resetBody
      dsimp only
      rw [if_neg]
      intro hboth
      rw [Bool.and_eq_true] at hboth
      exact hbody (List.contains_iff_mem.mp hboth.1)
    constructor
    · rw [hstarts, hdispatches]
      exact h.dispatches
    · exact hnever
    · rw [hstarts, hattempts]
      exact h.attempts
    · rw [hstarts, resetBody_status_of_not_mem hbody]
      exact h.waiting
    · rw [hstarts]
      exact h.bound

theorem Counted.setLoop
    (h : Counted counted k) (id : String) (loop : LoopRun) :
    Counted counted (k.setLoop id loop) :=
  ⟨h.dispatches, h.pending, h.attempts, h.waiting, h.bound⟩

variable {ungated mayFail : Prop} {value : Bool → Prop}

theorem Counted.move
    (hdag : Accepted dag) (hcounted : counted ∈ dag.nodes)
    (hnode : node = counted ∨ node.id ≠ counted.id)
    (h : Counted counted k)
    (hmove : Move dag node ungated mayFail value k k') :
    Counted counted k' := by
  cases hmove with
  | skip _ hskips => exact h.status hskips.waits
  | block => exact h.settle hnode fun hw => absurd hw (by decide)
  | fail => exact h.settle hnode fun hw => absurd hw (by decide)
  | retry _ hattempts => exact h.settle hnode fun _ => hattempts
  | complete => exact h.settle hnode fun hw => absurd hw (by decide)
  | check => exact h.record _ (fun _ => nofun) rfl
  | dispatch _ hstart => exact h.dispatch hnode hstart
  | loopOff =>
      have hevaluated := h.record (.evaluated node.id false) (fun _ => nofun)
        rfl
      exact (hevaluated.setLoop _ _).settle hnode fun hw =>
        absurd hw (by decide)
  | @loopOn loop =>
      have hevaluated := h.record (.evaluated node.id true) (fun _ => nofun) rfl
      have hreset := (hevaluated.setLoop node.id loop).resetBody hdag hcounted
        node.body
      exact hreset.settle hnode fun hw => absurd hw (by decide)
  | loopStop => exact h.setLoop _ _

theorem Counted.moves
    (hdag : Accepted dag) (hcounted : counted ∈ dag.nodes)
    (hnode : node = counted ∨ node.id ≠ counted.id)
    (h : Counted counted k)
    (hmoves : Moves dag node ungated mayFail value k k') :
    Counted counted k' := by
  induction hmoves with
  | refl => exact h
  | tail _ hmove ih => exact ih.move hdag hcounted hnode hmove

theorem Counted.advances
    (hdag : Accepted dag) (hcounted : counted ∈ dag.nodes)
    (h : Counted counted k) (hadvances : Setting.Advances dag node k k') :
    Counted counted k' := by
  cases hadvances with
  | «over» => exact h.setLoop _ _
  | on =>
      exact ((h.record (.evaluated node.id true) (fun _ => nofun) rfl).setLoop
        _ _).resetBody hdag hcounted _
  | off =>
      exact (h.record (.evaluated node.id false) (fun _ => nofun) rfl).setLoop
        _ _

end Counted

/-! ## Failures -/

def NoFailure (trace : List Event) : Prop :=
  ∀ event ∈ trace, event.isFailure = false

/-- No attempt follows a failure, and none has failed while a start is
pending. -/
structure NoLateAttempts (trace : List Event) : Prop where
  order : trace.Pairwise fun earlier later =>
    earlier.isFailure = true → later.isAttempt = false
  pending : pendingStart trace ≠ none → NoFailure trace

section Failures

variable {trace : List Event}

theorem NoFailure.concat (h : NoFailure trace) (event : Event)
    (hevent : event.isFailure = false) : NoFailure (trace ++ [event]) :=
  forall_concat h event hevent

theorem pairwise_concat {R : Event → Event → Prop} {event : Event}
    (h : trace.Pairwise R) (hevent : ∀ earlier ∈ trace, R earlier event) :
    (trace ++ [event]).Pairwise R := by
  refine List.pairwise_append.mpr ⟨h, List.pairwise_singleton R event, ?_⟩
  intro earlier hmem later hlater
  obtain rfl := List.mem_singleton.mp hlater
  exact hevent earlier hmem

theorem NoLateAttempts.record (h : NoLateAttempts trace) (event : Event)
    (hattempt : event.isAttempt = false) :
    NoLateAttempts (trace ++ [event]) := by
  refine ⟨pairwise_concat h.order fun _ _ _ => hattempt, ?_⟩
  rw [pendingStart_concat]
  cases event with
  | started => cases hattempt
  | gateChecked => exact fun hp => (h.pending hp).concat _ rfl
  | _ => exact fun hp => absurd rfl hp

theorem NoLateAttempts.start
    (h : NoLateAttempts trace) (hnone : NoFailure trace) (nid : String)
    (statuses : String → Option NodeStatus) :
    NoLateAttempts (trace ++ [.started nid statuses]) := by
  refine ⟨pairwise_concat h.order fun earlier hmem hfailure => ?_, ?_⟩
  · rw [hnone earlier hmem] at hfailure
    cases hfailure
  · exact fun _ => hnone.concat _ rfl

theorem NoLateAttempts.dispatch
    (h : NoLateAttempts trace) {nid : String}
    (hstart : pendingStart trace = some nid)
    (statuses : String → Option NodeStatus) :
    NoLateAttempts (trace ++ [.dispatched nid statuses]) := by
  have hnone : NoFailure trace := by
    apply h.pending
    rw [hstart]
    exact Option.some_ne_none nid
  refine ⟨pairwise_concat h.order fun earlier hmem hfailure => ?_, ?_⟩
  · rw [hnone earlier hmem] at hfailure
    cases hfailure
  · rw [pendingStart_concat]
    exact fun hp => absurd rfl hp

variable {dag : Dag} {node : Node} {ungated mayFail : Prop}
  {value : Bool → Prop} {k k' : RunCore}

theorem NoLateAttempts.moves
    (h : NoLateAttempts k.trace)
    (hmoves : Moves dag node ungated mayFail value k k') :
    NoLateAttempts k'.trace := by
  induction hmoves with
  | refl => exact h
  | tail _ hmove ih =>
      cases hmove with
      | skip => exact ih
      | block => exact ih.record _ rfl
      | fail => exact ih.record _ rfl
      | retry => exact ih.record _ rfl
      | complete => exact ih.record _ rfl
      | check => exact ih.record _ rfl
      | dispatch _ hstart => exact ih.dispatch hstart _
      | loopOff =>
          exact (ih.record (.evaluated node.id false) rfl).record _ rfl
      | loopOn =>
          have hevaluated := ih.record (.evaluated node.id true) rfl
          have hreset := hevaluated.record (.reset node.body) rfl
          exact hreset.record _ rfl
      | loopStop => exact ih

theorem NoLateAttempts.advances
    (h : NoLateAttempts k.trace) (hadvances : Setting.Advances dag node k k') :
    NoLateAttempts k'.trace := by
  cases hadvances with
  | «over» => exact h
  | on => exact (h.record (.evaluated node.id true) rfl).record _ rfl
  | off => exact h.record _ rfl

theorem NoFailure.moves
    (h : NoFailure k.trace) (hmay : ¬mayFail)
    (hmoves : Moves dag node ungated mayFail value k k') :
    NoFailure k'.trace := by
  induction hmoves with
  | refl => exact h
  | tail _ hmove ih =>
      cases hmove with
      | skip => exact ih
      | block => exact ih.concat _ rfl
      | fail _ hfail => exact absurd hfail hmay
      | retry => exact ih.concat _ rfl
      | complete => exact ih.concat _ rfl
      | check => exact ih.concat _ rfl
      | dispatch => exact ih.concat _ rfl
      | loopOff =>
          exact (ih.concat (.evaluated node.id false) rfl).concat _ rfl
      | loopOn =>
          have hevaluated := ih.concat (.evaluated node.id true) rfl
          have hreset := hevaluated.concat (.reset node.body) rfl
          exact hreset.concat _ rfl
      | loopStop => exact ih

theorem NoFailure.advances
    (h : NoFailure k.trace) (hadvances : Setting.Advances dag node k k') :
    NoFailure k'.trace := by
  cases hadvances with
  | «over» => exact h
  | on => exact (h.concat (.evaluated node.id true) rfl).concat _ rfl
  | off => exact h.concat _ rfl

end Failures

/-! ## Steps -/

/-- A step that keeps the dispatches safe: a loop node that starts does not reset
what a later node of the batch depends on, and under fail-fast the gate denies no
node. -/
structure StepSafe (c : Setting) (s : Sched) : Prop where
  resets : ∀ node, c.Starts s node → node.type = "loop" →
    c.LoopValue s.now node true → ∀ nid ∈ s.queue.tail, ∀ later,
      c.dag.byId nid = some later → ∀ dep ∈ later.dependsOn, dep ∉ node.body
  denials : c.dag.runPolicy.failureMode = "fail_fast" →
    ∀ node, c.Starts s node → ¬c.StepDenies s.now node

/-- What every safe step keeps. -/
structure Guarding (c : Setting) (flow : Flow) : Prop where
  ready : ∀ event ∈ flow.exec.core.trace, event.DepsDone c.dag
  batch : ∀ s, flow = .next s → BatchReady c.dag s.exec.core.status s.queue
  counted : ∀ node ∈ c.dag.nodes, Counted node flow.exec.core
  late : c.dag.runPolicy.failureMode = "fail_fast" →
    NoLateAttempts flow.exec.core.trace
  going : c.dag.runPolicy.failureMode = "fail_fast" → flow.goesOn = true →
    NoFailure flow.exec.core.trace

section Steps

variable {c : Setting}

theorem batchReady_nil {dag : Dag} {status : String → Option NodeStatus} :
    BatchReady dag status [] :=
  fun _ hnid => absurd hnid List.not_mem_nil

variable {s : Sched} {flow : Flow}

theorem Guarding.skips {status : String → Option NodeStatus}
    (h : Guarding c (.next s))
    (hskips : Setting.HeadSkips c.dag s.exec.core.status status)
    (hcore : flow.exec.core = { s.exec.core with status := status })
    (hbatch : ∀ s', flow = .next s' → BatchReady c.dag status s'.queue) :
    Guarding c flow := by
  have htrace : flow.exec.core.trace = s.exec.core.trace := by rw [hcore]
  constructor
  · rw [htrace]
    exact h.ready
  · rintro s' rfl
    have hstatus : s'.exec.core.status = status := by
      rw [Flow.exec] at hcore
      rw [hcore]
    rw [hstatus]
    exact hbatch s' rfl
  · intro node hnode
    rw [hcore]
    exact (h.counted node hnode).status hskips.skips.waits
  · rw [htrace]
    exact h.late
  · rw [htrace]
    exact fun hfast _ => h.going hfast rfl

theorem Guarding.advances
    (hdag : Accepted c.dag) {k : RunCore} {e : Exec} {node : Node}
    (hready : ∀ event ∈ k.trace, event.DepsDone c.dag)
    (hcounted : ∀ node' ∈ c.dag.nodes, Counted node' k)
    (hlate : c.dag.runPolicy.failureMode = "fail_fast" →
      NoLateAttempts k.trace)
    (hgoing : c.dag.runPolicy.failureMode = "fail_fast" → NoFailure k.trace)
    (hadvances : Setting.Advances c.dag node k e.core) :
    Guarding c (.next ⟨[], e⟩) := by
  constructor
  · rw [Flow.exec]
    generalize e.core = k' at hadvances
    cases hadvances with
    | «over» => exact hready
    | on =>
        have hevaluated := forall_concat hready (.evaluated node.id true) trivial
        exact forall_concat hevaluated (.reset node.body) trivial
    | off => exact forall_concat hready (.evaluated node.id false) trivial
  · intro s' hs'
    obtain rfl := Flow.next.inj hs'
    exact batchReady_nil
  · intro node' hnode'
    exact (hcounted node' hnode').advances hdag hnode' hadvances
  · exact fun hfast => (hlate hfast).advances hadvances
  · exact fun hfast _ => (hgoing hfast).advances hadvances

theorem Guarding.head
    (hdag : Accepted c.dag)
    (h : Guarding c (.next s)) (hhead : c.HeadMove s.exec.core flow) :
    Guarding c flow := by
  cases hhead with
  | batch hskips hcore _ _ hready =>
      refine h.skips hskips hcore fun s' hs' nid hnid node hnode dep => ?_
      obtain rfl := Flow.next.inj hs'
      exact (hready nid hnid).deps node hnode dep
  | skipped hskips hcore =>
      refine h.skips hskips hcore fun s' hs' => ?_
      obtain rfl := Flow.next.inj hs'
      exact batchReady_nil
  | @advanced status _ _ hskips _ hcore =>
      refine Guarding.advances (k := { s.exec.core with status := status })
        hdag h.ready ?_ h.late ?_ hcore
      · exact fun node' hnode' =>
          (h.counted node' hnode').status hskips.skips.waits
      · exact fun hfast => h.going hfast rfl
  | stopped hskips hcore => exact h.skips hskips hcore fun _ => nofun

theorem Guarding.node
    (hdag : Accepted c.dag) {node : Node} {rest : List String}
    (h : Guarding c (.next s)) (hsafe : StepSafe c s)
    (hqueue : s.queue = node.id :: rest)
    (hleaves : Setting.Leaves rest (c.step s)) (hstarts : c.Starts s node)
    (hmoves : Moves c.dag node (c.StepBypasses s.now node)
      (c.MayFailWith (c.step s) ∨ c.StepDenies s.now node)
      (c.LoopValue s.now node) (s.exec.core.start node.id)
      (c.step s).exec.core) :
    Guarding c (c.step s) := by
  have hbatch := h.batch s rfl
  have hself := hbatch node.id (by rw [hqueue]; exact List.mem_cons_self) node
    hstarts.known
  have hdone : ∀ dep ∈ node.dependsOn, dep ≠ node.id ∧
      (s.exec.core.start node.id).status dep = some .done :=
    fun dep hdep => start_done hstarts.waits (hself dep hdep)
  constructor
  · refine moves_depsDone hstarts.known (fun dep hdep => (hdone dep hdep).1)
      hmoves (fun dep hdep => (hdone dep hdep).2) fun event hmem => ?_
    rcases List.mem_append.mp hmem with hmem | hmem
    · exact h.ready event hmem
    · obtain rfl := List.mem_singleton.mp hmem
      intro node' hnode' dep hdep
      rw [hstarts.known] at hnode'
      obtain rfl := Option.some.inj hnode'
      exact hself dep hdep
  · intro s' hs' nid hnid later hlater dep hdep
    rw [hleaves.queue s' hs'] at hnid
    have hmem : nid ∈ s.queue := by
      rw [hqueue]
      exact List.mem_cons_of_mem _ hnid
    have hlaterDone := hbatch nid hmem later hlater dep hdep
    obtain ⟨hne, hstarted⟩ := start_done hstarts.waits hlaterDone
    have hexec : (c.step s).exec = s'.exec := by rw [hs', Flow.exec]
    rw [← hexec]
    refine moves_done hmoves hne (fun htype hvalue => ?_) hstarted
    refine hsafe.resets node hstarts htype hvalue nid ?_ later hlater dep hdep
    rw [hqueue]
    exact hnid
  · intro node' hnode'
    have hsame : node = node' ∨ node.id ≠ node'.id := by
      by_cases heq : node.id = node'.id
      · exact Or.inl (hdag.id_inj (Dag.mem_of_byId hstarts.known) hnode' heq)
      · exact Or.inr heq
    have hstarted := (h.counted node' hnode').start hsame hstarts.waits
    exact hstarted.moves hdag hnode' hsame hmoves
  · intro hfast
    have hstarted := (h.late hfast).start (h.going hfast rfl) node.id
      s.exec.core.status
    exact hstarted.moves hmoves
  · intro hfast hgoes
    have hmay : ¬(c.MayFailWith (c.step s) ∨ c.StepDenies s.now node) := by
      rintro ((hmode | hstops) | hdenies)
      · exact hmode hfast
      · rw [hgoes] at hstops
        cases hstops
      · exact hsafe.denials hfast node hstarts hdenies
    have hstarted : NoFailure (s.exec.core.start node.id).trace :=
      (h.going hfast rfl).concat _ rfl
    exact hstarted.moves hmay hmoves

theorem Guarding.step
    (hdag : Accepted c.dag)
    (h : Guarding c (.next s)) (hsafe : StepSafe c s) :
    Guarding c (c.step s) := by
  rcases Setting.step_cases hdag s with
    ⟨-, hhead⟩ | ⟨nid, rest, hqueue, hleaves, hcore⟩ |
      ⟨node, rest, hqueue, hleaves, hstarts, hmoves⟩
  · exact h.head hdag hhead
  · refine h.skips Setting.HeadSkips.refl hcore fun s' hs' nid' hnid' => ?_
    rw [hleaves.queue s' hs'] at hnid'
    refine h.batch s rfl nid' ?_
    rw [hqueue]
    exact List.mem_cons_of_mem _ hnid'
  · exact h.node hdag hsafe hqueue hleaves hstarts hmoves

/-! ## Runs -/

theorem Guarding.dispatchSafe (h : Guarding c flow) :
    DispatchSafe c.dag flow.exec.core.trace :=
  ⟨h.ready, fun node hnode =>
    ⟨(h.counted node hnode).bound, (h.counted node hnode).dispatches⟩,
    fun hfast => (h.late hfast).order⟩

theorem guarding_runStart
    (hdag : Accepted c.dag) (services : Services) (graphInputs : Items) :
    Guarding c (.next (runStart services graphInputs)) := by
  constructor
  · exact fun event hmem => absurd hmem List.not_mem_nil
  · intro s hs
    obtain rfl := Flow.next.inj hs
    exact batchReady_nil
  · intro node hnode
    have hretries := hdag.retries node hnode
    constructor
    · exact le_rfl
    · intro hp
      cases hp
    · exact le_rfl
    · exact fun _ => hretries
    · exact le_trans hretries (by omega)
  · exact fun _ => ⟨List.Pairwise.nil, fun hp => absurd rfl hp⟩
  · exact fun _ _ event hmem => absurd hmem List.not_mem_nil

end Steps

/-- Along every `run` whose steps reset nothing that a later node of the batch
depends on, and whose gate under fail-fast denies no node, the dispatches are
safe. -/
theorem run_dispatchSafe
    (services : Services) (dag : Dag) (given : Items) (reviewed : Option Dag)
    (stakesPolicy : Option PyVal) (c : Setting) (s : Sched)
    (hrun : run services dag given reviewed stakesPolicy = .ok (c, s)) (n : ℕ)
    (hsafe : ∀ m < n, ∀ s', c.steps m (.next s) = .next s' → StepSafe c s') :
    DispatchSafe c.dag (c.steps n (.next s)).exec.trace := by
  have hdag := accepted_of_run hrun
  have hstart : Guarding c (.next s) := by
    rw [start_of_run hrun]
    exact guarding_runStart hdag services _
  have hguarding := Setting.steps_invariant (Q := Guarding c)
    (fun _ h hstep => h.step hdag hstep) n hsafe hstart
  exact hguarding.dispatchSafe

/-! ## A reset and a denial -/

/-- The loop waits for a tool, its body does not wait for the loop, and another
tool depends on the body. -/
def resetDag : Dag where
  graphId := "g"
  runPolicy := { maxConcurrency := 2 }
  nodes :=
    [{ id := "a", type := "tool", assignedEntity := "system" },
     { id := "body", type := "tool", assignedEntity := "system" },
     { id := "loop"
       type := "loop"
       assignedEntity := "system"
       dependsOn := ["a"]
       inputs := [("condition", .bool true), ("body", .list [.str "body"])]
       policy := { maxIterations := some 2 } },
     { id := "tool"
       type := "tool"
       assignedEntity := "system"
       dependsOn := ["body"] }]

def truthfulServices : Services :=
  { quietServices with evaluate := fun _ _ _ => .ok (.bool true) }

def twoToolsDag : Dag where
  graphId := "g"
  nodes :=
    [{ id := "first", type := "tool", assignedEntity := "system" },
     { id := "second", type := "tool", assignedEntity := "system" }]

def onceDenyingServices : Services :=
  { quietServices with
    checkGate := fun tick _ _ _ _ =>
      .ok { allowed := decide (tick ≠ 2), reason := "stakes" } }

theorem resetDag_valid : validateDag referenceHost resetDag = [] := by
  decide +kernel

theorem twoToolsDag_valid : validateDag referenceHost twoToolsDag = [] := by
  decide +kernel

/-- A tool is started while its dependency is reset, and a tool is dispatched
after another has failed under fail-fast. -/
theorem dispatch_unsafe :
    (∃ c s n, run truthfulServices resetDag [] none none = .ok (c, s) ∧
      ¬DispatchSafe c.dag (c.steps n (.next s)).exec.trace) ∧
    ∃ c s n, run onceDenyingServices twoToolsDag [] none
        (some (.dict [])) = .ok (c, s) ∧
      ¬DispatchSafe c.dag (c.steps n (.next s)).exec.trace := by
  constructor
  · refine ⟨_, _, 6, run_of_valid resetDag_valid, fun hsafe => ?_⟩
    have hready := hsafe.ready _ (List.mem_of_getElem? (i := 10) rfl) _ rfl
      "body" List.mem_cons_self
    cases hready
  · refine ⟨_, _, 4, run_of_valid twoToolsDag_valid, fun hsafe => ?_⟩
    have horder := List.pairwise_iff_getElem.mp (hsafe.failFast rfl) 2 5
      (by decide +kernel) (by decide +kernel) (by decide)
    have hlate : true = false := horder rfl
    cases hlate

theorem loopDag_stepSafe (s : Sched) :
    StepSafe
      { services := truthfulServices, dag := loopDag, mode := .run,
        graphInputs := loopDag.inputs } s := by
  constructor
  · intro node hstarts htype _ nid _ later hlater dep hdep hbody
    have hnode := Dag.mem_of_byId hstarts.known
    have hmem := Dag.mem_of_byId hlater
    have hall : ∀ node ∈ loopDag.nodes, node.type = "loop" →
        ∀ later ∈ loopDag.nodes, ∀ dep ∈ later.dependsOn, dep ∉ node.body := by
      decide
    exact hall node hnode htype later hmem dep hdep hbody
  · rintro _ node _ ⟨-, -, -, result, hanswer, -⟩
    cases hanswer

/-- The loop graph is executed with safe dispatches. -/
theorem loopDag_dispatchSafe :
    DispatchSafe loopDag
      ((({ services := truthfulServices, dag := loopDag, mode := .run,
           graphInputs := loopDag.inputs } : Setting).steps 8
        (.next (runStart truthfulServices loopDag.inputs))).exec.trace) :=
  run_dispatchSafe truthfulServices loopDag [] none none _ _
    (run_of_valid loopDag_valid) 8 fun _ _ s' _ => loopDag_stepSafe s'

end Hydrogenuine.TaskGraph
