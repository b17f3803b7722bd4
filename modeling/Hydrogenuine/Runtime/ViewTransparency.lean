import Hydrogenuine.Runtime.Commitment
import Hydrogenuine.Runtime.EventForms
import Hydrogenuine.Runtime.ReadonlyView

/-!
# Whether immutable views are transparent

The loop hands the decision handler a read-only view of the state and the reducer
the immutable event, where a replay and a direct call use the values themselves.
The module settles on which states and events this makes no difference.
-/

namespace Hydrogenuine.Runtime

open Support Hydrogenuine.Core Governance
open Hal

/-! ## Transparency -/

/-- The handler returns the same drafts on the view as on the state itself. -/
def SameDrafts (env : HandlerEnv) (tick : Tick) (b : BinderState)
    (proposals : List Event) : Prop :=
  ∀ drafts,
    outcome (evaluateOn env tick (readonlyView (.dict tick.view)) proposals) b =
        .ok drafts ↔
      outcome (evaluate env tick proposals) b = .ok drafts

theorem sameDrafts_iff
    {env : HandlerEnv} {tick : Tick} {b : BinderState} {proposals : List Event}
    {drafts : List Draft}
    (h : outcome (evaluateOn env tick (readonlyView (.dict tick.view)) proposals)
        b = .ok drafts ∨
      outcome (evaluate env tick proposals) b = .ok drafts) :
    SameDrafts env tick b proposals ↔ Unseen env tick.view proposals := by
  constructor
  · intro hsame
    rcases h with hview | hplain
    · exact (evaluate_returns_iff hview).mp ((hsame drafts).mp hview)
    · exact (evaluate_returns_iff ((hsame drafts).mpr hplain)).mp hplain
  · intro hunseen drafts'
    rw [evaluateOn_view_of_unseen hunseen]

/-- Where the handler returns, it returns the same drafts on a view exactly if the
view hides nothing from it.  An event that is indifferent to its form is reduced
alike from every state, and so is a run of such events. -/
theorem views_transparent
    (env : HandlerEnv) (tick : Tick) (b : BinderState) (proposals : List Event)
    (renderView : PyVal → String) :
    (∀ drafts,
      (outcome (evaluateOn env tick (readonlyView (.dict tick.view)) proposals)
          b = .ok drafts ∨
        outcome (evaluate env tick proposals) b = .ok drafts) →
        (SameDrafts env tick b proposals ↔ Unseen env tick.view proposals)) ∧
    (∀ event, Indifferent env.host renderView event → ∀ s : World,
      World.apply (viewReader env.host renderView) s event.record =
        World.apply (plainReader env.host renderView) s event.record) ∧
    ∀ events : List Envelope,
      (∀ event ∈ events, Indifferent env.host renderView event) → ∀ s : World,
        events.foldlM (fun s event =>
            World.apply (viewReader env.host renderView) s event.record) s =
          events.foldlM (fun s event =>
            World.apply (plainReader env.host renderView) s event.record) s := by
  refine ⟨fun drafts h => sameDrafts_iff h, fun event h s => h.apply_eq s, ?_⟩
  intro events
  induction events with
  | nil => exact fun _ _ => rfl
  | cons event events ih =>
      intro h s
      obtain ⟨hfirst, hrest⟩ := List.forall_mem_cons.mp h
      rw [List.foldlM_cons, List.foldlM_cons, hfirst.apply_eq s]
      exact bind_congr fun t => ih hrest t

/-! ### A signal and a readiness check -/

def alarm : Envelope :=
  firstEvent "AEP_SIGNAL_EMITTED" [("signal_id", .str "sig-1"),
    ("class", .str "threat"), ("severity", .int 7)]

def stateAfter (event : Envelope) : List (String × PyVal) :=
  match World.apply (referenceReader false) initialWorld event.record with
  | .ok ⟨.dict items, _, _⟩ => items
  | _ => []

def alarmedTick : Tick := ⟨[], stateAfter alarm, [("max_severity", .int 7)]⟩

def externalWrite : Event := candidateAction
  [("capability_id", .str "cap.external_write_scaffold"),
    ("effect_class", .str "external_write")]

def draftTypes (m : BinderM (List Draft)) : Option (List String) :=
  match outcome m ⟨0, 0, 0⟩ with
  | .ok drafts => some (drafts.map Draft.type)
  | .error _ => none

def diskCheck : Envelope :=
  firstEvent "ELS_READINESS_CHECK_RECORDED"
    [("check", .dict [("check_id", .str "disk"), ("status", .str "fail")])]

def firstReduced (live : Bool) (event : Envelope) : Except PyError World :=
  World.apply (referenceReader live) initialWorld event.record

def failedChecks : Except PyError World → Option (List String)
  | .ok t =>
      match valueAt ["self", "failed_readiness_checks"] t.value with
      | some (.list items) => some (items.map referenceHost.str)
      | _ => some []
  | .error _ => none

/-- On the view an external write is blocked that is decided on the state itself,
and the failed check of a live event is lost. -/
theorem views_not_transparent :
    (draftTypes (evaluateOn referenceHandlers alarmedTick
        (readonlyView (.dict alarmedTick.view)) [externalWrite]) =
          some ["HAL_ARBITRATION_REQUESTED", "HAL_ARBITRATION_RECORDED",
            "DECISION_BLOCKED"] ∧
      draftTypes (evaluate referenceHandlers alarmedTick [externalWrite]) =
        some ["HAL_ARBITRATION_REQUESTED", "HAL_ARBITRATION_RECORDED",
          "DECISION_EVENT"] ∧
      ¬ SameDrafts referenceHandlers alarmedTick ⟨0, 0, 0⟩ [externalWrite]) ∧
    failedChecks (firstReduced true diskCheck) = some [] ∧
    failedChecks (firstReduced false diskCheck) = some ["disk"] ∧
    World.apply (viewReader referenceHost referenceHost.renderContainer)
        initialWorld diskCheck.record ≠
      World.apply (plainReader referenceHost referenceHost.renderContainer)
        initialWorld diskCheck.record := by
  have hview : draftTypes (evaluateOn referenceHandlers alarmedTick
      (readonlyView (.dict alarmedTick.view)) [externalWrite]) =
        some ["HAL_ARBITRATION_REQUESTED", "HAL_ARBITRATION_RECORDED",
          "DECISION_BLOCKED"] := by
    decide +kernel
  have hplain : draftTypes (evaluate referenceHandlers alarmedTick
      [externalWrite]) =
        some ["HAL_ARBITRATION_REQUESTED", "HAL_ARBITRATION_RECORDED",
          "DECISION_EVENT"] := by
    decide +kernel
  have hlive : failedChecks (firstReduced true diskCheck) = some [] := by
    decide +kernel
  have hlogged : failedChecks (firstReduced false diskCheck) =
      some ["disk"] := by
    decide +kernel
  refine ⟨⟨hview, hplain, fun hsame => ?_⟩, hlive, hlogged, fun happly => ?_⟩
  · unfold draftTypes at hview hplain
    cases hdrafts : outcome (evaluateOn referenceHandlers alarmedTick
        (readonlyView (.dict alarmedTick.view)) [externalWrite]) ⟨0, 0, 0⟩ with
    | error e =>
        rw [hdrafts] at hview
        cases hview
    | ok drafts =>
        rw [hdrafts] at hview
        rw [(hsame drafts).mp hdrafts] at hplain
        exact absurd (hview.symm.trans hplain) (by decide)
  · have hchecks : failedChecks (firstReduced true diskCheck) =
        failedChecks (firstReduced false diskCheck) := congrArg failedChecks happly
    rw [hlive, hlogged] at hchecks
    cases hchecks

end Hydrogenuine.Runtime
