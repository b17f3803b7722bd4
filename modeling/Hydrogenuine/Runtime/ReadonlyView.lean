import Hydrogenuine.Runtime.Handlers
import Hydrogenuine.Runtime.WorldUpdates

/-!
# Read-only views of the world state

`readonly_view` of `hg_runtime/contract.py` hands on a value with mapping proxies
for its dictionaries and tuples for its lists.  A proxy is a `Mapping` and is read
like the dictionary, but a tuple is no `list`.  The decision handler looks for the
recent arousal signals in a list, and so finds none in a view.
-/

namespace Hydrogenuine.Runtime

open Support Hydrogenuine.Core Governance
open Hal

/-! ## Values that are handed on -/

/-- A value as a handler gets it: as it is, or (`frozen`) with proxies and tuples
for the dictionaries and lists at every depth. -/
structure Handed where
  value : PyVal
  frozen : Bool

def readonlyView (v : PyVal) : Handed := ⟨v, true⟩

namespace Handed

def plain (v : PyVal) : Handed := ⟨v, false⟩

/-- `isinstance(v, Mapping)`. -/
def isMapping (v : Handed) : Bool :=
  match v.value with
  | .dict _ => true
  | _ => false

/-- `isinstance(v, list)`. -/
def isList (v : Handed) : Bool :=
  match v.value with
  | .list _ => !v.frozen
  | _ => false

/-- `v.get(k, d)` of a mapping: what a view holds is a view. -/
def get (v : Handed) (k : String) (d : PyVal) : Handed :=
  match v.value with
  | .dict items =>
      match PyVal.item? items k with
      | some x => ⟨x, v.frozen⟩
      | none => plain d
  | _ => plain d

def elements (v : Handed) : List PyVal :=
  match v.value with
  | .list items => items
  | _ => []

variable {items : List (String × PyVal)} {frozen : Bool} {k : String} {d : PyVal}

theorem get_of_item? {x : PyVal} (h : PyVal.item? items k = some x) :
    get ⟨.dict items, frozen⟩ k d = ⟨x, frozen⟩ := by
  simp only [get, h]

theorem get_of_missing (h : PyVal.item? items k = none) :
    get ⟨.dict items, frozen⟩ k d = plain d := by
  simp only [get, h]

end Handed

def signalRef (host : Host) : PyVal → Option String
  | .dict items =>
      if (PyVal.getItem items "event_id").truthy then
        some (host.str (PyVal.getItem items "event_id"))
      else none
  | _ => none

/-- `_aep_modulation_refs`. -/
def modulationRefs (host : Host) (view : Handed) : List String :=
  let activity := view.get "activity" (.dict [])
  if !activity.isMapping then []
  else
    let recent := activity.get "recent_aep_signals" (.list [])
    if !recent.isList then []
    else
      (recent.elements.drop (recent.elements.length - 8)).filterMap
        (signalRef host)

theorem modulationRefs_plain (host : Host) (state : List (String × PyVal)) :
    modulationRefs host (.plain (.dict state)) =
      aepModulationRefs host state := by
  unfold modulationRefs aepModulationRefs Handed.plain
  dsimp only
  cases hactivity : PyVal.item? state "activity" with
  | none =>
      rw [Handed.get_of_missing hactivity]
      rfl
  | some activity =>
      rw [Handed.get_of_item? hactivity]
      cases activity with
      | dict activity =>
          cases hrecent : PyVal.item? activity "recent_aep_signals" with
          | none =>
              rw [Handed.get_of_missing hrecent]
              simp [Handed.isMapping, Handed.isList, Handed.elements,
                Handed.plain, hrecent]
          | some recent =>
              rw [Handed.get_of_item? hrecent]
              cases recent with
              | list recent =>
                  simp only [Handed.isMapping, Handed.isList, Handed.elements,
                    hrecent, Bool.not_true, Bool.not_false, Bool.false_eq_true,
                    if_false]
                  congr 1
              | _ => simp [Handed.isMapping, Handed.isList, hrecent]
      | _ => simp [Handed.isMapping]

theorem Handed.elements_get_frozen (v : PyVal) (k : String)
    (h : (get ⟨v, true⟩ k (.list [])).isList = true) :
    (get ⟨v, true⟩ k (.list [])).elements = [] := by
  cases v with
  | dict items =>
      cases hitem : PyVal.item? items k with
      | none =>
          rw [get_of_missing hitem]
          rfl
      | some x =>
          rw [get_of_item? hitem] at h
          cases x <;> simp [isList] at h
  | _ => rfl

theorem Handed.get_frozen (v : PyVal) (k : String) (d : PyVal) :
    (∃ x, get ⟨v, true⟩ k d = ⟨x, true⟩) ∨ get ⟨v, true⟩ k d = plain d := by
  cases v with
  | dict items =>
      cases hitem : PyVal.item? items k with
      | none => exact Or.inr (get_of_missing hitem)
      | some x => exact Or.inl ⟨x, get_of_item? hitem⟩
  | _ => exact Or.inr rfl

theorem modulationRefs_readonlyView (host : Host) (state : PyVal) :
    modulationRefs host (readonlyView state) = [] := by
  unfold modulationRefs
  dsimp only
  rcases Handed.get_frozen state "activity" (.dict []) with ⟨activity, hget⟩ | hget
  · rw [readonlyView, hget]
    split_ifs with hmapping hlist
    · rfl
    · rfl
    · rw [Handed.elements_get_frozen activity _ (by simpa using hlist)]
      rfl
  · rw [readonlyView, hget]
    rfl

/-! ## The decision handler on a view -/

section Deciding

variable (env : HandlerEnv) (tick : Tick) (refs : List String)

/-- One round of `Phase1HALDecisionHandler.evaluate` with the references that were
collected from the view. -/
def evaluateGiven (proposal : Event) : BinderM (List Draft) := do
  if !isCandidateAction proposal then return [notCandidateDraft proposal]
  else
    let soarRun ← raising (deliberate env tick proposal)
    let soarDrafts := soarRun.toList.flatMap fun run =>
      soarRunDrafts run [proposal.eventId]
    let request ← raising (requestFromProposal env.host proposal
      tick.contextRefs tick.aepState refs soarRun)
    let result := arbitrate request
    let drafts := soarDrafts ++
      [arbitrationRequestedDraft request [proposal.eventId],
        arbitrationRecordedDraft env.host result [proposal.eventId]]
    match result.routing with
    | .noOp => return drafts
    | .reject => return drafts ++ [notRoutedDraft proposal result]
    | .defer => return drafts ++ [notRoutedDraft proposal result]
    | .accept =>
        let decided ← acceptProposal env proposal result soarRun
        return drafts ++ decided

/-- `Phase1HALDecisionHandler.evaluate` on a state that is handed on.  The batch
and the arousal state are those of the tick. -/
def evaluateOn (view : Handed) (proposals : List Event) : BinderM (List Draft) :=
  if !env.halEnabled then phase1Evaluate env proposals
  else collect (evaluateGiven env tick (modulationRefs env.host view)) proposals

theorem evaluateOn_plain (proposals : List Event) :
    evaluateOn env tick (.plain (.dict tick.view)) proposals =
      evaluate env tick proposals := by
  unfold evaluateOn evaluate
  rw [modulationRefs_plain]
  rfl

end Deciding

section Drafting

variable {env : HandlerEnv} {tick : Tick} {refs refs' : List String}
  {proposal : Event} {proposals : List Event} {b b' : BinderState}
  {drafts : List Draft}

theorem of_outcome_eq_ok
    {α : Type} {m : BinderM α} {Q : α → Prop} {a : α}
    (hends : Ends m b (fun a _ => Q a) (fun _ _ => True))
    (h : outcome m b = .ok a) : Q a := by
  rcases hends.cases with ⟨a', hreturned, ha⟩ | ⟨e, hraised, -⟩
  · rwa [Except.ok.inj (h.symm.trans hreturned)]
  · rw [h] at hraised
    cases hraised

theorem requestFromProposal_refs
    {host : Host} {contextRefs : List String}
    {aepState : List (String × PyVal)} {soarRun : Option SoarRun}
    {request : ArbitrationRequest}
    (h : requestFromProposal host proposal contextRefs aepState refs soarRun =
      .ok request) : request.aepModulationRefs = refs := by
  simp only [requestFromProposal, bind_eq_ok_iff] at h
  obtain ⟨content, -, priority, -, severity, -, hrequest⟩ := h
  rw [← Except.ok.inj hrequest]

theorem refs_of_requestedDraft
    {request request' : ArbitrationRequest} {parents : List String}
    (h : arbitrationRequestedDraft request parents =
      arbitrationRequestedDraft request' parents) :
    request.aepModulationRefs = request'.aepModulationRefs := by
  have hpayload := congrArg Draft.payload h
  simp only [arbitrationRequestedDraft, ArbitrationRequest.toPayload,
    PyVal.ofStrings, List.cons.injEq, Prod.mk.injEq, PyVal.list.injEq,
    true_and] at hpayload
  exact List.map_injective_iff.mpr (fun _ _ hstr => PyVal.str.inj hstr)
    hpayload.2.2.2.2.2.1

/-- A candidate action is answered by the drafts of the deliberation, and then by
the arbitration request. -/
theorem evaluateGiven_ends
    (hcandidate : isCandidateAction proposal = true) :
    Ends (evaluateGiven env tick refs proposal) b
      (fun drafts _ => ∃ soarRun request rest,
        deliberate env tick proposal = .ok soarRun ∧
        request.aepModulationRefs = refs ∧
        drafts = (soarRun.toList.flatMap fun run =>
            soarRunDrafts run [proposal.eventId]) ++
          arbitrationRequestedDraft request [proposal.eventId] :: rest)
      (fun _ _ => True) := by
  unfold evaluateGiven
  rw [if_neg (by simp [hcandidate])]
  apply ends_bind
  refine ends_raising (fun soarRun hsoar => ?_) (fun _ _ => trivial)
  apply ends_bind
  refine ends_raising (fun request hrequest => ?_) (fun _ _ => trivial)
  have hrefs := requestFromProposal_refs hrequest
  have hshape (tail : List Draft) :
      ∃ rest, (soarRun.toList.flatMap fun run =>
          soarRunDrafts run [proposal.eventId]) ++
        [arbitrationRequestedDraft request [proposal.eventId],
          arbitrationRecordedDraft env.host (arbitrate request)
            [proposal.eventId]] ++ tail =
        (soarRun.toList.flatMap fun run =>
          soarRunDrafts run [proposal.eventId]) ++
          arbitrationRequestedDraft request [proposal.eventId] :: rest :=
    ⟨_, List.append_assoc _ _ _⟩
  dsimp only
  cases (arbitrate request).routing with
  | accept =>
      apply ends_bind
      refine ends_of_forall (fun decided _ => ?_) (fun _ _ => trivial)
      obtain ⟨rest, hrest⟩ := hshape decided
      exact ends_pure ⟨soarRun, request, rest, hsoar, hrefs, hrest⟩
  | reject =>
      obtain ⟨rest, hrest⟩ :=
        hshape [notRoutedDraft proposal (arbitrate request)]
      exact ends_pure ⟨soarRun, request, rest, hsoar, hrefs, hrest⟩
  | defer =>
      obtain ⟨rest, hrest⟩ :=
        hshape [notRoutedDraft proposal (arbitrate request)]
      exact ends_pure ⟨soarRun, request, rest, hsoar, hrefs, hrest⟩
  | noOp => exact ends_pure ⟨soarRun, request, _, hsoar, hrefs, rfl⟩

theorem evaluateGiven_other (h : ¬ isCandidateAction proposal = true) :
    evaluateGiven env tick refs proposal =
      pure [notCandidateDraft proposal] := by
  unfold evaluateGiven
  rw [if_pos (by simpa using h)]

theorem collect_cons_ends
    {α : Type} {body : α → BinderM (List Draft)} {item : α} {items : List α} :
    Ends (collect body (item :: items)) b
      (fun drafts _ => ∃ first rest t, outcome (body item) b = .ok first ∧
        outcome (collect body items) t = .ok rest ∧ drafts = first ++ rest)
      (fun _ _ => True) := by
  rw [collect]
  apply ends_bind
  refine ends_mono ends_outcome ?_ (fun _ _ _ => trivial)
  rintro first t ⟨hfirst, -⟩
  apply ends_bind
  refine ends_mono ends_outcome ?_ (fun _ _ _ => trivial)
  rintro rest u ⟨hrest, -⟩
  exact ends_pure ⟨first, rest, t, hfirst, hrest, rfl⟩

/-- Two calls that return the same drafts for a candidate action were given the
same references. -/
theorem refs_eq_of_same_drafts
    (hcandidate : ∃ p ∈ proposals, isCandidateAction p = true)
    (h : outcome (collect (evaluateGiven env tick refs) proposals) b = .ok drafts)
    (h' : outcome (collect (evaluateGiven env tick refs') proposals) b' =
      .ok drafts) : refs = refs' := by
  induction proposals generalizing b b' drafts with
  | nil =>
      obtain ⟨p, hp, -⟩ := hcandidate
      cases hp
  | cons p ps ih =>
      obtain ⟨first, rest, t, hfirst, hrest, hdrafts⟩ :=
        of_outcome_eq_ok collect_cons_ends h
      obtain ⟨first', rest', t', hfirst', hrest', hdrafts'⟩ :=
        of_outcome_eq_ok collect_cons_ends h'
      rw [hdrafts'] at hdrafts
      by_cases hp : isCandidateAction p = true
      · obtain ⟨run, request, tail, hrun, hrefs, rfl⟩ :=
          of_outcome_eq_ok (evaluateGiven_ends hp) hfirst
        obtain ⟨run', request', tail', hrun', hrefs', rfl⟩ :=
          of_outcome_eq_ok (evaluateGiven_ends hp) hfirst'
        obtain rfl := Except.ok.inj (hrun.symm.trans hrun')
        rw [List.append_assoc, List.append_assoc,
          List.append_cancel_left_eq, List.cons_append, List.cons_append,
          List.cons.injEq] at hdrafts
        rw [← hrefs, ← hrefs']
        exact (refs_of_requestedDraft hdrafts.1).symm
      · have hfirst_eq : first = first' := by
          rw [evaluateGiven_other hp] at hfirst hfirst'
          exact Except.ok.inj (hfirst.symm.trans hfirst')
        rw [hfirst_eq, List.append_cancel_left_eq] at hdrafts
        rw [← hdrafts] at hrest
        obtain ⟨p', hp', hcandidate'⟩ := hcandidate
        rcases List.mem_cons.mp hp' with rfl | hmem
        · exact absurd hcandidate' hp
        · exact ih ⟨p', hmem, hcandidate'⟩ hrest hrest'

theorem collect_congr
    {α : Type} {body body' : α → BinderM (List Draft)} {items : List α}
    (h : ∀ item ∈ items, body item = body' item) :
    collect body items = collect body' items := by
  induction items with
  | nil => rfl
  | cons item items ih =>
      rw [collect, collect, h item List.mem_cons_self,
        ih fun item hitem => h item (List.mem_cons_of_mem _ hitem)]

/-- Where a view hides nothing from the handler: arbitration is off, the state
has no signal to refer to, or there is nothing to arbitrate. -/
def Unseen (env : HandlerEnv) (state : List (String × PyVal))
    (proposals : List Event) : Prop :=
  env.halEnabled = false ∨ aepModulationRefs env.host state = [] ∨
    ∀ proposal ∈ proposals, isCandidateAction proposal = false

theorem evaluateOn_view_of_unseen (h : Unseen env tick.view proposals) :
    evaluateOn env tick (readonlyView (.dict tick.view)) proposals =
      evaluate env tick proposals := by
  rw [← evaluateOn_plain]
  unfold evaluateOn
  rw [modulationRefs_plain, modulationRefs_readonlyView]
  rcases h with hhal | hrefs | hnone
  · rw [hhal]
    rfl
  · rw [hrefs]
  · split_ifs
    · rfl
    · refine collect_congr fun proposal hproposal => ?_
      have hother : ¬ isCandidateAction proposal = true := by
        simp [hnone proposal hproposal]
      rw [evaluateGiven_other hother, evaluateGiven_other hother]

/-- Drafts that are returned on the view are returned on the state as well exactly
if the view hides nothing. -/
theorem evaluate_returns_iff
    (h : outcome (evaluateOn env tick (readonlyView (.dict tick.view))
      proposals) b = .ok drafts) :
    outcome (evaluate env tick proposals) b = .ok drafts ↔
      Unseen env tick.view proposals := by
  constructor
  · intro hplain
    by_contra hseen
    simp only [Unseen, not_or, Bool.not_eq_false, not_forall] at hseen
    obtain ⟨hhal, hrefs, p, hp, hcandidate⟩ := hseen
    rw [← evaluateOn_plain] at hplain
    simp only [evaluateOn, hhal, Bool.not_true, Bool.false_eq_true, if_false,
      modulationRefs_plain, modulationRefs_readonlyView] at h hplain
    exact hrefs (refs_eq_of_same_drafts ⟨p, hp, hcandidate⟩ hplain h)
  · intro hunseen
    rwa [← evaluateOn_view_of_unseen hunseen]

end Drafting

end Hydrogenuine.Runtime
