import Hydrogenuine.Core.ReferenceHost
import Hydrogenuine.Runtime.Handlers

/-!
# From proposals to committed executions

The decision stage and the kernel of one tick, composed as the loop composes
them: the drafts of the decision handler are emitted, and the kernel executes
the decision events among them.  Arbitration, permit binding and the kernel
each derive a capability and an effect class from the content of the proposal.
The module settles for which proposals the three agree on what is committed.
-/

namespace Hydrogenuine.Runtime

open Support Hydrogenuine.Core Governance
open Hal Ueak

/-! ## One tick -/

/-- What the decision handler and the kernel keep between ticks. -/
structure RtcState where
  binder : BinderState
  kernel : CommitScaffold

variable (env : HandlerEnv) (eventIds : ℕ → String) (tick : Tick)

def Event.isDecision (event : Event) : Bool := event.type == "DECISION_EVENT"

def Draft.isDecision (draft : Draft) : Bool := draft.type == "DECISION_EVENT"

/-- The decision events among the emitted drafts go to the kernel; without one
the kernel is not called. -/
def executeDecisions (kernel : CommitScaffold) (drafts : List Draft) :
    CommitScaffold :=
  let committed := (emitDrafts eventIds 0 drafts).filter Event.isDecision
  if committed.isEmpty then kernel
  else finalState (kernelExecute env committed) kernel

/-- Decide on the proposals of a tick and execute the decisions.  A decision
handler that raises leaves nothing to execute. -/
def decideAndExecute (s : RtcState) (proposals : List Event) : RtcState :=
  let b := finalState (evaluate env tick proposals) s.binder
  match outcome (evaluate env tick proposals) s.binder with
  | .error _ => { s with binder := b }
  | .ok drafts => ⟨b, executeDecisions env eventIds s.kernel drafts⟩

def newCommits (s : RtcState) (proposals : List Event) :
    List CommitScaffold.ExecutionRequest :=
  (decideAndExecute env eventIds tick s proposals).kernel.committedRequests.drop
    s.kernel.committedRequests.length

/-! ## The decision on one proposal -/

/-- What the trace emitter makes of the permit for a decision: without a binder
nothing is recorded. -/
def permitAnswer (b : BinderState) (request : BindRequest) :
    Except PyError (Option TraceRecord) :=
  match env.binder with
  | none => .ok none
  | some binder => binder.answer b request

/-- What the decision on an accepted proposal is made from. -/
structure Decision where
  soarRun : Option SoarRun
  request : ArbitrationRequest
  content : List (String × PyVal)
  record : Option TraceRecord
  proposalId : PyVal

namespace Decision

def action (d : Decision) : List (String × PyVal) :=
  decidedAction d.content (arbitrate d.request) d.soarRun

/-- The permit that is bound to the action: there is one exactly if the trace
emitter has recorded it. -/
def permit (d : Decision) (b : BinderState) (proposal : Event) : Option Permit :=
  match env.binder with
  | none => none
  | some binder => d.record.map (PermitBinder.issued env.host binder b
      (bindRequestFor env proposal d.action (arbitrate d.request)))

def boundAction (d : Decision) (permit : Option Permit) :
    List (String × PyVal) :=
  match permit with
  | none => d.action
  | some permit => permittedAction d.action permit (arbitrate d.request)

end Decision

/-- The handler decides on a candidate action that is arbitrated with routing
`ACCEPT`, provided that nothing on the way raises. -/
structure Decides (b : BinderState) (proposal : Event) (d : Decision) : Prop where
  candidate : isCandidateAction proposal = true
  deliberated : deliberate env tick proposal = .ok d.soarRun
  requested : halRequest env tick proposal d.soarRun = .ok d.request
  accepted : (arbitrate d.request).routing = .accept
  content : copyItems proposal.payload "content" = .ok d.content
  answered : permitAnswer env b
    (bindRequestFor env proposal d.action (arbitrate d.request)) = .ok d.record
  identified : requireItem proposal.payload "proposal_id" = .ok d.proposalId

variable {env eventIds tick}

variable {proposal : Event} {drafts : List Draft} {content : List (String × PyVal)}
  {host : Host} {b : BinderState} {s : RtcState}

theorem Decides.unique {d d' : Decision}
    (h : Decides env tick b proposal d) (h' : Decides env tick b proposal d') :
    d = d' := by
  obtain ⟨soarRun, request, content, record, proposalId⟩ := d
  obtain ⟨soarRun', request', content', record', proposalId'⟩ := d'
  obtain rfl : soarRun = soarRun' :=
    Except.ok.inj (h.deliberated.symm.trans h'.deliberated)
  obtain rfl : request = request' :=
    Except.ok.inj (h.requested.symm.trans h'.requested)
  obtain rfl : content = content' :=
    Except.ok.inj (h.content.symm.trans h'.content)
  obtain rfl : record = record' :=
    Except.ok.inj (h.answered.symm.trans h'.answered)
  obtain rfl : proposalId = proposalId' :=
    Except.ok.inj (h.identified.symm.trans h'.identified)
  rfl

/-! ## The fields that name a capability -/

theorem getItem_boundAction
    (d : Decision) (permit : Option Permit) {k : String}
    (hk : k ∈ ["capability_id", "effect_class", "action_type"]) :
    PyVal.getItem (d.boundAction permit) k = PyVal.getItem d.content k := by
  have hfields : k ≠ "hal_arbitration_ref" ∧ k ≠ "soar_run_ref" ∧
      k ≠ "soar_binding" ∧ k ≠ "governance_trace_refs" ∧ k ≠ "permit_ref" := by
    rcases List.mem_cons.mp hk with rfl | hk
    · decide
    · rcases List.mem_pair.mp hk with rfl | rfl <;> decide
  obtain ⟨h₁, h₂, h₃, h₄, h₅⟩ := hfields
  have haction : PyVal.getItem d.action k = PyVal.getItem d.content k := by
    unfold Decision.action decidedAction
    cases d.soarRun with
    | none => simp only [PyVal.getItem_setItem, if_neg h₁, if_neg h₄]
    | some run =>
        simp only [PyVal.getItem_setItem, if_neg h₁, if_neg h₂, if_neg h₃,
          if_neg h₄]
  cases permit with
  | none => exact haction
  | some permit =>
      simp only [Decision.boundAction, permittedAction, PyVal.getItem_setItem,
        if_neg h₄, if_neg h₅, haction]

theorem permit_ref_boundAction
    (d : Decision) (permit : Option Permit) :
    PyVal.getItem (d.boundAction permit) "permit_ref" =
      match permit with
      | some permit => .str permit.permitId
      | none => PyVal.getItem d.content "permit_ref" := by
  cases permit with
  | none =>
      unfold Decision.boundAction Decision.action decidedAction
      cases d.soarRun with
      | none => simp [PyVal.getItem_setItem]
      | some run => simp [PyVal.getItem_setItem]
  | some permit =>
      simp [Decision.boundAction, permittedAction, PyVal.getItem_setItem]

theorem governance_trace_refs_boundAction
    (d : Decision) (permit : Option Permit) :
    ∃ refs, PyVal.item? (d.boundAction permit) "governance_trace_refs" =
      some (.ofStrings refs) := by
  cases permit with
  | none =>
      simp only [Decision.boundAction, Decision.action, decidedAction,
        PyVal.item?_setItem]
      exact ⟨_, rfl⟩
  | some permit =>
      simp only [Decision.boundAction, permittedAction, PyVal.item?_setItem]
      exact ⟨_, rfl⟩

/-! ## The pair that the kernel resolves -/

/-- The content names both a capability and an effect class. -/
def NamesPair (host : Host) (content : List (String × PyVal)) : Prop :=
  host.strOr (PyVal.getItem content "capability_id") "" ≠ "" ∧
    host.strOr (PyVal.getItem content "effect_class") "" ≠ ""

instance (host : Host) (content : List (String × PyVal)) :
    Decidable (NamesPair host content) :=
  inferInstanceAs (Decidable (_ ∧ _))

def actionTypeOf (host : Host) (content : List (String × PyVal)) : String :=
  host.strOr (PyVal.getItem content "action_type") ""

def boundPairs : List (String × String) :=
  [("cap.oea_stub_log", "audit_log"),
    ("cap.memory_write_stub", "derived_store"),
    ("cap.external_write_scaffold", "external_write"),
    ("local_report_file.write", "local_report")]

theorem registered_iff (pair : String × String) :
    Registered pair ↔ pair ∈ boundPairs := by
  constructor
  · rintro ⟨capability, hlookup, hallowed, heffect⟩
    have hid := capabilityId_of_lookupCapability hlookup
    have hmem : capability ∈ capabilityRegistry :=
      List.mem_of_find?_eq_some hlookup
    have hpair : pair = (capability.capabilityId, capability.effectClass) :=
      Prod.ext hid.symm heffect.symm
    have hall : ∀ c ∈ capabilityRegistry, c.bindAllowed = true →
        (c.capabilityId, c.effectClass) ∈ boundPairs := by decide
    rw [hpair]
    exact hall capability hmem hallowed
  · intro hmem
    have hall : ∀ q ∈ boundPairs, ∃ c ∈ capabilityRegistry,
        lookupCapability q.1 = some c ∧ c.bindAllowed = true ∧
          c.effectClass = q.2 := by decide
    obtain ⟨capability, -, hcapability⟩ := hall pair hmem
    exact ⟨capability, hcapability⟩

theorem strOr_of_ne {v : PyVal} (h : host.strOr v "" ≠ "") (text : String) :
    host.strOr v text = host.strOr v "" := by
  unfold Host.strOr at h ⊢
  split_ifs at h ⊢
  · rfl
  · exact absurd rfl h

theorem strOr_of_eq {v : PyVal} (h : host.strOr v "" = "") (text : String) :
    host.strOr v text = text ∨ host.strOr v text = "" := by
  unfold Host.strOr at h ⊢
  split_ifs at h ⊢
  · exact Or.inr h
  · exact Or.inl rfl

theorem resolveCapabilityForAction_of_namesPair
    (h : NamesPair host content) :
    resolveCapabilityForAction host content = arbitratedPair host content := by
  have hboth := h
  unfold NamesPair at hboth
  rw [arbitratedPair, strOr_of_ne h.1, strOr_of_ne h.2]
  simp only [resolveCapabilityForAction, if_pos hboth]

theorem arbitratedPair_of_not_namesPair
    (hregistered : Registered (arbitratedPair host content))
    (h : ¬ NamesPair host content) :
    arbitratedPair host content = ("cap.oea_stub_log", "audit_log") := by
  rw [registered_iff] at hregistered
  have hcapability : ∀ q ∈ boundPairs, q.1 = "cap.oea_stub_log" ∨ q.1 = "" →
      q = ("cap.oea_stub_log", "audit_log") := by decide
  have heffect : ∀ q ∈ boundPairs, q.2 = "audit_log" ∨ q.2 = "" →
      q = ("cap.oea_stub_log", "audit_log") := by decide
  rw [NamesPair, not_and_or, not_not, not_not] at h
  rcases h with hnone | hnone
  · exact hcapability _ hregistered (strOr_of_eq hnone _)
  · exact heffect _ hregistered (strOr_of_eq hnone _)

/-- What the kernel resolves when the pair is not named in full: the default of
the action type, or a pair that is not registered. -/
theorem resolveCapabilityForAction_of_not_namesPair
    (h : ¬ NamesPair host content) :
    (∃ pair, actionCapabilityDefaults.lookup (actionTypeOf host content) =
        some pair ∧ resolveCapabilityForAction host content = pair) ∨
      actionCapabilityDefaults.lookup (actionTypeOf host content) = none ∧
        ¬ Registered (resolveCapabilityForAction host content) := by
  have hboth := h
  unfold NamesPair at hboth
  simp only [resolveCapabilityForAction, if_neg hboth, actionTypeOf]
  cases hdefault : actionCapabilityDefaults.lookup
      (host.strOr (PyVal.getItem content "action_type") "") with
  | some pair => exact Or.inl ⟨pair, rfl, rfl⟩
  | none =>
      refine Or.inr ⟨rfl, ?_⟩
      rw [registered_iff]
      intro hmem
      have hcapability : ∀ q ∈ boundPairs, q.1 ≠ "cap.unknown" := by decide
      have heffect : ∀ q ∈ boundPairs, q.2 ≠ "unknown" := by decide
      rw [NamesPair, not_and_or, not_not, not_not] at h
      rcases h with hnone | hnone
      · apply hcapability _ hmem
        simp [orText, hnone]
      · apply heffect _ hmem
        simp [orText, hnone]

theorem denyReason_eq_none_iff (request : CommitScaffold.ExecutionRequest) :
    CommitScaffold.denyReason request = none ↔
      Registered (request.requiredCapability, request.effectClass) ∧
        (effectRequiresPermit request.effectClass = true →
          request.permitRef.truthy = true) := by
  unfold CommitScaffold.denyReason Registered
  cases lookupCapability request.requiredCapability with
  | none => simp
  | some capability =>
      by_cases heffect : capability.effectClass = request.effectClass
      · by_cases hallowed : capability.bindAllowed = true
        · simp [heffect, hallowed]
        · simp [heffect, hallowed]
      · simp [heffect]

/-! ## What the decision handler drafts -/

theorem bindResultToDrafts_isDecision
    (host : Host) (result : BindResult) :
    (bindResultToDrafts host result).filter Draft.isDecision = [] := by
  obtain ⟨outcome, record⟩ := result
  cases outcome <;> cases record <;> rfl

theorem soarRunDrafts_isDecision (run : SoarRun) (causalParents : List String) :
    (soarRunDrafts run causalParents).filter Draft.isDecision = [] := by
  simp [soarRunDrafts, Draft.isDecision, List.filter_eq_nil_iff]

theorem Decides.registered {d : Decision}
    (h : Decides env tick b proposal d) :
    Registered (arbitratedPair env.host d.content) := by
  obtain ⟨content, candidate, hcontent, hsole, hpair⟩ :=
    requestFromProposal_ok h.requested
  obtain rfl : d.content = content :=
    Except.ok.inj (h.content.symm.trans hcontent)
  obtain ⟨hreason, -⟩ := arbitrate_sole hsole h.accepted
  rw [← hpair]
  exact registered_of_rejectReason hreason

theorem arbitratedPair_action (host : Host) (d : Decision) :
    arbitratedPair host d.action = arbitratedPair host d.content := by
  have hcapability := getItem_boundAction d none (k := "capability_id") (by simp)
  have heffect := getItem_boundAction d none (k := "effect_class") (by simp)
  simp only [Decision.boundAction] at hcapability heffect
  unfold arbitratedPair
  rw [hcapability, heffect]

theorem denyReason_bindRequestFor {action : List (String × PyVal)}
    {result : ArbitrationResult}
    (hregistered : Registered (arbitratedPair env.host action))
    (haccept : result.routing = .accept) :
    PermitBinder.denyReason (bindRequestFor env proposal action result) =
      none := by
  obtain ⟨capability, hlookup, hallowed, heffect⟩ := hregistered
  have hdecision : lookupDecision "dec_hal_accept" =
      some ⟨"dec_hal_accept", "allow", none⟩ := by decide
  unfold PermitBinder.denyReason
  simp [bindRequestFor, decisionRefForResult, haccept, hdecision, hlookup,
    hallowed, heffect]

theorem gppDrafts_ends
    (b : BinderState) (d : Decision)
    (hregistered : Registered (arbitratedPair env.host d.content))
    (haccept : (arbitrate d.request).routing = .accept) :
    Ends (gppDrafts env proposal d.action (arbitrate d.request)) b
      (fun out _ => ∃ record, permitAnswer env b
          (bindRequestFor env proposal d.action (arbitrate d.request)) =
          .ok record ∧
        out.1.filter Draft.isDecision = [] ∧
        out.2 = d.boundAction
          ({ d with record := record }.permit env b proposal))
      (fun e _ => permitAnswer env b
        (bindRequestFor env proposal d.action (arbitrate d.request)) =
        .error e) := by
  unfold gppDrafts permitAnswer Decision.permit
  cases env.binder with
  | none => exact ends_pure ⟨none, rfl, rfl, rfl⟩
  | some binder =>
      rw [← arbitratedPair_action] at hregistered
      have hallowed : PermitBinder.denyReason (bindRequestFor env proposal
          d.action (arbitrate d.request)) = none :=
        denyReason_bindRequestFor hregistered haccept
      obtain ⟨capability, hlookup, -, heffect⟩ := hregistered
      have hdescriptor : descriptorFor
          (bindRequestFor env proposal d.action
            (arbitrate d.request)).capabilityId =
          .ok (capability.capabilityId, capability.effectClass) := by
        unfold descriptorFor bindRequestFor
        rw [hlookup]
      have hid := capabilityId_of_lookupCapability hlookup
      dsimp only
      rw [hdescriptor]
      apply ends_bind
      apply ends_pure
      apply ends_bind
      refine ends_mono
        (PermitBinder.bind_ends b hid.symm heffect.symm hallowed) ?_
        (fun _ _ h => h)
      rintro bound t ⟨record, hanswer, hpermit⟩
      rw [hpermit]
      cases record with
      | none =>
          exact ends_pure
            ⟨none, hanswer, bindResultToDrafts_isDecision _ _, rfl⟩
      | some record =>
          exact ends_pure
            ⟨some record, hanswer, bindResultToDrafts_isDecision _ _, rfl⟩

def Decision.draft
    (d : Decision) (env : HandlerEnv) (b : BinderState) (proposal : Event) :
    Draft :=
  decisionDraft env proposal d.proposalId (arbitrate d.request) d.soarRun
    (d.boundAction (d.permit env b proposal))

theorem acceptProposal_ends
    (b : BinderState) {soarRun : Option SoarRun}
    {request : ArbitrationRequest}
    (hcandidate : isCandidateAction proposal = true)
    (hsoar : deliberate env tick proposal = .ok soarRun)
    (hrequest : halRequest env tick proposal soarRun = .ok request)
    (haccept : (arbitrate request).routing = .accept) :
    Ends (acceptProposal env proposal (arbitrate request) soarRun) b
      (fun drafts _ => ∃ d, Decides env tick b proposal d ∧
        drafts.filter Draft.isDecision = [d.draft env b proposal])
      (fun _ _ => ∀ d, ¬ Decides env tick b proposal d) := by
  obtain ⟨content, candidate, hcontent, hsole, hpair⟩ :=
    requestFromProposal_ok hrequest
  have hregistered : Registered (arbitratedPair env.host content) := by
    obtain ⟨hreason, -⟩ := arbitrate_sole hsole haccept
    rw [← hpair]
    exact registered_of_rejectReason hreason
  -- The decision as far as it is known before the permit is bound.
  let known : Decision := ⟨soarRun, request, content, none, .none⟩
  have hknown {d : Decision} (h : Decides env tick b proposal d) :
      d.action = known.action ∧ d.request = request := by
    have hsame : d.soarRun = soarRun :=
      Except.ok.inj (h.deliberated.symm.trans hsoar)
    have hrequested := h.requested
    rw [hsame] at hrequested
    have hreq : d.request = request :=
      Except.ok.inj (hrequested.symm.trans hrequest)
    have hcont : d.content = content :=
      Except.ok.inj (h.content.symm.trans hcontent)
    refine ⟨?_, hreq⟩
    unfold Decision.action
    rw [hsame, hreq, hcont]
  unfold acceptProposal
  rw [hcontent]
  apply ends_bind
  apply ends_pure
  apply ends_bind
  refine ends_mono (gppDrafts_ends b known hregistered haccept) ?_ ?_
  · rintro ⟨drafts, action⟩ t ⟨record, hanswer, hdrafts, rfl⟩
    apply ends_bind
    apply ends_raising
    · intro proposalId hid
      refine ends_pure ⟨⟨soarRun, request, content, record, proposalId⟩,
        ⟨hcandidate, hsoar, hrequest, haccept, hcontent, hanswer, hid⟩, ?_⟩
      rw [List.filter_append, hdrafts]
      rfl
    · intro e hmissing d hd
      rw [hd.identified] at hmissing
      cases hmissing
  · intro e t hraised d hd
    obtain ⟨haction, hreq⟩ := hknown hd
    have hanswered := hd.answered
    rw [haction, hreq, hraised] at hanswered
    cases hanswered

/-- The handler drafts one decision event for a proposal that it decides on and
none for any other. -/
theorem evaluateProposal_ends
    (env : HandlerEnv) (tick : Tick) (b : BinderState) (proposal : Event) :
    Ends (evaluateProposal env tick proposal) b
      (fun drafts _ =>
        (∃ d, Decides env tick b proposal d ∧
          drafts.filter Draft.isDecision = [d.draft env b proposal]) ∨
        (∀ d, ¬ Decides env tick b proposal d) ∧
          drafts.filter Draft.isDecision = [])
      (fun _ _ => ∀ d, ¬ Decides env tick b proposal d) := by
  unfold evaluateProposal
  split_ifs with hkind
  · refine ends_pure (Or.inr ⟨fun d hd => ?_, rfl⟩)
    rw [hd.candidate] at hkind
    cases hkind
  · have hcandidate : isCandidateAction proposal = true := by simpa using hkind
    apply ends_bind
    apply ends_raising
    · intro soarRun hsoar
      dsimp only
      apply ends_bind
      apply ends_raising
      · intro request hrequest
        have hfirst : ((soarRun.toList.flatMap fun run =>
            soarRunDrafts run [proposal.eventId]) ++
            [arbitrationRequestedDraft request [proposal.eventId],
              arbitrationRecordedDraft env.host (arbitrate request)
                [proposal.eventId]]).filter Draft.isDecision = [] := by
          rw [List.filter_append]
          cases soarRun with
          | none => rfl
          | some run =>
              simp only [Option.toList_some, List.flatMap_singleton,
                soarRunDrafts_isDecision]
              rfl
        have hrouting {d : Decision} (hd : Decides env tick b proposal d) :
            (arbitrate request).routing = .accept := by
          have hrequested := hd.requested
          rw [Except.ok.inj (hd.deliberated.symm.trans hsoar),
            hrequest] at hrequested
          rw [Except.ok.inj hrequested]
          exact hd.accepted
        cases haccept : (arbitrate request).routing with
        | accept =>
            apply ends_bind
            refine ends_mono
              (acceptProposal_ends b hcandidate hsoar hrequest haccept) ?_
              (fun _ _ h => h)
            rintro decided t ⟨d, hd, hdecided⟩
            refine ends_pure (Or.inl ⟨d, hd, ?_⟩)
            rw [List.filter_append, hfirst, hdecided, List.nil_append]
        | reject =>
            refine ends_pure (Or.inr ⟨fun d hd => ?_, ?_⟩)
            · rw [hrouting hd] at haccept
              cases haccept
            · rw [List.filter_append, hfirst]
              rfl
        | defer =>
            refine ends_pure (Or.inr ⟨fun d hd => ?_, ?_⟩)
            · rw [hrouting hd] at haccept
              cases haccept
            · rw [List.filter_append, hfirst]
              rfl
        | noOp =>
            refine ends_pure (Or.inr ⟨fun d hd => ?_, hfirst⟩)
            rw [hrouting hd] at haccept
            cases haccept
      · intro e hraised d hd
        have hrequested := hd.requested
        rw [Except.ok.inj (hd.deliberated.symm.trans hsoar),
          hraised] at hrequested
        cases hrequested
    · intro e hraised d hd
      rw [hd.deliberated] at hraised
      cases hraised

/-! ## What the kernel makes of the drafts -/

theorem resolveCapabilityForAction_boundAction
    (host : Host) (d : Decision) (permit : Option Permit) :
    resolveCapabilityForAction host (d.boundAction permit) =
      resolveCapabilityForAction host d.content := by
  unfold resolveCapabilityForAction
  rw [getItem_boundAction d permit (by simp),
    getItem_boundAction d permit (by simp),
    getItem_boundAction d permit (by simp)]

theorem requestFromDecision_draft
    (env : HandlerEnv) (d : Decision) (b : BinderState) (proposal : Event) (id : String) :
    ∃ request, CommitScaffold.requestFromDecision env.host
        ((d.draft env b proposal).emitted id) = .ok request ∧
      (request.requiredCapability, request.effectClass) =
        resolveCapabilityForAction env.host d.content ∧
      request.permitRef = PyVal.getItem
        (d.boundAction (d.permit env b proposal)) "permit_ref" := by
  obtain ⟨refs, hrefs⟩ :=
    governance_trace_refs_boundAction d (d.permit env b proposal)
  have haction : copyItems ((d.draft env b proposal).emitted id).payload
      "action" = .ok (d.boundAction (d.permit env b proposal)) := by
    rfl
  unfold CommitScaffold.requestFromDecision
  simp only [haction, bind, Except.bind, hrefs,
    resolveCapabilityForAction_boundAction, PyVal.ofStrings,
    CommitScaffold.traceRefTexts, pure, Except.pure]
  exact ⟨_, rfl, rfl, rfl⟩

/-- A decision draft from which the kernel can read a request. -/
def Executable (host : Host) (draft : Draft) : Prop :=
  ∀ id, ∃ request,
    CommitScaffold.requestFromDecision host (draft.emitted id) = .ok request

theorem kernelExecute_committed
    {decisions : List Event}
    (h : ∀ decision ∈ decisions, decision.type = "DECISION_EVENT" ∧ ∃ request,
      CommitScaffold.requestFromDecision env.host decision = .ok request)
    (kernel : CommitScaffold) :
    (finalState (kernelExecute env decisions) kernel).committedRequests =
      kernel.committedRequests ++
        decisions.flatMap (CommitScaffold.commitsOf env.host kernel) := by
  have hends : Ends (kernelExecute env decisions) kernel
      (fun _ t => t.committedRequests = kernel.committedRequests ++
        decisions.flatMap (CommitScaffold.commitsOf env.host kernel))
      (fun _ t => t.committedRequests = kernel.committedRequests ++
        decisions.flatMap (CommitScaffold.commitsOf env.host kernel)) := by
    unfold kernelExecute
    apply ends_bind
    refine ends_mono (CommitScaffold.execute_ends h kernel) ?_
      (fun _ _ hfalse => hfalse.elim)
    rintro drafts t ⟨-, hcommitted⟩
    dsimp only
    split_ifs
    · exact ends_pure hcommitted
    · apply ends_bind
      apply ends_raising
      · intro oeaDrafts _
        exact ends_pure hcommitted
      · intro e _
        exact hcommitted
  rcases hends.cases with ⟨-, -, hcommitted⟩ | ⟨-, -, hcommitted⟩
  · exact hcommitted
  · exact hcommitted

theorem executeDecisions_committed
    (h : ∀ draft ∈ drafts.filter Draft.isDecision, Executable env.host draft)
    (kernel : CommitScaffold) :
    (executeDecisions env eventIds kernel drafts).committedRequests =
      kernel.committedRequests ++
        ((emitDrafts eventIds 0 drafts).filter Event.isDecision).flatMap
          (CommitScaffold.commitsOf env.host kernel) := by
  unfold executeDecisions
  dsimp only
  split_ifs with hempty
  · rw [List.isEmpty_iff.mp hempty, List.flatMap_nil, List.append_nil]
  · apply kernelExecute_committed
    intro decision hdecision
    obtain ⟨hmem, htype⟩ := List.mem_filter.mp hdecision
    obtain ⟨draft, hdraft, id, rfl⟩ := mem_emitDrafts hmem
    exact ⟨by simpa [Event.isDecision] using htype,
      h draft (List.mem_filter.mpr ⟨hdraft, htype⟩) id⟩

theorem filter_emitDrafts_nil
    {i : ℕ → String} {n : ℕ}
    (h : drafts.filter Draft.isDecision = []) :
    (emitDrafts i n drafts).filter Event.isDecision = [] := by
  rw [List.filter_eq_nil_iff] at h ⊢
  intro event hevent
  obtain ⟨draft, hdraft, id, rfl⟩ := mem_emitDrafts hevent
  exact h draft hdraft

theorem filter_emitDrafts_sole
    {i : ℕ → String} {n : ℕ} {decision : Draft}
    (h : drafts.filter Draft.isDecision = [decision]) :
    ∃ id, (emitDrafts i n drafts).filter Event.isDecision =
      [decision.emitted id] := by
  induction drafts generalizing n with
  | nil => cases h
  | cons draft drafts ih =>
      by_cases htype : draft.isDecision = true
      · have hevent : (draft.emitted (i n)).isDecision = true := htype
        rw [List.filter_cons_of_pos htype, List.cons.injEq] at h
        refine ⟨i n, ?_⟩
        rw [emitDrafts, List.filter_cons_of_pos hevent,
          filter_emitDrafts_nil h.2, h.1]
      · have hevent : ¬ (draft.emitted (i n)).isDecision = true := htype
        rw [List.filter_cons_of_neg htype] at h
        obtain ⟨id, hid⟩ := ih (n := n + 1) h
        refine ⟨id, ?_⟩
        rw [emitDrafts, List.filter_cons_of_neg hevent, hid]

theorem executable_of_evaluateProposal
    (h : outcome (evaluateProposal env tick proposal) b = .ok drafts) :
    ∀ draft ∈ drafts.filter Draft.isDecision, Executable env.host draft := by
  rcases (evaluateProposal_ends env tick b proposal).cases with
    ⟨drafts', hok, hdrafts⟩ | ⟨e, herror, -⟩
  · obtain rfl := Except.ok.inj (hok.symm.trans h)
    rcases hdrafts with ⟨d, -, hsole⟩ | ⟨-, hnone⟩
    · intro draft hdraft id
      rw [hsole, List.mem_singleton] at hdraft
      obtain ⟨request, hrequest, -⟩ :=
        requestFromDecision_draft env d b proposal id
      exact ⟨request, hdraft ▸ hrequest⟩
    · rw [hnone]
      intro draft hdraft
      cases hdraft
  · rw [h] at herror
    cases herror

/-! ## Batches -/

theorem newCommits_of_ok {proposals : List Event}
    (h : outcome (evaluate env tick proposals) s.binder = .ok drafts)
    (hexecutable : ∀ draft ∈ drafts.filter Draft.isDecision,
      Executable env.host draft) :
    newCommits env eventIds tick s proposals =
      ((emitDrafts eventIds 0 drafts).filter Event.isDecision).flatMap
        (CommitScaffold.commitsOf env.host s.kernel) := by
  unfold newCommits decideAndExecute
  simp only [h, executeDecisions_committed hexecutable]
  exact List.drop_left

theorem newCommits_of_error {proposals : List Event} {e : PyError}
    (h : outcome (evaluate env tick proposals) s.binder = .error e) :
    newCommits env eventIds tick s proposals = [] := by
  unfold newCommits decideAndExecute
  simp only [h, List.drop_length]

theorem newCommits_sole_of_ok
    (hhal : env.halEnabled = true)
    (h : outcome (evaluateProposal env tick proposal) s.binder = .ok drafts) :
    newCommits env eventIds tick s [proposal] =
      ((emitDrafts eventIds 0 drafts).filter Event.isDecision).flatMap
        (CommitScaffold.commitsOf env.host s.kernel) := by
  apply newCommits_of_ok _ (executable_of_evaluateProposal h)
  have hends : Ends (evaluate env tick [proposal]) s.binder
      (fun out _ => out = drafts) (fun _ _ => False) := by
    unfold evaluate
    rw [hhal]
    simp only [Bool.not_true, Bool.false_eq_true, if_false, collect]
    apply ends_bind
    refine ends_mono ends_outcome ?_ ?_
    · rintro first t ⟨hfirst, -⟩
      obtain rfl := Except.ok.inj (hfirst.symm.trans h)
      apply ends_bind
      apply ends_pure
      exact ends_pure (List.append_nil _)
    · rintro e t ⟨hraised, -⟩
      rw [h] at hraised
      cases hraised
  rcases hends.cases with ⟨out, hout, rfl⟩ | ⟨-, -, hfalse⟩
  · exact hout
  · exact hfalse.elim

/-! ## Committed as arbitrated -/

/-- The binder issues the permit in the decision on the proposal. -/
def IssuesPermit
    (env : HandlerEnv) (tick : Tick) (b : BinderState) (proposal : Event)
    (permit : Permit) : Prop :=
  ∃ soarRun request content binder descriptor bound,
    deliberate env tick proposal = .ok soarRun ∧
      halRequest env tick proposal soarRun = .ok request ∧
      copyItems proposal.payload "content" = .ok content ∧
      env.binder = some binder ∧
      let result := arbitrate request
      let bindRequest := bindRequestFor env proposal
        (decidedAction content result soarRun) result
      descriptorFor bindRequest.capabilityId = .ok descriptor ∧
        outcome (binder.bind env.host bindRequest descriptor none "gpp-bind"
          "gpp-phase1") b = .ok bound ∧
        bound.permit = some permit

/-- An execution is committed as it was arbitrated and permitted. -/
structure AsArbitrated
    (env : HandlerEnv) (tick : Tick) (b : BinderState) (proposal : Event)
    (request : CommitScaffold.ExecutionRequest) : Prop where
  arbitrated : ∃ soarRun halReq candidate,
    deliberate env tick proposal = .ok soarRun ∧
      halRequest env tick proposal soarRun = .ok halReq ∧
      (arbitrate halReq).routing = .accept ∧
      candidate ∈ halReq.candidates ∧
      (arbitrate halReq).selectedCandidateRef = some candidate.actionRef ∧
      (request.requiredCapability, request.effectClass) =
        (candidate.capabilityId, candidate.effectClass)
  permitted : effectRequiresPermit request.effectClass = true →
    ∃ permit, IssuesPermit env tick b proposal permit ∧
      request.permitRef = .str permit.permitId ∧
      (permit.capabilityId, permit.effectClass) =
        (request.requiredCapability, request.effectClass)

/-- The contents on which the stages come apart, given whether the trace emitter
records a permit.  With the pair named, it is a permit reference that the
content brings along itself; otherwise it is an action type with a default of
its own in the kernel. -/
def Diverges
    (host : Host) (content : List (String × PyVal)) (recorded : Bool) : Prop :=
  if NamesPair host content then
    effectRequiresPermit (arbitratedPair host content).2 = true ∧
      (PyVal.getItem content "permit_ref").truthy = true ∧ recorded = false
  else
    actionTypeOf host content = "memory_write_stub" ∨
      actionTypeOf host content = "local_report_file_write" ∨
      actionTypeOf host content = "external_write_scaffold" ∧
        (recorded = true ∨
          (PyVal.getItem content "permit_ref").truthy = true)

section Decided

variable {b : BinderState} {proposal : Event} {d : Decision}

theorem Decides.permit_isSome (h : Decides env tick b proposal d) :
    (d.permit env b proposal).isSome = d.record.isSome := by
  have hanswered := h.answered
  unfold permitAnswer at hanswered
  unfold Decision.permit
  cases hbinder : env.binder with
  | none =>
      rw [hbinder] at hanswered
      rw [← Except.ok.inj hanswered]
      rfl
  | some binder => exact Option.isSome_map

theorem pair_of_permit
    {permit : Permit} (h : d.permit env b proposal = some permit) :
    (permit.capabilityId, permit.effectClass) =
      arbitratedPair env.host d.content := by
  unfold Decision.permit at h
  cases hbinder : env.binder with
  | none =>
      rw [hbinder] at h
      cases h
  | some binder =>
      rw [hbinder] at h
      obtain ⟨record, -, rfl⟩ := Option.map_eq_some_iff.mp h
      rw [← arbitratedPair_action]
      rfl

theorem permitId_ne
    {permit : Permit} (h : d.permit env b proposal = some permit) :
    permit.permitId ≠ "" := by
  unfold Decision.permit at h
  cases hbinder : env.binder with
  | none =>
      rw [hbinder] at h
      cases h
  | some binder =>
      rw [hbinder] at h
      obtain ⟨record, -, rfl⟩ := Option.map_eq_some_iff.mp h
      intro hempty
      have hlist := congrArg String.toList hempty
      rw [PermitBinder.issued, String.toList_append] at hlist
      cases (List.append_eq_nil_iff.mp hlist).1

theorem Decides.issuesPermit_iff
    (h : Decides env tick b proposal d) (permit : Permit) :
    IssuesPermit env tick b proposal permit ↔
      d.permit env b proposal = some permit := by
  have hregistered := h.registered
  rw [← arbitratedPair_action] at hregistered
  have hallowed : PermitBinder.denyReason (bindRequestFor env proposal
      d.action (arbitrate d.request)) = none :=
    denyReason_bindRequestFor hregistered h.accepted
  obtain ⟨capability, hlookup, -, heffect⟩ := hregistered
  have hdescriptor : descriptorFor (bindRequestFor env proposal d.action
      (arbitrate d.request)).capabilityId =
      .ok (capability.capabilityId, capability.effectClass) := by
    unfold descriptorFor bindRequestFor
    rw [hlookup]
  have hid := capabilityId_of_lookupCapability hlookup
  have hanswered := h.answered
  -- Binding ends with the permit of the decision.
  have hbound : ∀ binder, env.binder = some binder → ∃ bound,
      outcome (binder.bind env.host (bindRequestFor env proposal d.action
        (arbitrate d.request)) (capability.capabilityId, capability.effectClass)
        none "gpp-bind" "gpp-phase1") b = .ok bound ∧
      bound.permit = d.permit env b proposal := by
    intro binder hbinder
    unfold permitAnswer at hanswered
    rw [hbinder] at hanswered
    have hends : Ends (binder.bind env.host (bindRequestFor env proposal
        d.action (arbitrate d.request))
        (capability.capabilityId, capability.effectClass) none "gpp-bind"
        "gpp-phase1") b _ _ :=
      PermitBinder.bind_ends b hid.symm heffect.symm hallowed
    rcases hends.cases with ⟨bound, hbound, record, hrecord, hpermit⟩ |
      ⟨e, -, hraised⟩
    · obtain rfl := Except.ok.inj (hrecord.symm.trans hanswered)
      refine ⟨bound, hbound, ?_⟩
      rw [hpermit, Decision.permit, hbinder]
    · cases hraised.symm.trans hanswered
  constructor
  · rintro ⟨soarRun, request, content, binder, descriptor, bound, hsoar,
      hrequest, hcontent, hbinder, hdescribed, houtcome, hpermit⟩
    obtain rfl := Except.ok.inj (h.deliberated.symm.trans hsoar)
    obtain rfl := Except.ok.inj (h.requested.symm.trans hrequest)
    obtain rfl := Except.ok.inj (h.content.symm.trans hcontent)
    obtain rfl := Except.ok.inj (hdescriptor.symm.trans hdescribed)
    obtain ⟨bound', houtcome', hpermit'⟩ := hbound binder hbinder
    obtain rfl := Except.ok.inj (houtcome'.symm.trans houtcome)
    rw [← hpermit', hpermit]
  · intro hpermit
    cases hbinder : env.binder with
    | none =>
        rw [Decision.permit, hbinder] at hpermit
        cases hpermit
    | some binder =>
        obtain ⟨bound, houtcome, hbinds⟩ := hbound binder hbinder
        exact ⟨d.soarRun, d.request, d.content, binder, _, bound, h.deliberated,
          h.requested, h.content, hbinder, hdescriptor, houtcome,
          hbinds.trans hpermit⟩

/-- A committed execution agrees with the decision on the pair and, where one
is needed, on the permit. -/
theorem Decides.asArbitrated_iff
    (h : Decides env tick b proposal d) (request : CommitScaffold.ExecutionRequest) :
    AsArbitrated env tick b proposal request ↔
      (request.requiredCapability, request.effectClass) =
        arbitratedPair env.host d.content ∧
      (effectRequiresPermit request.effectClass = true → ∃ permit,
        d.permit env b proposal = some permit ∧
          request.permitRef = .str permit.permitId) := by
  obtain ⟨content, candidate, hcontent, hsole, hcandidate⟩ :=
    requestFromProposal_ok h.requested
  obtain rfl : d.content = content :=
    Except.ok.inj (h.content.symm.trans hcontent)
  constructor
  · rintro ⟨⟨soarRun, halReq, candidate', hsoar, hrequest, -, hmem, -, hpair⟩,
      hpermitted⟩
    obtain rfl := Except.ok.inj (h.deliberated.symm.trans hsoar)
    obtain rfl := Except.ok.inj (h.requested.symm.trans hrequest)
    rw [hsole, List.mem_singleton] at hmem
    refine ⟨?_, fun hneeds => ?_⟩
    · rw [hpair, hmem, hcandidate]
    · obtain ⟨permit, hissued, href, -⟩ := hpermitted hneeds
      exact ⟨permit, (h.issuesPermit_iff permit).mp hissued, href⟩
  · rintro ⟨hpair, hpermitted⟩
    refine ⟨⟨d.soarRun, d.request, candidate, h.deliberated, h.requested,
      h.accepted, ?_, (arbitrate_sole hsole h.accepted).2, ?_⟩,
      fun hneeds => ?_⟩
    · rw [hsole]
      exact List.mem_singleton_self candidate
    · rw [hpair, hcandidate]
    · obtain ⟨permit, hpermit, href⟩ := hpermitted hneeds
      refine ⟨permit, (h.issuesPermit_iff permit).mpr hpermit, href, ?_⟩
      rw [pair_of_permit hpermit, hpair]

/-- The permit reference of the executed action is not empty exactly if a permit
was recorded or the content brought one along. -/
theorem Decides.permit_ref_truthy
    (h : Decides env tick b proposal d) :
    (PyVal.getItem (d.boundAction (d.permit env b proposal))
        "permit_ref").truthy = true ↔
      d.record.isSome = true ∨
        (PyVal.getItem d.content "permit_ref").truthy = true := by
  rw [permit_ref_boundAction, ← h.permit_isSome]
  cases hpermit : d.permit env b proposal with
  | none => simp
  | some permit => simp [PyVal.truthy, permitId_ne hpermit]

theorem Decides.commits_named_iff
    (h : Decides env tick b proposal d) {request : CommitScaffold.ExecutionRequest}
    (hpair : (request.requiredCapability, request.effectClass) =
      resolveCapabilityForAction env.host d.content)
    (href : request.permitRef = PyVal.getItem
      (d.boundAction (d.permit env b proposal)) "permit_ref")
    (hnames : NamesPair env.host d.content) :
    (CommitScaffold.denyReason request = none →
      AsArbitrated env tick b proposal request) ↔
      ¬ Diverges env.host d.content d.record.isSome := by
  rw [resolveCapabilityForAction_of_namesPair hnames] at hpair
  have heffect : request.effectClass = (arbitratedPair env.host d.content).2 :=
    congrArg Prod.snd hpair
  rw [denyReason_eq_none_iff, h.asArbitrated_iff, hpair, href,
    h.permit_ref_truthy, heffect, Diverges, if_pos hnames]
  have hregistered := h.registered
  have hisSome := h.permit_isSome
  cases hpermit : d.permit env b proposal with
  | none =>
      rw [hpermit, Option.isSome_none] at hisSome
      by_cases hneeds :
          effectRequiresPermit (arbitratedPair env.host d.content).2 = true
      · simp [← hisSome, hregistered, hneeds]
      · simp [hneeds]
  | some permit =>
      rw [hpermit, Option.isSome_some] at hisSome
      simp [← hisSome, permit_ref_boundAction]

/-- Without it, arbitration binds the audit log and the kernel follows the
action type. -/
theorem Decides.commits_unnamed_iff
    (h : Decides env tick b proposal d) {request : CommitScaffold.ExecutionRequest}
    (hpair : (request.requiredCapability, request.effectClass) =
      resolveCapabilityForAction env.host d.content)
    (href : request.permitRef = PyVal.getItem
      (d.boundAction (d.permit env b proposal)) "permit_ref")
    (hnames : ¬ NamesPair env.host d.content) :
    (CommitScaffold.denyReason request = none →
      AsArbitrated env tick b proposal request) ↔
      ¬ Diverges env.host d.content d.record.isSome := by
  have harbitrated := arbitratedPair_of_not_namesPair h.registered hnames
  rw [denyReason_eq_none_iff, h.asArbitrated_iff, harbitrated, href,
    h.permit_ref_truthy, registered_iff, Diverges, if_neg hnames]
  rcases resolveCapabilityForAction_of_not_namesPair hnames with
    ⟨pair, hdefault, hresolved⟩ | ⟨hdefault, hunregistered⟩
  · rw [hresolved] at hpair
    have heffect : request.effectClass = pair.2 := congrArg Prod.snd hpair
    rw [hpair, heffect]
    generalize actionTypeOf env.host d.content = actionType at hdefault ⊢
    have hmem : (actionType, pair) ∈ actionCapabilityDefaults := by
      obtain ⟨l₁, l₂, hsplit, -⟩ := List.lookup_eq_some_iff.mp hdefault
      rw [hsplit]
      simp
    have hall : ∀ entry ∈ actionCapabilityDefaults,
        (entry.2 ∈ boundPairs ∧ entry.2 ≠ ("cap.oea_stub_log", "audit_log") ↔
          entry.1 = "memory_write_stub" ∨
          entry.1 = "local_report_file_write" ∨
          entry.1 = "external_write_scaffold") ∧
        (effectRequiresPermit entry.2.2 = true ↔
          entry.1 = "external_write_scaffold" ∨ entry.1 = "external_post") ∧
        (entry.2 = ("cap.oea_stub_log", "audit_log") →
          effectRequiresPermit entry.2.2 = false) := by decide
    obtain ⟨hbound, hneeds, haudit⟩ := hall _ hmem
    simp only at hbound hneeds haudit
    by_cases hpairs : pair ∈ boundPairs
    · by_cases hsame : pair = ("cap.oea_stub_log", "audit_log")
      · have hnot : ¬ (actionType = "memory_write_stub" ∨
            actionType = "local_report_file_write" ∨
            actionType = "external_write_scaffold") := fun hdiv =>
          (hbound.mpr hdiv).2 hsame
        have hfree := haudit hsame
        rw [not_or, not_or] at hnot
        subst hsame
        simp [hnot, hfree]
      · have hdiv := hbound.mp ⟨hpairs, hsame⟩
        rcases hdiv with hdiv | hdiv | hdiv
        · simp [hdiv, hpairs, hsame, hneeds]
        · simp [hdiv, hpairs, hsame, hneeds]
        · simp [hdiv, hpairs, hsame, hneeds]
    · have hnot : ¬ (actionType = "memory_write_stub" ∨
          actionType = "local_report_file_write" ∨
          actionType = "external_write_scaffold") := fun hdiv =>
        hpairs (hbound.mpr hdiv).1
      rw [not_or, not_or] at hnot
      simp [hpairs, hnot]
  · rw [registered_iff, ← hpair] at hunregistered
    have hnot : actionTypeOf env.host d.content ≠ "memory_write_stub" ∧
        actionTypeOf env.host d.content ≠ "local_report_file_write" ∧
        actionTypeOf env.host d.content ≠ "external_write_scaffold" := by
      refine ⟨?_, ?_, ?_⟩ <;>
      · intro heq
        rw [heq] at hdefault
        revert hdefault
        decide
    simp [hunregistered, hnot]

end Decided

/-- What a proposal alone in its batch commits: the request of its decision, if
there is one. -/
theorem newCommits_sole
    (hhal : env.halEnabled = true) (s : RtcState) (proposal : Event) :
    (∃ d request, Decides env tick s.binder proposal d ∧
      newCommits env eventIds tick s [proposal] = s.kernel.commitsTo request ∧
      (request.requiredCapability, request.effectClass) =
        resolveCapabilityForAction env.host d.content ∧
      request.permitRef = PyVal.getItem
        (d.boundAction (d.permit env s.binder proposal)) "permit_ref") ∨
    (∀ d, ¬ Decides env tick s.binder proposal d) ∧
      newCommits env eventIds tick s [proposal] = [] := by
  rcases (evaluateProposal_ends env tick s.binder proposal).cases with
    ⟨drafts, hok, hdrafts⟩ | ⟨e, herror, hnone⟩
  · rw [newCommits_sole_of_ok hhal hok]
    rcases hdrafts with ⟨d, hd, hsole⟩ | ⟨hnone, hempty⟩
    · left
      obtain ⟨id, hevents⟩ := filter_emitDrafts_sole (n := 0)
        (i := eventIds) hsole
      obtain ⟨request, hrequest, hpair, href⟩ :=
        requestFromDecision_draft env d s.binder proposal id
      refine ⟨d, request, hd, ?_, hpair, href⟩
      rw [hevents, List.flatMap_singleton, CommitScaffold.commitsOf, hrequest]
    · right
      rw [filter_emitDrafts_nil hempty]
      exact ⟨hnone, rfl⟩
  · right
    refine ⟨hnone, ?_⟩
    have hends : Ends (evaluate env tick [proposal]) s.binder
        (fun _ _ => False) (fun _ _ => True) := by
      unfold evaluate
      rw [hhal]
      simp only [Bool.not_true, Bool.false_eq_true, if_false, collect]
      apply ends_bind
      refine ends_mono ends_outcome ?_ (fun _ _ _ => trivial)
      rintro first t ⟨hfirst, -⟩
      rw [herror] at hfirst
      cases hfirst
    rcases hends.cases with ⟨-, -, hfalse⟩ | ⟨e, hraised, -⟩
    · exact hfalse.elim
    · exact newCommits_of_error hraised

/-- Everything that is committed for a proposal is committed as it was
arbitrated and permitted, unless the handler decides on the proposal, the kernel
is not blocked, and the content is one on which the stages come apart. -/
theorem commits_asArbitrated_iff
    (hhal : env.halEnabled = true) (s : RtcState) (proposal : Event) :
    (∀ request ∈ newCommits env eventIds tick s [proposal],
      AsArbitrated env tick s.binder proposal request) ↔
    ¬ (s.kernel.blocked = false ∧ ∃ d, Decides env tick s.binder proposal d ∧
      Diverges env.host d.content d.record.isSome) := by
  rcases newCommits_sole hhal s proposal with
    ⟨d, request, hd, hcommits, hpair, href⟩ | ⟨hnone, hcommits⟩
  · have hagree : (CommitScaffold.denyReason request = none →
        AsArbitrated env tick s.binder proposal request) ↔
        ¬ Diverges env.host d.content d.record.isSome := by
      by_cases hnames : NamesPair env.host d.content
      · exact hd.commits_named_iff hpair href hnames
      · exact hd.commits_unnamed_iff hpair href hnames
    have honly : (∃ d', Decides env tick s.binder proposal d' ∧
        Diverges env.host d'.content d'.record.isSome) ↔
        Diverges env.host d.content d.record.isSome := by
      constructor
      · rintro ⟨d', hd', hdiv⟩
        rw [hd.unique hd']
        exact hdiv
      · intro hdiv
        exact ⟨d, hd, hdiv⟩
    rw [hcommits, honly, not_and, ← hagree, CommitScaffold.commitsTo]
    by_cases hblocked : s.kernel.blocked = false
    · by_cases hdeny : CommitScaffold.denyReason request = none
      · simp [hblocked, hdeny]
      · simp [hdeny]
    · simp [hblocked]
  · rw [hcommits]
    constructor
    · rintro - ⟨-, d, hd, -⟩
      exact hnone d hd
    · intro _ request hrequest
      cases hrequest

/-! ### Concrete proposals -/

def referenceHandlers : HandlerEnv where
  host := referenceHost
  halEnabled := true
  binder := none
  soar := none
  dispatchCommitted := fun _ => .ok []

def quietTick : Tick := ⟨[], [], [("max_severity", .int 0)]⟩

def freshState : RtcState := ⟨⟨0, 0, 0⟩, ⟨false, [], []⟩⟩

def candidateAction (content : List (String × PyVal)) : Event where
  eventId := "evt_proposal"
  type := "PROPOSAL_EMITTED"
  payload := [("kind", .str "candidate_action"), ("proposal_id", .str "prop-1"),
    ("content", .dict content)]
  causalParents := []
  severity := none

def auditContent : List (String × PyVal) :=
  [("capability_id", .str "cap.oea_stub_log"), ("effect_class", .str "audit_log"),
    ("action_type", .str "oea_stub_log")]

def committedPairs (content : List (String × PyVal)) : List (String × String) :=
  (newCommits referenceHandlers (fun n => decimal n) quietTick freshState
    [candidateAction content]).map fun request =>
      (request.requiredCapability, request.effectClass)

theorem commits_asArbitrated_audit :
    committedPairs auditContent = [("cap.oea_stub_log", "audit_log")] ∧
      ∀ request ∈ newCommits referenceHandlers (fun n => decimal n) quietTick
        freshState [candidateAction auditContent],
        AsArbitrated referenceHandlers quietTick freshState.binder
          (candidateAction auditContent) request := by
  refine ⟨by decide +kernel, ?_⟩
  apply (commits_asArbitrated_iff rfl freshState
    (candidateAction auditContent)).mpr
  rintro ⟨-, d, hd, hdiv⟩
  have hcontent : auditContent = d.content := Except.ok.inj hd.content
  have hnames : NamesPair referenceHandlers.host auditContent := by
    decide +kernel
  rw [← hcontent, Diverges, if_pos hnames] at hdiv
  exact absurd hdiv.1 (by decide +kernel)

def reportContent : List (String × PyVal) :=
  [("action_type", .str "local_report_file_write")]

/-- Arbitration binds a content without a pair to the audit log, while the
kernel commits the write that its action type stands for. -/
theorem report_committed_past_arbitration :
    committedPairs reportContent = [("local_report_file.write", "local_report")] ∧
      ∀ request ∈ newCommits referenceHandlers (fun n => decimal n) quietTick
        freshState [candidateAction reportContent],
        ¬ AsArbitrated referenceHandlers quietTick freshState.binder
          (candidateAction reportContent) request := by
  have hpairs : committedPairs reportContent =
      [("local_report_file.write", "local_report")] := by
    decide +kernel
  refine ⟨hpairs, ?_⟩
  rintro request hrequest ⟨⟨soarRun, halReq, candidate, -, hhal, -, hmem, -,
    hpair⟩, -⟩
  obtain ⟨content, sole, hcontent, hsole, harbitrated⟩ :=
    requestFromProposal_ok hhal
  obtain rfl : reportContent = content := Except.ok.inj hcontent
  have hcommitted : (request.requiredCapability, request.effectClass) ∈
      committedPairs reportContent := List.mem_map_of_mem hrequest
  rw [hsole, List.mem_singleton] at hmem
  rw [hpairs, List.mem_singleton, hpair, hmem, harbitrated] at hcommitted
  exact absurd hcommitted (by decide +kernel)

end Hydrogenuine.Runtime
