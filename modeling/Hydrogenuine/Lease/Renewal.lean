import Mathlib.Data.List.TakeWhile
import Hydrogenuine.Lease.Encoding
import Hydrogenuine.Lease.System

/-!
# Renewing a lease

Embedding of `renewal_draft` of `hg_lease/operator.py`, and of `compile_draft` on the
dictionary that it builds.  The compiler reads the policy of the lease back field by
field, so that the draft compiles exactly when the compiler accepts this policy, and the
new policy then decides every request as the old one does.

`mint_lease` takes any policy that the operator has confirmed.  A policy that the
compiler would not have issued, with a wildcard for instance, is not renewed.
-/

namespace Hydrogenuine.Lease

open Support Hydrogenuine.Core Gpp

/-! ## Drafts as dictionaries -/

def text? : PyVal → Option String
  | .str text => some text
  | _ => none

def number? : PyVal → Option ℤ
  | .int n => some n
  | _ => none

def items? : PyVal → Option Items
  | .dict items => some items
  | _ => none

def listAt {α : Type} (read : PyVal → Option α) (draft : Items) (key : String) :
    Option (List α) :=
  match PyVal.getItem draft key with
  | .list values => values.mapM read
  | _ => none

/-- The plain fields of a draft.  A field of another type than that of the policy is
read as missing. -/
def plainDraft (draft : Items) : PolicyDraft where
  subjects := listAt text? draft "subjects"
  actions := listAt text? draft "actions"
  objects := listAt text? draft "objects"
  purpose := text? (PyVal.getItem draft "purpose")
  validFrom := text? (PyVal.getItem draft "valid_from")
  validUntil := text? (PyVal.getItem draft "valid_until")
  riskClass := text? (PyVal.getItem draft "risk_class")
  renewalMode := text? (PyVal.getItem draft "renewal_mode")
  condition := none
  numericLimits := []
  unknownFactPolicy := text? (PyVal.getItem draft "unknown_fact_policy")
  useLimit := number? (PyVal.getItem draft "use_limit")
  requiredFacts := (listAt text? draft "required_facts").getD []
  sourceConversationRefs :=
    (listAt text? draft "source_conversation_refs").getD []
  closeObligations := (listAt items? draft "close_obligations").getD []

def readCondition (host : Host) (draft : Items) :
    Except PolicyError (Option Condition) :=
  match PyVal.getItem draft "condition" with
  | .none => .ok none
  | payload => (conditionFromPayload host payload).map some

def readLimits (draft : Items) : Except PolicyError (List NumericLimit) :=
  match PyVal.item? draft "numeric_limits" with
  | none => .ok []
  | some (.list payloads) => payloads.mapM limitFromPayload
  | some (.str text) =>
      if text = "" then .ok [] else (limitFromPayload (.str text)).map fun _ => []
  | some (.dict items) =>
      if items.isEmpty then .ok [] else (limitFromPayload (.str "")).map fun _ => []
  | some value => .error (.raised (.typeError
      ("'" ++ className value ++ "' object is not iterable")))

/-- The text of an error that `compile_draft` catches. -/
def PolicyError.caught? (host : Host) : PolicyError → Option String
  | .validation message => some message
  | .raised (.keyError key) => some (reprOf host (.str key))
  | .raised (.typeError message) => some message
  | .raised _ => none

/-- `compile_draft` on a dictionary.  Errors other than the three caught ones are
raised. -/
def compileItems
    (host : Host) (draft : Items) (issuerOperatorId digits : String)
    (allowModerate allowHighRiskLocalPolicy : Bool) :
    Except PolicyError Compiled :=
  let plain := plainDraft draft
  let questions := draftQuestions host plain
  if questions ≠ [] then .ok (.clarification questions)
  else
    let read := do
      let condition ← readCondition host draft
      let limits ← readLimits draft
      return { plain with condition := condition, numericLimits := limits }
    match read with
    | .ok full =>
        .ok (compileDraft host full issuerOperatorId digits allowModerate
          allowHighRiskLocalPolicy)
    | .error err =>
        match err.caught? host with
        | some text => .ok (.clarification
            ["The policy conditions could not be compiled safely: " ++ text ++
              ". Please restate the condition in supported terms."])
        | none => .error err

/-! ## The renewal draft -/

/-- The draft that `renewal_draft` builds from the policy of a lease. -/
def renewalItems (policy : CanonicalPolicy) (leaseId : String) : Items :=
  [("subjects", .ofStrings policy.subjects),
    ("actions", .ofStrings policy.actions),
    ("objects", .ofStrings policy.objects),
    ("purpose", .str policy.purpose),
    ("risk_class", .str policy.riskClass),
    ("renewal_mode", .str policy.renewalMode),
    ("unknown_fact_policy", .str policy.unknownFactPolicy),
    ("valid_from", .str policy.validFrom),
    ("valid_until", .str policy.validUntil),
    ("condition", match policy.condition with
      | some condition => condition.toPayload
      | none => .none),
    ("numeric_limits", .list (policy.numericLimits.map NumericLimit.toPayload)),
    ("use_limit", match policy.useLimit with
      | some n => .int n
      | none => .none),
    ("required_facts", .ofStrings policy.requiredFacts),
    ("close_obligations", .list (policy.closeObligations.map .dict)),
    ("supersedes_lease_id", .str leaseId)]

def LeaseWorld.renewalDraft (s : LeaseWorld) (leaseId : String) (changes : Items) :
    Option Items :=
  match s.leases.get leaseId with
  | none => none
  | some lease => (s.policyFor lease).map fun policy =>
      changes.foldl (fun draft change => PyVal.setItem draft change.1 change.2)
        (renewalItems policy lease.leaseId)

variable {policy : CanonicalPolicy} {host : Host}

theorem renewalDraft_eq
    {s : LeaseWorld} {leaseId : String} {lease : CapabilityLease} (hlease : s.leases.get leaseId = some lease)
    (hpolicy : s.policyFor lease = some policy) :
    s.renewalDraft leaseId [] = some (renewalItems policy lease.leaseId) := by
  unfold LeaseWorld.renewalDraft
  rw [hlease]
  dsimp only
  rw [hpolicy]
  rfl

def CanonicalPolicy.redraft (policy : CanonicalPolicy) : PolicyDraft where
  subjects := some policy.subjects
  actions := some policy.actions
  objects := some policy.objects
  purpose := some policy.purpose
  validFrom := some policy.validFrom
  validUntil := some policy.validUntil
  riskClass := some policy.riskClass
  renewalMode := some policy.renewalMode
  condition := policy.condition
  numericLimits := policy.numericLimits
  unknownFactPolicy := some policy.unknownFactPolicy
  useLimit := policy.useLimit
  requiredFacts := policy.requiredFacts
  sourceConversationRefs := []
  closeObligations := policy.closeObligations

theorem mapM_text? (texts : List String) :
    (texts.map PyVal.str).mapM text? = some texts := by
  rw [List.mapM_map]
  induction texts with
  | nil => rfl
  | cons text texts ih =>
      rw [List.mapM_cons, ih]
      rfl

theorem mapM_items? (dicts : List Items) :
    (dicts.map PyVal.dict).mapM items? = some dicts := by
  rw [List.mapM_map]
  induction dicts with
  | nil => rfl
  | cons items dicts ih =>
      rw [List.mapM_cons, ih]
      rfl

theorem mapM_limitFromPayload (limits : List NumericLimit) :
    (limits.map NumericLimit.toPayload).mapM limitFromPayload = .ok limits := by
  induction limits with
  | nil => rfl
  | cons limit limits ih =>
      rw [List.map_cons, List.mapM_cons, limitFromPayload_toPayload, ih]
      rfl

theorem readCondition_renewalItems
    (host : Host) (policy : CanonicalPolicy) (leaseId : String) :
    readCondition host (renewalItems policy leaseId) = .ok policy.condition := by
  unfold readCondition
  change (match (match policy.condition with
    | some condition => condition.toPayload
    | none => PyVal.none) with
    | .none => Except.ok none
    | payload => (conditionFromPayload host payload).map some) = _
  cases policy.condition with
  | none => rfl
  | some condition =>
      have hread := conditionFromPayload_toPayload host condition
      cases condition with
      | fact cond => exact congrArg (Except.map some) hread
      | timeWindow window => exact congrArg (Except.map some) hread
      | allOf children => exact congrArg (Except.map some) hread
      | anyOf children => exact congrArg (Except.map some) hread
      | notCond child => exact congrArg (Except.map some) hread

theorem readLimits_renewalItems (policy : CanonicalPolicy) (leaseId : String) :
    readLimits (renewalItems policy leaseId) = .ok policy.numericLimits :=
  mapM_limitFromPayload policy.numericLimits

theorem plainDraft_renewalItems (policy : CanonicalPolicy) (leaseId : String) :
    plainDraft (renewalItems policy leaseId) =
      { policy.redraft with condition := none, numericLimits := [] } := by
  have huses : number? (match policy.useLimit with
      | some n => .int n
      | none => .none) = policy.useLimit := by
    cases policy.useLimit with
    | none => rfl
    | some n => rfl
  unfold plainDraft CanonicalPolicy.redraft
  rw [PolicyDraft.mk.injEq]
  refine ⟨mapM_text? _, mapM_text? _, mapM_text? _, rfl, rfl, rfl, rfl, rfl, rfl, rfl,
    rfl, huses, ?_, rfl, ?_⟩
  · exact congrArg (Option.getD · []) (mapM_text? policy.requiredFacts)
  · exact congrArg (Option.getD · []) (mapM_items? policy.closeObligations)

theorem compileItems_renewalItems
    (host : Host) (policy : CanonicalPolicy)
    (leaseId issuerOperatorId digits : String)
    (allowModerate allowHighRiskLocalPolicy : Bool) :
    compileItems host (renewalItems policy leaseId) issuerOperatorId digits
        allowModerate allowHighRiskLocalPolicy =
      .ok (compileDraft host policy.redraft issuerOperatorId digits allowModerate
        allowHighRiskLocalPolicy) := by
  unfold compileItems
  rw [plainDraft_renewalItems, readCondition_renewalItems, readLimits_renewalItems]
  have hquestions : draftQuestions host
      { policy.redraft with condition := none, numericLimits := [] } =
        draftQuestions host policy.redraft := rfl
  dsimp only
  rw [hquestions]
  split
  · next hasks =>
      unfold compileDraft
      rw [if_pos hasks]
  · rfl

/-! ## What the compiler accepts -/

/-- The policy is one that the compiler issues under these flags. -/
structure Issuable
    (policy : CanonicalPolicy) (allowModerate allowHighRiskLocalPolicy : Bool) :
    Prop where
  subjects : policy.subjects ≠ []
  actions : policy.actions ≠ []
  objects : policy.objects ≠ []
  exact_scope : "*" ∉ policy.subjects ++ policy.actions ++ policy.objects
  purpose : strip policy.purpose ≠ ""
  starts : policy.validFrom ≠ ""
  window : policy.validFrom < policy.validUntil
  risk : policy.riskClass ∈ riskClasses
  moderate : policy.riskClass = "MODERATE" → allowModerate = true
  high : policy.riskClass ∈ ["HIGH", "CRITICAL"] → allowHighRiskLocalPolicy = true
  renewal : policy.renewalMode ∈ renewalModes
  unknown : policy.unknownFactPolicy ∈ ["DENY", "ASK"]

theorem strip_ne_empty {c : Char} {rest : String} (hc : isSpace c = false) :
    strip (String.ofList [c] ++ rest) ≠ "" := by
  intro hempty
  have hlist := congrArg String.toList hempty
  unfold strip at hlist
  simp only [String.toList_append, String.toList_ofList, List.singleton_append,
    List.dropWhile_cons, hc] at hlist
  have hall : ∀ x ∈ (c :: rest.toList).reverse, isSpace x = true := by
    rw [← List.dropWhile_eq_nil_iff]
    exact List.reverse_eq_nil_iff.mp hlist
  have hblank := hall c (List.mem_reverse.mpr List.mem_cons_self)
  rw [hc] at hblank
  cases hblank

theorem strip_draftSummary
    (host : Host) (subjects actions objects : List String)
    (purpose validFrom validUntil riskClass : String) (useLimit : Option ℤ)
    (limits : List NumericLimit) :
    strip (draftSummary host subjects actions objects purpose validFrom validUntil
      riskClass useLimit limits) ≠ "" := by
  unfold draftSummary
  dsimp only
  simp only [List.cons_append, String.append_assoc, String.intercalate_cons_append]
  have hallow : ∀ rest : String,
      "Allow " ++ rest = String.ofList ['A'] ++ ("llow " ++ rest) := by
    intro rest
    rw [← String.append_assoc]
    rfl
  rw [hallow]
  exact strip_ne_empty (by decide)

theorem asked_eq_nil_iff {condition : Bool} {text : String} :
    (if condition then [text] else []) = [] ↔ condition = false := by
  cases condition <;> simp

theorem draftQuestions_redraft_eq_nil_iff :
    draftQuestions host policy.redraft = [] ↔
      (policy.subjects ≠ [] ∧ policy.actions ≠ [] ∧ policy.objects ≠ [] ∧
        policy.purpose ≠ "" ∧ policy.validFrom ≠ "" ∧ policy.validUntil ≠ "" ∧
        policy.riskClass ≠ "" ∧ policy.riskClass ∈ riskClasses ∧
        "*" ∉ policy.subjects ∧ "*" ∉ policy.actions ∧ "*" ∉ policy.objects ∧
        policy.renewalMode ∈ renewalModes) := by
  unfold draftQuestions CanonicalPolicy.redraft
  simp only [List.append_eq_nil_iff, asked_eq_nil_iff]
  simp [lacksItems, lacksText, isText, and_assoc]

theorem validatePolicy_redraft_eq_nil_iff {issuerOperatorId digits : String}
    {allowModerate allowHighRiskLocalPolicy : Bool} :
    validatePolicy (draftedPolicy host policy.redraft issuerOperatorId digits)
        allowModerate allowHighRiskLocalPolicy = [] ↔
      (policy.subjects ≠ [] ∧ policy.actions ≠ [] ∧ policy.objects ≠ [] ∧
        "*" ∉ policy.subjects ++ policy.actions ++ policy.objects ∧
        strip policy.purpose ≠ "" ∧ policy.validFrom < policy.validUntil ∧
        (policy.riskClass = "MODERATE" → allowModerate = true) ∧
        (policy.riskClass ∈ ["HIGH", "CRITICAL"] →
          allowHighRiskLocalPolicy = true) ∧
        policy.unknownFactPolicy ∈ ["DENY", "ASK"]) := by
  have hsummary := strip_draftSummary host policy.subjects policy.actions
    policy.objects policy.purpose policy.validFrom policy.validUntil policy.riskClass
    policy.useLimit policy.numericLimits
  unfold validatePolicy draftedPolicy CanonicalPolicy.redraft
  simp only [List.append_eq_nil_iff, asked_eq_nil_iff, Option.getD_some]
  simp [hsummary, and_assoc]
  intros
  exact or_iff_not_imp_left.symm

theorem compileDraft_redraft_iff {policy renewed : CanonicalPolicy}
    {issuerOperatorId digits : String}
    {allowModerate allowHighRiskLocalPolicy : Bool} :
    compileDraft host policy.redraft issuerOperatorId digits allowModerate
        allowHighRiskLocalPolicy = .policy renewed ↔
      Issuable policy allowModerate allowHighRiskLocalPolicy ∧
        draftedPolicy host policy.redraft issuerOperatorId digits = renewed := by
  rw [compileDraft_eq_policy_iff, draftQuestions_redraft_eq_nil_iff]
  constructor
  · rintro ⟨⟨-, -, -, -, hstarts, -, -, hrisk, -, -, -, hrenewal⟩, rfl, hproblems⟩
    obtain ⟨hsubjects, hactions, hobjects, hexact, hpurpose, hwindow, hmoderate,
      hhigh, hunknown⟩ := validatePolicy_redraft_eq_nil_iff.mp hproblems
    exact ⟨⟨hsubjects, hactions, hobjects, hexact, hpurpose, hstarts, hwindow, hrisk,
      hmoderate, hhigh, hrenewal, hunknown⟩, rfl⟩
  · rintro ⟨h, rfl⟩
    have hpurpose : policy.purpose ≠ "" := by
      intro hempty
      apply h.purpose
      rw [hempty]
      rfl
    have hends : policy.validUntil ≠ "" := by
      intro hempty
      have hwindow := h.window
      rw [hempty] at hwindow
      exact List.not_lt_nil policy.validFrom.toList hwindow
    have hclass : policy.riskClass ≠ "" := by
      intro hempty
      have hrisk := h.risk
      rw [hempty] at hrisk
      exact absurd hrisk (by decide)
    obtain ⟨hscope, hobjects⟩ := not_or.mp (mt List.mem_append.mpr h.exact_scope)
    obtain ⟨hsubjects, hactions⟩ := not_or.mp (mt List.mem_append.mpr hscope)
    refine ⟨⟨h.subjects, h.actions, h.objects, hpurpose, h.starts, hends, hclass,
      h.risk, hsubjects, hactions, hobjects, h.renewal⟩, rfl, ?_⟩
    exact validatePolicy_redraft_eq_nil_iff.mpr ⟨h.subjects, h.actions, h.objects,
      h.exact_scope, h.purpose, h.window, h.moderate, h.high, h.unknown⟩

/-! ## The same decisions -/

/-- The two policies have the same scope, condition, limits and restrictions. -/
structure SameRules (policy renewed : CanonicalPolicy) : Prop where
  subjects : renewed.subjects = policy.subjects
  actions : renewed.actions = policy.actions
  objects : renewed.objects = policy.objects
  purpose : renewed.purpose = policy.purpose
  condition : renewed.condition = policy.condition
  limits : renewed.numericLimits = policy.numericLimits
  risk : renewed.riskClass = policy.riskClass
  renewal : renewed.renewalMode = policy.renewalMode
  unknown : renewed.unknownFactPolicy = policy.unknownFactPolicy
  starts : renewed.validFrom = policy.validFrom
  ends : renewed.validUntil = policy.validUntil
  uses : renewed.useLimit = policy.useLimit
  required : renewed.requiredFacts = policy.requiredFacts
  obligations : renewed.closeObligations = policy.closeObligations

theorem sameRules_redraft
    (host : Host) (policy : CanonicalPolicy) (issuerOperatorId digits : String) :
    SameRules policy (draftedPolicy host policy.redraft issuerOperatorId digits) :=
  ⟨rfl, rfl, rfl, rfl, rfl, rfl, rfl, rfl, rfl, rfl, rfl, rfl, rfl, rfl⟩

/-- The lease is one that `mint_lease` made of the policy: state, uses and applied
events may have changed since. -/
structure GrantedBy
    (host : Host) (policy : CanonicalPolicy) (lease : CapabilityLease) : Prop where
  hash : lease.policyHash = policy.canonicalPolicyHash host
  subject : policy.subjects.head? = some lease.subject
  actions : lease.actionScope = policy.actions
  objects : lease.objectScope = policy.objects
  purpose : lease.purposeScope = [policy.purpose]
  starts : lease.notBefore = policy.validFrom
  ends : lease.expiresAt = policy.validUntil

/-- Two leases of policies with the same rules, in the same state and with the same
uses left, are evaluated alike. -/
theorem verdict_eq_of_sameRules {policy renewed : CanonicalPolicy} {old new : CapabilityLease}
    (hrules : SameRules policy renewed) (hold : GrantedBy host policy old)
    (hnew : GrantedBy host renewed new) (hstate : new.state = old.state)
    (huses : new.remainingUses = old.remainingUses)
    (request : ActionRequest) (facts : Snapshot) (nowWall : String) {nowMonotonic : ℚ}
    (holdAnchor : old.issuedAtMonotonicAnchor ≤ nowMonotonic)
    (hnewAnchor : new.issuedAtMonotonicAnchor ≤ nowMonotonic)
    (seenRequestIds : List String) :
    verdict host request (some new) (some renewed) facts nowWall nowMonotonic
        seenRequestIds =
      verdict host request (some old) (some policy) facts nowWall nowMonotonic
        seenRequestIds := by
  have hsubject : new.subject = old.subject := by
    have hhead := hnew.subject
    rw [hrules.subjects, hold.subject] at hhead
    exact (Option.some.inj hhead).symm
  have hactions : new.actionScope = old.actionScope := by
    rw [hnew.actions, hold.actions, hrules.actions]
  have hobjects : new.objectScope = old.objectScope := by
    rw [hnew.objects, hold.objects, hrules.objects]
  have hpurpose : new.purposeScope = old.purposeScope := by
    rw [hnew.purpose, hold.purpose, hrules.purpose]
  have hstarts : new.notBefore = old.notBefore := by
    rw [hnew.starts, hold.starts, hrules.starts]
  have hends : new.expiresAt = old.expiresAt := by
    rw [hnew.ends, hold.ends, hrules.ends]
  have hcondition : conditionReasons host renewed facts nowWall =
      conditionReasons host policy facts nowWall := by
    unfold conditionReasons
    rw [hrules.condition, hrules.unknown]
  have hreasons : ∀ fromCondition,
      collectReasons host request new renewed facts nowWall fromCondition =
        collectReasons host request old policy facts nowWall fromCondition := by
    intro fromCondition
    unfold collectReasons standingReasons scopeReasons limitReasons
      requiredFactReasons
    rw [hstate, huses, hsubject, hactions, hobjects, hpurpose, hstarts, hends,
      hrules.limits, hrules.required]
  unfold verdict
  dsimp only
  rw [if_neg (not_lt.mpr holdAnchor), if_neg (not_lt.mpr hnewAnchor),
    if_neg (not_not.mpr hold.hash), if_neg (not_not.mpr hnew.hash), hcondition]
  simp only [hreasons]

/-- The renewal draft of a lease compiles exactly when the compiler issues the policy
of the lease, and then to a policy under which every request is decided as under this
policy. -/
theorem renewal_decides_alike
    (env : LeaseEnv) (s : LeaseWorld) {leaseId : String} {lease : CapabilityLease}
    {policy : CanonicalPolicy} (hlease : s.leases.get leaseId = some lease)
    (hpolicy : s.policyFor lease = some policy) :
    (∀ c : Condition, conditionFromPayload env.host c.toPayload = .ok c) ∧
      ∃ draft, s.renewalDraft leaseId [] = some draft ∧
        ∀ (issuerOperatorId digits : String)
          (allowModerate allowHighRiskLocalPolicy : Bool),
          (Issuable policy allowModerate allowHighRiskLocalPolicy ↔
            ∃ renewed, compileItems env.host draft issuerOperatorId digits
              allowModerate allowHighRiskLocalPolicy = .ok (.policy renewed)) ∧
          ∀ renewed, compileItems env.host draft issuerOperatorId digits
              allowModerate allowHighRiskLocalPolicy = .ok (.policy renewed) →
            SameRules policy renewed ∧
            ∀ old new, GrantedBy env.host policy old →
              GrantedBy env.host renewed new → new.state = old.state →
              new.remainingUses = old.remainingUses →
              ∀ (request : ActionRequest) (facts : Snapshot) (nowWall : String)
                (nowMonotonic : ℚ) (seenRequestIds : List String),
                old.issuedAtMonotonicAnchor ≤ nowMonotonic →
                new.issuedAtMonotonicAnchor ≤ nowMonotonic →
                verdict env.host request (some new) (some renewed) facts nowWall
                    nowMonotonic seenRequestIds =
                  verdict env.host request (some old) (some policy) facts nowWall
                    nowMonotonic seenRequestIds := by
  refine ⟨conditionFromPayload_toPayload env.host, renewalItems policy lease.leaseId,
    renewalDraft_eq hlease hpolicy,
    fun issuerOperatorId digits allowModerate allowHighRiskLocalPolicy => ?_⟩
  have hcompiles : ∀ renewed, compileItems env.host (renewalItems policy lease.leaseId)
      issuerOperatorId digits allowModerate allowHighRiskLocalPolicy =
        .ok (.policy renewed) ↔
      Issuable policy allowModerate allowHighRiskLocalPolicy ∧
        draftedPolicy env.host policy.redraft issuerOperatorId digits = renewed := by
    intro renewed
    rw [compileItems_renewalItems, Except.ok.injEq, compileDraft_redraft_iff]
  constructor
  · constructor
    · exact fun h => ⟨_, (hcompiles _).mpr ⟨h, rfl⟩⟩
    · rintro ⟨renewed, hrenewed⟩
      exact ((hcompiles renewed).mp hrenewed).1
  · intro renewed hrenewed
    obtain ⟨-, rfl⟩ := (hcompiles renewed).mp hrenewed
    have hrules := sameRules_redraft env.host policy issuerOperatorId digits
    refine ⟨hrules, ?_⟩
    intro old new hold hnew hstate huses request facts nowWall nowMonotonic
      seenRequestIds holdAnchor hnewAnchor
    exact verdict_eq_of_sameRules hrules hold hnew hstate huses request facts nowWall
      holdAnchor hnewAnchor seenRequestIds

/-! ## A lease for every lamp -/

def lampPolicy (object : String) : CanonicalPolicy :=
  { referencePolicy 1 with objects := [object], renewalMode := "MANUAL" }

def lampWorld (object : String) : LeaseWorld :=
  (leaseMachine referenceEnv).final referenceWorld
    [.mint (lampPolicy object) (confirmationOf referenceHost (lampPolicy object)) none]

def lampLeaseId : String := leaseIdOf (referenceHost.uuidHex 0)

theorem policyFor_lampWorld
    (object : String) (check : CanonicalPolicy → Bool)
    (h : (((lampWorld object).leases.get lampLeaseId).bind
      (lampWorld object).policyFor).any check = true) :
    ∃ lease policy, (lampWorld object).leases.get lampLeaseId = some lease ∧
      (lampWorld object).policyFor lease = some policy ∧ check policy = true := by
  rw [Option.any_eq_true] at h
  obtain ⟨policy, hfound, hcheck⟩ := h
  obtain ⟨lease, hlease, hpolicy⟩ := Option.bind_eq_some_iff.mp hfound
  exact ⟨lease, policy, hlease, hpolicy, hcheck⟩

theorem lamp_renewed :
    ∃ policy draft renewed,
      (lampWorld "lamp-1").renewalDraft lampLeaseId [] = some draft ∧
        compileItems referenceHost draft "operator:owner" "1" false false =
          .ok (.policy renewed) ∧
        policy.objects = ["lamp-1"] ∧ SameRules policy renewed := by
  obtain ⟨lease, policy, hlease, hpolicy, hcheck⟩ :=
    policyFor_lampWorld "lamp-1"
      (fun policy => (draftQuestions referenceHost policy.redraft).isEmpty &&
        (validatePolicy (draftedPolicy referenceHost policy.redraft "" "") false
          false).isEmpty && policy.objects == ["lamp-1"])
      (by decide +kernel)
  simp only [Bool.and_eq_true, List.isEmpty_iff, beq_iff_eq] at hcheck
  obtain ⟨⟨hquestions, hproblems⟩, hobjects⟩ := hcheck
  obtain ⟨-, draft, hdraft, hcompiles⟩ :=
    renewal_decides_alike referenceEnv (lampWorld "lamp-1") hlease hpolicy
  obtain ⟨hissuable, hrules⟩ := hcompiles "operator:owner" "1" false false
  have hissued : Issuable policy false false :=
    (compileDraft_redraft_iff.mp (compileDraft_eq_policy_iff.mpr
      ⟨hquestions, rfl, hproblems⟩)).1
  obtain ⟨renewed, hrenewed⟩ := hissuable.mp hissued
  exact ⟨policy, draft, renewed, hdraft, hrenewed, hobjects, (hrules renewed hrenewed).1⟩

/-- The operator may confirm a policy for all lamps, and its renewal draft does not
compile, whatever is opted into. -/
theorem wildcard_not_renewed :
    ¬ ∀ (env : LeaseEnv) (situation : Dict String SituationFact)
        (gpp : PermitAuthority) (ops : List LeaseOp) (leaseId : String)
        (lease : CapabilityLease) (policy : CanonicalPolicy),
      ((leaseMachine env).final (.init situation gpp) ops).leases.get leaseId =
          some lease →
        ((leaseMachine env).final (.init situation gpp) ops).policyFor lease =
          some policy →
        ∃ draft issuerOperatorId digits allowModerate allowHighRiskLocalPolicy renewed,
          ((leaseMachine env).final (.init situation gpp) ops).renewalDraft leaseId
              [] = some draft ∧
            compileItems env.host draft issuerOperatorId digits allowModerate
              allowHighRiskLocalPolicy = .ok (.policy renewed) := by
  intro hall
  obtain ⟨lease, policy, hlease, hpolicy, hcheck⟩ :=
    policyFor_lampWorld "*" (fun policy => policy.objects.contains "*")
      (by decide +kernel)
  obtain ⟨draft, issuerOperatorId, digits, allowModerate, allowHighRiskLocalPolicy,
    renewed, hdraft, hcompiled⟩ := hall referenceEnv Dict.empty (.init .empty)
      [.mint (lampPolicy "*") (confirmationOf referenceHost (lampPolicy "*")) none]
      lampLeaseId lease policy hlease hpolicy
  have hitems : renewalItems policy lease.leaseId = draft :=
    Option.some.inj ((renewalDraft_eq hlease hpolicy).symm.trans hdraft)
  rw [← hitems, compileItems_renewalItems, Except.ok.injEq,
    compileDraft_redraft_iff] at hcompiled
  apply hcompiled.1.exact_scope
  exact List.mem_append_right _ (List.contains_iff_mem.mp hcheck)

/-! ## Confirmations -/

/-- A step that mints was confirmed, and the confirmation is one of no other policy,
unless the hashes of the two collide. -/
def MintsConfirmed (host : Host) (e : LeaseStep) : Prop :=
  ∀ policy confirmation supersedesLeaseId lease,
    e.input = .mint policy confirmation supersedesLeaseId → e.output = .minted (.ok lease) →
      Confirms host policy confirmation ∧ ∀ confirmed, Confirms host confirmed confirmation →
        (host.canonicalHash policy.toPayload = host.canonicalHash confirmed.toPayload →
          policy.toPayload = confirmed.toPayload) → policy = confirmed

/-- An operator's confirmation is good for one policy, in every world and for every call. -/
theorem mints_confirmed (env : LeaseEnv) (s : LeaseWorld) (op : LeaseOp) :
    MintsConfirmed env.host ((leaseMachine env).stepAt s op) := by
  rintro policy confirmation supersedesLeaseId lease rfl houtput
  have houtcome : outcome (mintLease env policy confirmation supersedesLeaseId) s =
      .ok lease := LeaseReply.minted.inj houtput
  have hconfirms : Confirms env.host policy confirmation := by
    by_contra hunconfirmed
    rcases (mintLease_unconfirmed s (fun h => hunconfirmed h.1)).cases with
      ⟨_, -, hfalse⟩ | ⟨e, hraised, -⟩
    · exact hfalse
    · cases hraised.symm.trans houtcome
  exact ⟨hconfirms, fun confirmed hconfirmed hfree =>
    CanonicalPolicy.toPayload_injective env.host
      (hfree (hconfirms.hash.symm.trans hconfirmed.hash))⟩

end Hydrogenuine.Lease
