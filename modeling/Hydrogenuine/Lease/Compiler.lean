import Hydrogenuine.Lease.Policy

/-!
# The policy compiler

Embedding of `compile_draft` of `hg_lease/compiler.py` and of `validate_policy`
of `hg_lease/policy.py`.  A draft becomes a policy or questions to the operator.
The two ends of the validity window are taken over as texts, and compared as
texts.
-/

namespace Hydrogenuine.Lease

open Support Hydrogenuine.Core

/-- A structured draft; `none` stands for a missing key and for `None`.  Its
condition and its limits are values that have already been built. -/
structure PolicyDraft where
  subjects : Option (List String)
  actions : Option (List String)
  objects : Option (List String)
  purpose : Option String
  validFrom : Option String
  validUntil : Option String
  riskClass : Option String
  renewalMode : Option String
  condition : Option Condition
  numericLimits : List NumericLimit
  unknownFactPolicy : Option String
  useLimit : Option ℤ
  requiredFacts : List String
  sourceConversationRefs : List String
  closeObligations : List (List (String × PyVal))

/-- What compiling returns. -/
inductive Compiled where
  | policy (policy : CanonicalPolicy)
  | clarification (questions : List String)

/-- `_RISK_CLASSES`, in order. -/
def riskClasses : List String := ["CRITICAL", "HIGH", "LOW", "MODERATE"]

def renewalModes : List String := ["MANUAL", "PROMPT_BEFORE_EXPIRY", "DISABLED"]

/-- `repr` of a text, read off the rendering of a list. -/
def quoted (host : Host) (text : String) : String :=
  let rendered := host.str (.ofStrings [text])
  slice rendered 1 (rendered.length - 1)

/-- `value in (None, "", [], ())` of a text. -/
def lacksText (value : Option String) : Bool := !isText value

/-- `value in (None, "", [], ())` of a list. -/
def lacksItems (value : Option (List String)) : Bool := (value.getD []).isEmpty

def draftQuestions (host : Host) (draft : PolicyDraft) : List String :=
  let ask (condition : Bool) (question : String) : List String :=
    if condition then [question] else []
  let wildcard (values : Option (List String)) (key : String) : List String :=
    ask ((values.getD []).contains "*")
      ("The draft uses a wildcard for " ++ key ++ "; wildcards need a " ++
        "conspicuous, dedicated confirmation. List exact values instead?")
  let renewal := draft.renewalMode.getD "MANUAL"
  ask (lacksItems draft.subjects)
      "Who is this authority for (exact subject ids)?" ++
    ask (lacksItems draft.actions) "Which exact action types are covered?" ++
    ask (lacksItems draft.objects) "Which exact objects/devices are covered?" ++
    ask (lacksText draft.purpose)
      "What is the purpose of this standing permission?" ++
    ask (lacksText draft.validFrom) "When should this start (timestamp)?" ++
    ask (lacksText draft.validUntil) "When should this end (timestamp)?" ++
    ask (lacksText draft.riskClass)
      "What risk class applies (LOW/MODERATE/HIGH/CRITICAL)?" ++
    (match draft.riskClass with
      | none => []
      | some risk => ask (!riskClasses.contains risk)
          ("Risk class " ++ quoted host risk ++
            " is not recognized — choose one of " ++
            host.str (.ofStrings riskClasses) ++ ".")) ++
    wildcard draft.subjects "subjects" ++ wildcard draft.actions "actions" ++
    wildcard draft.objects "objects" ++
    ask (!renewalModes.contains renewal)
      ("Renewal mode " ++ quoted host renewal ++ " is not recognized.")

/-- `_summary`. -/
def draftSummary
    (host : Host) (subjects actions objects : List String)
    (purpose validFrom validUntil riskClass : String) (useLimit : Option ℤ)
    (limits : List NumericLimit) : String :=
  let limitText := "; ".intercalate (limits.map fun limit =>
    limit.parameter ++ " <= " ++ host.str (.float limit.maxValue) ++ " " ++
      limit.unit)
  "; ".intercalate
    (["Allow " ++ ", ".intercalate subjects ++ " to " ++
        ", ".intercalate actions ++ " on " ++ ", ".intercalate objects,
      "purpose: " ++ purpose, "valid " ++ validFrom ++ " to " ++ validUntil] ++
      (if limitText = "" then [] else ["limits: " ++ limitText]) ++
      (match useLimit with
        | some uses => ["at most " ++ toString uses ++ " uses"]
        | none => []) ++
      ["risk: " ++ riskClass])

def validatePolicy
    (policy : CanonicalPolicy) (allowModerate allowHighRiskLocalPolicy : Bool) :
    List String :=
  let problem (condition : Bool) (code : String) : List String :=
    if condition then [code] else []
  problem policy.subjects.isEmpty "policy.no_subjects" ++
    problem policy.actions.isEmpty "policy.no_actions" ++
    problem policy.objects.isEmpty "policy.no_objects" ++
    problem ((policy.subjects ++ policy.actions ++ policy.objects).contains "*")
      "policy.wildcard_scope_requires_dedicated_confirmation" ++
    problem (strip policy.purpose == "") "policy.no_purpose" ++
    problem (strip policy.displaySummary == "") "policy.no_display_summary" ++
    problem (decide (policy.validUntil ≤ policy.validFrom))
      "policy.empty_validity_window" ++
    problem (policy.riskClass == "MODERATE" && !allowModerate)
      "policy.moderate_risk_requires_explicit_opt_in" ++
    problem (["HIGH", "CRITICAL"].contains policy.riskClass &&
      !allowHighRiskLocalPolicy) "policy.high_risk_not_leaseable" ++
    problem (! ["DENY", "ASK"].contains policy.unknownFactPolicy)
      "policy.invalid_unknown_fact_policy"

/-- The policy that `compile_draft` makes of a complete draft. -/
def draftedPolicy
    (host : Host) (draft : PolicyDraft) (issuerOperatorId digits : String) :
    CanonicalPolicy :=
  let subjects := draft.subjects.getD []
  let actions := draft.actions.getD []
  let objects := draft.objects.getD []
  let purpose := draft.purpose.getD ""
  let validFrom := draft.validFrom.getD ""
  let validUntil := draft.validUntil.getD ""
  let riskClass := draft.riskClass.getD ""
  { policyId := "pol_" ++ digits
    issuerOperatorId := issuerOperatorId
    subjects := subjects
    actions := actions
    objects := objects
    purpose := purpose
    condition := draft.condition
    numericLimits := draft.numericLimits
    riskClass := riskClass
    renewalMode := draft.renewalMode.getD "MANUAL"
    unknownFactPolicy := draft.unknownFactPolicy.getD "DENY"
    validFrom := validFrom
    validUntil := validUntil
    displaySummary := draftSummary host subjects actions objects purpose validFrom
      validUntil riskClass draft.useLimit draft.numericLimits
    useLimit := draft.useLimit
    requiredFacts := draft.requiredFacts
    sourceConversationRefs := draft.sourceConversationRefs
    closeObligations := draft.closeObligations }

/-- `compile_draft`, given the digits drawn for the policy id. -/
def compileDraft
    (host : Host) (draft : PolicyDraft) (issuerOperatorId digits : String)
    (allowModerate allowHighRiskLocalPolicy : Bool) : Compiled :=
  let questions := draftQuestions host draft
  if questions ≠ [] then .clarification questions
  else
    let policy := draftedPolicy host draft issuerOperatorId digits
    let problems := validatePolicy policy allowModerate allowHighRiskLocalPolicy
    if problems ≠ [] then
      .clarification (problems.map ("Policy cannot be issued as drafted: " ++ ·))
    else .policy policy

theorem compileDraft_eq_policy_iff
    {host : Host} {draft : PolicyDraft} {issuerOperatorId digits : String}
    {allowModerate allowHighRiskLocalPolicy : Bool} {policy : CanonicalPolicy} :
    compileDraft host draft issuerOperatorId digits allowModerate
        allowHighRiskLocalPolicy = .policy policy ↔
      draftQuestions host draft = [] ∧
        draftedPolicy host draft issuerOperatorId digits = policy ∧
        validatePolicy policy allowModerate allowHighRiskLocalPolicy = [] := by
  unfold compileDraft
  dsimp only
  constructor
  · intro hcompiled
    split_ifs at hcompiled with hquestions hproblems
    have hpolicy := Compiled.policy.inj hcompiled
    exact ⟨not_not.mp hquestions, hpolicy, hpolicy ▸ not_not.mp hproblems⟩
  · rintro ⟨hquestions, rfl, hproblems⟩
    rw [if_neg (not_not.mpr hquestions), if_neg (not_not.mpr hproblems)]

end Hydrogenuine.Lease
