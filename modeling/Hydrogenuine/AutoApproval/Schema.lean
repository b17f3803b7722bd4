import Hydrogenuine.OperatorQueue.Policy

/-!
# Auto-approval rules: records and policy

Embedding of `auto_approval_rules/schema.py` and `auto_approval_rules/policy.py`, with
the risk classes of `exciton_action_model/risk.py`.
-/

namespace Hydrogenuine.AutoApproval

open Support Hydrogenuine.Core OperatorQueue

/-! ## Enumerations -/

/-- `AutoApprovalRuleStatus`. -/
inductive RuleStatus where
  | active | expired | revoked | invalid | dryRunOnly
deriving DecidableEq

/-- `AutoApprovalRuleDecision`. -/
inductive RuleDecision where
  | allowed | denied | dryRunOnly | expired | revoked | rateLimited | scopeMismatch
  | riskTooHigh | stopBlocked | panicBlocked | fullStop
deriving DecidableEq

/-- `AgentActionRiskClass`. -/
inductive RiskClass where
  | readOnly | draftOnly | localWrite | externalRead | externalWrite | accountSensitive
  | credentialSensitive | financial | physicalWorld | privilegedSystem | forbidden
  | unknown
deriving DecidableEq

namespace RiskClass

def text : RiskClass → String
  | readOnly => "read_only"
  | draftOnly => "draft_only"
  | localWrite => "local_write"
  | externalRead => "external_read"
  | externalWrite => "external_write"
  | accountSensitive => "account_sensitive"
  | credentialSensitive => "credential_sensitive"
  | financial => "financial"
  | physicalWorld => "physical_world"
  | privilegedSystem => "privileged_system"
  | forbidden => "forbidden"
  | unknown => "unknown"

def all : List RiskClass :=
  [readOnly, draftOnly, localWrite, externalRead, externalWrite, accountSensitive,
    credentialSensitive, financial, physicalWorld, privilegedSystem, forbidden, unknown]

/-- `MAX_RISK_ORDER`, which leaves out one class. -/
def maxRiskOrder : RiskClass → Option ℕ
  | readOnly => some 0
  | draftOnly => some 1
  | externalRead => some 2
  | localWrite => some 3
  | externalWrite => some 4
  | accountSensitive => some 5
  | credentialSensitive => some 6
  | financial => some 7
  | privilegedSystem => some 8
  | forbidden => some 9
  | unknown => some 10
  | physicalWorld => none

end RiskClass

/-- `AgentActionSurface`. -/
inductive Surface where
  | exciton | social | web | email | calendar | filesystem | memory | source | anchor
  | tool | shell | account | api | publication | operator | proof | soak | control
  | unknown
deriving DecidableEq

def Surface.text : Surface → String
  | exciton => "exciton"
  | social => "social"
  | web => "web"
  | email => "email"
  | calendar => "calendar"
  | filesystem => "filesystem"
  | memory => "memory"
  | source => "source"
  | anchor => "anchor"
  | tool => "tool"
  | shell => "shell"
  | account => "account"
  | api => "api"
  | publication => "publication"
  | operator => "operator"
  | proof => "proof"
  | soak => "soak"
  | control => "control"
  | unknown => "unknown"

/-! ## Records -/

/-- The fields of `AutoApprovalRule` that an evaluation reads. -/
structure Rule where
  ruleId : String
  actionType : String
  allowedSurfaces : List String
  maxRiskClass : String
  expiresAt : String
  maxCountPerRun : ℤ := 1
  maxCountPerHour : ℤ := 10
  maxCountPerDay : ℤ := 50
  allowedDomains : List String := []
  requiredTrustBoundaryVerdict : String := "GREEN"
  dryRunOnly : Bool := false
  status : RuleStatus := .active
deriving DecidableEq

/-- `AutoApprovalRuleReceipt`, without its identifier and hash. -/
structure Receipt where
  ruleId : String
  event : String
  decision : RuleDecision
  reason : String
  /-- The instant of `created_at`, in microseconds. -/
  createdAt : ℤ
  queueItemId : Option String := none
deriving DecidableEq

/-- `AutoApprovalEvaluation`, without the identifier of its receipt. -/
structure Evaluation where
  decision : RuleDecision
  reason : String
  ruleId : Option String := none
deriving DecidableEq

/-- What an evaluation reads of an `OperatorQueueItem` and its action request. -/
structure QueueItem where
  queueItemId : String
  actionType : ActionType
  requestedSurface : Surface
  trustBoundaryVerdict : Option String := none
  /-- `getattr(item.action_request, "time_confidence", None)`. -/
  timeConfidence : Option ℚ := none

/-! ## `policy.py` -/

open ActionType RiskClass in
/-- `classify_action_risk`, by `DEFAULT_RISK_BY_ACTION`. -/
def classifyActionRisk : ActionType → RiskClass
  | socialPost => externalWrite
  | socialRead => externalRead
  | socialDraft => draftOnly
  | webReadUrl => externalRead
  | webSearch => externalRead
  | webClickLink => externalRead
  | webDownloadFile => externalRead
  | webFormFill => draftOnly
  | webFormSubmit => forbidden
  | webLogin => credentialSensitive
  | webUpload => externalWrite
  | webPostComment => externalWrite
  | webPurchase => financial
  | webAccountChange => accountSensitive
  | emailDraft => draftOnly
  | emailSend => externalWrite
  | calendarCreate => draftOnly
  | fileWrite => localWrite
  | memoryMutation => privilegedSystem
  | sourcePatch => privilegedSystem
  | anchorPush => privilegedSystem
  | toolExecute => externalRead
  | shellCommand => privilegedSystem
  | accountAction => accountSensitive
  | externalApiCall => externalRead
  | publication => externalWrite
  | operatorNote => draftOnly
  | proofOpen => readOnly
  | statusRefresh => readOnly
  | stopSoak => privilegedSystem
  | panicStop => privilegedSystem
  | finalizeSoak => privilegedSystem

open ActionType in
/-- `FORBIDDEN_RULE_ACTION_TYPES`: the other texts of the set name no action type. -/
def forbiddenRuleActionTypes : List ActionType :=
  [socialPost, webFormSubmit, webLogin, webUpload, webPostComment, webPurchase,
    webAccountChange, emailSend, shellCommand, sourcePatch, memoryMutation, anchorPush,
    accountAction]

open ActionType in
def requiresOperatorReview (type : ActionType) : Bool :=
  decide (type = socialPost) || phase3ForbiddenActionTypes.contains type ||
    [webFormSubmit, webLogin, webPurchase, webAccountChange, emailSend, shellCommand,
      sourcePatch, memoryMutation, anchorPush, accountAction, publication].contains type

def canBeAutoApprovalCandidate (type : ActionType) : Bool :=
  if phase3ForbiddenActionTypes.contains type then false
  else if requiresOperatorReview type then false
  else [RiskClass.readOnly, RiskClass.draftOnly].contains (classifyActionRisk type)

/-- `is_forbidden_rule_action_type`, of the value of an action type. -/
def isForbiddenRuleActionType (type : ActionType) : Bool :=
  if forbiddenRuleActionTypes.contains type then true
  else !canBeAutoApprovalCandidate type

/-- `risk_within_ceiling`, of the value of an action type. -/
def riskWithinCeiling (type : ActionType) (maxRiskClass : String) : Bool :=
  match RiskClass.all.find? (·.text = maxRiskClass) with
  | none => false
  | some ceiling =>
      decide ((classifyActionRisk type).maxRiskOrder.getD 99 ≤
        ceiling.maxRiskOrder.getD 0)

end Hydrogenuine.AutoApproval
