import Mathlib.Logic.Function.Basic
import Hydrogenuine.AutoApproval.Schema
import Hydrogenuine.OperatorQueue.Runtimes
import Hydrogenuine.Support.Stateful

/-!
# Evaluating auto-approval rules

Embedding of `auto_approval_rules/store.py`, `receipts.py` and `evaluator.py`.  The rules
file and the receipts file are shared; the usage counters belong to a store object, and
a store that has not been asked yet is as it was opened.
-/

namespace Hydrogenuine.AutoApproval

open Support Hydrogenuine.Core OperatorQueue

/-! ## `store.py` -/

/-- The counters of a rule in a store object. -/
structure Usage where
  run : ℕ := 0
  hour : ℕ := 0
  day : ℕ := 0
deriving DecidableEq

/-- The two files, and the counters of every store object that is open on them. -/
structure World where
  rules : List Rule
  receipts : List Receipt
  usage : ℕ → String → Usage

abbrev EvalM := EStateM PyError World

/-- `rules[i] = rule` at the first rule with the same identifier. -/
def replaceRule (rule : Rule) : List Rule → Option (List Rule)
  | [] => none
  | r :: rules =>
      if r.ruleId = rule.ruleId then some (rule :: rules)
      else (replaceRule rule rules).map (r :: ·)

/-- `update_rule`: `RuleNotFoundError` where no rule has the identifier. -/
def updateRule (rule : Rule) : EvalM Unit := do
  match replaceRule rule (← get).rules with
  | some rules => modify fun w => { w with rules }
  | none => throw (.runtimeError rule.ruleId)

def appendReceipt (receipt : Receipt) : EvalM Unit :=
  modify fun w => { w with receipts := w.receipts ++ [receipt] }

def Usage.incremented (u : Usage) : Usage := ⟨u.run + 1, u.hour + 1, u.day + 1⟩

def incrementUsage (store : ℕ) (ruleId : String) : EvalM Unit :=
  modify fun w =>
    { w with
      usage := Function.update w.usage store
        (Function.update (w.usage store) ruleId (w.usage store ruleId).incremented) }

/-! ## `evaluator.py` -/

/-- A call of `evaluate_for_queue_item` on a store, and what it finds outside. -/
structure Call where
  /-- The store object of the evaluator. -/
  store : ℕ
  workspace : String
  item : QueueItem
  domain : Option String := none
  /-- `datetime.now(timezone.utc)`, in microseconds. -/
  now : ℤ
  control : ControlFiles

def parseExpiry (host : Host) (expiresAt : String) (now : ℤ) : Except PyError Bool :=
  match host.fromisoformat (replaceZ expiresAt) with
  | none => .ok true
  | some expiry =>
      if expiry.aware then .ok (decide (expiry.instant ≤ now))
      else .error (.typeError "can't compare offset-naive and offset-aware datetimes")

/-- `deny_auto_approval_if_clock_uncertain`: the reason of the refusal. -/
def clockRefusal? (timeConfidence : Option ℚ) : Option String :=
  if timeConfidence.getD 1 < 7 / 10 then some "RED_AUTO_APPROVAL_WITH_UNTRUSTED_CLOCK"
  else none

def limitReached? (rule : Rule) (u : Usage) : Option String :=
  if (u.run : ℤ) ≥ rule.maxCountPerRun then some "run limit"
  else if (u.hour : ℤ) ≥ rule.maxCountPerHour then some "hour limit"
  else if (u.day : ℤ) ≥ rule.maxCountPerDay then some "day limit"
  else none

/-- `s.upper()` for ASCII letters. -/
def upper (s : String) : String := String.ofList (s.toList.map Char.toUpper)

/-- The trust boundary verdict of the item is not the one that the rule asks for. -/
def trustMismatch (rule : Rule) (item : QueueItem) : Bool :=
  match item.trustBoundaryVerdict with
  | some verdict =>
      verdict ≠ "" && rule.requiredTrustBoundaryVerdict ≠ "" &&
        !startsWith (upper verdict) (upper (String.ofList
          (rule.requiredTrustBoundaryVerdict.toList.takeWhile (· ≠ '_'))))
  | none => false

/-- The checks of `_evaluate_rule` that come before the limits. -/
def scopeRefusal? (rule : Rule) (item : QueueItem) (domain : Option String) :
    Option (RuleDecision × String) :=
  if rule.actionType ≠ item.actionType.text then
    some (.scopeMismatch, "action_type mismatch")
  else if !riskWithinCeiling item.actionType rule.maxRiskClass then
    some (.riskTooHigh, "risk above ceiling")
  else if rule.allowedSurfaces ≠ [] &&
      !rule.allowedSurfaces.contains item.requestedSurface.text then
    some (.scopeMismatch, "surface mismatch")
  else
    match domain with
    | some name =>
        if rule.allowedDomains ≠ [] && name ≠ "" && !rule.allowedDomains.contains name then
          some (.scopeMismatch, "domain mismatch")
        else none
    | none => none

/-- What `_evaluate_rule` answers for a rule that has not expired. -/
def judgeRule (rule : Rule) (item : QueueItem) (domain : Option String) (u : Usage) :
    RuleDecision × String :=
  match scopeRefusal? rule item domain with
  | some refusal => refusal
  | none =>
      match limitReached? rule u with
      | some limit => (.rateLimited, limit)
      | none =>
          if trustMismatch rule item then (.denied, "trust boundary mismatch")
          else if rule.dryRunOnly then (.dryRunOnly, "dry-run only rule")
          else (.allowed, "rule matched")

section Evaluation

variable (host : Host) (call : Call)

def evaluateRule (rule : Rule) : EvalM Evaluation := do
  if rule.status = .revoked then return ⟨.revoked, "revoked", rule.ruleId⟩
  if ← raising (parseExpiry host rule.expiresAt call.now) then
    let expired := { rule with status := .expired }
    updateRule expired
    appendReceipt
      { ruleId := rule.ruleId
        event := "rule_event"
        decision := .expired
        reason := "expired"
        createdAt := call.now }
    return ⟨.expired, "rule expired", rule.ruleId⟩
  let (decision, reason) :=
    judgeRule rule call.item call.domain ((← get).usage call.store rule.ruleId)
  return ⟨decision, reason, rule.ruleId⟩

/-- The loop of `evaluate_for_queue_item`. -/
def evaluateRules : List Rule → EvalM Evaluation
  | [] => return ⟨.denied, "no matching active rule", none⟩
  | rule :: rules => do
      let result ← evaluateRule host call rule
      if result.decision = .allowed then
        appendReceipt
          { ruleId := rule.ruleId
            event := "evaluate"
            decision := result.decision
            reason := result.reason
            createdAt := call.now
            queueItemId := some call.item.queueItemId }
        incrementUsage call.store rule.ruleId
        return result
      if result.decision ≠ .denied ∧ result.decision ≠ .scopeMismatch then return result
      evaluateRules rules

def World.activeRules (w : World) : List Rule := w.rules.filter (·.status = .active)

def evaluateForQueueItem : EvalM Evaluation := do
  let stopPanic ← raising (loadStopPanicState call.control call.workspace none)
  if stopPanic.panicActive then return ⟨.panicBlocked, "panic active", none⟩
  if let some reason := clockRefusal? call.item.timeConfidence then
    return ⟨.denied, reason, none⟩
  if stopPanic.stopActive then return ⟨.stopBlocked, "stop active", none⟩
  if isForbiddenRuleActionType call.item.actionType then
    return ⟨.denied, "action type not auto-approvable", none⟩
  evaluateRules host call (← get).activeRules

end Evaluation

def rulesMachine (host : Host) : Machine World Call (Except PyError Evaluation) where
  step w call :=
    (finalState (evaluateForQueueItem host call) w,
      outcome (evaluateForQueueItem host call) w)

end Hydrogenuine.AutoApproval
