import Hydrogenuine.Core.Host
import Hydrogenuine.Support.Dict
import Hydrogenuine.Support.Trilean

/-!
# The policy language

Embedding of `hg_lease/policy.py`: the condition syntax, its evaluation against
a context of facts and a clock reading, numeric limits, and the canonical
policy.

The truth value of a result is carried indirectly, by `ok` and by the reasons:
a result that is not `ok` is open when one of its reasons is an unknown, stale
or mismatched fact, and false otherwise.  `CondResult.truth` reads that value
off, and evaluation is shown to be monotone in the information order on it.
-/

namespace Hydrogenuine.Lease

open Support Hydrogenuine.Core

/-! ## Reasons -/

def reasonUnknownFact : String := "policy.unknown_fact"
def reasonStaleFact : String := "policy.stale_fact"
def reasonUnitMismatch : String := "policy.unit_mismatch"
def reasonConditionFalse : String := "policy.condition_false"
def reasonOutsideTimeWindow : String := "policy.outside_time_window"

/-- The reasons that keep a result open under negation. -/
def isOpenReason (reason : String) : Bool :=
  startsWith reason reasonUnknownFact || startsWith reason reasonStaleFact ||
    startsWith reason reasonUnitMismatch

structure CondResult where
  ok : Bool
  reasons : List String
deriving DecidableEq

/-- The truth value that `ok` and the reasons stand for. -/
def CondResult.truth (res : CondResult) : Trilean :=
  if res.ok then .yes
  else if res.reasons.any isOpenReason then .unknown
  else .no

/-! ## Facts and leaves -/

structure SituationFact where
  name : String
  typedValue : PyVal
  observedAt : String
  sourceId : String
  unit : Option String
  expiresAt : Option String
  sourceTrust : ℤ
  factId : String

/-- The fact has not expired at `now`. -/
def SituationFact.fresh (fact : SituationFact) (now : String) : Bool :=
  match fact.expiresAt with
  | none => true
  | some expires => decide (now < expires)

structure EvalContext where
  facts : Dict String SituationFact
  nowWall : String

inductive CompareOp where
  | lt
  | le
  | gt
  | ge
  | eq
  | ne
  | isIn
  | notIn
deriving DecidableEq

def CompareOp.text : CompareOp → String
  | lt => "lt"
  | le => "le"
  | gt => "gt"
  | ge => "ge"
  | eq => "eq"
  | ne => "ne"
  | isIn => "in"
  | notIn => "not_in"

structure FactCondition where
  factName : String
  op : CompareOp
  value : PyVal
  unit : Option String
  named : factName ≠ ""

namespace FactCondition

/-- `FactCondition._compare`; `none` stands for a `TypeError`. -/
def compare (cond : FactCondition) (actual : PyVal) : Option Bool :=
  match cond.op with
  | .lt => actual.pyLt cond.value
  | .le => actual.pyLe cond.value
  | .gt => cond.value.pyLt actual
  | .ge => cond.value.pyLe actual
  | .eq => some (actual.pyEq cond.value)
  | .ne => some (!actual.pyEq cond.value)
  | .isIn => actual.pyIn cond.value
  | .notIn => (actual.pyIn cond.value).map (!·)

def evaluate (cond : FactCondition) (ctx : EvalContext) : CondResult :=
  match ctx.facts.get? cond.factName with
  | none => ⟨false, [reasonUnknownFact ++ ":" ++ cond.factName]⟩
  | some fact =>
      if fact.fresh ctx.nowWall = false then
        ⟨false, [reasonStaleFact ++ ":" ++ cond.factName]⟩
      else if cond.unit.isSome ∧ fact.unit ≠ cond.unit then
        ⟨false, [reasonUnitMismatch ++ ":" ++ cond.factName ++ ":" ++
          fact.unit.getD "None" ++ "!=" ++ cond.unit.getD "None"]⟩
      else
        match cond.compare fact.typedValue with
        | none =>
            ⟨false, [reasonUnitMismatch ++ ":" ++ cond.factName ++ ":untyped"]⟩
        | some true => ⟨true, []⟩
        | some false => ⟨false, [reasonConditionFalse ++ ":" ++ cond.factName]⟩

end FactCondition

/-- `str.split` at one character. -/
def splitAt (sep : Char) : List Char → List (List Char)
  | [] => [[]]
  | c :: cs =>
      match splitAt sep cs with
      | [] => [[c]]
      | part :: parts =>
          if c = sep then [] :: part :: parts else (c :: part) :: parts

def readInt : ℕ → Bool → List Char → Option ℕ
  | value, afterDigit, [] => if afterDigit then some value else none
  | value, afterDigit, c :: cs =>
      if c = '_' then if afterDigit then readInt value false cs else none
      else if c.isDigit then readInt (10 * value + (c.toNat - 48)) true cs
      else none

/-- `int(text)` for ASCII digits: surrounding blanks and a sign are allowed. -/
def pyInt (text : List Char) : Option ℤ :=
  match (strip (String.ofList text)).toList with
  | '+' :: cs => (readInt 0 false cs).map fun n => (n : ℤ)
  | '-' :: cs => (readInt 0 false cs).map fun n => -(n : ℤ)
  | cs => (readInt 0 false cs).map fun n => (n : ℤ)

/-- `_parse_hhmm`; `none` stands for a rejected text. -/
def parseHhmm (raw : String) : Option (ℕ × ℕ) :=
  match splitAt ':' raw.toList with
  | [first, second] =>
      match pyInt first, pyInt second with
      | some hour, some minute =>
          if 0 ≤ hour ∧ hour ≤ 23 ∧ 0 ≤ minute ∧ minute ≤ 59 then
            some (hour.toNat, minute.toNat)
          else none
      | _, _ => none
  | _ => none

/-- `TimeWindowCondition`: both texts were parsed when it was built. -/
structure TimeWindow where
  startHhmm : String
  endHhmm : String
  start : ℕ × ℕ
  stop : ℕ × ℕ
  start_eq : parseHhmm startHhmm = some start
  stop_eq : parseHhmm endHhmm = some stop

/-- Lexicographic `<` on hour and minute. -/
def clockLt (a b : ℕ × ℕ) : Bool :=
  decide (a.1 < b.1) || (a.1 == b.1 && decide (a.2 < b.2))

namespace TimeWindow

/-- Whether the window is open at an hour and minute; it may cross midnight. -/
def inside (window : TimeWindow) (current : ℕ × ℕ) : Bool :=
  if !clockLt window.stop window.start then
    !clockLt current window.start && clockLt current window.stop
  else !clockLt current window.start || clockLt current window.stop

/-- `datetime.fromisoformat(now.replace("Z", "+00:00"))`, hour and minute. -/
def clockOf (host : Host) (now : String) : Option (ℕ × ℕ) :=
  (host.fromisoformat (replaceZ now)).map fun t => (t.hour, t.minute)

def evaluate (host : Host) (window : TimeWindow) (ctx : EvalContext) :
    Except PyError CondResult :=
  match clockOf host ctx.nowWall with
  | none => .error (.valueError "Invalid isoformat string")
  | some current =>
      if window.inside current then .ok ⟨true, []⟩
      else .ok ⟨false, [reasonOutsideTimeWindow ++ ":" ++ window.startHhmm ++
        "-" ++ window.endHhmm]⟩

end TimeWindow

/-! ## Conditions -/

inductive Condition where
  | fact (cond : FactCondition)
  | timeWindow (window : TimeWindow)
  | allOf (children : List Condition)
  | anyOf (children : List Condition)
  | notCond (child : Condition)

namespace Condition

/-- `NotCond.evaluate` on the result of its child: an open result stays as it
is, so that an unknown does not turn into an allowance. -/
def negate (res : CondResult) : CondResult :=
  if res.reasons.any isOpenReason then ⟨false, res.reasons⟩
  else if res.ok then ⟨false, [reasonConditionFalse ++ ":not"]⟩
  else ⟨true, []⟩

mutual

/-- `evaluate` of every condition class. -/
def evaluate (host : Host) (ctx : EvalContext) :
    Condition → Except PyError CondResult
  | .fact cond => .ok (cond.evaluate ctx)
  | .timeWindow window => window.evaluate host ctx
  | .allOf children => allOfLoop host ctx children true []
  | .anyOf children => anyOfLoop host ctx children []
  | .notCond child =>
      match evaluate host ctx child with
      | .error e => .error e
      | .ok res => .ok (negate res)

/-- The loop of `AllOf.evaluate`: every child is evaluated, the reasons of the
failing ones are collected. -/
def allOfLoop (host : Host) (ctx : EvalContext) :
    List Condition → Bool → List String → Except PyError CondResult
  | [], ok, reasons => .ok ⟨ok, reasons⟩
  | child :: children, ok, reasons =>
      match evaluate host ctx child with
      | .error e => .error e
      | .ok res =>
          if res.ok then allOfLoop host ctx children ok reasons
          else allOfLoop host ctx children false (reasons ++ res.reasons)

/-- The loop of `AnyOf.evaluate`: the first child that holds ends it. -/
def anyOfLoop (host : Host) (ctx : EvalContext) :
    List Condition → List String → Except PyError CondResult
  | [], reasons =>
      .ok ⟨false, if reasons.isEmpty then [reasonConditionFalse] else reasons⟩
  | child :: children, reasons =>
      match evaluate host ctx child with
      | .error e => .error e
      | .ok res =>
          if res.ok then .ok ⟨true, []⟩
          else anyOfLoop host ctx children (reasons ++ res.reasons)

end

mutual

def toPayload : Condition → PyVal
  | .fact cond =>
      .dict [
        ("type", .str "fact"), ("fact_name", .str cond.factName),
        ("op", .str cond.op.text), ("value", cond.value),
        ("unit", .ofOption cond.unit)]
  | .timeWindow window =>
      .dict [
        ("type", .str "time_window"), ("start", .str window.startHhmm),
        ("end", .str window.endHhmm)]
  | .allOf children =>
      .dict [("type", .str "all_of"), ("children", .list (toPayloads children))]
  | .anyOf children =>
      .dict [("type", .str "any_of"), ("children", .list (toPayloads children))]
  | .notCond child =>
      .dict [("type", .str "not"), ("child", child.toPayload)]

def toPayloads : List Condition → List PyVal
  | [] => []
  | child :: children => child.toPayload :: toPayloads children

end

mutual

def factNames : Condition → List String
  | .fact cond => [cond.factName]
  | .timeWindow _ => []
  | .allOf children => factNamesOf children
  | .anyOf children => factNamesOf children
  | .notCond child => child.factNames

def factNamesOf : List Condition → List String
  | [] => []
  | child :: children => child.factNames ++ factNamesOf children

end

theorem induct {P : Condition → Prop}
    (hfact : ∀ cond, P (.fact cond))
    (hwindow : ∀ window, P (.timeWindow window))
    (hall : ∀ children, (∀ c ∈ children, P c) → P (.allOf children))
    (hany : ∀ children, (∀ c ∈ children, P c) → P (.anyOf children))
    (hnot : ∀ child, P child → P (.notCond child))
    (c : Condition) : P c := by
  refine @Condition.rec P (fun cs => ∀ c ∈ cs, P c)
    hfact hwindow hall hany hnot ?_ ?_ c
  · intro c hc
    cases hc
  · intro child children hchild hchildren c hc
    rcases List.mem_cons.mp hc with rfl | hc
    · exact hchild
    · exact hchildren c hc

end Condition

/-! ## Limits and policies -/

structure NumericLimit where
  parameter : String
  maxValue : PyFloat
  unit : String
  minValue : PyFloat
  unit_ne : unit ≠ ""
  ordered : PyVal.numLt maxValue minValue = false

def NumericLimit.toPayload (limit : NumericLimit) : PyVal :=
  .dict [
    ("type", .str "numeric_limit"),
    ("parameter", .str limit.parameter),
    ("max_value", .float limit.maxValue),
    ("min_value", .float limit.minValue),
    ("unit", .str limit.unit)]

/-- The number a typed parameter carries; booleans do not count. -/
def typedNumber : PyVal → Option PyFloat
  | .int n => some (.finite n "")
  | .float x => some x
  | _ => none

def NumericLimit.check
    (host : Host) (limit : NumericLimit) (parameters : List (String × PyVal)) :
    CondResult :=
  let entry := (PyVal.item? parameters limit.parameter).getD .none
  match entry with
  | .none => ⟨false, ["limit.missing_parameter:" ++ limit.parameter]⟩
  | entry =>
      let (value, unit) := match entry with
        | .dict items =>
            ((PyVal.item? items "value").getD .none,
              (PyVal.item? items "unit").getD .none)
        | plain => (plain, PyVal.none)
      if unit.pyEq (.str limit.unit) = false then
        ⟨false, ["limit.unit_mismatch:" ++ limit.parameter ++ ":" ++
          host.str unit ++ "!=" ++ limit.unit]⟩
      else
        match typedNumber value with
        | none => ⟨false, ["limit.untyped:" ++ limit.parameter]⟩
        | some number =>
            if PyVal.numLt limit.maxValue number ||
                PyVal.numLt number limit.minValue then
              ⟨false, ["limit.exceeded:" ++ limit.parameter ++ ":" ++
                host.str value]⟩
            else ⟨true, []⟩

structure CanonicalPolicy where
  policyId : String
  issuerOperatorId : String
  subjects : List String
  actions : List String
  objects : List String
  purpose : String
  condition : Option Condition
  numericLimits : List NumericLimit
  riskClass : String
  renewalMode : String
  unknownFactPolicy : String
  validFrom : String
  validUntil : String
  displaySummary : String
  useLimit : Option ℤ
  requiredFacts : List String
  sourceConversationRefs : List String
  closeObligations : List (List (String × PyVal))

namespace CanonicalPolicy

def toPayload (policy : CanonicalPolicy) : PyVal :=
  .dict [
    ("schema_version", .str "hg.policy.v1"),
    ("policy_id", .str policy.policyId),
    ("issuer_operator_id", .str policy.issuerOperatorId),
    ("subjects", .ofStrings policy.subjects),
    ("actions", .ofStrings policy.actions),
    ("objects", .ofStrings policy.objects),
    ("purpose", .str policy.purpose),
    ("condition", match policy.condition with
      | some condition => condition.toPayload
      | none => .none),
    ("numeric_limits", .list (policy.numericLimits.map NumericLimit.toPayload)),
    ("risk_class", .str policy.riskClass),
    ("renewal_mode", .str policy.renewalMode),
    ("unknown_fact_policy", .str policy.unknownFactPolicy),
    ("valid_from", .str policy.validFrom),
    ("valid_until", .str policy.validUntil),
    ("use_limit", match policy.useLimit with
      | some n => .int n
      | none => .none),
    ("required_facts", .ofStrings policy.requiredFacts),
    ("display_summary", .str policy.displaySummary),
    ("source_conversation_refs", .ofStrings policy.sourceConversationRefs),
    ("close_obligations", .list (policy.closeObligations.map .dict))]

def canonicalPolicyHash (host : Host) (policy : CanonicalPolicy) : String :=
  host.canonicalHash policy.toPayload

end CanonicalPolicy

end Hydrogenuine.Lease
