import Hydrogenuine.Lease.Compiler

/-!
# Reading conditions and limits back

Embedding of `condition_from_payload` of `hg_lease/policy.py`, of the checks that the
classes make when they are built, and of the way `compile_draft` reads numeric limits.
The payload of every condition is read back as this condition, and the payload of every
limit as this limit.

The syntax is typed: a unit is a text or missing, and the bounds of a limit are numbers.
Payloads with other values in these places are rejected here.
-/

namespace Hydrogenuine.Lease

open Support Hydrogenuine.Core

abbrev Items := List (String × PyVal)

/-- What reading a payload may raise: a `PolicyValidationError`, or another error. -/
inductive PolicyError where
  | validation (message : String)
  | raised (err : PyError)
deriving DecidableEq

/-- `repr` of a value, read off the rendering of a list. -/
def reprOf (host : Host) (value : PyVal) : String :=
  let rendered := host.str (.list [value])
  slice rendered 1 (rendered.length - 1)

def className : PyVal → String
  | .none => "NoneType"
  | .bool _ => "bool"
  | .int _ => "int"
  | .float _ => "float"
  | .str _ => "str"
  | .list _ => "list"
  | .dict _ => "dict"

/-- `payload[key]` of a dictionary. -/
def demand (items : Items) (key : String) : Except PolicyError PyVal :=
  match PyVal.item? items key with
  | some value => .ok value
  | none => .error (.raised (.keyError key))

/-! ## Leaves -/

def compareOps : List CompareOp :=
  [.lt, .le, .gt, .ge, .eq, .ne, .isIn, .notIn]

def readCompareOp (host : Host) : PyVal → Except PolicyError CompareOp
  | .list _ => .error (.raised (.typeError "unhashable type: 'list'"))
  | .dict _ => .error (.raised (.typeError "unhashable type: 'dict'"))
  | value =>
      match compareOps.find? fun op => value.pyEq (.str op.text) with
      | some op => .ok op
      | none => .error (.validation ("disallowed op: " ++ reprOf host value))

def readUnit : PyVal → Except PolicyError (Option String)
  | .none => .ok none
  | .str unit => .ok (some unit)
  | value => .error (.raised (.typeError ("unit of type " ++ className value)))

/-- `FactCondition(...)`. -/
def newFactCondition
    (host : Host) (factName op value unit : PyVal) :
    Except PolicyError FactCondition := do
  let op ← readCompareOp host op
  match factName with
  | .str name =>
      if named : name ≠ "" then
        let unit ← readUnit unit
        return ⟨name, op, value, unit, named⟩
      else throw (.validation "fact_name required")
  | _ => throw (.validation "fact_name required")

/-- Why `_parse_hhmm` rejects a value. -/
def hhmmError (host : Host) (raw : PyVal) : PolicyError :=
  let literal (part : List Char) : PolicyError :=
    .raised (.valueError ("invalid literal for int() with base 10: " ++
      reprOf host (.str (String.ofList part))))
  match splitAt ':' (host.str raw).toList with
  | [first, second] =>
      if pyInt first = none then literal first
      else if pyInt second = none then literal second
      else .validation ("time out of range: " ++ reprOf host raw)
  | _ => .validation ("time must be HH:MM, got " ++ reprOf host raw)

/-- `TimeWindowCondition(...)`.  Only a text renders as a time. -/
def newTimeWindow (host : Host) (start stop : PyVal) :
    Except PolicyError TimeWindow :=
  match start with
  | .str startText =>
      match hstart : parseHhmm startText with
      | none => .error (hhmmError host start)
      | some startTime =>
          match stop with
          | .str stopText =>
              match hstop : parseHhmm stopText with
              | none => .error (hhmmError host stop)
              | some stopTime =>
                  .ok ⟨startText, stopText, startTime, stopTime, hstart, hstop⟩
          | _ => .error (hhmmError host stop)
  | _ => .error (hhmmError host start)

/-! ## Conditions -/

def conditionTypes : List String := ["fact", "time_window", "all_of", "any_of", "not"]

def readKind (host : Host) (items : Items) : Except PolicyError String :=
  match PyVal.getItem items "type" with
  | .list _ => .error (.raised (.typeError "unhashable type: 'list'"))
  | .dict _ => .error (.raised (.typeError "unhashable type: 'dict'"))
  | .str kind =>
      if kind ∈ conditionTypes then .ok kind
      else .error (.validation
        ("disallowed condition type: " ++ reprOf host (.str kind)))
  | value =>
      .error (.validation ("disallowed condition type: " ++ reprOf host value))

def factFromItems (host : Host) (items : Items) :
    Except PolicyError FactCondition := do
  let factName ← demand items "fact_name"
  let op ← demand items "op"
  let value ← demand items "value"
  newFactCondition host factName op value (PyVal.getItem items "unit")

def windowFromItems (host : Host) (items : Items) :
    Except PolicyError TimeWindow := do
  let start ← demand items "start"
  let stop ← demand items "end"
  newTimeWindow host start stop

/-- The error of `payload.get` on a value that is no dictionary. -/
def noGet (value : PyVal) : PolicyError :=
  .raised (.attributeError
    ("'" ++ className value ++ "' object has no attribute 'get'"))

mutual

def conditionFromPayload (host : Host) : PyVal → Except PolicyError Condition
  | .dict items => do
      match ← readKind host items with
      | "fact" => return .fact (← factFromItems host items)
      | "time_window" => return .timeWindow (← windowFromItems host items)
      | "all_of" => return .allOf (← childrenFromItems host items)
      | "any_of" => return .anyOf (← childrenFromItems host items)
      | _ => return .notCond (← childFromItems host items)
  | value => throw (noGet value)

/-- The condition under `child`. -/
def childFromItems (host : Host) : Items → Except PolicyError Condition
  | [] => throw (.raised (.keyError "child"))
  | (key, value) :: items =>
      if key = "child" then conditionFromPayload host value
      else childFromItems host items

/-- The conditions under `children`. -/
def childrenFromItems (host : Host) :
    Items → Except PolicyError (List Condition)
  | [] => throw (.raised (.keyError "children"))
  | (key, value) :: items =>
      if key = "children" then childrenFromPayload host value
      else childrenFromItems host items

/-- The conditions that a value iterates over: a text gives its characters and a
dictionary its keys. -/
def childrenFromPayload (host : Host) :
    PyVal → Except PolicyError (List Condition)
  | .list payloads => conditionsFromPayloads host payloads
  | .str text => if text = "" then return [] else throw (noGet (.str text))
  | .dict items =>
      if items.isEmpty then return [] else throw (noGet (.str ""))
  | value => throw (.raised (.typeError
      ("'" ++ className value ++ "' object is not iterable")))

def conditionsFromPayloads (host : Host) :
    List PyVal → Except PolicyError (List Condition)
  | [] => return []
  | payload :: payloads => do
      let child ← conditionFromPayload host payload
      let children ← conditionsFromPayloads host payloads
      return child :: children

end

/-! ## Limits -/

def readBound : PyVal → Except PolicyError PyFloat
  | .bool b => .ok (.finite (if b then 1 else 0) (if b then "True" else "False"))
  | .int n => .ok (.finite n (toString n))
  | .float x => .ok x
  | value => .error (.raised (.typeError ("bound of type " ++ className value)))

def readName : PyVal → Except PolicyError String
  | .str name => .ok name
  | value => .error (.raised (.typeError ("name of type " ++ className value)))

/-- `NumericLimit(...)`. -/
def newNumericLimit (parameter maxValue unit minValue : PyVal) :
    Except PolicyError NumericLimit := do
  if unit.truthy then
    let parameter ← readName parameter
    let unit ← readName unit
    let maxValue ← readBound maxValue
    let minValue ← readBound minValue
    if unit_ne : unit ≠ "" then
      if ordered : PyVal.numLt maxValue minValue = false then
        return ⟨parameter, maxValue, unit, minValue, unit_ne, ordered⟩
      else throw (.validation "max_value < min_value")
    else throw (.validation "NumericLimit requires an explicit unit")
  else throw (.validation "NumericLimit requires an explicit unit")

/-- `NumericLimit(parameter=l["parameter"], ...)` of `compile_draft`. -/
def limitFromPayload : PyVal → Except PolicyError NumericLimit
  | .dict items => do
      let parameter ← demand items "parameter"
      let maxValue ← demand items "max_value"
      let unit ← demand items "unit"
      newNumericLimit parameter maxValue unit
        ((PyVal.item? items "min_value").getD (.float (.finite 0 "0.0")))
  | .list _ => throw (.raised (.typeError
      "list indices must be integers or slices, not str"))
  | .str _ => throw (.raised (.typeError "string indices must be integers, not 'str'"))
  | value => throw (.raised (.typeError
      ("'" ++ className value ++ "' object is not subscriptable")))

/-! ## What is written is read back -/

theorem readCompareOp_text (host : Host) (op : CompareOp) :
    readCompareOp host (.str op.text) = .ok op := by
  cases op <;> rfl

theorem readUnit_ofOption (unit : Option String) :
    readUnit (PyVal.ofOption unit) = .ok unit := by
  cases unit with
  | none => rfl
  | some unit => rfl

theorem newFactCondition_self (host : Host) (cond : FactCondition) :
    newFactCondition host (.str cond.factName) (.str cond.op.text) cond.value
      (.ofOption cond.unit) = .ok cond := by
  unfold newFactCondition
  rw [readCompareOp_text, readUnit_ofOption]
  change (if named : cond.factName ≠ "" then _ else _) = _
  rw [dif_pos cond.named]
  rfl

theorem newTimeWindow_self (host : Host) (window : TimeWindow) :
    newTimeWindow host (.str window.startHhmm) (.str window.endHhmm) =
      .ok window := by
  obtain ⟨startHhmm, endHhmm, start, stop, hstart, hstop⟩ := window
  unfold newTimeWindow
  dsimp only
  split
  · next hnone =>
      rw [hstart] at hnone
      cases hnone
  · next startTime hsome =>
      split
      · next hnone =>
          rw [hstop] at hnone
          cases hnone
      · next stopTime hsome' =>
          obtain rfl := Option.some.inj (hstart.symm.trans hsome)
          obtain rfl := Option.some.inj (hstop.symm.trans hsome')
          rfl

theorem conditionsFromPayloads_toPayloads
    (host : Host) {children : List Condition}
    (h : ∀ child ∈ children,
      conditionFromPayload host child.toPayload = .ok child) :
    conditionsFromPayloads host (Condition.toPayloads children) =
      .ok children := by
  induction children with
  | nil => rfl
  | cons child children ih =>
      have hfirst := h child List.mem_cons_self
      have hrest := ih fun other hother => h other (List.mem_cons_of_mem _ hother)
      rw [Condition.toPayloads, conditionsFromPayloads, hfirst, hrest]
      rfl

theorem conditionFromPayload_toPayload (host : Host) (c : Condition) :
    conditionFromPayload host c.toPayload = .ok c := by
  induction c using Condition.induct with
  | hfact cond =>
      have hread : factFromItems host
          [("type", .str "fact"), ("fact_name", .str cond.factName),
            ("op", .str cond.op.text), ("value", cond.value),
            ("unit", .ofOption cond.unit)] = .ok cond :=
        newFactCondition_self host cond
      rw [Condition.toPayload, conditionFromPayload]
      change (do return Condition.fact (← factFromItems host _)) = _
      rw [hread]
      rfl
  | hwindow window =>
      have hread : windowFromItems host
          [("type", .str "time_window"), ("start", .str window.startHhmm),
            ("end", .str window.endHhmm)] = .ok window :=
        newTimeWindow_self host window
      rw [Condition.toPayload, conditionFromPayload]
      change (do return Condition.timeWindow (← windowFromItems host _)) = _
      rw [hread]
      rfl
  | hall children ih =>
      rw [Condition.toPayload, conditionFromPayload]
      change (do return Condition.allOf (← conditionsFromPayloads host _)) = _
      rw [conditionsFromPayloads_toPayloads host ih]
      rfl
  | hany children ih =>
      rw [Condition.toPayload, conditionFromPayload]
      change (do return Condition.anyOf (← conditionsFromPayloads host _)) = _
      rw [conditionsFromPayloads_toPayloads host ih]
      rfl
  | hnot child ih =>
      rw [Condition.toPayload, conditionFromPayload]
      change (do return Condition.notCond (← conditionFromPayload host _)) = _
      rw [ih]
      rfl

theorem limitFromPayload_toPayload (limit : NumericLimit) :
    limitFromPayload limit.toPayload = .ok limit := by
  have htruthy : (PyVal.str limit.unit).truthy = true := bne_iff_ne.mpr limit.unit_ne
  change newNumericLimit (.str limit.parameter) (.float limit.maxValue)
    (.str limit.unit) (.float limit.minValue) = _
  unfold newNumericLimit
  rw [if_pos htruthy]
  change (if unit_ne : limit.unit ≠ "" then _ else _) = _
  rw [dif_pos limit.unit_ne]
  rw [dif_pos limit.ordered]
  rfl

theorem Condition.toPayload_injective (host : Host) :
    Function.Injective Condition.toPayload := by
  intro c c' h
  have hread := conditionFromPayload_toPayload host c
  rw [h, conditionFromPayload_toPayload] at hread
  exact (Except.ok.inj hread).symm

theorem NumericLimit.toPayload_injective : Function.Injective NumericLimit.toPayload := by
  intro l l' h
  have hread := limitFromPayload_toPayload l
  rw [h, limitFromPayload_toPayload] at hread
  exact (Except.ok.inj hread).symm

theorem Condition.toPayload_ne_none (c : Condition) : c.toPayload ≠ .none := by
  cases c <;> simp [toPayload]

/-- The payload determines the policy. -/
theorem CanonicalPolicy.toPayload_injective (host : Host) :
    Function.Injective CanonicalPolicy.toPayload := by
  have htexts : Function.Injective PyVal.ofStrings := fun xs ys h =>
    List.map_injective_iff.mpr (fun _ _ => PyVal.str.inj) (PyVal.list.inj h)
  intro p q h
  simp only [toPayload, PyVal.dict.injEq, List.cons.injEq, Prod.mk.injEq, PyVal.str.injEq,
    PyVal.list.injEq, true_and, and_true, htexts.eq_iff,
    (List.map_injective_iff.mpr NumericLimit.toPayload_injective).eq_iff,
    (List.map_injective_iff.mpr fun _ _ => PyVal.dict.inj).eq_iff] at h
  obtain ⟨h1, h2, h3, h4, h5, h6, hcondition, h8, h9, h10, h11, h12, h13, hlimit, h15, h16,
    h17, h18⟩ := h
  obtain ⟨_, _, _, _, _, _, condition, _, _, _, _, _, _, _, useLimit, _, _, _⟩ := p
  obtain ⟨_, _, _, _, _, _, condition', _, _, _, _, _, _, _, useLimit', _, _, _⟩ := q
  obtain rfl : condition = condition' := by
    cases condition <;> cases condition' <;>
      simp_all [Condition.toPayload_ne_none, (Condition.toPayload_injective host).eq_iff,
        Condition.toPayload_ne_none _ |>.symm]
  obtain rfl : useLimit = useLimit' := by
    cases useLimit <;> cases useLimit' <;> simp_all
  simp_all

end Hydrogenuine.Lease
