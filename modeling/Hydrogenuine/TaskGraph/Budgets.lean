import Hydrogenuine.TaskGraph.Pauses

/-!
# Hard budgets

Embedding of `effects.py` and `budget_enforcer.py` in `hg_core/task_graph`, over
the floats of the interpreter.  The check before a dispatch looks only at the cost
it is given, one dispatch attempt.  The dispatcher is therefore never called while
the attempts are over their limit, and for the other resources exactly when no
step dispatches a node while one of them is.
-/

namespace Hydrogenuine.TaskGraph

open Support Hydrogenuine.Core

/-! ## Floats -/

/-- The float conversions and the float sum.  A sum is rounded, and adding one to a
float never takes it below a number that it was above. -/
structure FloatHost where
  /-- `float` of an integer, `none` on `OverflowError`. -/
  ofInt : ℤ → Option PyFloat
  /-- `float` of a text, `none` on `ValueError`. -/
  ofText : String → Option PyFloat
  add : PyFloat → PyFloat → PyFloat
  lt_add_one : ∀ one, ofInt 1 = some one → ∀ bound x,
    PyVal.numLt bound x = true → PyVal.numLt bound (add x one) = true

/-- `float(v)`. -/
def FloatHost.toFloat (floats : FloatHost) : PyVal → Except PyError PyFloat
  | .bool b => .ok (.finite (if b then 1 else 0) (if b then "1.0" else "0.0"))
  | .int n =>
      match floats.ofInt n with
      | some x => .ok x
      | none => .error .overflowError
  | .float x => .ok x
  | .str text =>
      match floats.ofText text with
      | some x => .ok x
      | none => .error (.valueError "could not convert string to float")
  | _ => .error (.typeError "float() argument must be a string or a real number")

/-- `0.0`. -/
def floatZero : PyVal := .float (.finite 0 "0.0")

/-! ## Budgets -/

structure Budget where
  limit : PyFloat
  hard : Bool
  onExceed : PyVal
  scope : PyVal

namespace Budgets

variable (floats : FloatHost)

/-- A value of `run_policy["budgets"]`. -/
def toBudget : PyVal → Except PyError Budget
  | .dict fields =>
      (floats.toFloat (PyVal.getItem fields "limit")).map fun limit =>
        { limit := limit
          hard := ((PyVal.item? fields "hard").getD (.bool true)).truthy
          onExceed := (PyVal.item? fields "on_exceed").getD (.str "fail_run")
          scope := (PyVal.item? fields "scope").getD (.str "run") }
  | _ => .error (.attributeError "get")

def ofItems : Items → Except PyError (List (String × Budget))
  | [] => .ok []
  | (k, v) :: rest =>
      match toBudget floats v with
      | .error err => .error err
      | .ok budget => (ofItems rest).map ((k, budget) :: ·)

/-- `get_budgets` of the policy as a dictionary. -/
def getBudgets (policy : RunPolicy) : Except PyError (List (String × Budget)) :=
  match policy.budgets with
  | none => .ok []
  | some (.dict items) => ofItems floats items
  | some _ => .error (.typeError "budgets")

/-- `run_state.setdefault("budget_used", {})`. -/
def setDefaultUsed (state : Items) : Items :=
  if (PyVal.item? state "budget_used").isSome then state
  else PyVal.setItem state "budget_used" (.dict [])

/-- `float(used.get(k, 0.0))`. -/
def usedOf (state : Items) (k : String) : Except PyError PyFloat :=
  match PyVal.getItem state "budget_used" with
  | .dict used => floats.toFloat ((PyVal.item? used k).getD floatZero)
  | _ => .error (.attributeError "get")

/-- The loop of `check_before_dispatch` over the items of the cost. -/
def checkCost (budgets : List (String × Budget)) (state : Items) :
    Items → Except PyError (Option Items)
  | [] => .ok none
  | (k, c) :: rest =>
      match budgets.lookup k with
      | none => checkCost budgets state rest
      | some budget =>
          match usedOf floats state k, floats.toFloat c with
          | .error err, _ => .error err
          | _, .error err => .error err
          | .ok used, .ok cost =>
              let next := floats.add used cost
              if PyVal.numLt budget.limit next && budget.hard then
                .ok (some
                  [("code", .str "BUDGET_EXCEEDED"), ("budget", .str k),
                    ("limit", .float budget.limit),
                    ("would_be", .float next)])
              else checkCost budgets state rest

/-- `check_before_dispatch` at the cost that the executor gives it. -/
def checkBeforeDispatch (policy : RunPolicy) (state : Items) :
    Except PyError (Items × Option Items) :=
  match getBudgets floats policy with
  | .error err => .error err
  | .ok budgets =>
      let state := setDefaultUsed state
      (checkCost floats budgets state [("dispatch_attempts", .int 1)]).map
        fun refusal => (state, refusal)

/-- `v or 0`. -/
def orZero (v : PyVal) : PyVal := if v.truthy then v else .int 0

def observedUsage (output : Option Items) : Items :=
  ("dispatch_attempts", .int 1) ::
    match output with
    | none => []
    | some out =>
        [("tokens", orZero (PyVal.getItem out "tokens")),
          ("external_calls", orZero (PyVal.getItem out "external_calls"))]

/-- The loop of `apply_after_dispatch` over the items of the usage. -/
def addUsage (state : Items) : Items → Except PyError Items
  | [] => .ok state
  | (k, v) :: rest =>
      match PyVal.getItem state "budget_used" with
      | .dict used =>
          match floats.toFloat ((PyVal.item? used k).getD floatZero),
            floats.toFloat v with
          | .error err, _ => .error err
          | _, .error err => .error err
          | .ok before, .ok more =>
              addUsage
                (PyVal.setItem state "budget_used"
                  (.dict (PyVal.setItem used k
                    (.float (floats.add before more))))) rest
      | _ => .error (.attributeError "get")

/-- `apply_after_dispatch` of the usage observed on an output. -/
def applyAfterDispatch (_policy : RunPolicy) (state : Items)
    (output : Option Items) : Except PyError Items :=
  addUsage floats (setDefaultUsed state) (observedUsage output)

def enforcing (services : Services) : Services :=
  { services with
    checkBeforeDispatch := checkBeforeDispatch floats
    applyAfterDispatch := applyAfterDispatch floats }

/-! ## Usage over a limit -/

def overBudget (policy : RunPolicy) (state : Items) (k : String) : Bool :=
  match getBudgets floats policy with
  | .error _ => false
  | .ok budgets =>
      match budgets.lookup k, usedOf floats (setDefaultUsed state) k with
      | some budget, .ok used =>
          budget.hard && PyVal.numLt budget.limit used
      | _, _ => false

def budgetUsed (state : Items) : PyVal :=
  (PyVal.item? state "budget_used").getD (.dict [])

section OverBudget

variable {floats} {policy : RunPolicy} {state state' : Items} {k : String}

theorem item?_setDefaultUsed (state : Items) :
    PyVal.item? (setDefaultUsed state) "budget_used" =
      some (budgetUsed state) := by
  unfold setDefaultUsed budgetUsed
  by_cases hsome : (PyVal.item? state "budget_used").isSome = true
  · rw [if_pos hsome]
    obtain ⟨v, hv⟩ := Option.isSome_iff_exists.mp hsome
    rw [hv, Option.getD_some]
  · rw [if_neg hsome, PyVal.item?_setItem, if_pos rfl]
    rw [Bool.not_eq_true, Option.isSome_eq_false_iff,
      Option.isNone_iff_eq_none] at hsome
    rw [hsome, Option.getD_none]

theorem getItem_setDefaultUsed (state : Items) :
    PyVal.getItem (setDefaultUsed state) "budget_used" = budgetUsed state := by
  unfold PyVal.getItem
  rw [item?_setDefaultUsed, Option.getD_some]

theorem budgetUsed_setDefaultUsed (state : Items) :
    budgetUsed (setDefaultUsed state) = budgetUsed state := by
  have hitem := item?_setDefaultUsed state
  conv_lhs => unfold budgetUsed
  rw [hitem, Option.getD_some]

theorem budgetUsed_setItem {k : String} (hk : k ≠ "budget_used")
    (state : Items) (v : PyVal) :
    budgetUsed (PyVal.setItem state k v) = budgetUsed state := by
  unfold budgetUsed
  rw [PyVal.item?_setItem, if_neg (Ne.symm hk)]

theorem overBudget_congr (h : budgetUsed state' = budgetUsed state) :
    overBudget floats policy state' k = overBudget floats policy state k := by
  unfold overBudget usedOf
  rw [getItem_setDefaultUsed, getItem_setDefaultUsed, h]

theorem of_overBudget (h : overBudget floats policy state k = true) :
    ∃ budgets budget used, getBudgets floats policy = .ok budgets ∧
      budgets.lookup k = some budget ∧ budget.hard = true ∧
      usedOf floats (setDefaultUsed state) k = .ok used ∧
      PyVal.numLt budget.limit used = true := by
  unfold overBudget at h
  split at h
  · cases h
  · rename_i budgets hbudgets
    split at h
    · rename_i budget used hlookup hused
      rw [Bool.and_eq_true] at h
      exact ⟨budgets, budget, used, hbudgets, hlookup, h.1, hused, h.2⟩
    · cases h

theorem checkBeforeDispatch_state {refusal : Option Items}
    (h : checkBeforeDispatch floats policy state = .ok (state', refusal)) :
    budgetUsed state' = budgetUsed state := by
  unfold checkBeforeDispatch at h
  cases hbudgets : getBudgets floats policy with
  | error err =>
      rw [hbudgets] at h
      cases h
  | ok budgets =>
      rw [hbudgets] at h
      dsimp only at h
      cases hcost : checkCost floats budgets (setDefaultUsed state)
          [("dispatch_attempts", .int 1)] with
      | error err =>
          rw [hcost] at h
          cases h
      | ok refusal' =>
          rw [hcost] at h
          obtain rfl := (Prod.mk.inj (Except.ok.inj h)).1
          exact budgetUsed_setDefaultUsed state

theorem checkBeforeDispatch_attempts
    (h : checkBeforeDispatch floats policy state = .ok (state', none)) :
    overBudget floats policy state "dispatch_attempts" = false := by
  by_contra hnot
  rw [Bool.not_eq_false] at hnot
  obtain ⟨budgets, budget, used, hbudgets, hlookup, hhard, hused, hover⟩ :=
    of_overBudget hnot
  unfold checkBeforeDispatch at h
  rw [hbudgets] at h
  dsimp only at h
  unfold checkCost at h
  rw [hlookup] at h
  dsimp only at h
  rw [hused] at h
  have hfloat : floats.toFloat (.int 1) =
      match floats.ofInt 1 with
      | some x => .ok x
      | none => .error .overflowError := rfl
  cases hone : floats.ofInt 1 with
  | none =>
      rw [hone] at hfloat
      rw [hfloat] at h
      cases h
  | some one =>
      rw [hone] at hfloat
      have hnext := floats.lt_add_one one hone budget.limit used hover
      rw [hfloat] at h
      dsimp only at h
      rw [hnext, hhard, if_pos (Bool.and_self true)] at h
      cases h

end OverBudget

end Budgets

/-! ## Runs -/

namespace Budgets

variable {floats : FloatHost}

/-- Whenever the dispatcher is called, no hard budget is over its limit. -/
def Respected (floats : FloatHost) (call : Call) : Prop :=
  ∀ nid runState, (nid, runState) ∈ call.flow.exec.calls →
    ∀ k, overBudget floats call.setting.dag.runPolicy runState.state k = false

/-- No step dispatches a node while a resource other than the attempts is over
its limit. -/
def OthersWithin (floats : FloatHost) (call : Call) : Prop :=
  ∀ m < call.length, ∀ s,
    call.setting.steps m (.next call.start) = .next s →
      ∀ node, call.setting.Dispatches s node → ∀ k ≠ "dispatch_attempts",
        overBudget floats call.setting.dag.runPolicy s.exec.runState.state k =
          false

section Dispatch

variable {c : Setting} {services : Services} {s : Sched} {node : Node}

theorem budgetUsed_callState
    (hservices : c.services = enforcing floats services)
    (hnode : c.Dispatches s node) :
    budgetUsed (c.callState s node).state =
      budgetUsed s.exec.runState.state := by
  obtain ⟨state, hcheck⟩ := hnode.passes.asked.budget
  have hstakes : c.stakesState (Setting.startNode s.now node.id) = state := by
    unfold Setting.stakesState
    rw [hcheck]
  rw [hservices] at hcheck
  have hstate : budgetUsed state = budgetUsed s.exec.runState.state :=
    checkBeforeDispatch_state hcheck
  rw [← hstate, ← hstakes]
  unfold Setting.callState Setting.atDispatch
  rw [Setting.lockEscrow_eq]
  cases c.escrowAmount _ node with
  | none => rfl
  | some amount => exact budgetUsed_setItem (by decide) _ _

theorem attempts_within
    (hservices : c.services = enforcing floats services)
    (hnode : c.Dispatches s node) :
    overBudget floats c.dag.runPolicy s.exec.runState.state
      "dispatch_attempts" = false := by
  obtain ⟨state, hcheck⟩ := hnode.passes.asked.budget
  rw [hservices] at hcheck
  exact checkBeforeDispatch_attempts hcheck

end Dispatch

/-- The dispatcher is never called while a hard budget is over its limit exactly
when no step dispatches a node while one other than that of the attempts is. -/
theorem respected_iff
    (floats : FloatHost) (services : Services) (dag : Dag) (call : Call)
    (hcall : IsCall dag call)
    (hservices : call.setting.services = enforcing floats services) :
    Respected floats call ↔ OthersWithin floats call := by
  constructor
  · intro hrespected m hm s hs node hnode k _
    have hmem := (Setting.mem_calls_iff hcall.calls_start call.length
      (node.id, call.setting.callState s node)).mpr
        ⟨m, hm, s, hs, node, hnode, rfl⟩
    have hwithin := hrespected node.id _ hmem k
    rw [overBudget_congr (budgetUsed_callState hservices hnode)] at hwithin
    exact hwithin
  · intro hothers nid runState hmem k
    obtain ⟨m, hm, s, hs, node, hnode, heq⟩ :=
      (Setting.mem_calls_iff hcall.calls_start call.length _).mp hmem
    obtain ⟨-, rfl⟩ := Prod.mk.inj heq
    rw [overBudget_congr (budgetUsed_callState hservices hnode)]
    by_cases hk : k = "dispatch_attempts"
    · rw [hk]
      exact attempts_within hservices hnode
    · exact hothers m hm s hs node hnode k hk

/-! ## Two tools and ten tokens -/

def exactFloats : FloatHost where
  ofInt := fun n => some (.finite n "")
  ofText := fun _ => none
  add := fun x y =>
    match x, y with
    | .finite p _, .finite q _ => .finite (p + q) ""
    | .nan, _ => .nan
    | _, .nan => .nan
    | .inf a, .inf b => if a == b then .inf a else .nan
    | .inf a, _ => .inf a
    | _, .inf b => .inf b
  lt_add_one := by
    intro one hone bound x hlt
    obtain rfl := Option.some.inj hone
    cases bound with
    | nan => cases hlt
    | inf a =>
        cases x with
        | nan => cases hlt
        | inf b => exact hlt
        | finite q repr => exact hlt
    | finite p repr =>
        cases x with
        | nan => cases hlt
        | inf b => exact hlt
        | finite q repr' =>
            have hpq : p < q := of_decide_eq_true hlt
            have hsum : p < q + ((1 : ℤ) : ℚ) :=
              lt_trans hpq (lt_add_of_pos_right q (by decide))
            exact decide_eq_true hsum

def tokensDag : Dag where
  graphId := "g"
  runPolicy :=
    { budgets := some (.dict [("tokens", .dict [("limit", .int 10)])]) }
  nodes :=
    [{ id := "a", type := "tool", assignedEntity := "system" },
      { id := "b", type := "tool", assignedEntity := "system",
        dependsOn := ["a"] }]

theorem tokensDag_valid : validateDag referenceHost tokensDag = [] := by
  decide +kernel

/-- A call of `run` whose dispatches report a number of tokens. -/
def tokensCall (tokens : ℤ) (n : ℕ) : Call where
  setting :=
    { services := enforcing exactFloats
        { quietServices with
          dispatch := fun _ _ _ _ r _ =>
            (.ok (some [("ok", .bool true), ("tokens", .int tokens)]),
              r.state) }
      dag := tokensDag
      mode := .run
      graphInputs := tokensDag.inputs }
  start := runStart quietServices tokensDag.inputs
  length := n

theorem tokensCall_isCall (tokens : ℤ) (n : ℕ) :
    IsCall tokensDag (tokensCall tokens n) := by
  have hrun : run (tokensCall tokens n).setting.services tokensDag [] none
      none = .ok ((tokensCall tokens n).setting,
        (tokensCall tokens n).start) :=
    run_of_valid tokensDag_valid
  exact IsCall.run n hrun rfl

/-- After a tool that used a hundred tokens the next one is dispatched. -/
theorem tokens_overspent :
    IsCall tokensDag (tokensCall 100 4) ∧
      ¬Respected exactFloats (tokensCall 100 4) := by
  refine ⟨tokensCall_isCall 100 4, fun hrespected => ?_⟩
  have hover : ((tokensCall 100 4).flow.exec.calls.all fun entry =>
      !overBudget exactFloats tokensDag.runPolicy entry.2.state "tokens") =
        false := by
    decide +kernel
  have hwithin := List.all_eq_false.mp hover
  obtain ⟨⟨nid, runState⟩, hmem, hentry⟩ := hwithin
  have hfalse := hrespected nid runState hmem "tokens"
  have hsame : (tokensCall 100 4).setting.dag.runPolicy =
      tokensDag.runPolicy := rfl
  rw [hsame] at hfalse
  rw [hfalse] at hentry
  exact hentry rfl

def attemptsDag : Dag :=
  { toolDag with
    runPolicy :=
      { budgets :=
          some (.dict [("dispatch_attempts", .dict [("limit", .int 10)])]) } }

theorem attemptsDag_valid : validateDag referenceHost attemptsDag = [] := by
  decide +kernel

/-- A call of `run` on the one tool. -/
def attemptsCall : Call where
  setting :=
    { services := enforcing exactFloats quietServices
      dag := attemptsDag
      mode := .run
      graphInputs := attemptsDag.inputs }
  start := runStart quietServices attemptsDag.inputs
  length := 2

theorem attemptsCall_isCall : IsCall attemptsDag attemptsCall := by
  have hrun : run attemptsCall.setting.services attemptsDag [] none none =
      .ok (attemptsCall.setting, attemptsCall.start) :=
    run_of_valid attemptsDag_valid
  exact IsCall.run 2 hrun rfl

/-- No other resource has a budget there. -/
theorem attempts_respected : Respected exactFloats attemptsCall := by
  refine (respected_iff exactFloats quietServices attemptsDag attemptsCall
    attemptsCall_isCall rfl).mpr ?_
  intro m hm s hs node hnode k hk
  have hbudgets : getBudgets exactFloats attemptsCall.setting.dag.runPolicy =
      .ok [("dispatch_attempts",
        { limit := .finite ((10 : ℤ) : ℚ) ""
          hard := true
          onExceed := .str "fail_run"
          scope := .str "run" })] := rfl
  unfold overBudget
  rw [hbudgets]
  dsimp only
  rw [List.lookup_cons, beq_false_of_ne hk]
  rfl

end Budgets

end Hydrogenuine.TaskGraph
