import Hydrogenuine.TaskGraph.Expression
import Hydrogenuine.TaskGraph.LoopExits

/-!
# The loop that an expression refers to

`_build_expression_context` takes the first active loop in the order of `loop_state`,
whichever loop the node belongs to, and the executor evaluates the condition of a gate
without any loop.  A node in the body of a loop sees its own loop exactly when it is no
gate and its loop is the first active one.
-/

namespace Hydrogenuine.TaskGraph

open Support Hydrogenuine.Core

/-! ## Contexts -/

def firstActive (loopState : Dict String LoopRun) : Option (String × LoopRun) :=
  loopState.entries.find? fun entry => entry.2.active

/-- `(state or {}).get("loops", {}).get(loop_id, {})`. -/
def loopsItem (state : Items) (id : String) : Except PyError PyVal :=
  match PyVal.item? state "loops" with
  | none => .ok (.dict [])
  | some (.dict loops) => .ok ((PyVal.item? loops id).getD (.dict []))
  | some _ => .error (.attributeError "get")

def buildExpressionContext (runState : RunState) (graphInputs : Items) :
    Except PyError EvalContext := do
  let loop ←
    match firstActive runState.loopState with
    | none => .ok none
    | some (id, run) => do
        let item ← loopsItem runState.state id
        .ok (some (id, run.iteration, run.maxIterations, item))
  return { state := runState.state, nodeOutputs := runState.nodeOutputs, graphInputs, loop }

/-- `context["loop"]`, with a value for the state of the loop. -/
def EvalContext.loopItems (ctx : EvalContext) (loopState : Datum) :
    List (String × Datum) :=
  match ctx.loop with
  | none => []
  | some (id, iteration, maxIterations, _) =>
      [("id", .str id), ("iteration", .int iteration),
        ("max_iterations", .int maxIterations), ("state", loopState)]

/-- `loop.id` and `loop.iteration` resolve to those of a loop. -/
def EvalContext.RefersTo (ctx : EvalContext) (id : String) (iteration : ℤ) : Prop :=
  ∀ (h : Heap) (loopState : Datum),
    resolvePath h { loop := ctx.loopItems loopState } "loop.id" = some (.str id) ∧
      resolvePath h { loop := ctx.loopItems loopState } "loop.iteration" =
        some (.int iteration)

theorem resolvePath_loop_id (h : Heap) (items : List (String × Datum)) :
    resolvePath h { loop := items } "loop.id" = lookupEntry "id" items := rfl

theorem resolvePath_loop_iteration (h : Heap) (items : List (String × Datum)) :
    resolvePath h { loop := items } "loop.iteration" = lookupEntry "iteration" items := rfl

theorem EvalContext.refersTo_iff {ctx : EvalContext} {id : String} {iteration : ℤ} :
    ctx.RefersTo id iteration ↔
      ∃ maxIterations item, ctx.loop = some (id, iteration, maxIterations, item) := by
  constructor
  · intro hrefers
    obtain ⟨hid, hiteration⟩ := hrefers [] .none
    rw [resolvePath_loop_id, loopItems] at hid
    rw [resolvePath_loop_iteration, loopItems] at hiteration
    cases hloop : ctx.loop with
    | none =>
        rw [hloop] at hid
        cases hid
    | some loop =>
        obtain ⟨id', iteration', maxIterations, item⟩ := loop
        rw [hloop] at hid hiteration
        obtain rfl := Datum.str.inj (Option.some.inj hid)
        obtain rfl := Datum.int.inj (Option.some.inj hiteration)
        exact ⟨maxIterations, item, rfl⟩
  · rintro ⟨maxIterations, item, hloop⟩ h loopState
    rw [resolvePath_loop_id, resolvePath_loop_iteration, loopItems, hloop]
    exact ⟨rfl, rfl⟩

namespace Setting

variable (c : Setting)

/-- The context in which a node of a batch evaluates its expressions, of a gate in the
executor, else in the dispatcher. -/
def expressionContext (s : Sched) (node : Node) : Except PyError EvalContext :=
  if node.type = "gate" then
    let e := startNode s.now node.id
    .ok
      { state := e.runState.state
        nodeOutputs := e.runState.nodeOutputs
        graphInputs := c.graphInputs
        loop := none }
  else buildExpressionContext (c.callState s node) c.graphInputs

/-- A step evaluates the expressions of a gate that it starts, or of an eval or transform
node that it dispatches. -/
def Evaluates (s : Sched) (node : Node) : Prop :=
  node.type = "gate" ∧ c.Starts s node ∨
    (node.type = "eval" ∨ node.type = "transform") ∧ c.Dispatches s node

/-- The node is in the body of the loop. -/
structure InBody (node loop : Node) : Prop where
  known : loop ∈ c.dag.nodes
  isLoop : loop.type = "loop"
  mem : node.id ∈ loop.body

/-- What a step evaluates in the body of a loop refers to that loop and its current
iteration. -/
def Lexical (s : Sched) : Prop :=
  ∀ node loop, c.Evaluates s node → c.InBody node loop →
    ∀ ctx, c.expressionContext s node = .ok ctx →
      ctx.RefersTo loop.id (s.exec.loop loop.id).iteration

/-- What a step evaluates in the body of a loop is no gate, and that loop is the first
active one, or there is one and `state["loops"]` is no dictionary. -/
def OwnLoopFirst (s : Sched) : Prop :=
  ∀ node loop, c.Evaluates s node → c.InBody node loop →
    node.type ≠ "gate" ∧ ∃ id run,
      firstActive s.exec.runState.loopState = some (id, run) ∧
        (id = loop.id ∨
          ∃ err, loopsItem (c.callState s node).state id = .error err)

end Setting

theorem get?_of_firstActive {loopState : Dict String LoopRun} {id : String}
    {run : LoopRun} (h : firstActive loopState = some (id, run)) :
    loopState.get? id = some run :=
  (mem_iff_lookupEntry loopState.nodupKeys).mp (List.mem_of_find?_eq_some h)

/-! ## The loop of a context -/

theorem buildExpressionContext_of_none {runState : RunState} (graphInputs : Items)
    (hfirst : firstActive runState.loopState = none) :
    buildExpressionContext runState graphInputs =
      .ok
        { state := runState.state
          nodeOutputs := runState.nodeOutputs
          graphInputs := graphInputs
          loop := none } := by
  rw [buildExpressionContext, hfirst]
  rfl

theorem buildExpressionContext_of_some {runState : RunState} {id : String} {run : LoopRun}
    (graphInputs : Items) (hfirst : firstActive runState.loopState = some (id, run)) :
    buildExpressionContext runState graphInputs =
      (loopsItem runState.state id).map fun item =>
        { state := runState.state
          nodeOutputs := runState.nodeOutputs
          graphInputs := graphInputs
          loop := some (id, run.iteration, run.maxIterations, item) } := by
  rw [buildExpressionContext, hfirst]
  dsimp only
  cases loopsItem runState.state id with
  | error err => rfl
  | ok item => rfl

namespace Setting

variable {c : Setting} {s : Sched} {node : Node}

theorem callState_loopState (s : Sched) (node : Node) :
    (c.callState s node).loopState = s.exec.runState.loopState := by
  rw [callState, atDispatch, lockEscrow_eq]
  cases c.escrowAmount _ node with
  | none => rfl
  | some amount => rfl

theorem expressionContext_gate (c : Setting) (s : Sched) (hgate : node.type = "gate") :
    c.expressionContext s node =
      .ok
        { state := (startNode s.now node.id).runState.state
          nodeOutputs := (startNode s.now node.id).runState.nodeOutputs
          graphInputs := c.graphInputs
          loop := none } := by
  rw [expressionContext, if_pos hgate]

theorem expressionContext_of_ne (hgate : node.type ≠ "gate") :
    c.expressionContext s node =
      buildExpressionContext (c.callState s node) c.graphInputs := by
  rw [expressionContext, if_neg hgate]

/-- A node refers to a loop exactly when it is no gate and that loop is the first active
one, unless its context cannot be built. -/
theorem refersTo_loop_iff (node : Node) (loopId : String) :
    (∀ ctx, c.expressionContext s node = .ok ctx →
        ctx.RefersTo loopId (s.exec.loop loopId).iteration) ↔
      node.type ≠ "gate" ∧ ∃ id run,
        firstActive s.exec.runState.loopState = some (id, run) ∧
          (id = loopId ∨ ∃ err, loopsItem (c.callState s node).state id = .error err) := by
  have hloops : (c.callState s node).loopState = s.exec.runState.loopState :=
    callState_loopState s node
  constructor
  · intro hrefers
    have hgate : node.type ≠ "gate" := by
      intro hgate
      have hnone := hrefers _ (expressionContext_gate c s hgate)
      obtain ⟨maxIterations, item, hloop⟩ := EvalContext.refersTo_iff.mp hnone
      cases hloop
    rw [expressionContext_of_ne hgate] at hrefers
    refine ⟨hgate, ?_⟩
    rcases hfirst : firstActive s.exec.runState.loopState with _ | ⟨id, run⟩
    · have hnone := hrefers _
        (buildExpressionContext_of_none c.graphInputs (hloops ▸ hfirst))
      obtain ⟨maxIterations, item, hloop⟩ := EvalContext.refersTo_iff.mp hnone
      cases hloop
    · refine ⟨id, run, rfl, ?_⟩
      rw [buildExpressionContext_of_some c.graphInputs (hloops ▸ hfirst)] at hrefers
      cases hitem : loopsItem (c.callState s node).state id with
      | error err => exact Or.inr ⟨err, rfl⟩
      | ok item =>
          rw [hitem] at hrefers
          obtain ⟨maxIterations, item', hloop⟩ :=
            EvalContext.refersTo_iff.mp (hrefers _ rfl)
          exact Or.inl (congrArg Prod.fst (Option.some.inj hloop))
  · rintro ⟨hgate, id, run, hfirst, hloop⟩ ctx hctx
    rw [expressionContext_of_ne hgate,
      buildExpressionContext_of_some c.graphInputs (hloops ▸ hfirst)] at hctx
    cases hitem : loopsItem (c.callState s node).state id with
    | error err =>
        rw [hitem] at hctx
        cases hctx
    | ok item =>
        rw [hitem] at hctx
        obtain rfl := Except.ok.inj hctx
        rcases hloop with rfl | ⟨err, herr⟩
        · have hrun : s.exec.loop id = run := by
            rw [Exec.loop, get?_of_firstActive hfirst, Option.getD_some]
          rw [hrun]
          exact EvalContext.refersTo_iff.mpr ⟨run.maxIterations, item, rfl⟩
        · rw [hitem] at herr
          cases herr

/-- A step is lexical if and only if each node that it evaluates in the body of a loop has
its own loop first. -/
theorem lexical_iff (c : Setting) (s : Sched) : c.Lexical s ↔ c.OwnLoopFirst s := by
  unfold Lexical OwnLoopFirst
  simp only [refersTo_loop_iff]

/-- In every run the steps are lexical if and only if each node evaluated in the body of a
loop has its own loop first. -/
theorem loop_context_lexical_iff (c : Setting) (start : Sched) :
    (∀ n s, c.steps n (.next start) = .next s → c.Lexical s) ↔
      ∀ n s, c.steps n (.next start) = .next s → c.OwnLoopFirst s := by
  simp only [lexical_iff]

end Setting

/-! ## Two loops -/

def counterLoop (id body : String) : Node where
  id := id
  type := "loop"
  assignedEntity := "system"
  inputs := [("condition", .bool true), ("body", .list [.str body])]
  policy := { maxIterations := some 2 }

def incNode (id loopId : String) : Node where
  id := id
  type := "eval"
  assignedEntity := "eval"
  dependsOn := [loopId]
  inputs := [("expression", .dict [("var", .str "loop.iteration")])]

def twoLoopsDag : Dag where
  graphId := "g"
  nodes :=
    [counterLoop "LA" "incA", counterLoop "LB" "incB", incNode "incA" "LA",
     incNode "incB" "LB"]

theorem twoLoopsDag_valid : validateDag referenceHost twoLoopsDag = [] := by
  decide +kernel

/-- A call of `run` on the two loops whose conditions hold. -/
def twoLoopsSetting : Setting where
  services := loopingServices
  dag := twoLoopsDag
  mode := .run
  graphInputs := twoLoopsDag.inputs

def bothActive : Sched :=
  match twoLoopsSetting.steps 7 (.next (runStart loopingServices twoLoopsDag.inputs)) with
  | .next s => s
  | .stop e _ => ⟨[], e⟩

theorem incB_dispatched : twoLoopsSetting.Dispatches bothActive (incNode "incB" "LB") := by
  have hcalled : (twoLoopsSetting.step bothActive).exec.calls.map Prod.fst =
      ["incA", "incB"] := by
    decide +kernel
  have hbefore : bothActive.exec.calls.map Prod.fst = ["incA"] := by decide +kernel
  rcases twoLoopsSetting.step_calls bothActive with
    ⟨-, hcalls⟩ | ⟨node, hdispatches, hcalls⟩
  · rw [hcalls, hbefore] at hcalled
    exact absurd hcalled (by decide)
  · rw [hcalls, List.map_append, hbefore] at hcalled
    have hid : node.id = "incB" := (List.cons.inj (List.cons.inj hcalled).2).1
    have hknown := hdispatches.starts.known
    rw [hid] at hknown
    have hnode : some (incNode "incB" "LB") = some node := hknown
    rw [Option.some.inj hnode]
    exact hdispatches

/-- While both loops are active, the body of the second one refers to the first. -/
theorem loop_context_not_lexical :
    ¬ ∀ (services : Services) (dag : Dag) (c : Setting) (start : Sched),
      run services dag [] none none = .ok (c, start) →
        ∀ n s, c.steps n (.next start) = .next s → c.Lexical s := by
  intro hclaim
  have hlexical := hclaim loopingServices twoLoopsDag _ _ (run_of_valid twoLoopsDag_valid) 7
    bothActive rfl
  have hfirst := (Setting.lexical_iff _ _).mp hlexical (incNode "incB" "LB")
    (counterLoop "LB" "incB") (Or.inr ⟨Or.inl rfl, incB_dispatched⟩)
    ⟨List.mem_cons_of_mem _ List.mem_cons_self, rfl, List.mem_singleton.mpr rfl⟩
  obtain ⟨-, id, run, hactive, hown⟩ := hfirst
  have hother : (firstActive bothActive.exec.runState.loopState).map Prod.fst =
      some "LA" := by
    decide +kernel
  rw [hactive] at hother
  obtain rfl : id = "LA" := Option.some.inj hother
  rcases hown with hid | ⟨err, herr⟩
  · exact absurd hid (by decide)
  · have hread : (loopsItem (twoLoopsSetting.callState bothActive
        (incNode "incB" "LB")).state "LA").toOption.isSome = true := by
      decide +kernel
    have hraises : loopsItem (twoLoopsSetting.callState bothActive
        (incNode "incB" "LB")).state "LA" = .error err := herr
    rw [hraises] at hread
    cases hread

end Hydrogenuine.TaskGraph
