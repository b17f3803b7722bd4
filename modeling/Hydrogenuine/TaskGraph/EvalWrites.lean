import Hydrogenuine.Support.HeapPath
import Hydrogenuine.TaskGraph.InPlace
import Hydrogenuine.TaskGraph.LoopContext

/-!
# Writes of eval nodes

Embedding of `_dispatch_eval`, `_build_expression_context` and `_set_state_by_dot_path`.
An eval node works on a copy of the state, and puts the copy in place of the state when
all writes went through.  The values that it writes are not copied, though: a later write
under a written dictionary assigns into an object of the run state itself, and `*` on a
list repeats the list of the run state.  Where neither happens, the node keeps the run
state or writes all values to it.
-/

namespace Hydrogenuine.TaskGraph

open Support Hydrogenuine.Core

/-! ## The dispatcher of eval nodes -/

/-- A run state whose values are held in objects. -/
structure HeldRun where
  heap : Heap := []
  state : List (String × Datum) := []
  nodeOutputs : List (String × Datum) := []
  loopState : Dict String LoopRun := Dict.empty
  finalStatus : Option String := none

/-- The run state that is read off the objects. -/
structure HeldRun.Holds (s : HeldRun) (runState : RunState) : Prop where
  state : s.heap.ShowsItems s.state runState.state
  nodeOutputs : s.heap.ShowsItems s.nodeOutputs runState.nodeOutputs
  loopState : s.loopState = runState.loopState
  finalStatus : s.finalStatus = runState.finalStatus

abbrev DispatchM := EStateM ExprError HeldRun

/-- `{}`. -/
def newDict : DispatchM Datum := fun s =>
  .ok (.ref s.heap.length) { s with heap := s.heap ++ [.dict []] }

/-- `(state or {}).get("loops", {}).get(loop_id, {})`. -/
def heldLoopsItem (id : String) : DispatchM Datum := do
  let s ← get
  match lookupEntry "loops" s.state with
  | none => newDict
  | some d =>
      match s.heap.dict? d with
      | none => throw .attributeError
      | some loops =>
          match lookupEntry id loops with
          | some item => return item
          | none => newDict

/-- `_build_expression_context`. -/
def heldExpressionContext (graphInputs : List (String × Datum)) : DispatchM ExprContext := do
  let s ← get
  match firstActive s.loopState with
  | none => return { state := s.state, node := s.nodeOutputs, inputs := graphInputs }
  | some (id, run) =>
      let item ← heldLoopsItem id
      return {
        state := s.state
        node := s.nodeOutputs
        inputs := graphInputs
        loop :=
          [("id", .str id), ("iteration", .int run.iteration),
           ("max_iterations", .int run.maxIterations), ("state", item)] }

/-- The keys of a write path before the last one, and the last one. -/
def writeKeys (path : String) : Option (List String × String) :=
  if path = "" ∨ isSubstring ".." path = true then none
  else
    let parts := ((pathKeys path).map strip).filter fun part => part != ""
    parts.getLast?.map fun last => (parts.dropLast, last)

/-- `path[6:].strip(".")`. -/
def statePath (path : String) : String := stripDots (textFrom path 6)

/-- The error of an eval node; `type` is there for a `ValueError`. -/
structure EvalFailure where
  code : String
  message : String
  type : Option String
deriving DecidableEq

section

variable (env : Interpreter) (quote : String → String) (strict : Bool)

/-- Evaluate an expression, and catch a `ValueError`. -/
def evaluateExpression (ctx : ExprContext) (e : PyVal) : DispatchM (Except String Datum) :=
  fun s =>
    match evaluate env { strict } ctx e { heap := s.heap } with
    | .ok d t => .ok (.ok d) { s with heap := t.heap }
    | .error (.valueError message) t => .ok (.error message) { s with heap := t.heap }
    | .error err t => .error err { s with heap := t.heap }

/-- The message of a path that cannot be followed; `quote` is `repr` of a text. -/
def PathError.message (path : String) : PathError → String
  | .segment key =>
      "Write path " ++ quote path ++ ": segment " ++ quote key ++ " is not a dict"
  | .parent key =>
      "Write path " ++ quote path ++ ": parent of " ++ quote key ++ " is not a dict"

/-- `_set_state_by_dot_path`.  A path that cannot be followed is given up before the first
dictionary is made. -/
def setStateByDotPath (state : Datum) (path : String) (value : Datum) (h : Heap) :
    Except String Heap :=
  match writeKeys path with
  | none => .error ("Invalid state write path: " ++ quote path)
  | some (keys, last) =>
      (h.assignPath keys last value state).mapError (PathError.message quote path)

/-- The loop over `apply_list`: the objects at its end, and the error that ended it. -/
def applyWrites (state : Datum) : List (String × Datum) → Heap → Heap × Option String
  | [], h => (h, none)
  | (path, value) :: rest, h =>
      match setStateByDotPath quote state (statePath path) value h with
      | .ok h => applyWrites state rest h
      | .error message => (h, some message)

def Node.writes (node : Node) : List (String × PyVal) :=
  match PyVal.item? node.inputs "writes" with
  | some (.dict writes) => writes
  | _ => []

/-- The values to write: `apply_list`. -/
def evaluateWrites (ctx : ExprContext) :
    List (String × PyVal) → DispatchM (Except EvalFailure (List (String × Datum)))
  | [] => return .ok []
  | (path, e) :: rest => do
      if startsWith path "state." then
        match ← evaluateExpression env strict ctx e with
        | .ok value =>
            match ← evaluateWrites ctx rest with
            | .ok values => return .ok ((path, value) :: values)
            | .error failure => return .error failure
        | .error message => return .error ⟨"EVAL_ERROR", message, some "ValueError"⟩
      else
        return .error ⟨"WRITE_PATH_ERROR",
          "Write path must start with \x27state.\x27: " ++ quote path, none⟩

/-- Apply the writes to a copy of the state, and put it in place of the state. -/
def commitWrites (writes : List (String × Datum)) : DispatchM (Except EvalFailure Unit) :=
  fun s =>
    let (h, copy) := s.heap.deepcopy s.state
    match applyWrites quote copy writes h with
    | (h, some message) =>
        .ok (.error ⟨"WRITE_PATH_ERROR", message, some "ValueError"⟩) { s with heap := h }
    | (h, none) => .ok (.ok ()) { s with heap := h, state := (h.dict? copy).getD [] }

def Node.resultKey (node : Node) : String :=
  (node.outputs.head?.map Prod.fst).getD "result"

/-- `_dispatch_eval` up to the first write: the result, and the values to write. -/
def evaluateNode (node : Node) (graphInputs : List (String × Datum)) :
    DispatchM (Except EvalFailure (Datum × List (String × Datum))) := do
  let ctx ← heldExpressionContext graphInputs
  match (PyVal.item? node.inputs "expression").getD .none with
  | .none => return .error ⟨"EVAL_ERROR", "eval node requires inputs.expression", none⟩
  | expr =>
      match ← evaluateExpression env strict ctx expr with
      | .error message => return .error ⟨"EVAL_ERROR", message, some "ValueError"⟩
      | .ok result =>
          match ← evaluateWrites env quote strict ctx node.writes with
          | .error failure => return .error failure
          | .ok values => return .ok (result, values)

/-- `_dispatch_eval`: an error, or the outputs. -/
def dispatchEval (node : Node) (graphInputs : List (String × Datum)) :
    DispatchM (Except EvalFailure (List (String × Datum))) := do
  match ← evaluateNode env quote strict node graphInputs with
  | .error failure => return .error failure
  | .ok (result, values) =>
      let outputs := [(node.resultKey, result)]
      if node.writes.isEmpty then return .ok outputs
      else
        match ← commitWrites quote values with
        | .error failure => return .error failure
        | .ok _ => return .ok outputs

/-! ## All or nothing -/

def writtenState : List (String × PyVal) → Items → Option Items
  | [], state => some state
  | (path, w) :: rest, state =>
      (writeKeys (statePath path)).bind fun (keys, last) =>
        (PyVal.assignPath keys last w state).bind (writtenState rest)

/-- A node that is not ok leaves the run state as it was, and one that is ok writes its
values to the state, in order, and leaves the rest as it was. -/
def Atomic (node : Node) (graphInputs : List (String × Datum)) (r : HeldRun) : Prop :=
  ∀ (runState : RunState) (inputs : Items), r.Holds runState →
    r.heap.ShowsItems graphInputs inputs →
      Ends (dispatchEval env quote strict node graphInputs) r
        (fun answer t => t.heap.ShowsItems graphInputs inputs ∧
          match answer with
          | .error _ => t.Holds runState
          | .ok _ => ∃ result values s written state,
              evaluateNode env quote strict node graphInputs r =
                .ok (.ok (result, values)) s ∧
              s.heap.ShowsItems values written ∧
              writtenState written runState.state = some state ∧
              t.Holds { runState with state := state })
        fun _ t => t.heap.ShowsItems graphInputs inputs ∧ t.Holds runState

/-- Evaluated one after the other, the expressions repeat no list in place. -/
def NoneInPlace (ctx : ExprContext) : List PyVal → Heap → Prop
  | [], _ => True
  | e :: rest, h =>
      ¬ RepeatsInPlace env { strict } ctx e { heap := h } ∧
        ∀ d t, evaluate env { strict } ctx e { heap := h } = .ok d t →
          NoneInPlace ctx rest t.heap

def Node.expressions (node : Node) : List PyVal :=
  match (PyVal.item? node.inputs "expression").getD .none with
  | .none => []
  | e => e :: (node.writes.takeWhile fun write => startsWith write.1 "state.").map Prod.snd

/-- All writes find dictionaries on their paths. -/
def GoThrough (state : Datum) : List (String × Datum) → Heap → Prop
  | [], _ => True
  | (path, value) :: rest, h =>
      ∃ h', setStateByDotPath quote state (statePath path) value h = .ok h' ∧
        GoThrough state rest h'

/-- Each write assigns into an object with the property, which may also be about the
objects before the write, the keys, and the values from this write on. -/
def EachInto (P : Heap → List String → List (String × Datum) → ℕ → Prop) (state : Datum) :
    List (String × Datum) → Heap → Prop
  | [], _ => True
  | (path, value) :: rest, h =>
      ∀ keys last target, writeKeys (statePath path) = some (keys, last) →
        h.pathTarget keys state = some target →
          P h keys ((path, value) :: rest) target ∧
            ∀ h', setStateByDotPath quote state (statePath path) value h = .ok h' →
              EachInto P state rest h'

/-- No value in the items leads to the object. -/
def Clear (h : Heap) (items : List (String × Datum)) (target : ℕ) : Prop :=
  ∀ entry ∈ items, ¬ h.Leads entry.2 target

/-- A node repeats no list in place.  When its writes go through, each assigns into an
object that is reached over its path only: not otherwise from the state, and neither from
a value that is still to be written nor from node outputs or graph inputs.  When they do
not, each before that assigns into an object that the run state does not lead to. -/
structure Isolated (node : Node) (graphInputs : List (String × Datum)) (r : HeldRun) :
    Prop where
  place : ∀ ctx s, heldExpressionContext graphInputs r = .ok ctx s →
    NoneInPlace env strict ctx node.expressions s.heap
  through : ∀ result values s h state,
    evaluateNode env quote strict node graphInputs r = .ok (.ok (result, values)) s →
      s.heap.deepcopy s.state = (h, state) → GoThrough quote state values h →
        EachInto quote (fun h keys values target => h.OnlyOver target keys state ∧
          Clear h (values ++ (s.nodeOutputs ++ graphInputs)) target) state values h
  stopped : ∀ result values s h state,
    evaluateNode env quote strict node graphInputs r = .ok (.ok (result, values)) s →
      s.heap.deepcopy s.state = (h, state) → ¬ GoThrough quote state values h →
        EachInto quote (fun h _ _ target =>
          Clear h (s.state ++ (s.nodeOutputs ++ graphInputs)) target) state values h

end

/-! ## Evaluating a node -/

/-- Only new objects are made. -/
structure Grows (r s : HeldRun) : Prop where
  heap : r.heap <+: s.heap
  rest : s = { r with heap := s.heap }

section

variable {env : Interpreter} {quote : String → String} {strict : Bool}
  {graphInputs : List (String × Datum)} {r s t : HeldRun} {runState : RunState}

theorem Grows.refl (r : HeldRun) : Grows r r := ⟨List.prefix_rfl, rfl⟩

theorem Grows.trans (hrs : Grows r s) (hst : Grows s t) : Grows r t :=
  ⟨hrs.heap.trans hst.heap, by rw [hst.rest, hrs.rest]⟩

theorem HeldRun.Holds.grow (hr : r.Holds runState) (hgrows : Grows r s) :
    s.Holds runState := by
  rw [hgrows.rest]
  exact ⟨hr.state.extend hgrows.heap, hr.nodeOutputs.extend hgrows.heap,
    hr.loopState, hr.finalStatus⟩

theorem heldExpressionContext_ends {inputs : Items} (hr : r.Holds runState)
    (hinputs : r.heap.ShowsItems graphInputs inputs) :
    Ends (heldExpressionContext graphInputs) r
      (fun ctx s => Grows r s ∧ ctx.ReadableIn s.heap) fun _ s => Grows r s := by
  have hnew : Ends newDict r (fun d s => Grows r s ∧ s.heap.Readable d)
      fun _ s => Grows r s := by
    refine ends_of_run (fun d s hrun => ?_) fun err s hrun => nomatch hrun
    obtain ⟨rfl, rfl⟩ := EStateM.Result.ok.inj hrun
    exact ⟨⟨List.prefix_append _ _, rfl⟩,
      .dict [], (Heap.shows_dict_iff List.getElem?_concat_length).mpr .nil⟩
  have hitem (id : String) : Ends (heldLoopsItem id) r
      (fun d s => Grows r s ∧ s.heap.Readable d) fun _ s => Grows r s := by
    unfold heldLoopsItem
    refine ends_bind (ends_get ?_)
    split
    · exact hnew
    · next d hloops =>
        split
        · exact ends_throw (.refl r)
        · next items hitems =>
            split
            · next item hid =>
                refine ends_pure ⟨.refl r, ?_⟩
                have hd := Heap.readable_of_lookupEntry hr.state.readable hloops
                exact Heap.readable_of_lookupEntry (hd.of_dict? hitems) hid
            · exact hnew
  have hcontext {s : HeldRun} (hgrows : Grows r s) {loop : List (String × Datum)}
      (hloop : ∀ entry ∈ loop, s.heap.Readable entry.2) :
      ExprContext.ReadableIn ⟨r.state, r.nodeOutputs, graphInputs, loop⟩ s.heap :=
    ⟨fun entry hentry => (hr.state.readable entry hentry).extend hgrows.heap,
      fun entry hentry => (hr.nodeOutputs.readable entry hentry).extend hgrows.heap,
      fun entry hentry => (hinputs.readable entry hentry).extend hgrows.heap, hloop⟩
  unfold heldExpressionContext
  refine ends_bind (ends_get ?_)
  split
  · exact ends_pure ⟨.refl r, hcontext (.refl r) fun _ h => absurd h List.not_mem_nil⟩
  · next id run _ =>
      refine ends_bind (ends_mono (hitem id) ?_ fun _ _ h => h)
      rintro item s ⟨hgrows, hreadable⟩
      refine ends_pure ⟨hgrows, hcontext hgrows fun entry hentry => ?_⟩
      simp only [List.mem_cons, List.not_mem_nil, or_false] at hentry
      rcases hentry with rfl | rfl | rfl | rfl
      · exact Heap.readable_scalar _ fun _ => Datum.noConfusion
      · exact Heap.readable_scalar _ fun _ => Datum.noConfusion
      · exact Heap.readable_scalar _ fun _ => Datum.noConfusion
      · exact hreadable

theorem evaluateExpression_ends {ctx : ExprContext} {e : PyVal} (hctx : ctx.ReadableIn r.heap)
    (hplace : ¬ RepeatsInPlace env { strict } ctx e { heap := r.heap }) :
    Ends (evaluateExpression env strict ctx e) r
      (fun answer s => Grows r s ∧ ∀ d, answer = .ok d → s.heap.Readable d ∧
        ∃ t, evaluate env { strict } ctx e { heap := r.heap } = .ok d t ∧ t.heap = s.heap)
      fun _ s => Grows r s := by
  have hend := evaluate_extends hctx hplace
  refine ends_of_run (fun answer s hrun => ?_) fun err s hrun => ?_
  · unfold evaluateExpression at hrun
    split at hrun
    · next d t heval =>
        obtain ⟨rfl, rfl⟩ := EStateM.Result.ok.inj hrun
        obtain ⟨hinitial, hreadable⟩ := hend.of_ok heval
        refine ⟨⟨hinitial, rfl⟩, fun d' heq => ?_⟩
        obtain rfl := Except.ok.inj heq
        exact ⟨hreadable, t, heval, rfl⟩
    · next message t heval =>
        obtain ⟨rfl, rfl⟩ := EStateM.Result.ok.inj hrun
        exact ⟨⟨hend.of_error heval, rfl⟩, nofun⟩
    · cases hrun
  · unfold evaluateExpression at hrun
    split at hrun
    · cases hrun
    · cases hrun
    · next t _ heval =>
        obtain ⟨rfl, rfl⟩ := EStateM.Result.error.inj hrun
        exact ⟨hend.of_error heval, rfl⟩

theorem evaluateWrites_ends {ctx : ExprContext} {writes : List (String × PyVal)}
    (hctx : ctx.ReadableIn r.heap)
    (hplace : NoneInPlace env strict ctx
      ((writes.takeWhile fun write => startsWith write.1 "state.").map Prod.snd) r.heap) :
    Ends (evaluateWrites env quote strict ctx writes) r
      (fun answer s => Grows r s ∧ ∀ values, answer = .ok values →
        values.map Prod.fst = writes.map Prod.fst ∧ ∀ entry ∈ values, s.heap.Readable entry.2)
      fun _ s => Grows r s := by
  induction writes generalizing r with
  | nil =>
      refine ends_pure ⟨.refl r, fun values heq => ?_⟩
      obtain rfl := Except.ok.inj heq
      exact ⟨rfl, fun _ hentry => absurd hentry List.not_mem_nil⟩
  | cons write rest ih =>
      obtain ⟨path, e⟩ := write
      unfold evaluateWrites
      split_ifs with hpath
      · rw [List.takeWhile_cons, if_pos hpath, List.map_cons] at hplace
        obtain ⟨hfirst, hrest⟩ := hplace
        refine ends_bind (ends_mono (evaluateExpression_ends hctx hfirst) ?_ fun _ _ h => h)
        rintro answer s ⟨hgrows, hvalue⟩
        cases answer with
        | error message => exact ends_pure ⟨hgrows, nofun⟩
        | ok value =>
            obtain ⟨hreadable, t, heval, heq⟩ := hvalue value rfl
            have hothers := hrest value t heval
            rw [heq] at hothers
            have hctx' := hctx.mono fun d hd => hd.extend hgrows.heap
            refine ends_bind (ends_mono (ih hctx' hothers) ?_ fun _ _ h => hgrows.trans h)
            rintro answer u ⟨hgrows', hvalues⟩
            cases answer with
            | error failure => exact ends_pure ⟨hgrows.trans hgrows', nofun⟩
            | ok values =>
                refine ends_pure ⟨hgrows.trans hgrows', fun all heq => ?_⟩
                obtain rfl := Except.ok.inj heq
                obtain ⟨hpaths, hothers⟩ := hvalues values rfl
                refine ⟨?_, List.forall_mem_cons.mpr
                  ⟨hreadable.extend hgrows'.heap, hothers⟩⟩
                rw [List.map_cons, List.map_cons, hpaths]
      · exact ends_pure ⟨.refl r, nofun⟩

/-- Up to the first write only new objects are made, and the values to write can be
read. -/
theorem evaluateNode_ends {node : Node} {inputs : Items} (hr : r.Holds runState)
    (hinputs : r.heap.ShowsItems graphInputs inputs)
    (hplace : ∀ ctx s, heldExpressionContext graphInputs r = .ok ctx s →
      NoneInPlace env strict ctx node.expressions s.heap) :
    Ends (evaluateNode env quote strict node graphInputs) r
      (fun answer s => Grows r s ∧ ∀ result values, answer = .ok (result, values) →
        values.map Prod.fst = node.writes.map Prod.fst ∧
          ∀ entry ∈ values, s.heap.Readable entry.2)
      fun _ s => Grows r s := by
  have hcontext := heldExpressionContext_ends hr hinputs
  unfold evaluateNode
  refine ends_bind_of_run (fun ctx s hctx => ?_) fun err s hctx => hcontext.of_error hctx
  obtain ⟨hgrows, hreadable⟩ := hcontext.of_ok hctx
  have hnone := hplace ctx s hctx
  unfold Node.expressions at hnone
  split
  · exact ends_pure ⟨hgrows, nofun⟩
  · next expr hne =>
      split at hnone
      · next heq => exact absurd heq hne
      · obtain ⟨hfirst, hrest⟩ := hnone
        refine ends_bind (ends_mono (evaluateExpression_ends hreadable hfirst) ?_
          fun _ _ h => hgrows.trans h)
        rintro answer t ⟨hst, hvalue⟩
        cases answer with
        | error message => exact ends_pure ⟨hgrows.trans hst, nofun⟩
        | ok result =>
            obtain ⟨-, u, heval, heq⟩ := hvalue result rfl
            have hothers := hrest result u heval
            rw [heq] at hothers
            have hctx' := hreadable.mono fun d hd => hd.extend hst.heap
            refine ends_bind (ends_mono (evaluateWrites_ends hctx' hothers) ?_
              fun _ _ h => (hgrows.trans hst).trans h)
            rintro answer v ⟨htv, hvalues⟩
            cases answer with
            | error failure => exact ends_pure ⟨(hgrows.trans hst).trans htv, nofun⟩
            | ok values =>
                refine ends_pure ⟨(hgrows.trans hst).trans htv, fun result' values' heq => ?_⟩
                obtain ⟨-, rfl⟩ := Prod.mk.inj (Except.ok.inj heq)
                exact hvalues values rfl

/-! ## Writing -/

section

variable {h h' : Heap} {state value : Datum} {path message : String}
  {values items kept : List (String × Datum)} {vs ws : Items}
  {P : Heap → List String → List (String × Datum) → ℕ → Prop}

theorem assignPath_of_setStateByDotPath
    (hset : setStateByDotPath quote state path value h = .ok h') :
    ∃ keys last, writeKeys path = some (keys, last) ∧
      h.assignPath keys last value state = .ok h' := by
  unfold setStateByDotPath at hset
  split at hset
  · cases hset
  · next keys last hkeys =>
      refine ⟨keys, last, hkeys, ?_⟩
      cases hassign : Heap.assignPath keys last value h state with
      | error err =>
          rw [hassign] at hset
          cases hset
      | ok h'' =>
          rw [hassign] at hset
          exact congrArg Except.ok (Except.ok.inj hset)

theorem goThrough_iff :
    GoThrough quote state values h ↔ (applyWrites quote state values h).2 = none := by
  induction values generalizing h with
  | nil => exact iff_of_true trivial rfl
  | cons entry rest ih =>
      obtain ⟨path, value⟩ := entry
      rw [GoThrough, applyWrites]
      cases hset : setStateByDotPath quote state (statePath path) value h with
      | error message =>
          refine iff_of_false ?_ (Option.some_ne_none message)
          rintro ⟨h', heq, -⟩
          cases heq
      | ok h' =>
          dsimp only
          rw [← ih]
          constructor
          · rintro ⟨h'', heq, hrest⟩
            rwa [Except.ok.inj heq]
          · intro hrest
            exact ⟨h', rfl, hrest⟩

theorem EachInto.keeps (heach : EachInto quote P state values h)
    (hP : ∀ h keys values target, P h keys values target → Clear h items target)
    (hitems : h.ShowsItems items vs) :
    (applyWrites quote state values h).1.ShowsItems items vs := by
  induction values generalizing h with
  | nil => exact hitems
  | cons entry rest ih =>
      obtain ⟨path, value⟩ := entry
      rw [applyWrites]
      cases hset : setStateByDotPath quote state (statePath path) value h with
      | error message => exact hitems
      | ok h' =>
          obtain ⟨keys, last, hkeys, hassign⟩ := assignPath_of_setStateByDotPath hset
          obtain ⟨target, htarget, -, hframe⟩ := Heap.assignPath_frame hassign
          obtain ⟨hclear, hrest⟩ := heach keys last target hkeys htarget
          exact ih (hrest h' hset) (hitems.of_frame hframe (hP h keys _ target hclear))

/-- Writes that go through, into objects that are reached over their paths only, show as
the assignments on trees. -/
theorem EachInto.written
    (heach : EachInto quote (fun h keys values target => h.OnlyOver target keys state ∧
      Clear h (values ++ kept) target) state values h)
    (hthrough : GoThrough quote state values h) (hstate : h.Shows state (.dict vs))
    (hvalues : h.ShowsItems values ws) :
    ∃ vs', writtenState ws vs = some vs' ∧
      (applyWrites quote state values h).1.Shows state (.dict vs') := by
  induction values generalizing h vs ws with
  | nil =>
      obtain rfl := List.forall₂_nil_left_iff.mp hvalues
      exact ⟨vs, rfl, hstate⟩
  | cons entry rest ih =>
      obtain ⟨path, value⟩ := entry
      obtain ⟨⟨path', w⟩, ws, ⟨heq, hvalue⟩, hothers, rfl⟩ :=
        List.forall₂_cons_left_iff.mp hvalues
      dsimp only at heq
      subst heq
      obtain ⟨h', hset, hgo⟩ := hthrough
      obtain ⟨keys, last, hkeys, hassign⟩ := assignPath_of_setStateByDotPath hset
      obtain ⟨target, htarget, -, hframe⟩ := Heap.assignPath_frame hassign
      obtain ⟨⟨honly, hclear⟩, hrest⟩ := heach keys last target hkeys htarget
      have hfree : Clear h ((path, value) :: rest) target := fun entry hentry =>
        hclear entry (List.mem_append_left _ hentry)
      obtain ⟨hvalueFree, hrestFree⟩ := List.forall_mem_cons.mp hfree
      obtain ⟨h'', us, hassign', htree, hshows⟩ :=
        Heap.assignPath_shows hstate hvalue htarget honly hvalueFree
      obtain rfl := Except.ok.inj (hassign.symm.trans hassign')
      obtain ⟨vs', hwritten, hend⟩ := ih (hrest h' hset) hgo hshows
        (Heap.ShowsItems.of_frame hothers hframe hrestFree)
      refine ⟨vs', ?_, ?_⟩
      · rw [writtenState, hkeys, Option.bind_some]
        dsimp only
        rw [htree]
        exact hwritten
      · rw [applyWrites, hset]
        exact hend

end

theorem Clear.mono {h : Heap} {items items' : List (String × Datum)} {target : ℕ}
    (hclear : Clear h items target) (hitems : ∀ entry ∈ items', entry ∈ items) :
    Clear h items' target := fun entry hentry => hclear entry (hitems entry hentry)

/-- The run state after the writes. -/
theorem commitWrites_ends {values : List (String × Datum)} {written inputs : Items}
    (hs : s.Holds runState) (hinputs : s.heap.ShowsItems graphInputs inputs)
    (hvalues : s.heap.ShowsItems values written)
    (hthrough : ∀ h state, s.heap.deepcopy s.state = (h, state) →
      GoThrough quote state values h →
        EachInto quote (fun h keys values target => h.OnlyOver target keys state ∧
          Clear h (values ++ (s.nodeOutputs ++ graphInputs)) target) state values h)
    (hstopped : ∀ h state, s.heap.deepcopy s.state = (h, state) →
      ¬ GoThrough quote state values h →
        EachInto quote (fun h _ _ target =>
          Clear h (s.state ++ (s.nodeOutputs ++ graphInputs)) target) state values h) :
    Ends (commitWrites quote values) s
      (fun answer t => t.heap.ShowsItems graphInputs inputs ∧
        match answer with
        | .error _ => t.Holds runState
        | .ok _ => ∃ state, writtenState written runState.state = some state ∧
            t.Holds { runState with state := state })
      fun _ _ => False := by
  have hcopy := Heap.shows_deepcopy hs.state
  have hinitial := Heap.prefix_deepcopy s.heap s.state
  rcases hdeep : s.heap.deepcopy s.state with ⟨h, state⟩
  rw [hdeep] at hcopy hinitial
  have hrun : commitWrites quote values s =
      match applyWrites quote state values h with
      | (h, some message) =>
          .ok (.error ⟨"WRITE_PATH_ERROR", message, some "ValueError"⟩) { s with heap := h }
      | (h, none) => .ok (.ok ()) { s with heap := h, state := (h.dict? state).getD [] } := by
    rw [commitWrites, hdeep]
  have hnode := hs.nodeOutputs.extend hinitial
  have hgraph := hinputs.extend hinitial
  have hnodeMem : ∀ entry ∈ s.nodeOutputs, entry ∈ s.nodeOutputs ++ graphInputs :=
    fun _ hentry => List.mem_append_left _ hentry
  have hgraphMem : ∀ entry ∈ graphInputs, entry ∈ s.nodeOutputs ++ graphInputs :=
    fun _ hentry => List.mem_append_right _ hentry
  rcases happly : applyWrites quote state values h with ⟨h', failure⟩
  rw [happly] at hrun
  cases failure with
  | some message =>
      have hgo : ¬ GoThrough quote state values h := by
        rw [goThrough_iff, happly]
        exact Option.some_ne_none message
      have heach := hstopped h state hdeep hgo
      have hkeeps {items : List (String × Datum)} {vs : Items}
          (hitems : ∀ entry ∈ items, entry ∈ s.state ++ (s.nodeOutputs ++ graphInputs))
          (hshows : h.ShowsItems items vs) : h'.ShowsItems items vs := by
        have hend := heach.keeps (fun _ _ _ _ hclear => hclear.mono hitems) hshows
        rwa [happly] at hend
      have hstate : h'.ShowsItems s.state runState.state :=
        hkeeps (fun _ hentry => List.mem_append_left _ hentry)
          (hs.state.extend hinitial)
      have hnode' := hkeeps (fun _ h => List.mem_append_right _ (hnodeMem _ h)) hnode
      have hgraph' := hkeeps (fun _ h => List.mem_append_right _ (hgraphMem _ h)) hgraph
      refine ends_of_run (fun answer t heq => ?_) fun err t heq => ?_
      · obtain ⟨rfl, rfl⟩ := EStateM.Result.ok.inj (hrun.symm.trans heq)
        exact ⟨hgraph', hstate, hnode', hs.loopState, hs.finalStatus⟩
      · rw [hrun] at heq
        cases heq
  | none =>
      have hgo : GoThrough quote state values h := by
        rw [goThrough_iff, happly]
      have heach := hthrough h state hdeep hgo
      have hkeeps {items : List (String × Datum)} {vs : Items}
          (hitems : ∀ entry ∈ items, entry ∈ s.nodeOutputs ++ graphInputs)
          (hshows : h.ShowsItems items vs) : h'.ShowsItems items vs := by
        have hend := heach.keeps (fun _ _ _ _ hP =>
          hP.2.mono fun entry hentry => List.mem_append_right _ (hitems entry hentry)) hshows
        rwa [happly] at hend
      have hnode' := hkeeps hnodeMem hnode
      have hgraph' := hkeeps hgraphMem hgraph
      obtain ⟨vs, hwritten, hend⟩ :=
        heach.written hgo hcopy (hvalues.extend hinitial)
      rw [happly] at hend
      obtain ⟨a, items, hdict, hstate⟩ := hend.dictAt?
      have hitems : (h'.dict? state).getD [] = items := by
        obtain ⟨rfl, hobject⟩ := Heap.dictAt?_eq_some_iff.mp hdict
        rw [Heap.dict?, hobject]
        rfl
      refine ends_of_run (fun answer t heq => ?_) fun err t heq => ?_
      · obtain ⟨rfl, rfl⟩ := EStateM.Result.ok.inj (hrun.symm.trans heq)
        exact ⟨hgraph', vs, hwritten, hitems ▸ hstate, hnode', hs.loopState, hs.finalStatus⟩
      · rw [hrun] at heq
        cases heq

/-- An eval node that repeats no list in place, and writes into no object that is seen
elsewhere, is atomic. -/
theorem dispatchEval_atomic {node : Node}
    (hisolated : Isolated env quote strict node graphInputs r) :
    Atomic env quote strict node graphInputs r := by
  intro runState inputs hr hinputs
  have hnode := @evaluateNode_ends env quote strict graphInputs r runState node inputs hr
    hinputs hisolated.place
  unfold dispatchEval
  refine ends_bind_of_run (fun answer s hrun => ?_) fun err s hrun => ?_
  · obtain ⟨hgrows, hvalues⟩ := hnode.of_ok hrun
    have hs := hr.grow hgrows
    have hgraph := hinputs.extend hgrows.heap
    cases answer with
    | error failure => exact ends_pure ⟨hgraph, hs⟩
    | ok pair =>
        obtain ⟨result, values⟩ := pair
        obtain ⟨hpaths, hreadable⟩ := hvalues result values rfl
        obtain ⟨written, hwritten⟩ := Heap.exists_showsItems hreadable
        dsimp only
        split_ifs with hempty
        · rw [List.isEmpty_iff.mp hempty] at hpaths
          obtain rfl := List.map_eq_nil_iff.mp hpaths
          obtain rfl := List.forall₂_nil_left_iff.mp hwritten
          exact ends_pure ⟨hgraph, result, [], s, [], runState.state, hrun, hwritten, rfl, hs⟩
        · refine ends_bind (ends_mono (commitWrites_ends hs hgraph hwritten
            (fun h state => hisolated.through result values s h state hrun)
            fun h state => hisolated.stopped result values s h state hrun) ?_
            fun _ _ => False.elim)
          rintro answer t ⟨hgraph', hend⟩
          cases answer with
          | error failure => exact ends_pure ⟨hgraph', hend⟩
          | ok _ =>
              obtain ⟨state, hstate, hholds⟩ := hend
              exact ends_pure
                ⟨hgraph', result, values, s, written, state, hrun, hwritten, hstate, hholds⟩
  · have hgrows := hnode.of_error hrun
    exact ⟨hinputs.extend hgrows.heap, hr.grow hgrows⟩

end

/-! ## Two nodes -/

/-- A node that evaluates to `True` and writes. -/
def writingNode (writes : List (String × PyVal)) : Node where
  id := "e"
  type := "eval"
  assignedEntity := "system"
  inputs := [("expression", .bool true), ("writes", .dict writes)]

def counterNode : Node :=
  writingNode [("state.x", .int 10), ("state.loops.L.counter", .int 1)]

theorem counterNode_isolated : Isolated .noFloats id false counterNode [] {} := by
  have hliteral (n : ℤ) (h : Heap) :
      ¬ RepeatsInPlace .noFloats { strict := false } {} (.int n) { heap := h } :=
    not_repeatsInPlace_of_literal fun _ _ => PyVal.noConfusion
  have hclear (h : Heap) (target : ℕ) {items : List (String × Datum)}
      (hitems : ∀ entry ∈ items, Scalar entry.2) : Clear h items target := by
    intro entry hentry hlead
    cases hvalue : entry.2 with
    | ref a => exact hitems entry hentry a hvalue
    | _ =>
        rw [hvalue] at hlead
        cases hlead
  have hnode : evaluateNode .noFloats id false counterNode [] {} =
      .ok (.ok (.bool true, [("state.x", .int 10), ("state.loops.L.counter", .int 1)])) {} :=
    rfl
  have hcopy : Heap.deepcopy (HeldRun.heap {}) (HeldRun.state {}) = ([.dict []], .ref 0) := rfl
  have hfirst : writeKeys (statePath "state.x") = some ([], "x") := by decide +kernel
  have hsecond : writeKeys (statePath "state.loops.L.counter") =
      some (["loops", "L"], "counter") := by
    decide +kernel
  have hwrite : setStateByDotPath id (.ref 0) (statePath "state.x") (.int 10) [.dict []] =
      .ok [.dict [("x", .int 10)]] := by
    rw [setStateByDotPath, hfirst]
    rfl
  have hwrite' : setStateByDotPath id (.ref 0) (statePath "state.loops.L.counter") (.int 1)
      [.dict [("x", .int 10)]] =
        .ok [.dict [("x", .int 10), ("loops", .ref 1)], .dict [("L", .ref 2)],
          .dict [("counter", .int 1)]] := by
    rw [setStateByDotPath, hsecond]
    rfl
  refine ⟨?_, ?_, ?_⟩
  · intro ctx s hctx
    obtain ⟨rfl, rfl⟩ := EStateM.Result.ok.inj hctx
    refine ⟨not_repeatsInPlace_of_literal fun _ _ => PyVal.noConfusion, fun d t heval => ?_⟩
    refine ⟨hliteral 10 _, fun d t heval => ⟨hliteral 1 _, fun d t heval => trivial⟩⟩
  · intro result values s h state hrun hdeep _
    obtain ⟨hanswer, rfl⟩ := EStateM.Result.ok.inj (hnode.symm.trans hrun)
    obtain ⟨rfl, rfl⟩ := Prod.mk.inj (Except.ok.inj hanswer)
    obtain ⟨rfl, rfl⟩ := Prod.mk.inj (hcopy.symm.trans hdeep)
    intro keys last target hkeys htarget
    obtain ⟨rfl, rfl⟩ := Prod.mk.inj (Option.some.inj (hfirst.symm.trans hkeys))
    obtain rfl : 0 = target := Option.some.inj htarget
    refine ⟨⟨trivial, hclear _ _ fun entry hentry => ?_⟩, fun h' hset => ?_⟩
    · simp only [List.append_nil, List.mem_cons, List.not_mem_nil, or_false] at hentry
      rcases hentry with rfl | rfl
      · exact fun _ => Datum.noConfusion
      · exact fun _ => Datum.noConfusion
    · obtain rfl := Except.ok.inj (hwrite.symm.trans hset)
      intro keys last target hkeys htarget
      obtain ⟨rfl, rfl⟩ := Prod.mk.inj (Option.some.inj (hsecond.symm.trans hkeys))
      obtain rfl : 0 = target := Option.some.inj htarget
      refine ⟨⟨fun a items hdict d hd => ?_, hclear _ _ fun entry hentry => ?_⟩,
        fun _ _ => trivial⟩
      · obtain ⟨-, rfl⟩ := Prod.mk.inj (Option.some.inj hdict)
        cases hd
      · obtain rfl := List.mem_singleton.mp hentry
        exact fun _ => Datum.noConfusion
  · intro result values s h state hrun hdeep hnot
    obtain ⟨hanswer, rfl⟩ := EStateM.Result.ok.inj (hnode.symm.trans hrun)
    obtain ⟨rfl, rfl⟩ := Prod.mk.inj (Except.ok.inj hanswer)
    obtain ⟨rfl, rfl⟩ := Prod.mk.inj (hcopy.symm.trans hdeep)
    exact absurd ⟨_, hwrite, _, hwrite', trivial⟩ hnot

/-- Two numbers are written to an empty state. -/
theorem dispatchEval_atomic_counter : Atomic .noFloats id false counterNode [] {} :=
  dispatchEval_atomic counterNode_isolated

/-- A node that writes a dictionary of the state, a number into the dictionary, and then a
number into the number. -/
def aliasingNode : Node :=
  writingNode
    [("state.b", .dict [("var", .str "state.a")]), ("state.b.x", .int 1),
     ("state.b.x.y", .int 2)]

/-- The last write fails, and the dictionary of the state has changed. -/
theorem dispatchEval_not_atomic :
    ¬ ∀ (env : Interpreter) (quote : String → String) (strict : Bool) (node : Node)
      (graphInputs : List (String × Datum)) (r : HeldRun),
        Atomic env quote strict node graphInputs r := by
  intro hclaim
  have hempty : Heap.Shows [.dict []] (.ref 0) (.dict []) :=
    (Heap.shows_dict_iff rfl).mpr .nil
  have hend := hclaim .noFloats id false aliasingNode []
    { heap := [.dict []], state := [("a", .ref 0)] } { state := [("a", .dict [])] } []
    ⟨.cons ⟨rfl, hempty⟩ .nil, .nil, rfl, rfl⟩ .nil
  obtain ⟨failure, t, hrun, hstate, hobject⟩ : ∃ failure t,
      dispatchEval .noFloats id false aliasingNode []
        { heap := [.dict []], state := [("a", .ref 0)] } = .ok (.error failure) t ∧
      t.state = [("a", .ref 0)] ∧ t.heap[0]? = some (.dict [("x", .int 1)]) :=
    ⟨_, _, rfl, rfl, rfl⟩
  obtain ⟨-, hholds⟩ := hend.of_ok hrun
  have hshows := hholds.state
  rw [hstate] at hshows
  obtain ⟨hentry, -⟩ := List.forall₂_cons.mp hshows
  have hitems := (Heap.shows_dict_iff hobject).mp hentry.2
  cases hitems

end Hydrogenuine.TaskGraph
