import Hydrogenuine.TaskGraph.Attempts
import Hydrogenuine.TaskGraph.Undisturbed

/-!
# Calls of the dispatcher in an attempt

`_call_dispatcher` calls the dispatcher with the run state, the graph inputs and the
strictness as keywords, and after a `TypeError` once more without them.  The fallback is
for dispatchers that do not take the keywords; a `TypeError` from within the dispatcher
looks the same, and then the dispatcher runs a second time in one attempt.

A call that does not fit the signature raises before the dispatcher runs.
-/

namespace Hydrogenuine.TaskGraph

open Support Hydrogenuine.Core

/-! ## Dispatchers -/

/-- A call of the dispatcher in an attempt: the step it belongs to, and the arguments. -/
structure DispatchCall where
  tick : ℕ
  node : Node
  attemptCount : ℤ
  inputs : Items
  runState : RunState
  graphInputs : Items
  expressionStrict : Bool

/-- How the dispatcher is called. -/
inductive CallForm where
  | keywords
  | positional
deriving DecidableEq

/-- A dispatcher: the calls that fit its signature, and what it does when it runs.  It
answers and leaves the state dictionary; the arguments that a positional call does not
pass are for it to ignore. -/
structure Dispatcher where
  takes : CallForm → Bool
  body : CallForm → DispatchCall → Items → Except PyError (Option Items) × Items

/-- The runs of the dispatcher in an attempt, its answer and the state dictionary. -/
structure Dispatched where
  runs : List CallForm
  answer : Except PyError (Option Items)
  state : Items

namespace Dispatcher

variable (d : Dispatcher)

def call (form : CallForm) (call : DispatchCall) (state : Items) : Dispatched :=
  if d.takes form then
    let (answer, state) := d.body form call state
    { runs := [form], answer, state }
  else
    { runs := [], answer := .error (.typeError "unexpected arguments"), state }

def callDispatcher (call : DispatchCall) : Dispatched :=
  let first := d.call .keywords call call.runState.state
  match first.answer with
  | .error (.typeError _) =>
      let second := d.call .positional call first.state
      { second with runs := first.runs ++ second.runs }
  | _ => first

/-- Both calls fit the signature, and the first one raises a `TypeError` within the
dispatcher. -/
def RunsAgain (call : DispatchCall) : Prop :=
  d.takes .keywords = true ∧ d.takes .positional = true ∧
    ∃ message, (d.body .keywords call call.runState.state).1 =
      .error (.typeError message)

def dispatch (expressionStrict : Bool) (tick : ℕ) (node : Node) (attemptCount : ℤ)
    (inputs : Items) (runState : RunState) (graphInputs : Items) :
    Except PyError (Option Items) × Items :=
  let result := d.callDispatcher
    { tick, node, attemptCount, inputs, runState, graphInputs, expressionStrict }
  (result.answer, result.state)

variable {d}

theorem call_of_takes {form : CallForm} (htakes : d.takes form = true)
    (call : DispatchCall) (state : Items) :
    d.call form call state =
      { runs := [form], answer := (d.body form call state).1
        state := (d.body form call state).2 } := by
  rw [Dispatcher.call, if_pos htakes]

theorem call_of_not_takes {form : CallForm} (htakes : d.takes form = false)
    (call : DispatchCall) (state : Items) :
    d.call form call state =
      { runs := [], answer := .error (.typeError "unexpected arguments"), state } := by
  rw [Dispatcher.call, if_neg (Bool.eq_false_iff.mp htakes)]

/-- How often the dispatcher runs in an attempt: in the first call if that fits, and then
in the second call after a `TypeError` if that fits. -/
theorem callDispatcher_runs (call : DispatchCall) :
    (d.callDispatcher call).runs =
      if d.takes .keywords = true then
        match (d.body .keywords call call.runState.state).1 with
        | .error (.typeError _) =>
            if d.takes .positional = true then [.keywords, .positional] else [.keywords]
        | _ => [.keywords]
      else if d.takes .positional = true then [.positional] else [] := by
  have hsecond (state : Items) : (d.call .positional call state).runs =
      if d.takes .positional = true then [.positional] else [] := by
    by_cases htakes : d.takes .positional = true
    · rw [call_of_takes htakes, if_pos htakes]
    · rw [call_of_not_takes (Bool.eq_false_iff.mpr htakes), if_neg htakes]
  unfold callDispatcher
  by_cases hfirst : d.takes .keywords = true
  · rw [call_of_takes hfirst, if_pos hfirst]
    dsimp only
    split
    · rw [hsecond]
      split_ifs
      · rfl
      · rfl
    · rfl
  · rw [call_of_not_takes (Bool.eq_false_iff.mpr hfirst), if_neg hfirst]
    dsimp only
    rw [hsecond, List.nil_append]

/-- The dispatcher runs at most once in an attempt if and only if no `TypeError` of its own
makes it run again. -/
theorem length_runs_le_one_iff (call : DispatchCall) :
    (d.callDispatcher call).runs.length ≤ 1 ↔ ¬ d.RunsAgain call := by
  rw [callDispatcher_runs]
  by_cases hfirst : d.takes .keywords = true
  · rw [if_pos hfirst]
    split
    · next message hanswer =>
        by_cases hsecond : d.takes .positional = true
        · rw [if_pos hsecond]
          constructor
          · intro hlength
            exact absurd hlength (by decide)
          · intro hagain
            exact absurd ⟨hfirst, hsecond, message, hanswer⟩ hagain
        · rw [if_neg hsecond]
          exact iff_of_true (Nat.le_refl 1) fun hagain => hsecond hagain.2.1
    · next hother =>
        exact iff_of_true (Nat.le_refl 1) fun hagain => hother _ hagain.2.2.choose_spec
  · rw [if_neg hfirst]
    refine iff_of_true ?_ fun hagain => hfirst hagain.1
    split_ifs
    · exact Nat.le_refl 1
    · exact Nat.zero_le 1

end Dispatcher

/-! ## Attempts -/

namespace Setting

/-! ### The call that a step makes -/

def callOf (c : Setting) (s : Sched) (node : Node) (runState : RunState) : DispatchCall :=
  let e := startNode s.now node.id
  { tick := e.tick
    node := node
    attemptCount := (e.nodes node.id).attemptCount
    inputs := c.resolveInputs e node
    runState := runState
    graphInputs := c.graphInputs
    expressionStrict := c.dag.runPolicy.expressionStrictMode }

def withDispatch (c : Setting)
    (dispatch : ℕ → Node → ℤ → Items → RunState → Items →
      Except PyError (Option Items) × Items) : Setting :=
  { c with services := { c.services with dispatch } }

variable (c : Setting) (d : Dispatcher)

def withDispatcher (c : Setting) (d : Dispatcher) : Setting :=
  c.withDispatch (d.dispatch c.dag.runPolicy.expressionStrictMode)

def stepRuns (s : Sched) : List CallForm :=
  ((c.step s).exec.calls.drop s.exec.calls.length).flatMap fun (nid, runState) =>
    (c.dag.byId nid).elim [] fun node =>
      (d.callDispatcher (c.callOf s node runState)).runs

variable {c d}

theorem stepRuns_of_dispatches {s : Sched} {node : Node} (h : c.Dispatches s node) :
    c.stepRuns d s =
      (d.callDispatcher (c.callOf s node (c.callState s node))).runs := by
  rcases step_calls c s with ⟨hnone, -⟩ | ⟨node', hnode', hcalls⟩
  · exact absurd h (hnone node)
  · obtain rfl := h.unique hnode'
    rw [stepRuns, hcalls, List.drop_left, List.flatMap_singleton]
    dsimp only
    rw [h.starts.known]
    rfl

theorem stepRuns_of_not_dispatches {s : Sched} (h : ∀ node, ¬ c.Dispatches s node) :
    c.stepRuns d s = [] := by
  rcases step_calls c s with ⟨-, hcalls⟩ | ⟨node, hnode, -⟩
  · rw [stepRuns, hcalls, List.drop_length]
    rfl
  · exact absurd hnode (h node)

/-- An attempt runs the dispatcher at most once if and only if no `TypeError` of its own
makes it run again. -/
theorem attempt_runs_once_iff (c : Setting) (d : Dispatcher) (s : Sched) :
    ((c.withDispatcher d).stepRuns d s).length ≤ 1 ↔
      ∀ node, (c.withDispatcher d).Dispatches s node →
        ¬ d.RunsAgain ((c.withDispatcher d).callOf s node
          ((c.withDispatcher d).callState s node)) := by
  by_cases hnone : ∀ node, ¬ (c.withDispatcher d).Dispatches s node
  · rw [stepRuns_of_not_dispatches hnone]
    exact iff_of_true (Nat.zero_le 1) fun node hnode => absurd hnode (hnone node)
  · obtain ⟨node, hnode⟩ := not_forall_not.mp hnone
    rw [stepRuns_of_dispatches hnode, Dispatcher.length_runs_le_one_iff]
    constructor
    · intro honce node' hnode'
      obtain rfl := hnode.unique hnode'
      exact honce
    · intro honce
      exact honce node hnode

end Setting

/-- A dispatcher that takes the keywords and raises a `TypeError` of its own when it gets
them. -/
def stumblingDispatcher : Dispatcher where
  takes := fun _ => true
  body := fun form _ state =>
    match form with
    | .keywords => (.error (.typeError "unsupported operand"), state)
    | .positional => (.ok (some [("ok", .bool true)]), state)

/-- It runs twice in the first attempt of the first tool. -/
theorem attempt_runs_twice :
    ¬ ∀ (services : Services) (dag : Dag) (c : Setting) (s : Sched),
      run services dag [] none none = .ok (c, s) →
        ∀ (d : Dispatcher) (n : ℕ) (s' : Sched),
          (c.withDispatcher d).steps n (.next s) = .next s' →
            ((c.withDispatcher d).stepRuns d s').length ≤ 1 := by
  intro hclaim
  have hruns := hclaim quietServices twoToolsDag _ _ (run_of_valid twoToolsDag_valid)
    stumblingDispatcher 1 _ rfl
  exact absurd hruns (by decide +kernel)

end Hydrogenuine.TaskGraph
