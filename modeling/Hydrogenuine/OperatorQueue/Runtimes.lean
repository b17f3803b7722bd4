import Hydrogenuine.OperatorQueue.Views
import Hydrogenuine.Support.Machine

/-!
# Runtimes on one store

Any number of `OperatorQueueRuntime` objects work on one store.  Each holds its own
copy of the queue and of the control state, which it takes when it is made and when it
reloads; the request objects, the queue file, the receipts and the control files are
shared.  The control files are those that `load_stop_panic_state` reads.
-/

namespace Hydrogenuine.OperatorQueue

open Support Hydrogenuine.Core

/-! ## Control files -/

/-- The control files of workspaces and run directories. -/
structure ControlFiles where
  /-- The `STOP` marker under the soak root of a workspace. -/
  stop : String → Bool
  panic : String → Bool
  /-- `control_state.json` under the soak root. -/
  controlState : String → StoredFile
  /-- `run_control.json` of a run directory that exists. -/
  runControl : String → Option StoredFile

/-- `_read_json(path) or {}`, read by `get`. -/
def readControl : StoredFile → Except PyError Items
  | .json data =>
      if data.truthy then
        match data with
        | .dict control => .ok control
        | _ => .error (.attributeError "get")
      else .ok []
  | .absent => .ok []
  | .unreadable => .ok []

/-- `control.get(key)`, for its truth. -/
def flag (control : Items) (key : String) : Bool :=
  (PyVal.getItem control key).truthy

def ControlFiles.runFile (files : ControlFiles) (runDir : Option String) :
    StoredFile :=
  (runDir.bind files.runControl).getD .absent

/-- `load_stop_panic_state`.  Reading no run directory is the same as reading an empty
control. -/
def loadStopPanicState
    (files : ControlFiles) (workspace : String) (runDir : Option String) :
    Except PyError StopPanicState := do
  let control ← readControl (files.runFile runDir)
  let globalControl ← readControl (files.controlState workspace)
  return {
    stopActive := files.stop workspace || flag control "stop_active"
    panicActive := files.panic workspace || flag control "panic_active"
    emergencyLock :=
      flag control "emergency_lock" || flag globalControl "emergency_lock"
    degradedMode :=
      flag control "degraded_mode" || flag globalControl "degraded_mode" }

/-! ## The shared store -/

/-- An `OperatorQueueRuntime`, with its own copy of the queue. -/
structure Runtime where
  workspace : String
  runDir : Option String
  items : List QueueItem
  stopPanic : StopPanicState

structure World where
  requests : ℕ → ActionRequest
  next : ℕ
  file : StoredFile
  receipts : List Receipt
  control : ControlFiles
  runtimes : ℕ → Option Runtime

namespace World

def session (w : World) (rt : Runtime) : Session where
  requests := w.requests
  next := w.next
  items := rt.items
  stopPanic := rt.stopPanic
  file := w.file
  receipts := w.receipts

def put (w : World) (i : ℕ) (rt : Runtime) (s : Session) : World :=
  { w with
    requests := s.requests
    next := s.next
    file := s.file
    receipts := s.receipts
    runtimes := Function.update w.runtimes i
      (some { rt with items := s.items, stopPanic := s.stopPanic }) }

def controlOf (w : World) (rt : Runtime) : Except PyError StopPanicState :=
  loadStopPanicState w.control rt.workspace rt.runDir

section Fields

variable (w : World) (i : ℕ) (rt : Runtime) (s : Session)

@[simp] theorem put_file : (w.put i rt s).file = s.file := rfl

@[simp] theorem put_runtimes_self :
    (w.put i rt s).runtimes i =
      some { rt with items := s.items, stopPanic := s.stopPanic } :=
  Function.update_self _ _ _

theorem session_put :
    (w.put i rt s).session { rt with items := s.items, stopPanic := s.stopPanic } =
      s := rfl

end Fields

end World

inductive StoreInput where
  /-- A caller makes a request object. -/
  | construct (request : ActionRequest)
  /-- Somebody writes or removes control files. -/
  | control (files : ControlFiles)
  /-- `OperatorQueueRuntime(store, run_dir=…, workspace=…)`. -/
  | create (i : ℕ) (workspace : String) (runDir : Option String)
  | reload (i : ℕ)
  | call (i : ℕ) (op : Operation) (draws : Draws)
  /-- `item_execution_eligible` for an identifier, and `approved_eligible_items`. -/
  | report (i : ℕ) (queueItemId : String)

inductive StoreOutput where
  | returned (result : Except QueueError Returned)
  | reported (eligible : Bool × String) (items : List QueueItem)

def storeMachine (env : QueueEnv) : Machine World StoreInput (Option StoreOutput) where
  step w
    | .construct request =>
        ({ w with
            requests := Function.update w.requests w.next request
            next := w.next + 1 }, none)
    | .control files => ({ w with control := files }, none)
    | .create i workspace runDir =>
        let rt : Runtime := ⟨workspace, runDir, [], {}⟩
        match reload env (w.controlOf rt) (w.session rt) with
        | .ok _ s => (w.put i rt s, none)
        | .error _ _ => (w, none)
    | .reload i =>
        match w.runtimes i with
        | none => (w, none)
        | some rt =>
            (w.put i rt (finalState (reload env (w.controlOf rt)) (w.session rt)),
              none)
    | .call i op draws =>
        match w.runtimes i with
        | none => (w, none)
        | some rt =>
            if op.made w.next then
              (w.put i rt (finalState (op.run env draws) (w.session rt)),
                some (.returned (outcome (op.run env draws) (w.session rt))))
            else (w, none)
    | .report i queueItemId =>
        match w.runtimes i with
        | none => (w, none)
        | some rt =>
            (w, some (.reported ((w.session rt).itemExecutionEligible queueItemId)
              (w.session rt).approvedEligibleItems))

def World.new (file : StoredFile) (control : ControlFiles) : World where
  requests := fun _ => default
  next := 0
  file := file
  receipts := []
  control := control
  runtimes := fun _ => none

section Steps

variable {env : QueueEnv} {w : World} {i : ℕ} {rt : Runtime}

theorem storeMachine_call
    {op : Operation} (draws : Draws) (hrt : w.runtimes i = some rt)
    (hmade : op.made w.next = true) :
    (storeMachine env).step w (.call i op draws) =
      (w.put i rt (finalState (op.run env draws) (w.session rt)),
        some (.returned (outcome (op.run env draws) (w.session rt)))) := by
  simp [storeMachine, hrt, hmade]

theorem storeMachine_reload (hrt : w.runtimes i = some rt) :
    (storeMachine env).step w (.reload i) =
      (w.put i rt (finalState (reload env (w.controlOf rt)) (w.session rt)), none) := by
  simp [storeMachine, hrt]

variable (env w) in
theorem storeMachine_call_cases (i : ℕ) (op : Operation) (draws : Draws) :
    (storeMachine env).step w (.call i op draws) = (w, none) ∨
      ∃ rt, w.runtimes i = some rt ∧
        (storeMachine env).step w (.call i op draws) =
          (w.put i rt (finalState (op.run env draws) (w.session rt)),
            some (.returned (outcome (op.run env draws) (w.session rt)))) := by
  cases hrt : w.runtimes i with
  | none => exact .inl (by simp [storeMachine, hrt])
  | some rt =>
      cases hmade : op.made w.next with
      | false => exact .inl (by simp [storeMachine, hrt, hmade])
      | true => exact .inr ⟨rt, rfl, storeMachine_call draws hrt hmade⟩

end Steps

end Hydrogenuine.OperatorQueue
