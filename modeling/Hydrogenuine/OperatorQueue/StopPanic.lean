import Hydrogenuine.OperatorQueue.Discipline
import Hydrogenuine.OperatorQueue.Interleaving

/-!
# Stop and panic on open queues

A runtime reads the control files when it is made and when it reloads, and goes by what
it read from then on.  A marker binds a runtime that has read the control files since
they were last changed: it approves nothing, and under panic or the emergency lock it
executes nothing and reports nothing as eligible.
-/

namespace Hydrogenuine.OperatorQueue

open Support Hydrogenuine.Core

/-! ## What the control files set -/

def StoredFile.sets (file : StoredFile) (key : String) : Bool :=
  match file with
  | .json (.dict control) => flag control key
  | _ => false

namespace ControlFiles

variable (files : ControlFiles) (workspace : String) (runDir : Option String)

def stopSet : Bool :=
  files.stop workspace || (files.runFile runDir).sets "stop_active"

def panicSet : Bool :=
  files.panic workspace || (files.runFile runDir).sets "panic_active"

def locked : Bool :=
  (files.runFile runDir).sets "emergency_lock" ||
    (files.controlState workspace).sets "emergency_lock"

end ControlFiles

theorem flag_of_readControl
    {file : StoredFile} {control : Items} (h : readControl file = .ok control)
    (key : String) : flag control key = file.sets key := by
  have hempty : flag [] key = false := rfl
  cases file with
  | absent =>
      obtain rfl := Except.ok.inj h
      exact hempty
  | unreadable =>
      obtain rfl := Except.ok.inj h
      exact hempty
  | json data =>
      unfold readControl at h
      cases htruthy : data.truthy with
      | false =>
          simp only [htruthy, Bool.false_eq_true, if_false] at h
          obtain rfl := Except.ok.inj h
          cases data with
          | dict items =>
              cases items with
              | nil => rfl
              | cons entry items => simp [PyVal.truthy] at htruthy
          | _ => rfl
      | true =>
          simp only [htruthy, if_true] at h
          cases data with
          | dict items =>
              obtain rfl := Except.ok.inj h
              rfl
          | _ => cases h

theorem loadStopPanicState_sets
    {files : ControlFiles} {workspace : String} {runDir : Option String}
    {state : StopPanicState}
    (h : loadStopPanicState files workspace runDir = .ok state) :
    state.stopActive = files.stopSet workspace runDir ∧
      state.panicActive = files.panicSet workspace runDir ∧
        state.emergencyLock = files.locked workspace runDir := by
  unfold loadStopPanicState at h
  cases hrun : readControl (files.runFile runDir) with
  | error e =>
      rw [hrun] at h
      cases h
  | ok control =>
      cases hglobal : readControl (files.controlState workspace) with
      | error e =>
          rw [hrun, hglobal] at h
          cases h
      | ok globalControl =>
          rw [hrun, hglobal] at h
          obtain rfl := Except.ok.inj h
          unfold ControlFiles.stopSet ControlFiles.panicSet ControlFiles.locked
          simp only [flag_of_readControl hrun, flag_of_readControl hglobal]
          exact ⟨trivial, trivial, trivial⟩

/-! ## Operations under a marker -/

section Operations

variable {env : QueueEnv} {draws : Draws} {s : Session} {op : Operation}

theorem run_of_check_error
    {plan : Plan} {e : QueueError} (hplan : op.plan? env = some plan)
    (hcheck : plan.check s = .error e) : op.run env draws s = .error e s := by
  rw [Operation.run_of_plan hplan, Plan.run, Plan.precheck_eq, hcheck]

variable (env draws) in
theorem approve_blocked
    (h : s.stopPanic.blocksApproval = true) (id : String) (operatorRef reason : PyVal) :
    ∃ e, (Operation.approveItem id operatorRef reason).run env draws s = .error e s := by
  obtain ⟨e, hcheck⟩ : ∃ e, checkApproval s id operatorRef = .error e := by
    unfold checkApproval
    cases operatorRef.pyEq (.str "agent0") with
    | true => exact ⟨_, rfl⟩
    | false =>
        cases s.findItem id with
        | error e => exact ⟨e, rfl⟩
        | ok item => exact ⟨.stopPanicActive "stop_or_panic_active", by
            simp [itemMayBeApproved, h, bind, Except.bind]
            rfl⟩
  exact ⟨e, run_of_check_error rfl hcheck⟩

variable (env draws) in
theorem execute_blocked
    (h : s.stopPanic.blocksExecution = true) (id : String) (ref : PyVal)
    (dryRun : Bool) :
    ∃ e, (Operation.markExecuted id ref dryRun).run env draws s = .error e s := by
  obtain ⟨e, hcheck⟩ : ∃ e, checkExecution s id dryRun = .error e := by
    unfold checkExecution
    cases s.findItem id with
    | error e => exact ⟨e, rfl⟩
    | ok item =>
        simp only [bind, Except.bind]
        cases itemMayMarkExecuted (s.requestOf item) dryRun with
        | mk may message =>
            cases may with
            | false => exact ⟨_, rfl⟩
            | true => exact ⟨_, by simp [itemExecutionEligible, h]; rfl⟩
  exact ⟨e, run_of_check_error rfl hcheck⟩

theorem not_eligible_of_blocked
    (h : s.stopPanic.blocksExecution = true) (id : String) :
    (s.itemExecutionEligible id).1 = false ∧ s.approvedEligibleItems = [] := by
  have hblocked (r : ActionRequest) :
      (itemExecutionEligible r s.stopPanic.blocksExecution false).1 = false := by
    unfold itemExecutionEligible
    rw [if_pos h]
  constructor
  · unfold Session.itemExecutionEligible
    cases s.items.find? fun item => item.queueItemId == id with
    | none => rfl
    | some item => exact hblocked _
  · unfold Session.approvedEligibleItems
    rw [List.filter_eq_nil_iff]
    intro item _
    rw [hblocked, Bool.and_false]
    exact Bool.false_ne_true

end Operations

/-! ## Runs -/

namespace World

def blocksApproval (w : World) (rt : Runtime) : Bool :=
  w.control.stopSet rt.workspace rt.runDir || w.control.panicSet rt.workspace rt.runDir ||
    w.control.locked rt.workspace rt.runDir

def blocksExecution (w : World) (rt : Runtime) : Bool :=
  w.control.panicSet rt.workspace rt.runDir || w.control.locked rt.workspace rt.runDir

/-- The runtime goes by what the control files say now. -/
def Informed (w : World) (rt : Runtime) : Prop := w.controlOf rt = .ok rt.stopPanic

section Informed

variable {w : World} {rt : Runtime}

theorem Informed.blocksApproval_eq (h : w.Informed rt) :
    rt.stopPanic.blocksApproval = w.blocksApproval rt := by
  obtain ⟨hstop, hpanic, hlock⟩ := loadStopPanicState_sets h
  unfold StopPanicState.blocksApproval World.blocksApproval
  rw [hstop, hpanic, hlock]

theorem Informed.blocksExecution_eq (h : w.Informed rt) :
    rt.stopPanic.blocksExecution = w.blocksExecution rt := by
  obtain ⟨-, hpanic, hlock⟩ := loadStopPanicState_sets h
  unfold StopPanicState.blocksExecution World.blocksExecution
  rw [hpanic, hlock]

end Informed

end World

/-- A runtime is informed when it is called or asked for a report. -/
def StoreInput.Informed (w : World) : StoreInput → Prop
  | .call i _ _ => ∀ rt, w.runtimes i = some rt → w.Informed rt
  | .report i _ => ∀ rt, w.runtimes i = some rt → w.Informed rt
  | _ => True

/-- The step respects what the markers and locks say when it is taken. -/
structure Bound
    (w : World) (input : StoreInput) (output : Option StoreOutput) : Prop where
  approve : ∀ i id operatorRef reason draws rt returned,
    input = .call i (.approveItem id operatorRef reason) draws →
      w.runtimes i = some rt → w.blocksApproval rt = true →
        output ≠ some (.returned (.ok returned))
  execute : ∀ i id ref dryRun draws rt returned,
    input = .call i (.markExecuted id ref dryRun) draws →
      w.runtimes i = some rt → w.blocksExecution rt = true →
        output ≠ some (.returned (.ok returned))
  report : ∀ i id rt eligible items, input = .report i id →
    w.runtimes i = some rt → w.blocksExecution rt = true →
      output = some (.reported eligible items) → eligible.1 = false ∧ items = []

section Runs

variable {env : QueueEnv} {w : World} {input : StoreInput}

variable (env) in
theorem bound_step (hinformed : input.Informed w) :
    Bound w input ((storeMachine env).step w input).2 := by
  constructor
  · rintro i id operatorRef reason draws rt returned rfl hrt hblocked
    rcases storeMachine_call_cases env w i (.approveItem id operatorRef reason) draws
      with hstep | ⟨rt', hrt', hstep⟩
    · rw [hstep]
      exact fun houtput => nomatch houtput
    · rw [hrt] at hrt'
      obtain rfl := Option.some.inj hrt'
      have hcached : (w.session rt).stopPanic.blocksApproval = true :=
        ((hinformed rt hrt).blocksApproval_eq).trans hblocked
      obtain ⟨e, hrun⟩ := approve_blocked env draws hcached id operatorRef reason
      rw [hstep]
      unfold outcome
      rw [hrun]
      exact fun houtput => nomatch houtput
  · rintro i id ref dryRun draws rt returned rfl hrt hblocked
    rcases storeMachine_call_cases env w i (.markExecuted id ref dryRun) draws
      with hstep | ⟨rt', hrt', hstep⟩
    · rw [hstep]
      exact fun houtput => nomatch houtput
    · rw [hrt] at hrt'
      obtain rfl := Option.some.inj hrt'
      have hcached : (w.session rt).stopPanic.blocksExecution = true :=
        ((hinformed rt hrt).blocksExecution_eq).trans hblocked
      obtain ⟨e, hrun⟩ := execute_blocked env draws hcached id ref dryRun
      rw [hstep]
      unfold outcome
      rw [hrun]
      exact fun houtput => nomatch houtput
  · rintro i id rt eligible items rfl hrt hblocked houtput
    have hcached : (w.session rt).stopPanic.blocksExecution = true :=
      ((hinformed rt hrt).blocksExecution_eq).trans hblocked
    simp only [storeMachine, hrt] at houtput
    obtain ⟨rfl, rfl⟩ := StoreOutput.reported.inj (Option.some.inj houtput)
    exact not_eligible_of_blocked hcached id

/-- Along a run in which every runtime that is called or asked goes by what the control
files say at that moment, the markers and locks are respected by every step. -/
theorem stop_panic_binds
    (env : QueueEnv) (w : World) (inputs : List StoreInput)
    (hinformed : (storeMachine env).Guarded StoreInput.Informed w inputs) :
    ∀ e ∈ (storeMachine env).trace w inputs, Bound e.before e.input e.output :=
  (storeMachine env).invariant_of_guarded
    (fun trace _ => ∀ e ∈ trace, Bound e.before e.input e.output)
    (List.forall_mem_nil _)
    (fun trace now input htrace hguard => by
      rw [List.forall_mem_append, List.forall_mem_singleton]
      exact ⟨htrace, bound_step env hguard⟩)
    inputs hinformed

end Runs

theorem reload_of_load
    {env : QueueEnv} {s t : Session} (hload : load env s = .ok ⟨⟩ t)
    (stopPanic : StopPanicState) :
    reload env (.ok stopPanic) s = .ok ⟨⟩ { t with stopPanic := stopPanic } := by
  unfold reload
  rw [bind_apply, hload]
  rfl

/-- The soak root of every workspace has the `STOP` marker. -/
def stopped : ControlFiles := { noControl with stop := fun _ => true }

def approveNote : Operation := .approveItem "oqi-1" (.str "operator") (.str "ok")

def reloadedStop : List StoreInput :=
  [.control stopped, .reload 0, .call 0 approveNote (drawsOf "oqi-2")]

theorem stop_panic_binds_reloaded :
    (storeMachine referenceQueue).Guarded StoreInput.Informed twoOpened reloadedStop ∧
      ∀ e ∈ (storeMachine referenceQueue).trace twoOpened reloadedStop,
        Bound e.before e.input e.output := by
  refine ⟨?informed, stop_panic_binds referenceQueue twoOpened reloadedStop ?informed⟩
  have hcontrol : ((storeMachine referenceQueue).step twoOpened (.control stopped)).1 =
      { twoOpened with control := stopped } := rfl
  have hrt : ({ twoOpened with control := stopped } : World).runtimes 0 =
      some emptyRuntime := rfl
  unfold reloadedStop
  rw [Machine.guarded_cons, Machine.guarded_cons, Machine.guarded_cons, hcontrol,
    storeMachine_reload hrt]
  refine ⟨trivial, trivial, ?_, Machine.guarded_nil⟩
  intro rt hreloaded
  rw [World.put_runtimes_self] at hreloaded
  obtain rfl := Option.some.inj hreloaded
  have hload : load referenceQueue (twoOpened.session emptyRuntime) =
      .ok ⟨⟩ ((twoOpened.session emptyRuntime).adopt []) := load_absent rfl
  have hreload := reload_of_load hload { stopActive := true }
  have hread : ({ twoOpened with control := stopped } : World).controlOf emptyRuntime =
      .ok { stopActive := true } := rfl
  have hsession : ({ twoOpened with control := stopped } : World).session emptyRuntime =
      twoOpened.session emptyRuntime := rfl
  rw [hread, hsession]
  unfold finalState
  rw [hreload]
  exact hread

def unreloadedStop : List StoreInput :=
  [.call 0 (.enqueue 0) (drawsOf "oqi-1"), .control stopped,
    .call 0 approveNote (drawsOf "oqi-2")]

theorem approve_note
    {s : Session} (draws : Draws) (hitems : s.items = [⟨"oqi-1", 0, .none⟩])
    (hrequest : s.requests 0 = noteRequest.normalized) (hstop : s.stopPanic = {}) :
    ∃ returned, outcome (approveNote.run referenceQueue draws) s = .ok returned := by
  generalize hplan : Plan.mk (fun s => checkApproval s "oqi-1" (.str "operator"))
    ⟨"oqi-1", .approved, .approveItem, .str "operator", .str "ok", true⟩ none = plan
  have hplanned : approveNote.plan? referenceQueue = some plan := by
    rw [← hplan]
    rfl
  have hfind : s.findItem "oqi-1" = .ok ⟨"oqi-1", 0, .none⟩ := by
    simp [Session.findItem, hitems]
  have hitem : s.requestOf ⟨"oqi-1", 0, .none⟩ = noteRequest.normalized := hrequest
  have hcheck : plan.precheck s = .ok ⟨"oqi-1", 0, .none⟩ := by
    rw [← hplan, Plan.precheck_eq]
    have happrove : checkApproval s "oqi-1" (.str "operator") = .ok () := by
      unfold checkApproval
      rw [hfind]
      simp only [bind, Except.bind]
      rw [hitem, hstop]
      rfl
    simp only
    rw [happrove]
    simp only [Change.check]
    rw [hfind]
    simp only [bind, Except.bind]
    rw [hitem, hstop]
    rfl
  have hrecordable : plan.Recordable := by
    rw [← hplan]
    exact ⟨⟨_, rfl⟩, clean_str _, by simp⟩
  have hclean : ∀ item ∈ s.items,
      (s.requestOf item).AllClean ∧ Clean item.previousItemRef := by
    rw [hitems, List.forall_mem_singleton, hitem]
    exact ⟨(allClean_normalized_iff _).mpr noteRequest_allClean, clean_none⟩
  have haccept : plan.Acceptable s ⟨"oqi-1", 0, .none⟩ :=
    Plan.acceptable_of_recordable hrecordable hclean
  unfold outcome
  rw [Operation.run_of_plan hplanned]
  rcases Plan.run_cases referenceQueue draws hcheck with ⟨-, reason, hrun⟩ | ⟨hnot, -⟩
  · rw [hrun]
    exact ⟨_, rfl⟩
  · exact absurd haccept hnot

def firstStopped : World := { firstEnqueued with control := stopped }

def firstRuntime : Runtime :=
  { emptyRuntime with
    items := (noteSession (drawsOf "oqi-1") (twoOpened.session emptyRuntime) 0).items
    stopPanic := {} }

theorem firstStopped_session :
    firstStopped.session firstRuntime =
      noteSession (drawsOf "oqi-1") (twoOpened.session emptyRuntime) 0 := rfl

theorem step_approve :
    ∃ returned, ((storeMachine referenceQueue).stepAt firstStopped
      (.call 0 approveNote (drawsOf "oqi-2"))).output =
        some (.returned (.ok returned)) := by
  obtain ⟨returned, hreturned⟩ : ∃ returned,
      outcome (approveNote.run referenceQueue (drawsOf "oqi-2"))
        (noteSession (drawsOf "oqi-1") (twoOpened.session emptyRuntime) 0) =
          .ok returned :=
    approve_note (drawsOf "oqi-2") rfl rfl rfl
  have hrt : firstStopped.runtimes 0 = some firstRuntime := rfl
  have hmade : approveNote.made firstStopped.next = true := rfl
  refine ⟨returned, ?_⟩
  unfold Machine.stepAt
  rw [storeMachine_call (drawsOf "oqi-2") hrt hmade, firstStopped_session, hreturned]

theorem unreloaded_not_bound :
    ¬ ∀ e ∈ (storeMachine referenceQueue).trace twoOpened unreloadedStop,
      Bound e.before e.input e.output := by
  intro h
  obtain ⟨returned, hreturned⟩ := step_approve
  have hmem : (storeMachine referenceQueue).stepAt firstStopped
      (.call 0 approveNote (drawsOf "oqi-2")) ∈
        (storeMachine referenceQueue).trace twoOpened unreloadedStop := by
    unfold unreloadedStop
    simp only [Machine.trace]
    rw [step_first]
    exact List.mem_cons_of_mem _ (List.mem_cons_of_mem _ List.mem_cons_self)
  have hrt : firstStopped.runtimes 0 = some firstRuntime := rfl
  exact (h _ hmem).approve 0 "oqi-1" (.str "operator") (.str "ok") (drawsOf "oqi-2")
    firstRuntime returned rfl hrt rfl hreturned

end Hydrogenuine.OperatorQueue
