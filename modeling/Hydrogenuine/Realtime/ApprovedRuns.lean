import Hydrogenuine.Core.ReferenceHost
import Hydrogenuine.Realtime.Launching
import Hydrogenuine.Support.Machine

/-!
# Approved runs

Embedding of `RealTimeScheduler._process_approved_runs`.  The batch is marked as
launching before any of its runs is tried, and no path of the loop marks a run back.
The guard counts a launching run of a social workflow as in flight, and so finds the
run that it is asked about.
-/

namespace Hydrogenuine.Realtime

open Support Hydrogenuine.Core

/-- The services of a pass: `json.loads`, the launcher, whether the gateway database
can be used, and what lies outside the process at each launch. -/
structure PassServices where
  host : Host
  loads : String → Except PyError PyVal
  launcher : DagLauncher
  connects : Bool
  world : String → LaunchWorld

/-- The table and the runs that were launched. -/
structure Launching where
  runs : RunTable
  launched : List String := []

section

variable (services : PassServices)

def requestOf (payloadJson : Option String) : Option RunRequested :=
  if !isText payloadJson then none
  else
    match services.loads (payloadJson.getD "") with
    | .ok (.dict payload) =>
        let text (key default : String) : String :=
          services.host.strOr (PyVal.getItem payload key) default
        let resolvedInputs := PyVal.getItem payload "resolved_inputs"
        some
          { workflowId := text "workflow_id" ""
            tenantId := text "tenant_id" "default"
            actorId := text "actor_id" ""
            correlationId := text "correlation_id" ""
            resolvedInputs :=
              if resolvedInputs.truthy then resolvedInputs else .dict []
            dedupKey := PyVal.getItem payload "dedup_key" }
    | _ => none

def launchRow (s : Launching) (entry : String × RunRow) : Launching × Bool :=
  match requestOf services entry.2.pendingRequestJson with
  | none => (s, false)
  | some req =>
      let world := services.world entry.1
      if (shouldSkipLaunch world.guardReads s.runs req.workflowId).1 then (s, false)
      else
        let done := services.launcher.launch world s.runs req entry.1
        ({ runs := done.2
           launched := if done.1 then s.launched ++ [entry.1] else s.launched },
          done.1)

def launchMachine : Machine Launching (String × RunRow) Bool where
  step := launchRow services

def approvedBatch (runs : RunTable) : List (String × RunRow) :=
  (runs.entries.filter fun entry =>
    entry.2.status = some "approved_pending_launch").take 5

/-- `UPDATE runs SET status = 'launching' WHERE run_id = ?`. -/
def markLaunching (runs : RunTable) (runId : String) : RunTable :=
  match runs.get? runId with
  | some row => runs.set runId { row with status := some "launching" }
  | none => runs

def batchOf (runs : RunTable) : List (String × RunRow) :=
  if services.connects then approvedBatch runs else []

def marked (runs : RunTable) : Launching where
  runs := (batchOf services runs).foldl (fun runs entry => markLaunching runs entry.1)
    runs

def processApprovedRuns (runs : RunTable) : Launching :=
  (launchMachine services).final (marked services runs) (batchOf services runs)

/-! ## The property -/

/-- Every approved run was launched or is still approved. -/
def NoneLost (runs : RunTable) : Prop :=
  ∀ runId row, runs.get? runId = some row →
    row.status = some "approved_pending_launch" →
      runId ∈ (processApprovedRuns services runs).launched ∨
        ((processApprovedRuns services runs).runs.get? runId).bind RunRow.status =
          some "approved_pending_launch"

/-- The guard would say the same without the row of the run that it is asked about. -/
def NoneBlocksItself (runs : RunTable) : Prop :=
  ∀ e ∈ (launchMachine services).trace (marked services runs)
      (batchOf services runs),
    ∀ req, requestOf services e.input.2.pendingRequestJson = some req →
      (shouldSkipLaunch (services.world e.input.1).guardReads e.before.runs
          req.workflowId).1 = true →
        (shouldSkipLaunch (services.world e.input.1).guardReads
          (e.before.runs.filter fun runId _ => decide (runId ≠ e.input.1))
          req.workflowId).1 = true

/-- The run has a readable request, the guard lets it through, and the launcher does
not raise. -/
def Launches (s : Launching) (entry : String × RunRow) : Prop :=
  ∃ req, requestOf services entry.2.pendingRequestJson = some req ∧
    (shouldSkipLaunch (services.world entry.1).guardReads s.runs
      req.workflowId).1 = false ∧
    (services.launcher.jobOf req.workflowId).isSome = true ∧
    readsAsInputs req.resolvedInputs = true ∧
    (services.world entry.1).prepares = true ∧
    (services.world entry.1).starts = true

end

/-! ## One round -/

section

variable {services : PassServices} {s : Launching} {entry : String × RunRow}

theorem launch_fst_iff
    {launcher : DagLauncher} {world : LaunchWorld} {runs : RunTable}
    {req : RunRequested} {runId : String} :
    (launcher.launch world runs req runId).1 = true ↔
      (launcher.jobOf req.workflowId).isSome = true ∧
        readsAsInputs req.resolvedInputs = true ∧ world.prepares = true ∧
        world.starts = true := by
  unfold DagLauncher.launch
  cases launcher.jobOf req.workflowId with
  | none => simp
  | some jobId =>
      by_cases hprepares : world.prepares = true
      · simp [hprepares]
      · simp [hprepares]

theorem launch_runs
    (launcher : DagLauncher) (world : LaunchWorld) (runs : RunTable)
    (req : RunRequested) (runId : String) :
    (launcher.launch world runs req runId).2 = runs ∨
      ∃ row : RunRow, row.status = some "running" ∧
        (launcher.launch world runs req runId).2 = runs.set runId row := by
  unfold DagLauncher.launch
  cases launcher.jobOf req.workflowId with
  | none => exact Or.inl rfl
  | some jobId =>
      by_cases hprepares : world.prepares = true
      · by_cases hindexed : launcher.runIndexed = true
        · refine Or.inr ⟨⟨some (orText (some req.workflowId) jobId),
            some "running", none⟩, rfl, ?_⟩
          simp [hprepares, hindexed, recordStart]
        · refine Or.inl ?_
          simp [hprepares, hindexed]
      · refine Or.inl ?_
        simp [hprepares]

theorem launchRow_cases
    (services : PassServices) (s : Launching) (entry : String × RunRow) :
    ((launchRow services s entry).1.runs = s.runs ∨
      ∃ row : RunRow, row.status = some "running" ∧
        (launchRow services s entry).1.runs = s.runs.set entry.1 row) ∧
    ((Launches services s entry ∧
        (launchRow services s entry).1.launched = s.launched ++ [entry.1]) ∨
      (¬ Launches services s entry ∧
        (launchRow services s entry).1.launched = s.launched)) := by
  unfold launchRow Launches
  cases hreq : requestOf services entry.2.pendingRequestJson with
  | none =>
      refine ⟨Or.inl rfl, Or.inr ⟨?_, rfl⟩⟩
      rintro ⟨req, h, -⟩
      cases h
  | some req =>
      dsimp only
      by_cases hskip : (shouldSkipLaunch (services.world entry.1).guardReads s.runs
          req.workflowId).1 = true
      · rw [if_pos hskip]
        refine ⟨Or.inl rfl, Or.inr ⟨?_, rfl⟩⟩
        rintro ⟨req', h, hopen, -⟩
        cases h
        rw [hskip] at hopen
        cases hopen
      · rw [if_neg hskip]
        refine ⟨launch_runs services.launcher _ s.runs req entry.1, ?_⟩
        by_cases hlaunched : (services.launcher.launch (services.world entry.1) s.runs
            req entry.1).1 = true
        · refine Or.inl ⟨⟨req, rfl, Bool.eq_false_iff.mpr hskip,
            launch_fst_iff.mp hlaunched⟩, if_pos hlaunched⟩
        · refine Or.inr ⟨?_, if_neg hlaunched⟩
          rintro ⟨req', h, -, hstarts⟩
          cases h
          exact hlaunched (launch_fst_iff.mpr hstarts)

/-! ## A pass -/

theorem final_of_not_mem
    (services : PassServices) {runId : String} (rows : List (String × RunRow))
    (hrun : runId ∉ rows.map Prod.fst) (s : Launching) :
    (((launchMachine services).final s rows).runs.get? runId =
        s.runs.get? runId) ∧
      (runId ∈ ((launchMachine services).final s rows).launched ↔
        runId ∈ s.launched) := by
  induction rows generalizing s with
  | nil => exact ⟨rfl, Iff.rfl⟩
  | cons entry rows ih =>
      rw [List.map_cons, List.mem_cons, not_or] at hrun
      obtain ⟨hne, hrest⟩ := hrun
      obtain ⟨hruns, hlaunched⟩ := ih hrest (launchRow services s entry).1
      obtain ⟨hrow, hways⟩ := launchRow_cases services s entry
      constructor
      · refine hruns.trans ?_
        rcases hrow with hsame | ⟨row, -, hset⟩
        · rw [hsame]
        · rw [hset, Dict.get?_set_of_ne _ _ hne]
      · refine hlaunched.trans ?_
        rcases hways with ⟨-, happend⟩ | ⟨-, hsame⟩
        · rw [happend, List.mem_append, List.mem_singleton]
          exact or_iff_left hne
        · rw [hsame]

theorem all_launched_iff
    (services : PassServices) (rows : List (String × RunRow)) (hnodup : (rows.map Prod.fst).Nodup)
    (s : Launching) (hfresh : ∀ entry ∈ rows, entry.1 ∉ s.launched) :
    (∀ entry ∈ rows, entry.1 ∈ ((launchMachine services).final s rows).launched) ↔
      (launchMachine services).Guarded (Launches services) s rows := by
  induction rows generalizing s with
  | nil => exact iff_of_true (List.forall_mem_nil _) Machine.guarded_nil
  | cons entry rows ih =>
      rw [List.map_cons, List.nodup_cons] at hnodup
      obtain ⟨hnew, hnodup⟩ := hnodup
      obtain ⟨-, hfirst⟩ :=
        final_of_not_mem services rows hnew (launchRow services s entry).1
      obtain ⟨-, hways⟩ := launchRow_cases services s entry
      have hfresh' : ∀ entry' ∈ rows,
          entry'.1 ∉ (launchRow services s entry).1.launched := by
        intro entry' hmem
        have hold := hfresh entry' (List.mem_cons_of_mem _ hmem)
        have hne : entry'.1 ≠ entry.1 := by
          intro heq
          exact hnew (heq ▸ List.mem_map_of_mem hmem)
        rcases hways with ⟨-, happend⟩ | ⟨-, hsame⟩
        · rw [happend, List.mem_append, List.mem_singleton]
          exact not_or.mpr ⟨hold, hne⟩
        · rw [hsame]
          exact hold
      have hround : entry.1 ∈ (launchRow services s entry).1.launched ↔
          Launches services s entry := by
        have hold := hfresh entry List.mem_cons_self
        rcases hways with ⟨hlaunches, happend⟩ | ⟨hnot, hsame⟩
        · rw [happend]
          exact iff_of_true (by simp) hlaunches
        · rw [hsame]
          exact iff_of_false hold hnot
      rw [Machine.guarded_cons, List.forall_mem_cons]
      exact and_congr (hfirst.trans hround) (ih hnodup _ hfresh')

theorem markLaunching_get? (runs : RunTable) (runId runId' : String) :
    (markLaunching runs runId).get? runId' =
      if runId' = runId then
        (runs.get? runId').map fun row => { row with status := some "launching" }
      else runs.get? runId' := by
  unfold markLaunching
  cases hrow : runs.get? runId with
  | none =>
      dsimp only
      by_cases heq : runId' = runId
      · rw [if_pos heq, heq, hrow]
        rfl
      · rw [if_neg heq]
  | some row =>
      dsimp only
      rw [Dict.get?_set]
      by_cases heq : runId' = runId
      · rw [if_pos heq, if_pos heq, heq, hrow]
        rfl
      · rw [if_neg heq, if_neg heq]

theorem final_status_ne
    {runId : String} (rows : List (String × RunRow)) (s : Launching)
    (h : (s.runs.get? runId).bind RunRow.status ≠ some "approved_pending_launch") :
    (((launchMachine services).final s rows).runs.get? runId).bind RunRow.status ≠
      some "approved_pending_launch" := by
  induction rows generalizing s with
  | nil => exact h
  | cons entry rows ih =>
      refine ih (launchRow services s entry).1 ?_
      rcases (launchRow_cases services s entry).1 with
        hsame | ⟨row, hstatus, hset⟩
      · rw [hsame]
        exact h
      · rw [hset, Dict.get?_set]
        by_cases heq : runId = entry.1
        · rw [if_pos heq, Option.bind_some, hstatus]
          decide
        · rw [if_neg heq]
          exact h

end

section

variable {services : PassServices} {runs : RunTable}

theorem foldl_markLaunching_get?
    (rows : List (String × RunRow)) (runs : RunTable) (runId : String) :
    (rows.foldl (fun runs entry => markLaunching runs entry.1) runs).get? runId =
      if runId ∈ rows.map Prod.fst then
        (runs.get? runId).map fun row => { row with status := some "launching" }
      else runs.get? runId := by
  induction rows generalizing runs with
  | nil => rfl
  | cons entry rows ih =>
      rw [List.foldl_cons, ih, markLaunching_get?, List.map_cons]
      by_cases hrest : runId ∈ rows.map Prod.fst
      · by_cases heq : runId = entry.1
        · rw [if_pos hrest, if_pos heq, if_pos (List.mem_cons_of_mem _ hrest),
            Option.map_map]
          rfl
        · rw [if_pos hrest, if_neg heq, if_pos (List.mem_cons_of_mem _ hrest)]
      · rw [if_neg hrest]
        by_cases heq : runId = entry.1
        · rw [if_pos heq, if_pos (List.mem_cons.mpr (Or.inl heq))]
        · rw [if_neg heq, if_neg]
          rw [List.mem_cons, not_or]
          exact ⟨heq, hrest⟩

theorem batchOf_nodup : ((batchOf services runs).map Prod.fst).Nodup := by
  unfold batchOf approvedBatch
  split
  · exact runs.nodupKeys.sublist
      (((List.take_sublist _ _).trans List.filter_sublist).map Prod.fst)
  · exact List.nodup_nil

theorem mem_batchOf {entry : String × RunRow} (h : entry ∈ batchOf services runs) :
    runs.get? entry.1 = some entry.2 ∧
      entry.2.status = some "approved_pending_launch" := by
  unfold batchOf approvedBatch at h
  split at h
  · obtain ⟨hmem, hstatus⟩ := List.mem_filter.mp (List.mem_of_mem_take h)
    exact ⟨(runs.mem_entries_iff).mp hmem, of_decide_eq_true hstatus⟩
  · cases h

theorem noneLost_iff :
    NoneLost services runs ↔
      (launchMachine services).Guarded (Launches services) (marked services runs)
        (batchOf services runs) := by
  have hall := all_launched_iff services (batchOf services runs)
    batchOf_nodup (marked services runs) (fun _ _ => List.not_mem_nil)
  rw [← hall]
  constructor
  · intro hkept entry hmem
    obtain ⟨hget, hstatus⟩ := mem_batchOf hmem
    rcases hkept entry.1 entry.2 hget hstatus with hlaunched | happroved
    · exact hlaunched
    · refine absurd happroved (final_status_ne _ _ ?_)
      rw [marked, foldl_markLaunching_get?, if_pos (List.mem_map_of_mem hmem), hget]
      simp
  · intro hlaunched runId row hget hstatus
    by_cases hmem : runId ∈ (batchOf services runs).map Prod.fst
    · obtain ⟨entry, hentry, rfl⟩ := List.mem_map.mp hmem
      exact Or.inl (hlaunched entry hentry)
    · refine Or.inr ?_
      obtain ⟨hsame, -⟩ :=
        final_of_not_mem services _ hmem (marked services runs)
      rw [processApprovedRuns, hsame, marked, foldl_markLaunching_get?, if_neg hmem,
        hget]
      exact hstatus

/-- No approved run is lost, and none blocks itself, exactly when every round of the
pass launches its run. -/
theorem approved_runs_kept_iff (services : PassServices) (runs : RunTable) :
    NoneLost services runs ∧ NoneBlocksItself services runs ↔
      (launchMachine services).Guarded (Launches services) (marked services runs)
        (batchOf services runs) := by
  rw [noneLost_iff]
  refine and_iff_left_of_imp fun hguarded e he req hreq hskip => ?_
  obtain ⟨req', hreq', hopen, -⟩ := hguarded e he
  rw [hreq] at hreq'
  rw [← Option.some.inj hreq', hskip] at hopen
  cases hopen

end

def healthyPass (workflowId : String) : PassServices where
  host := referenceHost
  loads _ := .ok (.dict [("workflow_id", .str workflowId)])
  launcher := { jobOf := fun workflowId => some workflowId, runIndexed := true }
  connects := true
  world _ := { guardReads := true, prepares := true, starts := true }

def approvedRun (workflowId : String) : RunTable :=
  Dict.ofList [("run-1",
    { graphId := some workflowId
      status := some "approved_pending_launch"
      pendingRequestJson := some "stored" })]

/-- The only run in the table is a social one, and the guard defers it because of
itself.  It stays in the status of a launching run. -/
theorem social_run_lost :
    (processApprovedRuns (healthyPass "social-media")
        (approvedRun "social-media")).launched = [] ∧
      ((processApprovedRuns (healthyPass "social-media")
          (approvedRun "social-media")).runs.get? "run-1").bind RunRow.status =
        some "launching" ∧
      ¬ NoneLost (healthyPass "social-media") (approvedRun "social-media") ∧
      ¬ NoneBlocksItself (healthyPass "social-media")
        (approvedRun "social-media") := by
  have hlaunched : (processApprovedRuns (healthyPass "social-media")
      (approvedRun "social-media")).launched = [] := by decide +kernel
  have hstatus : ((processApprovedRuns (healthyPass "social-media")
      (approvedRun "social-media")).runs.get? "run-1").bind RunRow.status =
        some "launching" := by decide +kernel
  refine ⟨hlaunched, hstatus, ?_, ?_⟩
  · intro hkept
    rcases hkept "run-1" _ rfl rfl with h | h
    · rw [hlaunched] at h
      cases h
    · rw [hstatus] at h
      revert h
      decide
  · intro hfree
    have halone := hfree _ List.mem_cons_self _ rfl (by decide +kernel)
    revert halone
    decide +kernel

end Hydrogenuine.Realtime
