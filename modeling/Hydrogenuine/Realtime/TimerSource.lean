import Hydrogenuine.Core.ReferenceHost
import Hydrogenuine.Realtime.Event
import Hydrogenuine.Realtime.Schedule

/-!
# The timer source

Embedding of `hg_realtime/scheduler/timer_source.py` and of `ScheduleState`: as long as
the soonest run is not after the reference time, its event is published, its cadence
request is cleared and its next run is computed.
-/

namespace Hydrogenuine.Realtime

open Support Hydrogenuine.Core

/-! ## The schedule state -/

/-- `ScheduleState`, with the cadence requests that are left in its workspace. -/
structure ScheduleState where
  entries : List ScheduleEntry
  nextRun : Dict String ℤ
  requests : String → JsonFile

section Firing

variable (host : Host) (croniter : Croniter) (workspace : Workspace)

/-- One iteration of the loop of `next_due`. -/
def considerEntry
    (requests : String → JsonFile) (ref : ℤ)
    (loop : Option (ℤ × ScheduleEntry) × Dict String ℤ) (entry : ScheduleEntry) :
    Option (ℤ × ScheduleEntry) × Dict String ℤ :=
  let (due, nextRun) :=
    match loop.2.get? entry.jobId with
    | some due => (due, loop.2)
    | none =>
        let due := computeNext host croniter workspace requests entry ref
        (due, loop.2.set entry.jobId due)
  match loop.1 with
  | none => (some (due, entry), nextRun)
  | some soonest => (if due < soonest.1 then some (due, entry) else some soonest, nextRun)

namespace ScheduleState

def nextDue (state : ScheduleState) (ref : ℤ) :
    Option (ℤ × ScheduleEntry) × ScheduleState :=
  let (soonest, nextRun) := state.entries.foldl
    (considerEntry host croniter workspace state.requests ref) (none, state.nextRun)
  (soonest, { state with nextRun := nextRun })

/-- `clear_cadence_override_for_entry` and `mark_fired`. -/
def markFired (state : ScheduleState) (entry : ScheduleEntry) (ref : ℤ) : ScheduleState :=
  { state with
    nextRun := state.nextRun.set entry.jobId
      (nextAfterFiring host croniter workspace state.requests entry ref)
    requests := clearCadenceOverrideForEntry host workspace state.requests entry }

end ScheduleState

/-! ## Events -/

/-- `int(due.timestamp())`. -/
def timestamp (due : ℤ) : ℤ := due.tdiv 1000000

def tickKey (jobId : String) (due : ℤ) : String :=
  "timer:" ++ jobId ++ ":" ++ toString (timestamp due)

/-- The event that `_publish_timer` publishes. -/
def timerEventOf (tenantId actorId : String) (due : ℤ) (entry : ScheduleEntry) : Event :=
  let inputs :=
    if entry.inputs.isEmpty then
      [("trigger", PyVal.str "realtime"), ("goal", .str ("scheduled " ++ entry.jobId))]
    else entry.inputs
  let workflowId := strip (host.strOr ((PyVal.item? inputs "workflow_id").getD (.str "")) "")
  let payload :=
    [("job_id", PyVal.str entry.jobId),
      ("inputs", .dict (inputs.filter fun item => item.1 ≠ "workflow_id"))] ++
      (if workflowId = "" then [] else [("workflow_id", .str workflowId)])
  let dedupKey := tickKey entry.jobId due
  { eventId := host.sha256Hex (.dict
      [("event_type", .str "timer"), ("tenant_id", .str tenantId),
        ("dedup_key", .str dedupKey), ("payload", .dict payload)])
    eventType := .timer
    tenantId := tenantId
    actorId := actorId
    correlationId := "timer:" ++ entry.jobId ++ ":" ++ toString (timestamp due)
    payload := payload
    dedupKey := some dedupKey }

/-! ## Firing -/

/-- The loop of `fire_due_events`: the runs that are fired, one after the other, and the
state that is left; `none` if the fuel does not suffice. -/
def fireLoop (ref : ℤ) : ℕ → ScheduleState →
    Option (List (ℤ × ScheduleEntry) × ScheduleState)
  | 0, _ => none
  | fuel + 1, state =>
      match state.nextDue host croniter workspace ref with
      | (none, state) => some ([], state)
      | (some (due, entry), state) =>
          if ref < due then some ([], state)
          else
            (fireLoop ref fuel (state.markFired host croniter workspace entry ref)).map
              fun fired => ((due, entry) :: fired.1, fired.2)

/-- `fire_due_events`: how many events are published, the events, and the state. -/
def fireDueEvents (tenantId actorId : String) (state : ScheduleState) (ref : ℤ)
    (fuel : ℕ) : Option (ℕ × List Event × ScheduleState) :=
  (fireLoop host croniter workspace ref fuel state).map fun fired =>
    (fired.1.length,
      fired.1.map fun run => timerEventOf host tenantId actorId run.1 run.2, fired.2)

/-- The runs that are due: those of the entries whose next run, computed if there is none
yet, is at or before the time. -/
def dueRuns (state : ScheduleState) (ref : ℤ) : List (ℤ × ScheduleEntry) :=
  state.entries.filterMap fun entry =>
    (((state.nextDue host croniter workspace ref).2.nextRun.get? entry.jobId).filter
      fun due => due ≤ ref).map fun due => (due, entry)

/-- As many events as runs are due are published, one for each of them. -/
def FiresEachDueRun (tenantId actorId : String) (state : ScheduleState) (ref : ℤ) : Prop :=
  ∃ fuel events final,
    fireDueEvents host croniter workspace tenantId actorId state ref fuel =
        some ((dueRuns host croniter workspace state ref).length, events, final) ∧
      events.Perm ((dueRuns host croniter workspace state ref).map
        fun run => timerEventOf host tenantId actorId run.1 run.2)

end Firing

section Runs

variable {host : Host} {croniter : Croniter} {workspace : Workspace}
  {requests : String → JsonFile} {state : ScheduleState} {entries : List ScheduleEntry}
  {entry other : ScheduleEntry} {nextRun : Dict String ℤ} {ref due due' : ℤ}

/-! ## The soonest run -/

def First (entries : List ScheduleEntry) (entry : ScheduleEntry) : Prop :=
  entries.find? (fun other => other.jobId = entry.jobId) = some entry

theorem First.mem (h : First entries entry) : entry ∈ entries := List.mem_of_find?_eq_some h

theorem First.eq (h : First entries entry) (h' : First entries other)
    (hjob : other.jobId = entry.jobId) : other = entry := by
  rw [First, hjob] at h'
  exact Option.some.inj (h'.symm.trans h)

theorem exists_first (h : entry ∈ entries) :
    ∃ first, First entries first ∧ first.jobId = entry.jobId := by
  obtain ⟨first, hfirst⟩ := Option.isSome_iff_exists.mp
    (List.find?_isSome (p := fun other => other.jobId = entry.jobId) |>.mpr
      ⟨entry, h, decide_eq_true (Eq.refl entry.jobId)⟩)
  have hjob : first.jobId = entry.jobId := by simpa using List.find?_some hfirst
  exact ⟨first, by rw [First, hjob, hfirst], hjob⟩

def Filled (entries : List ScheduleEntry) (nextRun : Dict String ℤ) : Prop :=
  ∀ entry ∈ entries, ∃ due, nextRun.get? entry.jobId = some due

def sooner (soonest : Option (ℤ × ScheduleEntry)) (run : ℤ × ScheduleEntry) :
    ℤ × ScheduleEntry :=
  soonest.elim run fun found => if run.1 < found.1 then run else found

theorem considerEntry_of_some (soonest : Option (ℤ × ScheduleEntry))
    (h : nextRun.get? entry.jobId = some due) :
    considerEntry host croniter workspace requests ref (soonest, nextRun) entry =
      (some (sooner soonest (due, entry)), nextRun) := by
  simp only [considerEntry, h]
  cases soonest with
  | none => rfl
  | some found =>
      dsimp only [sooner, Option.elim_some]
      split_ifs
      · rfl
      · rfl

theorem considerEntry_of_none (soonest : Option (ℤ × ScheduleEntry))
    (h : nextRun.get? entry.jobId = none) :
    considerEntry host croniter workspace requests ref (soonest, nextRun) entry =
      considerEntry host croniter workspace requests ref
        (soonest, nextRun.set entry.jobId
          (computeNext host croniter workspace requests entry ref)) entry := by
  simp only [considerEntry, h, Dict.get?_set_self]

/-- The loop of `next_due` keeps the runs it finds, adds those that are missing, and
comes to the same when it starts with all of them. -/
theorem foldl_considerEntry (entries : List ScheduleEntry)
    (soonest : Option (ℤ × ScheduleEntry)) (nextRun : Dict String ℤ) :
    let loop := entries.foldl (considerEntry host croniter workspace requests ref)
      (soonest, nextRun)
    (∀ key due, nextRun.get? key = some due → loop.2.get? key = some due) ∧
      Filled entries loop.2 ∧
      entries.foldl (considerEntry host croniter workspace requests ref)
        (soonest, loop.2) = loop := by
  induction entries generalizing soonest nextRun with
  | nil => exact ⟨fun _ _ h => h, nofun, rfl⟩
  | cons entry entries ih =>
      have hfound (nextRun : Dict String ℤ) {due : ℤ}
          (h : nextRun.get? entry.jobId = some due) :
          let loop := (entry :: entries).foldl
            (considerEntry host croniter workspace requests ref) (soonest, nextRun)
          (∀ key due, nextRun.get? key = some due → loop.2.get? key = some due) ∧
            Filled (entry :: entries) loop.2 ∧
            (entry :: entries).foldl (considerEntry host croniter workspace requests ref)
              (soonest, loop.2) = loop := by
        obtain ⟨hkeeps, hfilled, hsame⟩ := ih (some (sooner soonest (due, entry))) nextRun
        rw [List.foldl_cons, considerEntry_of_some soonest h]
        refine ⟨hkeeps, List.forall_mem_cons.mpr ⟨⟨due, hkeeps _ _ h⟩, hfilled⟩, ?_⟩
        rw [List.foldl_cons, considerEntry_of_some soonest (hkeeps _ _ h), hsame]
      cases hget : nextRun.get? entry.jobId with
      | some due => exact hfound nextRun hget
      | none =>
          obtain ⟨hkeeps, hrest⟩ := hfound _ (Dict.get?_set_self nextRun entry.jobId
            (computeNext host croniter workspace requests entry ref))
          rw [List.foldl_cons, considerEntry_of_none soonest hget, ← List.foldl_cons]
          refine ⟨fun key due h => hkeeps key due ?_, hrest⟩
          rw [Dict.get?_set_of_ne _ _ fun hkey => ?_]
          · exact h
          · rw [hkey, hget] at h
            cases h

/-- The run is that of the first entry of its job, and no run is sooner. -/
structure Soonest (entries : List ScheduleEntry) (nextRun : Dict String ℤ)
    (run : ℤ × ScheduleEntry) : Prop where
  first : First entries run.2
  stored : nextRun.get? run.2.jobId = some run.1
  least : ∀ entry ∈ entries, ∀ due, nextRun.get? entry.jobId = some due → run.1 ≤ due

theorem foldl_considerEntry_filled (h : Filled entries nextRun) :
    let loop := entries.foldl (considerEntry host croniter workspace requests ref)
      (none, nextRun)
    loop.2 = nextRun ∧ (loop.1 = none → entries = []) ∧
      ∀ run, loop.1 = some run → Soonest entries nextRun run := by
  induction entries using List.reverseRecOn with
  | nil => exact ⟨rfl, fun _ => rfl, nofun⟩
  | append_singleton entries entry ih =>
      obtain ⟨hfilled, hlast⟩ := List.forall_mem_append.mp h
      obtain ⟨due, hdue⟩ := hlast entry List.mem_cons_self
      obtain ⟨hsame, hnone, hsome⟩ := ih hfilled
      rw [List.foldl_concat]
      generalize entries.foldl (considerEntry host croniter workspace requests ref)
        (none, nextRun) = loop at hsame hnone hsome
      obtain ⟨soonest, _⟩ := loop
      obtain rfl : _ = nextRun := hsame
      rw [considerEntry_of_some soonest hdue]
      refine ⟨rfl, nofun, ?_⟩
      rintro run ⟨⟩
      cases soonest with
      | none =>
          rw [hnone rfl, List.nil_append]
          refine ⟨by simp [First, sooner], hdue, ?_⟩
          intro other hother due' hdue'
          rw [List.mem_singleton.mp hother, hdue] at hdue'
          exact (Option.some.inj hdue').le
      | some found =>
          obtain ⟨hfirst, hrun, hleast⟩ := hsome found rfl
          dsimp only [sooner, Option.elim_some]
          split_ifs with hsooner
          · refine ⟨?_, hdue, ?_⟩
            · rw [First, List.find?_append, List.find?_eq_none.mpr, Option.none_or]
              · simp
              · intro other hother hjob
                rw [← of_decide_eq_true hjob] at hdue
                exact absurd (hleast other hother due hdue) (not_le.mpr hsooner)
            · intro other hother due' hdue'
              rcases List.mem_append.mp hother with hother | hother
              · exact hsooner.le.trans (hleast other hother due' hdue')
              · rw [List.mem_singleton.mp hother, hdue] at hdue'
                exact (Option.some.inj hdue').le
          · refine ⟨?_, hrun, ?_⟩
            · rw [First, List.find?_append, hfirst, Option.some_or]
            · intro other hother due' hdue'
              rcases List.mem_append.mp hother with hother | hother
              · exact hleast other hother due' hdue'
              · rw [List.mem_singleton.mp hother, hdue] at hdue'
                exact (not_lt.mp hsooner).trans (Option.some.inj hdue').le

/-! ## What is fired -/

/-- The run is due, and its entry the first one of its job. -/
structure Due (state : ScheduleState) (ref : ℤ) (run : ℤ × ScheduleEntry) : Prop where
  first : First state.entries run.2
  stored : state.nextRun.get? run.2.jobId = some run.1
  due : run.1 ≤ ref

theorem nextDue_filled (state : ScheduleState) (ref : ℤ) :
    let filled := (state.nextDue host croniter workspace ref).2
    filled.entries = state.entries ∧ filled.requests = state.requests ∧
      Filled filled.entries filled.nextRun ∧
      filled.nextDue host croniter workspace ref =
        state.nextDue host croniter workspace ref := by
  obtain ⟨-, hfilled, hsame⟩ := @foldl_considerEntry host croniter workspace
    state.requests ref state.entries none state.nextRun
  refine ⟨rfl, rfl, hfilled, ?_⟩
  simp only [ScheduleState.nextDue]
  rw [hsame]

theorem fireLoop_filled (fuel : ℕ) (state : ScheduleState) :
    fireLoop host croniter workspace ref fuel
        (state.nextDue host croniter workspace ref).2 =
      fireLoop host croniter workspace ref fuel state := by
  cases fuel with
  | zero => rfl
  | succ fuel => rw [fireLoop, fireLoop, (nextDue_filled state ref).2.2.2]

theorem fireLoop_succ (fuel : ℕ) (h : Filled state.entries state.nextRun) :
    (fireLoop host croniter workspace ref (fuel + 1) state = some ([], state) ∧
        ∀ run, ¬ Due state ref run) ∨
      ∃ run, Due state ref run ∧
        fireLoop host croniter workspace ref (fuel + 1) state =
          (fireLoop host croniter workspace ref fuel
            (state.markFired host croniter workspace run.2 ref)).map
              fun fired => (run :: fired.1, fired.2) := by
  obtain ⟨hsame, hnone, hsome⟩ := @foldl_considerEntry_filled host croniter workspace
    state.requests state.entries state.nextRun ref h
  rw [fireLoop, ScheduleState.nextDue]
  generalize state.entries.foldl (considerEntry host croniter workspace state.requests ref)
    (none, state.nextRun) = loop at hsame hnone hsome
  obtain ⟨soonest, nextRun⟩ := loop
  obtain rfl : nextRun = state.nextRun := hsame
  cases soonest with
  | none =>
      refine Or.inl ⟨rfl, fun run hrun => ?_⟩
      have hmem := hrun.first.mem
      rw [hnone rfl] at hmem
      cases hmem
  | some run =>
      obtain ⟨hfirst, hstored, hleast⟩ := hsome run rfl
      dsimp only
      split_ifs with hlater
      · refine Or.inl ⟨rfl, fun other hother => ?_⟩
        exact absurd ((hleast _ hother.first.mem _ hother.stored).trans hother.due)
          (not_le.mpr hlater)
      · exact Or.inr ⟨run, ⟨hfirst, hstored, not_lt.mp hlater⟩, rfl⟩

theorem filled_markFired (h : Filled state.entries state.nextRun) (entry : ScheduleEntry) :
    Filled (state.markFired host croniter workspace entry ref).entries
      (state.markFired host croniter workspace entry ref).nextRun := by
  intro other hother
  by_cases hjob : other.jobId = entry.jobId
  · refine ⟨nextAfterFiring host croniter workspace state.requests entry ref, ?_⟩
    rw [hjob]
    exact Dict.get?_set_self _ _ _
  · obtain ⟨due, hdue⟩ := h other hother
    exact ⟨due, (Dict.get?_set_of_ne _ _ hjob).trans hdue⟩

/-- After a firing the runs of other jobs are due as before, and that of the job is due if
its next run is not past the time. -/
theorem due_markFired_iff {run run' : ℤ × ScheduleEntry} (h : Due state ref run) :
    Due (state.markFired host croniter workspace run.2 ref) ref run' ↔
      Due state ref run' ∧ run'.2.jobId ≠ run.2.jobId ∨
        run'.2 = run.2 ∧ run'.1 ≤ ref ∧
          run'.1 = nextAfterFiring host croniter workspace state.requests run.2 ref := by
  constructor
  · rintro ⟨hfirst, hstored, hdue⟩
    by_cases hjob : run'.2.jobId = run.2.jobId
    · refine Or.inr ⟨h.first.eq hfirst hjob, hdue, ?_⟩
      rw [hjob] at hstored
      exact (Option.some.inj ((Dict.get?_set_self _ _ _).symm.trans hstored)).symm
    · exact Or.inl ⟨⟨hfirst, (Dict.get?_set_of_ne _ _ hjob).symm.trans hstored, hdue⟩, hjob⟩
  · rintro (⟨⟨hfirst, hstored, hdue⟩, hjob⟩ | ⟨hentry, hdue, hnext⟩)
    · exact ⟨hfirst, (Dict.get?_set_of_ne _ _ hjob).trans hstored, hdue⟩
    · refine ⟨hentry ▸ h.first, ?_, hdue⟩
      rw [hentry, hnext]
      exact Dict.get?_set_self _ _ _

/-- In a run of the loop that ends, the runs that are due are fired, every job once, and
every one of them is followed by a run past the time. -/
theorem fireLoop_spec {fuel : ℕ} {runs : List (ℤ × ScheduleEntry)} {final : ScheduleState}
    (h : Filled state.entries state.nextRun)
    (hloop : fireLoop host croniter workspace ref fuel state = some (runs, final)) :
    (runs.map fun run => run.2.jobId).Nodup ∧ (∀ run, run ∈ runs ↔ Due state ref run) ∧
      ∀ run, Due state ref run →
        ref < nextAfterFiring host croniter workspace state.requests run.2 ref := by
  induction fuel generalizing state runs with
  | zero => cases hloop
  | succ fuel ih =>
      rcases fireLoop_succ fuel h with ⟨hend, hnone⟩ | ⟨run, hrun, hnext⟩
      · rw [hend] at hloop
        cases hloop
        exact ⟨List.nodup_nil, fun run => iff_of_false nofun (hnone run),
          fun run hrun => absurd hrun (hnone run)⟩
      · rw [hnext, Option.map_eq_some_iff] at hloop
        obtain ⟨⟨rest, final'⟩, hrest, heq⟩ := hloop
        cases heq
        obtain ⟨hnodup, hmem, hpast⟩ := ih (filled_markFired h run.2) hrest
        have hadvances :
            ref < nextAfterFiring host croniter workspace state.requests run.2 ref := by
          by_contra hstuck
          have hagain := hpast
            (nextAfterFiring host croniter workspace state.requests run.2 ref, run.2)
            ((due_markFired_iff hrun).mpr (Or.inr ⟨rfl, not_lt.mp hstuck, rfl⟩))
          rw [ScheduleState.markFired, nextAfterFiring_clear] at hagain
          exact hstuck hagain
        have hrest_iff (run' : ℤ × ScheduleEntry) :
            run' ∈ rest ↔ Due state ref run' ∧ run'.2.jobId ≠ run.2.jobId := by
          rw [hmem, due_markFired_iff hrun, or_iff_left]
          rintro ⟨-, hdue, hnext⟩
          exact absurd (hnext ▸ hdue) (not_le.mpr hadvances)
        refine ⟨List.nodup_cons.mpr ⟨fun hin => ?_, hnodup⟩, fun run' => ?_,
          fun run' hrun' => ?_⟩
        · obtain ⟨run', hin, hjob⟩ := List.mem_map.mp hin
          exact ((hrest_iff run').mp hin).2 hjob
        · rw [List.mem_cons, hrest_iff]
          constructor
          · rintro (rfl | ⟨hdue, -⟩)
            · exact hrun
            · exact hdue
          · intro hrun'
            by_cases hjob : run'.2.jobId = run.2.jobId
            · have hentry := hrun.first.eq hrun'.first hjob
              have htime := hrun'.stored
              rw [hentry, hrun.stored] at htime
              exact Or.inl (Prod.ext (Option.some.inj htime).symm hentry)
            · exact Or.inr ⟨hrun', hjob⟩
        · by_cases hjob : run'.2.jobId = run.2.jobId
          · rwa [hrun.first.eq hrun'.first hjob]
          · have hlater := hpast run' ((due_markFired_iff hrun).mpr (Or.inl ⟨hrun', hjob⟩))
            rwa [ScheduleState.markFired, nextAfterFiring_clear] at hlater

/-- If every run that is due is followed by one past the time, the loop ends after as many
iterations as jobs are due. -/
theorem exists_fireLoop (jobs : List String) (h : Filled state.entries state.nextRun)
    (hjobs : ∀ run, Due state ref run → run.2.jobId ∈ jobs)
    (hpast : ∀ run, Due state ref run →
      ref < nextAfterFiring host croniter workspace state.requests run.2 ref) :
    ∃ out, fireLoop host croniter workspace ref (jobs.length + 1) state = some out := by
  induction hn : jobs.length generalizing jobs state with
  | zero =>
      rcases fireLoop_succ 0 h with ⟨hend, -⟩ | ⟨run, hrun, -⟩
      · exact ⟨_, hend⟩
      · have hin := hjobs run hrun
        rw [List.length_eq_zero_iff.mp hn] at hin
        cases hin
  | succ n ih =>
      rcases fireLoop_succ (n + 1) h with ⟨hend, -⟩ | ⟨run, hrun, hnext⟩
      · exact ⟨_, hend⟩
      · have hlater {run' : ℤ × ScheduleEntry}
            (hrun' : Due (state.markFired host croniter workspace run.2 ref) ref run') :
            Due state ref run' ∧ run'.2.jobId ≠ run.2.jobId := by
          refine ((due_markFired_iff hrun).mp hrun').resolve_right ?_
          rintro ⟨-, hdue, hnext⟩
          exact absurd (hnext ▸ hdue) (not_le.mpr (hpast run hrun))
        obtain ⟨out, hout⟩ := ih (jobs.erase run.2.jobId) (filled_markFired h run.2)
          (fun run' hrun' => (List.mem_erase_of_ne (hlater hrun').2).mpr
            (hjobs run' (hlater hrun').1))
          (fun run' hrun' => by
            rw [ScheduleState.markFired, nextAfterFiring_clear]
            exact hpast run' (hlater hrun').1)
          (by rw [List.length_erase_of_mem (hjobs run hrun), hn, Nat.add_sub_cancel])
        exact ⟨_, by rw [hnext, hout, Option.map_some]⟩

theorem mem_dueRuns_iff {run : ℤ × ScheduleEntry} :
    run ∈ dueRuns host croniter workspace state ref ↔
      run.2 ∈ state.entries ∧
        (state.nextDue host croniter workspace ref).2.nextRun.get? run.2.jobId =
          some run.1 ∧ run.1 ≤ ref := by
  obtain ⟨due, entry⟩ := run
  simp only [dueRuns, List.mem_filterMap, Option.map_eq_some_iff,
    Option.filter_eq_some_iff, decide_eq_true_iff, Prod.mk.injEq]
  constructor
  · rintro ⟨entry, hmem, due, hdue, rfl, rfl⟩
    exact ⟨hmem, hdue⟩
  · rintro ⟨hmem, hdue⟩
    exact ⟨entry, hmem, due, hdue, rfl, rfl⟩

theorem mem_dueRuns_iff_due
    (h : ((dueRuns host croniter workspace state ref).map fun run => run.2.jobId).Nodup)
    {run : ℤ × ScheduleEntry} :
    run ∈ dueRuns host croniter workspace state ref ↔
      Due (state.nextDue host croniter workspace ref).2 ref run := by
  rw [mem_dueRuns_iff]
  constructor
  · rintro ⟨hmem, hstored, hdue⟩
    obtain ⟨first, hfirst, hjob⟩ := exists_first hmem
    have hstored' : (state.nextDue host croniter workspace ref).2.nextRun.get?
        first.jobId = some run.1 := hjob ▸ hstored
    have hin : (run.1, first) ∈ dueRuns host croniter workspace state ref :=
      mem_dueRuns_iff.mpr ⟨hfirst.mem, hstored', hdue⟩
    have hsame : (run.1, first) = run :=
      List.inj_on_of_nodup_map h hin (mem_dueRuns_iff.mpr ⟨hmem, hstored, hdue⟩) hjob
    exact ⟨hsame ▸ hfirst, hstored, hdue⟩
  · rintro ⟨hfirst, hstored, hdue⟩
    exact ⟨hfirst.mem, hstored, hdue⟩

/-- Every run that is due is fired once, exactly if no two of them are of one job and what
decides the next run of each lies past the time. -/
theorem firesEachDueRun_iff
    (host : Host) (croniter : Croniter) (workspace : Workspace)
    (tenantId actorId : String) (state : ScheduleState) (ref : ℤ) :
    FiresEachDueRun host croniter workspace tenantId actorId state ref ↔
      ((dueRuns host croniter workspace state ref).map fun run => run.2.jobId).Nodup ∧
        ∀ run ∈ dueRuns host croniter workspace state ref,
          Advances host workspace state.requests run.2 ref := by
  obtain ⟨hentries, hrequests, hfilled, -⟩ := @nextDue_filled host croniter workspace
    state ref
  constructor
  · rintro ⟨fuel, events, final, hfired, hperm⟩
    obtain ⟨⟨runs, final⟩, hloop, hout⟩ := Option.map_eq_some_iff.mp hfired
    simp only [Prod.mk.injEq] at hout
    obtain ⟨-, rfl, -⟩ := hout
    rw [← fireLoop_filled] at hloop
    obtain ⟨hnodup, -, hpast⟩ := fireLoop_spec hfilled hloop
    have hjobs : ((dueRuns host croniter workspace state ref).map
        fun run => run.2.jobId).Nodup := by
      have hids := hperm.map fun event => PyVal.item? event.payload "job_id"
      rw [List.map_map, List.map_map] at hids
      have hinjective : Function.Injective fun id : String => some (PyVal.str id) :=
        fun _ _ h => PyVal.str.inj (Option.some.inj h)
      have hnodup' := hnodup.map hinjective
      rw [List.map_map] at hnodup'
      have hdue := hids.nodup_iff.mp hnodup'
      exact List.Nodup.of_map (fun id : String => some (PyVal.str id))
        (by rwa [List.map_map])
    refine ⟨hjobs, fun run hrun => ?_⟩
    rw [← lt_nextAfterFiring_iff, ← hrequests]
    exact hpast run ((mem_dueRuns_iff_due hjobs).mp hrun)
  · rintro ⟨hjobs, hadvances⟩
    have hpast : ∀ run, Due (state.nextDue host croniter workspace ref).2 ref run →
        ref < nextAfterFiring host croniter workspace
          (state.nextDue host croniter workspace ref).2.requests run.2 ref := by
      intro run hrun
      rw [hrequests, lt_nextAfterFiring_iff]
      exact hadvances run ((mem_dueRuns_iff_due hjobs).mpr hrun)
    obtain ⟨⟨runs, final⟩, hloop⟩ := exists_fireLoop (state.entries.map ScheduleEntry.jobId)
      hfilled (fun run hrun => List.mem_map_of_mem (hentries ▸ hrun.first.mem)) hpast
    obtain ⟨hnodup, hmem, -⟩ := fireLoop_spec hfilled hloop
    have hperm : runs.Perm (dueRuns host croniter workspace state ref) := by
      rw [List.perm_ext_iff_of_nodup hnodup.of_map hjobs.of_map]
      exact fun run => (hmem run).trans (mem_dueRuns_iff_due hjobs).symm
    rw [fireLoop_filled] at hloop
    exact ⟨_, _, final, by rw [fireDueEvents, hloop, Option.map_some, hperm.length_eq],
      hperm.map _⟩

end Runs

/-! ## An interval of zero minutes -/

def zeroInterval : ScheduleEntry := ⟨"job-1", .intervalMinutes 0, []⟩

def bareWorkspace : Workspace where
  rooted := false
  operationalAgentId _ := none
  agencyControl _ := .missing
  outboundBudget := none
  undeletable _ := false

def everyMinute : Croniter where
  getNext _ after := after + 60000000
  lt_getNext _ after := lt_add_of_pos_right after (by decide)

/-- The entry is due whenever it is looked at, and `fire_due_events` does not return. -/
theorem zeroInterval_fires_forever :
    dueRuns referenceHost everyMinute bareWorkspace
        ⟨[zeroInterval], .empty, fun _ => .missing⟩ 0 = [(0, zeroInterval)] ∧
      ¬ FiresEachDueRun referenceHost everyMinute bareWorkspace "default" "timer-source"
        ⟨[zeroInterval], .empty, fun _ => .missing⟩ 0 := by
  have hzero : timedeltaMinutes 0 = 0 := by decide +kernel
  have hnext : computeNext referenceHost everyMinute bareWorkspace (fun _ => .missing)
      zeroInterval 0 = 0 :=
    (zero_add (timedeltaMinutes 0)).trans hzero
  have hdue : dueRuns referenceHost everyMinute bareWorkspace
      ⟨[zeroInterval], .empty, fun _ => .missing⟩ 0 = [(0, zeroInterval)] := by
    have hempty : (Dict.empty : Dict String ℤ).get? zeroInterval.jobId = none := rfl
    simp only [dueRuns, ScheduleState.nextDue, List.foldl_cons, List.foldl_nil,
      considerEntry_of_none _ hempty, considerEntry_of_some _ (Dict.get?_set_self _ _ _),
      hnext]
    rfl
  refine ⟨hdue, ?_⟩
  rintro ⟨fuel, events, final, hfired, -⟩
  obtain ⟨⟨runs, final⟩, hloop, -⟩ := Option.map_eq_some_iff.mp hfired
  rw [← fireLoop_filled] at hloop
  obtain ⟨-, -, hpast⟩ := fireLoop_spec (nextDue_filled _ _).2.2.1 hloop
  have hlater := hpast (0, zeroInterval)
    ((mem_dueRuns_iff_due (by rw [hdue]; decide)).mp (by rw [hdue]; exact List.mem_cons_self))
  exact lt_irrefl 0 (hlater.trans_eq hnext)

end Hydrogenuine.Realtime
