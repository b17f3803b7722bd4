import Mathlib.Algebra.Order.Ring.Rat
import Mathlib.Algebra.Order.Floor.Ring
import Mathlib.Data.Rat.Floor
import Hydrogenuine.Core.Host
import Hydrogenuine.Support.Dict

/-!
# The realtime schedule

Embedding of the schedule state of `hg_realtime/scheduler/schedule_config.py` and of the
ways in which the next run of an entry is found.  Times are instants in microseconds.

Of the files of a workspace only the cadence requests are removed while the timer fires;
the control files, the budget and the job registry are read as they are.
-/

namespace Hydrogenuine.Realtime

open Support Hydrogenuine.Core

/-! ## Entries -/

/-- `cron` or `interval_minutes`: an entry has exactly one of them. -/
inductive Cadence where
  | cron (expression : String)
  | intervalMinutes (minutes : ℚ)

structure ScheduleEntry where
  jobId : String
  cadence : Cadence
  inputs : List (String × PyVal)

/-- `croniter(expression, after).get_next(datetime)`. -/
structure Croniter where
  getNext : String → ℤ → ℤ
  lt_getNext : ∀ expression after, after < getNext expression after

def roundHalfEven (q : ℚ) : ℤ :=
  let rest := q - ⌊q⌋
  if rest < 1 / 2 then ⌊q⌋
  else if 1 / 2 < rest then ⌊q⌋ + 1
  else if ⌊q⌋ % 2 = 0 then ⌊q⌋
  else ⌊q⌋ + 1

/-- `timedelta(minutes=minutes)`. -/
def timedeltaMinutes (minutes : ℚ) : ℤ := roundHalfEven (minutes * 60000000)

/-- `timedelta(days=days)`. -/
def timedeltaDays (days : ℤ) : ℤ := days * 86400000000

def heldScheduleDelayDays : ℤ := 3650

/-! ## The workspace -/

/-- What reading a JSON file comes to. -/
inductive JsonFile where
  | missing
  | unreadable
  | read (payload : PyVal)

/-- What `build_agency_control_summary` says about the outbound budget. -/
structure OutboundBudget where
  exhausted : Bool
  nextResetAt : Option String

/-- The parts of a workspace that stay as they are; the files are those of an agent.  The
console that summarizes the budget of a task may not be installed. -/
structure Workspace where
  rooted : Bool
  operationalAgentId : String → Option String
  agencyControl : String → JsonFile
  outboundBudget : Option (String → OutboundBudget)
  undeletable : String → Bool

section Computing

variable (host : Host) (croniter : Croniter) (workspace : Workspace)

/-- `str((entry.inputs or {}).get("task_name") or "").strip()`. -/
def taskName (entry : ScheduleEntry) : String :=
  strip (host.strOr (PyVal.getItem entry.inputs "task_name") "")

def agentFor (entry : ScheduleEntry) : Option String :=
  if !workspace.rooted then none
  else if taskName host entry = "" then none
  else
    let agentId := strip ((workspace.operationalAgentId (taskName host entry)).getD "")
    if agentId = "" then none else some agentId

def agencyModeForEntry (entry : ScheduleEntry) : String :=
  match (agentFor host workspace entry).elim .missing workspace.agencyControl with
  | .missing => "normal"
  | .unreadable => "review_only"
  | .read (.dict payload) =>
      let mode := lower (strip (host.strOr (PyVal.getItem payload "mode") "normal"))
      if mode ∈ ["normal", "review_only", "held"] then mode else "review_only"
  | .read _ => "review_only"

/-- `datetime.fromisoformat(text.replace("Z", "+00:00"))`, in UTC if no offset is
given. -/
def parseInstant (text : String) : Option ℤ :=
  (host.fromisoformat (replaceZ text)).map Datetime.instant

def agencyBudgetResetDueForEntry (entry : ScheduleEntry) (after : ℤ) : Option ℤ :=
  if !workspace.rooted then none
  else
    match workspace.outboundBudget with
    | none => none
    | some budgetOf =>
        if taskName host entry = "" then none
        else
          let budget := budgetOf (taskName host entry)
          let rawReset := strip (budget.nextResetAt.getD "")
          if !budget.exhausted || rawReset = "" then none
          else (parseInstant host rawReset).map fun due => if after < due then due else after

def cadenceOverrideDue (requests : String → JsonFile) (entry : ScheduleEntry) (after : ℤ) :
    Option ℤ :=
  match (agentFor host workspace entry).elim .missing requests with
  | .read (.dict payload) =>
      let jobId := PyVal.getItem payload "job_id"
      let requestedJobId := strip
        (host.strOr (if jobId.truthy then jobId else PyVal.getItem payload "scheduler_job_id")
          "")
      let rawNotBefore := strip (host.strOr (PyVal.getItem payload "not_before") "")
      if requestedJobId ≠ "" ∧ requestedJobId ≠ entry.jobId then none
      else if rawNotBefore = "" then none
      else (parseInstant host rawNotBefore).map fun due => if due ≤ after then after else due
  | _ => none

def computeNext (requests : String → JsonFile) (entry : ScheduleEntry) (after : ℤ) : ℤ :=
  if agencyModeForEntry host workspace entry = "held" then
    after + timedeltaDays heldScheduleDelayDays
  else
    match agencyBudgetResetDueForEntry host workspace entry after with
    | some due => due
    | none =>
        match cadenceOverrideDue host workspace requests entry after with
        | some due => due
        | none =>
            match entry.cadence with
            | .cron expression => croniter.getNext expression after
            | .intervalMinutes minutes => after + timedeltaMinutes minutes

/-- `clear_cadence_override_for_entry`: what is left of the cadence requests. -/
def clearCadenceOverrideForEntry (requests : String → JsonFile) (entry : ScheduleEntry) :
    String → JsonFile :=
  match agentFor host workspace entry with
  | none => requests
  | some agentId =>
      fun other =>
        if other = agentId ∧ !workspace.undeletable agentId then .missing
        else requests other

def nextAfterFiring (requests : String → JsonFile) (entry : ScheduleEntry) (ref : ℤ) : ℤ :=
  computeNext host croniter workspace
    (clearCadenceOverrideForEntry host workspace requests entry) entry ref

variable {host croniter workspace}

theorem clear_of_undeletable (requests : String → JsonFile) (entry : ScheduleEntry)
    {agentId : String} (h : workspace.undeletable agentId = true) :
    clearCadenceOverrideForEntry host workspace requests entry agentId =
      requests agentId := by
  unfold clearCadenceOverrideForEntry
  cases agentFor host workspace entry with
  | none => rfl
  | some other =>
      refine if_neg ?_
      rintro ⟨rfl, hdeletable⟩
      rw [h] at hdeletable
      cases hdeletable

theorem clear_clear (requests : String → JsonFile) (other entry : ScheduleEntry) :
    (agentFor host workspace entry).elim .missing
        (clearCadenceOverrideForEntry host workspace
          (clearCadenceOverrideForEntry host workspace requests other) entry) =
      (agentFor host workspace entry).elim .missing
        (clearCadenceOverrideForEntry host workspace requests entry) := by
  cases hagent : agentFor host workspace entry with
  | none => rfl
  | some agentId =>
      rw [Option.elim_some, Option.elim_some]
      cases hundeletable : workspace.undeletable agentId with
      | true => rw [clear_of_undeletable _ _ hundeletable,
          clear_of_undeletable _ _ hundeletable, clear_of_undeletable _ _ hundeletable]
      | false => simp [clearCadenceOverrideForEntry, hagent, hundeletable]

theorem nextAfterFiring_clear (requests : String → JsonFile) (other entry : ScheduleEntry)
    (ref : ℤ) :
    nextAfterFiring host croniter workspace
        (clearCadenceOverrideForEntry host workspace requests other) entry ref =
      nextAfterFiring host croniter workspace requests entry ref := by
  simp only [nextAfterFiring, computeNext, cadenceOverrideDue, clear_clear]

variable (host croniter workspace)

/-- What decides the next run of an entry that has fired lies past the time: it is held,
or its budget is reset after the time, or the request that could not be deleted asks for a
time after it, or it has a cron expression or an interval that is not empty. -/
def Advances (requests : String → JsonFile) (entry : ScheduleEntry) (ref : ℤ) : Prop :=
  agencyModeForEntry host workspace entry = "held" ∨
    match agencyBudgetResetDueForEntry host workspace entry ref with
    | some reset => ref < reset
    | none =>
        match cadenceOverrideDue host workspace
            (clearCadenceOverrideForEntry host workspace requests entry) entry ref with
        | some requested => ref < requested
        | none =>
            match entry.cadence with
            | .cron _ => True
            | .intervalMinutes minutes => 0 < timedeltaMinutes minutes

variable {host croniter workspace}

theorem lt_nextAfterFiring_iff {requests : String → JsonFile} {entry : ScheduleEntry}
    {ref : ℤ} :
    ref < nextAfterFiring host croniter workspace requests entry ref ↔
      Advances host workspace requests entry ref := by
  unfold nextAfterFiring computeNext Advances
  split_ifs with hheld
  · exact iff_of_true (lt_add_of_pos_right ref (by decide)) (Or.inl hheld)
  · rw [or_iff_right hheld]
    cases agencyBudgetResetDueForEntry host workspace entry ref with
    | some reset => rfl
    | none =>
        cases cadenceOverrideDue host workspace
            (clearCadenceOverrideForEntry host workspace requests entry) entry ref with
        | some requested => rfl
        | none =>
            cases entry.cadence with
            | cron expression => exact iff_of_true (croniter.lt_getNext expression ref) trivial
            | intervalMinutes minutes => exact lt_add_iff_pos_right ref

end Computing

end Hydrogenuine.Realtime
