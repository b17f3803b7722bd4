import Hydrogenuine.OperatorQueue.Schema

/-!
# Policy of the operator queue

Embedding of `operator_action_queue/policy.py`, of the control state of
`stop_panic_policy.py`, and of the texts that decisions record.
-/

namespace Hydrogenuine.OperatorQueue

open Support Hydrogenuine.Core

/-! ## Transitions -/

open ActionStatus in
def terminalStatuses : List ActionStatus :=
  [denied, expired, cancelled, executed, failed, invalid, blocked]

open ActionStatus in
def allowedTransitions : ActionStatus → List ActionStatus
  | queued => [approved, denied, expired, cancelled, blocked, invalid]
  | approved => [executed, expired, cancelled, failed, blocked]
  | dryRunOnly => [executed]
  | _ => []

def mayTransition (current new : ActionStatus) : Bool :=
  current != new && !(terminalStatuses.contains current) &&
    (allowedTransitions current).contains new

theorem not_terminal_of_mayTransition
    {current new : ActionStatus} (h : mayTransition current new = true) :
    current ∉ terminalStatuses := by
  simp only [mayTransition, Bool.and_eq_true, Bool.not_eq_true'] at h
  rw [← List.contains_iff_mem, h.1.2]
  exact Bool.false_ne_true

/-! ## Approval and execution -/

open ActionType in
def phase3ForbiddenActionTypes : List ActionType :=
  [webFormSubmit, webLogin, webPurchase, webAccountChange, webUpload, emailSend,
    memoryMutation, sourcePatch, shellCommand, anchorPush, accountAction]

open ActionType in
def controlActionTypes : List ActionType := [stopSoak, panicStop, finalizeSoak]

/-- `is_action_type_executable_in_phase3`, without a payload. -/
def isActionTypeExecutableInPhase3 (type : ActionType) : Bool :=
  !(phase3ForbiddenActionTypes.contains type) && !(controlActionTypes.contains type)

def itemMayBeApproved (r : ActionRequest) (stopPanic : Bool) : Bool × String :=
  if stopPanic then (false, "stop_or_panic_active")
  else if r.status != .queued then (false, "cannot_approve_from_" ++ r.status.text)
  else if r.sourceAgent.pyEq (.str "agent0") &&
      (r.operatorDecisionRef.any fun ref => ref.operatorRef.pyEq (.str "agent0")) then
    (false, "self_approval_forbidden")
  else if phase3ForbiddenActionTypes.contains r.actionType then
    (false, "forbidden_action_type_in_phase3")
  else (true, "ok")

def itemExecutionEligible (r : ActionRequest) (stopPanic dryRun : Bool) :
    Bool × String :=
  if stopPanic then (false, "stop_or_panic_active")
  else if r.status = .dryRunOnly then
    if dryRun then (true, "dry_run_eligible") else (false, "dry_run_only_no_live")
  else if r.status != .approved then (false, "not_approved:" ++ r.status.text)
  else if !isActionTypeExecutableInPhase3 r.actionType then
    (false, "not_executable_in_phase3")
  else (true, "eligible")

def itemMayMarkExecuted (r : ActionRequest) (dryRun : Bool) : Bool × String :=
  if r.status = .executed then (false, "already_executed")
  else if r.status = .dryRunOnly then
    if dryRun then (true, "ok") else (false, "dry_run_receipt_required")
  else if r.status != .approved then (false, "cannot_execute_from_" ++ r.status.text)
  else (true, "ok")

theorem status_of_itemMayMarkExecuted
    {r : ActionRequest} (h : (itemMayMarkExecuted r false).1 = true) :
    r.status = .approved := by
  unfold itemMayMarkExecuted at h
  cases hstatus : r.status with
  | approved => rfl
  | _ => simp [hstatus] at h

structure StopPanicState where
  stopActive : Bool := false
  panicActive : Bool := false
  emergencyLock : Bool := false
  degradedMode : Bool := false

namespace StopPanicState

def blocksApproval (s : StopPanicState) : Bool :=
  s.stopActive || s.panicActive || s.emergencyLock

def blocksExecution (s : StopPanicState) : Bool := s.panicActive || s.emergencyLock

end StopPanicState

/-! ## Texts -/

/-- The rest of `s.replace(old, new)`, after `skip` more characters of a match. -/
def replaceFrom (old new : List Char) : ℕ → List Char → List Char
  | _, [] => []
  | skip + 1, _ :: rest => replaceFrom old new skip rest
  | 0, c :: rest =>
      if old.isPrefixOf (c :: rest) then
        new ++ replaceFrom old new (old.length - 1) rest
      else c :: replaceFrom old new 0 rest

/-- `s.replace(old, new)` for a text `old` that is not empty. -/
def replaceText (s old new : String) : String :=
  String.ofList (replaceFrom old.toList new.toList 0 s.toList)

/-- The markers of hidden reasoning that occur in a text, redacted. -/
def redact (markers : List String) (text : String) : String :=
  markers.foldl
    (fun out marker =>
      if isSubstring marker (lower out) then replaceText out marker "[redacted]"
      else out) text

/-- `_HIDDEN_MARKERS` of the queue. -/
def hiddenMarkers : List String :=
  ["chain_of_thought", "hidden_reasoning", "internal_scratch"]

def scrubPreview (text : String) : String := slice (redact hiddenMarkers text) 0 2000

/-- `_scrub_text`: a reason that is no text has no `lower`. -/
def scrubText : PyVal → Except PyError String
  | .str text => .ok (redact (hiddenMarkers ++ ["<think>"]) text)
  | _ => .error (.attributeError "lower")

end Hydrogenuine.OperatorQueue
