import Mathlib.Logic.Function.Basic
import Hydrogenuine.OperatorQueue.Policy
import Hydrogenuine.Support.Stateful

/-!
# The operator queue runtime

Embedding of `operator_action_queue/store.py`, `receipts.py`, `decisions.py` and
`queue.py`.  A runtime works on its own copy of the queue, whose request objects
lie in a heap, and on the stored file and the receipts.  An exception keeps what was
changed before it.
-/

namespace Hydrogenuine.OperatorQueue

open Support Hydrogenuine.Core

/-! ## State -/

/-- The exceptions of the queue, with their texts. -/
inductive QueueError where
  | queueCorrupt (message : String)
  | invalidTransition (message : String)
  | stopPanicActive (message : String)
  | selfApproval (message : String)
  | notExecutable (message : String)
  | secretLeak (message : String)
  | itemNotFound (queueItemId : String)
  | python (error : PyError)
deriving DecidableEq

/-- `OperatorQueueReceipt`. -/
structure Receipt where
  receiptId : String
  queueItemId : String
  actionId : PyVal
  actionType : String
  decisionType : DecisionType
  operatorRef : PyVal
  reason : String
  createdAt : String
  previousStatus : String
  newStatus : String
  queueHashAtTransition : String

/-- `OperatorQueueDecision`. -/
structure Decision where
  decisionId : String
  queueItemId : String
  decisionType : DecisionType
  operatorRef : PyVal
  reason : String
  createdAt : String
  previousStatus : String
  newStatus : String

/-- The queue file. -/
inductive StoredFile where
  | absent
  | unreadable
  | json (data : PyVal)

/-- What the operations of one runtime read and change. -/
structure Session where
  /-- The request objects by number. -/
  requests : ℕ → ActionRequest
  /-- The number of the next request object. -/
  next : ℕ
  items : List QueueItem
  stopPanic : StopPanicState
  file : StoredFile
  receipts : List Receipt

/-- The interpreter, and the directory of the store. -/
structure QueueEnv where
  host : Host
  storeRoot : String

/-- What a call draws and reads off the clock. -/
structure Draws where
  /-- `new_queue_item_id()` of `enqueue`. -/
  queueItemId : String
  /-- `new_queue_item_id()` of a decision. -/
  decisionId : String
  decidedAt : String
  receiptId : String
  receiptAt : String

abbrev QueueM := EStateM QueueError Session

namespace Session

def requestOf (s : Session) (item : QueueItem) : ActionRequest :=
  s.requests item.request

def setRequest (s : Session) (ref : ℕ) (r : ActionRequest) : Session :=
  { s with requests := Function.update s.requests ref r }

def findItem (s : Session) (queueItemId : String) : Except QueueError QueueItem :=
  match s.items.find? fun item => item.queueItemId == queueItemId with
  | some item => .ok item
  | none => .error (.itemNotFound queueItemId)

section Fields

variable (s : Session) (ref : ℕ) (r : ActionRequest)

@[simp] theorem setRequest_items : (s.setRequest ref r).items = s.items := rfl

@[simp] theorem setRequest_next : (s.setRequest ref r).next = s.next := rfl

@[simp] theorem setRequest_file : (s.setRequest ref r).file = s.file := rfl

@[simp] theorem setRequest_receipts :
    (s.setRequest ref r).receipts = s.receipts := rfl

@[simp] theorem setRequest_stopPanic :
    (s.setRequest ref r).stopPanic = s.stopPanic := rfl

@[simp] theorem setRequest_requests :
    (s.setRequest ref r).requests = Function.update s.requests ref r := rfl

end Fields

end Session

/-! ## Store -/

section Store

variable (env : QueueEnv)

/-- `OperatorActionQueue.to_payload`, with the root of the store. -/
def Session.queuePayload (s : Session) : Items :=
  [("schema", .str "operator-action-queue"),
    ("version", .str "operator-action-queue/1"),
    ("store_root", .str env.storeRoot),
    ("items", .list (s.items.map fun item =>
      .dict (item.toPayload env.host (s.requestOf item))))] ++ frozen

def refuseForbidden (opening : String) (payload : Items) : Except QueueError Unit :=
  match scanForbidden "" (.dict payload) with
  | [] => .ok ()
  | forbidden => .error (.secretLeak
      (opening ++ env.host.str (.ofStrings (forbidden.take 5))))

def validatePayload (payload : Items) : Except QueueError Unit :=
  refuseForbidden env "forbidden fields: " payload

def readItems : StoredFile → Except QueueError (List ReadItem)
  | .absent => .ok []
  | .unreadable => .error (.queueCorrupt "corrupt queue file")
  | .json (.dict data) =>
      match PyVal.item? data "items" with
      | some (.list values) =>
          match values.mapM ReadItem.fromPayload with
          | .ok items => .ok items
          | .error e => .error (.python e)
      | some _ => .error (.python (.attributeError "get"))
      | none => .error (.queueCorrupt "invalid queue schema")
  | .json _ => .error (.queueCorrupt "invalid queue schema")

def Session.adopt (s : Session) (read : List ReadItem) : Session :=
  { s with
    requests := fun n =>
      if n < s.next then s.requests n
      else (read[n - s.next]?.map ReadItem.request).getD (s.requests n)
    next := s.next + read.length
    items := read.zipIdx.map fun (item, k) =>
      ⟨item.queueItemId, s.next + k, item.previousItemRef⟩ }

/-- `OperatorQueueStore.load`, into the queue of the runtime. -/
def load : QueueM Unit := do
  let s ← get
  let read ← raising (readItems s.file)
  let loaded := s.adopt read
  raising (validatePayload env (loaded.queuePayload env))
  set loaded

def save : QueueM Unit := do
  let s ← get
  raising (validatePayload env (s.queuePayload env))
  modify fun s => { s with file := .json (.dict (s.queuePayload env)) }

def Receipt.toPayload (receipt : Receipt) : Items :=
  let body : Items :=
    [("schema", .str "operator-queue-receipt"),
      ("version", .str "operator-action-queue/1"),
      ("receipt_id", .str receipt.receiptId),
      ("queue_item_id", .str receipt.queueItemId),
      ("action_id", receipt.actionId), ("action_type", .str receipt.actionType),
      ("decision_type", .str receipt.decisionType.text),
      ("operator_ref", receipt.operatorRef),
      ("reason", .str (slice receipt.reason 0 1000)),
      ("created_at", .str receipt.createdAt),
      ("previous_status", .str receipt.previousStatus),
      ("new_status", .str receipt.newStatus),
      ("queue_hash_at_transition", .str receipt.queueHashAtTransition),
      ("previous_receipt_ref", .none)] ++ frozen
  body ++ [("receipt_hash", .str (actionHash env.host body))]

def transitionReceipt
    (item : QueueItem) (r : ActionRequest) (decisionType : DecisionType)
    (operatorRef : PyVal) (reason previousStatus newStatus : String)
    (draws : Draws) : Receipt where
  receiptId := draws.receiptId
  queueItemId := item.queueItemId
  actionId := r.actionId
  actionType := r.actionType.text
  decisionType := decisionType
  operatorRef := operatorRef
  reason := reason
  createdAt := draws.receiptAt
  previousStatus := previousStatus
  newStatus := newStatus
  queueHashAtTransition := queueHash env.host (item.body env.host r)

def writeTransitionReceipt
    (item : QueueItem) (decisionType : DecisionType) (operatorRef : PyVal)
    (reason previousStatus newStatus : String) (draws : Draws) :
    QueueM Receipt := do
  let s ← get
  let receipt := transitionReceipt env item (s.requestOf item) decisionType
    operatorRef reason previousStatus newStatus draws
  raising (validatePayload env (receipt.toPayload env))
  modify fun s => { s with receipts := s.receipts ++ [receipt] }
  return receipt

/-! ## Decisions -/

/-- What `_transition` is asked to do. -/
structure Change where
  queueItemId : String
  newStatus : ActionStatus
  decisionType : DecisionType
  operatorRef : PyVal
  reason : PyVal
  blockOnStopForApproval : Bool := false

namespace Change

/-- The checks of `_transition`. -/
def check (change : Change) (s : Session) : Except QueueError QueueItem := do
  let item ← s.findItem change.queueItemId
  let status := (s.requestOf item).status
  if change.blockOnStopForApproval && s.stopPanic.blocksApproval then
    throw (.stopPanicActive "stop_or_panic_active")
  if !mayTransition status change.newStatus then
    throw (.invalidTransition (status.text ++ " -> " ++ change.newStatus.text))
  return item

def recordsOperator (change : Change) : Bool :=
  change.operatorRef.truthy &&
    [DecisionType.approveItem, .denyItem, .cancelItem].contains change.decisionType

def apply (change : Change) (draws : Draws) (r : ActionRequest) : ActionRequest :=
  { r with
    status := change.newStatus
    operatorDecisionRef :=
      if change.recordsOperator then
        some
          { decisionId := .str draws.decisionId
            operatorRef := change.operatorRef
            decisionKind := .str change.decisionType.text
            createdAt := .str draws.decidedAt }
      else r.operatorDecisionRef }

end Change

def transition (change : Change) (draws : Draws) : QueueM (QueueItem × Decision) := do
  let s ← get
  let item ← raising (change.check s)
  let previousStatus := (s.requestOf item).status.text
  set (s.setRequest item.request (change.apply draws (s.requestOf item)))
  let reason ← raising ((scrubText change.reason).mapError .python)
  let receipt ← writeTransitionReceipt env item change.decisionType
    change.operatorRef reason previousStatus change.newStatus.text draws
  return (item,
    { decisionId := receipt.receiptId
      queueItemId := item.queueItemId
      decisionType := change.decisionType
      operatorRef := change.operatorRef
      reason
      createdAt := receipt.createdAt
      previousStatus
      newStatus := change.newStatus.text })

/-- The checks of `approve_item`. -/
def checkApproval (s : Session) (queueItemId : String) (operatorRef : PyVal) :
    Except QueueError Unit := do
  if operatorRef.pyEq (.str "agent0") then
    throw (.selfApproval "agent0 cannot approve queue items")
  let item ← s.findItem queueItemId
  match itemMayBeApproved (s.requestOf item) s.stopPanic.blocksApproval with
  | (true, _) => return ()
  | (false, message) =>
      if message = "stop_or_panic_active" then throw (.stopPanicActive message)
      else throw (.invalidTransition message)

/-- The checks of `mark_executed`. -/
def checkExecution (s : Session) (queueItemId : String) (dryRun : Bool) :
    Except QueueError Unit := do
  let item ← s.findItem queueItemId
  match itemMayMarkExecuted (s.requestOf item) dryRun with
  | (false, message) => throw (.notExecutable message)
  | (true, _) =>
      match itemExecutionEligible (s.requestOf item) s.stopPanic.blocksExecution
        dryRun with
      | (false, message) => throw (.notExecutable message)
      | (true, _) => return ()

section Decisions

variable (queueItemId : String) (operatorRef reason : PyVal) (draws : Draws)

def approveItem : QueueM (QueueItem × Decision) := do
  let s ← get
  raising (checkApproval s queueItemId operatorRef)
  transition env
    ⟨queueItemId, .approved, .approveItem, operatorRef, reason, true⟩ draws

def denyItem : QueueM (QueueItem × Decision) :=
  transition env ⟨queueItemId, .denied, .denyItem, operatorRef, reason, false⟩ draws

def expireItem : QueueM (QueueItem × Decision) :=
  transition env ⟨queueItemId, .expired, .expireItem, .none, reason, false⟩ draws

def cancelItem : QueueM (QueueItem × Decision) :=
  transition env
    ⟨queueItemId, .cancelled, .cancelItem, operatorRef, reason, false⟩ draws

def blockItem : QueueM (QueueItem × Decision) :=
  transition env ⟨queueItemId, .blocked, .blockItem, .none, reason, false⟩ draws

def markFailed : QueueM (QueueItem × Decision) :=
  transition env ⟨queueItemId, .failed, .markFailed, .none, reason, false⟩ draws

def markExecuted (executionReceiptRef : PyVal) (dryRun : Bool) :
    QueueM (QueueItem × Decision) := do
  let s ← get
  raising (checkExecution s queueItemId dryRun)
  let (item, decision) ← transition env
    ⟨queueItemId, .executed, .markExecuted, .none,
      .str ("marked_executed:" ++ env.host.str executionReceiptRef), false⟩ draws
  modify fun s =>
    s.setRequest item.request { s.requestOf item with executionReceiptRef }
  return (item, decision)

end Decisions

/-! ## Operations of the runtime -/

/-- The request as `enqueue` leaves it. -/
def ActionRequest.normalized (r : ActionRequest) : ActionRequest :=
  { r with
    humanSummary := scrubPreview r.humanSummary
    sanitizedPreview := scrubPreview r.sanitizedPreview
    status :=
      if r.status != .queued && r.status != .dryRunOnly then .queued else r.status }

/-- `enqueue`, of a request object that the caller goes on to hold. -/
def enqueue (ref : ℕ) (draws : Draws) : QueueM QueueItem := do
  modify fun s => s.setRequest ref (s.requests ref).normalized
  let s ← get
  let item : QueueItem := ⟨draws.queueItemId, ref, .none⟩
  raising (refuseForbidden env "" (item.toPayload env.host (s.requestOf item)))
  set { s with items := s.items ++ [item] }
  let _ ← writeTransitionReceipt env item .enqueueItem .none "enqueued" ""
    (s.requestOf item).status.text draws
  save env
  return item

def saving (decide : QueueM (QueueItem × Decision)) : QueueM Decision := do
  let (_, decision) ← decide
  save env
  return decision

/-- A call of a method that changes the queue. -/
inductive Operation where
  | enqueue (ref : ℕ)
  | approveItem (queueItemId : String) (operatorRef reason : PyVal)
  | denyItem (queueItemId : String) (operatorRef reason : PyVal)
  | expireItem (queueItemId : String) (reason : PyVal)
  | cancelItem (queueItemId : String) (operatorRef reason : PyVal)
  | blockItem (queueItemId : String) (reason : PyVal)
  | markExecuted (queueItemId : String) (executionReceiptRef : PyVal)
      (dryRun : Bool)
  | markFailed (queueItemId : String) (reason : PyVal)

def Operation.made (next : ℕ) : Operation → Bool
  | .enqueue ref => ref < next
  | _ => true

/-- What a call returns. -/
inductive Returned where
  | item (item : QueueItem)
  | decision (decision : Decision)

def Operation.run (draws : Draws) : Operation → QueueM Returned
  | .enqueue ref => .item <$> OperatorQueue.enqueue env ref draws
  | .approveItem id operatorRef reason =>
      .decision <$> saving env (OperatorQueue.approveItem env id operatorRef reason draws)
  | .denyItem id operatorRef reason =>
      .decision <$> saving env (OperatorQueue.denyItem env id operatorRef reason draws)
  | .expireItem id reason =>
      .decision <$> saving env (OperatorQueue.expireItem env id reason draws)
  | .cancelItem id operatorRef reason =>
      .decision <$> saving env (OperatorQueue.cancelItem env id operatorRef reason draws)
  | .blockItem id reason =>
      .decision <$> saving env (OperatorQueue.blockItem env id reason draws)
  | .markExecuted id ref dryRun =>
      .decision <$> saving env (OperatorQueue.markExecuted env id draws ref dryRun)
  | .markFailed id reason =>
      .decision <$> saving env (OperatorQueue.markFailed env id reason draws)

/-- `reload`, where the control files say what they say. -/
def reload (control : Except PyError StopPanicState) : QueueM Unit := do
  load env
  let stopPanic ← raising (control.mapError .python)
  modify fun s => { s with stopPanic }

end Store

/-! ## Reports -/

def Session.itemExecutionEligible (s : Session) (queueItemId : String) :
    Bool × String :=
  match s.items.find? fun item => item.queueItemId == queueItemId with
  | none => (false, "not_found")
  | some item => OperatorQueue.itemExecutionEligible (s.requestOf item)
      s.stopPanic.blocksExecution false

def Session.approvedEligibleItems (s : Session) : List QueueItem :=
  s.items.filter fun item =>
    (s.requestOf item).status == .approved &&
      (OperatorQueue.itemExecutionEligible (s.requestOf item)
        s.stopPanic.blocksExecution false).1

end Hydrogenuine.OperatorQueue
