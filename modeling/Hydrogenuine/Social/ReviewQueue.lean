import Hydrogenuine.Core.Host
import Hydrogenuine.Support.Program

/-!
# The social review queue

Embedding of `social_capability/review_queue.py`, `review_policy.py` and
`review_schema.py`.  Every operation is a program over accesses to the files of a run
directory, so that operations can interleave between two accesses.  A publisher picks an
item, posts it, and marks it.

The receipts and the command log are written only, and are left out, as are the fields
of an item that no operation looks at.
-/

namespace Hydrogenuine.Social

open Support Hydrogenuine.Core

abbrev Items := List (String × PyVal)

/-! ## `review_schema.py` -/

/-- `SocialReviewStatus`. -/
inductive Status where
  | queued | approved | denied | published | publishedLegacyUnconfirmed | expired | invalid
deriving DecidableEq

def Status.value : Status → String
  | queued => "queued"
  | approved => "approved"
  | denied => "denied"
  | published => "published"
  | publishedLegacyUnconfirmed => "published_legacy_unconfirmed"
  | expired => "expired"
  | invalid => "invalid"

/-- `SocialReviewItem`. -/
structure Item where
  queueItemId : String
  draftId : String
  sourceTaskRef : String := ""
  trustBoundaryVerdict : String := "UNKNOWN"
  opbVerdict : String := "UNKNOWN"
  publishEligible : Bool := false
  status : Status := .queued
  approvalReceiptRef : Option String := none
  denialReceiptRef : Option String := none
  publishReceiptRef : Option String := none
  operatorRef : Option String := none
  approvalHandle : Option String := none
deriving DecidableEq

/-- `SocialReviewQueue`. -/
structure Queue where
  items : List Item := []
  livePublishPaused : Bool := false
  approvedOnlyMode : Bool := false
  autoApproveQueuedItems : Bool := false
deriving DecidableEq

/-! ## `review_policy.py` -/

def itemMayPublish (item : Item) : Bool × String :=
  if item.status ≠ .approved then
    (false, "status=" ++ item.status.value ++ " not approved")
  else if !item.publishEligible then (false, "publish_eligible=false")
  else if orText item.approvalHandle "" = "" then (false, "missing approval handle")
  else (true, "ok")

def itemMayApprove (item : Item) : Bool × String :=
  if item.status ≠ .queued then (false, "cannot approve status=" ++ item.status.value)
  else if !item.publishEligible then (false, "not publish eligible")
  else (true, "ok")

def itemMayDeny (item : Item) : Bool × String :=
  if item.status ≠ .queued then (false, "cannot deny status=" ++ item.status.value)
  else (true, "ok")

/-! ## Accesses -/

/-- An access to the files of a run directory, to the random identifiers of the process
or to the outside. -/
inductive Access where
  | loadControl
  | saveControl (control : Items)
  | loadQueue
  | writeQueue (queue : Queue)
  /-- The digits of a new identifier. -/
  | draw
  /-- The external publish of an item, and whether the post goes out. -/
  | publish (queueItemId : String) (accepted : Bool)

def Answer : Access → Type
  | .loadControl => Items
  | .saveControl _ => Unit
  | .loadQueue => Queue
  | .writeQueue _ => Unit
  | .draw => String
  | .publish _ _ => Unit

/-- `run_control.json`, `social_review_queue.json`, the identifiers that have been drawn,
and what has been posted. -/
structure Files where
  control : Items := []
  queue : Queue := {}
  draws : ℕ := 0
  posts : List String := []

def perform (host : Host) (files : Files) : (a : Access) → Files × Answer a
  | .loadControl => (files, files.control)
  | .saveControl control => ({ files with control }, ())
  | .loadQueue => (files, files.queue)
  | .writeQueue queue => ({ files with queue }, ())
  | .draw => ({ files with draws := files.draws + 1 }, host.uuidHex files.draws)
  | .publish queueItemId accepted =>
      ({ files with posts := files.posts ++ if accepted then [queueItemId] else [] }, ())

abbrev ReviewProgram := Program Access Answer PyError

/-- `_load_run_control`. -/
def loadControl : ReviewProgram Items := .ask Access.loadControl

/-- `_save_run_control`. -/
def saveControl (control : Items) : ReviewProgram Unit := .ask (Access.saveControl control)

def loadQueue : ReviewProgram Queue := .ask Access.loadQueue

def writeQueue (queue : Queue) : ReviewProgram Unit := .ask (Access.writeQueue queue)

def draw : ReviewProgram String := .ask Access.draw

def publish (queueItemId : String) (accepted : Bool) : ReviewProgram Unit :=
  .ask (Access.publish queueItemId accepted)

def newQueueItemId : ReviewProgram String := do return "sri-" ++ (← draw)

def newReviewReceiptId : ReviewProgram String := do return "srr-" ++ (← draw)

/-! ## `review_queue.py` -/

/-- The interpreter, the secret scanner and the operator's confirmation. -/
structure ReviewEnv where
  host : Host
  /-- The text of `RED_SOCIAL_SECRET_LEAK`, where `scan_forbidden` finds something. -/
  secretLeak? : Queue → Option String
  /-- `operator_publish_confirmation.json`. -/
  confirmation : Option Items

/-- `control.get(key)`, for its truth. -/
def flag (control : Items) (key : String) : Bool := (PyVal.getItem control key).truthy

/-- `control.update(entries)`. -/
def updateControl (control entries : Items) : Items :=
  entries.foldl (fun items entry => PyVal.setItem items entry.1 entry.2) control

def changeFirst (queueItemId : String) (f : Item → Item) : List Item → List Item
  | [] => []
  | item :: items =>
      if item.queueItemId = queueItemId then f item :: items
      else item :: changeFirst queueItemId f items

def Queue.find? (queue : Queue) (queueItemId : String) : Option Item :=
  queue.items.find? fun item => item.queueItemId = queueItemId

/-- What an operation returns. -/
inductive Result where
  | ok
  | refused (error : String)
  | item (item : Item)
  | nothing

section Operations

variable (env : ReviewEnv)

/-- The queue that `save_queue` writes: the control file sets its flags. -/
def Queue.flagged (queue : Queue) (control : Items) : Queue :=
  { queue with
    autoApproveQueuedItems :=
      queue.autoApproveQueuedItems || flag control "auto_approve_queued_items"
    approvedOnlyMode := queue.approvedOnlyMode || flag control "approved_only_mode"
    livePublishPaused :=
      queue.livePublishPaused || flag control "live_publish_paused_for_review" }

def saveQueue (queue : Queue) : ReviewProgram Unit := do
  let control ← loadControl
  match env.secretLeak? (queue.flagged control) with
  | some text => .raised (.runtimeError text)
  | none => writeQueue (queue.flagged control)

def isPublishPaused : ReviewProgram Bool := do
  let control ← loadControl
  let queue ← loadQueue
  return flag control "live_publish_paused_for_review" || queue.livePublishPaused ||
    !flag control "allow_live_social_publish"

def approvedOnlyMode : ReviewProgram Bool := do
  let control ← loadControl
  let queue ← loadQueue
  return flag control "approved_only_mode" || queue.approvedOnlyMode

def autoApproveEnabled : ReviewProgram Bool := do
  let control ← loadControl
  let queue ← loadQueue
  return flag control "auto_approve_queued_items" || queue.autoApproveQueuedItems

def pauseLivePublish (reason now : String) : ReviewProgram Result := do
  let control ← loadControl
  saveControl (updateControl control
    [("allow_live_social_publish", .bool false),
      ("max_posts_total", .int 0),
      ("live_publish_paused_for_review", .bool true),
      ("approved_only_mode", .bool false),
      ("updated_at", .str now),
      ("pause_reason", .str reason)])
  let queue ← loadQueue
  saveQueue env { queue with livePublishPaused := true, approvedOnlyMode := false }
  return .ok

/-- `int(items.get(key, 3))`. -/
def countOf (value : PyVal) : ReviewProgram ℤ :=
  match env.host.toInt value with
  | .ok count => pure count
  | .error error => .raised error

def resumedMaxPosts (control : Items) : ReviewProgram ℤ := do
  let total := (PyVal.item? control "max_posts_total").getD (.int 3)
  let maxPosts ← countOf env (if total.truthy then total else .int 3)
  if 0 < maxPosts then return maxPosts
  let _ ← loadControl
  match env.confirmation with
  | some receipt => countOf env ((PyVal.item? receipt "max_posts").getD (.int 3))
  | none => return maxPosts

def resumeApprovedOnly (now : String) : ReviewProgram Result := do
  let control ← loadControl
  if !(flag control "operator_confirmed_after_observation" || env.confirmation.isSome) then
    return .refused "operator_observation_not_confirmed"
  let maxPosts ← resumedMaxPosts env control
  saveControl (updateControl control
    [("live_publish_paused_for_review", .bool false),
      ("approved_only_mode", .bool true),
      ("allow_live_social_publish", .bool true),
      ("max_posts_total", .int maxPosts),
      ("updated_at", .str now)])
  let queue ← loadQueue
  saveQueue env { queue with livePublishPaused := false, approvedOnlyMode := true }
  return .ok

/-- `approve_item`; `stopped` is what `stop_or_panic_active` answers. -/
def approveItem (queueItemId operatorRef : String) (stopped : Bool) :
    ReviewProgram Result := do
  if stopped then return .refused "stop_or_panic_active"
  let queue ← loadQueue
  match queue.find? queueItemId with
  | none => return .refused "item_not_found"
  | some item =>
      if !(itemMayApprove item).1 then return .refused (itemMayApprove item).2
      let receiptId ← newReviewReceiptId
      let tokenId ← newQueueItemId
      saveQueue env { queue with
        items := changeFirst queueItemId (fun item =>
          { item with
            status := .approved
            operatorRef := some operatorRef
            approvalHandle := some tokenId
            approvalReceiptRef := some receiptId }) queue.items }
      return .ok

def denyItem (queueItemId operatorRef : String) (stopped : Bool) :
    ReviewProgram Result := do
  if stopped then return .refused "stop_or_panic_active"
  let queue ← loadQueue
  match queue.find? queueItemId with
  | none => return .refused "item_not_found"
  | some item =>
      if !(itemMayDeny item).1 then return .refused (itemMayDeny item).2
      let receiptId ← newReviewReceiptId
      saveQueue env { queue with
        items := changeFirst queueItemId (fun item =>
          { item with
            status := .denied
            operatorRef := some operatorRef
            denialReceiptRef := some receiptId }) queue.items }
      return .ok

/-- What is handed to `enqueue_from_draft`. -/
structure Draft where
  draftId : String
  sourceTaskRef : String := ""
  trustBoundaryVerdict : String := "GREEN"
  opbVerdict : String := "GREEN"
  publishEligible : Bool := true

def Draft.item (draft : Draft) (queueItemId : String) : Item where
  queueItemId
  draftId := draft.draftId
  sourceTaskRef := draft.sourceTaskRef
  trustBoundaryVerdict := draft.trustBoundaryVerdict
  opbVerdict := draft.opbVerdict
  publishEligible := draft.publishEligible && startsWith draft.trustBoundaryVerdict "GREEN" &&
    startsWith draft.opbVerdict "GREEN"

def enqueueFromDraft (draft : Draft) (stopped : Bool) : ReviewProgram Result := do
  let queue ← loadQueue
  match queue.items.find? fun item =>
      item.draftId = draft.draftId && item.status = .queued with
  | some existing => return .item existing
  | none =>
      let queueItemId ← newQueueItemId
      saveQueue env { queue with items := queue.items ++ [draft.item queueItemId] }
      if ← autoApproveEnabled then
        match ← approveItem env queueItemId "operator-auto-approve-policy" stopped with
        | .ok =>
            let queue ← loadQueue
            return .item ((queue.find? queueItemId).getD (draft.item queueItemId))
        | _ => return .item (draft.item queueItemId)
      return .item (draft.item queueItemId)

def pickApprovedForPublish : ReviewProgram (Option Item) := do
  if ← isPublishPaused then return none
  if !(← approvedOnlyMode) then return none
  let queue ← loadQueue
  return queue.items.find? fun item => (itemMayPublish item).1

def markItemPublished (queueItemId publishReceiptRef : String) : ReviewProgram Unit := do
  let queue ← loadQueue
  if (queue.find? queueItemId).isSome then
    saveQueue env { queue with
      items := changeFirst queueItemId (fun item =>
        { item with
          status := .published
          publishReceiptRef := some publishReceiptRef
          approvalHandle := none }) queue.items }

def publishNext (accepted : Bool) (publishReceiptRef : String) : ReviewProgram Result := do
  match ← pickApprovedForPublish with
  | none => return .nothing
  | some item =>
      publish item.queueItemId accepted
      if accepted then markItemPublished env item.queueItemId publishReceiptRef
      return .item item

/-- The operations on a run directory. -/
inductive Operation where
  | enqueueFromDraft (draft : Draft) (stopped : Bool)
  | approveItem (queueItemId operatorRef : String) (stopped : Bool)
  | denyItem (queueItemId operatorRef : String) (stopped : Bool)
  | pauseLivePublish (reason now : String)
  | resumeApprovedOnly (now : String)
  | publishNext (accepted : Bool) (publishReceiptRef : String)

def Operation.program : Operation → ReviewProgram Result
  | .enqueueFromDraft draft stopped => Social.enqueueFromDraft env draft stopped
  | .approveItem id operatorRef stopped => Social.approveItem env id operatorRef stopped
  | .denyItem id operatorRef stopped => Social.denyItem env id operatorRef stopped
  | .pauseLivePublish reason now => Social.pauseLivePublish env reason now
  | .resumeApprovedOnly now => Social.resumeApprovedOnly env now
  | .publishNext accepted ref => Social.publishNext env accepted ref

end Operations

end Hydrogenuine.Social
