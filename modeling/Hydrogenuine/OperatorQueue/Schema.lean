import Hydrogenuine.Core.Host
import Hydrogenuine.OperatorQueue.SecretScan

/-!
# Action requests and queue items

Embedding of `exciton_action_model/schema.py` and `operator_action_queue/schema.py`.
A queue item refers to a request object, which the caller of `enqueue` may still
hold.  The fields of a request that no operation of the queue reads are kept as the
entries that they have in the payload.
-/

namespace Hydrogenuine.OperatorQueue

open Support Hydrogenuine.Core

abbrev Items := List (String × PyVal)

/-! ## Enumerations -/

/-- `AgentActionStatus`. -/
inductive ActionStatus where
  | queued
  | approved
  | denied
  | expired
  | cancelled
  | executed
  | failed
  | invalid
  | blocked
  | dryRunOnly
deriving DecidableEq, Inhabited

namespace ActionStatus

def text : ActionStatus → String
  | queued => "queued"
  | approved => "approved"
  | denied => "denied"
  | expired => "expired"
  | cancelled => "cancelled"
  | executed => "executed"
  | failed => "failed"
  | invalid => "invalid"
  | blocked => "blocked"
  | dryRunOnly => "dry_run_only"

def all : List ActionStatus :=
  [queued, approved, denied, expired, cancelled, executed, failed, invalid,
    blocked, dryRunOnly]

end ActionStatus

/-- `AgentActionType`. -/
inductive ActionType where
  | socialPost | socialRead | socialDraft
  | webReadUrl | webSearch | webClickLink | webDownloadFile | webFormFill
  | webFormSubmit | webLogin | webUpload | webPostComment | webPurchase
  | webAccountChange
  | emailDraft | emailSend | calendarCreate | fileWrite
  | memoryMutation | sourcePatch | anchorPush | toolExecute | shellCommand
  | accountAction | externalApiCall | publication | operatorNote | proofOpen
  | statusRefresh | stopSoak | panicStop | finalizeSoak
deriving DecidableEq, Inhabited

namespace ActionType

def text : ActionType → String
  | socialPost => "social_post"
  | socialRead => "social_read"
  | socialDraft => "social_draft"
  | webReadUrl => "web_read_url"
  | webSearch => "web_search"
  | webClickLink => "web_click_link"
  | webDownloadFile => "web_download_file"
  | webFormFill => "web_form_fill"
  | webFormSubmit => "web_form_submit"
  | webLogin => "web_login"
  | webUpload => "web_upload"
  | webPostComment => "web_post_comment"
  | webPurchase => "web_purchase"
  | webAccountChange => "web_account_change"
  | emailDraft => "email_draft"
  | emailSend => "email_send"
  | calendarCreate => "calendar_create"
  | fileWrite => "file_write"
  | memoryMutation => "memory_mutation"
  | sourcePatch => "source_patch"
  | anchorPush => "anchor_push"
  | toolExecute => "tool_execute"
  | shellCommand => "shell_command"
  | accountAction => "account_action"
  | externalApiCall => "external_api_call"
  | publication => "publication"
  | operatorNote => "operator_note"
  | proofOpen => "proof_open"
  | statusRefresh => "status_refresh"
  | stopSoak => "stop_soak"
  | panicStop => "panic_stop"
  | finalizeSoak => "finalize_soak"

def all : List ActionType :=
  [socialPost, socialRead, socialDraft, webReadUrl, webSearch, webClickLink,
    webDownloadFile, webFormFill, webFormSubmit, webLogin, webUpload,
    webPostComment, webPurchase, webAccountChange, emailDraft, emailSend,
    calendarCreate, fileWrite, memoryMutation, sourcePatch, anchorPush,
    toolExecute, shellCommand, accountAction, externalApiCall, publication,
    operatorNote, proofOpen, statusRefresh, stopSoak, panicStop, finalizeSoak]

end ActionType

/-- `OperatorQueueDecisionType`. -/
inductive DecisionType where
  | approveItem
  | denyItem
  | expireItem
  | cancelItem
  | markExecuted
  | markFailed
  | blockItem
  | enqueueItem
deriving DecidableEq

def DecisionType.text : DecisionType → String
  | approveItem => "APPROVE_ITEM"
  | denyItem => "DENY_ITEM"
  | expireItem => "EXPIRE_ITEM"
  | cancelItem => "CANCEL_ITEM"
  | markExecuted => "MARK_EXECUTED"
  | markFailed => "MARK_FAILED"
  | blockItem => "BLOCK_ITEM"
  | enqueueItem => "ENQUEUE_ITEM"

def memberOf
    {α : Type} (name : String) (members : List α) (text : α → String)
    (value : PyVal) : Except PyError α :=
  match members.find? fun member => value.pyEq (.str (text member)) with
  | some member => .ok member
  | none => .error (.valueError ("not a valid " ++ name))

def ActionStatus.ofValue : PyVal → Except PyError ActionStatus :=
  memberOf "AgentActionStatus" ActionStatus.all ActionStatus.text

def ActionType.ofValue : PyVal → Except PyError ActionType :=
  memberOf "AgentActionType" ActionType.all ActionType.text

theorem ActionStatus.ofValue_text (status : ActionStatus) :
    ActionStatus.ofValue (.str status.text) = .ok status := by
  cases status <;> rfl

theorem ActionType.ofValue_text (type : ActionType) :
    ActionType.ofValue (.str type.text) = .ok type := by
  cases type <;> rfl

/-! ## Payloads -/

def frozen : Items :=
  [("advisory_only", .bool true), ("permission_granted", .bool false),
    ("authority_created", .bool false)]

/-- `d[k]`. -/
def required (data : Items) (k : String) : Except PyError PyVal :=
  match PyVal.item? data k with
  | some v => .ok v
  | none => .error (.keyError k)

def textOf : PyVal → Except PyError String
  | .str s => .ok s
  | _ => .error (.typeError "object is not subscriptable")

/-- `OperatorDecisionRef`. -/
structure DecisionRef where
  decisionId : PyVal
  operatorRef : PyVal
  decisionKind : PyVal
  createdAt : PyVal

namespace DecisionRef

def toPayload (ref : DecisionRef) : PyVal :=
  .dict ([("decision_id", ref.decisionId), ("operator_ref", ref.operatorRef),
    ("decision_kind", ref.decisionKind), ("created_at", ref.createdAt)] ++
      frozen)

/-- `OperatorDecisionRef.from_payload(data) if data else None`. -/
def fromPayload? (data : PyVal) : Except PyError (Option DecisionRef) :=
  if data.truthy then
    match data with
    | .dict items => do
        return some
          { decisionId := ← required items "decision_id"
            operatorRef := ← required items "operator_ref"
            decisionKind := (PyVal.item? items "decision_kind").getD (.str "")
            createdAt := (PyVal.item? items "created_at").getD (.str "") }
    | _ => .error (.typeError "indices must be integers or slices, not str")
  else .ok none

end DecisionRef

def detailKeys : List String :=
  ["source_task", "created_at", "expires_at", "priority", "title",
    "raw_payload_ref", "requested_surface", "risk_class", "required_permit_type",
    "trust_boundary_verdict", "opb_verdict", "ipb_verdict", "capability_ref",
    "rate_limit_ref", "policy_refs", "proof_refs"]

/-- The entries of a payload for the fields that no operation reads. -/
structure Details where
  entries : Items
  keys : ∀ entry ∈ entries, entry.1 ∈ detailKeys

namespace Details

@[ext]
theorem ext {d d' : Details} (h : d.entries = d'.entries) : d = d' := by
  cases d
  cases d'
  cases h
  rfl

instance : Inhabited Details := ⟨[], List.forall_mem_nil _⟩

def ofPayload (data : Items) : Details where
  entries := data.filter fun entry => detailKeys.contains entry.1
  keys := by
    intro entry hentry
    exact List.contains_iff_mem.mp (List.mem_filter.mp hentry).2

end Details

/-- `AgentActionRequest`. -/
structure ActionRequest where
  actionId : PyVal
  actionType : ActionType
  sourceAgent : PyVal
  status : ActionStatus
  humanSummary : String
  sanitizedPreview : String
  operatorDecisionRef : Option DecisionRef
  executionReceiptRef : PyVal
  details : Details
deriving Inhabited

/-- The keys that hashes leave out: `ACTION_HASH_EXCLUDE_KEYS`. -/
def hashExcludeKeys : List String :=
  ["item_hash", "receipt_hash", "action_hash", "generated_at", "snapshot_hash",
    "content_hash"]

mutual

/-- `_strip`. -/
def stripHashes : PyVal → PyVal
  | .dict items => .dict (stripItems items)
  | .list values => .list (stripList values)
  | v => v

def stripItems : Items → Items
  | [] => []
  | (k, v) :: rest =>
      if hashExcludeKeys.contains k then stripItems rest
      else (k, stripHashes v) :: stripItems rest

def stripList : List PyVal → List PyVal
  | [] => []
  | v :: rest => stripHashes v :: stripList rest

end

def actionHash (host : Host) (payload : Items) : String :=
  host.canonicalHash (stripHashes (.dict payload))

/-- `queue_hash`, of a payload without it. -/
def queueHash (host : Host) (payload : Items) : String :=
  actionHash host
    (payload.filter fun entry => !((hashExcludeKeys ++ ["queue_hash"]).contains
      entry.1))

namespace ActionRequest

def fields (r : ActionRequest) : Items :=
  [("schema", .str "agent-action-request"),
    ("version", .str "exciton-action-model/1"),
    ("action_id", r.actionId), ("action_type", .str r.actionType.text),
    ("source_agent", r.sourceAgent), ("status", .str r.status.text),
    ("human_summary", .str (slice r.humanSummary 0 2000)),
    ("sanitized_preview", .str (slice r.sanitizedPreview 0 2000)),
    ("operator_decision_ref",
      match r.operatorDecisionRef with
      | some ref => ref.toPayload
      | none => .none),
    ("execution_receipt_ref", r.executionReceiptRef)]

def body (r : ActionRequest) : Items := r.fields ++ r.details.entries ++ frozen

def toPayload (host : Host) (r : ActionRequest) : Items :=
  r.body ++ [("item_hash", .str (actionHash host r.body))]

def fromPayload (data : Items) : Except PyError ActionRequest := do
  let actionId ← required data "action_id"
  let actionType ← ActionType.ofValue (← required data "action_type")
  let sourceAgent ← required data "source_agent"
  let status ← ActionStatus.ofValue (← required data "status")
  let humanSummary ← textOf (← required data "human_summary")
  let sanitizedPreview ←
    textOf ((PyVal.item? data "sanitized_preview").getD (.str ""))
  let operatorDecisionRef ←
    DecisionRef.fromPayload? (PyVal.getItem data "operator_decision_ref")
  return {
    actionId, actionType, sourceAgent, status, humanSummary, sanitizedPreview,
    operatorDecisionRef
    executionReceiptRef := PyVal.getItem data "execution_receipt_ref"
    details := .ofPayload data }

def stored (r : ActionRequest) : ActionRequest :=
  { r with
    humanSummary := slice r.humanSummary 0 2000
    sanitizedPreview := slice r.sanitizedPreview 0 2000 }

end ActionRequest

theorem DecisionRef.fromPayload?_toPayload (ref : Option DecisionRef) :
    DecisionRef.fromPayload?
        (match ref with
        | some ref => ref.toPayload
        | none => .none) = .ok ref := by
  cases ref with
  | none => rfl
  | some ref => rfl

theorem filter_detailKeys_eq_nil
    {items : Items} (hkeys : ∀ k ∈ items.map Prod.fst, k ∉ detailKeys) :
    (items.filter fun entry => detailKeys.contains entry.1) = [] := by
  rw [List.filter_eq_nil_iff]
  intro entry hentry hkey
  exact hkeys entry.1 (List.mem_map_of_mem hentry) (List.contains_iff_mem.mp hkey)

theorem Details.ofPayload_body (host : Host) (r : ActionRequest) :
    Details.ofPayload (r.toPayload host) = r.details := by
  have hdetails : (r.details.entries.filter fun entry =>
      detailKeys.contains entry.1) = r.details.entries := by
    rw [List.filter_eq_self]
    intro entry hentry
    exact List.contains_iff_mem.mpr (r.details.keys entry hentry)
  have hfields : ∀ k ∈ r.fields.map Prod.fst, k ∉ detailKeys := by
    change ∀ k ∈ ["schema", "version", "action_id", "action_type", "source_agent",
      "status", "human_summary", "sanitized_preview", "operator_decision_ref",
      "execution_receipt_ref"], k ∉ detailKeys
    decide
  have hfrozen : ∀ k ∈ frozen.map Prod.fst, k ∉ detailKeys := by
    decide
  have hhash : ∀ k ∈ [("item_hash", PyVal.str (actionHash host r.body))].map
      Prod.fst, k ∉ detailKeys := by
    change ∀ k ∈ ["item_hash"], k ∉ detailKeys
    decide
  apply Details.ext
  change (r.toPayload host).filter (fun entry => detailKeys.contains entry.1) =
    r.details.entries
  rw [ActionRequest.toPayload, List.filter_append, filter_detailKeys_eq_nil hhash,
    ActionRequest.body, List.filter_append, List.filter_append, hdetails,
    filter_detailKeys_eq_nil hfields, filter_detailKeys_eq_nil hfrozen,
    List.nil_append, List.append_nil, List.append_nil]

theorem ActionRequest.fromPayload_toPayload (host : Host) (r : ActionRequest) :
    ActionRequest.fromPayload (r.toPayload host) = .ok r.stored := by
  have hdetails := Details.ofPayload_body host r
  have hread := DecisionRef.fromPayload?_toPayload r.operatorDecisionRef
  unfold ActionRequest.fromPayload
  rw [hdetails]
  simp [ActionRequest.toPayload, ActionRequest.body, fields, required, PyVal.item?,
    PyVal.getItem, List.lookup_cons, ActionType.ofValue_text, ActionStatus.ofValue_text,
    textOf, hread, bind, Except.bind]
  rfl

/-! ## Queue items -/

/-- `OperatorQueueItem`. -/
structure QueueItem where
  queueItemId : String
  /-- The number of the request object. -/
  request : ℕ
  previousItemRef : PyVal

def copiedKeys : List String :=
  ["action_id", "action_type", "source_agent", "source_task", "created_at",
    "expires_at", "priority", "status", "title", "human_summary",
    "sanitized_preview", "requested_surface", "risk_class",
    "trust_boundary_verdict", "opb_verdict", "ipb_verdict", "capability_ref",
    "rate_limit_ref", "policy_refs", "proof_refs", "operator_decision_ref",
    "execution_receipt_ref"]

namespace QueueItem

def body (host : Host) (item : QueueItem) (r : ActionRequest) : Items :=
  [("schema", .str "operator-queue-item"),
    ("version", .str "operator-action-queue/1"),
    ("queue_item_id", .str item.queueItemId),
    ("action_request", .dict (r.toPayload host))] ++
    (copiedKeys.map fun k => (k, PyVal.getItem (r.toPayload host) k)) ++
    [("previous_item_ref", item.previousItemRef)] ++ frozen

def toPayload (host : Host) (item : QueueItem) (r : ActionRequest) : Items :=
  item.body host r ++ [("queue_hash", .str (queueHash host (item.body host r)))]

end QueueItem

/-- An item that was read, with its own request object. -/
structure ReadItem where
  queueItemId : String
  request : ActionRequest
  previousItemRef : PyVal

def ReadItem.fromPayload : PyVal → Except PyError ReadItem
  | .dict data => do
      let own := PyVal.getItem data "action_request"
      let arData := if own.truthy then own else .dict data
      match arData with
      | .dict ar => do
          let request ← ActionRequest.fromPayload ar
          let status ←
            match PyVal.item? data "status" with
            | some status =>
                if status.pyEq (PyVal.getItem ar "status") then pure request.status
                else ActionStatus.ofValue status
            | none => pure request.status
          let queueItemId ← textOf (← required data "queue_item_id")
          return {
            queueItemId
            request := { request with status }
            previousItemRef := PyVal.getItem data "previous_item_ref" }
      | _ => .error (.typeError "indices must be integers or slices, not str")
  | _ => .error (.attributeError "get")

theorem getItem_status (host : Host) (r : ActionRequest) :
    PyVal.getItem (r.toPayload host) "status" = .str r.status.text := by
  simp [ActionRequest.toPayload, ActionRequest.body, ActionRequest.fields,
    PyVal.getItem, PyVal.item?, List.lookup_cons]

section ItemPayload

variable (host : Host) (item : QueueItem) (r : ActionRequest)

theorem item?_actionRequest :
    PyVal.item? (item.toPayload host r) "action_request" =
      some (.dict (r.toPayload host)) := by
  simp [QueueItem.toPayload, QueueItem.body, PyVal.item?, List.lookup_cons]

theorem item?_queueItemId :
    PyVal.item? (item.toPayload host r) "queue_item_id" =
      some (.str item.queueItemId) := by
  simp [QueueItem.toPayload, QueueItem.body, PyVal.item?, List.lookup_cons]

theorem item?_status :
    PyVal.item? (item.toPayload host r) "status" = some (.str r.status.text) := by
  rw [← getItem_status host r]
  simp [QueueItem.toPayload, QueueItem.body, copiedKeys, PyVal.item?, List.lookup_cons]

theorem item?_previousItemRef :
    PyVal.item? (item.toPayload host r) "previous_item_ref" =
      some item.previousItemRef := by
  simp [QueueItem.toPayload, QueueItem.body, copiedKeys, PyVal.item?, List.lookup_cons]

theorem ReadItem.fromPayload_toPayload :
    ReadItem.fromPayload (.dict (item.toPayload host r)) =
      .ok ⟨item.queueItemId, r.stored, item.previousItemRef⟩ := by
  have hown : (PyVal.dict (r.toPayload host)).truthy = true := rfl
  have hsame : (PyVal.str r.status.text).pyEq (.str r.status.text) = true :=
    (PyVal.pyEq_str_iff _ _).mpr rfl
  have hstatus := getItem_status host r
  unfold PyVal.getItem at hstatus
  simp only [ReadItem.fromPayload, PyVal.getItem, item?_actionRequest,
    Option.getD_some, hown, if_true, ActionRequest.fromPayload_toPayload, bind,
    Except.bind, item?_status, hstatus, hsame, required, item?_queueItemId,
    item?_previousItemRef]
  rfl

end ItemPayload

/-! ### What the scan finds -/

/-- The scan finds nothing in the fields of a request. -/
structure ActionRequest.AllClean (r : ActionRequest) : Prop where
  actionId : Clean r.actionId
  sourceAgent : Clean r.sourceAgent
  decision : ∀ ref, r.operatorDecisionRef = some ref → Clean ref.toPayload
  receipt : Clean r.executionReceiptRef
  details : ∀ entry ∈ r.details.entries, Clean entry.2

theorem clean_append_iff {items items' : Items} :
    Clean (.dict (items ++ items')) ↔ Clean (.dict items) ∧ Clean (.dict items') := by
  rw [clean_dict_iff, clean_dict_iff, clean_dict_iff, List.forall_mem_append]

def writtenKeys : List String :=
  ["schema", "version", "action_id", "action_type", "source_agent", "status",
    "human_summary", "sanitized_preview", "operator_decision_ref",
    "execution_receipt_ref", "item_hash", "decision_id", "operator_ref",
    "decision_kind", "created_at", "queue_item_id", "action_request",
    "previous_item_ref", "queue_hash", "store_root", "items", "receipt_id",
    "decision_type", "reason", "previous_status", "new_status",
    "queue_hash_at_transition", "previous_receipt_ref", "receipt_hash"] ++
    detailKeys ++ frozen.map Prod.fst

theorem writtenKeys_allowed :
    (writtenKeys.all fun k => !fieldKeyIsForbidden k) = true := by
  decide +kernel

theorem clean_dict_of_written
    {items : Items} (hitems : ∀ entry ∈ items, entry.1 ∈ writtenKeys) :
    Clean (.dict items) ↔ ∀ entry ∈ items, Clean entry.2 := by
  rw [clean_dict_iff]
  refine forall₂_congr fun entry hentry => and_iff_right ?_
  have hallowed := List.all_eq_true.mp writtenKeys_allowed entry.1
    (hitems entry hentry)
  rwa [Bool.not_eq_true'] at hallowed

theorem clean_frozen : Clean (.dict frozen) := by
  rw [clean_dict_of_written (by simp [frozen, writtenKeys])]
  simp [frozen]

theorem DecisionRef.clean_iff (ref : DecisionRef) :
    Clean ref.toPayload ↔ Clean ref.decisionId ∧ Clean ref.operatorRef ∧
      Clean ref.decisionKind ∧ Clean ref.createdAt := by
  rw [DecisionRef.toPayload, clean_append_iff, and_iff_left clean_frozen,
    clean_dict_of_written (by simp [writtenKeys])]
  simp

theorem ActionRequest.clean_body_iff (r : ActionRequest) :
    Clean (.dict r.body) ↔ r.AllClean := by
  have hdetails : Clean (.dict r.details.entries) ↔
      ∀ entry ∈ r.details.entries, Clean entry.2 := by
    refine clean_dict_of_written fun entry hentry => ?_
    have hkey := r.details.keys entry hentry
    exact List.mem_append_left _ (List.mem_append_right _ hkey)
  rw [ActionRequest.body, clean_append_iff, clean_append_iff,
    and_iff_left clean_frozen, hdetails,
    clean_dict_of_written (by simp [ActionRequest.fields, writtenKeys])]
  unfold ActionRequest.fields
  constructor
  · rintro ⟨hfields, hentries⟩
    simp only [List.forall_mem_cons] at hfields
    obtain ⟨-, -, hid, -, hagent, -, -, -, hdecision, hreceipt, -⟩ := hfields
    refine ⟨hid, hagent, ?_, hreceipt, hentries⟩
    rintro ref href
    rw [href] at hdecision
    exact hdecision
  · intro h
    refine ⟨?_, h.details⟩
    simp only [List.forall_mem_cons, clean_str, h.actionId, h.sourceAgent,
      h.receipt, true_and, List.not_mem_nil, false_imp_iff, implies_true, and_true]
    cases hdecision : r.operatorDecisionRef with
    | none => exact clean_none
    | some ref => exact h.decision ref hdecision

theorem clean_getItem {items : Items} (h : Clean (.dict items)) (k : String) :
    Clean (PyVal.getItem items k) := by
  unfold PyVal.getItem
  cases hitem : PyVal.item? items k with
  | none => exact clean_none
  | some v =>
      obtain ⟨before, after, rfl, -⟩ := List.lookup_eq_some_iff.mp hitem
      refine (clean_dict_iff.mp h (k, v) ?_).2
      exact List.mem_append_right before List.mem_cons_self

/-- The scan finds nothing in an item exactly when it finds nothing in the fields of
its request and in its link. -/
theorem QueueItem.clean_iff (host : Host) (item : QueueItem) (r : ActionRequest) :
    Clean (.dict (item.toPayload host r)) ↔
      r.AllClean ∧ Clean item.previousItemRef := by
  have hrequest : Clean (.dict (r.toPayload host)) ↔ r.AllClean := by
    rw [ActionRequest.toPayload, clean_append_iff, r.clean_body_iff,
      and_iff_left_iff_imp, clean_dict_of_written (by simp [writtenKeys])]
    simp
  rw [QueueItem.toPayload, QueueItem.body,
    clean_dict_of_written ?_]
  · simp only [List.forall_mem_append, List.forall_mem_cons, List.forall_mem_map,
      clean_str, hrequest, true_and, List.not_mem_nil, false_imp_iff, implies_true,
      and_true]
    constructor
    · rintro ⟨⟨⟨h, -⟩, hlink⟩, -⟩
      exact ⟨h, hlink⟩
    · rintro ⟨h, hlink⟩
      refine ⟨⟨⟨h, fun k _ => clean_getItem (hrequest.mpr h) k⟩, hlink⟩, ?_⟩
      exact fun entry hentry => (clean_dict_iff.mp clean_frozen entry hentry).2
  · have hkeys : ∀ k ∈ ["schema", "version", "queue_item_id",
        "action_request"] ++ copiedKeys ++ ["previous_item_ref"] ++
          frozen.map Prod.fst ++ ["queue_hash"], k ∈ writtenKeys := by
      decide
    intro entry hentry
    exact hkeys entry.1 (List.mem_map_of_mem hentry)

end Hydrogenuine.OperatorQueue
