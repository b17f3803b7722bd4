import Hydrogenuine.Admission.Controller
import Hydrogenuine.Oea.Binding
import Hydrogenuine.Support.Stateful

/-!
# The bounded executor

Embedding of `hg_oea/bounded_executor.py` with what it calls: the dry run, the
local report capability, retries, compensation, the receipt ledger and the drafts
for the bus.  What the clocks and the proof directory answer while one event is
processed is a `World`, and an event with its world is a `Delivery`.

The state keeps one thing that the code does not: `effects`, the list of the writes
that were carried out.  No definition reads it.
-/

namespace Hydrogenuine.Oea

open Support Hydrogenuine.Core Hydrogenuine.Runtime
open Admission
  (AdmissionController AdmissionDecision AdmissionRequest AdmissionToken)

/-! ## Types -/

structure DryRunResult where
  dryRunId : String
  capabilityId : String
  inputHash : String
  predictedEffect : String
  touchedResources : List String
  riskClass : RiskClass
  allowed : Bool
  refusalReason : Option String := none
  dryRunHash : String := ""
  createdAt : String := ""

def textList (texts : List String) : PyVal := .list (texts.map PyVal.str)

def textItem (k text : String) : Items :=
  if text = "" then [] else [(k, .str text)]

def DryRunResult.toPayload (dryRun : DryRunResult) : Items :=
  [("dry_run_id", .str dryRun.dryRunId),
    ("capability_id", .str dryRun.capabilityId),
    ("input_hash", .str dryRun.inputHash),
    ("predicted_effect", .str dryRun.predictedEffect),
    ("touched_resources", textList dryRun.touchedResources),
    ("risk_class", .str dryRun.riskClass.text),
    ("allowed", .bool dryRun.allowed),
    ("refusal_reason", .ofOption dryRun.refusalReason),
    ("dry_run_hash", .str dryRun.dryRunHash)] ++
  textItem "created_at" dryRun.createdAt

structure EffectReceipt where
  receiptId : String
  bindingId : String
  capabilityId : String
  authorityRef : String
  ueakCommitRef : String
  inputHash : String
  resultStatus : String
  outputHash : String
  touchedResources : List String
  startedAt : String
  completedAt : String
  errorClass : Option String := none
  errorMessageRedacted : Option String := none
  retryCount : ℕ := 0
  compensationStatus : String := "none"
  receiptHash : String := ""
  previousReceiptHash : Option String := none
  executorMode : String := "real"
  permitId : String := ""
  handoffId : String := ""
  sinkType : String := ""
  dispatchMode : String := ""
  externalEffectPerformed : Option Bool := none

def optionItem (k : String) : Option PyVal → Items
  | some v => [(k, v)]
  | none => []

def EffectReceipt.toPayload (receipt : EffectReceipt) : Items :=
  [("receipt_id", .str receipt.receiptId),
    ("binding_id", .str receipt.bindingId),
    ("capability_id", .str receipt.capabilityId),
    ("authority_ref", .str receipt.authorityRef),
    ("ueak_commit_ref", .str receipt.ueakCommitRef),
    ("input_hash", .str receipt.inputHash),
    ("result_status", .str receipt.resultStatus),
    ("output_hash", .str receipt.outputHash),
    ("touched_resources", textList receipt.touchedResources),
    ("started_at", .str receipt.startedAt),
    ("completed_at", .str receipt.completedAt),
    ("retry_count", .int receipt.retryCount),
    ("compensation_status", .str receipt.compensationStatus),
    ("executor_mode", .str receipt.executorMode)] ++
  optionItem "error_class" (receipt.errorClass.map .str) ++
  optionItem "error_message_redacted"
    (receipt.errorMessageRedacted.map .str) ++
  textItem "receipt_hash" receipt.receiptHash ++
  textItem "previous_receipt_hash"
    (receipt.previousReceiptHash.getD "") ++
  textItem "permit_id" receipt.permitId ++
  textItem "handoff_id" receipt.handoffId ++
  textItem "sink_type" receipt.sinkType ++
  textItem "dispatch_mode" receipt.dispatchMode ++
  optionItem "external_effect_performed"
    (receipt.externalEffectPerformed.map .bool)

/-! ## The world around one event -/

/-- The proof directory, as one look at it finds it. -/
structure ProofDir where
  /-- The target of a file name, and whether it lies in the directory. -/
  resolve : String → Except PyError (String × Bool)
  mkdirError : Option PyError := none
  targetExists : Bool
  writeError : Option PyError := none
  /-- The owned resource can be removed. -/
  removed : String → Bool := fun _ => true

structure World where
  /-- `_clock()`. -/
  now : String
  /-- The wall clock of the controller. -/
  utc : String
  /-- The clock of the controller, when the admission is asked for. -/
  requestAt : ℚ
  /-- The clock of the controller, when the completion is recorded. -/
  completeAt : ℚ
  /-- What the dry run finds. -/
  planned : ProofDir
  /-- What the tries find, one after the other. -/
  tried : ℕ → ProofDir
  ledgerError : Option PyError := none

structure Delivery where
  event : Event
  world : World

/-- A write that was carried out, with the clock readings around it. -/
structure Effect where
  commitRef : String
  bindingId : String
  requestedAt : ℚ
  completedAt : ℚ
deriving DecidableEq

/-- `OEABoundedExecutor` with the controller that it uses. -/
structure Executor where
  config : OEAConfig
  controller : AdmissionController
  effectRecords : List Items := []
  receipts : List Items := []
  lockdown : Bool := false
  effects : List Effect := []

abbrev ExecM := EStateM OeaError Executor

structure ExecutorServices extends BindingServices where
  /-- `redact_text`. -/
  redactText : String → String

/-! ## The local report capability -/

/-- `arguments.get("overwrite", False)` as a condition. -/
def overwrites (arguments : Items) : Bool :=
  (PyVal.getItem arguments "overwrite").truthy

def resolveProofPath (dir : ProofDir) (filename : String) :
    Except OeaError String :=
  match dir.resolve filename with
  | .error err => .error (.raised err)
  | .ok (target, inside) =>
      if inside then .ok target else .error (.validation "path_traversal")

def mayRetry
    (capability : CapabilityDefinition) (retryCount : ℕ)
    (resultStatus : String) : Bool :=
  if resultStatus == "executed" then false
  else if capability.retryPolicy == "none" then false
  else if !capability.idempotent then false
  else if capability.maxRetries ≤ retryCount then false
  else resultStatus == "failed" || resultStatus == "timed_out"

def compensateLocalReport
    (dir : ProofDir) (touched : List String)
    (capability : CapabilityDefinition) : String :=
  if capability.compensationPolicy != "owned_path_cleanup" then "none"
  else if touched.all dir.removed then "completed"
  else "failed"

namespace ExecutorServices

variable (s : ExecutorServices)

def executeLocalReportWrite (dir : ProofDir) (arguments : Items) :
    Except OeaError (String × List String) :=
  match resolveProofPath dir (s.textArgument arguments "filename") with
  | .error err => .error err
  | .ok target =>
      match dir.mkdirError with
      | some err => .error (.raised err)
      | none =>
          if dir.targetExists && !overwrites arguments then
            .error (.validation "file_exists_without_overwrite")
          else
            match dir.writeError with
            | some err => .error (.raised err)
            | none =>
                let bytes := (s.textArgument arguments "content").utf8ByteSize
                .ok (s.host.canonicalHash (.dict
                  [("path", .str target), ("bytes", .int bytes)]), [target])

/-! ## The dry run -/

def refusedDryRun
    (binding : OEABinding) (capability : CapabilityDefinition)
    (reason : String) : DryRunResult where
  dryRunId := s.host.stableId "oea_dry_run" [binding.bindingId, "refused"]
  capabilityId := capability.capabilityId
  inputHash := binding.inputHash
  predictedEffect := "refused"
  touchedResources := []
  riskClass := capability.riskClass
  allowed := false
  refusalReason := some reason

def dryRunLocalReport
    (dir : ProofDir) (binding : OEABinding)
    (capability : CapabilityDefinition) (createdAt : String) :
    Except OeaError DryRunResult :=
  let filename := s.textArgument binding.arguments "filename"
  match resolveProofPath dir filename with
  | .error (.validation reason) =>
      .ok (s.refusedDryRun binding capability reason)
  | .error err => .error err
  | .ok target =>
      if dir.targetExists && !overwrites binding.arguments then
        .ok (s.refusedDryRun binding capability
          "file_exists_without_overwrite")
      else
        let dryRunHash := s.host.canonicalHash (.dict
          [("capability_id", .str capability.capabilityId),
            ("input_hash", .str binding.inputHash),
            ("predicted_effect", .str "write_local_report_file"),
            ("touched_resources", textList [target]),
            ("created_at", .str createdAt)])
        .ok
          { dryRunId :=
              s.host.stableId "oea_dry_run" [binding.bindingId, dryRunHash]
            capabilityId := capability.capabilityId
            inputHash := binding.inputHash
            predictedEffect := "write_local_report_file"
            touchedResources := [target]
            riskClass := capability.riskClass
            allowed := true
            dryRunHash }

def performDryRun
    (dir : ProofDir) (binding : OEABinding)
    (capability : CapabilityDefinition) (createdAt : String) :
    Except OeaError DryRunResult :=
  if capability.capabilityId == "local_report_file.write" then
    s.dryRunLocalReport dir binding capability createdAt
  else
    .ok
      { dryRunId := s.host.stableId "oea_dry_run" [binding.bindingId]
        capabilityId := capability.capabilityId
        inputHash := binding.inputHash
        predictedEffect := "unsupported_capability"
        touchedResources := []
        riskClass := capability.riskClass
        allowed := false
        refusalReason := some "unsupported_capability" }

end ExecutorServices

/-! ## Drafts for the bus -/

def oeaDraft (parent type : String) (payload : Items) : Draft where
  type := type
  payload := payload
  causalParents := [parent]

def bindingItems (binding : OEABinding) : Items :=
  [("binding_id", .str binding.bindingId),
    ("capability_id", .str binding.capabilityId)]

def receiptDrafts (parent : String) (receipt : EffectReceipt) : List Draft :=
  [oeaDraft parent "OEA_EXECUTION_COMPLETED"
      [("binding_id", .str receipt.bindingId),
        ("capability_id", .str receipt.capabilityId),
        ("result_status", .str receipt.resultStatus),
        ("receipt_id", .str receipt.receiptId)],
    oeaDraft parent "OEA_EFFECT_RECEIPT_RECORDED" receipt.toPayload,
    oeaDraft parent "EFFECT_RECEIPTED"
      [("receipt_id", .str receipt.receiptId),
        ("commit_ref", .str receipt.ueakCommitRef),
        ("request_id", .str receipt.bindingId),
        ("effect_class", .str receipt.capabilityId),
        ("status", .str receipt.resultStatus),
        ("executor_mode", .str receipt.executorMode),
        ("output_hash", .str receipt.outputHash)]]

namespace ExecutorServices

variable (s : ExecutorServices)

/-! ## Execution -/

/-- `_ensure_dry_run`: the reference of the dry run and its drafts. -/
def ensureDryRun
    (config : OEAConfig) (world : World) (payload : Items) (parent : String) :
    Except OeaError (String × List Draft) :=
  match lookupCapability
      (s.host.strOr (PyVal.getItem payload "capability_id") "") with
  | none => .error (.binding "unknown_capability")
  | some capability =>
      if !capability.requiresDryRun then .ok ("", [])
      else
        match copyItems payload "action" with
        | .error err => .error (.raised err)
        | .ok action =>
            let existing := PyVal.getItem action "dry_run_ref"
            if existing.truthy then .ok (s.host.str existing, [])
            else do
              let binding ← s.bindingFromCommitPayload config world.now
                payload "" true
              let dryRun ← s.performDryRun world.planned binding capability
                world.now
              if dryRun.allowed then
                return (dryRun.dryRunHash,
                  [oeaDraft parent "OEA_DRY_RUN_STARTED" (bindingItems binding),
                    oeaDraft parent "OEA_DRY_RUN_COMPLETED" dryRun.toPayload])
              else
                .error (.binding
                  (orText dryRun.refusalReason "dry_run_refused"))

def tryOnce (world : World) (binding : OEABinding) (n : ℕ) :
    ExecM (String × List String) :=
  if binding.capabilityId == "local_report_file.write" then do
    let written ← raising
      (s.executeLocalReportWrite (world.tried n) binding.arguments)
    modify fun x =>
      { x with
        effects := x.effects ++
          [{ commitRef := binding.ueakCommitRef
             bindingId := binding.bindingId
             requestedAt := world.requestAt
             completedAt := world.completeAt }] }
    return written
  else throw (.binding "unsupported_capability")

/-- How the tries ended. -/
structure Tried where
  resultStatus : String
  outputHash : String := ""
  touched : List String := []
  errorClass : Option String := none
  errorMessage : Option String := none
  retryCount : ℕ
  compensationStatus : String := "none"

def wrote
    (n : ℕ) (earlier : Option String) (written : String × List String) :
    Tried where
  resultStatus := "executed"
  outputHash := written.1
  touched := written.2
  errorClass := earlier.map fun _ => "validation_error"
  errorMessage := earlier.map s.redactText
  retryCount := n

/-- The end of the tries after one that failed and is not made again.  None of
them has touched anything. -/
def gaveUp
    (world : World) (capability : CapabilityDefinition) (n : ℕ)
    (reason : String) : Tried where
  resultStatus := "failed"
  errorClass := some "validation_error"
  errorMessage := some (s.redactText reason)
  retryCount := n
  compensationStatus :=
    if capability.compensationPolicy == "owned_path_cleanup" then
      compensateLocalReport (world.tried n) [] capability
    else "none"

def stop (tried : Tried) : ExecM Tried := do
  modify fun x =>
    { x with lockdown := x.lockdown || tried.compensationStatus == "failed" }
  return tried

/-- The loop of the tries; `fuel` bounds those still allowed. -/
def tries
    (world : World) (binding : OEABinding)
    (capability : CapabilityDefinition) :
    ℕ → ℕ → Option String → ExecM Tried
  | fuel, n, earlier => do
      match ← attempt (s.tryOnce world binding n) with
      | .ok written => return s.wrote n earlier written
      | .error (.validation reason) =>
          match fuel with
          | fuel + 1 =>
              if mayRetry capability n "failed" then
                tries world binding capability fuel (n + 1) (some reason)
              else stop (s.gaveUp world capability n reason)
          | 0 => stop (s.gaveUp world capability n reason)
      | .error err => throw err

def effectRequest
    (binding : OEABinding) (capability : CapabilityDefinition) :
    AdmissionRequest where
  requestId := binding.bindingId
  kind := .oeaEffect
  idempotencyKey := "oea:" ++ binding.ueakCommitRef
  capabilityId := some binding.capabilityId
  capabilityConcurrency := capability.maxConcurrency

def receiptOf (world : World) (binding : OEABinding) (tried : Tried) :
    EffectReceipt where
  receiptId :=
    s.host.stableId "oea_receipt" [binding.bindingId, tried.resultStatus]
  bindingId := binding.bindingId
  capabilityId := binding.capabilityId
  authorityRef := binding.authorityRef
  ueakCommitRef := binding.ueakCommitRef
  inputHash := binding.inputHash
  resultStatus := tried.resultStatus
  outputHash := tried.outputHash
  touchedResources := tried.touched
  startedAt := world.now
  completedAt := world.now
  errorClass := tried.errorClass
  errorMessageRedacted := tried.errorMessage
  retryCount := tried.retryCount
  compensationStatus := tried.compensationStatus
  executorMode := "real"

/-- `_last_hash` of the receipt ledger. -/
def lastHash (receipts : List Items) : Option String :=
  receipts.getLast?.map fun last =>
    s.host.str ((PyVal.item? last "receipt_hash").getD (.str ""))

/-- `OEAReceiptLedger.append`: the stored receipt and the line that it makes. -/
def stored (receipts : List Items) (receipt : EffectReceipt) :
    EffectReceipt × Items :=
  let previous := s.lastHash receipts
  let payload :=
    if isText previous then
      PyVal.setItem receipt.toPayload "previous_receipt_hash" (.ofOption previous)
    else receipt.toPayload
  let receiptHash := s.host.canonicalHash (.dict payload)
  ({ receipt with receiptHash, previousReceiptHash := previous },
    PyVal.setItem payload "receipt_hash" (.str receiptHash))

def appendReceipt (world : World) (receipt : EffectReceipt) :
    ExecM EffectReceipt := do
  let x ← get
  match world.ledgerError with
  | some err => throw (.raised err)
  | none =>
      set { x with
        receipts := x.receipts ++ [(s.stored x.receipts receipt).2] }
      return (s.stored x.receipts receipt).1

def executeAdmitted
    (world : World) (binding : OEABinding)
    (capability : CapabilityDefinition) (token : AdmissionToken) :
    ExecM EffectReceipt := do
  let tried ← s.tries world binding capability capability.maxRetries 0 none
  let receipt := s.receiptOf world binding tried
  if tried.resultStatus == "executed" then
    modify fun x =>
      { x with
        controller :=
          x.controller.complete world.completeAt token receipt.receiptId }
  s.appendReceipt world receipt

def executeBinding (world : World) (binding : OEABinding) :
    ExecM EffectReceipt := do
  match lookupCapability binding.capabilityId with
  | none => throw (.binding "unknown_capability")
  | some capability =>
      let x ← get
      let decided := x.controller.request s.host world.requestAt world.utc
        (effectRequest binding capability)
      set { x with controller := decided.2 }
      match decided.1.admitted, decided.1.token with
      | true, some token =>
          andFinally (s.executeAdmitted world binding capability token)
            fun x => { x with controller := x.controller.release token }
      | _, _ => throw (.binding decided.1.reasonCode)

/-! ## Deliveries -/

def refused
    (payload : Items) (parent : String) (drafts : List Draft) :
    OeaError → ExecM (List Draft)
  | .binding reason => do
      let commitRef := s.host.str
        ((PyVal.item? payload "commit_ref").getD (.str ""))
      let refusal : Items :=
        [("binding_id", .str
            (s.host.stableId "oea_binding_refused" [commitRef])),
          ("capability_id", .str
            (s.host.strOr (PyVal.getItem payload "capability_id") "")),
          ("reason", .str reason)]
      return drafts ++
        [oeaDraft parent "OEA_BINDING_REFUSED"
            (refusal ++ [("ueak_commit_ref", .str commitRef)]),
          oeaDraft parent "OEA_EXECUTION_REFUSED" refusal]
  | .validation reason => do
      let commitRef := s.host.str
        ((PyVal.item? payload "commit_ref").getD (.str ""))
      return drafts ++
        [oeaDraft parent "OEA_EXECUTION_FAILED"
          [("binding_id", .str
              (s.host.stableId "oea_exec_failed" [commitRef])),
            ("capability_id", .str
              (s.host.strOr (PyVal.getItem payload "capability_id") "")),
            ("reason", .str reason)]]
  | .raised err => throw (.raised err)

def processCommit (world : World) (payload : Items) (parent : String) :
    ExecM (List Draft) := do
  let x ← get
  match s.ensureDryRun x.config world payload parent with
  | .error err => s.refused payload parent [] err
  | .ok (dryRunRef, drafts) =>
      match s.bindingFromCommitPayload x.config world.now payload dryRunRef
          false with
      | .error err => s.refused payload parent drafts err
      | .ok binding =>
          let drafts := drafts ++
            [oeaDraft parent "OEA_BINDING_CREATED" binding.toPayload]
          match s.verifyBinding binding dryRunRef with
          | .error err => s.refused payload parent drafts err
          | .ok () =>
              let drafts := drafts ++
                [oeaDraft parent "OEA_EXECUTION_REQUESTED"
                    (bindingItems binding),
                  oeaDraft parent "OEA_EXECUTION_STARTED"
                    (bindingItems binding)]
              match ← attempt (s.executeBinding world binding) with
              | .error err => s.refused payload parent drafts err
              | .ok receipt =>
                  modify fun x =>
                    { x with
                      effectRecords := x.effectRecords ++ [receipt.toPayload] }
                  return drafts ++ receiptDrafts parent receipt

/-- The part of `dispatch_committed` that is about one event. -/
def deliver (delivery : Delivery) : ExecM (List Draft) :=
  if delivery.event.type == "UEAK_EXECUTION_COMMITTED" then
    s.processCommit delivery.world delivery.event.payload
      delivery.event.eventId
  else pure []

def deliverAll : List Delivery → ExecM (List Draft)
  | [] => pure []
  | delivery :: rest => do
      let drafts ← s.deliver delivery
      let drafts' ← deliverAll rest
      return drafts ++ drafts'

def dispatchCommitted (deliveries : List Delivery) : ExecM (List Draft) := do
  let x ← get
  if x.config.isReal then s.deliverAll deliveries
  else
    throw (.raised (.runtimeError
      "OEABoundedExecutor requires HG_OEA_REAL=1 or HG_OEA_MODE=real"))

end ExecutorServices

end Hydrogenuine.Oea
