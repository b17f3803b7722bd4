import Hydrogenuine.Runtime.Contract
import Hydrogenuine.Support.Dict

/-!
# Bindings of committed handoffs

Embedding of `hg_oea/registry.py`, `hg_oea/validation.py` and `hg_oea/binding.py`:
the registered capabilities, the checks of their arguments, and the binding that is
made of a committed handoff.  The capability catalog, the canonical JSON text and
the secret scanner are fields of one structure, so that their answers are
arbitrary.
-/

namespace Hydrogenuine.Oea

open Support Hydrogenuine.Core Hydrogenuine.Runtime

abbrev Items := List (String × PyVal)

/-! ## Capabilities -/

inductive RiskClass where
  | harmless
  | low
  | medium
  | high
  | prohibited
deriving DecidableEq

def RiskClass.text : RiskClass → String
  | .harmless => "harmless"
  | .low => "low"
  | .medium => "medium"
  | .high => "high"
  | .prohibited => "prohibited"

/-- The fields of `CapabilityDefinition` that the executor reads. -/
structure CapabilityDefinition where
  capabilityId : String
  riskClass : RiskClass
  enabledByDefault : Bool
  requiresHumanConfirmation : Bool
  requiresDryRun : Bool
  allowedArgumentSchema : Items
  forbiddenArgumentPatterns : List String := []
  secretRequirements : List String := []
  retryPolicy : String := "none"
  maxRetries : ℕ := 0
  compensationPolicy : String := "record_only"
  authorityRequirements : List String := ["ueak_commit_ref"]
  idempotent : Bool := false
  maxConcurrency : ℤ := 1

def localReportArgsSchema : Items :=
  [("type", .str "object"),
    ("required", .list [.str "filename", .str "content"]),
    ("properties", .dict
      [("filename", .dict [("type", .str "string"), ("maxLength", .int 128)]),
        ("content", .dict [("type", .str "string"), ("maxLength", .int 65536)]),
        ("overwrite", .dict [("type", .str "boolean")])]),
    ("additionalProperties", .bool false)]

def localReportWrite : CapabilityDefinition where
  capabilityId := "local_report_file.write"
  riskClass := .harmless
  enabledByDefault := true
  requiresHumanConfirmation := false
  requiresDryRun := true
  allowedArgumentSchema := localReportArgsSchema
  forbiddenArgumentPatterns := ["..", "/", "\\", "\x00"]
  retryPolicy := "idempotent_limited"
  maxRetries := 1
  compensationPolicy := "owned_path_cleanup"
  idempotent := true

def prohibitedCapability (capabilityId : String) : CapabilityDefinition where
  capabilityId := capabilityId
  riskClass := .prohibited
  enabledByDefault := false
  requiresHumanConfirmation := true
  requiresDryRun := true
  allowedArgumentSchema :=
    [("type", .str "object"), ("additionalProperties", .bool false)]
  authorityRequirements := ["ueak_commit_ref", "confirmation_ref"]

def capabilityRegistry : List CapabilityDefinition :=
  [localReportWrite, prohibitedCapability "social_post.publish",
    prohibitedCapability "deployment.apply"]

def lookupCapability (capabilityId : String) : Option CapabilityDefinition :=
  capabilityRegistry.find? fun capability =>
    capability.capabilityId == capabilityId

/-- `OEAConfig`, as far as bindings and their execution read it. -/
structure OEAConfig where
  mode : String := "stub"
  realEnabled : Bool := false
  allowedCapabilities : List String := []
  requireConfirmationForMedium : Bool := true
  lockdown : Bool := false

def OEAConfig.isReal (config : OEAConfig) : Bool :=
  config.mode == "real" && config.realEnabled

def isCapabilityEnabled (capabilityId : String) (allowed : List String) : Bool :=
  match lookupCapability capabilityId with
  | none => false
  | some capability =>
      capability.riskClass != .prohibited && allowed.contains capabilityId &&
        capability.enabledByDefault

/-! ## Errors and services -/

/-- `BindingError`, `ValidationError`, and what else may be raised. -/
inductive OeaError where
  | binding (reason : String)
  | validation (reason : String)
  | raised (err : PyError)

/-- What bindings ask of others. -/
structure BindingServices where
  host : Host
  /-- The reason for which the capability catalog refuses a binding. -/
  catalogRefusal : String → Items → Option String
  /-- `canonical_dumps`, decoded. -/
  canonicalText : Items → String
  /-- `contains_raw_secret_pattern`. -/
  containsRawSecret : String → Bool

def isSecretHandle : PyVal → Bool
  | .str text => startsWith text "secret_ref:"
  | _ => false

namespace BindingServices

variable (b : BindingServices)

/-! ## Arguments -/

def inputHash (arguments : Items) : String :=
  b.host.canonicalHash (.dict [("arguments", .dict arguments)])

def argumentSchemaHash (capability : CapabilityDefinition) : String :=
  b.host.canonicalHash (.dict capability.allowedArgumentSchema)

def texts : PyVal → List String
  | .list items => items.filterMap fun v =>
      match v with
      | .str text => some text
      | _ => none
  | _ => []

def properties (schema : Items) : Items :=
  match PyVal.getItem schema "properties" with
  | .dict items => items
  | _ => []

def argumentRefusal (schema : Items) (entry : String × PyVal) :
    Option String :=
  let prop : Items :=
    match PyVal.getItem (properties schema) entry.1 with
    | .dict items => items
    | _ => []
  match PyVal.getItem prop "type", entry.2, PyVal.getItem prop "maxLength" with
  | .str "string", .str text, .int bound =>
      if bound < text.length then some ("field_too_long:" ++ entry.1) else none
  | .str "boolean", .bool _, _ => none
  | .str "boolean", _, _ => some ("invalid_boolean:" ++ entry.1)
  | _, _, _ => none

/-- `FILENAME_PATTERN.match`.  The end of the pattern may be followed by one line
break. -/
def filenameMatches (filename : String) : Bool :=
  let chars := filename.toList
  let chars := if chars.getLast? == some '\n' then chars.dropLast else chars
  match chars with
  | [] => false
  | first :: rest =>
      first.isAlphanum && decide (rest.length ≤ 127) &&
        rest.all fun ch => ch.isAlphanum || ch == '.' || ch == '_' || ch == '-'

/-- `str(arguments.get(k, ""))`. -/
def textArgument (arguments : Items) (k : String) : String :=
  b.host.str ((PyVal.item? arguments k).getD (.str ""))

/-- `_validate_local_report_args`. -/
def localReportRefusal (arguments : Items) : Option String :=
  if !filenameMatches (b.textArgument arguments "filename") then
    some "invalid_filename"
  else if 65536 < (b.textArgument arguments "content").utf8ByteSize then
    some "content_too_large"
  else none

/-- `_validate_secret_handles`. -/
def secretRefusal (capability : CapabilityDefinition) (arguments : Items) :
    Option String :=
  if capability.secretRequirements.any fun field =>
      match PyVal.item? arguments field with
      | some v => !isSecretHandle v
      | none => false then
    some "secret_must_use_handle"
  else
    arguments.findSome? fun entry =>
      match entry.2 with
      | .str text =>
          if b.containsRawSecret text && !startsWith text "secret_ref:" then
            some ("raw_secret_in_argument:" ++ entry.1)
          else none
      | _ => none

/-- The reason for which `validate_arguments` raises. -/
def argumentsRefusal (capability : CapabilityDefinition) (arguments : Items) :
    Option String :=
  let schema := capability.allowedArgumentSchema
  let missing := (texts (PyVal.getItem schema "required")).find? fun k =>
    (PyVal.item? arguments k).isNone
  let extra := (arguments.map Prod.fst).filter fun k =>
    (PyVal.item? (properties schema) k).isNone
  match missing with
  | some k => some ("missing_required:" ++ k)
  | none =>
      if (PyVal.getItem schema "additionalProperties").pyEq (.bool false) &&
          !extra.isEmpty then
        some ("unexpected_fields:" ++
          ",".intercalate (extra.insertionSort (· ≤ ·)))
      else
        match arguments.findSome? (argumentRefusal schema) with
        | some reason => some reason
        | none =>
            match capability.forbiddenArgumentPatterns.find? fun pattern =>
                isSubstring pattern (b.canonicalText arguments) with
            | some pattern => some ("forbidden_pattern:" ++ pattern)
            | none =>
                let refusal :=
                  if capability.capabilityId == "local_report_file.write" then
                    b.localReportRefusal arguments
                  else none
                refusal.or (b.secretRefusal capability arguments)

end BindingServices

/-! ## Bindings -/

structure OEABinding where
  bindingId : String
  createdAt : String
  capabilityId : String
  authorityRef : String
  ueakCommitRef : String
  gppPermitRef : Option String
  halOrSoarRef : Option String
  requestedBy : String
  inputHash : String
  argumentSchemaHash : String
  riskClass : RiskClass
  confirmationRef : Option String := none
  dryRunRef : Option String := none
  expiresAt : Option String := none
  status : String := "created"
  arguments : Items := []

def OEABinding.toPayload (binding : OEABinding) : Items :=
  [("binding_id", .str binding.bindingId),
    ("created_at", .str binding.createdAt),
    ("capability_id", .str binding.capabilityId),
    ("authority_ref", .str binding.authorityRef),
    ("ueak_commit_ref", .str binding.ueakCommitRef),
    ("gpp_permit_ref", .ofOption binding.gppPermitRef),
    ("hal_or_soar_ref", .ofOption binding.halOrSoarRef),
    ("requested_by", .str binding.requestedBy),
    ("input_hash", .str binding.inputHash),
    ("argument_schema_hash", .str binding.argumentSchemaHash),
    ("risk_class", .str binding.riskClass.text),
    ("confirmation_ref", .ofOption binding.confirmationRef),
    ("dry_run_ref", .ofOption binding.dryRunRef),
    ("expires_at", .ofOption binding.expiresAt),
    ("status", .str binding.status),
    ("arguments", .dict binding.arguments)]

/-- What `create_binding` is called with. -/
structure BindingRequest where
  capabilityId : String
  ueakCommitRef : String
  authorityRef : String
  requestedBy : String
  arguments : Items
  gppPermitRef : Option String := none
  halOrSoarRef : Option String := none
  confirmationRef : Option String := none
  dryRunRef : Option String := none
  skipDryRunCheck : Bool := false
  reviewMetadata : Items := []

namespace BindingServices

variable (b : BindingServices)

/-- The checks of `create_binding` before those of the arguments. -/
def bindingRefusal (config : OEAConfig) (req : BindingRequest) :
    Except String CapabilityDefinition :=
  if config.lockdown then .error "oea_lockdown"
  else
    match b.catalogRefusal req.capabilityId req.reviewMetadata with
    | some reason => .error reason
    | none =>
        match lookupCapability req.capabilityId with
        | none => .error "unknown_capability"
        | some capability =>
            if capability.riskClass == .prohibited then
              .error "capability_prohibited"
            else if !isCapabilityEnabled req.capabilityId
                config.allowedCapabilities then
              .error "capability_disabled"
            else if req.ueakCommitRef == "" then
              .error "missing_ueak_commit_ref"
            else if capability.authorityRequirements.contains
                "confirmation_ref" && !isText req.confirmationRef then
              .error "missing_confirmation_ref"
            else if capability.requiresHumanConfirmation &&
                !isText req.confirmationRef &&
                (capability.riskClass == .medium ||
                  capability.riskClass == .high) &&
                config.requireConfirmationForMedium then
              .error "confirmation_required"
            else if capability.requiresDryRun && !isText req.dryRunRef &&
                !req.skipDryRunCheck then
              .error "dry_run_required"
            else .ok capability

/-- The id of a binding: one for each commit reference, capability and
arguments. -/
def bindingId (req : BindingRequest) : String :=
  b.host.stableId "oea_binding"
    [req.ueakCommitRef, req.capabilityId, b.inputHash req.arguments]

def createBinding
    (config : OEAConfig) (createdAt : String) (req : BindingRequest) :
    Except OeaError OEABinding :=
  match b.bindingRefusal config req with
  | .error reason => .error (.binding reason)
  | .ok capability =>
      match b.argumentsRefusal capability req.arguments with
      | some reason => .error (.binding reason)
      | none =>
          .ok
            { bindingId := b.bindingId req
              createdAt := createdAt
              capabilityId := req.capabilityId
              authorityRef := req.authorityRef
              ueakCommitRef := req.ueakCommitRef
              gppPermitRef := req.gppPermitRef
              halOrSoarRef := req.halOrSoarRef
              requestedBy := req.requestedBy
              inputHash := b.inputHash req.arguments
              argumentSchemaHash := b.argumentSchemaHash capability
              riskClass := capability.riskClass
              confirmationRef := req.confirmationRef
              dryRunRef := req.dryRunRef
              arguments := req.arguments }

/-- `verify_binding_for_execution`, called with the binding's own arguments. -/
def verifyBinding (binding : OEABinding) (dryRunHash : String) :
    Except OeaError Unit :=
  if ["executing", "executed", "closed"].contains binding.status then
    .error (.binding "binding_immutable")
  else if b.inputHash binding.arguments != binding.inputHash then
    .error (.binding "input_hash_mismatch")
  else
    match lookupCapability binding.capabilityId with
    | none => .error (.binding "unknown_capability")
    | some capability =>
        if capability.requiresDryRun then
          if !isText binding.dryRunRef then
            .error (.binding "dry_run_required")
          else if dryRunHash != "" && some dryRunHash != binding.dryRunRef then
            .error (.binding "dry_run_hash_mismatch")
          else .ok ()
        else .ok ()

/-- The dictionary that `dict(v or w or {})` copies. -/
def mappingOr (v w : PyVal) : Except OeaError Items :=
  match if v.truthy then v else w with
  | .dict items => .ok items
  | u => if u.truthy then .error (.raised (.typeError "not a mapping"))
      else .ok []

/-- `str(v) if v else None`. -/
def textIfTruthy (v : PyVal) : Option String :=
  if v.truthy then some (b.host.str v) else none

/-- The arguments with which `binding_from_commit_payload` calls
`create_binding`. -/
def bindingRequest
    (payload : Items) (dryRunRef : String) (skipDryRunCheck : Bool) :
    Except OeaError BindingRequest := do
  let action ←
    match copyItems payload "action" with
    | .ok action => .ok action
    | .error err => .error (.raised err)
  let arguments ← mappingOr (PyVal.getItem action "arguments")
    (PyVal.getItem action "args")
  let reviewMetadata ← mappingOr (PyVal.getItem payload "review_metadata")
    (PyVal.getItem action "review_metadata")
  let capabilityId := PyVal.getItem payload "capability_id"
  let decisionId := PyVal.getItem payload "decision_id"
  let dryRun :=
    if dryRunRef != "" then dryRunRef
    else b.host.strOr (PyVal.getItem action "dry_run_ref") ""
  return {
    capabilityId :=
      if capabilityId.truthy then b.host.str capabilityId
      else b.host.strOr (PyVal.getItem action "capability_id") ""
    ueakCommitRef :=
      b.host.str ((PyVal.item? payload "commit_ref").getD (.str ""))
    authorityRef :=
      if decisionId.truthy then b.host.str decisionId
      else b.host.str ((PyVal.item? payload "request_id").getD (.str ""))
    requestedBy := b.host.strOr (PyVal.getItem payload "requested_by") "ueak"
    arguments
    gppPermitRef := b.textIfTruthy (PyVal.getItem payload "permit_ref")
    halOrSoarRef := b.textIfTruthy (PyVal.getItem action "hal_or_soar_ref")
    confirmationRef := b.textIfTruthy (PyVal.getItem action "confirmation_ref")
    dryRunRef := if dryRun != "" then some dryRun else none
    skipDryRunCheck
    reviewMetadata }

def bindingFromCommitPayload
    (config : OEAConfig) (createdAt : String) (payload : Items)
    (dryRunRef : String) (skipDryRunCheck : Bool) :
    Except OeaError OEABinding := do
  let req ← b.bindingRequest payload dryRunRef skipDryRunCheck
  b.createBinding config createdAt req

end BindingServices

end Hydrogenuine.Oea
