import Hydrogenuine.Core.ReferenceHost
import Hydrogenuine.Support.HashChain

/-!
# The persistent memory ledger

Embedding of `hg_runtime/memory_ledger`: an append-only file of entries that are chained by
their hashes.  A line is read back as the entry that was written, with the keys of its
payload in their order.
-/

namespace Hydrogenuine.MemoryLedger

open Support Hydrogenuine.Core

abbrev Items := List (String × PyVal)

/-! ## `schemas.py` -/

structure OperationControl where
  stopActive : Bool := false
  panicActive : Bool := false
  emergencyLock : Bool := false

def OperationControl.refuseReason (control : OperationControl) (stopBlocks : Bool) :
    Option String :=
  if control.panicActive || control.emergencyLock then some "REFUSED_PANIC"
  else if stopBlocks && control.stopActive then some "REFUSED_STOP"
  else none

/-- `raise MemoryLedgerError(reason)` where there is a reason. -/
def refuse : Option String → Except PyError Unit
  | some reason => .error (.valueError reason)
  | none => .ok ()

def refuseIf (condition : Bool) (reason : String) : Except PyError Unit :=
  refuse (if condition then some reason else none)

def requireFields (payload : Items) (fields : List String) : Except PyError Unit :=
  let missing := fields.filter fun field => (PyVal.item? payload field).isNone
  refuseIf (!missing.isEmpty) ("schema_violation:missing:" ++ ",".intercalate missing)

def asList (payload : Items) (key : String) : Except PyError (List PyVal) :=
  match PyVal.getItem payload key with
  | .none => .ok []
  | .list items => .ok items
  | _ => .error (.valueError ("schema_violation:" ++ key ++ "_must_be_list"))

def forbiddenGrants : List String :=
  ["grants_authority", "grant_authority", "authorizes_tool", "authorize_tool",
    "authorizes_live_action", "permits_live_action", "widens_scope"]

def authorityCreep : PyVal → Option String
  | .dict ref =>
      let grants (key : String) := (PyVal.getItem ref key).truthy
      if forbiddenGrants.any grants then
        if grants "grants_authority" || grants "grant_authority" then
          some "authority_reference_only:memory_cannot_grant_authority"
        else some "authority_bypass_attempt:authority_refs_are_reference_only"
      else none
  | .str _ => none
  | _ => some "schema_violation:authority_ref_must_be_string_or_object"

def rejectAuthorityCreep (authorityRefs : List PyVal) : Except PyError Unit :=
  refuse (authorityRefs.findSome? authorityCreep)

def requireReceipt (payload : Items) : Except PyError Unit := do
  let receiptRefs ← asList payload "receipt_refs"
  refuseIf receiptRefs.isEmpty
    "receipt_required:learning_or_success_requires_upstream_proof"

/-- `value in texts` for a set of texts. -/
def inTexts (texts : List String) : PyVal → Except PyError Bool
  | .str text => .ok (texts.contains text)
  | .list _ => .error (.typeError "unhashable type: 'list'")
  | .dict _ => .error (.typeError "unhashable type: 'dict'")
  | _ => .ok false

def learningEvents : List String := ["LEARNED", "LEARNING", "PROMOTION", "LESSON"]

def successResults : List String := ["success", "green", "passed"]

def selfAuthorizing : List String := ["self_authorizing", "authority_grant", "permit"]

def setDefault (items : Items) (key : String) (value : PyVal) : Items :=
  if (PyVal.item? items key).isSome then items else items ++ [(key, value)]

def memoryEventSchema : String := "memory_event_v1"

def experienceEntrySchema : String := "experience_ledger_entry_v1"

def validateMemoryEvent (payload : Items) : Except PyError Items := do
  requireFields payload
    ["event_type", "subject", "scope", "claim", "provenance_refs", "authority_refs",
      "receipt_refs", "confidence", "status", "claim_boundary"]
  let provenanceRefs ← asList payload "provenance_refs"
  let authorityRefs ← asList payload "authority_refs"
  let _ ← asList payload "receipt_refs"
  rejectAuthorityCreep authorityRefs
  let authorizes ← inTexts selfAuthorizing (PyVal.getItem payload "claim_boundary")
  refuseIf authorizes "self_authorization_rejected:memory_is_evidence_only"
  let learning ← inTexts learningEvents (PyVal.getItem payload "event_type")
  (if learning then requireReceipt payload else .ok ())
  refuseIf provenanceRefs.isEmpty "schema_violation:provenance_required"
  return setDefault (setDefault payload "schema" (.str memoryEventSchema)) "redaction" .none

section

variable (host : Host)

/-- `str(payload.get(key, "")).lower()`. -/
def lowered (payload : Items) (key : String) : String :=
  lower (host.str ((PyVal.item? payload key).getD (.str "")))

def validateExperienceEntry (payload : Items) : Except PyError Items := do
  requireFields payload
    ["task_id", "procedure", "inputs_hash", "outputs_hash", "result", "failure_mode",
      "receipt_refs", "proof_refs", "lessons_learned", "promotion_status", "authority_refs",
      "claim_boundary"]
  let _ ← asList payload "lessons_learned"
  let authorityRefs ← asList payload "authority_refs"
  rejectAuthorityCreep authorityRefs
  let success := successResults.contains (lowered host payload "result")
  (if success || lowered host payload "promotion_status" = "promoted" then
    (requireReceipt payload).mapError fun error =>
      if success then .valueError
        "fake_green_rejected:receipt_required:success_requires_receipt"
      else error
  else .ok ())
  let authorizes ← inTexts selfAuthorizing (PyVal.getItem payload "claim_boundary")
  refuseIf authorizes "self_authorization_rejected:experience_is_evidence_only"
  return setDefault payload "schema" (.str experienceEntrySchema)

def trustStatus (payload : Items) : String :=
  if lowered host payload "status" = "stale" then "stale_not_silently_trusted"
  else "evidence_only"

/-! ## Entries and their hashes -/

structure LedgerEntry where
  entryId : String
  schema : String
  createdAt : String
  payload : Items
  contentHash : String
  previousHash : String
  chainHash : String

def genesisHash : String := "sha256:phase26_genesis"

/-- `content_hash`: the encoding sorts the keys. -/
def contentHash (payload : Items) : String :=
  host.canonicalHash (PyVal.dict payload).canonical

/-- The items of the record in the order of their keys, but for the chain hash. -/
def LedgerEntry.body (entry : LedgerEntry) (entryId : Items) : PyVal :=
  .dict ([("content_hash", .str entry.contentHash), ("created_at", .str entry.createdAt)] ++
    entryId ++ [("payload", (PyVal.dict entry.payload).canonical),
      ("previous_hash", .str entry.previousHash), ("schema", .str entry.schema)])

def chainHash (entry : LedgerEntry) : String :=
  host.canonicalHash (entry.body [("entry_id", .str entry.entryId)])

def stableEntryId (entry : LedgerEntry) : String :=
  "p26-" ++ slice (host.sha256Hex (entry.body [])) 0 20

def LedgerEntry.stored (entry : LedgerEntry) : LedgerEntry :=
  { entry with
    payload := (PyVal.canonicalItems entry.payload).insertionSort fun a b => a.1 ≤ b.1 }

/-! ## The ledger -/

/-- `PersistentMemoryLedger`: the head that it remembers, and the lines of its file. -/
structure Ledger where
  head : Option String
  file : List LedgerEntry

def loadHead (file : List LedgerEntry) : Option String :=
  file.getLast?.map LedgerEntry.chainHash

/-- `PersistentMemoryLedger(path)`. -/
def Ledger.reopen (ledger : Ledger) : Ledger := { ledger with head := loadHead ledger.file }

def appendPayload (ledger : Ledger) (schema : String) (payload : Items)
    (createdAt : Option String) (now : String) : LedgerEntry × Ledger :=
  let base : LedgerEntry :=
    { entryId := ""
      schema := schema
      createdAt := orText createdAt now
      payload := payload
      contentHash := contentHash host payload
      previousHash := orText ledger.head genesisHash
      chainHash := "" }
  let identified := { base with entryId := stableEntryId host base }
  let entry := { identified with chainHash := chainHash host identified }
  (entry, ⟨some entry.chainHash, ledger.file ++ [entry.stored]⟩)

def appendMemoryEvent (ledger : Ledger) (payload : Items) (createdAt : Option String)
    (now : String) : Except PyError (LedgerEntry × Ledger) := do
  let data ← validateMemoryEvent payload
  return appendPayload host ledger memoryEventSchema data createdAt now

def appendExperienceEntry (ledger : Ledger) (payload : Items) (createdAt : Option String)
    (now : String) : Except PyError (LedgerEntry × Ledger) := do
  let data ← validateExperienceEntry host payload
  return appendPayload host ledger experienceEntrySchema data createdAt now

/-- What `verify_chain` carries from entry to entry. -/
structure ChainWalk where
  errors : List String := []
  previous : String := genesisHash
  head : Option String := none
  count : ℕ := 0

def ChainWalk.visit (walk : ChainWalk) (entry : LedgerEntry) : ChainWalk where
  errors := walk.errors ++
    (if entry.previousHash ≠ walk.previous then ["chain_break:" ++ entry.entryId] else []) ++
    (if contentHash host entry.payload ≠ entry.contentHash then
      ["content_hash_mismatch:" ++ entry.entryId] else []) ++
    (if chainHash host entry ≠ entry.chainHash then
      ["chain_hash_mismatch:" ++ entry.entryId] else [])
  previous := entry.chainHash
  head := some entry.chainHash
  count := walk.count + 1

structure ChainVerification where
  ok : Bool
  entriesChecked : ℕ
  headHash : Option String
  errors : List String

def verifyChain (file : List LedgerEntry) : ChainVerification :=
  let walk := file.foldl (ChainWalk.visit host) {}
  ⟨walk.errors.isEmpty, walk.count, walk.head, walk.errors⟩

structure QueryResult where
  entryId : String
  schema : String
  subject : PyVal
  claim : PyVal
  provenanceRefs : PyVal
  receiptRefs : PyVal
  authorityRefs : PyVal
  claimBoundary : PyVal
  trustStatus : String
  chainHash : String

/-- `payload.get("subject") or payload.get("task_id")`. -/
def subjectOf (payload : Items) : PyVal :=
  let subject := PyVal.getItem payload "subject"
  if subject.truthy then subject else PyVal.getItem payload "task_id"

def resultOf (entry : LedgerEntry) : QueryResult :=
  let refs (key : String) := (PyVal.item? entry.payload key).getD (.list [])
  { entryId := entry.entryId
    schema := entry.schema
    subject := subjectOf entry.payload
    claim := PyVal.getItem entry.payload "claim"
    provenanceRefs := refs "provenance_refs"
    receiptRefs := refs "receipt_refs"
    authorityRefs := refs "authority_refs"
    claimBoundary := PyVal.getItem entry.payload "claim_boundary"
    trustStatus := trustStatus host entry.payload
    chainHash := entry.chainHash }

def isAsked (subject : Option String) (entry : LedgerEntry) : Bool :=
  subject.all fun text =>
    text = "" || (PyVal.getItem entry.payload "subject").pyEq (.str text)

def query (ledger : Ledger) (subject : Option String) (control : OperationControl) :
    Except PyError (List QueryResult) := do
  refuse (control.refuseReason false)
  return (ledger.file.filter (isAsked subject)).map (resultOf host)

end

/-! ## Promotions and redactions -/

/-- `list(payload.get(key, []))` of a payload that was read. -/
def listOf (payload : Items) (key : String) : Except PyError (List PyVal) :=
  match PyVal.item? payload key with
  | none => .ok []
  | some (.list items) => .ok items
  | some (.str text) => .ok (text.toList.map fun c => .str (String.singleton c))
  | some (.dict items) => .ok (items.map fun item => .str item.1)
  | some .none => .error (.typeError "'NoneType' object is not iterable")
  | some (.bool _) => .error (.typeError "'bool' object is not iterable")
  | some (.int _) => .error (.typeError "'int' object is not iterable")
  | some (.float _) => .error (.typeError "'float' object is not iterable")

mutual

def holdsView : PyVal → Bool
  | .dict _ => true
  | .list items => holdsViewList items
  | _ => false

def holdsViewList : List PyVal → Bool
  | [] => false
  | value :: rest => holdsView value || holdsViewList rest

end

def find (ledger : Ledger) (entryId : String) : Except PyError LedgerEntry :=
  match ledger.file.find? fun entry => entry.entryId = entryId with
  | some target => .ok target
  | none => .error (.valueError "schema_violation:entry_not_found")

section

variable (host : Host) (renderView : PyVal → String)

/-- `append_memory_event` of a payload with parts of a payload that was read. -/
def appendDerived (ledger : Ledger) (read : List PyVal) (payload : Items)
    (createdAt : Option String) (now : String) : Except PyError (LedgerEntry × Ledger) := do
  let appended ← appendMemoryEvent host ledger payload createdAt now
  if holdsViewList read then
    .error (.typeError "Object of type mappingproxy is not JSON serializable")
  else return appended

def promoteLearning (ledger : Ledger) (entryId : String) (receiptRefs : List PyVal)
    (control : OperationControl) (createdAt : Option String) (now : String) :
    Except PyError (LedgerEntry × Ledger) := do
  refuse (control.refuseReason true)
  refuseIf receiptRefs.isEmpty "receipt_required:promotion_requires_receipt"
  let target ← find ledger entryId
  let authorityRefs ← listOf target.payload "authority_refs"
  appendDerived host ledger authorityRefs
    [("event_type", .str "PROMOTION"),
      ("subject", .str ((subjectOf target.payload).render renderView)),
      ("scope", .str "phase26"),
      ("claim", .str "learning promotion recorded with receipt"),
      ("provenance_refs", .list [.str target.chainHash]),
      ("authority_refs", .list authorityRefs),
      ("receipt_refs", .list receiptRefs),
      ("confidence", .str "verified"),
      ("status", .str "promoted"),
      ("claim_boundary", .str "evidence_only")] createdAt now

def redactionMarker (target : LedgerEntry) (authorityRefs receiptRefs : List PyVal)
    (reason : String) : Items :=
  [("event_type", .str "REDACTION_MARKER"),
    ("subject", .str ((subjectOf target.payload).render renderView)),
    ("scope", .str (((PyVal.item? target.payload "scope").getD (.str "phase26")).render
      renderView)),
    ("claim", .str "[REDACTED]"),
    ("provenance_refs", .list [.str target.chainHash]),
    ("authority_refs", .list authorityRefs),
    ("receipt_refs", .list receiptRefs),
    ("confidence", .str "verified"),
    ("status", .str "redacted_marker"),
    ("claim_boundary", .str "evidence_only"),
    ("redaction", .dict
      [("redacted_entry_id", .str target.entryId),
        ("original_chain_hash", .str target.chainHash),
        ("reason_hash", .str (contentHash host [("reason", .str reason)]))])]

def redact (ledger : Ledger) (entryId reason : String) (createdAt : Option String)
    (now : String) : Except PyError (LedgerEntry × Ledger) := do
  let target ← find ledger entryId
  let authorityRefs ← listOf target.payload "authority_refs"
  let receiptRefs ← listOf target.payload "receipt_refs"
  appendDerived host ledger (authorityRefs ++ receiptRefs)
    (redactionMarker host renderView target authorityRefs receiptRefs reason) createdAt now

/-! ## Calls -/

inductive LedgerCall where
  | appendMemoryEvent (payload : Items) (createdAt : Option String)
  | appendExperienceEntry (payload : Items) (createdAt : Option String)
  | promoteLearning (entryId : String) (receiptRefs : List PyVal) (control : OperationControl)
      (createdAt : Option String)
  | redact (entryId reason : String) (createdAt : Option String)
  | reopen

def afterCall (ledger : Ledger) : Except PyError (LedgerEntry × Ledger) → Ledger
  | .ok appended => appended.2
  | .error _ => ledger

def step (ledger : Ledger) (call : LedgerCall × String) : Ledger :=
  match call.1 with
  | .appendMemoryEvent payload createdAt =>
      afterCall ledger (appendMemoryEvent host ledger payload createdAt call.2)
  | .appendExperienceEntry payload createdAt =>
      afterCall ledger (appendExperienceEntry host ledger payload createdAt call.2)
  | .promoteLearning entryId receiptRefs control createdAt =>
      afterCall ledger
        (promoteLearning host renderView ledger entryId receiptRefs control createdAt call.2)
  | .redact entryId reason createdAt =>
      afterCall ledger (redact host renderView ledger entryId reason createdAt call.2)
  | .reopen => ledger.reopen

def run (calls : List (LedgerCall × String)) : Ledger :=
  calls.foldl (step host renderView) ⟨none, []⟩

end

/-! ## Hashes of what is read back -/

variable {host : Host} {renderView : PyVal → String}

theorem contentHash_stored (entry : LedgerEntry) :
    contentHash host entry.stored.payload = contentHash host entry.payload :=
  congrArg host.canonicalHash (PyVal.canonical_canonical (.dict entry.payload))

theorem chainHash_stored (entry : LedgerEntry) :
    chainHash host entry.stored = chainHash host entry := by
  have hpayload : (PyVal.dict entry.stored.payload).canonical =
      (PyVal.dict entry.payload).canonical :=
    PyVal.canonical_canonical (.dict entry.payload)
  rw [chainHash, chainHash, LedgerEntry.body, hpayload]
  rfl

variable (host) in
/-- The entry carries the hashes of its contents. -/
def SealedEntry (entry : LedgerEntry) : Prop :=
  contentHash host entry.payload = entry.contentHash ∧ chainHash host entry = entry.chainHash

variable (host) in
abbrev LedgerChain (start : String) (file : List LedgerEntry) : Prop :=
  Chained LedgerEntry.previousHash LedgerEntry.chainHash (SealedEntry host) start file

theorem orText_loadHead {file : List LedgerEntry} (h : LedgerChain host genesisHash file) :
    orText (loadHead file) genesisHash = endHash LedgerEntry.chainHash genesisHash file := by
  rcases List.eq_nil_or_concat' file with rfl | ⟨front, last, rfl⟩
  · rfl
  · obtain ⟨-, -, -, hhash⟩ := chained_concat.mp h
    have hne : last.chainHash ≠ "" := by
      intro hempty
      have hlength := congrArg String.length (hhash.trans hempty)
      rw [chainHash, Host.canonicalHash, String.length_append] at hlength
      cases Nat.eq_zero_of_add_eq_zero_right hlength
    rw [loadHead, List.getLast?_concat, Option.map_some, endHash_concat, orText, if_neg hne]

theorem errors_foldl_visit {file : List LedgerEntry} (walk : ChainWalk)
    (h : LedgerChain host walk.previous file) :
    (file.foldl (ChainWalk.visit host) walk).errors = walk.errors := by
  induction file generalizing walk with
  | nil => rfl
  | cons entry file ih =>
      obtain ⟨hlink, ⟨hcontent, hchain⟩, hrest⟩ := h
      rw [List.foldl_cons, ih (walk.visit host entry) hrest, ChainWalk.visit,
        if_neg (not_not.mpr hlink), if_neg (not_not.mpr hcontent), if_neg (not_not.mpr hchain),
        List.append_nil, List.append_nil, List.append_nil]

/-! ## Runs -/

variable (host) in
/-- The chain is intact, and the ledger remembers its end. -/
structure Intact (ledger : Ledger) : Prop where
  chain : LedgerChain host genesisHash ledger.file
  head : ledger.head = loadHead ledger.file

theorem Intact.verifyChain {ledger : Ledger} (h : Intact host ledger) :
    (verifyChain host ledger.file).ok = true := by
  rw [MemoryLedger.verifyChain, errors_foldl_visit {} h.chain]
  rfl

theorem Intact.appendPayload {ledger : Ledger} (h : Intact host ledger) (schema : String)
    (payload : Items) (createdAt : Option String) (now : String) :
    Intact host (appendPayload host ledger schema payload createdAt now).2 where
  chain := by
    refine chained_concat.mpr ⟨h.chain, ?_, contentHash_stored _, chainHash_stored _⟩
    rw [← orText_loadHead h.chain, ← h.head]
    rfl
  head := by
    rw [loadHead, MemoryLedger.appendPayload, List.getLast?_concat]
    rfl

theorem bind_eq_ok {α β : Type} {x : Except PyError α} {f : α → Except PyError β} {b : β}
    (h : (x >>= f) = .ok b) : ∃ a, x = .ok a ∧ f a = .ok b := by
  cases x with
  | error error => cases h
  | ok a => exact ⟨a, rfl, h⟩

section

variable {ledger : Ledger} {payload : Items} {createdAt : Option String} {now : String}
  {appended : LedgerEntry × Ledger}

theorem appendMemoryEvent_ok
    (h : appendMemoryEvent host ledger payload createdAt now = .ok appended) :
    ∃ data, validateMemoryEvent payload = .ok data ∧
      appended = appendPayload host ledger memoryEventSchema data createdAt now := by
  obtain ⟨data, hdata, hreturn⟩ := bind_eq_ok h
  cases hreturn
  exact ⟨data, hdata, rfl⟩

theorem appendDerived_ok {read : List PyVal}
    (h : appendDerived host ledger read payload createdAt now = .ok appended) :
    ∃ data, validateMemoryEvent payload = .ok data ∧
      appended = appendPayload host ledger memoryEventSchema data createdAt now := by
  obtain ⟨_, hevent, hreturn⟩ := bind_eq_ok h
  split_ifs at hreturn
  cases hreturn
  exact appendMemoryEvent_ok hevent

theorem redact_ok {entryId reason : String}
    (h : redact host renderView ledger entryId reason createdAt now = .ok appended) :
    ∃ target authorityRefs receiptRefs data,
      ledger.file.find? (fun entry => entry.entryId = entryId) = some target ∧
        validateMemoryEvent
            (redactionMarker host renderView target authorityRefs receiptRefs reason) =
          .ok data ∧
        appended = appendPayload host ledger memoryEventSchema data createdAt now := by
  obtain ⟨target, hfind, h⟩ := bind_eq_ok h
  obtain ⟨authorityRefs, -, h⟩ := bind_eq_ok h
  obtain ⟨receiptRefs, -, h⟩ := bind_eq_ok h
  obtain ⟨data, hdata, happended⟩ := appendDerived_ok h
  refine ⟨target, authorityRefs, receiptRefs, data, ?_, hdata, happended⟩
  unfold find at hfind
  cases hfound : ledger.file.find? fun entry => entry.entryId = entryId with
  | none =>
      rw [hfound] at hfind
      cases hfind
  | some found =>
      rw [hfound] at hfind
      cases hfind
      rfl

variable (host) in
/-- What the call returns is what it appended. -/
def Appends (ledger : Ledger) (outcome : Except PyError (LedgerEntry × Ledger)) : Prop :=
  ∀ appended, outcome = .ok appended → ∃ schema data createdAt now,
    appended = appendPayload host ledger schema data createdAt now

theorem appends_promoteLearning (entryId : String) (receiptRefs : List PyVal)
    (control : OperationControl) :
    Appends host ledger (promoteLearning host renderView ledger entryId receiptRefs control
      createdAt now) := by
  intro appended h
  obtain ⟨-, -, h⟩ := bind_eq_ok h
  obtain ⟨-, -, h⟩ := bind_eq_ok h
  obtain ⟨target, -, h⟩ := bind_eq_ok h
  obtain ⟨authorityRefs, -, h⟩ := bind_eq_ok h
  obtain ⟨data, -, happended⟩ := appendDerived_ok h
  exact ⟨_, data, _, _, happended⟩

theorem Appends.after {outcome : Except PyError (LedgerEntry × Ledger)}
    (h : Appends host ledger outcome) :
    afterCall ledger outcome = ledger ∨
      ∃ schema data createdAt now, afterCall ledger outcome =
        (appendPayload host ledger schema data createdAt now).2 := by
  cases outcome with
  | error error => exact Or.inl rfl
  | ok appended =>
      obtain ⟨schema, data, createdAt, now, happended⟩ := h appended rfl
      exact Or.inr ⟨schema, data, createdAt, now, congrArg Prod.snd happended⟩

theorem step_cases (ledger : Ledger) (call : LedgerCall × String) :
    (step host renderView ledger call = ledger ∨
        ∃ schema data createdAt now, step host renderView ledger call =
          (appendPayload host ledger schema data createdAt now).2) ∨
      step host renderView ledger call = ledger.reopen := by
  obtain ⟨call, now⟩ := call
  cases call with
  | appendMemoryEvent payload createdAt =>
      refine Or.inl (Appends.after fun appended h => ?_)
      obtain ⟨data, -, happended⟩ := appendMemoryEvent_ok h
      exact ⟨_, data, _, _, happended⟩
  | appendExperienceEntry payload createdAt =>
      refine Or.inl (Appends.after fun appended h => ?_)
      obtain ⟨data, -, hreturn⟩ := bind_eq_ok h
      cases hreturn
      exact ⟨_, data, _, _, rfl⟩
  | promoteLearning entryId receiptRefs control createdAt =>
      exact Or.inl (appends_promoteLearning entryId receiptRefs control).after
  | redact entryId reason createdAt =>
      refine Or.inl (Appends.after fun appended h => ?_)
      obtain ⟨-, -, -, data, -, -, happended⟩ := redact_ok h
      exact ⟨_, data, _, _, happended⟩
  | reopen => exact Or.inr rfl

end

theorem Intact.step {ledger : Ledger} (h : Intact host ledger) (call : LedgerCall × String) :
    Intact host (step host renderView ledger call) := by
  rcases @step_cases host renderView ledger call with
    (hsame | ⟨schema, data, createdAt, now, happend⟩) | hreopen
  · rw [hsame]
    exact h
  · rw [happend]
    exact h.appendPayload schema data createdAt now
  · rw [hreopen]
    exact ⟨h.chain, rfl⟩

theorem intact_run (calls : List (LedgerCall × String)) :
    Intact host (run host renderView calls) := by
  induction calls using List.reverseRecOn with
  | nil => exact ⟨trivial, rfl⟩
  | append_singleton calls call ih =>
      rw [run, List.foldl_concat]
      exact ih.step call

theorem file_foldl_step (calls : List (LedgerCall × String)) (ledger : Ledger) :
    ledger.file <+: (calls.foldl (step host renderView) ledger).file := by
  induction calls generalizing ledger with
  | nil => exact List.prefix_rfl
  | cons call calls ih =>
      refine List.IsPrefix.trans ?_ (ih (step host renderView ledger call))
      rcases @step_cases host renderView ledger call with
        (hsame | ⟨schema, data, createdAt, now, happend⟩) | hreopen
      · rw [hsame]
      · rw [happend]
        exact List.prefix_append _ _
      · rw [hreopen]
        exact List.prefix_rfl

/-! ## Redactions -/

theorem query_of_prefix {ledger ledger' : Ledger} (h : ledger.file <+: ledger'.file)
    {subject : Option String} {control : OperationControl} {results : List QueryResult}
    (hquery : query host ledger subject control = .ok results) :
    ∃ more, query host ledger' subject control = .ok (results ++ more) := by
  obtain ⟨more, hmore⟩ := h
  obtain ⟨_, hcontrol, hreturn⟩ := bind_eq_ok hquery
  cases hreturn
  refine ⟨(more.filter (isAsked subject)).map (resultOf host), ?_⟩
  rw [query, hcontrol, ← hmore, List.filter_append, List.map_append]
  rfl

theorem query_all (ledger : Ledger) :
    query host ledger none {} = .ok (ledger.file.map (resultOf host)) := by
  have hall : ledger.file.filter (isAsked none) = ledger.file :=
    List.filter_eq_self.mpr fun _ _ => rfl
  rw [query, hall]
  rfl

theorem validateMemoryEvent_ok {payload data : Items}
    (h : validateMemoryEvent payload = .ok data) :
    data = setDefault (setDefault payload "schema" (.str memoryEventSchema)) "redaction"
      .none := by
  obtain ⟨-, -, h⟩ := bind_eq_ok h
  obtain ⟨provenanceRefs, -, h⟩ := bind_eq_ok h
  obtain ⟨authorityRefs, -, h⟩ := bind_eq_ok h
  obtain ⟨-, -, h⟩ := bind_eq_ok h
  obtain ⟨-, -, h⟩ := bind_eq_ok h
  obtain ⟨authorizes, -, h⟩ := bind_eq_ok h
  obtain ⟨-, -, h⟩ := bind_eq_ok h
  obtain ⟨learning, -, h⟩ := bind_eq_ok h
  obtain ⟨-, -, h⟩ := bind_eq_ok h
  obtain ⟨-, -, h⟩ := bind_eq_ok h
  cases h
  rfl

variable (host) in
/-- The marker names the entry by its identifier and its hash and claims nothing, and the
entry is still among the results of `query`, as every entry before it. -/
structure Marks (ledger ledger' : Ledger) (entryId : String) (target marker : LedgerEntry) :
    Prop where
  found : ledger.file.find? (fun entry => entry.entryId = entryId) = some target
  appended : ledger.file ++ [marker.stored] <+: ledger'.file
  claim : PyVal.getItem marker.payload "claim" = .str "[REDACTED]"
  redaction : ∃ reasonHash, PyVal.getItem marker.payload "redaction" =
    .dict [("redacted_entry_id", .str target.entryId),
      ("original_chain_hash", .str target.chainHash), ("reason_hash", .str reasonHash)]
  returned : ∃ results, query host ledger' none {} = .ok results ∧
    resultOf host target ∈ results
  kept : ∀ subject control results, query host ledger subject control = .ok results →
    ∃ more, query host ledger' subject control = .ok (results ++ more)

theorem redact_marks {ledger ledger' : Ledger} {entryId reason : String}
    {createdAt : Option String} {now : String} {marker : LedgerEntry}
    (h : redact host renderView ledger entryId reason createdAt now = .ok (marker, ledger'))
    (calls : List (LedgerCall × String)) :
    ∃ target, Marks host ledger (calls.foldl (step host renderView) ledger') entryId target
      marker := by
  obtain ⟨target, authorityRefs, receiptRefs, data, hfound, hdata, happended⟩ := redact_ok h
  have hlater := @file_foldl_step host renderView calls ledger'
  obtain rfl := validateMemoryEvent_ok hdata
  obtain ⟨rfl, rfl⟩ := Prod.mk.injEq _ _ _ _ ▸ happended
  have hkeeps := (List.prefix_append _ _).trans hlater
  refine ⟨target, hfound, hlater, rfl, ⟨_, rfl⟩, ?_, fun _ _ _ => query_of_prefix hkeeps⟩
  obtain ⟨more, hmore⟩ := query_of_prefix hkeeps (query_all ledger)
  exact ⟨_, hmore, List.mem_append_left _
    (List.mem_map_of_mem (List.mem_of_find?_eq_some hfound))⟩

/-- After every run the chain verifies and a new head is the old one, and a redaction only
adds a marker. -/
theorem redaction_only_marks (host : Host) (renderView : PyVal → String) :
    (∀ calls, (verifyChain host (run host renderView calls).file).ok = true ∧
      (run host renderView calls).reopen = run host renderView calls) ∧
      ∀ before after entryId reason createdAt now marker ledger',
        redact host renderView (run host renderView before) entryId reason createdAt now =
            .ok (marker, ledger') →
          ∃ target, Marks host (run host renderView before)
            (run host renderView (before ++ (.redact entryId reason createdAt, now) :: after))
            entryId target marker := by
  refine ⟨fun calls => ?_, ?_⟩
  · have hintact := @intact_run host renderView calls
    refine ⟨hintact.verifyChain, ?_⟩
    rw [Ledger.reopen, ← hintact.head]
  · intro before after entryId reason createdAt now marker ledger' h
    have hstep : step host renderView (run host renderView before)
        (.redact entryId reason createdAt, now) = ledger' :=
      congrArg (afterCall (run host renderView before)) h
    have hrun : run host renderView (before ++ (.redact entryId reason createdAt, now) :: after) =
        after.foldl (step host renderView) ledger' := by
      rw [← hstep, run, List.foldl_append, List.foldl_cons]
      rfl
    rw [hrun]
    exact redact_marks h after

/-! ## What the head stands for -/

theorem errors_foldl_visit_eq_nil_iff {file : List LedgerEntry} (walk : ChainWalk) :
    (file.foldl (ChainWalk.visit host) walk).errors = [] ↔
      walk.errors = [] ∧ LedgerChain host walk.previous file := by
  induction file generalizing walk with
  | nil => exact (and_iff_left trivial).symm
  | cons entry file ih =>
      rw [List.foldl_cons, ih]
      simp only [ChainWalk.visit, LedgerChain, Chained, SealedEntry, List.append_eq_nil_iff,
        ite_eq_right_iff, List.cons_ne_nil, imp_false, not_not, and_assoc]

theorem head_foldl_visit (file : List LedgerEntry) :
    (verifyChain host file).headHash = loadHead file := by
  rcases List.eq_nil_or_concat' file with rfl | ⟨front, last, rfl⟩
  · rfl
  · rw [verifyChain, loadHead, List.foldl_concat, List.getLast?_concat]
    rfl

/-- Two entries with the same sealed contents. -/
def SameContents (entry entry' : LedgerEntry) : Prop :=
  entry.body [("entry_id", .str entry.entryId)] =
    entry'.body [("entry_id", .str entry'.entryId)]

/-- The head that an operator has noted stands for the ledger of the run: every file that
verifies and ends in it holds the same entries in the same order. -/
theorem head_binds_ledger
    (host : Host) (renderView : PyVal → String) (calls : List (LedgerCall × String))
    (file : List LedgerEntry) (hverified : (verifyChain host file).ok = true)
    (hhead : (verifyChain host file).headHash =
      (verifyChain host (run host renderView calls).file).headHash)
    (hfree : ∀ entry ∈ (run host renderView calls).file, ∀ entry' ∈ file,
      chainHash host entry = chainHash host entry' → SameContents entry entry')
    (hgenesis : ∀ entry, chainHash host entry ≠ genesisHash) :
    List.Forall₂ SameContents (run host renderView calls).file file := by
  have hrun := (@intact_run host renderView calls).chain
  have hfile : LedgerChain host genesisHash file :=
    ((errors_foldl_visit_eq_nil_iff {}).mp (List.isEmpty_iff.mp hverified)).2
  rw [head_foldl_visit, head_foldl_visit] at hhead
  refine forall₂_of_endHash_eq ?_ ?_ hrun hfile ?_
  · rintro entry hentry entry' hentry' ⟨-, hsealed⟩ ⟨-, hsealed'⟩ hsame
    have hbody := hfree entry hentry entry' hentry'
      (hsealed.trans (hsame.trans hsealed'.symm))
    have hfields := hbody
    simp only [SameContents, LedgerEntry.body, PyVal.dict.injEq, List.cons_append,
      List.nil_append, List.cons.injEq, Prod.mk.injEq, PyVal.str.injEq, true_and] at hfields
    exact ⟨hbody, hfields.2.2.2.2.1⟩
  · rintro entry ⟨-, hsealed⟩ hstart
    exact hgenesis entry (hsealed.trans hstart)
  · rw [← orText_loadHead hrun, ← orText_loadHead hfile, hhead]

def vaultEvent : Items :=
  [("event_type", .str "NOTE"), ("subject", .str "vault"), ("scope", .str "phase26"),
    ("claim", .str "the code is 4711"), ("provenance_refs", .list [.str "ter-1"]),
    ("authority_refs", .list []), ("receipt_refs", .list []), ("confidence", .str "low"),
    ("status", .str "open"), ("claim_boundary", .str "evidence_only")]

def vaultCalls : List (LedgerCall × String) :=
  [(.appendMemoryEvent vaultEvent none, "2026-03-01T10:00:00.000000Z")]

def vaultId : String :=
  ((run referenceHost (fun _ => "") vaultCalls).file.head?.map LedgerEntry.entryId).getD ""

def vaultRedacted : Ledger :=
  run referenceHost (fun _ => "")
    (vaultCalls ++ [(.redact vaultId "sensitive" none, "2026-03-01T11:00:00.000000Z")])

theorem head_binds_vault :
    List.Forall₂ SameContents (run referenceHost (fun _ => "") vaultCalls).file
      (run referenceHost (fun _ => "") vaultCalls).file := by
  obtain ⟨noted, hfile⟩ : ∃ noted, (run referenceHost (fun _ => "") vaultCalls).file =
      [noted] := List.length_eq_one_iff.mp (by decide +kernel)
  refine head_binds_ledger referenceHost (fun _ => "") vaultCalls _ (intact_run _).verifyChain
    rfl ?_ fun entry hgenesis => ?_
  · rw [hfile]
    rintro entry hentry entry' hentry' -
    rw [List.mem_singleton.mp hentry, List.mem_singleton.mp hentry', SameContents]
  · have hlength := congrArg (fun text => text.toList.length) hgenesis
    simp [chainHash, Host.canonicalHash, referenceHost, digestHex, genesisHash] at hlength

theorem redacted_claim_returned :
    (redact referenceHost (fun _ => "") (run referenceHost (fun _ => "") vaultCalls) vaultId
        "sensitive" none "2026-03-01T11:00:00.000000Z").isOk = true ∧
      ∃ results, query referenceHost vaultRedacted none {} = .ok results ∧
        ∃ result ∈ results, result.entryId = vaultId ∧
          result.claim = .str "the code is 4711" := by
  refine ⟨by decide +kernel, _, query_all _, ?_⟩
  have hkept : (vaultRedacted.file.any fun entry => entry.entryId = vaultId &&
      (PyVal.getItem entry.payload "claim").pyEq (.str "the code is 4711")) = true := by
    decide +kernel
  obtain ⟨entry, hmem, hentry⟩ := List.any_eq_true.mp hkept
  rw [Bool.and_eq_true, decide_eq_true_iff, PyVal.pyEq_str_iff] at hentry
  exact ⟨_, List.mem_map_of_mem hmem, hentry⟩

end Hydrogenuine.MemoryLedger
