import Hydrogenuine.Ownership.Transaction

/-!
# The ownership protocol

Embedding of `hg_core/ownership/ownership_protocol.py`, of the ledger it appends to and
of `is_transfer_effective`.  An operation appends its event to the ledger, which is a
transaction of its own, and then updates the record by compare-and-set;
`resolve_contested` compares the version before it appends.  The closures that the
operations pass to the compare-and-set have names of their own.

Store and ledger are those of one run in one database.  A call reads the clock at one
time.  Of a claim the keys that are read are kept, also in the payload of its event.
-/

namespace Hydrogenuine.Ownership

open Support

/-- What a call takes from outside: the run of its store and ledger, the time, the
`uuid4`s of a token and an event, and how floats are shown. -/
structure Call where
  runId : String
  now : ℚ
  tokenUuid : String
  eventUuid : String
  reprFloat : ℚ → String

/-- The dictionary that an operation returns. -/
structure ProtocolResult where
  ok : Bool
  error : Option String := none
  tokenId : Option String := none
  ackDeadlineTs : Option ℚ := none
  newVersion : Option ℤ := none
  newExpiryTs : Option ℚ := none
  winnerActor : Option String := none
deriving DecidableEq

/-! ## The ledger -/

/-- `OwnershipLedger.append`. -/
def Tables.ledgerAppend
    (tables : Tables) (env : Call) (taskId type actor : String)
    (payload : Dict String PyVal) (expectedVersion : Option ℤ) : Tables :=
  Write.apply tables (.insertEvent
    ⟨env.runId, taskId, env.eventUuid, type, actor, env.now, expectedVersion, payload⟩)

def Call.time (env : Call) (t : ℚ) : PyVal := .float (.finite t (env.reprFloat t))

/-! ## Operations -/

section Operations

variable (env : Call) (tables : Tables)

/-- What most operations do: append the event, then update by compare-and-set. -/
def recordThenUpdate
    (taskId type actor : String) (payload : Dict String PyVal) (expectedVersion : ℤ)
    (mutate : OwnershipRecord → OwnershipRecord) (returns : OwnershipRecord → ProtocolResult)
    (refused : ProtocolResult) : ProtocolResult × Tables :=
  let appended :=
    tables.ledgerAppend env taskId type actor payload (some expectedVersion)
  match appended.casUpdate ⟨env.runId, taskId, expectedVersion, mutate, env.now⟩ with
  | (.ok updated, after) => (returns updated, after)
  | (.error error, after) => ({ refused with error := some error }, after)

def versionOf (updated : OwnershipRecord) : ProtocolResult :=
  { ok := true, newVersion := some updated.version }

/-- `mut` of `offer_ownership`. -/
def offerMut (record : OwnershipRecord) : OwnershipRecord :=
  { record with state := "assigned" }

def offerOwnership
    (taskId actor offeredTo : String) (leaseTtlS ackDeadlineS expectedVersion : ℤ)
    (rolesDelta : List (String × PyVal)) : ProtocolResult × Tables :=
  let ackDeadlineTs := env.now + ackDeadlineS
  recordThenUpdate env tables taskId "offer_ownership" actor
    (.ofList [("token_id", .str env.tokenUuid), ("to", .str offeredTo),
      ("lease_ttl_s", .int leaseTtlS), ("ack_deadline_ts", env.time ackDeadlineTs),
      ("roles_delta", .dict rolesDelta)])
    expectedVersion offerMut
    (fun updated =>
      { ok := true
        tokenId := some env.tokenUuid
        ackDeadlineTs := some ackDeadlineTs
        newVersion := some updated.version })
    { ok := false, tokenId := some env.tokenUuid }

/-- `mut` of `accept_ownership`. -/
def acceptMut
    (actor tokenId : String) (leaseTtlS : ℤ) (record : OwnershipRecord) :
    OwnershipRecord :=
  { record with
    state := "acknowledged"
    currentTokenId := tokenId
    executorId := actor
    leaseExpiresTs := env.now + leaseTtlS }

def acceptOwnership
    (taskId actor tokenId : String) (leaseTtlS expectedVersion : ℤ) :
    ProtocolResult × Tables :=
  recordThenUpdate env tables taskId "accept_ownership" actor
    (.ofList [("token_id", .str tokenId)]) expectedVersion
    (acceptMut env actor tokenId leaseTtlS) versionOf { ok := false }

def declineOwnership
    (taskId actor tokenId reason : String) (expectedVersion : ℤ) :
    ProtocolResult × Tables :=
  ({ ok := true },
    tables.ledgerAppend env taskId "decline_ownership" actor
      (.ofList [("token_id", .str tokenId), ("reason", .str reason)])
      (some expectedVersion))

/-- `mut` of `renew_lease`. -/
def renewMut
    (tokenId : String) (newExpiryTs : ℚ) (record : OwnershipRecord) : OwnershipRecord :=
  if record.currentTokenId = tokenId then { record with leaseExpiresTs := newExpiryTs }
  else record

def renewLease
    (taskId actor tokenId : String) (newTtlS expectedVersion : ℤ) :
    ProtocolResult × Tables :=
  let newExpiryTs := env.now + newTtlS
  recordThenUpdate env tables taskId "renew_lease" actor
    (.ofList [("token_id", .str tokenId), ("new_expiry_ts", env.time newExpiryTs)])
    expectedVersion (renewMut tokenId newExpiryTs)
    (fun updated => { versionOf updated with newExpiryTs := some newExpiryTs })
    { ok := false }

/-- `mut` of `release_ownership`. -/
def releaseMut (tokenId : String) (record : OwnershipRecord) : OwnershipRecord :=
  if record.currentTokenId = tokenId then
    { record with
      state := "completed"
      currentTokenId := ""
      executorId := ""
      leaseExpiresTs := 0 }
  else record

def releaseOwnership
    (taskId actor tokenId : String) (expectedVersion : ℤ)
    (nextOffer : Option (List (String × PyVal))) : ProtocolResult × Tables :=
  recordThenUpdate env tables taskId "release_ownership" actor
    (.ofList (("token_id", .str tokenId) ::
      (nextOffer.toList.map fun offer => ("next_offer", .dict offer))))
    expectedVersion (releaseMut tokenId) versionOf { ok := false }

/-- `mut` of `set_pending_review`. -/
def pendingReviewMut
    (approverSpec escalationSpec : Dict String PyVal) (checkpointId : String)
    (record : OwnershipRecord) : OwnershipRecord :=
  { record with
    state := "pending_review"
    approverSpec := some approverSpec
    escalationSpec := some escalationSpec
    checkpointId := some checkpointId }

def setPendingReview
    (taskId actor : String) (approverSpec escalationSpec : Dict String PyVal) (slaS : ℤ)
    (checkpointId : String) (expectedVersion : ℤ) : ProtocolResult × Tables :=
  recordThenUpdate env tables taskId "set_pending_review" actor
    (.ofList [("approver_spec", .dict approverSpec.entries),
      ("escalation_spec", .dict escalationSpec.entries), ("sla_s", .int slaS),
      ("checkpoint_id", .str checkpointId)])
    expectedVersion (pendingReviewMut approverSpec escalationSpec checkpointId) versionOf
    { ok := false }

/-- `mut` of `approve_review` and `deny_review`, which differ in the state they set. -/
def reviewedMut
    (state checkpointId : String) (record : OwnershipRecord) : OwnershipRecord :=
  if record.checkpointId = some checkpointId then
    { record with state := state, checkpointId := none }
  else record

def reviewPayload (checkpointId decision : String) (comment : Option String) :
    Dict String PyVal :=
  .ofList (("checkpoint_id", .str checkpointId) :: ("decision", .str decision) ::
    comment.toList.map fun text => ("comment", .str text))

def approveReview
    (taskId actor checkpointId : String) (expectedVersion : ℤ) (decision : String)
    (comment : Option String) : ProtocolResult × Tables :=
  recordThenUpdate env tables taskId "approve_review" actor
    (reviewPayload checkpointId decision comment) expectedVersion
    (reviewedMut "in_progress" checkpointId) versionOf { ok := false }

def denyReview
    (taskId actor checkpointId : String) (expectedVersion : ℤ) (decision : String)
    (comment : Option String) : ProtocolResult × Tables :=
  recordThenUpdate env tables taskId "deny_review" actor
    (reviewPayload checkpointId decision comment) expectedVersion
    (reviewedMut "completed" checkpointId) versionOf { ok := false }

/-- `mut` of `abandon_ownership`. -/
def abandonMut (record : OwnershipRecord) : OwnershipRecord :=
  { record with
    state := "abandoned"
    executorId := ""
    currentTokenId := ""
    leaseExpiresTs := 0 }

def abandonOwnership
    (taskId actor : String) (expectedVersion : ℤ) (reason : String) :
    ProtocolResult × Tables :=
  recordThenUpdate env tables taskId "abandoned" actor (.ofList [("reason", .str reason)])
    expectedVersion abandonMut versionOf { ok := false }

def Claim.toValue (claim : Claim) : PyVal :=
  .dict ((claim.tokenId.toList.map fun tokenId => ("token_id", .str tokenId)) ++
    (claim.actor.toList.map fun actor => ("actor", .str actor)))

/-- `mut` of `mark_contested`. -/
def contestedMut (claims : List Claim) (record : OwnershipRecord) : OwnershipRecord :=
  { record with state := "contested", contestedClaims := some claims }

def markContested
    (taskId actor : String) (claims : List Claim) (expectedVersion : ℤ) :
    ProtocolResult × Tables :=
  recordThenUpdate env tables taskId "contested" actor
    (.ofList [("claims", .list (claims.map Claim.toValue))]) expectedVersion
    (contestedMut claims) versionOf { ok := false }

/-- `min` of the actors of a non-empty list of claims. -/
def leastActor : List Claim → String
  | [] => ""
  | claim :: claims =>
      claims.foldl (fun least other =>
        if other.actor.getD "" < least then other.actor.getD "" else least)
        (claim.actor.getD "")

/-- `mut` of `resolve_contested`. -/
def resolveMut (winner : String) (record : OwnershipRecord) : OwnershipRecord :=
  let claimed := (record.contestedClaims.getD []).find? fun claim =>
    claim.actor = some winner
  { record with
    state := "acknowledged"
    executorId := winner
    contestedClaims := none
    currentTokenId :=
      match claimed with
      | some claim => claim.tokenId.getD ""
      | none => record.currentTokenId }

def resolveContested
    (taskId actor : String) (expectedVersion : ℤ) (winnerActor : Option String) :
    ProtocolResult × Tables :=
  let record := tables.getTask env.runId taskId
  let claims := record.contestedClaims.getD []
  if record.state ≠ "contested" ∨ claims = [] then
    ({ ok := false, error := some "NOT_CONTESTED" }, tables)
  else if record.version ≠ expectedVersion then
    ({ ok := false, error := some "VERSION_CONFLICT" }, tables)
  else
    let winner := winnerActor.getD (leastActor claims)
    recordThenUpdate env tables taskId "resolve_contested" actor
      (.ofList [("winner_actor", .str winner)]) expectedVersion (resolveMut winner)
      (fun updated => { versionOf updated with winnerActor := some winner })
      { ok := false }

end Operations

/-! ## Operations as inputs -/

/-- An operation with its arguments. -/
inductive OwnershipOp where
  | offer (taskId actor offeredTo : String) (leaseTtlS ackDeadlineS expectedVersion : ℤ)
      (rolesDelta : List (String × PyVal))
  | accept (taskId actor tokenId : String) (leaseTtlS expectedVersion : ℤ)
  | decline (taskId actor tokenId reason : String) (expectedVersion : ℤ)
  | renew (taskId actor tokenId : String) (newTtlS expectedVersion : ℤ)
  | release (taskId actor tokenId : String) (expectedVersion : ℤ)
      (nextOffer : Option (List (String × PyVal)))
  | pendingReview (taskId actor : String) (approverSpec escalationSpec : Dict String PyVal)
      (slaS : ℤ) (checkpointId : String) (expectedVersion : ℤ)
  | approve (taskId actor checkpointId : String) (expectedVersion : ℤ)
      (decision : String) (comment : Option String)
  | deny (taskId actor checkpointId : String) (expectedVersion : ℤ)
      (decision : String) (comment : Option String)
  | abandon (taskId actor : String) (expectedVersion : ℤ) (reason : String)
  | contest (taskId actor : String) (claims : List Claim) (expectedVersion : ℤ)
  | resolve (taskId actor : String) (expectedVersion : ℤ) (winnerActor : Option String)

namespace OwnershipOp

def taskId : OwnershipOp → String
  | .offer taskId .. | .accept taskId .. | .decline taskId .. | .renew taskId ..
  | .release taskId .. | .pendingReview taskId .. | .approve taskId ..
  | .deny taskId .. | .abandon taskId .. | .contest taskId .. | .resolve taskId .. =>
      taskId

def expectedVersion : OwnershipOp → ℤ
  | .offer _ _ _ _ _ expectedVersion _ => expectedVersion
  | .accept _ _ _ _ expectedVersion => expectedVersion
  | .decline _ _ _ _ expectedVersion => expectedVersion
  | .renew _ _ _ _ expectedVersion => expectedVersion
  | .release _ _ _ expectedVersion _ => expectedVersion
  | .pendingReview _ _ _ _ _ _ expectedVersion => expectedVersion
  | .approve _ _ _ expectedVersion _ _ => expectedVersion
  | .deny _ _ _ expectedVersion _ _ => expectedVersion
  | .abandon _ _ expectedVersion _ => expectedVersion
  | .contest _ _ _ expectedVersion => expectedVersion
  | .resolve _ _ expectedVersion _ => expectedVersion

def perform (env : Call) (tables : Tables) : OwnershipOp → ProtocolResult × Tables
  | .offer taskId actor offeredTo leaseTtlS ackDeadlineS expectedVersion rolesDelta =>
      offerOwnership env tables taskId actor offeredTo leaseTtlS ackDeadlineS expectedVersion
        rolesDelta
  | .accept taskId actor tokenId leaseTtlS expectedVersion =>
      acceptOwnership env tables taskId actor tokenId leaseTtlS expectedVersion
  | .decline taskId actor tokenId reason expectedVersion =>
      declineOwnership env tables taskId actor tokenId reason expectedVersion
  | .renew taskId actor tokenId newTtlS expectedVersion =>
      renewLease env tables taskId actor tokenId newTtlS expectedVersion
  | .release taskId actor tokenId expectedVersion nextOffer =>
      releaseOwnership env tables taskId actor tokenId expectedVersion nextOffer
  | .pendingReview taskId actor approverSpec escalationSpec slaS checkpointId
      expectedVersion =>
      setPendingReview env tables taskId actor approverSpec escalationSpec slaS
        checkpointId expectedVersion
  | .approve taskId actor checkpointId expectedVersion decision comment =>
      approveReview env tables taskId actor checkpointId expectedVersion decision comment
  | .deny taskId actor checkpointId expectedVersion decision comment =>
      denyReview env tables taskId actor checkpointId expectedVersion decision comment
  | .abandon taskId actor expectedVersion reason =>
      abandonOwnership env tables taskId actor expectedVersion reason
  | .contest taskId actor claims expectedVersion =>
      markContested env tables taskId actor claims expectedVersion
  | .resolve taskId actor expectedVersion winnerActor =>
      resolveContested env tables taskId actor expectedVersion winnerActor

end OwnershipOp

/-! ## Whether a transfer is effective -/

def OwnershipEvent.listedType (e : OwnershipEvent) : Option String :=
  e.text? "type" (some e.type)

def OwnershipEvent.answer (e : OwnershipEvent) : Option Bool :=
  let acceptance := e.text? "acceptance" none
  let receipt := e.listedType = some "handoff_receipt"
  if e.listedType = some "accept_ownership" then some true
  else if receipt ∧ (acceptance = some "accept" ∨
      acceptance = some "accept_with_changes") then some true
  else if e.listedType = some "decline_ownership" ∨
      receipt ∧ acceptance = some "reject" then some false
  else none

def Tables.isTransferEffective (tables : Tables) (runId taskId : String) : Bool :=
  let record := tables.getTask runId taskId
  if record.state = "acknowledged" ∧ record.executorId ≠ "" then true
  else
    let offered := fun e : OwnershipEvent =>
      decide (e.listedType = some "offer_ownership" ∨
        e.listedType = some "handoff_offer")
    let sinceOffer :=
      ((tables.listEvents runId taskId).reverse.takeWhile fun e => !offered e).reverse
    ((sinceOffer.filterMap OwnershipEvent.answer).head?).getD false

end Hydrogenuine.Ownership
