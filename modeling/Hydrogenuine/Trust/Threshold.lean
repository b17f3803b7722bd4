import Hydrogenuine.Core.ReferenceHost
import Hydrogenuine.Support.Dict
import Hydrogenuine.Support.Machine

/-!
# Threshold actions and issuer groups

Embedding of `hg_core/trust/threshold.py` and `trust/issuer_governance.py`.  The two
directories of documents are dictionaries by file name.  The events that the calls emit
are left out.  What a signature or a finalization writes is a function of the document
that it read, so that the two steps can be told apart.

The group that an action was proposed for is kept beside the documents, for the
statements; nothing reads it.
-/

namespace Hydrogenuine.Trust

open Support Hydrogenuine.Core

abbrev Items := List (String × PyVal)

/-! ## The clock -/

/-- `isoformat` of a UTC time, which leaves out a fraction of zero. -/
def isoformat (instant : ℤ) : String :=
  let days := instant / 86400000000
  let rest := instant - days * 86400000000
  let (year, month, day) := civilFromDays days
  let fraction := if rest % 1000000 = 0 then [] else '.' :: padded 6 (rest % 1000000)
  String.ofList
    (padded 4 year ++ '-' :: padded 2 month ++ '-' :: padded 2 day ++
      'T' :: padded 2 (rest / 3600000000) ++
      ':' :: padded 2 (rest / 60000000 % 60) ++
      ':' :: padded 2 (rest / 1000000 % 60) ++ fraction)

/-- `_iso_ts` at an instant in microseconds. -/
def isoTs (now : ℤ) : String := isoformat now ++ "Z"

/-! ## Documents -/

structure IssuerGroup where
  groupId : String
  members : List String
  quorumM : ℤ
  quorumN : ℤ
  permittedTypes : List String
  ts : String
  expiresTs : Option String

structure Signature where
  signerId : String
  signaturePayload : Items
  ts : String

structure ThresholdAction where
  actionId : String
  actionType : String
  scope : List (String × String)
  proposedTs : String
  expiresTs : String
  quorumM : ℤ
  quorumN : ℤ
  payloadRef : Items
  signatures : List Signature := []
  finalizedTs : Option String := none

structure TrustStore where
  groups : Dict String IssuerGroup := Dict.empty
  actions : Dict String ThresholdAction := Dict.empty
  groupOf : Dict String String := Dict.empty

/-! ## Issuer groups -/

namespace TrustStore

variable (store : TrustStore)

def publishIssuerGroup (now : ℤ) (groupId : String) (members : List String)
    (quorumM quorumN : ℤ) (permittedTypes : List String) (expiresTs : Option String) :
    TrustStore :=
  { store with
    groups := store.groups.set groupId
      { groupId, members, quorumM, quorumN, permittedTypes
        ts := isoTs now
        expiresTs := if isText expiresTs then expiresTs else none } }

def addIssuerGroupMember (groupId memberDid : String) : TrustStore :=
  match store.groups.get? groupId with
  | none => store
  | some group =>
      if memberDid ∈ group.members then store
      else
        { store with
          groups := store.groups.set groupId
            { group with members := group.members ++ [memberDid] } }

def removeIssuerGroupMember (groupId memberDid : String) : TrustStore :=
  match store.groups.get? groupId with
  | none => store
  | some group =>
      if memberDid ∈ group.members then
        { store with
          groups := store.groups.set groupId
            { group with members := group.members.filter fun m => m ≠ memberDid } }
      else store

def checkIssuerQuorumForType (groupId credentialType : String) : Bool × String :=
  match store.groups.get? groupId with
  | none => (false, "group_not_found")
  | some group =>
      if credentialType ∉ group.permittedTypes then (false, "type_not_permitted")
      else if 0 < group.quorumN ∧ group.members.length < group.quorumN then
        (false, "insufficient_members")
      else (true, "")

/-! ## Proposals -/

def actionIdAt (host : Host) (now : ℤ) (actionType : String) : String :=
  "tact_" ++ slice (host.sha256Text (actionType ++ ":" ++ isoTs now)) 0 16

def proposeThresholdAction (host : Host) (now : ℤ) (actionType : String)
    (scope : List (String × String)) (quorumM quorumN : ℤ) (payloadRef : Items)
    (expiresTs : Option String) : String × TrustStore :=
  let actionId := actionIdAt host now actionType
  (actionId,
    { store with
      actions := store.actions.set actionId
        { actionId, actionType, scope
          proposedTs := isoTs now
          expiresTs := expiresTs.getD ""
          quorumM, quorumN, payloadRef } })

end TrustStore

/-- A proposal for an issuer group, for the type of a credential or for one. -/
structure VcProposal where
  groupId : String
  /-- The `credential_type` of an issuance, the `vc_id` of a revocation. -/
  subject : String
  payloadRef : Items
  scope : List (String × String)
  expiresTs : Option String

/-- `{**base, **extra}`. -/
def mergeItems (base extra : Items) : Items :=
  extra.foldl (fun items entry => PyVal.setItem items entry.1 entry.2) base

/-- The proposal as a threshold action with the quorum of its group. -/
def TrustStore.proposeVc (store : TrustStore) (host : Host) (now : ℤ)
    (actionType subjectKey : String) (proposal : VcProposal) :
    Except PyError String × TrustStore :=
  match store.groups.get? proposal.groupId with
  | none => (.error (.valueError ("issuer group not found: " ++ proposal.groupId)), store)
  | some group =>
      let payloadRef := mergeItems
        [("group_id", .str proposal.groupId), (subjectKey, .str proposal.subject)]
        proposal.payloadRef
      let proposed := store.proposeThresholdAction host now actionType proposal.scope
        group.quorumM group.quorumN payloadRef proposal.expiresTs
      (.ok proposed.1,
        { proposed.2 with groupOf := store.groupOf.set proposed.1 proposal.groupId })

def TrustStore.proposeVcIssuance (store : TrustStore) (host : Host) (now : ℤ)
    (proposal : VcProposal) : Except PyError String × TrustStore :=
  store.proposeVc host now "VC_ISSUANCE" "credential_type" proposal

def TrustStore.proposeVcRevocation (store : TrustStore) (host : Host) (now : ℤ)
    (proposal : VcProposal) : Except PyError String × TrustStore :=
  store.proposeVc host now "VC_REVOCATION" "vc_id" proposal

/-! ## Signatures and finalization -/

/-- `exp and exp < now`, on texts. -/
def ThresholdAction.isExpired (action : ThresholdAction) (now : ℤ) : Bool :=
  action.expiresTs != "" && decide (action.expiresTs < isoTs now)

structure SignCall where
  actionId : String
  signerId : String
  signaturePayload : Items
  disallowedSignerIds : List String := []

def SignCall.signature (call : SignCall) (now : ℤ) : Signature :=
  ⟨call.signerId, call.signaturePayload, isoTs now⟩

/-- What `add_threshold_signature` makes of the document that it read: a reason, or the
document that it writes. -/
def signRead (now : ℤ) (call : SignCall) :
    Option ThresholdAction → Except String ThresholdAction
  | none => .error "action_not_found"
  | some action =>
      if isText action.finalizedTs then .error "already_finalized"
      else if action.isExpired now then .error "expired"
      else if call.signerId ∈ call.disallowedSignerIds then .error "signer_independence"
      else if action.signatures.any (fun s => s.signerId = call.signerId) then
        .error "duplicate_signer"
      else .ok { action with signatures := action.signatures ++ [call.signature now] }

/-- What `finalize_threshold_action` makes of the document that it read. -/
def finalizeRead (now : ℤ) : Option ThresholdAction → Except String ThresholdAction
  | none => .error "action_not_found"
  | some action =>
      if isText action.finalizedTs then .error "already_finalized"
      else if action.isExpired now then .error "expired"
      else if action.signatures.length < action.quorumM then .error "quorum_not_reached"
      else .ok { action with finalizedTs := some (isoTs now) }

def TrustStore.writeAction (store : TrustStore) (actionId : String) :
    Except String ThresholdAction → (Bool × Option String) × TrustStore
  | .error reason => ((false, some reason), store)
  | .ok action =>
      ((true, none), { store with actions := store.actions.set actionId action })

def TrustStore.addThresholdSignature (store : TrustStore) (now : ℤ) (call : SignCall) :
    (Bool × Option String) × TrustStore :=
  store.writeAction call.actionId
    (signRead now call (store.actions.get? call.actionId))

def TrustStore.finalizeThresholdAction (store : TrustStore) (now : ℤ)
    (actionId : String) : (Bool × Option String) × TrustStore :=
  store.writeAction actionId (finalizeRead now (store.actions.get? actionId))

/-! ## Runs -/

inductive TrustCall where
  | publishGroup (groupId : String) (members : List String) (quorumM quorumN : ℤ)
      (permittedTypes : List String) (expiresTs : Option String)
  | addMember (groupId memberDid : String)
  | removeMember (groupId memberDid : String)
  | checkQuorum (groupId credentialType : String)
  | proposeIssuance (proposal : VcProposal)
  | proposeRevocation (proposal : VcProposal)
  | sign (call : SignCall)
  | finalize (actionId : String)

inductive TrustReply where
  | done
  | proposed (actionId : Except PyError String)
  | verdict (outcome : Bool) (reason : Option String)

def TrustStore.perform (host : Host) (store : TrustStore) (input : ℤ × TrustCall) :
    TrustStore × TrustReply :=
  match input.2 with
  | .publishGroup groupId members quorumM quorumN permittedTypes expiresTs =>
      (store.publishIssuerGroup input.1 groupId members quorumM quorumN permittedTypes
        expiresTs, .done)
  | .addMember groupId memberDid =>
      (store.addIssuerGroupMember groupId memberDid, .done)
  | .removeMember groupId memberDid =>
      (store.removeIssuerGroupMember groupId memberDid, .done)
  | .checkQuorum groupId credentialType =>
      let checked := store.checkIssuerQuorumForType groupId credentialType
      (store, .verdict checked.1 (some checked.2))
  | .proposeIssuance proposal =>
      let proposed := store.proposeVcIssuance host input.1 proposal
      (proposed.2, .proposed proposed.1)
  | .proposeRevocation proposal =>
      let proposed := store.proposeVcRevocation host input.1 proposal
      (proposed.2, .proposed proposed.1)
  | .sign call =>
      let signed := store.addThresholdSignature input.1 call
      (signed.2, .verdict signed.1.1 signed.1.2)
  | .finalize actionId =>
      let finalized := store.finalizeThresholdAction input.1 actionId
      (finalized.2, .verdict finalized.1.1 finalized.1.2)

def trustMachine (host : Host) : Machine TrustStore (ℤ × TrustCall) TrustReply where
  step := TrustStore.perform host

end Hydrogenuine.Trust
