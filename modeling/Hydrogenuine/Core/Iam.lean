import Hydrogenuine.Core.Host
import Hydrogenuine.Support.Dict

/-!
# Operator authority

Embedding of `hg_core/iam`: an actor is resolved against the operator registry,
which the code loads from a configuration file and which is a parameter here.
-/

namespace Hydrogenuine.Core

open Support

structure OperatorRecord where
  operatorId : String
  displayName : String
  authorityScopes : List String
  keyRef : String
  status : String

structure OperatorRegistry where
  tenantId : String
  operators : List OperatorRecord
  legacyAliases : Dict String String
  registryHash : String

structure AuthorityBinding where
  operatorId : String
  sessionId : String
  registryHash : String
  scope : String
  tenantId : String

structure AuthorityResult where
  ok : Bool
  reasonCode : String
  binding : Option AuthorityBinding
  resolvedOperatorId : Option String

def agentZeroId : String := "agent:0"

def authorityScopes : List String :=
  ["approve_change", "approve_high_risk", "emergency_override", "panic",
    "configure", "audit_read"]

def placeholderActors : List String :=
  ["", "placeholder", "operator_id", "TBD", "unknown"]

def modelActorPrefixes : List String :=
  ["model:", "cognition:", "llm:", "srp:auto"]

/-- `resolve_operator_id`: legacy aliases first, then the registered ids. -/
def resolveOperatorId
    (registry : OperatorRegistry) (actor : String) : Option String :=
  let actor := strip actor
  if actor = "" then none
  else if actor = agentZeroId || startsWith actor "agent:" then none
  else
    match registry.legacyAliases.get? actor with
    | some target => some target
    | none =>
        (registry.operators.find? fun op => op.operatorId = actor).map
          OperatorRecord.operatorId

def getOperator
    (registry : OperatorRegistry) (operatorId : String) :
    Option OperatorRecord :=
  registry.operators.find? fun op => op.operatorId = operatorId

/-- `validate_operator_authority` with `record_event=False`. -/
def validateOperatorAuthority
    (registry : OperatorRegistry) (actor scope sessionId : String) :
    AuthorityResult :=
  let raw := strip actor
  if raw ∈ placeholderActors then
    ⟨false, "denied.placeholder_actor", none, none⟩
  else if raw = "" then
    ⟨false, "denied.empty_actor", none, none⟩
  else if raw = agentZeroId || startsWith raw "agent:" then
    ⟨false, "denied.agent_cannot_hold_authority", none, none⟩
  else if modelActorPrefixes.any (startsWith (lower raw)) then
    ⟨false, "denied.model_cannot_hold_authority", none, none⟩
  else if scope ∉ authorityScopes then
    ⟨false, "denied.unknown_scope", none, none⟩
  else
    match resolveOperatorId registry raw with
    | none => ⟨false, "denied.unregistered_operator", none, none⟩
    | some resolved =>
        if resolved = agentZeroId then
          ⟨false, "denied.agent_cannot_hold_authority", none, none⟩
        else
          match getOperator registry resolved with
          | none => ⟨false, "denied.unregistered_operator", none, none⟩
          | some op =>
              if op.status = "revoked" then
                ⟨false, "denied.operator_revoked", none, some resolved⟩
              else if scope ∉ op.authorityScopes then
                ⟨false, "policy_violation", none, some resolved⟩
              else
                ⟨true, "ok",
                  some ⟨resolved, sessionId, registry.registryHash, scope,
                    registry.tenantId⟩,
                  some resolved⟩

end Hydrogenuine.Core
