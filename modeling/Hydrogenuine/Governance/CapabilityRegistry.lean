import Hydrogenuine.Support.Dict

/-!
# The static capability registry

Embedding of `hg_core/governance/capability_registry.py`: the capability
descriptors and the decision fixtures that the permit binder, the permit
engine, the arbiter and the execution kernel all look up.
-/

namespace Hydrogenuine.Governance

open Support

structure CapabilityDescriptor where
  capabilityId : String
  effectClass : String
  description : String
  bindAllowed : Bool
deriving DecidableEq

structure DecisionReference where
  decisionRef : String
  verdict : String
  reasonCode : Option String
deriving DecidableEq

def capabilityRegistry : List CapabilityDescriptor :=
  [ ⟨"cap.oea_stub_log", "audit_log", "Phase 0 OEA stub audit log only", true⟩,
    ⟨"cap.memory_write_stub", "derived_store",
      "Derived memory write-back stub", true⟩,
    ⟨"cap.external_post", "external_write",
      "External publish — denied in Phase 1 scaffold", false⟩,
    ⟨"cap.external_write_scaffold", "external_write",
      "Permit-gated external write scaffold for UEAK tests", true⟩,
    ⟨"local_report_file.write", "local_report",
      "Bounded local report file write via OEA", true⟩ ]

def decisionFixtures : List DecisionReference :=
  [ ⟨"dec_allow_stub", "allow", none⟩,
    ⟨"dec_hal_accept", "allow", none⟩,
    ⟨"dec_hal_reject", "deny", some "hal_rejected"⟩,
    ⟨"dec_hal_no_op", "deny", some "hal_no_op"⟩,
    ⟨"dec_deny_policy", "deny", some "policy_denied"⟩,
    ⟨"dec_deny_unknown_effect", "deny", some "effect_not_permitted"⟩ ]

def lookupCapability (capabilityId : String) : Option CapabilityDescriptor :=
  capabilityRegistry.find? fun cap => cap.capabilityId = capabilityId

def lookupDecision (decisionRef : String) : Option DecisionReference :=
  decisionFixtures.find? fun decision => decision.decisionRef = decisionRef

theorem capabilityId_of_lookupCapability
    {capabilityId : String} {cap : CapabilityDescriptor}
    (hcap : lookupCapability capabilityId = some cap) :
    cap.capabilityId = capabilityId := by
  simpa using List.find?_some hcap

end Hydrogenuine.Governance
