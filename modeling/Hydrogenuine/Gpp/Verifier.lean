import Hydrogenuine.Gpp.Runs

/-!
# Permit verification

Embedding of `hg_gpp/verifier.py`.  The presented object is compared with its
own hash, its own status, its own window and its own scope; the store is asked
only whether the id is known and whether it is revoked.  `LookAlike` describes
the objects that get through without being the stored record.
-/

namespace Hydrogenuine.Gpp

open Support Hydrogenuine.Core

/-- The scope test of `verify_permit`, made only when the caller names an
action, a capability or an effect class. -/
def scopeAdmits
    (permit : GovernedPermit)
    (actionType capabilityRef effectClass : Option String) : Bool :=
  if isText actionType || isText capabilityRef || isText effectClass then
    permit.scope.admits
      (orText capabilityRef permit.capabilityRef)
      (orText effectClass permit.scope.effectClass)
      (orText actionType permit.requestedActionType)
  else true

def verifyPermit
    (host : Host) (store : PermitStore) (permit : GovernedPermit) (now : String)
    (actionType capabilityRef effectClass : Option String) : Bool × String :=
  if permit.permitHash ≠ host.canonicalHash permit.toPayload then
    (false, "gpp.denied.invalid_hash")
  else if permit.status ≠ .granted then
    if permit.status = .expired then (false, "gpp.denied.expired")
    else if permit.status = .revoked then (false, "gpp.denied.revoked")
    else (false, "gpp.denied.invalid_status")
  else
    match store.get permit.permitId with
    | none => (false, "gpp.denied.invalid_status")
    | some _ =>
        if store.isRevoked permit.permitId then (false, "gpp.denied.revoked")
        else if isExpired host permit.expiresAt now then
          (false, "gpp.denied.expired")
        else if scopeAdmits permit actionType capabilityRef effectClass then
          (true, "ok")
        else (false, "gpp.denied.scope_mismatch")

variable {actionType capabilityRef effectClass : Option String} {permit : GovernedPermit}
  {store : PermitStore} {host : Host} {now : String}

theorem verifyPermit_eq_true_iff :
    (verifyPermit host store permit now actionType capabilityRef
        effectClass).1 = true ↔
      permit.permitHash = host.canonicalHash permit.toPayload ∧
        permit.status = .granted ∧
        (∃ stored, store.get permit.permitId = some stored) ∧
        store.isRevoked permit.permitId = false ∧
        isExpired host permit.expiresAt now = false ∧
        scopeAdmits permit actionType capabilityRef effectClass = true := by
  unfold verifyPermit
  by_cases hhash : permit.permitHash = host.canonicalHash permit.toPayload
  · by_cases hstatus : permit.status = .granted
    · cases hget : store.get permit.permitId with
      | none => simp [hhash, hstatus]
      | some stored =>
          simp only [hhash, hstatus, ne_eq, not_true_eq_false, if_false,
            true_and, Option.some.injEq, exists_eq']
          split_ifs with hrevoked hexpired hscope
          · simp [hrevoked]
          · simp [hexpired]
          · simp [hrevoked, hexpired, hscope]
          · simp [hscope]
    · rw [if_neg (not_not.mpr hhash), if_pos hstatus]
      split_ifs <;> simp [hstatus]
  · simp [hhash]

/-- A presented object that carries the id of a stored, unrevoked permit
without being that permit, and that is in order by its own fields. -/
structure LookAlike
    (host : Host) (store : PermitStore) (permit : GovernedPermit) (now : String)
    (actionType capabilityRef effectClass : Option String) : Prop where
  hash : permit.permitHash = host.canonicalHash permit.toPayload
  status : permit.status = .granted
  window : isExpired host permit.expiresAt now = false
  scope : scopeAdmits permit actionType capabilityRef effectClass = true
  live : store.isRevoked permit.permitId = false
  differs : ∃ stored, store.get permit.permitId = some stored ∧ stored ≠ permit

theorem get_eq_some_iff_not_lookAlike
    (haccept : (verifyPermit host store permit now actionType capabilityRef
      effectClass).1 = true) :
    store.get permit.permitId = some permit ↔
      ¬ LookAlike host store permit now actionType capabilityRef
        effectClass := by
  obtain ⟨hhash, hstatus, ⟨stored, hstored⟩, hlive, hwindow, hscope⟩ :=
    verifyPermit_eq_true_iff.mp haccept
  constructor
  · intro hget hlook
    obtain ⟨other, hother, hne⟩ := hlook.differs
    rw [hget] at hother
    exact hne (Option.some.inj hother).symm
  · intro hno
    by_contra hget
    have hne : stored ≠ permit := by
      rintro rfl
      exact hget hstored
    exact hno ⟨hhash, hstatus, hwindow, hscope, hlive, stored, hstored, hne⟩

theorem verifyPermit_of_lookAlike
    (hlook : LookAlike host store permit now actionType capabilityRef
      effectClass) :
    (verifyPermit host store permit now actionType capabilityRef
      effectClass).1 = true := by
  obtain ⟨stored, hstored, -⟩ := hlook.differs
  exact verifyPermit_eq_true_iff.mpr ⟨hlook.hash, hlook.status,
    ⟨stored, hstored⟩, hlook.live, hlook.window, hlook.scope⟩

/-! ## Where stored permits come from -/

/-- The step filed this permit: it was granted by `issue`, or handed to
`put`. -/
def Files (permit : GovernedPermit) (e : PermitStep) : Prop :=
  (∃ request decision, e.input = .issue request ∧
      e.output = .issued (.ok decision) ∧ decision.status = .granted ∧
      decision.permit = some permit) ∨
    e.input = .put permit

theorem permitStep_get {config : AuthorityConfig} {authority : PermitAuthority}
    {call : PermitCall} {permitId : String}
    (hget : (permitStep host config authority call).1.store.get permitId =
      some permit)
    (hlive : (permitStep host config authority call).1.store.isRevoked
      permitId = false) :
    authority.store.get permitId = some permit ∨
      Files permit ((permitMachine host config).stepAt authority call) := by
  cases call with
  | issue request =>
      rcases authority.issue_cases host config request with
        ⟨hstore, -⟩ | ⟨granted, decision, hstore, hreply, hstatus, hpermit, -⟩
      · left
        exact hstore ▸ hget
      · have hput := (PermitStore.get_put _ _ _).symm.trans (hstore ▸ hget)
        split at hput
        · obtain rfl := Option.some.inj hput
          right
          exact Or.inl ⟨request, decision, rfl,
            congrArg PermitReply.issued hreply, hstatus, hpermit⟩
        · left
          exact hput
  | put filed =>
      have hput := (PermitStore.get_put _ _ _).symm.trans hget
      split at hput
      · obtain rfl := Option.some.inj hput
        right
        exact Or.inr rfl
      · left
        exact hput
  | revoke revocation =>
      left
      have hne := (PermitStore.isRevoked_revoke host authority.store revocation
        permitId).symm.trans hlive
      exact PermitStore.get_of_get_revoke hget hne
  | consume id now consumedBy handoffRef =>
      left
      exact (PermitStore.get_consume ..).symm.trans hget

def reachedStore
    (host : Host) (config : AuthorityConfig) (calls : List PermitCall) :
    PermitStore :=
  ((permitMachine host config).final (.init .empty) calls).store

theorem filed_of_get
    (host : Host) (config : AuthorityConfig) (calls : List PermitCall)
    {permitId : String}
    (hget : (reachedStore host config calls).get permitId = some permit)
    (hlive : (reachedStore host config calls).isRevoked permitId = false) :
    ∃ e ∈ (permitMachine host config).trace (.init .empty) calls,
      Files permit e := by
  let Inv : List PermitStep → PermitAuthority → Prop := fun trace authority =>
    ∀ permit, authority.store.get permitId = some permit →
      authority.store.isRevoked permitId = false →
        ∃ e ∈ trace, Files permit e
  have hinit : Inv [] (.init .empty) := by
    intro permit hget
    cases hget
  have hstep : ∀ trace authority call, Inv trace authority →
      Inv (trace ++ [(permitMachine host config).stepAt authority call])
        ((permitMachine host config).step authority call).1 := by
    intro trace authority call hinv permit hget hlive
    rcases permitStep_get hget hlive with hold | hfiles
    · have hmono := (permitStep_isRevoked authority call permitId).symm.trans
        hlive
      obtain ⟨e, he, hfiled⟩ := hinv permit hold (Bool.or_eq_false_iff.mp hmono).1
      exact ⟨e, List.mem_append_left _ he, hfiled⟩
    · exact ⟨_, List.mem_append_right _ (List.mem_singleton_self _), hfiles⟩
  exact Machine.invariant Inv hinit hstep calls permit hget hlive

end Hydrogenuine.Gpp
