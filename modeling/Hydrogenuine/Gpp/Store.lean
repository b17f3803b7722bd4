import Hydrogenuine.Gpp.Models
import Hydrogenuine.Support.Dict

/-!
# The permit store

Embedding of `hg_gpp/store.py`: grants, revocations and consumptions are three
separate records keyed by the permit id.
-/

namespace Hydrogenuine.Gpp

open Support Hydrogenuine.Core

structure PermitConsumeReceipt where
  permitId : String
  permitHash : String
  consumedAt : String
  consumedBy : String
  handoffRef : String
  requestId : String
  receiptHash : String

/-- `PermitConsumeReceipt.__post_init__`. -/
def sealConsumeReceipt
    (host : Host)
    (permitId permitHash consumedAt consumedBy handoffRef requestId : String) :
    PermitConsumeReceipt where
  permitId := permitId
  permitHash := permitHash
  consumedAt := consumedAt
  consumedBy := consumedBy
  handoffRef := handoffRef
  requestId := requestId
  receiptHash := host.canonicalHash (.dict [
    ("schema", .str "gpp-permit-consume-receipt"),
    ("schema_version", .str "1.0"),
    ("permit_id", .str permitId),
    ("permit_hash", .str permitHash),
    ("consumed_at", .str consumedAt),
    ("consumed_by", .str consumedBy),
    ("handoff_ref", .str handoffRef),
    ("request_id", .str requestId)])

structure ConsumeResult where
  ok : Bool
  reason : String
  receipt : Option PermitConsumeReceipt

/-- `PermitStore`: every permit is filed under its own id. -/
structure PermitStore where
  permits : Dict String GovernedPermit
  revocations : Dict String PermitRevocation
  consumed : Dict String PermitConsumeReceipt
  keyed : ∀ permitId permit,
    permits.get? permitId = some permit → permit.permitId = permitId

namespace PermitStore

def empty : PermitStore where
  permits := Dict.empty
  revocations := Dict.empty
  consumed := Dict.empty
  keyed := by
    intro permitId permit hget
    cases hget

def put (store : PermitStore) (permit : GovernedPermit) : PermitStore :=
  { store with
    permits := store.permits.set permit.permitId permit
    keyed := by
      intro permitId filed hget
      rw [Dict.get?_set] at hget
      split at hget
      · rename_i hid
        rw [hid, Option.some.inj hget]
      · exact store.keyed permitId filed hget }

def get (store : PermitStore) (permitId : String) : Option GovernedPermit :=
  store.permits.get? permitId

def isRevoked (store : PermitStore) (permitId : String) : Bool :=
  store.revocations.contains permitId

def isConsumed (store : PermitStore) (permitId : String) : Bool :=
  store.consumed.contains permitId

/-- `PermitStore.revoke`: record the revocation and rebuild the permit with
status `revoked`; `false` for an unknown id. -/
def revoke
    (host : Host) (store : PermitStore) (revocation : PermitRevocation) :
    PermitStore × Bool :=
  match store.permits.get? revocation.permitId with
  | none => (store, false)
  | some permit =>
      let updated : PermitBody :=
        { permit.toPermitBody with
          status := .revoked
          revokedAt := some revocation.revokedAt }
      ({ store.put (updated.seal host) with
          revocations := store.revocations.set revocation.permitId revocation },
        true)

/-- `PermitStore.consume`, with its rejections in the order of the source:
unknown, revoked, expired, already consumed, not granted. -/
def consume
    (host : Host) (store : PermitStore)
    (permitId now consumedBy handoffRef : String) :
    PermitStore × ConsumeResult :=
  match store.permits.get? permitId with
  | none => (store, ⟨false, "unknown_permit", none⟩)
  | some permit =>
      if store.isRevoked permitId || permit.status = .revoked then
        (store, ⟨false, "revoked", none⟩)
      else if isExpired host permit.expiresAt now then
        (store, ⟨false, "expired", none⟩)
      else if store.isConsumed permitId then
        (store, ⟨false, "already_consumed", none⟩)
      else if permit.status ≠ .granted then
        (store, ⟨false, "not_granted:" ++ permit.status.text, none⟩)
      else
        let receipt := sealConsumeReceipt host permitId permit.permitHash now
          consumedBy handoffRef permit.requestId
        ({ store with consumed := store.consumed.set permitId receipt },
          ⟨true, "consumed", some receipt⟩)

/-! ## What one operation does -/

@[simp] theorem isRevoked_put
    (store : PermitStore) (permit : GovernedPermit) (permitId : String) :
    (store.put permit).isRevoked permitId = store.isRevoked permitId := rfl

@[simp] theorem isConsumed_put
    (store : PermitStore) (permit : GovernedPermit) (permitId : String) :
    (store.put permit).isConsumed permitId = store.isConsumed permitId := rfl

theorem get_put
    (store : PermitStore) (permit : GovernedPermit) (permitId : String) :
    (store.put permit).get permitId =
      if permitId = permit.permitId then some permit
      else store.get permitId :=
  Dict.get?_set _ _ _ _

@[simp] theorem isConsumed_revoke
    (host : Host) (store : PermitStore) (revocation : PermitRevocation)
    (permitId : String) :
    (store.revoke host revocation).1.isConsumed permitId =
      store.isConsumed permitId := by
  unfold revoke
  split <;> rfl

theorem isRevoked_revoke
    (host : Host) (store : PermitStore) (revocation : PermitRevocation)
    (permitId : String) :
    (store.revoke host revocation).1.isRevoked permitId =
      (store.isRevoked permitId ||
        ((store.revoke host revocation).2 &&
          decide (permitId = revocation.permitId))) := by
  unfold revoke
  split
  · simp
  · simp [isRevoked, Dict.contains_set, Bool.or_comm]

@[simp] theorem isRevoked_consume
    (host : Host) (store : PermitStore)
    (permitId now consumedBy handoffRef other : String) :
    (store.consume host permitId now consumedBy handoffRef).1.isRevoked other =
      store.isRevoked other := by
  unfold consume
  split
  · rfl
  · split_ifs <;> rfl

theorem isConsumed_consume
    (host : Host) (store : PermitStore)
    (permitId now consumedBy handoffRef other : String) :
    (store.consume host permitId now consumedBy handoffRef).1.isConsumed other =
      (store.isConsumed other ||
        ((store.consume host permitId now consumedBy handoffRef).2.ok &&
          decide (other = permitId))) := by
  unfold consume
  split
  · simp
  · split_ifs
    all_goals simp [isConsumed, Dict.contains_set, Bool.or_comm]

theorem consume_ok_iff
    (host : Host) (store : PermitStore)
    (permitId now consumedBy handoffRef : String) :
    (store.consume host permitId now consumedBy handoffRef).2.ok = true ↔
      ∃ permit, store.get permitId = some permit ∧
        store.isRevoked permitId = false ∧ permit.status = .granted ∧
        isExpired host permit.expiresAt now = false ∧
        store.isConsumed permitId = false := by
  unfold consume get
  cases hget : store.permits.get? permitId with
  | none => simp
  | some permit =>
      dsimp only
      split_ifs with hrevoked hexpired hconsumed hstatus
      · simp only [Option.some.injEq, exists_eq_left', false_iff]
        rintro ⟨hr, hs, -⟩
        simp [hr, hs] at hrevoked
      · simp [hexpired]
      · simp [hconsumed]
      · simp [hstatus]
      · simp only [Bool.or_eq_true, decide_eq_true_eq, not_or] at hrevoked
        simp only [ne_eq, not_not] at hstatus
        simp [hrevoked.1, hexpired, hconsumed, hstatus]

@[simp] theorem get_consume
    (host : Host) (store : PermitStore)
    (permitId now consumedBy handoffRef other : String) :
    (store.consume host permitId now consumedBy handoffRef).1.get other =
      store.get other := by
  unfold consume
  split
  · rfl
  · split_ifs <;> rfl

theorem get_of_get_revoke
    {host : Host} {store : PermitStore} {revocation : PermitRevocation}
    {permitId : String} {permit : GovernedPermit}
    (hget : (store.revoke host revocation).1.get permitId = some permit)
    (hkept : (store.isRevoked permitId ||
      ((store.revoke host revocation).2 &&
        decide (permitId = revocation.permitId))) = false) :
    store.get permitId = some permit := by
  unfold revoke at hget hkept
  cases hstored : store.permits.get? revocation.permitId with
  | none =>
      rw [hstored] at hget
      exact hget
  | some stored =>
      simp only [hstored] at hget hkept
      have hne : permitId ≠ revocation.permitId := by
        simpa using (Bool.or_eq_false_iff.mp hkept).2
      have hid : stored.permitId = revocation.permitId :=
        store.keyed _ _ hstored
      have hput := (get_put _ _ _).symm.trans hget
      rwa [if_neg (hid ▸ hne)] at hput

theorem isSome_get_revoke
    {host : Host} {store : PermitStore} {revocation : PermitRevocation}
    {permitId : String} (hknown : (store.get permitId).isSome = true) :
    ((store.revoke host revocation).1.get permitId).isSome = true := by
  unfold revoke
  split
  · exact hknown
  · refine (congrArg Option.isSome (get_put _ _ _)).trans ?_
    split_ifs
    · rfl
    · exact hknown

theorem revoke_ok_iff
    (host : Host) (store : PermitStore) (revocation : PermitRevocation) :
    (store.revoke host revocation).2 = true ↔
      (store.get revocation.permitId).isSome = true := by
  unfold revoke get
  split <;> simp_all

end PermitStore
end Hydrogenuine.Gpp
