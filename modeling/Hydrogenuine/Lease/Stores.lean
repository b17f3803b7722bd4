import Mathlib.Data.List.Sort
import Hydrogenuine.Core.ReferenceHost
import Hydrogenuine.Lease.Lifecycle
import Hydrogenuine.Lease.Policy
import Hydrogenuine.Support.HashChain

/-!
# The situation, lease and receipt stores

Embedding of `hg_lease/stores.py`.  The receipt store is an append-only chain:
every receipt embeds the hash of its predecessor, and `verify_chain` recomputes
every hash.  The chain is an instance of the general hash chain, which gives
both directions: appending keeps it verified, and its last hash determines
it.
-/

namespace Hydrogenuine.Lease

open Support Hydrogenuine.Core

/-- `sorted` on texts. -/
def sortTexts (items : List String) : List String :=
  items.insertionSort (· ≤ ·)

/-! ## Situation -/

namespace SituationFact

def toPayload (fact : SituationFact) : PyVal :=
  .dict [
    ("schema_version", .str "hg.fact.v1"),
    ("fact_id", .str fact.factId),
    ("name", .str fact.name),
    ("typed_value", fact.typedValue),
    ("unit", .ofOption fact.unit),
    ("source_id", .str fact.sourceId),
    ("source_trust", .int fact.sourceTrust),
    ("observed_at", .str fact.observedAt),
    ("expires_at", .ofOption fact.expiresAt)]

end SituationFact

abbrev Snapshot := Dict String SituationFact

/-- `SituationStore.snapshot`: the facts that have not expired. -/
def snapshot (facts : Dict String SituationFact) (now : String) : Snapshot :=
  facts.filter fun _ fact => fact.fresh now

def snapshotHash (host : Host) (facts : Snapshot) : String :=
  host.canonicalHash (.dict
    ((facts.entries.insertionSort fun a b => a.1 ≤ b.1).map fun entry =>
      (entry.1, entry.2.toPayload)))

/-! ## Leases -/

/-- `LeaseStore`: every lease is filed under its own id. -/
structure LeaseStore where
  leases : Dict String CapabilityLease
  events : List LifecycleEvent
  keyed : ∀ leaseId lease,
    leases.get? leaseId = some lease → lease.leaseId = leaseId

namespace LeaseStore

def empty : LeaseStore where
  leases := Dict.empty
  events := []
  keyed := by
    intro leaseId lease hget
    cases hget

def put
    (store : LeaseStore) (lease : CapabilityLease)
    (event : Option LifecycleEvent) : LeaseStore where
  leases := store.leases.set lease.leaseId lease
  events := store.events ++ event.toList
  keyed := by
    intro leaseId filed hget
    rw [Dict.get?_set] at hget
    split at hget
    · rename_i hid
      rw [hid, Option.some.inj hget]
    · exact store.keyed leaseId filed hget

def get (store : LeaseStore) (leaseId : String) : Option CapabilityLease :=
  store.leases.get? leaseId

def all (store : LeaseStore) : List CapabilityLease := store.leases.values

def activeFor
    (store : LeaseStore) (subject actionType objectId : String) :
    List CapabilityLease :=
  store.all.filter fun lease =>
    decide (lease.state = .active) && decide (lease.subject = subject) &&
      decide (actionType ∈ lease.actionScope) &&
      decide (objectId ∈ lease.objectScope)

theorem leaseId_of_get
    {store : LeaseStore} {leaseId : String} {lease : CapabilityLease}
    (hget : store.get leaseId = some lease) : lease.leaseId = leaseId :=
  store.keyed leaseId lease hget

theorem get_put
    (store : LeaseStore) (lease : CapabilityLease)
    (event : Option LifecycleEvent) :
    (store.put lease event).get =
      Function.update store.get lease.leaseId (some lease) := by
  funext leaseId
  rw [Function.update_apply]
  exact Dict.get?_set _ _ _ _

theorem mem_all_iff {store : LeaseStore} {lease : CapabilityLease} :
    lease ∈ store.all ↔ store.get lease.leaseId = some lease := by
  rw [all, Dict.mem_values_iff]
  constructor
  · rintro ⟨leaseId, hget⟩
    have hid := store.keyed leaseId lease hget
    rw [← hid] at hget
    exact hget
  · intro hget
    exact ⟨lease.leaseId, hget⟩

end LeaseStore

/-! ## Receipts -/

abbrev Receipt := Dict String PyVal

/-- The keyword arguments of `ReceiptStore.append`. -/
structure ReceiptFields where
  decisionId : String
  outcome : String
  attemptedAt : String
  situationSnapshotHash : String
  leaseHash : Option String
  policyHash : Option String
  adapterRequestHash : Option String
  adapterResultHash : Option String
  completedAt : Option String
  correctionOf : Option String
  detail : String

def receiptBody
    (fields : ReceiptFields) (receiptId : String) (previousHash : PyVal) :
    Receipt :=
  Dict.ofList [
    ("schema_version", .str "hg.receipt.v1"),
    ("receipt_id", .str receiptId),
    ("previous_receipt_hash", previousHash),
    ("decision_id", .str fields.decisionId),
    ("lease_hash", .ofOption fields.leaseHash),
    ("policy_hash", .ofOption fields.policyHash),
    ("situation_snapshot_hash", .str fields.situationSnapshotHash),
    ("adapter_request_hash", .ofOption fields.adapterRequestHash),
    ("adapter_result_hash", .ofOption fields.adapterResultHash),
    ("attempted_at", .str fields.attemptedAt),
    ("completed_at", .ofOption fields.completedAt),
    ("outcome", .str fields.outcome),
    ("correction_of", .ofOption fields.correctionOf),
    ("detail", .str fields.detail)]

/-- `{k: v for k, v in r.items() if k != "receipt_hash"}`. -/
def receiptPayload (receipt : Receipt) : Receipt :=
  receipt.filter fun key _ => decide (key ≠ "receipt_hash")

/-- The hash of everything in a receipt but its own hash. -/
def recomputedHash (host : Host) (receipt : Receipt) : String :=
  host.canonicalHash (.dict (receiptPayload receipt).entries)

/-- `receipts[-1]["receipt_hash"] if receipts else None`. -/
def previousHash (receipts : List Receipt) : PyVal :=
  match receipts.getLast? with
  | none => .none
  | some last => (last.get? "receipt_hash").getD .none

/-- The receipt that `ReceiptStore.append` files. -/
def newReceipt
    (host : Host) (receipts : List Receipt) (fields : ReceiptFields)
    (receiptId : String) : Receipt :=
  let body := receiptBody fields receiptId (previousHash receipts)
  body.set "receipt_hash" (.str (recomputedHash host body))

/-- `ReceiptStore.append`. -/
def appendReceipt
    (host : Host) (receipts : List Receipt) (fields : ReceiptFields)
    (receiptId : String) : List Receipt :=
  receipts ++ [newReceipt host receipts fields receiptId]

/-- The loop of `verify_chain`; a missing key raises. -/
def verifyLoop (host : Host) : PyVal → List Receipt → Except PyError Bool
  | _, [] => .ok true
  | previous, receipt :: receipts =>
      match receipt.get? "previous_receipt_hash" with
      | none => .error (.keyError "previous_receipt_hash")
      | some link =>
          if link.pyEq previous = false then .ok false
          else
            match receipt.get? "receipt_hash" with
            | none => .error (.keyError "receipt_hash")
            | some claimed =>
                if claimed.pyEq (.str (recomputedHash host receipt)) = false then
                  .ok false
                else verifyLoop host claimed receipts

def verifyChain (host : Host) (receipts : List Receipt) : Except PyError Bool :=
  verifyLoop host .none receipts

/-! ### The chain of receipts -/

def receiptLink (receipt : Receipt) : Option PyVal :=
  receipt.get? "previous_receipt_hash"

def receiptHash (receipt : Receipt) : Option PyVal :=
  receipt.get? "receipt_hash"

def ReceiptSealed (host : Host) (receipt : Receipt) : Prop :=
  receiptHash receipt = some (.str (recomputedHash host receipt))

/-- The values a link may have: no predecessor, or a hash. -/
def IsLink (value : PyVal) : Prop := value = .none ∨ ∃ s, value = .str s

theorem IsLink.pyEq_iff {value : PyVal} (hvalue : IsLink value) (other : PyVal) :
    other.pyEq value = true ↔ other = value := by
  rcases hvalue with rfl | ⟨s, rfl⟩
  · exact PyVal.pyEq_none_iff other
  · exact PyVal.pyEq_str_iff other s

theorem verifyLoop_eq_true_iff
    (host : Host) (receipts : List Receipt) :
    ∀ previous, IsLink previous →
      (verifyLoop host previous receipts = .ok true ↔
        Chained receiptLink receiptHash (ReceiptSealed host) (some previous)
          receipts) := by
  induction receipts with
  | nil =>
      intro previous _
      simp [verifyLoop, Chained]
  | cons receipt receipts ih =>
      intro previous hprevious
      unfold verifyLoop
      simp only [Chained, ReceiptSealed, receiptLink]
      cases hlink : receipt.get? "previous_receipt_hash" with
      | none => simp
      | some link =>
          simp only [Option.some.injEq]
          by_cases hl : link.pyEq previous = true
          · rw [if_neg (by rw [hl]; decide), (hprevious.pyEq_iff link).mp hl]
            cases hhash : receipt.get? "receipt_hash" with
            | none => simp [receiptHash, hhash]
            | some claimed =>
                simp only [receiptHash, hhash, Option.some.injEq, true_and]
                by_cases hc :
                    claimed.pyEq (.str (recomputedHash host receipt)) = true
                · have hclaimed := (PyVal.pyEq_str_iff _ _).mp hc
                  rw [if_neg (by rw [hc]; decide)]
                  refine (ih claimed (Or.inr ⟨_, hclaimed⟩)).trans ?_
                  exact (and_iff_right hclaimed).symm
                · rw [if_pos (Bool.not_eq_true _ ▸ hc)]
                  have hne : claimed ≠ .str (recomputedHash host receipt) := by
                    intro heq
                    exact hc ((PyVal.pyEq_str_iff _ _).mpr heq)
                  simp [hne]
          · rw [if_pos (Bool.not_eq_true _ ▸ hl)]
            have hne : link ≠ previous := by
              intro heq
              exact hl ((hprevious.pyEq_iff link).mpr heq)
            simp [hne]

theorem verifyChain_eq_true_iff (host : Host) (receipts : List Receipt) :
    verifyChain host receipts = .ok true ↔
      Chained receiptLink receiptHash (ReceiptSealed host) (some .none)
        receipts :=
  verifyLoop_eq_true_iff host receipts .none (Or.inl rfl)

/-! ### Appending -/

theorem receiptBody_get_hash
    (fields : ReceiptFields) (receiptId : String) (previous : PyVal) :
    (receiptBody fields receiptId previous).get? "receipt_hash" = none := by
  simp [receiptBody, Dict.ofList, Dict.get?_set]

theorem receiptBody_get_link
    (fields : ReceiptFields) (receiptId : String) (previous : PyVal) :
    (receiptBody fields receiptId previous).get? "previous_receipt_hash" =
      some previous := by
  simp [receiptBody, Dict.ofList, Dict.get?_set]

theorem recomputedHash_set
    (host : Host) (body : Receipt) (value : PyVal)
    (hbody : body.get? "receipt_hash" = none) :
    recomputedHash host (body.set "receipt_hash" value) =
      recomputedHash host body := by
  have hset := body.entries_filter_set value hbody
  have hself : (receiptPayload body).entries = body.entries := by
    rw [receiptPayload, Dict.filter, List.filter_eq_self]
    intro entry hentry
    simp only [ne_eq, decide_eq_true_eq]
    intro hkey
    have hget := body.mem_entries_iff.mp hentry
    rw [hkey, hbody] at hget
    cases hget
  rw [recomputedHash, recomputedHash, hself, receiptPayload, hset]

theorem newReceipt_sealed
    (host : Host) (receipts : List Receipt) (fields : ReceiptFields)
    (receiptId : String) :
    ReceiptSealed host (newReceipt host receipts fields receiptId) := by
  unfold ReceiptSealed newReceipt
  dsimp only
  rw [recomputedHash_set host _ _ (receiptBody_get_hash ..)]
  exact Dict.get?_set_self _ _ _

theorem newReceipt_link
    (host : Host) (receipts : List Receipt) (fields : ReceiptFields)
    (receiptId : String) :
    receiptLink (newReceipt host receipts fields receiptId) =
      some (previousHash receipts) := by
  unfold receiptLink newReceipt
  rw [Dict.get?_set_of_ne _ _ (by decide)]
  exact receiptBody_get_link ..

variable {host : Host}

theorem endHash_eq_previousHash {receipts : List Receipt}
    (hchain : Chained receiptLink receiptHash (ReceiptSealed host)
      (some .none) receipts) :
    endHash receiptHash (some .none) receipts =
      some (previousHash receipts) := by
  rcases List.eq_nil_or_concat receipts with rfl | ⟨init, last, rfl⟩
  · rfl
  · rw [List.concat_eq_append] at hchain ⊢
    obtain ⟨-, -, hsealed⟩ := chained_concat.mp hchain
    rw [endHash_concat, previousHash, List.getLast?_append_cons]
    unfold ReceiptSealed receiptHash at hsealed
    simp [receiptHash, hsealed]

theorem appendReceipt_chained {receipts : List Receipt}
    (hchain : Chained receiptLink receiptHash (ReceiptSealed host)
      (some .none) receipts)
    (fields : ReceiptFields) (receiptId : String) :
    Chained receiptLink receiptHash (ReceiptSealed host) (some .none)
      (appendReceipt host receipts fields receiptId) := by
  refine chained_concat.mpr ⟨hchain, ?_, newReceipt_sealed ..⟩
  rw [newReceipt_link, endHash_eq_previousHash hchain]

/-! ### Tamper evidence -/

/-- Two receipts with the same value under every key. -/
def SameReceipt (receipt receipt' : Receipt) : Prop :=
  ∀ key, receipt.get? key = receipt'.get? key

/-- `canonical_hash` does not confuse the payloads of these receipts. -/
def CollisionFree (host : Host) (receipts receipts' : List Receipt) : Prop :=
  ∀ r ∈ receipts, ∀ r' ∈ receipts',
    recomputedHash host r = recomputedHash host r' →
      SameReceipt (receiptPayload r) (receiptPayload r')

theorem sameReceipt_of_payload
    {receipt receipt' : Receipt}
    (hpayload : SameReceipt (receiptPayload receipt) (receiptPayload receipt'))
    (hhash : receiptHash receipt = receiptHash receipt') :
    SameReceipt receipt receipt' := by
  intro key
  by_cases hkey : key = "receipt_hash"
  · subst hkey
    exact hhash
  · have hget := hpayload key
    unfold receiptPayload at hget
    rw [Dict.get?_filter, Dict.get?_filter] at hget
    have hkeep (value : Option PyVal) :
        value.filter (fun _ => true) = value := by
      cases value <;> rfl
    simpa [hkey, hkeep] using hget

theorem sealed_hash_ne_none {receipt : Receipt} (hsealed : ReceiptSealed host receipt) :
    receiptHash receipt ≠ some .none := by
  rw [hsealed]
  simp

theorem same_of_receiptHash_eq {receipts receipts' : List Receipt}
    (hfree : CollisionFree host receipts receipts') :
    ∀ r ∈ receipts, ∀ r' ∈ receipts', ReceiptSealed host r →
      ReceiptSealed host r' → receiptHash r = receiptHash r' →
      SameReceipt r r' ∧ receiptLink r = receiptLink r' := by
  intro r hr r' hr' hsealed hsealed' hhash
  have hrecomputed : recomputedHash host r = recomputedHash host r' := by
    rw [hsealed, hsealed'] at hhash
    simpa using hhash
  have hsame := sameReceipt_of_payload (hfree r hr r' hr' hrecomputed) hhash
  exact ⟨hsame, hsame "previous_receipt_hash"⟩

/-- Every sequence of appends to the empty store leaves a chain that verifies;
and when `canonical_hash` does not confuse the payloads of two lists of
receipts, two lists that both verify and end in the same receipt hash hold the
same receipts in the same order. -/
theorem receipt_chain_tamper_evident (host : Host) :
    (∀ calls : List (ReceiptFields × String),
      verifyChain host
        (calls.foldl (fun receipts call =>
          appendReceipt host receipts call.1 call.2) []) = .ok true) ∧
    ∀ receipts receipts' : List Receipt,
      CollisionFree host receipts receipts' →
      verifyChain host receipts = .ok true →
      verifyChain host receipts' = .ok true →
      receipts.getLast?.map receiptHash = receipts'.getLast?.map receiptHash →
      List.Forall₂ SameReceipt receipts receipts' := by
  constructor
  · intro calls
    rw [verifyChain_eq_true_iff]
    have hrun : ∀ (calls : List (ReceiptFields × String)) receipts,
        Chained receiptLink receiptHash (ReceiptSealed host) (some .none)
          receipts →
        Chained receiptLink receiptHash (ReceiptSealed host) (some .none)
          (calls.foldl (fun receipts call =>
            appendReceipt host receipts call.1 call.2) receipts) := by
      intro calls
      induction calls with
      | nil =>
          intro receipts hchain
          exact hchain
      | cons call calls ih =>
          intro receipts hchain
          exact ih _ (appendReceipt_chained hchain call.1 call.2)
    exact hrun calls [] trivial
  · intro receipts receipts' hfree hverify hverify' hlast
    rw [verifyChain_eq_true_iff] at hverify hverify'
    apply forall₂_of_endHash_eq (same_of_receiptHash_eq hfree) _ hverify hverify'
    · rcases List.eq_nil_or_concat receipts with rfl | ⟨init, r, rfl⟩
      · rcases List.eq_nil_or_concat receipts' with rfl | ⟨init', r', rfl⟩
        · rfl
        · simp at hlast
      · rcases List.eq_nil_or_concat receipts' with rfl | ⟨init', r', rfl⟩
        · simp at hlast
        · simpa using hlast
    · intro r hsealed
      exact sealed_hash_ne_none hsealed

end Hydrogenuine.Lease
