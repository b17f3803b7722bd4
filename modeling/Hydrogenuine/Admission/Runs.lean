import Hydrogenuine.Admission.Controller
import Hydrogenuine.Support.Machine

/-!
# Runs of the admission controller

A run is a list of operations with the readings of the clock.  The state carries,
next to the controller, the tokens that are live: admitted, and neither completed
nor released, expired or preempted since.

Every operation first drops locks, of expired leases, of a closed token or of a
panic, and may then grant a request.  `Drops` says what dropping changes.
-/

namespace Hydrogenuine.Admission

open Support Hydrogenuine.Core Hydrogenuine.Runtime

/-! ## Keys -/

def capabilityKey (capability : String) : String := "oea:" ++ capability

theorem capabilityKey_injective : Function.Injective capabilityKey := by
  intro a b h
  exact (String.append_right_inj "oea:").mp h

theorem afterColon_capabilityKey (capability : String) :
    afterColon (capabilityKey capability) = capability := by
  rw [afterColon, capabilityKey, String.toList_append]
  exact String.ofList_toList

theorem startsWith_oea_iff (key : String) :
    startsWith key "oea:" = true ↔ ∃ capability, key = capabilityKey capability := by
  constructor
  · intro h
    obtain ⟨rest, hrest⟩ := (startsWith_iff key "oea:").mp h
    refine ⟨String.ofList rest, ?_⟩
    apply String.toList_inj.mp
    rw [capabilityKey, String.toList_append, ← hrest]
    exact congrArg ("oea:".toList ++ ·) String.toList_ofList.symm
  · rintro ⟨capability, rfl⟩
    exact startsWith_append "oea:" capability

theorem ne_capabilityKey
    {key : String} (capability : String) (h : startsWith key "oea:" = false) :
    key ≠ capabilityKey capability := by
  rintro rfl
  rw [(startsWith_oea_iff _).mpr ⟨capability, rfl⟩] at h
  cases h

theorem lockKey_eq_capabilityKey {req : AdmissionRequest} {capability : String} :
    lockKey req = capabilityKey capability ↔
      req.kind = .oeaEffect ∧ given req.capabilityId = some capability := by
  have hother : ∀ start rest : String,
      start.toList.isPrefixOf "oea:".toList = false →
      "oea:".toList.isPrefixOf start.toList = false →
        start ++ rest ≠ capabilityKey capability :=
    fun start rest hstart hoea =>
      ne_capabilityKey capability (startsWith_append_eq_false rest hstart hoea)
  unfold lockKey
  cases req.kind with
  | srpApply =>
      have hfixed : startsWith "srp_apply" "oea:" = false := by decide
      exact iff_of_false (ne_capabilityKey capability hfixed) nofun
  | maxAutoRun =>
      have hfixed : startsWith "max_auto_run" "oea:" = false := by decide
      exact iff_of_false (ne_capabilityKey capability hfixed) nofun
  | melCycle =>
      have hfixed : startsWith "mel_cycle" "oea:" = false := by decide
      exact iff_of_false (ne_capabilityKey capability hfixed) nofun
  | crrRecovery =>
      have hfixed : startsWith "crr_recovery" "oea:" = false := by decide
      exact iff_of_false (ne_capabilityKey capability hfixed) nofun
  | panic =>
      exact iff_of_false
        (hother ("panic" ++ ":") _ (by decide) (by decide)) nofun
  | terCommand =>
      refine iff_of_false ?_ nofun
      cases given req.sandboxId with
      | none => exact hother ("ter_command" ++ ":") _ (by decide) (by decide)
      | some sandbox => exact hother "ter:" sandbox (by decide) (by decide)
  | oeaEffect =>
      cases given req.capabilityId with
      | none =>
          refine iff_of_false ?_ nofun
          exact hother ("oea_effect" ++ ":") _ (by decide) (by decide)
      | some held =>
          constructor
          · intro h
            exact ⟨rfl, congrArg some (capabilityKey_injective h)⟩
          · rintro ⟨-, h⟩
            rw [Option.some.inj h, capabilityKey]

/-! ## Dropping locks -/

namespace AdmissionController

def count (c : AdmissionController) (capability : String) : ℤ :=
  (c.capabilityCounts.get? capability).getD 0

/-- Counts are not negative, and a held capability is counted. -/
structure Counted (c : AdmissionController) : Prop where
  nonneg : ∀ capability, 0 ≤ c.count capability
  held : ∀ capability, c.locks.contains (capabilityKey capability) = true →
    1 ≤ c.count capability

/-- Some locks are dropped, and each of them is taken off the count of its
capability. -/
structure Drops (keys : List String) (c c' : AdmissionController) : Prop where
  locks : ∀ key, c'.locks.get? key =
    if key ∈ keys then none else c.locks.get? key
  counts : ∀ capability, c'.count capability =
    c.count capability - if capabilityKey capability ∈ keys then 1 else 0

variable {c c' c'' : AdmissionController} {keys keys' : List String}

theorem drops_nil (hlocks : c'.locks = c.locks)
    (hcounts : c'.capabilityCounts = c.capabilityCounts) : Drops [] c c' := by
  constructor
  · intro key
    rw [hlocks, if_neg List.not_mem_nil]
  · intro capability
    rw [count, hcounts, if_neg List.not_mem_nil, sub_zero, count]

theorem Drops.trans
    (h : Drops keys c c') (h' : Drops keys' c' c'')
    (hdisjoint : ∀ key ∈ keys', key ∉ keys) :
    Drops (keys ++ keys') c c'' := by
  constructor
  · intro key
    rw [h'.locks, h.locks]
    by_cases hkey : key ∈ keys
    · simp [hkey]
    · simp [hkey]
  · intro capability
    rw [h'.counts, h.counts]
    by_cases hkey' : capabilityKey capability ∈ keys'
    · simp [hkey', hdisjoint _ hkey']
    · simp [hkey']

theorem Drops.counted (h : Drops keys c c') (hcounted : Counted c)
    (hheld : ∀ key ∈ keys, c.locks.contains key = true) : Counted c' := by
  constructor
  · intro capability
    rw [h.counts]
    by_cases hkey : capabilityKey capability ∈ keys
    · have hone := hcounted.held capability (hheld _ hkey)
      rw [if_pos hkey]
      omega
    · have hzero := hcounted.nonneg capability
      rw [if_neg hkey]
      omega
  · intro capability hcontains
    rw [Dict.contains, h.locks] at hcontains
    by_cases hkey : capabilityKey capability ∈ keys
    · rw [if_pos hkey] at hcontains
      cases hcontains
    · rw [if_neg hkey] at hcontains
      have hone := hcounted.held capability hcontains
      rw [h.counts, if_neg hkey]
      omega

theorem releaseLock_drops
    (hcounted : Counted c) {key : String} (hheld : c.locks.contains key = true)
    (active : ActiveLock) (reason : String) :
    Drops [key] c (c.releaseLock key active reason) := by
  constructor
  · intro key'
    rw [releaseLock, Dict.get?_filter]
    by_cases heq : key' = key
    · simp [heq]
    · simp only [List.mem_singleton, heq, if_false]
      cases c.locks.get? key' with
      | none => rfl
      | some lock => simp [heq]
  · intro capability
    rw [count, releaseLock]
    dsimp only
    by_cases hoea : startsWith key "oea:" = true
    · obtain ⟨capability', rfl⟩ := (startsWith_oea_iff key).mp hoea
      rw [if_pos hoea, afterColon_capabilityKey, Dict.get?_set]
      by_cases heq : capability = capability'
      · subst heq
        have hone := hcounted.held capability hheld
        rw [if_pos rfl, if_pos (List.mem_singleton.mpr rfl), Option.getD_some]
        rw [count] at hone ⊢
        cases hget : c.capabilityCounts.get? capability with
        | none =>
            rw [hget] at hone
            exact absurd hone (by decide)
        | some n =>
            rw [hget] at hone
            simp only [Option.getD_some] at hone ⊢
            omega
      · have hne : capabilityKey capability ∉ [capabilityKey capability'] := by
          rw [List.mem_singleton]
          exact fun h => heq (capabilityKey_injective h)
        rw [if_neg heq, if_neg hne, sub_zero, count]
    · have hne : capabilityKey capability ∉ [key] := by
        rw [List.mem_singleton]
        rintro rfl
        exact hoea ((startsWith_oea_iff _).mpr ⟨capability, rfl⟩)
      rw [if_neg hoea, if_neg hne, sub_zero, count]

theorem foldl_drops
    {f : AdmissionController → String × ActiveLock → AdmissionController}
    {p : String × ActiveLock → Bool}
    (hdrop : ∀ c entry, p entry = true → Counted c →
      c.locks.contains entry.1 = true → Drops [entry.1] c (f c entry))
    (hkeep : ∀ c entry, p entry = false → Drops [] c (f c entry))
    (entries : List (String × ActiveLock))
    (hnodup : (entries.map Prod.fst).Nodup) (hcounted : Counted c)
    (hheld : ∀ entry ∈ entries, c.locks.contains entry.1 = true) :
    Drops ((entries.filter p).map Prod.fst) c (entries.foldl f c) := by
  induction entries generalizing c with
  | nil => exact drops_nil rfl rfl
  | cons entry entries ih =>
      rw [List.map_cons, List.nodup_cons] at hnodup
      have hfirst := hheld entry List.mem_cons_self
      have hrest : ∀ entry' ∈ entries, c.locks.contains entry'.1 = true :=
        fun entry' hmem => hheld entry' (List.mem_cons_of_mem _ hmem)
      rw [List.foldl_cons]
      cases hp : p entry with
      | true =>
          have hone := hdrop c entry hp hcounted hfirst
          have hothers : ∀ entry' ∈ entries,
              (f c entry).locks.contains entry'.1 = true := by
            intro entry' hmem
            have hne : entry'.1 ∉ [entry.1] := by
              rw [List.mem_singleton]
              intro heq
              exact hnodup.1 (heq ▸ List.mem_map_of_mem hmem)
            rw [Dict.contains, hone.locks, if_neg hne]
            exact hrest entry' hmem
          have htail := ih hnodup.2
            (hone.counted hcounted (List.forall_mem_singleton.mpr hfirst))
            hothers
          rw [List.filter_cons_of_pos hp, List.map_cons]
          refine hone.trans htail fun key hkey => ?_
          rw [List.mem_singleton]
          rintro rfl
          obtain ⟨entry', hmem, heq⟩ := List.mem_map.mp hkey
          refine hnodup.1 (heq ▸ List.mem_map_of_mem ?_)
          exact List.mem_of_mem_filter hmem
      | false =>
          have hsame := hkeep c entry hp
          have hothers : ∀ entry' ∈ entries,
              (f c entry).locks.contains entry'.1 = true := by
            intro entry' hmem
            rw [Dict.contains, hsame.locks, if_neg List.not_mem_nil]
            exact hrest entry' hmem
          have htail := ih hnodup.2
            (hsame.counted hcounted (List.forall_mem_nil _)) hothers
          rw [List.filter_cons_of_neg (by rw [hp]; decide)]
          exact hsame.trans htail fun key _ => List.not_mem_nil

theorem contains_of_mem_entries {entry : String × ActiveLock}
    (h : entry ∈ c.locks.entries) : c.locks.contains entry.1 = true := by
  rw [Dict.contains, (c.locks.mem_entries_iff).mp h]
  rfl

def keysWhere (c : AdmissionController) (p : ActiveLock → Bool) : List String :=
  (c.locks.entries.filter fun entry => p entry.2).map Prod.fst

theorem keysWhere_nodup (c : AdmissionController) (p : ActiveLock → Bool) :
    (c.keysWhere p).Nodup :=
  c.locks.nodupKeys.sublist (List.filter_sublist.map Prod.fst)

theorem mem_keysWhere {p : ActiveLock → Bool} {key : String} :
    key ∈ c.keysWhere p ↔ ∃ lock, c.locks.get? key = some lock ∧ p lock = true := by
  unfold keysWhere
  rw [List.mem_map]
  constructor
  · rintro ⟨⟨key', lock⟩, hmem, rfl⟩
    obtain ⟨hentry, hp⟩ := List.mem_filter.mp hmem
    exact ⟨lock, (c.locks.mem_entries_iff).mp hentry, hp⟩
  · rintro ⟨lock, hget, hp⟩
    exact ⟨(key, lock), List.mem_filter.mpr
      ⟨(c.locks.mem_entries_iff).mpr hget, hp⟩, rfl⟩

theorem reclaimExpired_drops (hcounted : Counted c) (now : ℚ) :
    Drops (c.keysWhere fun lock => decide (lock.leaseUntil < now)) c
      (c.reclaimExpired now) := by
  refine foldl_drops ?_ ?_ c.locks.entries c.locks.nodupKeys hcounted
    fun entry hentry => contains_of_mem_entries hentry
  · intro c' entry hp hcounted' hheld
    rw [if_pos (of_decide_eq_true hp)]
    exact releaseLock_drops hcounted' hheld _ _
  · intro c' entry hp
    rw [if_neg (of_decide_eq_false hp)]
    exact drops_nil rfl rfl

theorem swept_drops (hcounted : Counted c) (now : ℚ) :
    Drops (c.keysWhere fun lock => decide (lock.leaseUntil < now)) c
      (c.swept now) := by
  have hreclaim := reclaimExpired_drops hcounted now
  exact ⟨hreclaim.locks, hreclaim.counts⟩

def heldBy (c : AdmissionController) (token : AdmissionToken) : Bool :=
  (c.locks.get? token.lockKey).any fun lock => lock.requestId == token.requestId

theorem releaseHeld_drops (hcounted : Counted c) (token : AdmissionToken)
    (reason : String) :
    Drops (if c.heldBy token then [token.lockKey] else []) c
      (c.releaseHeld token reason) := by
  unfold releaseHeld heldBy
  cases hlock : c.locks.get? token.lockKey with
  | none => exact drops_nil rfl rfl
  | some active =>
      dsimp only
      rw [Option.any_some]
      by_cases hsame : (active.requestId == token.requestId) = true
      · rw [if_pos hsame, if_pos hsame]
        refine releaseLock_drops hcounted ?_ active reason
        rw [Dict.contains, hlock]
        rfl
      · rw [if_neg hsame, if_neg hsame]
        exact drops_nil rfl rfl

theorem complete_drops (hcounted : Counted c) (now : ℚ) (token : AdmissionToken)
    (resultRef : String) :
    Drops (if c.heldBy token then [token.lockKey] else []) c
      (c.complete now token resultRef) := by
  have hrecord : Counted
      (c.record token.idempotencyKey token.requestId resultRef now) :=
    ⟨hcounted.nonneg, hcounted.held⟩
  have hheld := releaseHeld_drops hrecord token "ok"
  exact ⟨hheld.locks, hheld.counts⟩

def preempted (preemptor : String) (c : AdmissionController)
    (entry : String × ActiveLock) : AdmissionController :=
  if entry.2.kind = .panic then c
  else
    { c with
      eventLog := c.eventLog ++
        [admissionDraft "ADM_PREEMPTION_RECEIPTED"
          (PreemptionReceipt.toPayload
            { preemptor
              preemptedRequestId := entry.2.requestId
              preemptedKind := entry.2.kind })] }.releaseLock entry.1 entry.2
      "admission.preempted.operator_cancelled"

theorem assertPanic_eq (c : AdmissionController) (preemptor : String) :
    (c.assertPanic preemptor).2 =
      c.locks.entries.foldl (preempted preemptor)
        { c with
          panicActive := true
          eventLog := c.eventLog ++
            [admissionDraft "ADM_PANIC_ASSERTED"
              [("preemptor", .str preemptor)]] } := by
  have hfold : ∀ (f : List PreemptionReceipt × AdmissionController →
        String × ActiveLock → List PreemptionReceipt × AdmissionController),
      (∀ acc entry, (f acc entry).2 = preempted preemptor acc.2 entry) →
      ∀ (entries : List (String × ActiveLock)) acc,
        (entries.foldl f acc).2 =
          entries.foldl (preempted preemptor) acc.2 := by
    intro f hf entries
    induction entries with
    | nil =>
        intro acc
        rfl
    | cons entry entries ih =>
        intro acc
        rw [List.foldl_cons, List.foldl_cons, ih, hf]
  unfold assertPanic
  refine hfold _ ?_ _ _
  intro acc entry
  unfold preempted
  by_cases hpanic : entry.2.kind = .panic
  · simp only [if_pos hpanic]
  · simp only [if_neg hpanic]

theorem assertPanic_drops (hcounted : Counted c) (preemptor : String) :
    Drops (c.keysWhere fun lock => decide (lock.kind ≠ .panic)) c
      (c.assertPanic preemptor).2 := by
  rw [assertPanic_eq]
  have hfold : ∀ c₁ : AdmissionController, c₁.locks = c.locks →
      c₁.capabilityCounts = c.capabilityCounts →
      Drops (c.keysWhere fun lock => decide (lock.kind ≠ .panic)) c₁
        (c.locks.entries.foldl (preempted preemptor) c₁) := by
    intro c₁ hlocks hcounts
    have hcounted₁ : Counted c₁ := by
      constructor
      · intro capability
        rw [count, hcounts]
        exact hcounted.nonneg capability
      · intro capability hcontains
        rw [hlocks] at hcontains
        rw [count, hcounts]
        exact hcounted.held capability hcontains
    refine foldl_drops ?_ ?_ c.locks.entries c.locks.nodupKeys hcounted₁ ?_
    · intro c' entry hp hcounted' hheld
      unfold preempted
      rw [if_neg (of_decide_eq_true hp)]
      have hlogged : Counted
          { c' with
            eventLog := c'.eventLog ++
              [admissionDraft "ADM_PREEMPTION_RECEIPTED"
                (PreemptionReceipt.toPayload
                  { preemptor
                    preemptedRequestId := entry.2.requestId
                    preemptedKind := entry.2.kind })] } :=
        ⟨hcounted'.nonneg, hcounted'.held⟩
      have hrelease := releaseLock_drops hlogged hheld entry.2
        "admission.preempted.operator_cancelled"
      exact ⟨hrelease.locks, hrelease.counts⟩
    · intro c' entry hp
      unfold preempted
      rw [if_pos (not_not.mp (of_decide_eq_false hp))]
      exact drops_nil rfl rfl
    · intro entry hentry
      rw [hlocks]
      exact contains_of_mem_entries hentry
  have hpanic := hfold
    { c with
      panicActive := true
      eventLog := c.eventLog ++
        [admissionDraft "ADM_PANIC_ASSERTED" [("preemptor", .str preemptor)]] }
    rfl rfl
  exact ⟨hpanic.locks, hpanic.counts⟩

theorem endCrrRecovery_drops (hcounted : Counted c) :
    Drops (if c.locks.contains "crr_recovery" then ["crr_recovery"] else []) c
      c.endCrrRecovery := by
  have hflag : Counted { c with crrRecoveryActive := false } :=
    ⟨hcounted.nonneg, hcounted.held⟩
  unfold endCrrRecovery
  dsimp only
  rw [Dict.contains]
  cases hlock : c.locks.get? "crr_recovery" with
  | none => exact drops_nil rfl rfl
  | some active =>
      have hheld : c.locks.contains "crr_recovery" = true := by
        rw [Dict.contains, hlock]
        rfl
      have hrelease := releaseLock_drops hflag hheld active "crr_complete"
      exact ⟨hrelease.locks, hrelease.counts⟩

end AdmissionController

/-! ## Operations -/

deriving instance DecidableEq for AdmissionToken

/-- The operations on the controller.  A request carries the reading of the clock
in UTC that its approval is checked against. -/
inductive Operation where
  | request (utc : String) (req : AdmissionRequest)
  | complete (token : AdmissionToken) (resultRef : String)
  | release (token : AdmissionToken)
  | assertPanic (preemptor : String)
  | beginCrrRecovery (utc : String) (recoveryId : Option String) (n : ℕ)
  | endCrrRecovery
  | drainQueues (n : ℕ)

/-- The request of `begin_crr_recovery`. -/
def recoveryRequest (host : Host) (recoveryId : Option String) (n : ℕ) :
    AdmissionRequest where
  requestId := orText recoveryId ("crr_" ++ slice (host.uuidHex n) 0 8)
  kind := .crrRecovery
  idempotencyKey := "crr:" ++ orText recoveryId "active"

def Operation.asks (host : Host) : Operation → Option (String × AdmissionRequest)
  | .request utc req => some (utc, req)
  | .beginCrrRecovery utc recoveryId n =>
      some (utc, recoveryRequest host recoveryId n)
  | _ => none

def Operation.closes : Operation → Option AdmissionToken
  | .complete token _ => some token
  | .release token => some token
  | _ => none

/-- The controller and the tokens that are live. -/
structure Admitting where
  controller : AdmissionController
  live : List AdmissionToken := []

/-- The controller after an operation, and the decision about a request. -/
def AdmissionController.perform
    (host : Host) (c : AdmissionController) (now : ℚ) :
    Operation → AdmissionController × Option AdmissionDecision
  | .request utc req =>
      let decided := c.request host now utc req
      (decided.2, some decided.1)
  | .complete token resultRef => (c.complete now token resultRef, none)
  | .release token => (c.release token, none)
  | .assertPanic preemptor => ((c.assertPanic preemptor).2, none)
  | .beginCrrRecovery utc recoveryId n =>
      ((c.beginCrrRecovery host now utc recoveryId n).2,
        some (c.request host now utc (recoveryRequest host recoveryId n)).1)
  | .endCrrRecovery => (c.endCrrRecovery, none)
  | .drainQueues n => ((c.drainQueues host n).2, none)

namespace Admitting

def ends (now : ℚ) (op : Operation) (token : AdmissionToken) : Bool :=
  match op with
  | .request _ _ => decide (token.leaseUntil < now)
  | .beginCrrRecovery _ _ _ => decide (token.leaseUntil < now)
  | .assertPanic _ => decide (token.kind ≠ .panic)
  | .endCrrRecovery => decide (token.lockKey = "crr_recovery")
  | _ => false

/-- The live tokens that an operation ends: the closed one, the expired ones when
leases are reclaimed, the preempted ones, and that of the recovery. -/
def ended (s : Admitting) (now : ℚ) (op : Operation) : List AdmissionToken :=
  match op.closes with
  | some token => if token ∈ s.live then [token] else []
  | none => s.live.filter (ends now op)

/-- The live tokens after an operation, before it grants anything. -/
def remaining (s : Admitting) (now : ℚ) (op : Operation) : List AdmissionToken :=
  match op.closes with
  | some token => s.live.erase token
  | none => s.live.filter fun token => !ends now op token

def perform (host : Host) (s : Admitting) (input : ℚ × Operation) :
    Admitting × Option AdmissionDecision :=
  let done := s.controller.perform host input.1 input.2
  ({ controller := done.1
     live := s.remaining input.1 input.2 ++
      (done.2.bind AdmissionDecision.token).toList }, done.2)

def dropped (c : AdmissionController) (now : ℚ) : Operation → List String
  | .request _ _ => c.keysWhere fun lock => decide (lock.leaseUntil < now)
  | .beginCrrRecovery _ _ _ =>
      c.keysWhere fun lock => decide (lock.leaseUntil < now)
  | .complete token _ => if c.heldBy token then [token.lockKey] else []
  | .release token => if c.heldBy token then [token.lockKey] else []
  | .assertPanic _ => c.keysWhere fun lock => decide (lock.kind ≠ .panic)
  | .endCrrRecovery =>
      if c.locks.contains "crr_recovery" then ["crr_recovery"] else []
  | .drainQueues _ => []

end Admitting

def admissionMachine (host : Host) :
    Machine Admitting (ℚ × Operation) (Option AdmissionDecision) where
  step := Admitting.perform host

end Hydrogenuine.Admission
