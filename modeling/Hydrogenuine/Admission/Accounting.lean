import Hydrogenuine.Admission.Runs
import Hydrogenuine.Core.ReferenceHost

/-!
# Capacity accounting

The count of a capability is taken off when its lock is dropped, and all effects of
the capability share that one lock.  The count is the number of live tokens along a
run exactly when every operation drops the lock of a capability once for each of its
tokens that it ends.
-/

namespace Hydrogenuine.Admission

open Support Hydrogenuine.Core Hydrogenuine.Runtime

def ofCapability (capability : String) (token : AdmissionToken) : Bool :=
  decide (token.lockKey = capabilityKey capability)

/-- The effects of each capability are requested with one concurrency. -/
def Operation.Agrees (concurrency : String → ℤ) (op : Operation) : Prop :=
  ∀ utc req capability, op = .request utc req → req.kind = .oeaEffect →
    given req.capabilityId = some capability →
      req.capabilityConcurrency = concurrency capability

namespace AdmissionController

variable {c : AdmissionController} {host : Host} {now : ℚ}

/-- No count is above the concurrency of its capability. -/
def Bounded (concurrency : String → ℤ) (c : AdmissionController) : Prop :=
  ∀ capability, c.count capability ≤ max 1 (concurrency capability)

variable {concurrency : String → ℤ}

theorem Drops.bounded {keys : List String} {c' : AdmissionController}
    (h : Drops keys c c') (hbounded : c.Bounded concurrency) :
    c'.Bounded concurrency := by
  intro capability
  have hold := hbounded capability
  rw [h.counts]
  split
  · omega
  · omega

/-- What an operation does once it has dropped its locks: the counts are raised
for the granted token, and a new lock is one that a request of its kind asks for. -/
structure Grants
    (c : AdmissionController) (token : Option AdmissionToken)
    (c' : AdmissionController) : Prop where
  counts : ∀ capability, c'.count capability =
    c.count capability + (token.toList.countP (ofCapability capability) : ℕ)
  locks : ∀ key lock, c'.locks.get? key = some lock →
    c.locks.get? key = some lock ∨ ∃ req, lockKey req = key ∧ lock.kind = req.kind
  counted : Counted c → Counted c'

theorem grants_none
    {c' : AdmissionController} (hlocks : c'.locks = c.locks)
    (hcounts : c'.capabilityCounts = c.capabilityCounts) : Grants c none c' := by
  constructor
  · intro capability
    rw [count, hcounts, count]
    simp
  · intro key lock hget
    rw [hlocks] at hget
    exact Or.inl hget
  · intro hcounted
    constructor
    · intro capability
      rw [count, hcounts]
      exact hcounted.nonneg capability
    · intro capability hcontains
      rw [hlocks] at hcontains
      rw [count, hcounts]
      exact hcounted.held capability hcontains

theorem grant_count (c : AdmissionController) (now : ℚ) (req : AdmissionRequest)
    (capability : String) :
    (c.grant now req).2.count capability = c.count capability +
      if lockKey req = capabilityKey capability then 1 else 0 := by
  by_cases heffect : req.kind = .oeaEffect
  · cases hgiven : given req.capabilityId with
    | none =>
        have hkey : ¬lockKey req = capabilityKey capability := by
          rw [lockKey_eq_capabilityKey, hgiven]
          nofun
        rw [if_neg hkey, add_zero, count, grant]
        dsimp only
        rw [heffect, hgiven]
        rfl
    | some held =>
        have hcounts : (c.grant now req).2.capabilityCounts =
            c.capabilityCounts.set held
              ((c.capabilityCounts.get? held).getD 0 + 1) := by
          rw [grant]
          dsimp only
          rw [heffect, hgiven]
        rw [count, hcounts, Dict.get?_set]
        by_cases heq : capability = held
        · subst heq
          rw [if_pos rfl, if_pos (lockKey_eq_capabilityKey.mpr
            ⟨heffect, hgiven⟩), Option.getD_some, count]
        · have hkey : ¬lockKey req = capabilityKey capability := by
            rw [lockKey_eq_capabilityKey, hgiven]
            rintro ⟨-, h⟩
            exact heq (Option.some.inj h).symm
          rw [if_neg heq, if_neg hkey, add_zero, count]
  · have hkey : ¬lockKey req = capabilityKey capability := by
      rw [lockKey_eq_capabilityKey]
      exact fun h => heffect h.1
    rw [if_neg hkey, add_zero, count, grant]
    dsimp only
    split
    · rename_i hkind _
      exact absurd hkind heffect
    · rfl

theorem grant_locks (c : AdmissionController) (now : ℚ) (req : AdmissionRequest)
    (key : String) :
    (c.grant now req).2.locks.contains key =
      (decide (key = lockKey req) || c.locks.contains key) :=
  Dict.contains_set _ _ _ _

theorem grant_grants (c : AdmissionController) (now : ℚ) (req : AdmissionRequest) :
    Grants c (c.grant now req).1.token (c.grant now req).2 := by
  constructor
  · intro capability
    rw [grant_count]
    by_cases hkey : lockKey req = capabilityKey capability
    · simp [grant, ofCapability, hkey]
    · simp [grant, ofCapability, hkey]
  · intro key lock hget
    rw [grant] at hget
    dsimp only at hget
    rw [Dict.get?_set] at hget
    by_cases hkey : key = lockKey req
    · rw [if_pos hkey] at hget
      exact Or.inr ⟨req, hkey.symm, (Option.some.inj hget) ▸ rfl⟩
    · rw [if_neg hkey] at hget
      exact Or.inl hget
  · intro hcounted
    constructor
    · intro capability
      have hzero := hcounted.nonneg capability
      rw [grant_count]
      split
      · omega
      · omega
    · intro capability hcontains
      rw [grant_locks, Bool.or_eq_true, decide_eq_true_eq] at hcontains
      rw [grant_count]
      rcases hcontains with hkey | hheld
      · have hzero := hcounted.nonneg capability
        rw [if_pos hkey.symm]
        omega
      · have hone := hcounted.held capability hheld
        split
        · omega
        · omega

theorem request_grants
    (host : Host) (c : AdmissionController) (now : ℚ) (utc : String)
    (req : AdmissionRequest) :
    Grants (c.swept now) (c.request host now utc req).1.token
      (c.request host now utc req).2 := by
  rcases c.request_cases host now utc req with ⟨_, _, _, h, -⟩ | ⟨-, -, -, h⟩
  · rw [h]
    exact grants_none rfl rfl
  · rw [h]
    rcases (c.swept now).place_cases now req with
      ⟨reason, hp⟩ | ⟨-, -, -, hp⟩ | ⟨-, -, -, -, hp⟩
    · rw [hp]
      exact grants_none rfl rfl
    · rw [hp]
      exact grants_none rfl rfl
    · rw [hp]
      exact grant_grants _ now req

theorem grant_bounded {req : AdmissionRequest}
    (hbounded : c.Bounded concurrency) (hroom : c.atCapacity req = false)
    (hagrees : ∀ capability, req.kind = .oeaEffect →
      given req.capabilityId = some capability →
        req.capabilityConcurrency = concurrency capability) :
    (c.grant now req).2.Bounded concurrency := by
  intro capability
  rw [grant_count]
  split
  · rename_i hkey
    obtain ⟨heffect, hgiven⟩ := lockKey_eq_capabilityKey.mp hkey
    rw [atCapacity, heffect, hgiven] at hroom
    have hbelow := of_decide_eq_false hroom
    rw [hagrees capability heffect hgiven] at hbelow
    rw [count]
    omega
  · have hold := hbounded capability
    omega

theorem request_bounded {utc : String} {req : AdmissionRequest}
    (hbounded : (c.swept now).Bounded concurrency)
    (hagrees : ∀ capability, req.kind = .oeaEffect →
      given req.capabilityId = some capability →
        req.capabilityConcurrency = concurrency capability) :
    (c.request host now utc req).2.Bounded concurrency := by
  rcases c.request_cases host now utc req with ⟨_, _, _, h, -⟩ | ⟨-, -, -, h⟩
  · rw [h]
    exact hbounded
  · rw [h]
    rcases (c.swept now).place_cases now req with
      ⟨reason, hp⟩ | ⟨-, -, -, hp⟩ | ⟨-, hroom, -, -, hp⟩
    · rw [hp]
      exact hbounded
    · rw [hp]
      exact hbounded
    · rw [hp]
      exact grant_bounded hbounded hroom hagrees

/-- An operation drops its locks, and then grants its token. -/
theorem perform_ways (host : Host) (hcounted : Counted c) (now : ℚ) (op : Operation) :
    ∃ c₁, Drops (Admitting.dropped c now op) c c₁ ∧
      Grants c₁ ((c.perform host now op).2.bind AdmissionDecision.token)
        (c.perform host now op).1 ∧
      ∀ concurrency, op.Agrees concurrency → c₁.Bounded concurrency →
        (c.perform host now op).1.Bounded concurrency := by
  cases op with
  | request utc req =>
      refine ⟨c.swept now, swept_drops hcounted now,
        request_grants host c now utc req, ?_⟩
      intro concurrency hagrees hbounded
      exact request_bounded hbounded fun capability =>
        hagrees utc req capability rfl
  | beginCrrRecovery utc recoveryId n =>
      have hgrants := request_grants host c now utc
        (recoveryRequest host recoveryId n)
      have hsame : ∀ capability,
          (c.beginCrrRecovery host now utc recoveryId n).2.count capability =
            (c.request host now utc
              (recoveryRequest host recoveryId n)).2.count capability ∧
          (c.beginCrrRecovery host now utc recoveryId n).2.locks =
            (c.request host now utc
              (recoveryRequest host recoveryId n)).2.locks := by
        intro capability
        unfold beginCrrRecovery
        dsimp only
        split
        · exact ⟨rfl, rfl⟩
        · exact ⟨rfl, rfl⟩
      refine ⟨c.swept now, swept_drops hcounted now, ⟨?_, ?_, ?_⟩, ?_⟩
      · intro capability
        exact (hsame capability).1.trans (hgrants.counts capability)
      · intro key lock hget
        rw [perform, (hsame key).2] at hget
        exact hgrants.locks key lock hget
      · intro hswept
        have hafter := hgrants.counted hswept
        constructor
        · intro capability
          rw [perform, (hsame capability).1]
          exact hafter.nonneg capability
        · intro capability hcontains
          rw [perform, (hsame capability).2] at hcontains
          rw [perform, (hsame capability).1]
          exact hafter.held capability hcontains
      · intro concurrency _ hbounded capability
        have hreq : (c.request host now utc
            (recoveryRequest host recoveryId n)).2.Bounded concurrency :=
          request_bounded hbounded fun _ h => by cases h
        rw [perform, (hsame capability).1]
        exact hreq capability
  | complete token resultRef =>
      exact ⟨_, complete_drops hcounted now token resultRef, grants_none rfl rfl,
        fun _ _ h => h⟩
  | release token =>
      exact ⟨_, releaseHeld_drops hcounted token "released", grants_none rfl rfl,
        fun _ _ h => h⟩
  | assertPanic preemptor =>
      exact ⟨_, assertPanic_drops hcounted preemptor, grants_none rfl rfl,
        fun _ _ h => h⟩
  | endCrrRecovery =>
      exact ⟨_, endCrrRecovery_drops hcounted, grants_none rfl rfl,
        fun _ _ h => h⟩
  | drainQueues n =>
      exact ⟨_, drops_nil rfl rfl, grants_none rfl rfl, fun _ _ h => h⟩

end AdmissionController

/-! ## The accounts along a run -/

/-- The count of each capability is the number of its live tokens, and it is not
above the concurrency. -/
structure Accounted (concurrency : String → ℤ) (s : Admitting) : Prop where
  count : ∀ capability, s.controller.count capability =
    (s.live.countP (ofCapability capability) : ℕ)
  bounded : s.controller.Bounded concurrency

/-- The operation drops the lock of each capability as often as it ends a live
token of it. -/
def InStep (s : Admitting) (input : ℚ × Operation) : Prop :=
  ∀ capability,
    (s.ended input.1 input.2).countP (ofCapability capability) =
      (Admitting.dropped s.controller input.1 input.2).count
        (capabilityKey capability)

namespace Admitting

variable {concurrency : String → ℤ} {s : Admitting} {input : ℚ × Operation}

theorem countP_live
    (s : Admitting) (now : ℚ) (op : Operation) (p : AdmissionToken → Bool) :
    s.live.countP p = (s.remaining now op).countP p + (s.ended now op).countP p := by
  unfold remaining ended
  cases op.closes with
  | none =>
      have hsplit := List.countP_eq_countP_filter_add s.live p (ends now op)
      dsimp only
      omega
  | some token =>
      dsimp only
      by_cases hlive : token ∈ s.live
      · rw [(List.perm_cons_erase hlive).countP_eq, List.countP_cons, if_pos hlive,
          List.countP_cons, List.countP_nil]
        omega
      · rw [List.erase_of_not_mem hlive, if_neg hlive, List.countP_nil, add_zero]

theorem contains_of_heldBy {c : AdmissionController} {token : AdmissionToken}
    (hheld : c.heldBy token = true) : c.locks.contains token.lockKey = true := by
  rw [AdmissionController.heldBy] at hheld
  rw [Dict.contains]
  cases hget : c.locks.get? token.lockKey with
  | none =>
      rw [hget] at hheld
      cases hheld
  | some lock => rfl

theorem dropped_cases (c : AdmissionController) (now : ℚ) (op : Operation) :
    (∃ p, dropped c now op = c.keysWhere p) ∨
      (∃ key, c.locks.contains key = true ∧ dropped c now op = [key]) ∨
      dropped c now op = [] := by
  have hclosed : ∀ token : AdmissionToken,
      dropped c now op = (if c.heldBy token then [token.lockKey] else []) →
        (∃ key, c.locks.contains key = true ∧ dropped c now op = [key]) ∨
          dropped c now op = [] := by
    intro token h
    by_cases hheld : c.heldBy token = true
    · rw [if_pos hheld] at h
      exact Or.inl ⟨_, contains_of_heldBy hheld, h⟩
    · rw [if_neg hheld] at h
      exact Or.inr h
  cases op with
  | request utc req =>
      exact Or.inl ⟨fun lock => decide (lock.leaseUntil < now), rfl⟩
  | beginCrrRecovery utc recoveryId n =>
      exact Or.inl ⟨fun lock => decide (lock.leaseUntil < now), rfl⟩
  | complete token resultRef => exact Or.inr (hclosed token rfl)
  | release token => exact Or.inr (hclosed token rfl)
  | assertPanic preemptor =>
      exact Or.inl ⟨fun lock => decide (lock.kind ≠ .panic), rfl⟩
  | endCrrRecovery =>
      by_cases hheld : c.locks.contains "crr_recovery" = true
      · exact Or.inr (Or.inl ⟨_, hheld, if_pos hheld⟩)
      · exact Or.inr (Or.inr (if_neg hheld))
  | drainQueues n => exact Or.inr (Or.inr rfl)

theorem dropped_nodup (c : AdmissionController) (now : ℚ) (op : Operation) :
    (dropped c now op).Nodup := by
  rcases dropped_cases c now op with ⟨p, h⟩ | ⟨key, -, h⟩ | h
  · rw [h]
    exact c.keysWhere_nodup p
  · rw [h]
    exact List.nodup_singleton key
  · rw [h]
    exact List.nodup_nil

theorem dropped_held
    {c : AdmissionController} {now : ℚ} {op : Operation} {key : String}
    (hkey : key ∈ dropped c now op) : c.locks.contains key = true := by
  rcases dropped_cases c now op with ⟨p, h⟩ | ⟨key', hheld, h⟩ | h
  · rw [h] at hkey
    obtain ⟨lock, hget, -⟩ := AdmissionController.mem_keysWhere.mp hkey
    rw [Dict.contains, hget]
    rfl
  · rw [h, List.mem_singleton] at hkey
    rw [hkey]
    exact hheld
  · rw [h] at hkey
    exact absurd hkey List.not_mem_nil

theorem perform_counted
    (host : Host) {s : Admitting} (hcounted : s.controller.Counted)
    (input : ℚ × Operation) : (s.perform host input).1.controller.Counted := by
  obtain ⟨c₁, hdrops, hgrants, -⟩ :=
    AdmissionController.perform_ways host hcounted input.1 input.2
  exact hgrants.counted (hdrops.counted hcounted fun _ => dropped_held)

theorem perform_accounted_iff
    (host : Host) (hcounted : s.controller.Counted) (hs : Accounted concurrency s)
    (hagrees : input.2.Agrees concurrency) :
    Accounted concurrency (s.perform host input).1 ↔ InStep s input := by
  obtain ⟨c₁, hdrops, hgrants, hbound⟩ :=
    AdmissionController.perform_ways host hcounted input.1 input.2
  have hcount : ∀ capability,
      (s.perform host input).1.controller.count capability -
          ((s.perform host input).1.live.countP (ofCapability capability) : ℕ) =
        ((s.ended input.1 input.2).countP (ofCapability capability) : ℕ) -
          ((dropped s.controller input.1 input.2).count
            (capabilityKey capability) : ℕ) := by
    intro capability
    have hbefore := hs.count capability
    have hafter := hgrants.counts capability
    have hmiddle := hdrops.counts capability
    have hlive := countP_live s input.1 input.2 (ofCapability capability)
    rw [(dropped_nodup s.controller input.1 input.2).count]
    rw [perform]
    dsimp only
    rw [List.countP_append]
    split at hmiddle
    · rename_i hmem
      rw [if_pos hmem]
      omega
    · rename_i hmem
      rw [if_neg hmem]
      omega
  constructor
  · intro hafter capability
    have hequal := hafter.count capability
    have hdifference := hcount capability
    omega
  · intro hstep
    constructor
    · intro capability
      have hequal := hstep capability
      have hdifference := hcount capability
      omega
    · exact hbound concurrency hagrees (hdrops.bounded hs.bounded)

end Admitting

def opened (queueCapacity : ℤ) (retentionS defaultLeaseS : ℚ) : Admitting where
  controller := { queueCapacity, retentionS, defaultLeaseS }

theorem opened_counted (queueCapacity : ℤ) (retentionS defaultLeaseS : ℚ) :
    (opened queueCapacity retentionS defaultLeaseS).controller.Counted :=
  ⟨fun _ => le_refl _, fun _ h => by cases h⟩

theorem opened_accounted
    (concurrency : String → ℤ) (queueCapacity : ℤ) (retentionS defaultLeaseS : ℚ) :
    Accounted concurrency (opened queueCapacity retentionS defaultLeaseS) :=
  ⟨fun _ => rfl, fun _ => le_trans zero_le_one (le_max_left _ _)⟩

/-- The counts are the numbers of the live tokens along a run exactly when every
operation is in step. -/
theorem accounted_iff
    (host : Host) (queueCapacity : ℤ) (retentionS defaultLeaseS : ℚ)
    (concurrency : String → ℤ) (inputs : List (ℚ × Operation))
    (hagrees : ∀ input ∈ inputs, input.2.Agrees concurrency) :
    (∀ e ∈ (admissionMachine host).trace
        (opened queueCapacity retentionS defaultLeaseS) inputs,
        Accounted concurrency e.after) ↔
      (admissionMachine host).Guarded InStep
        (opened queueCapacity retentionS defaultLeaseS) inputs := by
  refine @Machine.forall_after_iff_guarded _ _ _ _
    (fun s => s.controller.Counted ∧ Accounted concurrency s) _ _ inputs ?_ ?_ _
    ⟨opened_counted _ _ _, opened_accounted _ _ _ _⟩
  · rintro s input hinput ⟨hcounted, hs⟩
    exact Admitting.perform_accounted_iff host hcounted hs (hagrees input hinput)
  · rintro s input _ ⟨hcounted, -⟩ hafter
    exact ⟨Admitting.perform_counted host hcounted input, hafter⟩

/-- A request of the capability of which `concurrency` effects may run. -/
def effectRequest (requestId : String) (concurrency : ℤ) : AdmissionRequest where
  requestId := requestId
  kind := .oeaEffect
  idempotencyKey := requestId
  capabilityId := some "report.write"
  capabilityConcurrency := concurrency

def effectToken (requestId : String) (leaseUntil : ℚ) : AdmissionToken where
  requestId := requestId
  kind := .oeaEffect
  lockKey := "oea:report.write"
  idempotencyKey := requestId
  leaseUntil := leaseUntil

theorem effectRequest_agrees (requestId utc : String) (concurrency : ℤ) :
    (Operation.request utc (effectRequest requestId concurrency)).Agrees
      fun _ => concurrency := by
  rintro _ _ _ ⟨rfl, rfl⟩ _ _
  rfl

def oneEffect : List (ℚ × Operation) :=
  [(0, .request "2026-01-01T00:00:00+00:00" (effectRequest "first" 1)),
    (1, .complete (effectToken "first" 300) "done")]

theorem oneEffect_accounted :
    (∀ op ∈ oneEffect, op.2.Agrees fun _ => 1) ∧
      ∀ e ∈ (admissionMachine referenceHost).trace (opened 64 3600 300)
          oneEffect,
        Accounted (fun _ => 1) e.after := by
  have hagrees : ∀ op ∈ oneEffect, op.2.Agrees fun _ => 1 := by
    refine List.forall_mem_cons.mpr ⟨effectRequest_agrees "first" _ 1, ?_⟩
    exact List.forall_mem_singleton.mpr fun _ _ _ h => by cases h
  refine ⟨hagrees,
    (accounted_iff referenceHost 64 3600 300 _ oneEffect hagrees).mpr ?_⟩
  rw [oneEffect, Machine.guarded_cons, Machine.guarded_cons]
  refine ⟨fun _ => rfl, fun capability => ?_, Machine.guarded_nil⟩
  have hended : Admitting.ended
      ((admissionMachine referenceHost).step (opened 64 3600 300)
        (0, .request "2026-01-01T00:00:00+00:00" (effectRequest "first" 1))).1
      1 (.complete (effectToken "first" 300) "done") =
        [effectToken "first" 300] := by decide +kernel
  have hdropped : Admitting.dropped
      ((admissionMachine referenceHost).step (opened 64 3600 300)
        (0, .request "2026-01-01T00:00:00+00:00"
          (effectRequest "first" 1))).1.controller
      1 (.complete (effectToken "first" 300) "done") =
        ["oea:report.write"] := by decide +kernel
  dsimp only
  rw [hended, hdropped, List.countP_singleton, List.count_singleton]
  simp only [ofCapability, effectToken, beq_iff_eq]
  exact if_congr decide_eq_true_iff rfl rfl

def sharedLock : List (ℚ × Operation) :=
  [(0, .request "2026-01-01T00:00:00+00:00" (effectRequest "first" 2)),
    (1, .request "2026-01-01T00:00:00+00:00" (effectRequest "second" 2)),
    (2, .complete (effectToken "first" 300) "done")]

/-- The completion of the first effect finds the lock of the second one, and the
count stays. -/
theorem sharedLock_not_accounted :
    (∀ input ∈ sharedLock, input.2.Agrees fun _ => 2) ∧
      (sharedLock.map Prod.fst).Pairwise (· ≤ ·) ∧
      ∃ e ∈ (admissionMachine referenceHost).trace (opened 64 3600 300) sharedLock,
        e.after.live = [effectToken "second" 301] ∧
          e.after.controller.count "report.write" = 2 ∧
          ¬ Accounted (fun _ => 2) e.after := by
  refine ⟨?_, by decide +kernel, ?_⟩
  · refine List.forall_mem_cons.mpr ⟨effectRequest_agrees "first" _ 2, ?_⟩
    refine List.forall_mem_cons.mpr ⟨effectRequest_agrees "second" _ 2, ?_⟩
    exact List.forall_mem_singleton.mpr fun _ _ _ h => by cases h
  · have hlive : ((admissionMachine referenceHost).final (opened 64 3600 300)
        sharedLock).live = [effectToken "second" 301] := by decide +kernel
    have hcount : ((admissionMachine referenceHost).final (opened 64 3600 300)
        sharedLock).controller.count "report.write" = 2 := by decide +kernel
    refine ⟨_, List.mem_cons_of_mem _ (List.mem_cons_of_mem _
      List.mem_cons_self), hlive, hcount, fun haccounted => ?_⟩
    have hequal := (haccounted.count "report.write").symm.trans hcount
    have hone : ((admissionMachine referenceHost).final (opened 64 3600 300)
        sharedLock).live.countP (ofCapability "report.write") = 1 := by
      rw [hlive]
      decide
    exact absurd (hone ▸ hequal) (by decide)

end Hydrogenuine.Admission
