import Hydrogenuine.Runtime.Contract
import Hydrogenuine.Support.Dict

/-!
# The admission controller

Embedding of `hg_core/admission`: the request types, the preemption matrix, the
idempotency store and the controller.  Each operation runs under the mutex of the
controller, so that operations are functions on its state, with the reading of the
clock as an argument.
-/

namespace Hydrogenuine.Admission

open Support Hydrogenuine.Core Hydrogenuine.Runtime

abbrev Items := List (String × PyVal)

/-! ## Types -/

inductive MutatingKind where
  | srpApply
  | maxAutoRun
  | melCycle
  | oeaEffect
  | terCommand
  | crrRecovery
  | panic
deriving DecidableEq

def MutatingKind.text : MutatingKind → String
  | .srpApply => "srp_apply"
  | .maxAutoRun => "max_auto_run"
  | .melCycle => "mel_cycle"
  | .oeaEffect => "oea_effect"
  | .terCommand => "ter_command"
  | .crrRecovery => "crr_recovery"
  | .panic => "panic"

structure ApprovalBinding where
  proposalHash : String
  registryHash : String
  expiresAt : Option String := none

structure AdmissionRequest where
  requestId : String
  kind : MutatingKind
  idempotencyKey : String
  operatorId : Option String := none
  sandboxId : Option String := none
  capabilityId : Option String := none
  approvalBinding : Option ApprovalBinding := none
  capabilityConcurrency : ℤ := 1

structure AdmissionToken where
  requestId : String
  kind : MutatingKind
  lockKey : String
  idempotencyKey : String
  leaseUntil : ℚ

inductive AdmissionVerdict where
  | admitted
  | refused
  | queued
deriving DecidableEq

structure AdmissionDecision where
  verdict : AdmissionVerdict
  reasonCode : String
  token : Option AdmissionToken := none
  duplicateOf : Option String := none
  events : List Draft := []

def AdmissionDecision.admitted (decision : AdmissionDecision) : Bool :=
  decision.verdict == .admitted

structure ActiveLock where
  lockKey : String
  requestId : String
  kind : MutatingKind
  leaseUntil : ℚ
  idempotencyKey : String
deriving DecidableEq

structure IdempotencyRecord where
  key : String
  requestId : String
  resultRef : String
  recordedAt : ℚ

structure PreemptionReceipt where
  preemptor : String
  preemptedRequestId : String
  preemptedKind : MutatingKind
  reasonCode : String := "admission.preempted.operator_cancelled"

structure DrainReceipt where
  drained : ℕ
  checkpointed : ℕ
  receiptId : String

def given : Option String → Option String
  | some "" => none
  | text => text

def AdmissionRequest.toPayload (req : AdmissionRequest) : Items :=
  [("request_id", .str req.requestId), ("kind", .str req.kind.text),
    ("idempotency_key", .str req.idempotencyKey),
    ("operator_id", .ofOption req.operatorId),
    ("sandbox_id", .ofOption req.sandboxId),
    ("capability_id", .ofOption req.capabilityId),
    ("approval_binding",
      match req.approvalBinding with
      | some binding =>
          .dict [("proposal_hash", .str binding.proposalHash),
            ("registry_hash", .str binding.registryHash),
            ("expires_at", .ofOption binding.expiresAt)]
      | none => .none),
    ("capability_concurrency", .int req.capabilityConcurrency)]

def PreemptionReceipt.toPayload (receipt : PreemptionReceipt) : Items :=
  [("preemptor", .str receipt.preemptor),
    ("preempted_request_id", .str receipt.preemptedRequestId),
    ("preempted_kind", .str receipt.preemptedKind.text),
    ("reason_code", .str receipt.reasonCode)]

def DrainReceipt.toPayload (receipt : DrainReceipt) : Items :=
  [("drained", .int receipt.drained),
    ("checkpointed", .int receipt.checkpointed),
    ("receipt_id", .str receipt.receiptId)]

/-- `_draft` of `events.py`, without a parent. -/
def admissionDraft (type : String) (payload : Items) : Draft where
  type := type
  payload := payload
  causalParents := []

/-! ## The preemption matrix -/

inductive Fate where
  | admits
  | refuse
  | wait
  | preempt
  | queue
deriving DecidableEq

/-- `_MATRIX`: holder and arriving request. -/
def preemptionMatrix : List ((MutatingKind × MutatingKind) × Fate) :=
  [((.panic, .crrRecovery), .wait),
    ((.panic, .srpApply), .refuse),
    ((.panic, .melCycle), .refuse),
    ((.panic, .oeaEffect), .refuse),
    ((.panic, .terCommand), .refuse),
    ((.crrRecovery, .srpApply), .refuse),
    ((.crrRecovery, .melCycle), .preempt),
    ((.crrRecovery, .oeaEffect), .queue),
    ((.crrRecovery, .terCommand), .queue),
    ((.srpApply, .srpApply), .refuse),
    ((.srpApply, .melCycle), .queue),
    ((.melCycle, .melCycle), .refuse)]

def arrivingFate
    (holder : Option MutatingKind) (arriving : MutatingKind)
    (panicActive : Bool) : Fate :=
  if panicActive && arriving != .panic then .refuse
  else
    match holder with
    | none => .admits
    | some kind => (preemptionMatrix.lookup (kind, arriving)).getD .admits

/-! ## The state -/

/-- `AdmissionController`, with the idempotency store in it. -/
structure AdmissionController where
  queueCapacity : ℤ := 64
  retentionS : ℚ := 3600
  defaultLeaseS : ℚ := 300
  idempotency : Dict String IdempotencyRecord := Dict.empty
  locks : Dict String ActiveLock := Dict.empty
  capabilityCounts : Dict String ℤ := Dict.empty
  terSandboxHolders : Dict String String := Dict.empty
  queue : List (AdmissionRequest × ℚ) := []
  panicActive : Bool := false
  crrRecoveryActive : Bool := false
  eventLog : List Draft := []

def lockKey (req : AdmissionRequest) : String :=
  match req.kind, given req.capabilityId, given req.sandboxId with
  | .srpApply, _, _ => "srp_apply"
  | .maxAutoRun, _, _ => "max_auto_run"
  | .melCycle, _, _ => "mel_cycle"
  | .oeaEffect, some capability, _ => "oea:" ++ capability
  | .terCommand, _, some sandbox => "ter:" ++ sandbox
  | .crrRecovery, _, _ => "crr_recovery"
  | kind, _, _ => kind.text ++ ":" ++ req.requestId

/-- `lock_key.split(":", 1)[1]` of a key with a prefix of three letters. -/
def afterColon (key : String) : String := String.ofList (key.toList.drop 4)

def MutatingKind.singleton : MutatingKind → Bool
  | .srpApply => true
  | .maxAutoRun => true
  | .melCycle => true
  | _ => false

namespace AdmissionController

/-! ## Idempotency -/

/-- `_purge`: the expired records go. -/
def purge (c : AdmissionController) (now : ℚ) : AdmissionController :=
  { c with
    idempotency := c.idempotency.filter fun _ record =>
      !decide (c.retentionS < now - record.recordedAt) }

def record
    (c : AdmissionController) (key requestId resultRef : String) (now : ℚ) :
    AdmissionController :=
  { c.purge now with
    idempotency := (c.purge now).idempotency.set key
      { key, requestId, resultRef, recordedAt := now } }

/-! ## Locks -/

def releaseLock
    (c : AdmissionController) (key : String) (active : ActiveLock)
    (reason : String) : AdmissionController :=
  { c with
    locks := c.locks.filter fun k _ => decide (k ≠ key)
    capabilityCounts :=
      if startsWith key "oea:" then
        c.capabilityCounts.set (afterColon key)
          (max 0 ((c.capabilityCounts.get? (afterColon key)).getD 1 - 1))
      else c.capabilityCounts
    terSandboxHolders :=
      if startsWith key "ter:" then
        c.terSandboxHolders.filter fun k _ => decide (k ≠ afterColon key)
      else c.terSandboxHolders
    eventLog := c.eventLog ++
      [admissionDraft "ADM_LOCK_RELEASED"
        [("lock_key", .str key), ("request_id", .str active.requestId),
          ("reason_code", .str reason)]] }

def reclaimExpired (c : AdmissionController) (now : ℚ) : AdmissionController :=
  c.locks.entries.foldl
    (fun c entry =>
      if entry.2.leaseUntil < now then
        c.releaseLock entry.1 entry.2 "admission.refused.lock_lease_expired"
      else c) c

def releaseHeld
    (c : AdmissionController) (token : AdmissionToken) (reason : String) :
    AdmissionController :=
  match c.locks.get? token.lockKey with
  | some active =>
      if active.requestId == token.requestId then
        c.releaseLock token.lockKey active reason
      else c
  | none => c

/-! ## Requests -/

def refuse
    (c : AdmissionController) (req : AdmissionRequest) (reasonCode : String)
    (duplicateOf : Option String := none) (extra : List Draft := []) :
    AdmissionDecision × AdmissionController :=
  let events :=
    [admissionDraft "ADM_ADMISSION_REQUESTED" req.toPayload,
      admissionDraft "ADM_ADMISSION_REFUSED"
        [("request_id", .str req.requestId), ("kind", .str req.kind.text),
          ("reason_code", .str reasonCode),
          ("idempotency_key", .str req.idempotencyKey),
          ("duplicate_of", .ofOption duplicateOf)]] ++ extra
  ({ verdict := .refused, reasonCode, duplicateOf, events },
    { c with eventLog := c.eventLog ++ events })

def validateApproval
    (host : Host) (utc : String) (req : AdmissionRequest) : Option String :=
  match req.approvalBinding with
  | none => none
  | some binding =>
      if binding.proposalHash = "" ∨ binding.proposalHash = "unknown" then
        some staleApproval
      else if binding.registryHash = "stale" then some staleApproval
      else if binding.expiresAt = some "expired" then some staleApproval
      else
        match given binding.expiresAt with
        | none => none
        | some expiresAt =>
            let window := validateApprovalWindow host (some expiresAt) utc
            if window.1 then none else some window.2

def fate (c : AdmissionController) (req : AdmissionRequest) : Fate :=
  if c.crrRecoveryActive && req.kind == .melCycle then .preempt
  else
    arrivingFate ((c.locks.get? (lockKey req)).map ActiveLock.kind) req.kind
      c.panicActive

def grant (c : AdmissionController) (now : ℚ) (req : AdmissionRequest) :
    AdmissionDecision × AdmissionController :=
  let key := lockKey req
  let payload : Items :=
    [("request_id", .str req.requestId), ("kind", .str req.kind.text),
      ("lock_key", .str key), ("idempotency_key", .str req.idempotencyKey)]
  let events :=
    [admissionDraft "ADM_ADMISSION_REQUESTED" req.toPayload,
      admissionDraft "ADM_ADMISSION_GRANTED" payload,
      admissionDraft "ADM_LOCK_ACQUIRED" payload]
  ({ verdict := .admitted
     reasonCode := "ok"
     token := some
       { requestId := req.requestId
         kind := req.kind
         lockKey := key
         idempotencyKey := req.idempotencyKey
         leaseUntil := now + c.defaultLeaseS }
     events },
    { c with
      locks := c.locks.set key
        { lockKey := key
          requestId := req.requestId
          kind := req.kind
          leaseUntil := now + c.defaultLeaseS
          idempotencyKey := req.idempotencyKey }
      capabilityCounts :=
        match req.kind, given req.capabilityId with
        | .oeaEffect, some capability =>
            c.capabilityCounts.set capability
              ((c.capabilityCounts.get? capability).getD 0 + 1)
        | _, _ => c.capabilityCounts
      terSandboxHolders :=
        match req.kind, given req.sandboxId with
        | .terCommand, some sandbox =>
            c.terSandboxHolders.set sandbox req.requestId
        | _, _ => c.terSandboxHolders
      eventLog := c.eventLog ++ events })

def atCapacity (c : AdmissionController) (req : AdmissionRequest) : Bool :=
  match req.kind, given req.capabilityId with
  | .oeaEffect, some capability =>
      decide (max 1 req.capabilityConcurrency ≤
        (c.capabilityCounts.get? capability).getD 0)
  | _, _ => false

def sandboxTaken (c : AdmissionController) (req : AdmissionRequest) : Bool :=
  match req.kind, given req.sandboxId with
  | .terCommand, some sandbox => c.terSandboxHolders.contains sandbox
  | _, _ => false

def enqueue (c : AdmissionController) (now : ℚ) (req : AdmissionRequest) :
    AdmissionDecision × AdmissionController :=
  ({ verdict := .queued
     reasonCode := "admission.queued.capacity"
     events := [admissionDraft "ADM_ADMISSION_REQUESTED" req.toPayload] },
    { c with queue := c.queue ++ [(req, now)] })

/-- What is decided about a request that is neither a duplicate, nor stale, nor
stopped by a panic. -/
def place (c : AdmissionController) (now : ℚ) (req : AdmissionRequest) :
    AdmissionDecision × AdmissionController :=
  let held := c.locks.contains (lockKey req)
  if c.fate req = .refuse then
    if (req.kind == .srpApply || req.kind == .maxAutoRun) && held then
      c.refuse req "admission.refused.singleton_held"
    else c.refuse req "admission.refused.preempted"
  else if c.atCapacity req then
    if c.queueCapacity ≤ c.queue.length then
      c.refuse req "admission.refused.queue_overflow"
    else c.enqueue now req
  else if c.sandboxTaken req then
    c.refuse req "admission.refused.singleton_held"
  else if req.kind.singleton && held then
    c.refuse req "admission.refused.singleton_held"
  else c.grant now req

def request
    (host : Host) (c : AdmissionController) (now : ℚ) (utc : String)
    (req : AdmissionRequest) : AdmissionDecision × AdmissionController :=
  let c := (c.reclaimExpired now).purge now
  match (c.idempotency.get? req.idempotencyKey).filter
      fun dup => dup.requestId != req.requestId with
  | some dup =>
      c.refuse req "admission.refused.duplicate_request" (some dup.requestId)
        [admissionDraft "ADM_IDEMPOTENCY_HIT"
          [("idempotency_key", .str req.idempotencyKey),
            ("original_request_id", .str dup.requestId),
            ("result_ref", .str dup.resultRef)]]
  | none =>
      match validateApproval host utc req with
      | some stale => c.refuse req stale
      | none =>
          if c.panicActive && req.kind != .panic then
            c.refuse req "admission.refused.panic_active"
          else c.place now req

/-! ## Other operations -/

def complete
    (c : AdmissionController) (now : ℚ) (token : AdmissionToken)
    (resultRef : String) : AdmissionController :=
  (c.record token.idempotencyKey token.requestId resultRef now).releaseHeld
    token "ok"

def release (c : AdmissionController) (token : AdmissionToken) :
    AdmissionController :=
  c.releaseHeld token "released"

def assertPanic (c : AdmissionController) (preemptor : String) :
    List PreemptionReceipt × AdmissionController :=
  let c :=
    { c with
      panicActive := true
      eventLog := c.eventLog ++
        [admissionDraft "ADM_PANIC_ASSERTED" [("preemptor", .str preemptor)]] }
  c.locks.entries.foldl
    (fun (acc : List PreemptionReceipt × AdmissionController) entry =>
      if entry.2.kind = .panic then acc
      else
        let receipt : PreemptionReceipt :=
          { preemptor
            preemptedRequestId := entry.2.requestId
            preemptedKind := entry.2.kind }
        let c :=
          { acc.2 with
            eventLog := acc.2.eventLog ++
              [admissionDraft "ADM_PREEMPTION_RECEIPTED" receipt.toPayload] }
        (acc.1 ++ [receipt],
          c.releaseLock entry.1 entry.2
            "admission.preempted.operator_cancelled")) ([], c)

/-- `begin_crr_recovery`; without an id the `n`-th `uuid4()` gives one. -/
def beginCrrRecovery
    (host : Host) (c : AdmissionController) (now : ℚ) (utc : String)
    (recoveryId : Option String) (n : ℕ) :
    Option AdmissionToken × AdmissionController :=
  let decided := c.request host now utc
    { requestId := orText recoveryId ("crr_" ++ slice (host.uuidHex n) 0 8)
      kind := .crrRecovery
      idempotencyKey := "crr:" ++ orText recoveryId "active" }
  if decided.1.admitted then
    (decided.1.token, { decided.2 with crrRecoveryActive := true })
  else (none, decided.2)

def endCrrRecovery (c : AdmissionController) : AdmissionController :=
  let c := { c with crrRecoveryActive := false }
  match c.locks.get? "crr_recovery" with
  | some active => c.releaseLock "crr_recovery" active "crr_complete"
  | none => c

/-- `drain_queues`: the receipt and the state. -/
def drainQueues
    (host : Host) (c : AdmissionController) (n : ℕ) :
    DrainReceipt × AdmissionController :=
  let receipt : DrainReceipt :=
    { drained := c.queue.length
      checkpointed := c.queue.length
      receiptId := "drain_" ++ slice (host.uuidHex n) 0 12 }
  (receipt,
    { c with
      queue := []
      eventLog := c.eventLog ++
        [admissionDraft "ADM_QUEUE_DRAINED" receipt.toPayload] })

/-! ## What a request can do -/

/-- A placed request is refused, or waits for a capability that is used up, or is
granted. -/
theorem place_cases
    (c : AdmissionController) (now : ℚ) (req : AdmissionRequest) :
    (∃ reason, c.place now req = c.refuse req reason) ∨
      (c.fate req ≠ .refuse ∧ c.atCapacity req = true ∧
        ¬ c.queueCapacity ≤ c.queue.length ∧
        c.place now req = c.enqueue now req) ∨
      (c.fate req ≠ .refuse ∧ c.atCapacity req = false ∧
        c.sandboxTaken req = false ∧
        (req.kind.singleton && c.locks.contains (lockKey req)) = false ∧
        c.place now req = c.grant now req) := by
  unfold place
  by_cases hfate : c.fate req = .refuse
  · refine Or.inl ?_
    simp only [if_pos hfate]
    split
    · exact ⟨_, rfl⟩
    · exact ⟨_, rfl⟩
  by_cases hcapacity : c.atCapacity req = true
  · by_cases hqueue : c.queueCapacity ≤ c.queue.length
    · refine Or.inl ⟨"admission.refused.queue_overflow", ?_⟩
      simp only [if_neg hfate, if_pos hcapacity, if_pos hqueue]
    · refine Or.inr (Or.inl ⟨hfate, hcapacity, hqueue, ?_⟩)
      simp only [if_neg hfate, if_pos hcapacity, if_neg hqueue]
  by_cases hsandbox : c.sandboxTaken req = true
  · refine Or.inl ⟨"admission.refused.singleton_held", ?_⟩
    simp only [if_neg hfate, if_neg hcapacity, if_pos hsandbox]
  by_cases hheld : (req.kind.singleton && c.locks.contains (lockKey req)) = true
  · refine Or.inl ⟨"admission.refused.singleton_held", ?_⟩
    simp only [if_neg hfate, if_neg hcapacity, if_neg hsandbox, if_pos hheld]
  · refine Or.inr (Or.inr ⟨hfate, Bool.eq_false_iff.mpr hcapacity,
      Bool.eq_false_iff.mpr hsandbox, Bool.eq_false_iff.mpr hheld, ?_⟩)
    simp only [if_neg hfate, if_neg hcapacity, if_neg hsandbox, if_neg hheld]

def swept (c : AdmissionController) (now : ℚ) : AdmissionController :=
  (c.reclaimExpired now).purge now

/-- A request is placed if no record keeps its key for another request, its approval is in
time and it is no request that a panic stops; else it is refused. -/
theorem request_cases
    (host : Host) (c : AdmissionController) (now : ℚ) (utc : String)
    (req : AdmissionRequest) :
    (∃ reason duplicateOf extra, c.request host now utc req =
        (c.swept now).refuse req reason duplicateOf extra ∧
        ¬ ((∀ record, (c.swept now).idempotency.get? req.idempotencyKey = some record →
            record.requestId = req.requestId) ∧
          validateApproval host utc req = none ∧
          ((c.swept now).panicActive && req.kind != .panic) = false)) ∨
      ((∀ record, (c.swept now).idempotency.get? req.idempotencyKey = some record →
          record.requestId = req.requestId) ∧
        validateApproval host utc req = none ∧
        ((c.swept now).panicActive && req.kind != .panic) = false ∧
        c.request host now utc req = (c.swept now).place now req) := by
  have hrequest : c.request host now utc req =
      match ((c.swept now).idempotency.get? req.idempotencyKey).filter
          fun dup => dup.requestId != req.requestId with
      | some dup =>
          (c.swept now).refuse req "admission.refused.duplicate_request"
            (some dup.requestId)
            [admissionDraft "ADM_IDEMPOTENCY_HIT"
              [("idempotency_key", .str req.idempotencyKey),
                ("original_request_id", .str dup.requestId),
                ("result_ref", .str dup.resultRef)]]
      | none =>
          match validateApproval host utc req with
          | some stale => (c.swept now).refuse req stale
          | none =>
              if (c.swept now).panicActive && req.kind != .panic then
                (c.swept now).refuse req "admission.refused.panic_active"
              else (c.swept now).place now req := rfl
  have hown : (∀ record,
        (c.swept now).idempotency.get? req.idempotencyKey = some record →
          record.requestId = req.requestId) ↔
      ((c.swept now).idempotency.get? req.idempotencyKey).filter
        (fun dup => dup.requestId != req.requestId) = none := by
    rw [Option.filter_eq_none_iff]
    refine forall_congr' fun record => imp_congr_right fun _ => ?_
    rw [bne_iff_ne, not_not]
  rw [hrequest, hown]
  cases hdup : ((c.swept now).idempotency.get? req.idempotencyKey).filter
      fun dup => dup.requestId != req.requestId with
  | some dup => exact Or.inl ⟨_, _, _, rfl, fun hpasses => nomatch hpasses.1⟩
  | none =>
      cases validateApproval host utc req with
      | some stale => exact Or.inl ⟨_, _, _, rfl, fun hpasses => nomatch hpasses.2.1⟩
      | none =>
          by_cases hpanic :
              ((c.swept now).panicActive && req.kind != .panic) = true
          · exact Or.inl ⟨_, _, _, if_pos hpanic,
              fun hpasses => Bool.eq_false_iff.mp hpasses.2.2 hpanic⟩
          · exact Or.inr ⟨rfl, rfl, Bool.eq_false_iff.mpr hpanic, if_neg hpanic⟩

/-! ## The idempotency store under the operations -/

/-- The two controllers keep the same records for the same time. -/
def SameStore (c c' : AdmissionController) : Prop :=
  c'.idempotency = c.idempotency ∧ c'.retentionS = c.retentionS

theorem SameStore.refl (c : AdmissionController) : SameStore c c := ⟨rfl, rfl⟩

theorem SameStore.trans
    {c c' c'' : AdmissionController}
    (h : SameStore c c') (h' : SameStore c' c'') : SameStore c c'' :=
  ⟨h'.1.trans h.1, h'.2.trans h.2⟩

theorem reclaimExpired_sameStore (c : AdmissionController) (now : ℚ) :
    SameStore c (c.reclaimExpired now) := by
  have hfold : ∀ (entries : List (String × ActiveLock)) (d : AdmissionController),
      SameStore d (entries.foldl
        (fun c entry =>
          if entry.2.leaseUntil < now then
            c.releaseLock entry.1 entry.2 "admission.refused.lock_lease_expired"
          else c) d) := by
    intro entries
    induction entries with
    | nil => exact SameStore.refl
    | cons entry entries ih =>
        intro d
        rw [List.foldl_cons]
        by_cases hexpired : entry.2.leaseUntil < now
        · rw [if_pos hexpired]
          exact SameStore.trans ⟨rfl, rfl⟩ (ih _)
        · rw [if_neg hexpired]
          exact ih d
  exact hfold c.locks.entries c

theorem swept_sameStore (c : AdmissionController) (now : ℚ) :
    SameStore (c.purge now) (c.swept now) := by
  obtain ⟨hstore, hretention⟩ := reclaimExpired_sameStore c now
  unfold swept purge
  rw [SameStore, hstore, hretention]
  exact ⟨rfl, rfl⟩

theorem releaseHeld_sameStore
    (c : AdmissionController) (token : AdmissionToken) (reason : String) :
    SameStore c (c.releaseHeld token reason) := by
  unfold releaseHeld
  split
  · split
    · exact ⟨rfl, rfl⟩
    · exact SameStore.refl c
  · exact SameStore.refl c

theorem place_sameStore
    (c : AdmissionController) (now : ℚ) (req : AdmissionRequest) :
    SameStore c (c.place now req).2 := by
  rcases c.place_cases now req with ⟨reason, h⟩ | ⟨-, -, -, h⟩ | ⟨-, -, -, -, h⟩
  · rw [h]
    exact ⟨rfl, rfl⟩
  · rw [h]
    exact ⟨rfl, rfl⟩
  · rw [h]
    exact ⟨rfl, rfl⟩

theorem request_sameStore
    (host : Host) (c : AdmissionController) (now : ℚ) (utc : String)
    (req : AdmissionRequest) :
    SameStore (c.purge now) (c.request host now utc req).2 := by
  refine (c.swept_sameStore now).trans ?_
  rcases c.request_cases host now utc req with ⟨_, _, _, h, -⟩ | ⟨-, -, -, h⟩
  · rw [h]
    exact ⟨rfl, rfl⟩
  · rw [h]
    exact place_sameStore _ now req

theorem request_admitted
    {host : Host} {c : AdmissionController} {now : ℚ} {utc : String}
    {req : AdmissionRequest} {token : AdmissionToken}
    (htoken : (c.request host now utc req).1.token = some token) :
    token.idempotencyKey = req.idempotencyKey ∧
      ∀ record, (c.purge now).idempotency.get? req.idempotencyKey = some record →
        record.requestId = req.requestId := by
  rcases c.request_cases host now utc req with ⟨_, _, _, h, -⟩ | ⟨hown, -, -, h⟩
  · rw [h] at htoken
    cases htoken
  · rw [h] at htoken
    constructor
    · rcases (c.swept now).place_cases now req with
        ⟨reason, hp⟩ | ⟨-, -, -, hp⟩ | ⟨-, -, -, -, hp⟩
      · rw [hp] at htoken
        cases htoken
      · rw [hp] at htoken
        cases htoken
      · rw [hp] at htoken
        cases htoken
        rfl
    · rw [(c.swept_sameStore now).1] at hown
      exact hown

end AdmissionController

end Hydrogenuine.Admission
