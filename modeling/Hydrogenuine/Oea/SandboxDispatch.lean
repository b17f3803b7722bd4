import Hydrogenuine.Gpp.Verifier
import Hydrogenuine.Oea.AtMostOnce

/-!
# Bounded dispatch of slice 2

Embedding of `hg_oea/sandbox_dispatch.py` and of the handoff record of
`hg_oea/ter_handoff.py`: preflight, consumption of the permit, the bounded effect,
and one receipt for every outcome.  What the clock, the sandbox and the ledger file
answer during a call is part of the call.

Along every sequence of calls a permit is executed at most once, and a failed
preflight consumes nothing.  A receipt is left exactly by the calls that raise
nothing: the write under the sandbox may raise more than the `ValidationError` that
is caught, and then the permit is consumed without a receipt.
-/

namespace Hydrogenuine.Oea

open Support Hydrogenuine.Core Hydrogenuine.Runtime
open Gpp (PermitStore PermitConsumeReceipt ConsumeResult)

/-! ## The handoff -/

structure SafetyTranslation where
  allowed : Bool
  reasonCode : String
  policyVersion : String
  riskClass : String

def SafetyTranslation.toPayload (translation : SafetyTranslation) : Items :=
  [("allowed", .bool translation.allowed),
    ("reason_code", .str translation.reasonCode),
    ("policy_version", .str translation.policyVersion),
    ("risk_class", .str translation.riskClass)]

/-- `TERHandoff`.  The hash is a field of its own: a forged record may carry any. -/
structure TERHandoff where
  handoffId : String
  createdAt : String
  requestId : String
  permitId : String
  permitHash : String
  ueakReceiptId : String
  ueakReceiptHash : String
  ueakDispatchId : String
  capabilityId : String
  effectClass : String
  inputHash : String
  sinkType : String
  dispatchMode : String
  translation : SafetyTranslation
  authorityCreated : Bool := false
  permissionGranted : Bool := false
  liveActionPerformed : Bool := false
  noExternalEffects : Bool := true
  recordHash : String

namespace TERHandoff

/-- `to_payload(include_hash=False)`. -/
def body (handoff : TERHandoff) : Items :=
  [("schema", .str "ueak-ter-handoff"), ("schema_version", .str "1.0"),
    ("handoff_id", .str handoff.handoffId),
    ("created_at", .str handoff.createdAt),
    ("request_id", .str handoff.requestId),
    ("permit_id", .str handoff.permitId),
    ("permit_hash", .str handoff.permitHash),
    ("ueak_receipt_id", .str handoff.ueakReceiptId),
    ("ueak_receipt_hash", .str handoff.ueakReceiptHash),
    ("ueak_dispatch_id", .str handoff.ueakDispatchId),
    ("capability_id", .str handoff.capabilityId),
    ("effect_class", .str handoff.effectClass),
    ("input_hash", .str handoff.inputHash),
    ("sink_type", .str handoff.sinkType),
    ("dispatch_mode", .str handoff.dispatchMode),
    ("translation", .dict handoff.translation.toPayload),
    ("authority_created", .bool handoff.authorityCreated),
    ("permission_granted", .bool handoff.permissionGranted),
    ("live_action_performed", .bool handoff.liveActionPerformed),
    ("no_external_effects", .bool handoff.noExternalEffects)]

def toPayload (handoff : TERHandoff) : Items :=
  handoff.body ++ [("record_hash", .str handoff.recordHash)]

/-- `__post_init__`. -/
def sealed (host : Host) (handoff : TERHandoff) : TERHandoff :=
  { handoff with recordHash := host.canonicalHash (.dict handoff.body) }

def verifyHash (host : Host) (handoff : TERHandoff) : Bool :=
  handoff.recordHash == host.canonicalHash (.dict handoff.body)

end TERHandoff

/-! ## The dispatch -/

structure Slice2DispatchOutcome where
  dispatched : Bool
  reason : String
  dispatchReceipt : Option EffectReceipt
  consumeReceipt : Option PermitConsumeReceipt
  consumeResult : Option ConsumeResult

/-- The permit store and the receipt ledger. -/
structure Dispatching where
  permitStore : PermitStore
  receipts : List Items := []

abbrev DispatchM := EStateM OeaError Dispatching

/-- A call of `execute_slice2_dispatch`, with what it finds around it. -/
structure DispatchCall where
  handoff : TERHandoff
  arguments : Items
  config : OEAConfig
  /-- `_now()` at the start. -/
  createdAt : String
  /-- `_now()` for the receipt. -/
  completedAt : String
  /-- The sandbox directory. -/
  dir : ProofDir
  /-- What the append to the ledger file raises. -/
  ledgerError : Option PyError := none

def sandboxCapability : String := "local_report_file.write"

def modeExecutor : List (String × String) :=
  [("fake_sink", "fake_sink"), ("sandbox", "sandboxed")]

def executorMode (dispatchMode : String) : String :=
  (modeExecutor.lookup dispatchMode).getD "blocked"

/-- `slice2-dispatch-` and digits of the record hash. -/
def dispatchId (handoff : TERHandoff) : String :=
  "slice2-dispatch-" ++ slice handoff.recordHash 7 19

def preflightRefusal (host : Host) (config : OEAConfig) (handoff : TERHandoff) :
    Option String :=
  let allowed :=
    if config.allowedCapabilities.isEmpty then [sandboxCapability]
    else config.allowedCapabilities
  if !handoff.verifyHash host then some "handoff_hash_invalid"
  else if (modeExecutor.lookup handoff.dispatchMode).isNone then
    some "unsupported_dispatch_mode"
  else if !handoff.translation.allowed then some "translation_refused"
  else if config.isReal then some "real_mode_not_permitted_in_slice2"
  else if (lookupCapability handoff.capabilityId).isNone then
    some "unknown_capability"
  else if handoff.dispatchMode == "sandbox" then
    if handoff.capabilityId != sandboxCapability then some "unsupported_sink"
    else if !isCapabilityEnabled handoff.capabilityId allowed then
      some "capability_not_enabled"
    else none
  else none

/-- `_receipt`. -/
def slice2Receipt
    (call : DispatchCall) (resultStatus outputHash : String)
    (touched : List String) (errorClass : Option String) : EffectReceipt where
  receiptId := dispatchId call.handoff
  bindingId := call.handoff.handoffId
  capabilityId := call.handoff.capabilityId
  authorityRef := call.handoff.ueakReceiptHash
  ueakCommitRef := call.handoff.ueakReceiptHash
  inputHash := call.handoff.inputHash
  resultStatus := resultStatus
  outputHash := outputHash
  touchedResources := touched
  startedAt := call.createdAt
  completedAt := call.completedAt
  errorClass := errorClass
  executorMode := executorMode call.handoff.dispatchMode
  permitId := call.handoff.permitId
  handoffId := call.handoff.handoffId
  sinkType := call.handoff.sinkType
  dispatchMode := call.handoff.dispatchMode
  externalEffectPerformed := some false

namespace ExecutorServices

variable (s : ExecutorServices)

def append (call : DispatchCall) (receipt : EffectReceipt) :
    DispatchM EffectReceipt := do
  let x ← get
  match call.ledgerError with
  | some err => throw (.raised err)
  | none =>
      set { x with
        receipts := x.receipts ++ [(s.stored x.receipts receipt).2] }
      return (s.stored x.receipts receipt).1

/-- The bounded effect: the receipt of a call whose permit is consumed. -/
def boundedEffect (call : DispatchCall) : Except OeaError EffectReceipt :=
  if call.handoff.dispatchMode == "fake_sink" then
    .ok (slice2Receipt call "executed"
      (s.host.canonicalHash
        (.dict [("fake_sink_record", .dict call.handoff.toPayload)])) [] none)
  else
    match s.executeLocalReportWrite call.dir call.arguments with
    | .ok (outputHash, touched) =>
        .ok (slice2Receipt call "executed" outputHash touched none)
    | .error (.validation reason) =>
        .ok (slice2Receipt call "failed" "" []
          (some ("sandbox_write_failed:" ++ reason)))
    | .error err => .error err

def executeSlice2Dispatch (call : DispatchCall) :
    DispatchM Slice2DispatchOutcome := do
  match preflightRefusal s.host call.config call.handoff with
  | some code =>
      let receipt ← s.append call (slice2Receipt call "refused" "" [] (some code))
      return ⟨false, code, some receipt, none, none⟩
  | none =>
      let x ← get
      let consumed := x.permitStore.consume s.host call.handoff.permitId
        call.createdAt (dispatchId call.handoff) call.handoff.handoffId
      set { x with permitStore := consumed.1 }
      if consumed.2.ok then
        let effect ← raising (s.boundedEffect call)
        let receipt ← s.append call effect
        return ⟨effect.resultStatus == "executed",
          effect.errorClass.getD effect.resultStatus, some receipt,
          consumed.2.receipt, some consumed.2⟩
      else
        let code := "permit_" ++ consumed.2.reason
        let receipt ← s.append call
          (slice2Receipt call "refused" "" [] (some code))
        return ⟨false, code, some receipt, none, some consumed.2⟩

/-! ## What one call does -/

/-- The write under the sandbox raises nothing but the error that is caught. -/
def WriteCaught (call : DispatchCall) : Prop :=
  call.handoff.dispatchMode ≠ "fake_sink" →
    ∀ err, s.executeLocalReportWrite call.dir call.arguments = .error err →
      ∃ reason, err = .validation reason

/-- The permit of a handoff can be consumed at the time of the call. -/
def Consumable (store : PermitStore) (call : DispatchCall) : Prop :=
  ∃ permit, store.get call.handoff.permitId = some permit ∧
    store.isRevoked call.handoff.permitId = false ∧ permit.status = .granted ∧
    isExpired s.host permit.expiresAt call.createdAt = false ∧
    store.isConsumed call.handoff.permitId = false

/-- The ledger takes a receipt, and the write is caught if the call comes to it. -/
def Receipted (x : Dispatching) (call : DispatchCall) : Prop :=
  call.ledgerError = none ∧
    (preflightRefusal s.host call.config call.handoff = none →
      s.Consumable x.permitStore call → s.WriteCaught call)

/-- Consumptions stay, and a refused preflight leaves the store as it is. -/
def KeepsPermits (call : DispatchCall) (x y : Dispatching) : Prop :=
  (∀ permitId, x.permitStore.isConsumed permitId = true →
    y.permitStore.isConsumed permitId = true) ∧
    ∀ code, preflightRefusal s.host call.config call.handoff = some code →
      y.permitStore = x.permitStore

variable {s}

theorem append_spec (call : DispatchCall) (receipt : EffectReceipt)
    (x : Dispatching) :
    Ends (s.append call receipt) x
      (fun stored y => call.ledgerError = none ∧
        (∃ line, y.receipts = x.receipts ++ [line]) ∧
        y.permitStore = x.permitStore ∧
        stored.resultStatus = receipt.resultStatus ∧
        stored.permitId = receipt.permitId)
      (fun _ y => y = x ∧ call.ledgerError ≠ none) := by
  unfold append
  apply ends_bind
  apply ends_get
  cases call.ledgerError with
  | some err => exact ends_throw ⟨rfl, nofun⟩
  | none =>
      apply ends_bind
      apply ends_set
      exact ends_pure ⟨rfl, ⟨_, rfl⟩, rfl, rfl, rfl⟩

theorem boundedEffect_cases (call : DispatchCall) :
    (s.WriteCaught call ∧ ∃ effect, s.boundedEffect call = .ok effect ∧
      effect.permitId = call.handoff.permitId) ∨
    (¬ s.WriteCaught call ∧ ∃ err, s.boundedEffect call = .error err) := by
  unfold boundedEffect WriteCaught
  by_cases hmode : call.handoff.dispatchMode = "fake_sink"
  · rw [if_pos (beq_iff_eq.mpr hmode)]
    exact Or.inl ⟨fun h => absurd hmode h, _, rfl, rfl⟩
  · rw [if_neg (mt beq_iff_eq.mp hmode)]
    cases s.executeLocalReportWrite call.dir call.arguments with
    | ok written => exact Or.inl ⟨nofun, _, rfl, rfl⟩
    | error err =>
        cases err with
        | validation reason =>
            exact Or.inl ⟨fun _ _ h => ⟨reason, (Except.error.inj h).symm⟩, _, rfl,
              rfl⟩
        | binding reason =>
            refine Or.inr ⟨fun h => ?_, _, rfl⟩
            obtain ⟨_, hraised⟩ := h hmode _ rfl
            cases hraised
        | raised raised =>
            refine Or.inr ⟨fun h => ?_, _, rfl⟩
            obtain ⟨_, hraised⟩ := h hmode _ rfl
            cases hraised

/-- A call that returns has appended one receipt, and one that raises has appended
none; an executed receipt is of a permit that was consumed by this call. -/
theorem executeSlice2Dispatch_spec (call : DispatchCall) (x : Dispatching) :
    Ends (s.executeSlice2Dispatch call) x
      (fun outcome y => s.Receipted x call ∧
        (∃ line, y.receipts = x.receipts ++ [line]) ∧ s.KeepsPermits call x y ∧
        ∀ receipt, outcome.dispatchReceipt = some receipt →
          receipt.resultStatus = "executed" →
            x.permitStore.isConsumed receipt.permitId = false ∧
              y.permitStore.isConsumed receipt.permitId = true)
      (fun _ y => ¬ s.Receipted x call ∧ y.receipts = x.receipts ∧
        s.KeepsPermits call x y) := by
  have hrefused : ∀ (status : String) (code : Option String) (y : Dispatching),
      status ≠ "executed" → y.receipts = x.receipts → s.KeepsPermits call x y →
      (s.Receipted x call ↔ call.ledgerError = none) →
      Ends (s.append call (slice2Receipt call status "" [] code)) y
        (fun receipt z => s.Receipted x call ∧
          (∃ line, z.receipts = x.receipts ++ [line]) ∧ s.KeepsPermits call x z ∧
          receipt.resultStatus ≠ "executed")
        (fun _ z => ¬ s.Receipted x call ∧ z.receipts = x.receipts ∧
          s.KeepsPermits call x z) := by
    intro status code y hstatus hreceipts hkeeps hreceipted
    apply ends_mono (append_spec call _ y)
    · rintro receipt z ⟨hledger, ⟨line, hline⟩, hstore, hresult, -⟩
      refine ⟨hreceipted.mpr hledger, ⟨line, hreceipts ▸ hline⟩, ?_, ?_⟩
      · rw [KeepsPermits, hstore]
        exact hkeeps
      · rw [hresult]
        exact hstatus
    · rintro err z ⟨rfl, hledger⟩
      exact ⟨mt hreceipted.mp hledger, hreceipts, hkeeps⟩
  unfold executeSlice2Dispatch
  cases hpreflight : preflightRefusal s.host call.config call.handoff with
  | some code =>
      apply ends_bind
      apply ends_mono (hrefused "refused" (some code) x (by decide) rfl
        ⟨fun _ h => h, fun _ _ => rfl⟩ ?_)
      · rintro receipt y ⟨hreceipted, hline, hkeeps, hstatus⟩
        exact ends_pure ⟨hreceipted, hline, hkeeps,
          fun _ h hexecuted => absurd (Option.some.inj h ▸ hexecuted) hstatus⟩
      · exact fun err y h => h
      · rw [Receipted, hpreflight]
        exact and_iff_left nofun
  | none =>
      have hok := PermitStore.consume_ok_iff s.host x.permitStore
        call.handoff.permitId call.createdAt (dispatchId call.handoff)
        call.handoff.handoffId
      have hconsumed := PermitStore.isConsumed_consume s.host x.permitStore
        call.handoff.permitId call.createdAt (dispatchId call.handoff)
        call.handoff.handoffId
      have hkeeps : ∀ y : Dispatching, y.permitStore =
          (x.permitStore.consume s.host call.handoff.permitId call.createdAt
            (dispatchId call.handoff) call.handoff.handoffId).1 →
          s.KeepsPermits call x y := by
        intro y hy
        refine ⟨fun permitId h => ?_, fun code h => ?_⟩
        · rw [hy, hconsumed, h, Bool.true_or]
        · rw [hpreflight] at h
          cases h
      dsimp only
      apply ends_bind
      apply ends_get
      apply ends_bind
      apply ends_set
      split
      · rename_i hgranted
        have hconsumable := hok.mp hgranted
        apply ends_bind
        rcases boundedEffect_cases call with
          ⟨hcaught, effect, heffect, hpermit⟩ | ⟨huncaught, err, heffect⟩
        · have hreceipted : s.Receipted x call ↔ call.ledgerError = none :=
            and_iff_left fun _ _ => hcaught
          rw [heffect]
          apply ends_pure
          apply ends_bind
          apply ends_mono (append_spec call effect _)
          · rintro receipt y ⟨hledger, hline, hstore, -, hid⟩
            refine ends_pure ⟨hreceipted.mpr hledger, hline, hkeeps y hstore, ?_⟩
            rintro _ ⟨⟩ -
            rw [hid, hpermit, hstore, hconsumed, hgranted, decide_eq_true rfl]
            obtain ⟨_, -, -, -, -, hfresh⟩ := hconsumable
            exact ⟨hfresh, Bool.or_true _⟩
          · rintro err y ⟨rfl, hledger⟩
            exact ⟨mt hreceipted.mp hledger, rfl, hkeeps _ rfl⟩
        · rw [heffect]
          exact ends_throw ⟨fun h => huncaught (h.2 hpreflight hconsumable), rfl,
            hkeeps _ rfl⟩
      · rename_i hgranted
        apply ends_bind
        refine ends_mono (hrefused "refused" _ _ (by decide) rfl ?_ ?_) ?_ ?_
        · exact hkeeps _ rfl
        · exact and_iff_left fun _ h => absurd (hok.mpr h) hgranted
        · rintro receipt y ⟨hreceipted, hline, hkept, hstatus⟩
          exact ends_pure ⟨hreceipted, hline, hkept,
            fun _ h hexecuted => absurd (Option.some.inj h ▸ hexecuted) hstatus⟩
        · exact fun err y h => h

/-! ## Runs -/

def dispatchMachine (s : ExecutorServices) :
    Machine Dispatching DispatchCall (Except OeaError Slice2DispatchOutcome) where
  step x call :=
    (finalState (s.executeSlice2Dispatch call) x,
      outcome (s.executeSlice2Dispatch call) x)

abbrev DispatchStep :=
  Step Dispatching DispatchCall (Except OeaError Slice2DispatchOutcome)

def executes (permitId : String) (e : DispatchStep) : Bool :=
  match e.output with
  | .ok returned => returned.dispatchReceipt.any fun receipt =>
      receipt.resultStatus == "executed" && receipt.permitId == permitId
  | .error _ => false

theorem step_keepsPermits (x : Dispatching) (call : DispatchCall) :
    s.KeepsPermits call x ((dispatchMachine s).step x call).1 := by
  rcases (executeSlice2Dispatch_spec (s := s) call x).cases with
    ⟨_, -, -, -, hkeeps, -⟩ | ⟨_, -, -, -, hkeeps⟩
  · exact hkeeps
  · exact hkeeps

theorem consumed_of_executes
    {x : Dispatching} {call : DispatchCall} {permitId : String}
    (h : executes permitId ((dispatchMachine s).stepAt x call) = true) :
    x.permitStore.isConsumed permitId = false ∧
      ((dispatchMachine s).step x call).1.permitStore.isConsumed permitId =
        true := by
  unfold executes at h
  rcases (executeSlice2Dispatch_spec (s := s) call x).cases with
    ⟨returned, houtcome, -, -, -, hconsumed⟩ | ⟨err, houtcome, -⟩
  · have houtput : ((dispatchMachine s).stepAt x call).output = .ok returned :=
      houtcome
    rw [houtput] at h
    dsimp only at h
    rw [Option.any_eq_true] at h
    obtain ⟨receipt, hreceipt, hmatches⟩ := h
    rw [Bool.and_eq_true, beq_iff_eq, beq_iff_eq] at hmatches
    have hboth := hconsumed receipt hreceipt hmatches.1
    rw [hmatches.2] at hboth
    exact hboth
  · have houtput : ((dispatchMachine s).stepAt x call).output = .error err :=
      houtcome
    rw [houtput] at h
    cases h

theorem step_receipt_iff (x : Dispatching) (call : DispatchCall) :
    (∃ line, ((dispatchMachine s).step x call).1.receipts = x.receipts ++ [line]) ↔
      s.Receipted x call := by
  rcases (executeSlice2Dispatch_spec (s := s) call x).cases with
    ⟨_, -, hreceipted, hline, -⟩ | ⟨_, -, hnot, hsame, -⟩
  · exact iff_of_true hline hreceipted
  · refine iff_of_false ?_ hnot
    rintro ⟨line, hline⟩
    have hlength := congrArg List.length (hsame.symm.trans hline)
    rw [List.length_append, List.length_singleton] at hlength
    omega

/-- Along every sequence of calls a permit has one executed receipt at most, and a
refused preflight leaves the permit store as it is; every call appends one receipt
exactly when each finds a ledger that takes it, and a write that is caught. -/
theorem slice2_receipted_iff
    (s : ExecutorServices) (start : Dispatching) (calls : List DispatchCall) :
    (∀ permitId,
        ((dispatchMachine s).trace start calls).countP (executes permitId) ≤ 1) ∧
      (∀ e ∈ (dispatchMachine s).trace start calls, ∀ code,
        preflightRefusal s.host e.input.config e.input.handoff = some code →
          e.after.permitStore = e.before.permitStore) ∧
      ((∀ e ∈ (dispatchMachine s).trace start calls, ∃ line,
          e.after.receipts = e.before.receipts ++ [line]) ↔
        (dispatchMachine s).Guarded s.Receipted start calls) := by
  refine ⟨fun permitId => ?_, fun e he code hcode => ?_, ?_⟩
  · apply countP_le_one_of_pairwise
    apply Machine.pairwise_of_barrier fun x : Dispatching =>
      x.permitStore.isConsumed permitId = true
    · intro x call h
      exact (consumed_of_executes h).2
    · intro x call h
      exact (step_keepsPermits x call).1 permitId h
    · intro x call hconsumed h
      rw [(consumed_of_executes h).1] at hconsumed
      cases hconsumed
  · rw [Machine.mem_trace_eq_stepAt he]
    exact (step_keepsPermits e.before e.input).2 code hcode
  · refine forall₂_congr fun e he => ?_
    rw [Machine.mem_trace_eq_stepAt he]
    exact step_receipt_iff e.before e.input

/-! ## A sandbox target that is a directory -/

def issuedPermits : PermitStore :=
  Gpp.reachedStore referenceHost Gpp.referenceConfig
    [.issue Gpp.referenceRequest]

/-- A sandbox dispatch of a report without a file name: the target is the sandbox
directory itself. -/
def namelessReport : DispatchCall where
  handoff := TERHandoff.sealed referenceHost
    { handoffId := "ter-handoff-1"
      createdAt := "2026-03-01T12:00:00.000Z"
      requestId := "request-1"
      permitId := Gpp.permitIdOf referenceHost "req-1" "2026-03-01T12:00:00.000Z"
      permitHash := "sha256:permit"
      ueakReceiptId := "receipt-1"
      ueakReceiptHash := "sha256:receipt"
      ueakDispatchId := "dispatch-1"
      capabilityId := "local_report_file.write"
      effectClass := "local_report"
      inputHash := "sha256:input"
      sinkType := "sandbox_file"
      dispatchMode := "sandbox"
      translation := ⟨true, "bounded_mode_ok", "1.0", "harmless"⟩
      recordHash := "" }
  arguments := [("filename", .str ""), ("content", .str "x"),
    ("overwrite", .bool true)]
  config := {}
  createdAt := "2026-03-01T12:00:01.000Z"
  completedAt := "2026-03-01T12:00:02.000Z"
  dir :=
    { resolve := fun _ => .ok ("/sandbox", true)
      targetExists := true
      writeError := some (.osError "[Errno 21] Is a directory: '/sandbox'") }

/-- The permit is consumed, and there is no receipt. -/
theorem namelessReport_unreceipted :
    ¬ ∀ (s : ExecutorServices) (start : Dispatching) (calls : List DispatchCall),
      (∀ permitId, ((dispatchMachine s).trace start calls).countP
          (executes permitId) ≤ 1) ∧
        (∀ e ∈ (dispatchMachine s).trace start calls, ∀ code,
          preflightRefusal s.host e.input.config e.input.handoff = some code →
            e.after.permitStore = e.before.permitStore) ∧
        ∀ e ∈ (dispatchMachine s).trace start calls, ∃ line,
          e.after.receipts = e.before.receipts ++ [line] := by
  intro hall
  obtain ⟨line, hline⟩ := (hall plainServices { permitStore := issuedPermits }
    [namelessReport]).2.2 _ List.mem_cons_self
  have hlength := congrArg List.length hline
  have hnone : ((dispatchMachine plainServices).stepAt
      { permitStore := issuedPermits } namelessReport).after.receipts.length = 0 ∧
      ((dispatchMachine plainServices).stepAt { permitStore := issuedPermits }
        namelessReport).after.permitStore.isConsumed
          namelessReport.handoff.permitId = true := by
    decide +kernel
  rw [hnone.1, List.length_append] at hlength
  cases hlength

end ExecutorServices

end Hydrogenuine.Oea
