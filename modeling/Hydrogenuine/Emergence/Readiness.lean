import Hydrogenuine.Core.Host

/-!
# Readiness of a waking agent

Embedding of `hg_runtime/emergence/profiles.py`, `readiness.py` and
`posture.py`: the wake profiles, the readiness checks of a profile, the verdict
over them and the startup posture.  Replay is a service here: what follows
holds for whatever it answers about the event log.
-/

namespace Hydrogenuine.Emergence

open Support Hydrogenuine.Core

/-! ## Data -/

inductive StartupPosture where
  | normal
  | observeOnly
  | proposalOnly
  | degraded
  | safeMode
  | lockdown
  | maintenanceOnly
  | offlineReplayOnly
deriving DecidableEq

inductive CheckStatus where
  | pass
  | fail
  | degraded
  | skipped
  | notApplicable
deriving DecidableEq

inductive ReadinessVerdict where
  | ready
  | degradedReady
  | refused
  | failed
  | safeMode
deriving DecidableEq

def StartupPosture.text : StartupPosture → String
  | normal => "NORMAL"
  | observeOnly => "OBSERVE_ONLY"
  | proposalOnly => "PROPOSAL_ONLY"
  | degraded => "DEGRADED"
  | safeMode => "SAFE_MODE"
  | lockdown => "LOCKDOWN"
  | maintenanceOnly => "MAINTENANCE_ONLY"
  | offlineReplayOnly => "OFFLINE_REPLAY_ONLY"

def CheckStatus.text : CheckStatus → String
  | pass => "pass"
  | fail => "fail"
  | degraded => "degraded"
  | skipped => "skipped"
  | notApplicable => "not_applicable"

structure WakeRequest where
  agentId : String
  profile : String
  operatorId : Option String := none
  parentAgentId : Option String := none
  taskId : Option String := none
  scope : List String := []
  reasonCode : String := "cold_start"

structure WakeProfile where
  profileId : String
  requiredChecks : List String
  allowDegradedMemory : Bool := true
  allowQuietSettling : Bool := false
  requireLiveProvider : Bool := false
  requireScope : Bool := false
  allowDegradedReady : Bool := true
  isSubagent : Bool := false

structure ReadinessCheck where
  checkId : String
  name : String
  requiredForProfile : Bool
  status : CheckStatus
  reasonCode : Option String
  evidenceRef : Option String
  startedAt : Option String
  completedAt : Option String
  checkHash : Option String

/-- The event bus, as far as a wake reads it: `next_seq` where it has one. -/
structure WakeBus where
  nextSeq : Option ℤ

/-- What a wake reads of a `ReplayResult`. -/
structure ReplayOutcome where
  ok : Bool
  stateHash : String

/-- The services a wake calls. -/
structure WakeEnv where
  host : Host
  /-- `os.environ.get`. -/
  environ : String → Option String
  /-- `Path.exists`. -/
  exists? : String → Bool
  /-- `repr` of a text. -/
  repr : String → String
  /-- `replay` of a runtime directory. -/
  replay : Option String → Except PyError ReplayOutcome
  /-- `ws.state_hash(ws.initial_state())`. -/
  initialStateHash : String

structure ReadinessContext where
  runtimeDir : Option String
  bus : Option WakeBus
  agentId : String
  scope : List String
  panicActive : Bool
  lockdownActive : Bool
  memoryAvailable : Bool
  oeaReal : Bool
  oeaAvailable : Bool
  liveCognition : Bool
  liveProviderOk : Bool
  secretsRedaction : Bool
  crrRecoveryMarker : Bool
  crrSnapshotHash : Option String
  expectedWorldStateHash : Option String
  replayForceFail : Bool
  clockNow : String

/-! ## Profiles -/

def commonAgent0 : List String :=
  ["config_valid", "identity_bound", "event_bus_available",
    "event_log_accessible", "event_head_read", "replay_verified_or_refused",
    "world_state_derived", "memory_context_loaded_or_degraded",
    "aep_baseline_loaded", "crr_status_loaded", "oea_mode_known",
    "srp_mode_known", "no_pending_panic"]

def profiles : List WakeProfile :=
  [{ profileId := "agent0_full"
     requiredChecks := commonAgent0
     allowQuietSettling := true },
    { profileId := "worker_subagent"
      requiredChecks :=
        ["config_valid", "identity_bound", "event_bus_available",
          "event_head_read", "world_state_derived", "no_pending_panic"]
      isSubagent := true },
    { profileId := "task_subagent"
      requiredChecks :=
        ["config_valid", "identity_bound", "event_bus_available",
          "event_head_read", "world_state_derived",
          "capability_catalog_loaded_if_needed", "no_pending_panic"]
      requireScope := true
      isSubagent := true },
    { profileId := "maintenance_subagent"
      requiredChecks :=
        ["config_valid", "identity_bound", "event_bus_available",
          "srp_mode_known", "no_pending_panic"]
      requireScope := true
      isSubagent := true },
    { profileId := "oea_capability_worker"
      requiredChecks :=
        ["config_valid", "identity_bound", "oea_mode_known",
          "capability_catalog_loaded_if_needed", "no_pending_panic"]
      requireScope := true
      isSubagent := true },
    { profileId := "live_cognition_worker"
      requiredChecks :=
        ["config_valid", "identity_bound",
          "live_provider_validated_if_needed", "no_pending_panic"]
      requireLiveProvider := true
      requireScope := true
      isSubagent := true },
    { profileId := "plt_operator_surface"
      requiredChecks :=
        ["config_valid", "secrets_redaction_loaded", "event_bus_available",
          "no_pending_panic"] },
    { profileId := "dep_appliance"
      requiredChecks :=
        ["config_valid", "event_log_accessible", "replay_verified_or_refused",
          "oea_mode_known", "srp_mode_known",
          "singleton_lease_acquired_if_needed", "no_pending_panic"] },
    { profileId := "crr_reentry"
      requiredChecks :=
        ["config_valid", "identity_bound", "event_bus_available",
          "event_head_read", "replay_verified_or_refused",
          "world_state_derived", "crr_status_loaded", "no_pending_panic"] }]

def getProfile (env : WakeEnv) (profileId : String) :
    Except PyError WakeProfile :=
  let key := lower (strip profileId)
  match profiles.find? fun profile => profile.profileId == key with
  | some profile => .ok profile
  | none => .error (.keyError ("unknown wake profile: " ++ env.repr profileId))

/-! ## Checks -/

/-- `bus_head_seq` and `_bus_head_seq`. -/
def busHeadSeq : Option WakeBus → Option ℤ
  | none => none
  | some bus => bus.nextSeq.map fun seq => max 0 (seq - 1)

def checkHash
    (host : Host) (checkId : String) (status : CheckStatus)
    (reason : Option String) : String :=
  "sha256:" ++
    host.sha256Text (checkId ++ ":" ++ status.text ++ ":" ++ reason.getD "")

def makeCheck
    (host : Host) (checkId name : String) (required : Bool)
    (status : CheckStatus) (reasonCode evidenceRef : Option String)
    (clockNow : String) : ReadinessCheck where
  checkId := checkId
  name := name
  requiredForProfile := required
  status := status
  reasonCode := reasonCode
  evidenceRef := evidenceRef
  startedAt := some clockNow
  completedAt := some clockNow
  checkHash := some (checkHash host checkId status reasonCode)

/-- `str(v)` of an optional text. -/
def strOption : Option String → String
  | some text => text
  | none => "None"

/-- The status, reason code and evidence that `run_check` gives `_make_check`
for a check that passes or fails. -/
def passIf
    (ok : Bool) (reasonCode : String) (evidenceRef : Option String) :
    CheckStatus × Option String × Option String :=
  (if ok then .pass else .fail, if ok then none else some reasonCode,
    evidenceRef)

/-- The branches of `run_check`: status, reason code and evidence. -/
def checkOutcome
    (env : WakeEnv) (checkId : String) (profile : WakeProfile)
    (ctx : ReadinessContext) :
    Except PyError (CheckStatus × Option String × Option String) :=
  match checkId with
  | "config_valid" =>
      .ok (passIf ctx.runtimeDir.isSome "CONFIG_INVALID"
        (some (strOption ctx.runtimeDir)))
  | "identity_bound" =>
      .ok (passIf (ctx.agentId != "") "IDENTITY_MISSING" (some ctx.agentId))
  | "event_bus_available" =>
      .ok (passIf ctx.bus.isSome "EVENT_BUS_MISSING" none)
  | "event_log_accessible" =>
      match ctx.runtimeDir with
      | none => .error (.attributeError "exists")
      | some logDir =>
          .ok (passIf (env.exists? logDir) "EVENT_LOG_INACCESSIBLE"
            (some logDir))
  | "event_head_read" =>
      let head := busHeadSeq ctx.bus
      .ok (passIf head.isSome "EVENT_HEAD_UNREAD"
        (some (strOption (head.map toString))))
  | "replay_verified_or_refused" =>
      if ctx.replayForceFail then
        .ok (.fail, some "REPLAY_MISMATCH", some "forced")
      else if ctx.bus.isNone then
        .ok (.fail, some "REPLAY_SKIPPED_NO_BUS", none)
      else do
        let result ← env.replay ctx.runtimeDir
        return passIf result.ok "REPLAY_MISMATCH" (some result.stateHash)
  | "world_state_derived" =>
      if ctx.replayForceFail then
        .ok (.fail, some "WORLD_STATE_MISMATCH", none)
      else do
        let result ← env.replay ctx.runtimeDir
        if !result.ok then
          return (.fail, some "WORLD_STATE_DERIVATION_FAILED", none)
        else if isText ctx.expectedWorldStateHash &&
            some result.stateHash != ctx.expectedWorldStateHash then
          return (.fail, some "WORLD_STATE_HASH_MISMATCH",
            some result.stateHash)
        else
          return (.pass, none, some result.stateHash)
  | "memory_context_loaded_or_degraded" =>
      if ctx.memoryAvailable then
        .ok (.pass, none, some "memory_ok")
      else if profile.allowDegradedMemory then
        .ok (.degraded, some "MEMORY_UNAVAILABLE_DEGRADED", none)
      else
        .ok (.fail, some "MEMORY_REQUIRED", none)
  | "aep_baseline_loaded" => .ok (.pass, none, some "aep_baseline_stub")
  | "crr_status_loaded" =>
      if ctx.crrRecoveryMarker && !isText ctx.crrSnapshotHash then
        .ok (.fail, some "CRR_SNAPSHOT_MISSING", none)
      else
        .ok (.pass, none, ctx.crrSnapshotHash)
  | "oea_mode_known" =>
      let mode := if ctx.oeaReal then "real" else "stub"
      if ctx.oeaReal && !ctx.oeaAvailable then
        .ok (.degraded, some "OEA_REAL_UNAVAILABLE", some mode)
      else
        .ok (.pass, none, some mode)
  | "srp_mode_known" =>
      let maxAuto := (env.environ "HG_SRP_MAX_AUTO_ENABLED").getD "0" == "1"
      .ok (.pass, none,
        some ("max_auto=" ++ if maxAuto then "True" else "False"))
  | "secrets_redaction_loaded" =>
      .ok (passIf ctx.secretsRedaction "SECRETS_REDACTION_MISSING" none)
  | "capability_catalog_loaded_if_needed" =>
      .ok (.pass, none, some "catalog_metadata_only")
  | "live_provider_validated_if_needed" =>
      if !profile.requireLiveProvider then
        .ok (.notApplicable, none, none)
      else
        .ok (passIf (ctx.liveCognition && ctx.liveProviderOk)
          "LIVE_PROVIDER_MISSING" none)
  | "singleton_lease_acquired_if_needed" =>
      .ok (.skipped, some "SINGLETON_NOT_IMPLEMENTED", none)
  | "no_pending_panic" =>
      .ok (passIf (!ctx.panicActive) "PANIC_ACTIVE" none)
  | "no_lockdown_without_operator_ack" =>
      .ok (passIf (!ctx.lockdownActive) "LOCKDOWN_WITHOUT_ACK" none)
  | _ => .ok (.fail, some "UNKNOWN_CHECK", none)

def runCheck
    (env : WakeEnv) (profile : WakeProfile) (ctx : ReadinessContext)
    (checkId : String) : Except PyError ReadinessCheck := do
  let (status, reasonCode, evidenceRef) ←
    checkOutcome env checkId profile ctx
  return makeCheck env.host checkId checkId
    (profile.requiredChecks.contains checkId) status reasonCode evidenceRef
    ctx.clockNow

/-- The check that `run_all_checks` adds for a profile that requires a scope. -/
def scopeCheck (env : WakeEnv) (ctx : ReadinessContext) : ReadinessCheck :=
  let (status, reasonCode, evidenceRef) :=
    if ctx.scope.isEmpty then
      (CheckStatus.fail, some "SCOPE_MISSING", none)
    else
      (CheckStatus.pass, none, some (",".intercalate ctx.scope))
  makeCheck env.host "subagent_scope_bound" "subagent_scope_bound" true status
    reasonCode evidenceRef ctx.clockNow

def runAllChecks
    (env : WakeEnv) (profile : WakeProfile) (ctx : ReadinessContext) :
    Except PyError (List ReadinessCheck) := do
  let checks ← profile.requiredChecks.mapM (runCheck env profile ctx)
  return if profile.requireScope then checks ++ [scopeCheck env ctx] else checks

/-! ## Verdict and posture -/

/-- `aggregate_verdict`: the verdict with its refusal reason. -/
def aggregateVerdict
    (checks : List ReadinessCheck) (profile : WakeProfile)
    (panicActive lockdownActive replayFailed refuseOnReplayMismatch : Bool) :
    ReadinessVerdict × Option String :=
  if panicActive then (.safeMode, some "PANIC_ACTIVE")
  else if lockdownActive then (.refused, some "LOCKDOWN_ACTIVE")
  else if replayFailed && refuseOnReplayMismatch then
    (.safeMode, some "REPLAY_MISMATCH")
  else
    let failedRequired := checks.filter fun c =>
      c.requiredForProfile && c.status == .fail
    let degraded := checks.filter fun c => c.status == .degraded
    match failedRequired with
    | c :: _ => (.refused, some (orText c.reasonCode "CHECK_FAILED"))
    | [] =>
        match degraded with
        | [] => (.ready, none)
        | c :: _ =>
            if profile.allowDegradedReady then (.degradedReady, none)
            else
              (.refused, some (orText c.reasonCode "DEGRADED_NOT_ALLOWED"))

def selectPosture
    (profile : WakeProfile) (checks : List ReadinessCheck)
    (verdict : ReadinessVerdict) (ctx : ReadinessContext) : StartupPosture :=
  if ctx.panicActive then .safeMode
  else if ctx.lockdownActive then .lockdown
  else if verdict = .safeMode then .safeMode
  else if verdict = .refused then .offlineReplayOnly
  else if verdict = .failed then .offlineReplayOnly
  else if profile.profileId = "maintenance_subagent" then .maintenanceOnly
  else if profile.profileId = "live_cognition_worker" then .proposalOnly
  else if profile.profileId = "oea_capability_worker" then .observeOnly
  else if profile.profileId = "plt_operator_surface" then .observeOnly
  else
    let degraded := checks.any fun c => c.status == .degraded
    let replayFail := checks.any fun c =>
      c.checkId == "replay_verified_or_refused" && c.status == .fail
    if replayFail then .safeMode
    else if degraded || verdict = .degradedReady then .degraded
    else if profile.isSubagent then .observeOnly
    else .normal

/-! ## What the checks and the verdict say -/

variable {ctx : ReadinessContext} {profile : WakeProfile} {env : WakeEnv}

theorem runCheck_eq_ok
    {checkId : String} {check : ReadinessCheck}
    (h : runCheck env profile ctx checkId = .ok check) :
    check.checkId = checkId ∧
      check.requiredForProfile = profile.requiredChecks.contains checkId := by
  unfold runCheck at h
  cases houtcome : checkOutcome env checkId profile ctx with
  | error e =>
      rw [houtcome] at h
      cases h
  | ok outcome =>
      rw [houtcome] at h
      obtain rfl := Except.ok.inj h
      exact ⟨rfl, rfl⟩

theorem mapM_runCheck_eq_ok
    {ids : List String} {checks : List ReadinessCheck}
    (h : ids.mapM (runCheck env profile ctx) = .ok checks) :
    ∀ checkId ∈ ids, ∃ check ∈ checks,
      runCheck env profile ctx checkId = .ok check := by
  induction ids generalizing checks with
  | nil => intro checkId hmem; cases hmem
  | cons first rest ih =>
      rw [List.mapM_cons] at h
      cases hfirst : runCheck env profile ctx first with
      | error e =>
          rw [hfirst] at h
          cases h
      | ok head =>
          cases hrest : rest.mapM (runCheck env profile ctx) with
          | error e =>
              rw [hfirst, hrest] at h
              cases h
          | ok tail =>
              rw [hfirst, hrest] at h
              obtain rfl := Except.ok.inj h
              intro checkId hmem
              rcases List.mem_cons.mp hmem with rfl | hmem
              · exact ⟨head, List.mem_cons_self, hfirst⟩
              · obtain ⟨check, hcheck, hrun⟩ := ih hrest checkId hmem
                exact ⟨check, List.mem_cons_of_mem _ hcheck, hrun⟩

theorem runAllChecks_required
    {checks : List ReadinessCheck}
    (h : runAllChecks env profile ctx = .ok checks)
    {checkId : String} (hid : checkId ∈ profile.requiredChecks) :
    ∃ check ∈ checks,
      check.checkId = checkId ∧ check.requiredForProfile = true := by
  unfold runAllChecks at h
  cases hrun : profile.requiredChecks.mapM (runCheck env profile ctx) with
  | error e =>
      rw [hrun] at h
      cases h
  | ok ran =>
      rw [hrun] at h
      obtain rfl := Except.ok.inj h
      obtain ⟨check, hcheck, hok⟩ := mapM_runCheck_eq_ok hrun checkId hid
      obtain ⟨hcheckId, hrequired⟩ := runCheck_eq_ok hok
      refine ⟨check, ?_, hcheckId, ?_⟩
      · split
        · exact List.mem_append_left _ hcheck
        · exact hcheck
      · rw [hrequired]
        exact List.contains_iff_mem.mpr hid

theorem isText_some_orText
    (text : Option String) {default : String} (hdefault : default ≠ "") :
    isText (some (orText text default)) = true := by
  cases text with
  | none => simp [isText, orText, hdefault]
  | some s =>
      by_cases hs : s = ""
      · simpa [isText, orText, hs] using hdefault
      · simp [isText, orText, hs]

theorem aggregateVerdict_panic
    (checks : List ReadinessCheck) (profile : WakeProfile)
    (lockdownActive replayFailed refuse : Bool) :
    aggregateVerdict checks profile true lockdownActive replayFailed refuse =
      (.safeMode, some "PANIC_ACTIVE") :=
  if_pos rfl

/-- Without panic and with replay verified, a verdict is either a refusal with
its reason, or ready; and then no lockdown is active and no required check
failed. -/
theorem aggregateVerdict_cases
    (checks : List ReadinessCheck) (profile : WakeProfile)
    (lockdownActive refuse : Bool) :
    (∃ reason, isText (some reason) = true ∧
      aggregateVerdict checks profile false lockdownActive false refuse =
        (.refused, some reason)) ∨
      (∃ verdict, (verdict = .ready ∨ verdict = .degradedReady) ∧
        aggregateVerdict checks profile false lockdownActive false refuse =
          (verdict, none) ∧
        lockdownActive = false ∧
        ∀ check ∈ checks,
          check.requiredForProfile = true → check.status ≠ .fail) := by
  unfold aggregateVerdict
  cases lockdownActive with
  | true => exact Or.inl ⟨"LOCKDOWN_ACTIVE", by decide, by simp⟩
  | false =>
      simp only [Bool.false_eq_true, if_false, Bool.false_and]
      cases hfailed : checks.filter fun c =>
          c.requiredForProfile && c.status == .fail with
      | cons c rest =>
          exact Or.inl
            ⟨_, isText_some_orText c.reasonCode (by decide), rfl⟩
      | nil =>
          have hnone : ∀ check ∈ checks,
              check.requiredForProfile = true → check.status ≠ .fail := by
            intro check hcheck hrequired hfail
            have hmem := List.filter_eq_nil_iff.mp hfailed check hcheck
            simp [hrequired, hfail] at hmem
          cases checks.filter fun c => c.status == .degraded with
          | nil => exact Or.inr ⟨_, Or.inl rfl, rfl, trivial, hnone⟩
          | cons c rest =>
              cases hallow : profile.allowDegradedReady with
              | true =>
                  exact Or.inr ⟨_, Or.inr rfl, rfl, trivial, hnone⟩
              | false =>
                  exact Or.inl ⟨_,
                    isText_some_orText c.reasonCode
                      (show "DEGRADED_NOT_ALLOWED" ≠ "" by decide), rfl⟩

end Hydrogenuine.Emergence
