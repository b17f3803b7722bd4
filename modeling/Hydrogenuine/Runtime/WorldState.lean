import Hydrogenuine.Runtime.WorldUpdates

/-!
# The world state

Embedding of the reducer of `hg_runtime/world_state.py`.  The state is a nested
dictionary that starts as `initialState`; each event type has a branch, a list of
updates.  The reducer first copies the state by way of its JSON text, so a state
that has none stops it.
-/

namespace Hydrogenuine.Runtime

open Support Hydrogenuine.Core

def recentIngressMax : ℕ := 32
def recentReceiptsMax : ℕ := 32
def pendingMetaMax : ℕ := 64

/-! ## The initial state -/

def zeros (names : List String) : List (String × PyVal) :=
  names.map fun name => (name, .int 0)

def initialActivity : List (String × PyVal) :=
  [("recent_ingress", .list []),
    ("recent_receipts", .list []),
    ("recent_governance_traces", .list []),
    ("recent_memory_retrievals", .list []),
    ("recent_aep_signals", .list []),
    ("proposals", .dict (zeros ["emitted", "failed", "tokens"])),
    ("decisions", .dict (zeros ["allowed", "blocked"])),
    ("hal", .dict (zeros ["requested", "recorded", "accepted", "rejected"])),
    ("soar", .dict (zeros
      ["domain_evaluated", "d7_decisions", "d7_critiques", "accepted",
        "deferred", "rejected"])),
    ("executions", .dict (zeros
      ["committed", "denied", "receipted", "oea_stub_logged"])),
    ("oea", .dict (zeros
      ["bindings_created", "bindings_refused", "dry_runs",
        "executions_requested", "executions_started", "executions_completed",
        "executions_refused", "executions_failed", "receipts_recorded"] ++
      [("lockdown", .bool false),
        ("last_binding_id", .none),
        ("last_capability_id", .none),
        ("last_receipt_id", .none),
        ("counts_by_status", .dict []),
        ("refusal_counts_by_reason", .dict [])])),
    ("ter", .dict (zeros
      ["commands_requested", "policy_evaluations", "refused", "started",
        "completed", "timed_out", "receipts_recorded"] ++
      [("last_command_id", .none),
        ("last_receipt_hash", .none),
        ("counts_by_status", .dict []),
        ("refusal_counts_by_reason", .dict [])])),
    ("memory", .dict (zeros ["retrieved", "written"])),
    ("aep", .dict (zeros
      ["signals", "signals_recorded", "arousal_updates", "modulations"])),
    ("crr", .dict (zeros
      ["trigger_decisions", "eligibility_evaluations", "checkpoints", "cycles",
        "state_transitions", "hygiene_delegations", "hygiene_executor_started",
        "hygiene_executor_completed", "hygiene_executor_failed",
        "rehydration_verifications", "load_order_verifications",
        "trusted_snapshots", "drain_cycles", "cooldowns_set",
        "escalation_refusals"])),
    ("msc", .dict (zeros
      ["requested", "started", "windows_selected", "listening_completed",
        "summaries_recorded", "settled", "skipped", "failed", "refused"] ++
      [("refused_by_reason", .dict []), ("agents", .dict [])])),
    ("ysr", .dict (zeros
      ["requested", "started", "snapshots", "scratch_cleared",
        "event_head_reads", "world_state_refreshed", "memory_refs_refreshed",
        "resync_verified", "completed", "no_op", "refused", "escalated",
        "failed"] ++
      [("refused_by_reason", .dict [])] ++
      zeros ["total_event_lag", "yawn_count"] ++
      [("agents", .dict [])])),
    ("els", .dict (zeros
      ["wake_requested", "process_started", "identity_bound",
        "event_bus_connected", "event_head_reads", "replay_verified",
        "replay_failed", "world_state_derived", "readiness_checks",
        "ready_declared", "degraded_ready_declared", "work_admission_opened",
        "wake_refused", "wake_failed", "safe_mode_entered",
        "subagents_declared", "subagents_ready", "subagents_refused"] ++
      [("refused_by_reason", .dict []), ("active_subagents", .dict [])])),
    ("governance", .dict (zeros
      ["trace_records", "gpp_trace_records", "permits_bound",
        "binds_denied"])),
    ("csm", .dict (zeros
      ["changes_requested", "classified", "policy_evaluations", "allowed",
        "refused", "approval_required", "high_risk_confirmation_required",
        "transition_refusals"] ++
      [("last_change_id", .none),
        ("last_decision_hash", .none),
        ("refusal_counts_by_reason", .dict [])])),
    ("mel", .dict (zeros
      ["records_appended", "receipts_recorded", "chains_verified",
        "chains_broken"] ++
      [("ledger_head_hash", .none), ("chain_status", .str "unknown")])),
    ("srp", .dict (zeros
      ["drifts_observed", "test_failures_observed", "audit_findings_observed",
        "proposals", "bundles_created", "signatures_required",
        "signatures_recorded", "apply_refusals", "apply_requests",
        "approvals_verified", "approvals_rejected", "sandboxes_prepared",
        "patches_applied", "apply_tests_passed", "apply_tests_failed",
        "review_artifacts_created", "merge_ready_marked", "apply_rejected",
        "apply_closed", "self_edit_started", "self_edit_completed",
        "self_edit_rejected", "self_edit_lockdowns", "self_edit_rollbacks",
        "final_confirmations_verified", "protected_base_verified",
        "handoffs_created", "outcomes_recorded"])),
    ("max_auto", .dict (zeros
      ["runs_requested", "runs_completed", "runs_failed", "runs_refused",
        "observations_recorded", "bundles_created", "scope_approved",
        "scope_rejected", "worktrees_prepared", "patches_completed",
        "tests_completed", "local_commits_created", "lockdowns"] ++
      [("last_run_id", .none),
        ("last_state", .none),
        ("last_bundle_hash", .none),
        ("last_commit_sha", .none),
        ("last_verdict", .none)]))]

def initialEnvironment : List (String × PyVal) :=
  [("arousal", .dict [("max_severity", .int 0), ("dimensions", .dict [])]),
    ("recovery_state", .str "NORMAL"),
    ("panic", .bool false),
    ("health", .dict (zeros
      ["handler_failures", "events_dropped", "slow_ticks",
        "memory_write_failures", "memory_retrieve_failures", "panic_blocks",
        "stop_requests"]))]

def initialSelf : List (String × PyVal) :=
  [("runtime_version", .none),
    ("registry_hash", .none),
    ("started_at", .none),
    ("ticks", .int 0),
    ("last_tick_seq", .none),
    ("last_recovery_cycle", .none),
    ("last_meditation_by_agent", .dict []),
    ("last_yawn_by_agent", .dict []),
    ("wake_state", .str "COLD"),
    ("startup_posture", .none),
    ("last_wake_verdict", .none),
    ("work_admission_open", .bool false),
    ("last_wake_by_agent", .dict [])]

def initialState : PyVal :=
  .dict [
    ("activity", .dict initialActivity),
    ("conversations", .dict []),
    ("goals", .dict [("pending_tasks", .list []), ("gaps", .list [])]),
    ("environment", .dict initialEnvironment),
    ("self", .dict initialSelf),
    ("meta", .dict [
      ("last_seq", .none),
      ("events_applied", .int 0),
      ("unhandled_types", .dict [])])]

/-! ## The branches -/

namespace Update

def ingress : Update :=
  .push ["activity", "recent_ingress"]
    [("event_id", .eventId), ("type", .eventType), ("source", .field "source")]
    recentIngressMax

def traceRef : Update :=
  .push ["activity", "recent_governance_traces"]
    [("event_id", .eventId), ("trace_event_hash", .get "trace_event_hash"),
      ("trace_path", .get "trace_path")]
    recentReceiptsMax

def recentSignal : Update :=
  .push ["activity", "recent_aep_signals"]
    [("event_id", .eventId), ("signal_id", .get "signal_id"),
      ("class", .get "class"),
      ("severity", .number (.getOr "severity" (.int 0))),
      ("scope", .get "scope")]
    recentReceiptsMax

end Update

namespace Source

def agentId : Source := .textOf "agent_id" "unknown"

def reasonCode : Source := .textOf "reason_code" "unknown"

def cycle : Source := .getOr "cycle" (.dict [])

/-- `cycle.get(k, d)`. -/
def ofCycle (k : String) (d : PyVal) : Source := .sub cycle k (.const d)

def cycleAgent : Source := .text (ofCycle "agent_id" (.str "unknown"))

/-- `provenance.get(k, d)` with `provenance = payload.get("provenance",
payload)`, and `d` if that is no mapping. -/
def ofProvenance (k : String) (d : PyVal) : Source :=
  .sub (.item .payload "provenance" .payload) k (.const d)

end Source

open Update Source

def row (types : List String) (updates : List Update) :
    List (String × List Update) :=
  types.map fun type => (type, updates)

/-- The branches of `apply` that are chosen by the type alone. -/
def branches : List (String × List Update) := [
  row ["CHAT_MESSAGE"]
      [.converse (.textOf "session_id" "default")
         [("event_id", .eventId), ("role", .getOr "role" (.str "user"))],
       ingress],
  row ["API_REQUEST", "WEBHOOK_IN", "TIMER_EVENT", "FILE_WATCH"] [ingress],
  row ["PROPOSAL_EMITTED", "MODEL_PROPOSAL_RECORDED"]
      [.bump "proposals" "emitted"],
  row ["PROPOSAL_FAILED", "MODEL_STREAM_FAILED"] [.bump "proposals" "failed"],
  row ["PROPOSAL_TOKEN_EMITTED", "MODEL_TOKEN_DELTA"]
      [.bump "proposals" "tokens"],
  row ["PROPOSAL_STREAM_STARTED", "MODEL_STREAM_STARTED",
      "MODEL_STREAM_COMPLETED"]
      [],
  row ["SOAR_DOMAIN_EVALUATED"] [.bump "soar" "domain_evaluated"],
  row ["SOAR_D7_DECISION_RECORDED"]
      [.bump "soar" "d7_decisions",
       .bumpWhen (.textOf "binding" "") ["ACCEPT"] "soar" "accepted",
       .bumpWhen (.textOf "binding" "") ["DEFER"] "soar" "deferred",
       .bumpWhen (.textOf "binding" "") ["REJECT", "NO_OP"] "soar" "rejected"],
  row ["SOAR_D7_CRITIQUE_RECORDED"] [.bump "soar" "d7_critiques"],
  row ["HAL_ARBITRATION_REQUESTED"] [.bump "hal" "requested"],
  row ["HAL_ARBITRATION_RECORDED"]
      [.bump "hal" "recorded",
       .bumpWhen (.textOf "routing" "") ["ACCEPT"] "hal" "accepted",
       .bumpWhen (.textOf "routing" "") ["REJECT", "DEFER"] "hal" "rejected"],
  row ["DECISION_EVENT"] [.bump "decisions" "allowed"],
  row ["DECISION_BLOCKED"] [.bump "decisions" "blocked"],
  row ["GOVERNANCE_TRACE_RECORDED"]
      [.bump "governance" "trace_records", traceRef],
  row ["GPP_TRACE_RECORDED"] [.bump "governance" "gpp_trace_records", traceRef],
  row ["GPP_PERMIT_BOUND"] [.bump "governance" "permits_bound"],
  row ["GPP_BIND_DENIED"] [.bump "governance" "binds_denied"],
  row ["ACTION_COMMITTED", "UEAK_EXECUTION_COMMITTED"]
      [.bump "executions" "committed"],
  row ["ACTION_DENIED", "UEAK_EXECUTION_DENIED"] [.bump "executions" "denied"],
  row ["EFFECT_RECEIPTED"]
      [.bump "executions" "receipted",
       .push ["activity", "recent_receipts"]
         [("event_id", .eventId), ("receipt_id", .get "receipt_id")]
         recentReceiptsMax],
  row ["OEA_STUB_RECORDED", "OEA_EFFECT_STUB_RECORDED"]
      [.bump "executions" "oea_stub_logged"],
  row ["OEA_BINDING_CREATED"]
      [.bump "oea" "bindings_created",
       .put ["activity", "oea"] "last_binding_id" (.get "binding_id"),
       .put ["activity", "oea"] "last_capability_id" (.get "capability_id")],
  row ["OEA_BINDING_REFUSED"]
      [.bump "oea" "bindings_refused",
       .count ["activity", "oea", "refusal_counts_by_reason"]
         (.textOf "reason" "unknown")],
  row ["OEA_DRY_RUN_COMPLETED"] [.bump "oea" "dry_runs"],
  row ["OEA_EXECUTION_REQUESTED"] [.bump "oea" "executions_requested"],
  row ["OEA_EXECUTION_STARTED"] [.bump "oea" "executions_started"],
  row ["OEA_EXECUTION_COMPLETED"]
      [.bump "oea" "executions_completed",
       .count ["activity", "oea", "counts_by_status"]
         (.textOf "result_status" "unknown")],
  row ["OEA_EXECUTION_REFUSED"]
      [.bump "oea" "executions_refused",
       .count ["activity", "oea", "refusal_counts_by_reason"]
         (.textOf "reason" "unknown")],
  row ["OEA_EXECUTION_FAILED"] [.bump "oea" "executions_failed"],
  row ["OEA_EFFECT_RECEIPT_RECORDED"]
      [.bump "oea" "receipts_recorded",
       .put ["activity", "oea"] "last_receipt_id" (.get "receipt_id")],
  row ["OEA_LOCKDOWN_ENTERED"]
      [.put ["activity", "oea"] "lockdown" (.const (.bool true))],
  row ["AEP_SIGNAL_RECORDED"]
      [.bump "aep" "signals_recorded", recentSignal, .noteSignal],
  row ["AEP_SIGNAL_EMITTED"] [.bump "aep" "signals", recentSignal, .noteSignal],
  row ["AEP_AROUSAL_STATE_UPDATED"]
      [.bump "aep" "arousal_updates",
       .putRecord ["environment"] "arousal"
         [("max_severity", .number (.getOr "max_severity" (.int 0))),
          ("dimensions", .positive (.getOr "levels" (.dict []))),
          ("scope", .get "scope"), ("state_hash", .get "state_hash")]],
  row ["AEP_MODULATION_RECORDED"] [.bump "aep" "modulations"],
  row ["AROUSAL_CHANGED"]
      [.putRecord ["environment"] "arousal"
         [("max_severity", .number (.getOr "max_severity" (.int 0))),
          ("dimensions", .mapping (.getOr "dimensions" (.dict [])))]],
  row ["RECOVERY_STATE_CHANGED"]
      [.put ["environment"] "recovery_state" (.textOf "state" "NORMAL"),
       .noteRecovered],
  row ["CRR_TRIGGER_DECIDED"] [.bump "crr" "trigger_decisions"],
  row ["CRR_RECOVERY_ELIGIBILITY_EVALUATED"]
      [.bump "crr" "eligibility_evaluations"],
  row ["CRR_RECOVERY_CYCLE_STARTED"] [],
  row ["CRR_RECOVERY_LEVEL_SELECTED"] [],
  row ["CRR_RECOVERY_STATE_TRANSITION"]
      [.bump "crr" "state_transitions",
       .put ["environment"] "recovery_state" (.textOf "to_state" "RECOVERY")],
  row ["CRR_ADMISSION_PAUSED"] [],
  row ["CRR_DRAIN_STARTED"] [],
  row ["CRR_DRAIN_COMPLETED"] [.bump "crr" "drain_cycles"],
  row ["CRR_CHECKPOINT_RECORDED"] [.bump "crr" "checkpoints"],
  row ["CRR_HYGIENE_DELEGATED"] [.bump "crr" "hygiene_delegations"],
  row ["CRR_HYGIENE_EXECUTOR_STARTED"] [.bump "crr" "hygiene_executor_started"],
  row ["CRR_HYGIENE_EXECUTOR_COMPLETED"]
      [.bump "crr" "hygiene_executor_completed"],
  row ["CRR_HYGIENE_EXECUTOR_FAILED"] [.bump "crr" "hygiene_executor_failed"],
  row ["CRR_REHYDRATION_VERIFIED"] [.bump "crr" "rehydration_verifications"],
  row ["CRR_REHYDRATION_LOAD_ORDER_VERIFIED"]
      [.bump "crr" "load_order_verifications"],
  row ["CRR_RECOVERY_COOLDOWN_SET"] [.bump "crr" "cooldowns_set"],
  row ["CRR_RECOVERY_ESCALATION_REFUSED"] [.bump "crr" "escalation_refusals"],
  row ["CRR_TRUSTED_SNAPSHOT_RECORDED"] [.bump "crr" "trusted_snapshots"],
  row ["CRR_RECOVERY_CYCLE_COMPLETED"] [],
  row ["CRR_RECOVERY_CYCLE_FAILED"] [],
  row ["CRR_CYCLE_RECORDED"] [.bump "crr" "cycles"],
  row ["MSC_MEDITATION_REQUESTED"] [.bump "msc" "requested"],
  row ["MSC_MEDITATION_STARTED"] [.bump "msc" "started"],
  row ["MSC_EVENT_WINDOW_SELECTED"] [.bump "msc" "windows_selected"],
  row ["MSC_LISTENING_COMPLETED"] [.bump "msc" "listening_completed"],
  row ["MSC_SUMMARY_RECORDED"]
      [.bump "msc" "summaries_recorded",
       .entry ["activity", "msc", "agents"] agentId
         [("last_summary_hash", .get "summary_hash"),
          ("last_summary_id", .get "summary_id"),
          ("observed_event_count", .get "observed_event_count")]],
  row ["MSC_SETTLED"]
      [.bump "msc" "settled",
       .entryOf cycle ["self", "last_meditation_by_agent"] cycleAgent
         [("cycle_id", ofCycle "cycle_id" .none),
          ("status", ofCycle "result_status" (.str "SETTLED")),
          ("summary_hash", .get "summary_hash"),
          ("observed_event_count", ofCycle "observed_event_count" (.int 0))]],
  row ["MSC_SKIPPED"] [.bump "msc" "skipped"],
  row ["MSC_FAILED"] [.bump "msc" "failed"],
  row ["MSC_REFUSED"]
      [.bump "msc" "refused",
       .count ["activity", "msc", "refused_by_reason"] reasonCode,
       .entryOf cycle ["self", "last_meditation_by_agent"] cycleAgent
         [("cycle_id", ofCycle "cycle_id" .none),
          ("status", .sub cycle "result_status" reasonCode),
          ("summary_hash", .const .none),
          ("observed_event_count", .const (.int 0))]],
  row ["YSR_YAWN_REQUESTED"] [.bump "ysr" "requested"],
  row ["YSR_YAWN_STARTED"] [.bump "ysr" "started"],
  row ["YSR_SCRATCH_SNAPSHOT_RECORDED"] [.bump "ysr" "snapshots"],
  row ["YSR_SCRATCH_CLEARED"] [.bump "ysr" "scratch_cleared"],
  row ["YSR_EVENT_HEAD_READ"]
      [.bump "ysr" "event_head_reads",
       .add ["activity", "ysr", "total_event_lag"]
         (.number (.orElse (.getOr "event_lag_count" (.int 0)) (.const (.int 0))))],
  row ["YSR_WORLD_STATE_REFRESHED"] [.bump "ysr" "world_state_refreshed"],
  row ["YSR_MEMORY_REFS_REFRESHED"] [.bump "ysr" "memory_refs_refreshed"],
  row ["YSR_RESYNC_VERIFIED"] [.bump "ysr" "resync_verified"],
  row ["YSR_YAWN_COMPLETED"]
      [.bump "ysr" "completed",
       .bump "ysr" "yawn_count",
       .entryOf cycle ["activity", "ysr", "agents"] cycleAgent
         [("last_cycle_id", ofCycle "cycle_id" .none),
          ("status", ofCycle "result_status" (.str "RESUMED")),
          ("event_lag_count", ofCycle "event_lag_count" (.int 0))],
       .entryOf cycle ["self", "last_yawn_by_agent"] cycleAgent
         [("cycle_id", ofCycle "cycle_id" .none),
          ("status", .const (.str "RESUMED")),
          ("event_lag_count", ofCycle "event_lag_count" (.int 0))]],
  row ["YSR_YAWN_NO_OP"] [.bump "ysr" "no_op"],
  row ["YSR_YAWN_REFUSED"]
      [.bump "ysr" "refused",
       .count ["activity", "ysr", "refused_by_reason"] reasonCode,
       .entry ["self", "last_yawn_by_agent"] agentId
         [("cycle_id", .get "cycle_id"), ("status", .const (.str "REFUSED")),
          ("reason", reasonCode)]],
  row ["YSR_ESCALATED_TO_CRR"] [.bump "ysr" "escalated"],
  row ["YSR_YAWN_FAILED"] [.bump "ysr" "failed"],
  row ["ELS_WAKE_REQUESTED"]
      [.bump "els" "wake_requested",
       .put ["self"] "wake_state" (.const (.str "WAKE_REQUESTED")),
       .entry ["self", "last_wake_by_agent"] agentId
         [("wake_id", .get "wake_id"), ("profile", .get "profile"),
          ("status", .const (.str "WAKE_REQUESTED"))]],
  row ["ELS_PROCESS_STARTED"]
      [.bump "els" "process_started",
       .put ["self"] "wake_state" (.const (.str "PROCESS_STARTED"))],
  row ["ELS_IDENTITY_BOUND"]
      [.bump "els" "identity_bound",
       .put ["self"] "wake_state" (.const (.str "IDENTITY_BOUND"))],
  row ["ELS_EVENT_BUS_CONNECTED"]
      [.bump "els" "event_bus_connected",
       .put ["self"] "wake_state" (.const (.str "EVENT_BUS_CONNECTED"))],
  row ["ELS_EVENT_HEAD_READ"]
      [.bump "els" "event_head_reads",
       .put ["self"] "wake_state" (.const (.str "EVENT_HEAD_READ"))],
  row ["ELS_REPLAY_VERIFIED"]
      [.bump "els" "replay_verified",
       .put ["self"] "wake_state" (.const (.str "REPLAY_VERIFIED"))],
  row ["ELS_REPLAY_FAILED"]
      [.bump "els" "replay_failed",
       .put ["self"] "wake_state" (.const (.str "REPLAY_FAILED"))],
  row ["ELS_WORLD_STATE_DERIVED"]
      [.bump "els" "world_state_derived",
       .put ["self"] "wake_state" (.const (.str "WORLD_STATE_DERIVED"))],
  row ["ELS_READINESS_CHECK_RECORDED"]
      [.bump "els" "readiness_checks", .noteFailedCheck],
  row ["ELS_POSTURE_SELECTED"]
      [.put ["self"] "startup_posture" (.get "posture"),
       .put ["self"] "wake_state" (.const (.str "POSTURE_SELECTED"))],
  row ["ELS_READY_DECLARED"]
      [.bump "els" "ready_declared",
       .put ["self"] "wake_state" (.const (.str "READY_DECLARED")),
       .put ["self"] "last_wake_verdict" (.const (.str "ready")),
       .put ["self"] "startup_posture" (.get "posture")],
  row ["ELS_DEGRADED_READY_DECLARED"]
      [.bump "els" "degraded_ready_declared",
       .put ["self"] "wake_state" (.const (.str "DEGRADED_READY_DECLARED")),
       .put ["self"] "last_wake_verdict" (.const (.str "degraded_ready")),
       .put ["self"] "startup_posture" (.get "posture")],
  row ["ELS_WORK_ADMISSION_OPENED"]
      [.bump "els" "work_admission_opened",
       .put ["self"] "wake_state" (.const (.str "WORK_ADMISSION_OPEN")),
       .put ["self"] "work_admission_open" (.const (.bool true))],
  row ["ELS_WAKE_REFUSED"]
      [.bump "els" "wake_refused",
       .count ["activity", "els", "refused_by_reason"] reasonCode,
       .put ["self"] "wake_state" (.const (.str "WAKE_REFUSED")),
       .put ["self"] "last_wake_verdict" (.const (.str "refused")),
       .put ["self"] "work_admission_open" (.const (.bool false)),
       .entry ["self", "last_wake_by_agent"] agentId
         [("wake_id", .get "wake_id"),
          ("status", .const (.str "WAKE_REFUSED")), ("reason", reasonCode)]],
  row ["ELS_WAKE_FAILED"]
      [.bump "els" "wake_failed",
       .put ["self"] "wake_state" (.const (.str "WAKE_FAILED")),
       .put ["self"] "last_wake_verdict" (.const (.str "failed")),
       .put ["self"] "work_admission_open" (.const (.bool false))],
  row ["ELS_SAFE_MODE_ENTERED"]
      [.bump "els" "safe_mode_entered",
       .put ["self"] "wake_state" (.const (.str "SAFE_MODE_ENTERED")),
       .put ["self"] "startup_posture" (.const (.str "SAFE_MODE")),
       .put ["self"] "last_wake_verdict" (.const (.str "safe_mode")),
       .put ["self"] "work_admission_open" (.const (.bool false))],
  row ["ELS_SUBAGENT_DECLARED"]
      [.bump "els" "subagents_declared",
       .entry ["activity", "els", "active_subagents"] agentId
         [("parent_agent_id", .get "parent_agent_id"),
          ("status", .const (.str "SUBAGENT_DECLARED"))]],
  row ["ELS_SUBAGENT_READY"]
      [.bump "els" "subagents_ready",
       .entry ["activity", "els", "active_subagents"] agentId
         [("status", .const (.str "SUBAGENT_READY")),
          ("posture", .get "posture")]],
  row ["ELS_SUBAGENT_REFUSED"]
      [.bump "els" "subagents_refused",
       .entry ["activity", "els", "active_subagents"] agentId
         [("status", .const (.str "SUBAGENT_REFUSED")),
          ("reason", .get "refusal_reason")]],
  row ["ELS_CONFIG_LOADED", "ELS_MEMORY_CONTEXT_LOADED",
      "ELS_CAPABILITY_CATALOG_LOADED", "ELS_QUIET_SETTLING_STARTED",
      "ELS_QUIET_SETTLING_COMPLETED", "ELS_SUBAGENT_IDENTITY_BOUND",
      "ELS_SUBAGENT_SCOPE_BOUND", "ELS_SUBAGENT_CONTEXT_LOADED"]
      [],
  row ["PANIC_ENTERED"] [.put ["environment"] "panic" (.const (.bool true))],
  row ["PANIC_CLEARED"] [.put ["environment"] "panic" (.const (.bool false))],
  row ["RUNTIME_STARTED"]
      [.put ["self"] "runtime_version" (.get "runtime_version"),
       .put ["self"] "registry_hash" (.get "registry_hash"),
       .put ["self"] "started_at" (.field "timestamp")],
  row ["RUNTIME_TICK_STARTED"] [],
  row ["TICK_COMPLETED", "RUNTIME_TICK_COMPLETED"]
      [.add ["self", "ticks"] (.const (.int 1)),
       .put ["self"] "last_tick_seq" (.field "seq")],
  row ["RUNTIME_STOP_REQUESTED"]
      [.add ["environment", "health", "stop_requests"] (.const (.int 1))],
  row ["RUNTIME_STOPPING", "RUNTIME_STOPPED"] [],
  row ["RUNTIME_PANIC_BLOCKED"]
      [.add ["environment", "health", "panic_blocks"] (.const (.int 1))],
  row ["TICK_SLOW"]
      [.add ["environment", "health", "slow_ticks"] (.const (.int 1))],
  row ["MEMORY_RETRIEVE_REQUESTED", "MEMORY_STORE_REQUESTED"] [],
  row ["MEMORY_RETRIEVE_COMPLETED", "MEMORY_RETRIEVED"]
      [.bump "memory" "retrieved",
       .push ["activity", "recent_memory_retrievals"]
         [("event_id", .eventId), ("query", ofProvenance "query" .none),
          ("result_refs", .elements (ofProvenance "result_refs" (.list []))),
          ("status", .getOr "status" (.str "ok"))]
         recentReceiptsMax],
  row ["MEMORY_RETRIEVE_FAILED"]
      [.add ["environment", "health", "memory_retrieve_failures"]
         (.const (.int 1))],
  row ["MEMORY_STORE_COMPLETED", "MEMORY_WRITTEN", "MEMORY_CONSOLIDATED"]
      [.bump "memory" "written"],
  row ["MEMORY_STORE_FAILED", "MEMORY_WRITE_FAILED"]
      [.add ["environment", "health", "memory_write_failures"]
         (.const (.int 1))],
  row ["TER_COMMAND_REQUESTED"]
      [.bump "ter" "commands_requested",
       .put ["activity", "ter"] "last_command_id" (.get "request_id")],
  row ["TER_COMMAND_POLICY_EVALUATED"] [.bump "ter" "policy_evaluations"],
  row ["TER_COMMAND_REFUSED"]
      [.bump "ter" "refused",
       .count ["activity", "ter", "refusal_counts_by_reason"] reasonCode],
  row ["TER_COMMAND_STARTED"] [.bump "ter" "started"],
  row ["TER_COMMAND_COMPLETED"]
      [.bump "ter" "completed",
       .count ["activity", "ter", "counts_by_status"]
         (.textOf "result_status" "unknown")],
  row ["TER_COMMAND_TIMED_OUT"]
      [.bump "ter" "timed_out",
       .count ["activity", "ter", "counts_by_status"]
         (.const (.str "timed_out"))],
  row ["TER_COMMAND_RECEIPT_RECORDED"]
      [.bump "ter" "receipts_recorded",
       .put ["activity", "ter"] "last_receipt_hash" (.get "receipt_hash"),
       .push ["activity", "recent_receipts"]
         [("event_id", .eventId), ("type", .eventType),
          ("refs", .pair (.get "receipt_id") (.get "receipt_hash"))]
         recentReceiptsMax],
  row ["CSM_CHANGE_REQUESTED"]
      [.bump "csm" "changes_requested",
       .put ["activity", "csm"] "last_change_id" (.get "change_id")],
  row ["CSM_CHANGE_CLASSIFIED"] [.bump "csm" "classified"],
  row ["CSM_POLICY_EVALUATED"]
      [.bump "csm" "policy_evaluations",
       .put ["activity", "csm"] "last_decision_hash" (.get "decision_hash")],
  row ["CSM_CHANGE_ALLOWED"] [.bump "csm" "allowed"],
  row ["CSM_CHANGE_REFUSED"]
      [.bump "csm" "refused",
       .count ["activity", "csm", "refusal_counts_by_reason"] reasonCode],
  row ["CSM_APPROVAL_REQUIRED"] [.bump "csm" "approval_required"],
  row ["CSM_HIGH_RISK_CONFIRMATION_REQUIRED"]
      [.bump "csm" "high_risk_confirmation_required"],
  row ["CSM_LIFECYCLE_TRANSITION_REFUSED"] [.bump "csm" "transition_refusals"],
  row ["MEL_RECORD_APPENDED"]
      [.bump "mel" "records_appended",
       .put ["activity", "mel"] "ledger_head_hash" (.get "record_hash")],
  row ["MEL_RECEIPT_RECORDED"]
      [.bump "mel" "receipts_recorded",
       .put ["activity", "mel"] "ledger_head_hash" (.get "record_hash")],
  row ["MEL_CHAIN_VERIFIED"]
      [.bump "mel" "chains_verified",
       .put ["activity", "mel"] "chain_status" (.const (.str "verified")),
       .put ["activity", "mel"] "ledger_head_hash" (.get "head_hash")],
  row ["MEL_CHAIN_BROKEN"]
      [.bump "mel" "chains_broken",
       .put ["activity", "mel"] "chain_status" (.const (.str "broken"))],
  row ["SRP_DRIFT_OBSERVED"] [.bump "srp" "drifts_observed"],
  row ["SRP_TEST_FAILURE_OBSERVED"] [.bump "srp" "test_failures_observed"],
  row ["SRP_AUDIT_FINDING_OBSERVED"] [.bump "srp" "audit_findings_observed"],
  row ["SRP_PROPOSAL_BUNDLE_CREATED"]
      [.bump "srp" "bundles_created", .bump "srp" "proposals"],
  row ["SRP_PROPOSAL_BUNDLE_HASHED"] [],
  row ["SRP_HUMAN_SIGNATURE_REQUIRED"] [.bump "srp" "signatures_required"],
  row ["SRP_HUMAN_SIGNATURE_RECORDED"] [.bump "srp" "signatures_recorded"],
  row ["SRP_APPLY_REFUSED"] [.bump "srp" "apply_refusals"],
  row ["SRP_APPLY_REQUESTED"] [.bump "srp" "apply_requests"],
  row ["SRP_APPROVAL_VERIFIED"] [.bump "srp" "approvals_verified"],
  row ["SRP_APPROVAL_REJECTED"] [.bump "srp" "approvals_rejected"],
  row ["SRP_APPLY_SANDBOX_PREPARED"] [.bump "srp" "sandboxes_prepared"],
  row ["SRP_PATCH_APPLIED"] [.bump "srp" "patches_applied"],
  row ["SRP_APPLY_TESTS_PASSED"] [.bump "srp" "apply_tests_passed"],
  row ["SRP_APPLY_TESTS_FAILED"] [.bump "srp" "apply_tests_failed"],
  row ["SRP_REVIEW_ARTIFACT_CREATED"] [.bump "srp" "review_artifacts_created"],
  row ["SRP_FINAL_CONFIRMATION_REQUIRED"] [],
  row ["SRP_MERGE_READY"] [.bump "srp" "merge_ready_marked"],
  row ["SRP_APPLY_REJECTED"] [.bump "srp" "apply_rejected"],
  row ["SRP_APPLY_CLOSED"] [.bump "srp" "apply_closed"],
  row ["SRP_TEST_COMMAND_STARTED", "SRP_TEST_COMMAND_COMPLETED"] [],
  row ["SRP_FINAL_CONFIRMATION_VERIFIED"]
      [.bump "srp" "final_confirmations_verified"],
  row ["SRP_PROTECTED_BASE_VERIFIED"] [.bump "srp" "protected_base_verified"],
  row ["SRP_SELF_EDIT_STARTED"] [.bump "srp" "self_edit_started"],
  row ["SRP_SELF_EDIT_RECEIPT_RECORDED"] [.bump "srp" "self_edit_completed"],
  row ["SRP_SELF_EDIT_AUTHORIZATION_REJECTED",
      "SRP_FINAL_CONFIRMATION_REJECTED", "SRP_PROTECTED_BASE_REJECTED"]
      [.bump "srp" "self_edit_rejected"],
  row ["SRP_SELF_EDIT_LOCKDOWN"] [.bump "srp" "self_edit_lockdowns"],
  row ["SRP_SELF_EDIT_ROLLBACK_COMPLETED"] [.bump "srp" "self_edit_rollbacks"],
  row ["SRP_EXTERNAL_TOOL_HANDOFF_CREATED"] [.bump "srp" "handoffs_created"],
  row ["SRP_MAINTENANCE_OUTCOME_RECORDED"] [.bump "srp" "outcomes_recorded"],
  row ["MAX_AUTO_RUN_REQUESTED"]
      [.bump "max_auto" "runs_requested",
       .put ["activity", "max_auto"] "last_run_id" (.get "run_id"),
       .put ["activity", "max_auto"] "last_state"
         (.const (.str "RUN_REQUESTED"))],
  row ["MAX_AUTO_OBSERVATION_RECORDED"]
      [.bump "max_auto" "observations_recorded"],
  row ["MAX_AUTO_BUNDLE_CREATED"]
      [.bump "max_auto" "bundles_created",
       .put ["activity", "max_auto"] "last_bundle_hash" (.get "bundle_hash")],
  row ["MAX_AUTO_SCOPE_APPROVED"] [.bump "max_auto" "scope_approved"],
  row ["MAX_AUTO_SCOPE_REJECTED"] [.bump "max_auto" "scope_rejected"],
  row ["MAX_AUTO_WORKTREE_PREPARED"] [.bump "max_auto" "worktrees_prepared"],
  row ["MAX_AUTO_PATCH_COMPLETED"] [.bump "max_auto" "patches_completed"],
  row ["MAX_AUTO_TEST_COMPLETED"] [.bump "max_auto" "tests_completed"],
  row ["MAX_AUTO_LOCAL_COMMIT_CREATED"]
      [.bump "max_auto" "local_commits_created",
       .put ["activity", "max_auto"] "last_commit_sha" (.get "commit_sha")],
  row ["MAX_AUTO_LOCKDOWN_ENTERED"] [.bump "max_auto" "lockdowns"],
  row ["MAX_AUTO_RUN_COMPLETED"]
      [.bump "max_auto" "runs_completed",
       .put ["activity", "max_auto"] "last_verdict" (.get "verdict"),
       .put ["activity", "max_auto"] "last_state" (.const (.str "COMPLETED"))],
  row ["MAX_AUTO_RUN_FAILED"]
      [.bump "max_auto" "runs_failed",
       .put ["activity", "max_auto"] "last_state" (.const (.str "FAILED"))],
  row ["MAX_AUTO_RUN_REFUSED"]
      [.bump "max_auto" "runs_refused",
       .put ["activity", "max_auto"] "last_state" (.const (.str "REFUSED"))],
  row ["SRP_REPAIR_PROPOSED"]
      [.bumpUnless (.get "bundle_id") "srp" "proposals",
       .push ["goals", "pending_tasks"]
         [("event_id", .eventId),
          ("ref", .orElse (.get "proposal_id") (.get "bundle_id")),
          ("bundle_hash", .get "bundle_hash"),
          ("status", .getOr "status" (.str "PROPOSED")),
          ("signature_required", .getOr "signature_required" (.bool true))]
         pendingMetaMax],
  row ["GAP_DETECTED"]
      [.push ["goals", "gaps"]
         [("event_id", .eventId), ("ref", .get "gap_id")]
         pendingMetaMax],
  row ["TASK_PROPOSED"]
      [.bump "srp" "proposals",
       .push ["goals", "pending_tasks"]
         [("event_id", .eventId), ("ref", .get "proposal_id"),
          ("bundle_hash", .get "bundle_hash")]
         pendingMetaMax],
  row ["CHANGE_APPROVED"] [],
  row ["EVENTS_DROPPED"]
      [.add ["environment", "health", "events_dropped"]
         (.number (.getOr "total" (.int 0)))],
  row ["HANDLER_FAILED"]
      [.add ["environment", "health", "handler_failures"] (.const (.int 1))]].flatten

def passedOver : List String :=
  ["SRP_SELF_EDIT_", "SRP_POST_MERGE_", "SRP_FINAL_CONFIRMATION_",
    "SRP_PROTECTED_BASE_"]

/-- The branch of a type.  A type without one is counted. -/
def branch (type : String) : List Update :=
  match branches.lookup type with
  | some updates => updates
  | none =>
      if passedOver.any (startsWith type) then []
      else [.count ["meta", "unhandled_types"] .eventType]

/-! ## The reducer -/

abbrev World := Held PyVal

def initialWorld : World := .plain initialState

namespace World

def incoming (event : Record) : Except PyError Incoming := do
  let type ← Bus.field event "type"
  let eventId ← Bus.field event "event_id"
  match type with
  | .str name => return {
      event := event
      type := name
      payload := (PyVal.item? event "payload").getD (.dict [])
      eventId := eventId }
  | _ => throw (.attributeError "startswith")

def closing : List Update :=
  [.put ["meta"] "last_seq" (.field "seq"),
    .add ["meta", "events_applied"] (.const (.int 1))]

def apply (r : Reader) (s : World) (event : Record) : Except PyError World := do
  if !s.encodes then throw (.typeError "object is not JSON serializable")
  let e ← incoming event
  (branch e.type ++ closing).foldlM (Update.run r e) (.plain s.value)

end World

end Hydrogenuine.Runtime
