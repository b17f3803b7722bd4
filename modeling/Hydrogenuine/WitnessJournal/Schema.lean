import Hydrogenuine.Core.Host
import Hydrogenuine.Support.PaddedDecimal

/-!
# Witness journal: events and the chain file

Embedding of `external_witness_journal/schema.py` and of the event files that
`github_journal_backend.py` names.  A JSON file is the value that is read back from it.
-/

namespace Hydrogenuine.WitnessJournal

open Support Hydrogenuine.Core

abbrev Items := List (String × PyVal)

/-! ## Enumerations -/

/-- `WitnessEventClass`. -/
inductive EventClass where
  | bootStart | bootVerified | firstWakeStart | firstWakeComplete | missionStart
  | missionComplete | weatherVoiceStart | weatherVoiceComplete | sleepStart
  | sleepComplete | cleanStop | panicEntered | panicCleared | wakeRefreshStart
  | wakeRefreshComplete | continuityRecoveryStart | continuityRecoveryComplete
  | importantStateMarker | incidentMarker | policyEpochMarker | releaseMarker
  | operatorMarker
deriving DecidableEq

def EventClass.value : EventClass → String
  | bootStart => "BOOT_START"
  | bootVerified => "BOOT_VERIFIED"
  | firstWakeStart => "FIRST_WAKE_START"
  | firstWakeComplete => "FIRST_WAKE_COMPLETE"
  | missionStart => "MISSION_START"
  | missionComplete => "MISSION_COMPLETE"
  | weatherVoiceStart => "WEATHER_VOICE_START"
  | weatherVoiceComplete => "WEATHER_VOICE_COMPLETE"
  | sleepStart => "SLEEP_START"
  | sleepComplete => "SLEEP_COMPLETE"
  | cleanStop => "CLEAN_STOP"
  | panicEntered => "PANIC_ENTERED"
  | panicCleared => "PANIC_CLEARED"
  | wakeRefreshStart => "WAKE_REFRESH_START"
  | wakeRefreshComplete => "WAKE_REFRESH_COMPLETE"
  | continuityRecoveryStart => "CONTINUITY_RECOVERY_START"
  | continuityRecoveryComplete => "CONTINUITY_RECOVERY_COMPLETE"
  | importantStateMarker => "IMPORTANT_STATE_MARKER"
  | incidentMarker => "INCIDENT_MARKER"
  | policyEpochMarker => "POLICY_EPOCH_MARKER"
  | releaseMarker => "RELEASE_MARKER"
  | operatorMarker => "OPERATOR_MARKER"

open EventClass in
def lifecycleEventClasses : List EventClass :=
  [bootStart, bootVerified, firstWakeStart, firstWakeComplete, missionStart,
    missionComplete, weatherVoiceStart, weatherVoiceComplete, sleepStart, sleepComplete,
    cleanStop, panicEntered, panicCleared, wakeRefreshStart, wakeRefreshComplete,
    continuityRecoveryStart, continuityRecoveryComplete]

/-- `WitnessImportanceClass`. -/
inductive ImportanceClass where
  | routine | important | critical | incident | release | operatorPinned
deriving DecidableEq

def ImportanceClass.value : ImportanceClass → String
  | routine => "ROUTINE"
  | important => "IMPORTANT"
  | critical => "CRITICAL"
  | incident => "INCIDENT"
  | release => "RELEASE"
  | operatorPinned => "OPERATOR_PINNED"

/-- `WitnessAppendDecision`. -/
inductive AppendDecision where
  | allowLocalOnly | allowLivePush | queueForOperator | deny | fullStop
deriving DecidableEq

/-- `AnchorWriterRequestKind`. -/
inductive RequestKind where
  | anchorImportantEvent | anchorMissionStart | anchorMissionComplete | anchorSleepStart
  | anchorSleepComplete | anchorContinuityRecovery | operatorAppend
deriving DecidableEq

/-! ## Records -/

/-- The fields of `WitnessJournalConfig` that an append reads. -/
structure Config where
  agentLongName : String := "Agent Zero"
  agentShortName : String := "Zero"
  agentCodeId : String := "agent0"
  allowPush : Bool := false
  maxImportantPerHour : ℤ := 12

/-- `AnchorWriterRequest`. -/
structure Request where
  kind : RequestKind
  eventClass : EventClass
  importance : ImportanceClass
  summary : String
  facts : Items := []
  operatorInvoked : Bool := false
  agentRequested : Bool := false
  pushRequested : Bool := false
  epochLockId : Option String := none
  epochId : Option String := none
  missionId : Option String := none
  runId : Option String := none
  proofRef : Option String := none
  anchorHandoff : Option Items := none

/-- `WitnessJournalBundle`, without the fields that an append never sets. -/
structure Bundle where
  eventClass : EventClass
  importanceClass : ImportanceClass
  eventSequence : ℤ
  agentLongName : String
  agentShortName : String
  agentCodeId : String
  createdUtc : String
  epochId : Option String
  epochLockId : PyVal
  externalStartAnchorSha256 : PyVal
  previousJournalEventSha256 : Option String
  previousGithubCommitSha : Option String
  localStateCommitmentSha256 : String
  proofBundleRefHash : Option String
  missionId : Option String
  runId : Option String
  eventSummaryPublic : String
  eventFactsPublic : Items
  journalEventSha256 : String := ""
  githubCommitSha : Option String := none

namespace Bundle

/-- `to_dict(include_hash=False)`, of a bundle without a commit. -/
def body (b : Bundle) : Items :=
  [("schema_version", .str "external_witness_journal/1"),
    ("journal_type", .str "HYDROGENUINE_AGENT_ZERO_WITNESS_JOURNAL_V1"),
    ("event_class", .str b.eventClass.value),
    ("importance_class", .str b.importanceClass.value),
    ("event_sequence", .int b.eventSequence),
    ("agent_long_name", .str b.agentLongName),
    ("agent_short_name", .str b.agentShortName),
    ("agent_code_id", .str b.agentCodeId),
    ("created_utc", .str b.createdUtc),
    ("epoch_id", .ofOption b.epochId),
    ("epoch_lock_id", b.epochLockId),
    ("chrono_lock_id", .none),
    ("external_start_anchor_sha256", b.externalStartAnchorSha256),
    ("previous_journal_event_sha256", .ofOption b.previousJournalEventSha256),
    ("previous_github_commit_sha", .ofOption b.previousGithubCommitSha),
    ("local_state_commitment_sha256", .str b.localStateCommitmentSha256),
    ("local_receipt_bundle_sha256", .none),
    ("proof_bundle_ref_hash", .ofOption b.proofBundleRefHash),
    ("mission_id", .ofOption b.missionId),
    ("run_id", .ofOption b.runId),
    ("event_summary_public", .str b.eventSummaryPublic),
    ("event_facts_public", .dict b.eventFactsPublic),
    ("secrets_included", .bool false),
    ("raw_memory_included", .bool false),
    ("raw_audio_included", .bool false),
    ("raw_browser_content_included", .bool false),
    ("authority", .bool false),
    ("permission", .bool false),
    ("advisory_only", .bool true),
    ("permission_granted", .bool false),
    ("authority_created", .bool false)]

def toDict (b : Bundle) (includeHash : Bool) : Items :=
  b.body ++
    (if includeHash && b.journalEventSha256 != "" then
      [("journal_event_sha256", .str b.journalEventSha256)]
    else []) ++
    (match b.githubCommitSha with
    | some sha => if sha != "" then [("github_commit_sha", .str sha)] else []
    | none => [])

end Bundle

/-- The fields of `WitnessHashChain` that are read back. -/
structure HashChain where
  latestEventSequence : ℤ := -1
  latestEventSha256 : Option String := none
  latestGithubCommitSha : Option String := none
  eventCount : ℤ := 0
deriving DecidableEq, Inhabited

/-! ## The repository -/

/-- The journal files of the witness repository that are read: the event files, where
the directory exists, and the chain file. -/
structure Repo where
  events : Option (List (String × Items)) := none
  chain : Option HashChain := none

def Repo.readChain (repo : Repo) : HashChain := repo.chain.getD {}

def Repo.listing (repo : Repo) : List (String × Items) :=
  (repo.events.getD []).insertionSort fun a b => a.1 ≤ b.1

/-- `write_text`. -/
def writeFile (name : String) (data : Items) (files : List (String × Items)) :
    List (String × Items) :=
  files.filter (fun file => file.1 ≠ name) ++ [(name, data)]

/-- `f"{n:06d}"`. -/
def sixDigits : ℤ → List Char
  | .ofNat n => Support.padded 6 n
  | .negSucc n => '-' :: Support.padded 5 (n + 1)

def eventSuffix (eventClass : EventClass) : List Char :=
  '-' :: (eventClass.value.toList ++ ".json".toList)

def eventFilename (sequence : ℤ) (eventClass : EventClass) : String :=
  String.ofList ("event-".toList ++ (sixDigits sequence ++ eventSuffix eventClass))

example : eventFilename 7 .bootStart = "event-000007-BOOT_START.json" := by
  decide +kernel

theorem toList_eventFilename (n : ℕ) (c : EventClass) :
    (eventFilename n c).toList = "event-".toList ++ (Support.padded 6 n ++ eventSuffix c) :=
  String.toList_ofList

theorem eventFilename_lt
    {m n : ℕ} (hn : n < 10 ^ 6) (hmn : m < n) (c c' : EventClass) :
    eventFilename m c < eventFilename n c' := by
  rw [String.lt_iff_toList_lt, toList_eventFilename, toList_eventFilename]
  exact List.append_left_lt (padded_append_lt hn hmn _ _)

theorem eventFilename_inj
    {m n : ℕ} (hm : m < 10 ^ 6) (hn : n < 10 ^ 6) {c c' : EventClass}
    (h : eventFilename m c = eventFilename n c') : m = n := by
  rcases lt_trichotomy m n with hlt | hsame | hgt
  · exact absurd h (eventFilename_lt hn hlt c c').ne
  · exact hsame
  · exact absurd h (eventFilename_lt hm hgt c' c).ne'

end Hydrogenuine.WitnessJournal
