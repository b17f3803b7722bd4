import Mathlib.Logic.Function.Basic
import Hydrogenuine.Support.Stateful
import Hydrogenuine.WitnessJournal.HashChain

/-!
# Appending to the journal

Embedding of `anchor_writer.py`, `append_policy.py`, `event_bundle.py` and
`github_journal_backend.py` of the external witness journal.  Git, signing, the clock
and the secret scanner answer from outside.  The receipts, the operator queue, the
dry-run repository and the `latest` files are written only, and are left out.
-/

namespace Hydrogenuine.WitnessJournal

open Support Hydrogenuine.Core

/-- The exceptions of an append. -/
inductive JournalError where
  | witnessSecretLeak (message : String)
  | anchorRepoDirty (message : String)
  | python (error : PyError)
deriving DecidableEq

/-- What git answers to the commands of an append. -/
structure Git where
  /-- `git init` of the dry-run repository. -/
  init : Except JournalError Unit
  /-- `prepare_repo`. -/
  prepareRepo : Except JournalError Unit
  add : Except JournalError Unit
  commit : Except JournalError Unit
  revParse : Except JournalError String
  push : Except JournalError Unit

/-- The arguments of `append_journal_event`, and what it is answered. -/
structure Call where
  request : Request
  workspace : String
  dryRun : Bool := true
  push : Bool := false
  runId : String := ""
  /-- `time.time()`. -/
  now : ℚ
  createdUtc : String
  /-- The signature of the event, where there is a key. -/
  signing : Except JournalError (Option PyVal)
  git : Git

/-- The interpreter, the configuration and the workspace of the installation. -/
structure WriterEnv where
  host : Host
  cfg : Config
  /-- `WORKSPACE` of `anchor_writer.py`. -/
  moduleWorkspace : String
  /-- `SecretGuard.contains_secret` of the JSON text of a value. -/
  containsSecret : PyVal → Bool

structure JournalState where
  repo : Repo
  /-- `chain_local.json` of each workspace. -/
  localChains : String → Option HashChain
  importantTimestamps : List ℚ

abbrev JournalM := EStateM JournalError JournalState

/-! ## `append_policy.py` -/

def livePushIf (allowed : Bool) : AppendDecision :=
  if allowed then .allowLivePush else .allowLocalOnly

def decideAppend (cfg : Config) (r : Request) : AppendDecision × String :=
  if r.agentRequested && r.pushRequested && !r.operatorInvoked then
    (.deny, "RED_EWJ_UNAPPROVED_AGENT_PUSH")
  else
    match r.importance with
    | .operatorPinned =>
        if r.operatorInvoked then
          (livePushIf (r.pushRequested && cfg.allowPush), "operator pinned marker")
        else (.queueForOperator, "operator pin requires operator invocation")
    | .incident => (.queueForOperator, "incident markers require operator review")
    | .release => (.queueForOperator, "release markers require operator review")
    | .critical =>
        if r.operatorInvoked && r.pushRequested && cfg.allowPush then
          (.allowLivePush, "critical operator-approved push")
        else (.queueForOperator, "critical events queue for operator")
    | .important =>
        if r.agentRequested && !r.operatorInvoked then
          (.queueForOperator, "agent important marker queued for review")
        else if r.operatorInvoked then
          (livePushIf (r.pushRequested && cfg.allowPush), "operator important marker")
        else (.queueForOperator, "important marker requires review")
    | .routine =>
        if lifecycleEventClasses.contains r.eventClass then
          if r.operatorInvoked && r.pushRequested && cfg.allowPush then
            (.allowLivePush, "lifecycle operator push")
          else (.allowLocalOnly, "lifecycle local witness default")
        else if r.kind = .operatorAppend && r.operatorInvoked then
          (livePushIf (r.pushRequested && cfg.allowPush), "operator append")
        else (.deny, "event not allowed by policy")

/-- `check_rate_limit`: the timestamps that are stored next, or the text of
`AnchorSpamBlocked`. -/
def checkRateLimit
    (cfg : Config) (importance : ImportanceClass) (now : ℚ) (timestamps : List ℚ) :
    Except String (List ℚ) :=
  if importance = .important || importance = .critical then
    let window := timestamps.filter fun t => now - t < 3600
    if (window.length : ℤ) ≥ cfg.maxImportantPerHour then
      .error ("rate limit exceeded: " ++ toString window.length ++
        " important events in last hour")
    else .ok (window ++ [now])
  else .ok timestamps

/-! ## `event_bundle.py` -/

def localCommitment (host : Host) (r : Request) : String :=
  host.sha256Hex (PyVal.dict
    [("summary", .str r.summary), ("facts", .dict r.facts),
      ("event_class", .str r.eventClass.value),
      ("mission_id", .ofOption r.missionId), ("run_id", .ofOption r.runId)]).canonical

/-- `a or b`, of optional texts. -/
def textOr (a b : Option String) : Option String :=
  match a with
  | some text => if text = "" then b else some text
  | none => b

/-- `handoff.get(key)`, where there is a handoff. -/
def handoffField (r : Request) (key : String) : PyVal :=
  match r.anchorHandoff with
  | some handoff => PyVal.getItem handoff key
  | none => .none

/-- `request.epoch_lock_id or handoff_fields.get("epoch_lock_id")`. -/
def epochLock (r : Request) : PyVal :=
  match textOr r.epochLockId none with
  | some id => .str id
  | none => handoffField r "epoch_lock_id"

def draftBundle
    (env : WriterEnv) (call : Call) (sequence : ℤ)
    (prevHash prevCommit : Option String) : Bundle where
  eventClass := call.request.eventClass
  importanceClass := call.request.importance
  eventSequence := sequence
  agentLongName := env.cfg.agentLongName
  agentShortName := env.cfg.agentShortName
  agentCodeId := env.cfg.agentCodeId
  createdUtc := call.createdUtc
  epochId := call.request.epochId
  epochLockId := epochLock call.request
  externalStartAnchorSha256 := handoffField call.request "public_anchor_sha256"
  previousJournalEventSha256 := prevHash
  previousGithubCommitSha := prevCommit
  localStateCommitmentSha256 := localCommitment env.host call.request
  proofBundleRefHash := call.request.proofRef
  missionId := call.request.missionId
  runId := textOr call.request.runId (some call.runId)
  eventSummaryPublic := slice call.request.summary 0 500
  eventFactsPublic := call.request.facts

def Bundle.hashed (host : Host) (bundle : Bundle) : Bundle :=
  { bundle with journalEventSha256 := hashJournalEvent host (bundle.toDict false) }

/-- `build_event_bundle`: the bundle, and the payload that is written. -/
def buildEventBundle
    (env : WriterEnv) (call : Call) (sequence : ℤ) (prevHash prevCommit : Option String) :
    Except JournalError (Bundle × Items) := do
  let bundle := (draftBundle env call sequence prevHash prevCommit).hashed env.host
  if env.containsSecret (.dict (bundle.toDict true)) then
    throw (.witnessSecretLeak "secret pattern detected in public bundle")
  let signature ← call.signing
  return (bundle, bundle.toDict true ++
    signature.toList.map fun v => ("journal_signature", v))

/-! ## `github_journal_backend.py` -/

/-- `write_journal_files`, as far as the files are read again. -/
def Repo.writeJournalFiles (repo : Repo) (bundle : Bundle) (payload : Items) : Repo where
  events := some (writeFile (eventFilename bundle.eventSequence bundle.eventClass) payload
    (repo.events.getD []))
  chain := some
    { repo.readChain with
      latestEventSequence := bundle.eventSequence
      latestEventSha256 := some bundle.journalEventSha256
      eventCount := bundle.eventSequence + 1 }

/-- `AnchorWriterReceipt`, without its identifiers. -/
structure Receipt where
  eventClass : EventClass
  eventSequence : ℤ
  journalEventSha256 : String
  decision : AppendDecision
  pushed : Bool
  dryRun : Bool
  githubCommitSha : Option String := none

/-- `AnchorWriterResult`. -/
structure AppendResult where
  decision : AppendDecision
  verdict : String
  reason : String
  allowPush : Bool := false
  bundle : Option Bundle := none
  receipt : Option Receipt := none
  backendDetail : String := ""

section Backend

variable (env : WriterEnv)

def nextSequence (s : JournalState) (workspace : String) : ℤ :=
  match s.localChains workspace with
  | some chain => chain.latestEventSequence + 1
  | none =>
      match s.repo.chain with
      | some chain => chain.latestEventSequence + 1
      | none => 0

/-- The hash and the commit that the next event refers to. -/
def previousEvent (s : JournalState) : Option String × Option String :=
  match s.localChains env.moduleWorkspace with
  | some chain => (chain.latestEventSha256, chain.latestGithubCommitSha)
  | none =>
      match s.repo.chain with
      | some chain => (chain.latestEventSha256, chain.latestGithubCommitSha)
      | none => (none, none)

def updateLocalChain (workspace : String) (bundle : Bundle) (commit : Option String) :
    JournalM Unit :=
  modify fun s =>
    { s with
      localChains := Function.update s.localChains workspace (some
        { latestEventSequence := bundle.eventSequence
          latestEventSha256 := some bundle.journalEventSha256
          latestGithubCommitSha := commit
          eventCount := bundle.eventSequence + 1 }) }

/-- `GitHubJournalBackend.append`: the bundle, the receipt and the detail. -/
def backendAppend (call : Call) (bundle : Bundle) (payload : Items) (push : Bool) :
    JournalM (Bundle × Receipt × String) := do
  let allowPush := push && env.cfg.allowPush && !call.dryRun
  let receipt : Receipt :=
    { eventClass := bundle.eventClass
      eventSequence := bundle.eventSequence
      journalEventSha256 := bundle.journalEventSha256
      decision := .allowLocalOnly
      pushed := false
      dryRun := call.dryRun || !allowPush }
  if call.dryRun then
    raising call.git.init
    updateLocalChain call.workspace bundle none
    return (bundle, { receipt with dryRun := true }, "dry-run sandbox only")
  raising call.git.prepareRepo
  modify fun s => { s with repo := s.repo.writeJournalFiles bundle payload }
  raising call.git.add
  raising call.git.commit
  let head ← raising call.git.revParse
  let committed := { bundle with githubCommitSha := some head }
  let receipt := { receipt with githubCommitSha := some head, dryRun := false }
  if !allowPush then
    updateLocalChain call.workspace bundle (some head)
    return (committed, receipt, "local repo commit without remote push")
  raising call.git.push
  updateLocalChain call.workspace bundle (some head)
  return (committed, { receipt with pushed := true }, "pushed")

/-! ## `append_journal_event` -/

/-- The part of an append that comes after the policy has allowed it. -/
def appendAllowed (call : Call) (decision : AppendDecision) (reason : String) :
    JournalM AppendResult := do
  let s ← get
  let (prevHash, prevCommit) := previousEvent env s
  let (bundle, payload) ← raising (buildEventBundle env call
    (nextSequence s call.workspace) prevHash prevCommit)
  let push := call.push && decision = .allowLivePush
  let (bundle, receipt, detail) ← backendAppend env call bundle payload push
  return {
    decision
    verdict :=
      if call.dryRun && call.push then "YELLOW_EWJ_LIVE_PUSH_DISABLED"
      else "GREEN_EWJ_APPEND_ONLY_VERIFIED"
    reason
    allowPush := push && !call.dryRun
    bundle := some bundle
    receipt := some { receipt with decision }
    backendDetail := detail }

def appendJournalEvent (call : Call) : JournalM AppendResult :=
  match decideAppend env.cfg call.request with
  | (.deny, reason) => return {
      decision := .deny
      verdict :=
        if startsWith reason "RED_" then reason else "RED_EWJ_UNAPPROVED_AGENT_PUSH"
      reason }
  | (.queueForOperator, reason) => return {
      decision := .queueForOperator
      verdict := "YELLOW_EWJ_LIVE_PUSH_DISABLED"
      reason
      receipt := some
        { eventClass := call.request.eventClass
          eventSequence := -1
          journalEventSha256 := ""
          decision := .queueForOperator
          pushed := false
          dryRun := true } }
  | (decision, reason) => do
      let s ← get
      match checkRateLimit env.cfg call.request.importance call.now
        s.importantTimestamps with
      | .error text => return {
          decision := .fullStop
          verdict := "RED_EWJ_ANCHOR_SPAM"
          reason := text }
      | .ok timestamps =>
          set { s with importantTimestamps := timestamps }
          appendAllowed env call decision reason

end Backend

end Hydrogenuine.WitnessJournal
