import Hydrogenuine.Ledger.Envelope

/-!
# The ledger on disk

`hg_core/ledger/ledger_writer.py`, `ledger_verify.py` and `emit` of the package:
where the events of a scope are kept, appending, the readers that walk the
directories, and the verification of the chains.

A path is relative to the directory `scopes` unless one of its segments was
absolute.  The directories are those that the files are in.
-/

namespace Hydrogenuine.Ledger

open Support Hydrogenuine.Core

/-! ## Paths -/

structure LedgerPath where
  absolute : Bool
  parts : List String
deriving DecidableEq

def splitStep (c : Char) (segments : List (List Char)) : List (List Char) :=
  if c = '/' then [] :: segments
  else
    match segments with
    | [] => [[c]]
    | segment :: rest => (c :: segment) :: rest

def segmentsOf (text : String) : List String :=
  (text.toList.foldr splitStep [[]]).map String.ofList

/-- `base / text`: empty segments and `.` are dropped, and an absolute text
starts over. -/
def LedgerPath.join (base : LedgerPath) (text : String) : LedgerPath :=
  let parts := (segmentsOf text).filter fun part => part ≠ "" ∧ part ≠ "."
  if startsWith text "/" then ⟨true, parts⟩
  else { base with parts := base.parts ++ parts }

/-- The directory `scopes`. -/
def scopesDir : LedgerPath := ⟨false, []⟩

/-- `base / v`. -/
def joinValue (base : LedgerPath) : PyVal → Except PyError LedgerPath
  | .str text => .ok (base.join text)
  | _ => .error (.typeError "unsupported operand type(s) for /")

def getScopeLedgerPath
    (host : Host) (scopeType scopeId tenantId environment : PyVal) :
    Except PyError LedgerPath := do
  if tenantId.truthy && environment.truthy then
    let tenantDir ← joinValue scopesDir tenantId
    let environmentDir ← joinValue tenantDir environment
    let typeDir ← joinValue environmentDir scopeType
    return typeDir.join (host.str scopeId ++ ".jsonl")
  else
    let typeDir ← joinValue scopesDir scopeType
    return typeDir.join (host.str scopeId ++ ".jsonl")

/-! ## Files -/

abbrev Files := List (LedgerPath × List LedgerEvent)

def LedgerPath.above (path other : LedgerPath) : Bool :=
  path.absolute == other.absolute && path.parts.isPrefixOf other.parts &&
    path.parts.length != other.parts.length

def isDirectory (files : Files) (path : LedgerPath) : Bool :=
  files.any fun file => path.above file.1

/-- What the ledger runs on. -/
structure LedgerEnv where
  host : Host
  crypto : Crypto
  /-- `HG_ENV` is `prod`. -/
  prod : Bool
  /-- The scope of the context variable. -/
  currentScope : List (String × PyVal)
  /-- The system can create a file of this name. -/
  creatable : LedgerPath → Bool

/-- Opening for appending: no directory may have the name of a file, nor the
other way round. -/
def canAppend (env : LedgerEnv) (files : Files) (path : LedgerPath) : Bool :=
  env.creatable path && !isDirectory files path &&
    !files.any fun file => file.1.above path

def appendLine
    (env : LedgerEnv) (files : Files) (path : LedgerPath) (event : LedgerEvent) :
    Except PyError Files :=
  if canAppend env files path then
    .ok (assignEntry path ((lookupEntry path files).getD [] ++ [event]) files)
  else .error (.osError "cannot open the ledger file")

def readFile (files : Files) (path : LedgerPath) :
    Except PyError (List LedgerEvent) :=
  match lookupEntry path files with
  | some events => .ok events
  | none => .error (.osError "is a directory")

/-! ## Writing -/

/-- `(scope.get(k) or default).strip() or default`. -/
def scopeText
    (scope : List (String × PyVal)) (k default : String) :
    Except PyError String :=
  let value := PyVal.getItem scope k
  if value.truthy then
    match value with
    | .str text =>
        .ok (if strip text = "" then default else strip text)
    | _ => .error (.attributeError "strip")
  else .ok default

/-- `event.get("scope") or {}`. -/
def scopeOf (event : LedgerEvent) : Except PyError (List (String × PyVal)) :=
  let scope := PyVal.getItem event "scope"
  if scope.truthy then
    match scope with
    | .dict items => .ok items
    | _ => .error (.attributeError "get")
  else .ok []

/-- Where `append_event` puts the events of a scope. -/
def writePath (host : Host) (scope : List (String × PyVal)) :
    Except PyError LedgerPath := do
  let scopeType ← scopeText scope "type" "global"
  let scopeId ← scopeText scope "id" "default"
  getScopeLedgerPath host (.str scopeType) (.str scopeId)
    (PyVal.getItem scope "tenant_id") (PyVal.getItem scope "environment")

def appendEvent (env : LedgerEnv) (files : Files) (event : LedgerEvent) :
    Except PyError Files := do
  if !(← verifyEnvelope env.host env.crypto event) then
    .error (.valueError "Event failed verification (event_id or signature)")
  else
    let scope ← scopeOf event
    let path ← writePath env.host scope
    appendLine env files path event

/-- `path.exists()`. -/
def pathExists (files : Files) (path : LedgerPath) : Bool :=
  (lookupEntry path files).isSome || isDirectory files path

def lastId (events : List LedgerEvent) : PyVal :=
  match events.getLast? with
  | some event => PyVal.getItem event "event_id"
  | none => .none

/-- `get_last_hash`, from the path on. -/
def getLastHash (files : Files) (path : LedgerPath) : Except PyError PyVal :=
  if pathExists files path then return lastId (← readFile files path)
  else .ok .none

/-- Where `emit` looks for the previous event of a scope. -/
def lookupPath (host : Host) (scope : List (String × PyVal)) :
    Except PyError LedgerPath := do
  let scopeType ←
    match PyVal.item? scope "type" with
    | some value => .ok value
    | none => .error (.keyError "type")
  let scopeId ←
    match PyVal.item? scope "id" with
    | some value => .ok value
    | none => .error (.keyError "id")
  getScopeLedgerPath host scopeType scopeId
    (PyVal.getItem scope "tenant_id") (PyVal.getItem scope "environment")

/-- What `emit` is called with. -/
structure EmitCall where
  action : String
  objectType : String
  objectId : String
  payload : PyVal
  scope : Option (List (String × PyVal))
  actor : PyVal
  /-- The clock reading that becomes `ts`. -/
  now : String
  objectPath : Option String
  secretKeyHex : Option String

def defaultActor : PyVal :=
  .dict [
    ("agent_id", .str "hg-ledger"),
    ("pubkey", .str (String.ofList (List.replicate 64 '0'))),
    ("key_id", .str "default")]

/-- `v or default`. -/
def orValue (value default : PyVal) : PyVal :=
  if value.truthy then value else default

/-- The scope that `emit` works on. -/
def EmitCall.scopeIn (env : LedgerEnv) (call : EmitCall) :
    List (String × PyVal) :=
  call.scope.getD [
    ("type", orValue (PyVal.getItem env.currentScope "scope_type")
      (.str "global")),
    ("id", orValue (PyVal.getItem env.currentScope "scope_id")
      (.str "default"))]

def EmitCall.args (env : LedgerEnv) (call : EmitCall) : EnvelopeArgs where
  action := call.action
  objectType := call.objectType
  objectId := call.objectId
  payload := call.payload
  scope := call.scopeIn env
  actor := orValue call.actor defaultActor
  ts := call.now
  objectPath := call.objectPath
  secretKeyHex := call.secretKeyHex

def emit (env : LedgerEnv) (files : Files) (call : EmitCall) :
    Except PyError Files := do
  if env.prod && call.secretKeyHex.isNone then
    .error (.runtimeError
      "Production ledger requires explicit signing key")
  else
    let path ← lookupPath env.host (call.scopeIn env)
    let prevHash ← getLastHash files path
    appendEvent env files
      (buildEnvelope env.host env.crypto (call.args env) prevHash)

/-! ## Reading -/

def sortedNames (names : List String) : List String :=
  names.dedup.insertionSort fun a b => a ≤ b

/-- The names of what is directly in a directory below `scopes`, each with the
answer to whether it is a directory. -/
def entriesIn (files : Files) (directory : List String) :
    List (String × Bool) :=
  files.filterMap fun file =>
    if file.1.absolute || !directory.isPrefixOf file.1.parts then none
    else
      match file.1.parts.drop directory.length with
      | [] => none
      | [name] => some (name, false)
      | name :: _ => some (name, true)

def directoriesIn (files : Files) (directory : List String) : List String :=
  sortedNames (((entriesIn files directory).filter Prod.snd).map Prod.fst)

/-- `sorted(directory.glob("*.jsonl"))` without the names of locks. -/
def ledgersIn (files : Files) (directory : List String) : List String :=
  sortedNames (((entriesIn files directory).map Prod.fst).filter fun name =>
    endsWith name ".jsonl" && !isSubstring ".lock" name)

/-- `Path.stem` of a name that ends in `.jsonl`. -/
def stem (name : String) : String :=
  slice name 0 (name.toList.length - 6)

structure ScopeFile where
  scopeType : String
  scopeId : String
  path : LedgerPath

def scopeFilesIn (files : Files) (scopeType : String) (directory : List String) :
    List ScopeFile :=
  (ledgersIn files directory).map fun name =>
    ⟨scopeType, stem name, ⟨false, directory ++ [name]⟩⟩

def environments : List String := ["dev", "staging", "prod"]

def iterScopePaths (files : Files) : List ScopeFile :=
  (directoriesIn files []).flatMap fun top =>
    let subdirs := directoriesIn files [top]
    if !subdirs.isEmpty && subdirs.all (environments.contains ·) then
      subdirs.flatMap fun environment =>
        (directoriesIn files [top, environment]).flatMap fun scopeType =>
          scopeFilesIn files scopeType [top, environment, scopeType]
    else scopeFilesIn files top [top]

/-- What an iteration is asked for. -/
structure Filter where
  scopeType : Option String
  scopeId : Option String
  tenantId : PyVal
  environment : PyVal
  action : Option String
  actorId : Option String

/-- `(ev.get("actor") or {}).get("agent_id")`. -/
def actorIdOf (event : LedgerEvent) : Except PyError PyVal :=
  let actor := PyVal.getItem event "actor"
  if actor.truthy then
    match actor with
    | .dict items => .ok (PyVal.getItem items "agent_id")
    | _ => .error (.attributeError "get")
  else .ok .none

/-- `ev.get("scope", {}).get(k)`. -/
def scopeFieldOf (event : LedgerEvent) (k : String) : Except PyError PyVal :=
  match (PyVal.item? event "scope").getD (.dict []) with
  | .dict items => .ok (PyVal.getItem items k)
  | _ => .error (.attributeError "get")

def Filter.passesAction (filter : Filter) (event : LedgerEvent) :
    Except PyError Bool := do
  let actionFits := filter.action.all fun action =>
    (PyVal.getItem event "action").pyEq (.str action)
  if !actionFits then return false
  else
    match filter.actorId with
    | none => return true
    | some actorId => return (← actorIdOf event).pyEq (.str actorId)

def scopeFits (event : LedgerEvent) (k : String) :
    Option String → Except PyError Bool
  | none => .ok true
  | some wanted => return (← scopeFieldOf event k).pyEq (.str wanted)

def Filter.passes (filter : Filter) (event : LedgerEvent) :
    Except PyError Bool := do
  if !(← scopeFits event "type" filter.scopeType) then return false
  else if !(← scopeFits event "id" filter.scopeId) then return false
  else filter.passesAction event

def filterEvents (test : LedgerEvent → Except PyError Bool) :
    List LedgerEvent → Except PyError (List LedgerEvent)
  | [] => .ok []
  | event :: events => do
      let keep ← test event
      let rest ← filterEvents test events
      return if keep then event :: rest else rest

def readFiles (files : Files) (test : LedgerEvent → Except PyError Bool) :
    List LedgerPath → Except PyError (List LedgerEvent)
  | [] => .ok []
  | path :: paths => do
      let events ← filterEvents test (← readFile files path)
      let rest ← readFiles files test paths
      return events ++ rest

/-- `iterate_events`, run to its end. -/
def iterateEvents (host : Host) (files : Files) (filter : Filter) :
    Except PyError (List LedgerEvent) :=
  match filter.scopeType, filter.scopeId with
  | some scopeType, some scopeId => do
      let path ← getScopeLedgerPath host (.str scopeType) (.str scopeId)
        filter.tenantId filter.environment
      if files.any (fun file => !file.1.absolute) && pathExists files path then
        filterEvents filter.passesAction (← readFile files path)
      else return []
  | _, _ =>
      readFiles files filter.passes
        ((iterScopePaths files).map ScopeFile.path)

/-! ## Verifying -/

structure Issue where
  eventId : PyVal
  scope : Option (String × String)
  issue : String
  expected : PyVal
  got : PyVal

structure Report where
  ok : Bool
  errors : List Issue
  checked : ℕ
  lastEventId : PyVal

def Report.empty : Report := ⟨true, [], 0, .none⟩

def Report.add (report : Report) (issue : Issue) : Report :=
  { report with ok := false, errors := report.errors ++ [issue] }

/-- `report.add` under a condition. -/
def Report.addIf (report : Report) (condition : Bool) (issue : Issue) :
    Report :=
  if condition then report.add issue else report

def checkEvent
    (env : LedgerEnv) (scope : String × String) (prevHash : PyVal)
    (report : Report) (event : LedgerEvent) : Except PyError Report := do
  let eventId := PyVal.getItem event "event_id"
  let got := PyVal.getItem event "prev_hash"
  let counted := { report with checked := report.checked + 1 }
  let linked := counted.addIf (!got.pyEq prevHash)
    ⟨eventId, some scope, "prev_hash_mismatch", prevHash, got⟩
  let hashed := linked.addIf
    (!(PyVal.str (computeEventId env.host (bodyForHash event))).pyEq eventId)
    ⟨eventId, none, "event_id_mismatch", .none, .none⟩
  let verified ← verifyEnvelope env.host env.crypto event
  let signed := hashed.addIf (!verified)
    ⟨eventId, none, "signature_invalid", .none, .none⟩
  return { signed with lastEventId := eventId }

def checkEvents (env : LedgerEnv) (scope : String × String) :
    PyVal → Report → List LedgerEvent → Except PyError Report
  | _, report, [] => .ok report
  | prevHash, report, event :: events => do
      let report ← checkEvent env scope prevHash report event
      checkEvents env scope (PyVal.getItem event "event_id") report events

def checkFiles (env : LedgerEnv) (files : Files) :
    Report → List ScopeFile → Except PyError Report
  | report, [] => .ok report
  | report, file :: rest => do
      let events ← readFile files file.path
      let report ← checkEvents env (file.scopeType, file.scopeId) .none report
        events
      checkFiles env files report rest

/-- The files that `verify_chain` is to check. -/
def filesToCheck
    (host : Host) (files : Files) (scope : Option (String × String)) :
    Except PyError (List ScopeFile) :=
  match scope with
  | some (scopeType, scopeId) => do
      let path ← getScopeLedgerPath host (.str scopeType) (.str scopeId) .none
        .none
      return if pathExists files path then [⟨scopeType, scopeId, path⟩] else []
  | none => .ok (iterScopePaths files)

/-- `verify_chain`, of one scope or of all. -/
def verifyChain
    (env : LedgerEnv) (files : Files) (scope : Option (String × String)) :
    Except PyError Report := do
  checkFiles env files .empty (← filesToCheck env.host files scope)

end Hydrogenuine.Ledger
