import Mathlib.Algebra.Ring.Nat
import Mathlib.Data.String.Basic
import Hydrogenuine.Core.ReferenceHost
import Hydrogenuine.Support.SegmentedLog
import Hydrogenuine.Support.Stateful

/-!
# The event bus

Embedding of `hg_runtime/bus.py` with the payload guard of
`hg_core/secrets/events.py`.  Events are sealed by a hash over their canonical
JSON, linked to their predecessor, and appended to the segment file of their
day; drafts from outside wait in a bounded queue until they are polled.

A segment file is a list of terminated lines and perhaps an unterminated rest.
A line is the text of a record, or text that is no JSON: a torn line, or two
texts run together.  The clock and the outcome of every append are parameters.
-/

namespace Hydrogenuine.Runtime

open Support Hydrogenuine.Core

/-! ## The type registry -/

structure EventTypeInfo where
  priority : ℤ
  cognitionEligible : Bool

def loopTypes : List String :=
  ["EVENTS_DROPPED", "HANDLER_FAILED", "RUNTIME_STARTED",
    "RUNTIME_STOP_REQUESTED", "RUNTIME_STOPPING", "RUNTIME_STOPPED",
    "RUNTIME_PANIC_BLOCKED", "PANIC_ENTERED", "PANIC_CLEARED",
    "RUNTIME_TICK_STARTED", "MEMORY_RETRIEVED", "PROPOSAL_FAILED",
    "GOVERNANCE_TRACE_RECORDED", "MEMORY_WRITE_FAILED", "TICK_SLOW",
    "TICK_COMPLETED", "RUNTIME_TICK_COMPLETED"]

/-- The event vocabulary, which always covers what the loop says itself. -/
structure TypeRegistry where
  types : String → Option EventTypeInfo
  registryHash : String
  version : String
  spoken : ∀ name ∈ loopTypes, (types name).isSome = true

namespace TypeRegistry

variable (registry : TypeRegistry)

def unknownType : PyError := .busError "unknown event type"

/-- `TypeRegistry.info` with the name it was found under. -/
def info : PyVal → Except PyError (String × EventTypeInfo)
  | .str name =>
      match registry.types name with
      | some info => .ok (name, info)
      | none => .error unknownType
  | .list _ => .error (.typeError "unhashable type: 'list'")
  | .dict _ => .error (.typeError "unhashable type: 'dict'")
  | _ => .error unknownType

def cognitionEligible (name : String) : Bool :=
  (registry.types name).any EventTypeInfo.cognitionEligible

end TypeRegistry

/-! ## Envelopes -/

def genesisHash : String := "sha256:genesis"

abbrev Record := List (String × PyVal)

/-- `compute_event_hash`: every field but `event_hash` and `event_id` counts. -/
def computeEventHash (host : Host) (record : Record) : String :=
  host.canonicalHash (.dict
    (record.filter fun entry => entry.1 ∉ ["event_hash", "event_id"]))

/-- An emitted event. -/
structure Envelope where
  seq : ℤ
  timestamp : String
  type : String
  payload : List (String × PyVal)
  source : String
  causalParents : List PyVal
  severity : PyVal
  prevHash : String
  eventHash : String
  eventId : String

namespace Envelope

def body (envelope : Envelope) : Record :=
  [("schema", .str "rtc-event"),
    ("schema_version", .str "1.0"),
    ("seq", .int envelope.seq),
    ("timestamp", .str envelope.timestamp),
    ("type", .str envelope.type),
    ("payload", .dict envelope.payload),
    ("source", .str envelope.source),
    ("causal_parents", .list envelope.causalParents),
    ("severity", envelope.severity),
    ("prev_hash", .str envelope.prevHash)]

def record (envelope : Envelope) : Record :=
  envelope.body ++
    [("event_hash", .str envelope.eventHash),
      ("event_id", .str envelope.eventId)]

/-- `"evt_" + event_hash[len("sha256:"):][:16]`. -/
def idOf (eventHash : String) : String := "evt_" ++ slice eventHash 7 23

/-- The hash and the id are derived from the other fields. -/
def sealed (host : Host) (envelope : Envelope) : Envelope :=
  let eventHash := computeEventHash host envelope.body
  { envelope with eventHash := eventHash, eventId := idOf eventHash }

end Envelope

/-! ## Segment files -/

inductive Line where
  | record (items : Record)
  | broken

/-- `json.loads(line)`. -/
def Line.parse : Line → Except PyError Record
  | .record items => .ok items
  | .broken => .error .jsonDecodeError

structure Segment where
  lines : List Line
  rest : Option Line

def Segment.empty : Segment := ⟨[], none⟩

/-- How much of a line reached the file when an append failed: the file was not
opened, or nothing, a part of the line, the line without its end, or the whole
line was written. -/
inductive Written where
  | unopened
  | nothing
  | part
  | unterminated
  | line
deriving DecidableEq

inductive Append where
  | done
  | failed (written : Written)
deriving DecidableEq

def Append.written : Append → Written
  | .done => .line
  | .failed written => written

namespace Segment

/-- The text that follows an unterminated rest runs into it. -/
def glue : Option Line → Line → Line
  | none, line => line
  | some _, _ => .broken

def write (line : Line) (segment : Segment) : Written → Segment
  | .unopened => segment
  | .nothing => segment
  | .part => { segment with rest := some .broken }
  | .unterminated => { segment with rest := some (glue segment.rest line) }
  | .line => ⟨segment.lines ++ [glue segment.rest line], none⟩

def read (segment : Segment) : List Line := segment.lines ++ segment.rest.toList

end Segment

/-- `value.replace("-", "")`. -/
def dropDashes (value : String) : String :=
  String.ofList (value.toList.filter fun c => c ≠ '-')

/-- `_segment_for`, as the name of the file. -/
def segmentFor (timestamp : String) : String :=
  "events-" ++ dropDashes (slice timestamp 0 10) ++ ".jsonl"

abbrev Directory := List (String × Segment)

def Directory.lines (directory : Directory) : List Line :=
  readSegments Segment.read directory

/-- The directory after an append: a file that is opened exists afterwards. -/
def Directory.append
    (directory : Directory) (envelope : Envelope) (written : Written) :
    Directory :=
  match written with
  | .unopened => directory
  | written =>
      updateSegment (segmentFor envelope.timestamp)
        (fun segment => segment.write (.record envelope.record) written)
        .empty directory

/-! ## The payload guard -/

/-- What the secret scanners say about a text. -/
structure SecretScan where
  /-- The first canary marker in the text. -/
  canary : String → Option String
  rawSecret : String → Bool

mutual

/-- `_walk` of `guard_event_payload`: why emission is refused, if it is. -/
def SecretScan.walk (scan : SecretScan) (path : String) : PyVal → Option String
  | .str text =>
      match scan.canary text with
      | some hit => some ("canary_in_event_payload:" ++ path ++ ":" ++ hit)
      | none =>
          if scan.rawSecret text then
            some ("raw_secret_in_event_payload:" ++ path)
          else none
  | .dict items => scan.walkItems path items
  | .list items => scan.walkList path 0 items
  | _ => none

def SecretScan.walkItems (scan : SecretScan) (path : String) :
    List (String × PyVal) → Option String
  | [] => none
  | (key, item) :: rest =>
      scan.walk (path ++ "." ++ key) item <|> scan.walkItems path rest

def SecretScan.walkList (scan : SecretScan) (path : String) (index : ℕ) :
    List PyVal → Option String
  | [] => none
  | item :: rest =>
      scan.walk (path ++ "[" ++ toString index ++ "]") item <|>
        scan.walkList path (index + 1) rest

end

/-! ## The bus -/

/-- What a bus runs on. -/
structure BusEnv where
  host : Host
  registry : TypeRegistry
  scan : SecretScan
  queueCapacity : ℕ
  /-- The `n`-th reading of the clock. -/
  clock : ℕ → String
  /-- The outcome of the `n`-th append. -/
  appends : ℕ → Append

/-- A draft in the ingress queue. -/
structure QueuedDraft where
  priority : ℤ
  arrival : ℕ
  type : String
  payload : PyVal
  causalParents : List PyVal
  severity : PyVal
  source : String

structure Bus where
  directory : Directory
  nextSeq : ℤ
  headHash : String
  queue : List QueuedDraft
  arrivalCounter : ℕ
  droppedPending : List (String × ℕ)
  quarantined : List String
  /-- Readings of the clock and appends so far. -/
  readings : ℕ
  writes : ℕ
  /-- The events that `emit` has returned so far; no operation reads it. -/
  emitted : List Envelope

abbrev BusM (α : Type) := EStateM PyError Bus α

/-- `list(v)`. -/
def listOf : PyVal → Except PyError (List PyVal)
  | .str text => .ok (text.toList.map fun c => .str (String.singleton c))
  | .list items => .ok items
  | .dict items => .ok (items.map fun entry => .str entry.1)
  | _ => .error (.typeError "object is not iterable")

namespace Bus

variable (env : BusEnv)

/-- The checks before an event is built: a registered type, a dictionary for a
payload, and nothing secret in it. -/
def validate (type payload : PyVal) :
    Except PyError (String × List (String × PyVal)) := do
  let (name, _) ← env.registry.info type
  match payload with
  | .dict items =>
      match env.scan.walkItems "payload" items with
      | some reason =>
          .error (.busError ("secret_emission_refused:" ++ reason))
      | none => .ok (name, items)
  | _ => .error (.busError ("payload must be a dict for " ++ name))

def readClock : BusM String := do
  let s ← get
  modify fun s => { s with readings := s.readings + 1 }
  return env.clock s.readings

def append (envelope : Envelope) : BusM PUnit := do
  let s ← get
  let outcome := env.appends s.writes
  modify fun s =>
    { s with
      writes := s.writes + 1
      directory := s.directory.append envelope outcome.written }
  match outcome with
  | .done => return ⟨⟩
  | .failed _ => throw (.busWriteError envelope.seq)

def emit
    (type payload : PyVal) (source : String) (causalParents severity : PyVal) :
    BusM Envelope := do
  let (name, items) ← raising (validate env type payload)
  let timestamp ← readClock env
  let parents ← raising (listOf causalParents)
  let s ← get
  let envelope := Envelope.sealed env.host
    { seq := s.nextSeq
      timestamp := timestamp
      type := name
      payload := items
      source := source
      causalParents := parents
      severity := severity
      prevHash := s.headHash
      eventHash := ""
      eventId := "" }
  append env envelope
  modify fun s =>
    { s with
      nextSeq := s.nextSeq + 1
      headHash := envelope.eventHash
      emitted := s.emitted ++ [envelope] }
  return envelope

/-- `d[k]` on any value. -/
def subscript (v : PyVal) (k : String) : Except PyError PyVal :=
  match v with
  | .dict items =>
      match PyVal.item? items k with
      | some item => .ok item
      | none => .error (.keyError k)
  | _ => .error (.typeError "value has no item")

/-- `d.get("causal_parents") or ()`. -/
def parentsOf (items : List (String × PyVal)) : PyVal :=
  let parents := PyVal.getItem items "causal_parents"
  if parents.truthy then parents else .list []

def emitDraft (d : PyVal) (source : String) : BusM Envelope := do
  let type ← raising (subscript d "type")
  let payload ← raising (subscript d "payload")
  match d with
  | .dict items =>
      emit env type payload source (parentsOf items)
        (PyVal.getItem items "severity")
  | _ => throw (.attributeError "get")

/-! ### Ingress -/

/-- The other draft is dropped before this one: it has a lower priority, or the
same and is older. -/
def dropsBefore (this other : QueuedDraft) : Prop :=
  other.priority < this.priority ∨
    (other.priority = this.priority ∧ other.arrival < this.arrival)

instance : DecidableRel dropsBefore := fun _ _ =>
  inferInstanceAs (Decidable (_ ∨ _))

def victimOf : List QueuedDraft → Option QueuedDraft
  | [] => none
  | first :: rest => some (rest.foldl
      (fun victim q => if dropsBefore victim q then q else victim) first)

/-- `counts[k] = counts.get(k, 0) + 1`. -/
def countUp (k : String) (counts : List (String × ℕ)) : List (String × ℕ) :=
  assignEntry k ((lookupEntry k counts).getD 0 + 1) counts

def evict (s : Bus) : Bus :=
  match victimOf s.queue with
  | none => s
  | some victim =>
      { s with
        queue := s.queue.filter fun q => q.arrival ≠ victim.arrival
        droppedPending := countUp victim.type s.droppedPending }

def enqueue (s : Bus) (draft : QueuedDraft) : Bus :=
  { s with
    queue := s.queue ++ [draft]
    arrivalCounter := s.arrivalCounter + 1 }

def queuedDraft
    (s : Bus) (type : String) (info : EventTypeInfo) (payload : PyVal)
    (source : String) (causalParents : List PyVal) (severity : PyVal) :
    QueuedDraft where
  priority := info.priority
  arrival := s.arrivalCounter + 1
  type := type
  payload := payload
  causalParents := causalParents
  severity := severity
  source := source

def submit
    (type : String) (payload : PyVal) (source : String)
    (causalParents : List PyVal) (severity : PyVal) : BusM Bool := do
  let (name, info) ← raising (env.registry.info (.str type))
  let s ← get
  let item :=
    queuedDraft s name info payload source causalParents severity
  let queued := enqueue s item
  if env.queueCapacity < queued.queue.length then
    set (evict queued)
    return (evict queued).queue.any fun q => q.arrival == item.arrival
  else
    set queued
    return true

def droppedPayload (dropped : List (String × ℕ)) : PyVal :=
  .dict [
    ("dropped", .dict (dropped.map fun entry => (entry.1, .int entry.2))),
    ("total", .int (dropped.map Prod.snd).sum)]

def emitBatch : List QueuedDraft → BusM (List Envelope)
  | [] => return []
  | item :: items => do
      let event ← emit env (.str item.type) item.payload item.source
        (.list item.causalParents) item.severity
      let events ← emitBatch items
      return event :: events

/-- `EventBus.poll`, after the wait: the queue and the counts are emptied before
anything is emitted. -/
def poll : BusM (List Envelope) := do
  let s ← get
  if s.queue.isEmpty && s.droppedPending.isEmpty then return []
  else
    let batch := s.queue.insertionSort fun a b => a.arrival ≤ b.arrival
    set { s with queue := [], droppedPending := [] }
    if s.droppedPending.isEmpty then emitBatch env batch
    else
      let report ← emit env (.str "EVENTS_DROPPED")
        (droppedPayload s.droppedPending) "loop" (.list []) .none
      let events ← emitBatch env batch
      return report :: events

/-- `EventBus.quarantine`, without the record that it writes for people. -/
def quarantine (eventId : String) : BusM PUnit := do
  let _ ← readClock env
  modify fun s => { s with quarantined := s.quarantined ++ [eventId] }

def isQuarantined (s : Bus) (eventId : String) : Bool :=
  s.quarantined.contains eventId

/-! ### Reading -/

def readAll (s : Bus) : Except PyError (List Record) :=
  s.directory.lines.mapM Line.parse

/-- What `verify_chain` returns. -/
structure ChainReport where
  ok : Bool
  events : ℕ
  error : Option String

/-- `d[k]` on a record. -/
def field (record : Record) (k : String) : Except PyError PyVal :=
  subscript (.dict record) k

/-- The loop of `verify_chain` from the expected position on. -/
def verifyFrom (host : Host) (count : ℕ) (expectedPrev : PyVal) :
    List Line → Except PyError ChainReport
  | [] => .ok ⟨true, count, none⟩
  | line :: lines => do
      let event ← line.parse
      let seq ← field event "seq"
      if !seq.pyEq (.int count) then
        return ⟨false, count, some ("seq gap: expected " ++ toString count ++
          ", got " ++ host.str seq)⟩
      else
        let prev ← field event "prev_hash"
        if !prev.pyEq expectedPrev then
          return ⟨false, count, some ("broken link at seq " ++ host.str seq)⟩
        else
          let eventHash ← field event "event_hash"
          if !eventHash.pyEq (.str (computeEventHash host event)) then
            return ⟨false, count, some ("hash mismatch at seq " ++
              host.str seq ++ " (tamper)")⟩
          else verifyFrom host (count + 1) eventHash lines

def verifyChain (host : Host) (s : Bus) : Except PyError ChainReport :=
  verifyFrom host 0 (.str genesisHash) s.directory.lines

/-! ### Opening -/

def lastLine (directory : Directory) : Option Line :=
  directory.reverse.findSome? fun file => file.2.read.getLast?

def recoverChainHead (host : Host) (directory : Directory) :
    Except PyError (ℤ × String) :=
  match lastLine directory with
  | none => .ok (0, genesisHash)
  | some line => do
      let last ← line.parse
      let seq ← field last "seq"
      let number ← host.toInt seq
      let eventHash ← field last "event_hash"
      return (number + 1, host.str eventHash)

/-- `EventBus(root)`: a new bus on the directory of the old one. -/
def reopen (s : Bus) : Except PyError Bus := do
  let (nextSeq, headHash) ← recoverChainHead env.host s.directory
  return {
    directory := s.directory
    nextSeq := nextSeq
    headHash := headHash
    queue := []
    arrivalCounter := 0
    droppedPending := []
    quarantined := []
    readings := s.readings
    writes := s.writes
    emitted := s.emitted }

def fresh : Bus where
  directory := []
  nextSeq := 0
  headHash := genesisHash
  queue := []
  arrivalCounter := 0
  droppedPending := []
  quarantined := []
  readings := 0
  writes := 0
  emitted := []

/-! ## What emission does -/

variable {env}

def appended (s : Bus) (event : Envelope) : Bus :=
  { s with
    directory := s.directory.append event .line
    nextSeq := s.nextSeq + 1
    headHash := event.eventHash
    readings := s.readings + 1
    writes := s.writes + 1
    emitted := s.emitted ++ [event] }

/-- An event is emitted in a state of the bus: it is placed at the head, sealed,
and read off the arguments. -/
structure Emitted
    (env : BusEnv) (s : Bus) (type payload : PyVal) (source : String)
    (causalParents severity : PyVal) (event : Envelope) : Prop where
  valid : validate env type payload = .ok (event.type, event.payload)
  parents : listOf causalParents = .ok event.causalParents
  source_eq : event.source = source
  severity_eq : event.severity = severity
  seq_eq : event.seq = s.nextSeq
  prev_eq : event.prevHash = s.headHash
  timestamp_eq : event.timestamp = env.clock s.readings
  sealed_eq : event.sealed env.host = event

theorem Emitted.unique
    {s : Bus} {type payload : PyVal} {source : String}
    {causalParents severity : PyVal} {event event' : Envelope}
    (h : Emitted env s type payload source causalParents severity event)
    (h' : Emitted env s type payload source causalParents severity event') :
    event = event' := by
  obtain ⟨htype, hpayload⟩ :=
    Prod.mk.inj (Except.ok.inj (h.valid.symm.trans h'.valid))
  have hparents := Except.ok.inj (h.parents.symm.trans h'.parents)
  rw [← h.sealed_eq, ← h'.sealed_eq]
  simp only [Envelope.sealed, Envelope.body, htype, hpayload, hparents,
    h.seq_eq, h'.seq_eq, h.timestamp_eq, h'.timestamp_eq, h.source_eq,
    h'.source_eq, h.severity_eq, h'.severity_eq, h.prev_eq, h'.prev_eq]

/-- Emission appends one event, or is refused and changes nothing but the number
of clock readings, or fails to write. -/
theorem emit_ends
    (env : BusEnv) (s : Bus) (type payload : PyVal) (source : String)
    (causalParents severity : PyVal) :
    Ends (emit env type payload source causalParents severity) s
      (fun event t =>
        Emitted env s type payload source causalParents severity event ∧
          env.appends s.writes = .done ∧ t = s.appended event)
      (fun e t =>
        (validate env type payload = .error e ∧ t = s) ∨
        (∃ valid, validate env type payload = .ok valid ∧
          listOf causalParents = .error e ∧
          t = { s with readings := s.readings + 1 }) ∨
        ∃ event written,
          Emitted env s type payload source causalParents severity event ∧
            env.appends s.writes = .failed written ∧
            e = .busWriteError event.seq ∧
            t = { s with
              readings := s.readings + 1
              writes := s.writes + 1
              directory := s.directory.append event written }) := by
  unfold emit
  apply ends_bind
  apply ends_raising
  · rintro ⟨name, items⟩ hvalid
    unfold readClock
    apply ends_bind
    apply ends_bind
    apply ends_get
    apply ends_bind
    apply ends_modify
    apply ends_pure
    apply ends_bind
    apply ends_raising
    · intro parents hparents
      apply ends_bind
      apply ends_get
      dsimp only
      generalize hevent : Envelope.sealed env.host
        { seq := s.nextSeq
          timestamp := env.clock s.readings
          type := name
          payload := items
          source := source
          causalParents := parents
          severity := severity
          prevHash := s.headHash
          eventHash := ""
          eventId := "" } = event
      have hemitted :
          Emitted env s type payload source causalParents severity event := by
        subst hevent
        exact ⟨hvalid, hparents, rfl, rfl, rfl, rfl, rfl, rfl⟩
      unfold append
      apply ends_bind
      apply ends_bind
      apply ends_get
      apply ends_bind
      apply ends_modify
      dsimp only
      cases houtcome : env.appends s.writes with
      | done =>
          apply ends_pure
          apply ends_bind
          apply ends_modify
          exact ends_pure ⟨hemitted, rfl, rfl⟩
      | failed written =>
          exact ends_throw (Or.inr (Or.inr
            ⟨event, written, hemitted, rfl, rfl, rfl⟩))
    · intro e hraised
      exact Or.inr (Or.inl ⟨(name, items), hvalid, hraised, rfl⟩)
  · intro e hraised
    exact Or.inl ⟨hraised, rfl⟩

end Bus

/-! ## A bus for concrete runs -/

/-- Entries of `event_types_v1.yaml`: the types that concrete runs use. -/
def eventTypes : List (String × EventTypeInfo) :=
  [("CHAT_MESSAGE", ⟨60, true⟩),
    ("API_REQUEST", ⟨50, true⟩),
    ("WEBHOOK_IN", ⟨40, true⟩),
    ("TIMER_EVENT", ⟨30, false⟩),
    ("FILE_WATCH", ⟨20, false⟩),
    ("PROPOSAL_EMITTED", ⟨70, false⟩),
    ("PROPOSAL_FAILED", ⟨70, false⟩),
    ("DECISION_EVENT", ⟨80, false⟩),
    ("GOVERNANCE_TRACE_RECORDED", ⟨80, false⟩),
    ("AEP_SIGNAL_EMITTED", ⟨85, false⟩),
    ("AROUSAL_CHANGED", ⟨85, false⟩),
    ("RUNTIME_STARTED", ⟨100, false⟩),
    ("RUNTIME_TICK_STARTED", ⟨100, false⟩),
    ("RUNTIME_TICK_COMPLETED", ⟨100, false⟩),
    ("RUNTIME_STOP_REQUESTED", ⟨100, false⟩),
    ("RUNTIME_STOPPED", ⟨100, false⟩),
    ("RUNTIME_PANIC_BLOCKED", ⟨100, false⟩),
    ("RUNTIME_STOPPING", ⟨100, false⟩),
    ("TICK_COMPLETED", ⟨100, false⟩),
    ("TICK_SLOW", ⟨100, false⟩),
    ("PANIC_ENTERED", ⟨100, false⟩),
    ("PANIC_CLEARED", ⟨100, false⟩),
    ("MEMORY_RETRIEVED", ⟨75, false⟩),
    ("MEMORY_WRITE_FAILED", ⟨75, false⟩),
    ("EVENTS_DROPPED", ⟨95, false⟩),
    ("HANDLER_FAILED", ⟨95, false⟩)]

def referenceRegistry : TypeRegistry where
  types name := eventTypes.lookup name
  registryHash := "sha256:event_types_v1"
  version := "1.0"
  spoken := by decide

def referenceScan : SecretScan where
  canary text :=
    ["HG-CANARY-SEC-EVENT-9f3a2b", "HG-CANARY-SEC-CONFIG-6f1e0d"].find? fun marker =>
      isSubstring marker text
  rawSecret text := isSubstring "sk-ABCDEFGHIJ" text

def referenceBus (clock : ℕ → String) : BusEnv where
  host := referenceHost
  registry := referenceRegistry
  scan := referenceScan
  queueCapacity := 256
  clock := clock
  appends := fun _ => .done

end Hydrogenuine.Runtime
