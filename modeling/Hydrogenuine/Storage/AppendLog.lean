import Hydrogenuine.Core.Host
import Hydrogenuine.Support.Machine

/-!
# The append logs

Embedding of `AppendLogSubstrate` and `PostgresAppendLog` of
`hg_core/storage_substrate/als.py`.  The file is the list of its entries, and the
table the list of the rows of one stream; the statements select no others.  The times
that the table gives its rows are left out.
-/

namespace Hydrogenuine.Storage

open Support Hydrogenuine.Core

abbrev Payload := List (String × PyVal)

def schemaVersion : String := "storage_substrate_v2"

def authorityFields : Payload :=
  [("permission_granted", .bool false), ("authority_created", .bool false),
    ("advisory_only", .bool true)]

def stableHash (host : Host) (payload : PyVal) : String :=
  "sha256:" ++ host.sha256Hex payload.canonical

/-- `payload.get(key) is True`. -/
def isTrue (payload : Payload) (key : String) : Bool :=
  match PyVal.getItem payload key with
  | .bool flag => flag
  | _ => false

def requireNonAuthority (payload : Payload) : Except PyError Unit :=
  if isTrue payload "permission_granted" then
    .error (.valueError "storage record cannot grant permission")
  else if isTrue payload "authority_created" then
    .error (.valueError "storage record cannot create authority")
  else if isTrue payload "permit_minted" then
    .error (.valueError "storage record cannot mint permits")
  else if isTrue payload "execution_admitted" then
    .error (.valueError "storage record cannot admit execution")
  else .ok ()

/-! ## Entries -/

structure LogEntry where
  seq : ℤ
  eventType : String
  eventId : Option String
  payload : Payload
  previousHash : Option String
  createdAt : String
  hash : String

namespace LogEntry

def body (entry : LogEntry) : Payload :=
  [("schema_version", .str schemaVersion),
    ("seq", .int entry.seq),
    ("event_type", .str entry.eventType),
    ("event_id", .ofOption entry.eventId),
    ("payload", .dict entry.payload),
    ("previous_hash", .ofOption entry.previousHash),
    ("created_at", .str entry.createdAt)] ++ authorityFields

def toDict (entry : LogEntry) : Payload := entry.body ++ [("hash", .str entry.hash)]

def expected (host : Host) (entry : LogEntry) : String :=
  stableHash host (.dict entry.body)

def withHash (host : Host) (entry : LogEntry) : LogEntry :=
  { entry with hash := entry.expected host }

end LogEntry

/-- The arguments of an append, and the time at which it runs. -/
structure AppendCall where
  eventType : String
  payload : Payload
  eventId : Option String
  now : String

def newEntry (host : Host) (call : AppendCall) (seq : ℤ)
    (previousHash : Option String) : LogEntry :=
  LogEntry.withHash host
    { seq
      eventType := call.eventType
      eventId := call.eventId
      payload := call.payload
      previousHash
      createdAt := call.now
      hash := "" }

/-! ## The file -/

namespace AppendLogSubstrate

def existing (entries : List LogEntry) (eventId : Option String) : Option LogEntry :=
  eventId.bind fun id => entries.find? fun entry => entry.eventId = some id

def append (host : Host) (call : AppendCall) (entries : List LogEntry) :
    Except PyError Payload × List LogEntry :=
  match requireNonAuthority call.payload with
  | .error e => (.error e, entries)
  | .ok () =>
      match existing entries call.eventId with
      | some entry => (.ok entry.toDict, entries)
      | none =>
          let entry := newEntry host call (entries.length + 1)
            (entries.getLast?.map LogEntry.hash)
          (.ok entry.toDict, entries ++ [entry])

/-- The loop of `verify_append_only`. -/
def verifyFrom (host : Host) :
    (index : ℤ) → (previousHash : Option String) → List LogEntry → Bool
  | _, _, [] => true
  | index, previousHash, entry :: entries =>
      if entry.seq ≠ index ∨ entry.previousHash ≠ previousHash ∨
          entry.hash ≠ entry.expected host then false
      else verifyFrom host (index + 1) (some entry.hash) entries

def verifyAppendOnly (host : Host) (entries : List LogEntry) : Bool :=
  verifyFrom host 1 none entries

end AppendLogSubstrate

/-! ## The table -/

/-- A row of `append_log_entries`. -/
structure Row where
  seq : ℤ
  eventType : String
  payload : Payload
  hash : String

/-- The database: the text of a JSON value that is no text, whether it takes a text as
a parameter and a row for its table, and what it raises otherwise. -/
structure Postgres where
  jsonText : PyVal → String
  readsText : String → Bool
  accepts : (seq : ℤ) → (eventType : String) → Payload → Bool
  refusal : PyError

/-- `payload->>key`. -/
def Postgres.text (pg : Postgres) (payload : Payload) (key : String) : Option String :=
  match PyVal.getItem payload key with
  | .none => none
  | .str s => some s
  | value => some (pg.jsonText value)

namespace PostgresAppendLog

def existing (pg : Postgres) (rows : List Row) :
    Option String → Except PyError (Option Row)
  | none => .ok none
  | some id =>
      if pg.readsText id then
        .ok (rows.find? fun row => pg.text row.payload "event_id" = some id)
      else .error pg.refusal

def read (rows : List Row) : List Row := rows.insertionSort fun a b => a.seq ≤ b.seq

def existingDict (row : Row) (eventId : Option String) : Payload :=
  [("schema_version", .str schemaVersion),
    ("seq", .int row.seq),
    ("event_type", .str row.eventType),
    ("event_id", .ofOption eventId),
    ("payload", .dict row.payload),
    ("hash", .str row.hash)] ++ authorityFields

def append (host : Host) (pg : Postgres) (call : AppendCall) (rows : List Row) :
    Except PyError Payload × List Row :=
  match requireNonAuthority call.payload with
  | .error e => (.error e, rows)
  | .ok () =>
      match existing pg rows call.eventId with
      | .error e => (.error e, rows)
      | .ok (some row) => (.ok (existingDict row call.eventId), rows)
      | .ok none =>
          let last := (read rows).getLast?
          let nextSeq := (last.map fun row => row.seq + 1).getD 1
          let entry := newEntry host call nextSeq (last.map Row.hash)
          if pg.accepts nextSeq call.eventType call.payload then
            (.ok entry.toDict,
              rows ++ [⟨nextSeq, call.eventType, call.payload, entry.hash⟩])
          else (.error pg.refusal, rows)

/-- The loop of `verify_append_only`. -/
def verifyFrom : (index : ℤ) → List Row → Bool
  | _, [] => true
  | index, row :: rows => if row.seq ≠ index then false else verifyFrom (index + 1) rows

def verifyAppendOnly (rows : List Row) : Bool := verifyFrom 1 (read rows)

end PostgresAppendLog

/-! ## Both logs -/

structure Logs where
  file : List LogEntry := []
  table : List Row := []

def Logs.append (host : Host) (pg : Postgres) (logs : Logs) (call : AppendCall) :
    Logs × Except PyError Payload × Except PyError Payload :=
  let written := AppendLogSubstrate.append host call logs.file
  let inserted := PostgresAppendLog.append host pg call logs.table
  (⟨written.2, inserted.2⟩, written.1, inserted.1)

def logsMachine (host : Host) (pg : Postgres) :
    Machine Logs AppendCall (Except PyError Payload × Except PyError Payload) where
  step := Logs.append host pg

/-! ## Modifications of what is stored -/

/-- What becomes of a stored entry: it is removed, or columns of it are overwritten. -/
inductive Edit where
  | remove
  | rewrite (seq : Option ℤ) (eventType : Option String) (payload : Option Payload)
      (hash : Option String)

def LogEntry.edit (entry : LogEntry) : Edit → Option LogEntry
  | .remove => none
  | .rewrite seq eventType payload hash =>
      some
        { entry with
          seq := seq.getD entry.seq
          eventType := eventType.getD entry.eventType
          payload := payload.getD entry.payload
          hash := hash.getD entry.hash }

def Row.edit (row : Row) : Edit → Option Row
  | .remove => none
  | .rewrite seq eventType payload hash =>
      some
        { seq := seq.getD row.seq
          eventType := eventType.getD row.eventType
          payload := payload.getD row.payload
          hash := hash.getD row.hash }

def editAll {α : Type} (edit : α → Edit → Option α) : List α → List Edit → List α
  | [], _ => []
  | xs, [] => xs
  | x :: xs, d :: ds => (edit x d).toList ++ editAll edit xs ds

def Logs.modify (logs : Logs) (edits : List Edit) : Logs where
  file := editAll LogEntry.edit logs.file edits
  table := editAll Row.edit logs.table edits

end Hydrogenuine.Storage
