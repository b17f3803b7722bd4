import Hydrogenuine.Support.PyValue

/-!
# Ownership records and their tables

Embedding of `hg_core/ownership/ownership_models.py` and of the tables of
`ownership_db.py`: the state of each task, the snapshot of its chain, the edges of the
chain and the append-only events.  A write is one statement of a transaction; the
statements of a compare-and-set are `casWrites`.

The index for full-text search mirrors the events and is left out.
-/

namespace Hydrogenuine.Ownership

open Support

/-- A claim on a contested task, with the keys that are read. -/
structure Claim where
  actor : Option String
  tokenId : Option String
deriving DecidableEq

/-- `OwnershipRecord`, and a row of `ownership_state`. -/
structure OwnershipRecord where
  taskId : String
  version : ℤ := 0
  sponsorId : String := ""
  accountableId : String := ""
  executorId : String := ""
  currentTokenId : String := ""
  leaseExpiresTs : ℚ := 0
  state : String := "assigned"
  approverSpec : Option (Dict String PyVal) := none
  escalationSpec : Option (Dict String PyVal) := none
  checkpointId : Option String := none
  lastEventTs : ℚ := 0
  contestedClaims : Option (List Claim) := none

/-- A row of `ownership_chain`. -/
structure ChainRow where
  sponsorId : String
  accountableId : String
  executorId : String
  approverId : PyVal
  state : String
  updatedTs : ℚ

/-- A row of `ownership_chain_edges`. -/
structure ChainEdge where
  runId : String
  taskId : String
  fromPrincipal : String
  toPrincipal : PyVal
  edgeType : String
  updatedTs : ℚ

/-- A row of `ownership_events`. -/
structure OwnershipEvent where
  runId : String
  taskId : String
  eventId : String
  type : String
  actor : String
  ts : ℚ
  expectedVersion : Option ℤ
  payload : Dict String PyVal

/-- The tables; the primary key of a task is its run and its id. -/
structure Tables where
  state : Dict (String × String) OwnershipRecord
  chain : Dict (String × String) ChainRow
  edges : List ChainEdge
  events : List OwnershipEvent

def Tables.empty : Tables := ⟨.empty, .empty, [], []⟩

/-! ## Reading -/

def recordOf (row : Option OwnershipRecord) (taskId : String) : OwnershipRecord :=
  match row with
  | none => { taskId := taskId }
  | some row => { row with state := orText (some row.state) "assigned" }

def Tables.getTask (tables : Tables) (runId taskId : String) : OwnershipRecord :=
  recordOf (tables.state.get? (runId, taskId)) taskId

/-- `get_current_lead_and_scopes`, whose scopes are always empty: the lead. -/
def OwnershipRecord.currentLead (rec : OwnershipRecord) : Option String :=
  if rec.state ∈ ["acknowledged", "in_progress", "pending_review"] ∧ rec.executorId ≠ ""
  then some rec.executorId
  else none

def OwnershipRecord.canFinalize (rec : OwnershipRecord) (actor : String) : Bool :=
  rec.state ∈ ["acknowledged", "in_progress"] && rec.executorId = actor

/-- `e.get(key)` of a listed event: the keys of the payload hide the columns. -/
def OwnershipEvent.text? (e : OwnershipEvent) (key : String) (column : Option String) :
    Option String :=
  match e.payload.get? key with
  | some (.str text) => some text
  | some _ => none
  | none => column

/-- `ledger_list_events` for one task. -/
def Tables.listEvents (tables : Tables) (runId taskId : String) : List OwnershipEvent :=
  tables.events.filter fun e => e.runId = runId && e.taskId = taskId

/-! ## Writing -/

/-- A statement that writes. -/
inductive Write where
  | replaceState (runId taskId : String) (row : OwnershipRecord)
  | replaceChain (runId taskId : String) (row : ChainRow)
  | deleteEdges (runId taskId : String)
  | insertEdge (edge : ChainEdge)
  | insertEvent (event : OwnershipEvent)

def Write.apply (tables : Tables) : Write → Tables
  | .replaceState runId taskId row =>
      { tables with state := tables.state.set (runId, taskId) row }
  | .replaceChain runId taskId row =>
      { tables with chain := tables.chain.set (runId, taskId) row }
  | .deleteEdges runId taskId =>
      { tables with
        edges := tables.edges.filter fun edge =>
          !(edge.runId = runId && edge.taskId = taskId) }
  | .insertEdge edge => { tables with edges := tables.edges ++ [edge] }
  | .insertEvent event => { tables with events := tables.events ++ [event] }

def OwnershipRecord.approverId (rec : OwnershipRecord) : PyVal :=
  match rec.approverSpec with
  | none => .str ""
  | some spec =>
      match spec.get? "kind" with
      | some (.str "principal") =>
          match spec.get? "value" with
          | some value => if value.truthy then value else .str ""
          | none => .str ""
      | _ => .str ""

/-- A column of JSON text: empty containers are stored as `NULL`. -/
def jsonColumn {α : Type} (isEmpty : α → Bool) (value : Option α) : Option α :=
  value.filter fun items => !isEmpty items

def OwnershipRecord.row (rec : OwnershipRecord) (taskId : String) : OwnershipRecord :=
  { rec with
    taskId := taskId
    approverSpec := jsonColumn (·.entries.isEmpty) rec.approverSpec
    escalationSpec := jsonColumn (·.entries.isEmpty) rec.escalationSpec
    contestedClaims := jsonColumn List.isEmpty rec.contestedClaims }

def OwnershipRecord.edge
    (rec : OwnershipRecord) (runId taskId source : String) (target : PyVal)
    (edgeType : String) : List ChainEdge :=
  if source ≠ "" ∧ target.truthy then
    [⟨runId, taskId, source, target, edgeType, rec.lastEventTs⟩]
  else []

def OwnershipRecord.chainEdges
    (rec : OwnershipRecord) (runId taskId : String) : List ChainEdge :=
  rec.edge runId taskId rec.sponsorId (.str rec.accountableId) "accountable" ++
    rec.edge runId taskId rec.accountableId (.str rec.executorId) "executor" ++
    rec.edge runId taskId rec.executorId rec.approverId "approver"

/-- The record that a compare-and-set writes, its clock read as `now`. -/
def updatedRecord
    (mutate : OwnershipRecord → OwnershipRecord) (now : ℚ) (rec : OwnershipRecord) :
    OwnershipRecord :=
  { mutate rec with version := rec.version + 1, lastEventTs := now }

def casWrites (runId taskId : String) (rec : OwnershipRecord) : List Write :=
  [.replaceState runId taskId (rec.row taskId),
    .replaceChain runId taskId ⟨rec.sponsorId, rec.accountableId, rec.executorId,
      rec.approverId, rec.state, rec.lastEventTs⟩,
    .deleteEdges runId taskId] ++
    (rec.chainEdges runId taskId).map .insertEdge

end Hydrogenuine.Ownership
