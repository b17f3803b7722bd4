import Hydrogenuine.Ownership.Record
import Hydrogenuine.Support.Program

/-!
# Compare-and-set, alone and statement by statement

Embedding of `state_cas_update`, `_state_cas_update_conn` and `with_transaction` of
`hg_core/ownership/ownership_db.py`.  `Tables.casUpdate` is what a call does when no
other connection is at work, and `CasUpdate.program` the statements it makes.

The database is the one that `sqlite3.connect` opens by default.  A `SELECT` opens no
transaction.  The first statement that writes opens a deferred one and takes the write
lock, which is held until `COMMIT` or `ROLLBACK`; what it wrote is seen by its own
connection only.  A connection that meets the lock of another waits and at last raises
`database is locked`: here the wait is that the statement comes later, and a statement
that comes while the lock is held is one whose wait ran out.  The tables exist, so the
statements of `init_ownership_schema` change nothing.
-/

namespace Hydrogenuine.Ownership

open Support

/-- A call of `state_cas_update`, and what the clock reads in it. -/
structure CasUpdate where
  runId : String
  taskId : String
  expectedVersion : ℤ
  mutate : OwnershipRecord → OwnershipRecord
  now : ℚ

def CasUpdate.storedVersion (u : CasUpdate) (tables : Tables) : ℤ :=
  (tables.getTask u.runId u.taskId).version

/-- `state_cas_update`, with no other connection at work. -/
def Tables.casUpdate (tables : Tables) (u : CasUpdate) :
    Except String OwnershipRecord × Tables :=
  let record := tables.getTask u.runId u.taskId
  if record.version ≠ u.expectedVersion then (.error "VERSION_CONFLICT", tables)
  else
    let updated := updatedRecord u.mutate u.now record
    (.ok updated, (casWrites u.runId u.taskId updated).foldl Write.apply tables)

section CasUpdate

variable {tables : Tables} {u : CasUpdate}

theorem casUpdate_conflict (h : u.storedVersion tables ≠ u.expectedVersion) :
    tables.casUpdate u = (.error "VERSION_CONFLICT", tables) :=
  if_pos h

theorem casUpdate_updated (h : u.storedVersion tables = u.expectedVersion) :
    tables.casUpdate u =
      (.ok (updatedRecord u.mutate u.now (tables.getTask u.runId u.taskId)),
        (casWrites u.runId u.taskId (updatedRecord u.mutate u.now
          (tables.getTask u.runId u.taskId))).foldl Write.apply tables) :=
  if_neg (not_not.mpr h)

end CasUpdate

/-! ## The database -/

/-- What is committed, the connection that holds the write lock with what it has
written, and how many connections were opened. -/
structure Database where
  committed : Tables
  writer : Option (ℕ × Tables)
  connections : ℕ

/-- A statement of a connection. -/
inductive Statement where
  | connect
  | selectState (conn : ℕ) (runId taskId : String)
  | write (conn : ℕ) (w : Write)
  | commit (conn : ℕ)
  | rollback (conn : ℕ)

/-- What a statement answers: a new connection, a row, whether the database is locked,
or nothing. -/
def Statement.Answer : Statement → Type
  | .connect => ℕ
  | .selectState _ _ _ => Option OwnershipRecord
  | .write _ _ => Bool
  | .commit _ => Unit
  | .rollback _ => Unit

def Database.view (db : Database) (conn : ℕ) : Tables :=
  match db.writer with
  | some (holder, pending) => if holder = conn then pending else db.committed
  | none => db.committed

def Database.perform (db : Database) : (s : Statement) → Database × s.Answer
  | .connect => ({ db with connections := db.connections + 1 }, db.connections)
  | .selectState conn runId taskId => (db, (db.view conn).state.get? (runId, taskId))
  | .write conn w =>
      match db.writer with
      | none => ({ db with writer := some (conn, w.apply db.committed) }, false)
      | some (holder, pending) =>
          if holder = conn then
            ({ db with writer := some (conn, w.apply pending) }, false)
          else (db, true)
  | .commit conn =>
      match db.writer with
      | some (holder, pending) =>
          if holder = conn then ({ db with committed := pending, writer := none }, ())
          else (db, ())
      | none => (db, ())
  | .rollback conn =>
      match db.writer with
      | some (holder, _) =>
          if holder = conn then ({ db with writer := none }, ()) else (db, ())
      | none => (db, ())

section Perform

variable {db : Database} {conn holder : ℕ} {w : Write} {pending : Tables}

theorem perform_write_free (h : db.writer = none) :
    db.perform (.write conn w) =
      ({ db with writer := some (conn, w.apply db.committed) }, (false : Bool)) := by
  simp only [Database.perform, h]
  rfl

theorem perform_write_held (h : db.writer = some (conn, pending)) :
    db.perform (.write conn w) =
      ({ db with writer := some (conn, w.apply pending) }, (false : Bool)) := by
  simp only [Database.perform, h, if_true]
  rfl

theorem perform_write_locked (h : db.writer = some (holder, pending))
    (hne : holder ≠ conn) : db.perform (.write conn w) = (db, (true : Bool)) := by
  simp only [Database.perform, h, if_neg hne]
  rfl

theorem perform_commit_held (h : db.writer = some (conn, pending)) :
    db.perform (.commit conn) = ({ db with committed := pending, writer := none }, ()) := by
  simp only [Database.perform, h, if_true]
  rfl

theorem perform_end_free (h : ∀ pending, db.writer ≠ some (conn, pending)) :
    db.perform (.commit conn) = (db, ()) ∧ db.perform (.rollback conn) = (db, ()) := by
  cases hwriter : db.writer with
  | none =>
      simp only [Database.perform, hwriter]
      exact ⟨rfl, rfl⟩
  | some held =>
      obtain ⟨holder, pending⟩ := held
      have hne : holder ≠ conn := by
        rintro rfl
        exact h pending hwriter
      simp only [Database.perform, hwriter, if_neg hne]
      exact ⟨rfl, rfl⟩

theorem view_free (h : ∀ pending, db.writer ≠ some (conn, pending)) :
    db.view conn = db.committed := by
  cases hwriter : db.writer with
  | none => simp only [Database.view, hwriter]
  | some held =>
      obtain ⟨holder, pending⟩ := held
      have hne : holder ≠ conn := by
        rintro rfl
        exact h pending hwriter
      simp only [Database.view, hwriter, if_neg hne]

end Perform

/-! ## The statements of an update -/

/-- What `state_cas_update` returns or raises. -/
inductive CasOutcome where
  | updated (record : OwnershipRecord)
  | refused (error : String)
  | raised (message : String)

abbrev CasProgram := Program Statement Statement.Answer Empty CasOutcome

/-- Make the writes in turn, and roll back when one is locked out. -/
def runWrites (conn : ℕ) (next : CasProgram) : List Write → CasProgram
  | [] => next
  | w :: ws =>
      .access (.write conn w) fun (locked : Bool) =>
        if locked then
          .access (.rollback conn) fun _ => .done (.raised "database is locked")
        else runWrites conn next ws

/-- What `_state_cas_update_conn` does with the row it has selected, up to the end of
`with_transaction`. -/
def CasUpdate.afterSelect (u : CasUpdate) (conn : ℕ) (row : Option OwnershipRecord) :
    CasProgram :=
  let record := recordOf row u.taskId
  if record.version ≠ u.expectedVersion then
    .access (.commit conn) fun _ => .done (.refused "VERSION_CONFLICT")
  else
    let updated := updatedRecord u.mutate u.now record
    runWrites conn (.access (.commit conn) fun _ => .done (.updated updated))
      (casWrites u.runId u.taskId updated)

/-- `state_cas_update` as the statements it makes. -/
def CasUpdate.program (u : CasUpdate) : CasProgram :=
  .access .connect fun (conn : ℕ) =>
    .access (.selectState conn u.runId u.taskId) fun row => u.afterSelect conn row

/-- How far an update has come: it has not selected yet, has selected the version it
expects, holds the write lock, has committed its writes, or has been turned away. -/
inductive Stage where
  | begun
  | matched
  | writing
  | committed
  | failed
deriving DecidableEq

/-- An update under way. -/
structure Progress where
  update : CasUpdate
  conn : Option ℕ := none
  stage : Stage := .begun

def Progress.learns (k : Progress) : (s : Statement) → s.Answer → Progress
  | .connect, conn => { k with conn := some conn }
  | .selectState _ _ _, row =>
      { k with
        stage :=
          if (recordOf row k.update.taskId).version = k.update.expectedVersion then
            .matched
          else .failed }
  | .write _ _, locked =>
      { k with stage := bif (locked : Bool) then .failed else .writing }
  | .commit _, _ =>
      { k with stage := if k.stage = .writing then .committed else k.stage }
  | .rollback _, _ => { k with stage := .failed }

def CasUpdate.begins (u : CasUpdate) :
    Process Statement Statement.Answer Empty CasOutcome Progress :=
  ⟨{ update := u }, u.program⟩

abbrev Updates := Pool Statement Statement.Answer Empty CasOutcome Progress Database

def updatesMachine : Machine Updates (PoolInput CasUpdate) (Option Statement) :=
  poolMachine Database.perform Progress.learns CasUpdate.begins

def Updates.opened (tables : Tables) : Updates := ⟨⟨tables, none, 0⟩, fun _ => none⟩

end Hydrogenuine.Ownership
