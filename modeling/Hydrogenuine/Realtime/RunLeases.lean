import Mathlib.Data.NNRat.Defs
import Hydrogenuine.Support.Dict
import Hydrogenuine.Support.Machine

/-!
# The store of run leases

Embedding of `hg_realtime/leases/store.py`.  Both stores there, the SQLite one and the
one of the gateway, run the same statements on a table with one row for each run.
Every call reads the clock once, so the clock is part of the state and advances before
each call.  What `uuid4` returns is given with the call.

`release` is told a run and nothing else: the worker of a `LeaseCall.release` is the one
that calls it (the waiter of a launched run, or `RunTracker.cancel`), and the store does
not read it.
-/

namespace Hydrogenuine.Realtime

open Support

/-- `Lease`. -/
structure RunLease where
  runId : String
  leaseId : String
  workerId : String
  acquiredAt : ℚ
  lastHeartbeatAt : ℚ
  seq : ℤ
deriving DecidableEq

/-- The rows of `run_leases` under their primary key. -/
abbrev LeaseTable := Dict String RunLease

def freshLease (runId leaseId workerId : String) (now : ℚ) : RunLease where
  runId := runId
  leaseId := leaseId
  workerId := workerId
  acquiredAt := now
  lastHeartbeatAt := now
  seq := 0

def LeaseTable.acquire
    (table : LeaseTable) (now : ℚ) (runId workerId uuid : String) (staleAfterS : ℚ) :
    Except String RunLease × LeaseTable :=
  match table.get? runId with
  | none =>
      let lease := freshLease runId uuid workerId now
      (.ok lease, table.set runId lease)
  | some row =>
      if staleAfterS < now - row.lastHeartbeatAt then
        let lease := freshLease runId uuid workerId now
        (.ok lease, table.set runId lease)
      else
        (.error ("run " ++ runId ++ " is already leased by " ++ row.workerId), table)

def LeaseTable.heartbeat
    (table : LeaseTable) (now : ℚ) (runId leaseId workerId : String) (seq : ℤ) :
    Except String Unit × LeaseTable :=
  match table.get? runId with
  | none => (.error "no lease to heartbeat", table)
  | some row =>
      if row.leaseId ≠ leaseId ∨ row.workerId ≠ workerId then
        (.error "lease mismatch", table)
      else if seq ≤ row.seq then
        (.error "non-monotonic heartbeat seq", table)
      else
        (.ok (), table.set runId { row with lastHeartbeatAt := now, seq := seq })

/-- `release`: whether a row was deleted. -/
def LeaseTable.release (table : LeaseTable) (runId : String) : Bool × LeaseTable :=
  (table.contains runId, table.filter fun key _ => decide (key ≠ runId))

/-- `reap_stale`: how many rows were deleted. -/
def LeaseTable.reapStale
    (table : LeaseTable) (now staleAfterS : ℚ) : ℕ × LeaseTable :=
  let stale := fun row : RunLease => decide (staleAfterS < now - row.lastHeartbeatAt)
  (table.values.countP stale, table.filter fun _ row => !stale row)

/-! ## Calls -/

/-- A call of the store. -/
inductive LeaseCall where
  | acquire (workerId runId uuid : String) (staleAfterS : ℚ)
  | heartbeat (workerId runId leaseId : String) (seq : ℤ)
  | release (workerId runId : String)
  | reapStale (staleAfterS : ℚ)

/-- What a call returns or raises. -/
inductive LeaseAnswer where
  | leased (lease : RunLease)
  | beaten
  | released (deleted : Bool)
  | reaped (count : ℕ)
  | refused (message : String)

/-- The table, and the clock when it was last read. -/
structure LeaseStore where
  clock : ℚ
  table : LeaseTable

/-- A call, and the time since the one before it. -/
structure TimedCall where
  elapsed : ℚ≥0
  call : LeaseCall

def LeaseAnswer.ofExcept {α : Type} (answer : α → LeaseAnswer) :
    Except String α → LeaseAnswer
  | .ok value => answer value
  | .error message => .refused message

def LeaseTable.call (table : LeaseTable) (now : ℚ) :
    LeaseCall → LeaseAnswer × LeaseTable
  | .acquire workerId runId uuid staleAfterS =>
      let (answer, after) := table.acquire now runId workerId uuid staleAfterS
      (.ofExcept .leased answer, after)
  | .heartbeat workerId runId leaseId seq =>
      let (answer, after) := table.heartbeat now runId leaseId workerId seq
      (.ofExcept (fun _ => .beaten) answer, after)
  | .release _ runId =>
      let (deleted, after) := table.release runId
      (.released deleted, after)
  | .reapStale staleAfterS =>
      let (count, after) := table.reapStale now staleAfterS
      (.reaped count, after)

def LeaseStore.next (s : LeaseStore) (input : TimedCall) : ℚ := s.clock + input.elapsed

def leaseStoreMachine : Machine LeaseStore TimedCall LeaseAnswer where
  step s input :=
    let (answer, after) := s.table.call (s.next input) input.call
    (⟨s.next input, after⟩, answer)

def LeaseStore.opened (start : ℚ) : LeaseStore := ⟨start, .empty⟩

/-! ## What a call does to the row of a run -/

theorem acquire_cases
    (s : LeaseStore) {input : TimedCall} {workerId runId uuid : String}
    {staleAfterS : ℚ} (hcall : input.call = .acquire workerId runId uuid staleAfterS) :
    (leaseStoreMachine.step s input =
        (⟨s.next input,
          s.table.set runId (freshLease runId uuid workerId (s.next input))⟩,
          .leased (freshLease runId uuid workerId (s.next input))) ∧
      ∀ row, s.table.get? runId = some row →
        staleAfterS < s.next input - row.lastHeartbeatAt) ∨
    ∃ message, leaseStoreMachine.step s input =
      (⟨s.next input, s.table⟩, .refused message) := by
  simp only [leaseStoreMachine, LeaseTable.call, hcall, LeaseTable.acquire]
  cases hrow : s.table.get? runId with
  | none =>
      refine Or.inl ⟨rfl, ?_⟩
      rintro row hsome
      cases hsome
  | some row =>
      by_cases hstale : staleAfterS < s.next input - row.lastHeartbeatAt
      · simp only [if_pos hstale]
        refine Or.inl ⟨rfl, ?_⟩
        rintro row' hrow'
        obtain rfl := Option.some.inj hrow'
        exact hstale
      · simp only [if_neg hstale]
        exact Or.inr ⟨_, rfl⟩

theorem heartbeat_cases
    (s : LeaseStore) {input : TimedCall} {workerId runId leaseId : String} {seq : ℤ}
    (hcall : input.call = .heartbeat workerId runId leaseId seq) :
    (∃ row, s.table.get? runId = some row ∧ row.leaseId = leaseId ∧
      row.workerId = workerId ∧
      leaseStoreMachine.step s input =
        (⟨s.next input, s.table.set runId
          { row with lastHeartbeatAt := s.next input, seq := seq }⟩, .beaten)) ∨
    ∃ message, leaseStoreMachine.step s input =
      (⟨s.next input, s.table⟩, .refused message) := by
  simp only [leaseStoreMachine, LeaseTable.call, hcall, LeaseTable.heartbeat]
  cases hrow : s.table.get? runId with
  | none => exact Or.inr ⟨_, rfl⟩
  | some row =>
      dsimp only
      split_ifs with hmismatch hseq
      · exact Or.inr ⟨_, rfl⟩
      · exact Or.inr ⟨_, rfl⟩
      · rw [not_or, not_not, not_not] at hmismatch
        exact Or.inl ⟨row, rfl, hmismatch.1, hmismatch.2, rfl⟩

theorem get?_release (table : LeaseTable) (runId key : String) :
    (table.release runId).2.get? key =
      if key = runId then none else table.get? key := by
  rw [LeaseTable.release, Dict.get?_filter]
  by_cases hkey : key = runId
  · simp [hkey]
  · cases table.get? key <;> simp [hkey]

theorem get?_reapStale_of_fresh
    {table : LeaseTable} {runId : String} {now staleAfterS : ℚ} {row : RunLease}
    (hrow : table.get? runId = some row)
    (hfresh : now - row.lastHeartbeatAt ≤ staleAfterS) :
    (table.reapStale now staleAfterS).2.get? runId = some row := by
  rw [LeaseTable.reapStale, Dict.get?_filter, hrow, Option.filter_some]
  simp [hfresh]

end Hydrogenuine.Realtime
