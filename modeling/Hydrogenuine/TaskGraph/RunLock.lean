import Mathlib.Algebra.Order.Ring.Rat
import Hydrogenuine.Support.Dict
import Hydrogenuine.Support.Machine

/-!
# Run locks

Embedding of `hg_core/task_graph/run_lock.py`.  A lock is a file whose name encodes a
workflow and a time bucket.  `acquire_lock` looks at the file first and writes it
afterwards, as two steps between which other calls may come; `release_lock` removes the
file, whoever calls it.

The names do not tell all pairs apart, two calls may both find the file free, and a
release may take away the lock of another run.  Every step of a run is sound if none of
the three happens.
-/

namespace Hydrogenuine.TaskGraph

open Support

/-! ## Lock files -/

/-- `text.replace(c, new)` for every character `c` that is to go. -/
def replaceChars (text : String) (goes : Char → Bool) (new : Char) : String :=
  String.ofList (text.toList.map fun c => if goes c then new else c)

/-- `_lock_path`: the name of the file in the directory of the locks. -/
def lockPath (workflowId timeBucket : String) : String :=
  let safeW := replaceChars workflowId (fun c => c == '/' || c.toNat == 92) '_'
  let safeB := replaceChars (replaceChars timeBucket (· == '/') '_') (· == ':') '-'
  safeW ++ "_" ++ safeB ++ ".lock"

/-- What is written to a lock file. -/
structure LockData where
  workflowId : String
  timeBucket : String
  runId : String
  acquiredAt : ℚ
  expiresAt : ℚ
deriving DecidableEq

/-- A lock file, `none` when it cannot be read. -/
abbrev LockFile : Type := Option LockData

/-- The arguments of `acquire_lock`. -/
structure LockCall where
  workflowId : String
  timeBucket : String
  runId : String
  ttlSec : ℚ := 3600
deriving DecidableEq

/-- The files, the clock and the calls that found their file free and have not written
it yet, by their callers.  `granted` is kept for the statements, nothing reads it: the
locks that were answered with `True` and not released by the run that got them. -/
structure LockDirectory where
  files : Dict String LockFile := .empty
  now : ℚ := 0
  pending : Dict ℕ LockCall := .empty
  granted : List LockData := []

/-- A step of some caller, or of the clock. -/
inductive LockEvent where
  /-- A caller enters `acquire_lock` and looks at the file. -/
  | look (caller : ℕ) (call : LockCall)
  /-- A caller that found the file free writes it. -/
  | write (caller : ℕ)
  /-- Writing fails after the file was emptied. -/
  | writeFails (caller : ℕ)
  /-- A run calls `release_lock`. -/
  | release (runId workflowId timeBucket : String)
  /-- The clock reads a later time. -/
  | elapse (reading : ℚ)

namespace LockDirectory

def unexpired (s : LockDirectory) (path : String) : Option LockData :=
  match s.files.get? path with
  | some (some data) => if s.now < data.expiresAt then some data else none
  | _ => none

def lockData (s : LockDirectory) (call : LockCall) : LockData where
  workflowId := call.workflowId
  timeBucket := call.timeBucket
  runId := call.runId
  acquiredAt := s.now
  expiresAt := s.now + call.ttlSec

def grantedBut (s : LockDirectory) (runId workflowId timeBucket : String) :
    List LockData :=
  s.granted.filter fun data => decide
    (¬ (data.runId = runId ∧ data.workflowId = workflowId ∧
      data.timeBucket = timeBucket))

/-- `acquire_lock` up to the look at the file. -/
def look (s : LockDirectory) (caller : ℕ) (call : LockCall) :
    LockDirectory × Option Bool :=
  if s.pending.contains caller then (s, none)
  else
    match s.unexpired (lockPath call.workflowId call.timeBucket) with
    | some _ => (s, some false)
    | none => ({ s with pending := s.pending.set caller call }, none)

def settle (s : LockDirectory) (caller : ℕ) : LockDirectory :=
  { s with pending := s.pending.filter fun other _ => decide (other ≠ caller) }

/-- The rest of `acquire_lock`. -/
def write (s : LockDirectory) (caller : ℕ) : LockDirectory × Option Bool :=
  match s.pending.get? caller with
  | none => (s, none)
  | some call =>
      let data := s.lockData call
      ({ s.settle caller with
        files := s.files.set (lockPath call.workflowId call.timeBucket) (some data)
        granted :=
          s.grantedBut call.runId call.workflowId call.timeBucket ++ [data] },
        some true)

/-- The rest of `acquire_lock` when it raises. -/
def writeFails (s : LockDirectory) (caller : ℕ) : LockDirectory :=
  match s.pending.get? caller with
  | none => s
  | some call =>
      { s.settle caller with
        files := s.files.set (lockPath call.workflowId call.timeBucket) none }

/-- `release_lock`, called by a run. -/
def release (s : LockDirectory) (runId workflowId timeBucket : String) :
    LockDirectory :=
  { s with
    files := s.files.filter fun path _ =>
      decide (path ≠ lockPath workflowId timeBucket)
    granted := s.grantedBut runId workflowId timeBucket }

end LockDirectory

/-- The steps of the callers, with the answers of `acquire_lock`. -/
def lockMachine : Machine LockDirectory LockEvent (Option Bool) where
  step s
    | .look caller call => s.look caller call
    | .write caller => s.write caller
    | .writeFails caller => (s.writeFails caller, none)
    | .release runId workflowId timeBucket =>
        (s.release runId workflowId timeBucket, none)
    | .elapse reading => ({ s with now := max s.now reading }, none)

abbrev LockStep := Step LockDirectory LockEvent (Option Bool)

/-! ## The property -/

def LockData.SamePair (data data' : LockData) : Prop :=
  data.workflowId = data'.workflowId ∧ data.timeBucket = data'.timeBucket

def LockData.path (data : LockData) : String :=
  lockPath data.workflowId data.timeBucket

def Holds (s : LockDirectory) (data : LockData) : Prop :=
  data ∈ s.granted ∧ s.now < data.expiresAt

/-- Two runs never hold the lock of one pair, two pairs never share a file, and the file
of every lock that is held stands. -/
structure Exclusive (s : LockDirectory) : Prop where
  oneRun : ∀ data data', Holds s data → Holds s data' → data.SamePair data' →
    data.runId = data'.runId
  onePair : ∀ data data', Holds s data → Holds s data' → data.path = data'.path →
    data.SamePair data'
  stands : ∀ data, Holds s data → s.unexpired data.path = some data

/-- The run of the release holds no lock of the pair. -/
def ReleasesNothing (e : LockStep) : Prop :=
  ∃ runId workflowId timeBucket, e.input = .release runId workflowId timeBucket ∧
    ∀ data, Holds e.before data → data.workflowId = workflowId →
      data.timeBucket = timeBucket → data.runId ≠ runId

/-- What a step may do. -/
structure SoundLockStep (e : LockStep) : Prop where
  exclusive : Exclusive e.after
  keepsOthers : ReleasesNothing e → ∀ data, Holds e.before data →
    e.after.unexpired data.path = some data
  refusedForOwn : ∀ caller call, e.input = .look caller call → e.output = some false →
    ∃ data, Holds e.before data ∧ data.workflowId = call.workflowId ∧
      data.timeBucket = call.timeBucket

/-- A call looks at its file while no other call is about to write it, and while it holds
up no lock of another pair; a release comes while the file holds up no lock but the own
one. -/
def Undisturbed (s : LockDirectory) : LockEvent → Prop
  | .look _ call =>
      (∀ other pending, s.pending.get? other = some pending →
        lockPath pending.workflowId pending.timeBucket ≠
          lockPath call.workflowId call.timeBucket) ∧
      ∀ data, s.unexpired (lockPath call.workflowId call.timeBucket) = some data →
        data.workflowId = call.workflowId ∧ data.timeBucket = call.timeBucket
  | .release runId workflowId timeBucket =>
      ∀ data, s.unexpired (lockPath workflowId timeBucket) = some data →
        data.runId = runId ∧ data.workflowId = workflowId ∧
          data.timeBucket = timeBucket
  | _ => True

/-! ## One step -/

abbrev LockCall.path (call : LockCall) : String :=
  lockPath call.workflowId call.timeBucket

/-- What undisturbed steps keep: the files and the locks granted agree on what has not
expired, and calls that are about to write have files of their own, which are free. -/
structure LocksAgree (s : LockDirectory) : Prop where
  stands : ∀ data, Holds s data → s.unexpired data.path = some data
  known : ∀ path data, s.unexpired path = some data → Holds s data ∧ path = data.path
  free : ∀ caller call, s.pending.get? caller = some call →
    s.unexpired call.path = none
  apart : ∀ caller caller' call call', s.pending.get? caller = some call →
    s.pending.get? caller' = some call' → call.path = call'.path → caller = caller'

section

variable {s : LockDirectory} {path : String} {data : LockData}

theorem unexpired_eq_some_iff :
    s.unexpired path = some data ↔
      s.files.get? path = some (some data) ∧ s.now < data.expiresAt := by
  unfold LockDirectory.unexpired
  cases hfile : s.files.get? path with
  | none => simp
  | some file =>
      cases file with
      | none => simp
      | some found =>
          simp only [Option.some.injEq]
          constructor
          · intro h
            split_ifs at h with hnow
            obtain rfl := Option.some.inj h
            exact ⟨rfl, hnow⟩
          · rintro ⟨rfl, hnow⟩
            rw [if_pos hnow]

theorem exclusive_of_agree (hs : LocksAgree s) : Exclusive s := by
  have hsame : ∀ data data', Holds s data → Holds s data' → data.path = data'.path →
      data = data' := by
    intro data data' hdata hdata' hpath
    have hstands := hs.stands data hdata
    rw [hpath, hs.stands data' hdata'] at hstands
    exact (Option.some.inj hstands).symm
  refine ⟨?_, ?_, hs.stands⟩
  · rintro data data' hdata hdata' ⟨hworkflow, hbucket⟩
    have hpath : data.path = data'.path := by
      rw [LockData.path, LockData.path, hworkflow, hbucket]
    rw [hsame data data' hdata hdata' hpath]
  · intro data data' hdata hdata' hpath
    rw [hsame data data' hdata hdata' hpath]
    exact ⟨rfl, rfl⟩

theorem mem_grantedBut {runId workflowId timeBucket : String} :
    data ∈ s.grantedBut runId workflowId timeBucket ↔
      data ∈ s.granted ∧ ¬ (data.runId = runId ∧ data.workflowId = workflowId ∧
        data.timeBucket = timeBucket) := by
  rw [LockDirectory.grantedBut, List.mem_filter, decide_eq_true_iff]

theorem get?_settle_pending {caller other : ℕ} {call : LockCall}
    (h : (s.settle caller).pending.get? other = some call) :
    other ≠ caller ∧ s.pending.get? other = some call := by
  rw [LockDirectory.settle, Dict.get?_filter, Option.filter_eq_some_iff] at h
  exact ⟨of_decide_eq_true h.2, h.1⟩

end

section

variable {s : LockDirectory}

theorem agree_look (hs : LocksAgree s) {caller : ℕ} {call : LockCall}
    (hother : ∀ other pending, s.pending.get? other = some pending →
      pending.path ≠ call.path) :
    LocksAgree (s.look caller call).1 := by
  unfold LockDirectory.look
  split_ifs
  · exact hs
  cases hfree : s.unexpired (lockPath call.workflowId call.timeBucket) with
  | some data => exact hs
  | none =>
      have hpending : ∀ other pending, (s.pending.set caller call).get? other =
          some pending → (other = caller ∧ pending = call) ∨
            s.pending.get? other = some pending := by
        intro other pending h
        rw [Dict.get?_set] at h
        split_ifs at h with heq
        · exact Or.inl ⟨heq, (Option.some.inj h).symm⟩
        · exact Or.inr h
      refine ⟨hs.stands, hs.known, fun other pending h => ?_,
        fun other other' pending pending' h h' hpath => ?_⟩
      · rcases hpending other pending h with ⟨-, rfl⟩ | h
        · exact hfree
        · exact hs.free other pending h
      · rcases hpending other pending h with ⟨rfl, rfl⟩ | hold
        · rcases hpending other' pending' h' with ⟨rfl, -⟩ | hold'
          · rfl
          · exact absurd hpath.symm (hother other' pending' hold')
        · rcases hpending other' pending' h' with ⟨rfl, rfl⟩ | hold'
          · exact absurd hpath (hother other pending hold)
          · exact hs.apart other other' pending pending' hold hold' hpath

theorem agree_write (hs : LocksAgree s) {caller : ℕ} :
    LocksAgree (s.write caller).1 := by
  unfold LockDirectory.write
  cases hcall : s.pending.get? caller with
  | none => exact hs
  | some call =>
      have hfree := hs.free caller call hcall
      refine ⟨?_, ?_, ?_, ?_⟩
      · rintro data ⟨hgranted, hnow⟩
        rw [unexpired_eq_some_iff]
        refine ⟨?_, hnow⟩
        rw [Dict.get?_set]
        rcases List.mem_append.mp hgranted with hold | hnew
        · have hheld : Holds s data := ⟨(mem_grantedBut.mp hold).1, hnow⟩
          have hstands := hs.stands data hheld
          split_ifs with hpath
          · rw [hpath, hfree] at hstands
            cases hstands
          · exact (unexpired_eq_some_iff.mp hstands).1
        · obtain rfl := List.mem_singleton.mp hnew
          exact if_pos rfl
      · intro path data hdata
        obtain ⟨hfile, hnow⟩ := unexpired_eq_some_iff.mp hdata
        rw [Dict.get?_set] at hfile
        split_ifs at hfile with hpath
        · obtain rfl := Option.some.inj (Option.some.inj hfile)
          exact ⟨⟨List.mem_append_right _ (List.mem_singleton_self _), hnow⟩, hpath⟩
        · obtain ⟨⟨hgranted, -⟩, rfl⟩ :=
            hs.known path data (unexpired_eq_some_iff.mpr ⟨hfile, hnow⟩)
          refine ⟨⟨List.mem_append_left _ (mem_grantedBut.mpr ⟨hgranted, ?_⟩), hnow⟩,
            rfl⟩
          rintro ⟨-, hworkflow, hbucket⟩
          exact hpath (by rw [LockData.path, hworkflow, hbucket])
      · intro other pending h
        obtain ⟨hne, hpending⟩ := get?_settle_pending h
        have hpath : pending.path ≠ call.path := fun hpath =>
          hne (hs.apart other caller pending call hpending hcall hpath)
        have hother := hs.free other pending hpending
        unfold LockDirectory.unexpired at hother ⊢
        rw [Dict.get?_set, if_neg hpath]
        exact hother
      · intro other other' pending pending' h h' hpath
        exact hs.apart other other' pending pending' (get?_settle_pending h).2
          (get?_settle_pending h').2 hpath

theorem agree_writeFails (hs : LocksAgree s) {caller : ℕ} :
    LocksAgree (s.writeFails caller) := by
  unfold LockDirectory.writeFails
  cases hcall : s.pending.get? caller with
  | none => exact hs
  | some call =>
      have hfree := hs.free caller call hcall
      have hfile : ∀ path data, LockDirectory.unexpired
          { s.settle caller with files := s.files.set call.path none } path =
            some data ↔ path ≠ call.path ∧ s.unexpired path = some data := by
        intro path data
        rw [unexpired_eq_some_iff, unexpired_eq_some_iff, Dict.get?_set]
        split_ifs with hpath
        · simp [hpath]
        · simp [hpath, LockDirectory.settle]
      refine ⟨fun data hdata => ?_, fun path data hdata => ?_,
        fun other pending h => ?_, fun other other' pending pending' h h' hpath => ?_⟩
      · rw [hfile]
        have hstands := hs.stands data hdata
        refine ⟨fun hpath => ?_, hstands⟩
        rw [hpath, hfree] at hstands
        cases hstands
      · exact hs.known path data ((hfile path data).mp hdata).2
      · have hother := hs.free other pending (get?_settle_pending h).2
        refine Option.eq_none_iff_forall_ne_some.mpr fun data hdata => ?_
        rw [((hfile _ data).mp hdata).2] at hother
        cases hother
      · exact hs.apart other other' pending pending' (get?_settle_pending h).2
          (get?_settle_pending h').2 hpath

theorem unexpired_release {runId workflowId timeBucket path : String}
    {data : LockData} :
    (s.release runId workflowId timeBucket).unexpired path = some data ↔
      path ≠ lockPath workflowId timeBucket ∧ s.unexpired path = some data := by
  rw [unexpired_eq_some_iff, unexpired_eq_some_iff, LockDirectory.release,
    Dict.get?_filter, Option.filter_eq_some_iff, decide_eq_true_iff]
  exact ⟨fun ⟨⟨hfile, hpath⟩, hnow⟩ => ⟨hpath, hfile, hnow⟩,
    fun ⟨hpath, hfile, hnow⟩ => ⟨⟨hfile, hpath⟩, hnow⟩⟩

theorem agree_release (hs : LocksAgree s) {runId workflowId timeBucket : String}
    (hown : ∀ data, s.unexpired (lockPath workflowId timeBucket) = some data →
      data.runId = runId ∧ data.workflowId = workflowId ∧
        data.timeBucket = timeBucket) :
    LocksAgree (s.release runId workflowId timeBucket) := by
  refine ⟨fun data hdata => ?_, fun path data hdata => ?_, fun caller call h => ?_,
    hs.apart⟩
  · obtain ⟨hgranted, hnow⟩ := hdata
    obtain ⟨hgranted, hother⟩ := mem_grantedBut.mp hgranted
    have hstands := hs.stands data ⟨hgranted, hnow⟩
    refine unexpired_release.mpr ⟨fun hpath => ?_, hstands⟩
    rw [hpath] at hstands
    exact hother (hown data hstands)
  · obtain ⟨hpath, hfile⟩ := unexpired_release.mp hdata
    obtain ⟨⟨hgranted, hnow⟩, rfl⟩ := hs.known path data hfile
    refine ⟨⟨mem_grantedBut.mpr ⟨hgranted, ?_⟩, hnow⟩, rfl⟩
    rintro ⟨-, hworkflow, hbucket⟩
    exact hpath (by rw [LockData.path, hworkflow, hbucket])
  · refine Option.eq_none_iff_forall_ne_some.mpr fun data hdata => ?_
    have hbefore := (unexpired_release.mp hdata).2
    rw [hs.free caller call h] at hbefore
    cases hbefore

theorem agree_elapse (hs : LocksAgree s) (reading : ℚ) :
    LocksAgree { s with now := max s.now reading } := by
  have hearlier : ∀ data, Holds { s with now := max s.now reading } data →
      Holds s data :=
    fun data hdata => ⟨hdata.1, lt_of_le_of_lt (le_max_left _ _) hdata.2⟩
  have hfile : ∀ path data, LockDirectory.unexpired
      { s with now := max s.now reading } path = some data ↔
        s.unexpired path = some data ∧ max s.now reading < data.expiresAt := by
    intro path data
    rw [unexpired_eq_some_iff, unexpired_eq_some_iff]
    exact ⟨fun h => ⟨⟨h.1, lt_of_le_of_lt (le_max_left _ _) h.2⟩, h.2⟩,
      fun h => ⟨h.1.1, h.2⟩⟩
  refine ⟨fun data hdata => ?_, fun path data hdata => ?_, fun caller call h => ?_,
    hs.apart⟩
  · exact (hfile _ data).mpr ⟨hs.stands data (hearlier data hdata), hdata.2⟩
  · obtain ⟨hbefore, hnow⟩ := (hfile path data).mp hdata
    obtain ⟨⟨hgranted, -⟩, hpath⟩ := hs.known path data hbefore
    exact ⟨⟨hgranted, hnow⟩, hpath⟩
  · refine Option.eq_none_iff_forall_ne_some.mpr fun data hdata => ?_
    have hbefore := ((hfile _ data).mp hdata).1
    rw [hs.free caller call h] at hbefore
    cases hbefore

theorem agree_step (hs : LocksAgree s) {event : LockEvent}
    (hevent : Undisturbed s event) : LocksAgree (lockMachine.step s event).1 := by
  cases event with
  | look caller call => exact agree_look hs hevent.1
  | write caller => exact agree_write hs
  | writeFails caller => exact agree_writeFails hs
  | release runId workflowId timeBucket => exact agree_release hs hevent
  | elapse reading => exact agree_elapse hs reading

theorem sound_step (hs : LocksAgree s) {event : LockEvent}
    (hevent : Undisturbed s event) : SoundLockStep (lockMachine.stepAt s event) where
  exclusive := exclusive_of_agree (agree_step hs hevent)
  keepsOthers := by
    rintro ⟨runId, workflowId, timeBucket, hinput, hnothing⟩ data hdata
    obtain rfl : event = .release runId workflowId timeBucket := hinput
    have hstands := hs.stands data hdata
    refine unexpired_release.mpr ⟨fun hpath => ?_, hstands⟩
    rw [hpath] at hstands
    obtain ⟨hrun, hworkflow, hbucket⟩ := hevent data hstands
    exact hnothing data hdata hworkflow hbucket hrun
  refusedForOwn := by
    rintro caller call hinput hrefused
    obtain rfl : event = .look caller call := hinput
    change (s.look caller call).2 = some false at hrefused
    unfold LockDirectory.look at hrefused
    split_ifs at hrefused
    cases hfile : s.unexpired (lockPath call.workflowId call.timeBucket) with
    | none =>
        rw [hfile] at hrefused
        cases hrefused
    | some data => exact ⟨data, (hs.known _ data hfile).1, hevent.2 data hfile⟩

end

/-! ## Runs -/

/-- Every step of a run of calls that do not disturb each other is sound: no two runs
hold the lock of one pair, no two pairs share a lock, and a release by a run without the
lock takes no lock away. -/
theorem locks_exclusive
    (events : List LockEvent) (hevents : lockMachine.Guarded Undisturbed {} events) :
    ∀ e ∈ lockMachine.trace {} events, SoundLockStep e := by
  have hinitial : LocksAgree {} := by
    refine ⟨fun data hdata => ?_, fun path data hdata => ?_, fun caller call h => ?_,
      fun caller caller' call call' h => ?_⟩
    · cases hdata.1
    · cases hdata
    · cases h
    · cases h
  intro e he
  obtain ⟨earlier, later, hsplit⟩ := List.append_of_mem he
  exact Machine.forall_split_of_guarded (fun _ s => LocksAgree s)
    (fun _ e => SoundLockStep e) hinitial
    (fun _ s event hs hevent => ⟨agree_step hs hevent, sound_step hs hevent⟩) hevents
    earlier e later hsplit

theorem locks_exclusive_one_call :
    lockMachine.Guarded Undisturbed {} [.look 0 ⟨"daily", "2026-02-23", "run-1", 60⟩,
        .write 0, .release "run-1" "daily" "2026-02-23"] ∧
      ∀ e ∈ lockMachine.trace {} [.look 0 ⟨"daily", "2026-02-23", "run-1", 60⟩, .write 0,
          .release "run-1" "daily" "2026-02-23"], SoundLockStep e := by
  refine ⟨?undisturbed, locks_exclusive _ ?undisturbed⟩
  refine Machine.guarded_cons.mpr ⟨⟨?_, ?_⟩,
    Machine.guarded_cons.mpr ⟨trivial, Machine.guarded_cons.mpr ⟨?_,
      Machine.guarded_nil⟩⟩⟩
  · intro other pending h
    cases h
  · intro data h
    cases h
  · intro data h
    have hdata : some (⟨"daily", "2026-02-23", "run-1", 0, 60⟩ : LockData) =
        some data := by
      rw [← h]
      decide +kernel
    obtain rfl := Option.some.inj hdata
    exact ⟨rfl, rfl, rfl⟩

def strayRelease : List LockEvent :=
  [.look 0 ⟨"daily", "2026-02-23", "run-1", 60⟩, .write 0,
    .release "run-2" "daily" "2026-02-23",
    .look 0 ⟨"daily", "2026-02-23", "run-2", 60⟩, .write 0]

theorem locks_not_exclusive :
    ¬ ∀ events, ∀ e ∈ lockMachine.trace {} events, SoundLockStep e := by
  intro h
  have hnonempty : lockMachine.trace {} strayRelease ≠ [] := by
    intro hnil
    cases hnil
  have hsound := h strayRelease _ (List.getLast_mem hnonempty)
  have hfirst : Holds (lockMachine.final {} strayRelease)
      ⟨"daily", "2026-02-23", "run-1", 0, 60⟩ := ⟨by decide +kernel, by decide +kernel⟩
  have hsecond : Holds (lockMachine.final {} strayRelease)
      ⟨"daily", "2026-02-23", "run-2", 0, 60⟩ := ⟨by decide +kernel, by decide +kernel⟩
  have hsame := hsound.exclusive.oneRun _ _ hfirst hsecond ⟨rfl, rfl⟩
  exact absurd hsame (by decide)

end Hydrogenuine.TaskGraph
