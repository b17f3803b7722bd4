import Hydrogenuine.Ledger.Chain

/-!
# Concurrent emits

Calls of `emit` that run at the same time.  A call reads the last hash, builds
and hashes its envelope, and appends it under the lock of the file; the lock
covers the append alone, so other calls may take steps between the two.  A run is
any interleaving of the steps of any number of calls.
-/

namespace Hydrogenuine.Ledger

open Support Hydrogenuine.Core

/-- How far a call is. -/
inductive Phase where
  | waiting
  /-- The hash that was read, with what the file to be written held then. -/
  | holding (prevHash : PyVal) (seen : List LedgerEvent)
  | over

inductive EmitStep where
  | read (call : ℕ)
  | append (call : ℕ)
  /-- The lock of the file could not be had in time. -/
  | giveUp (call : ℕ)

structure EmitState where
  files : Files
  phase : ℕ → Phase

namespace EmitState

variable (env : LedgerEnv) (calls : ℕ → EmitCall)

def start : EmitState := ⟨[], fun _ => .waiting⟩

def moveTo (s : EmitState) (call : ℕ) (phase : Phase) : EmitState :=
  { s with phase := Function.update s.phase call phase }

def target (files : Files) (call : EmitCall) : List LedgerEvent :=
  match writePath env.host (call.scopeIn env) with
  | .ok path => (lookupEntry path files).getD []
  | .error _ => []

/-- The part of `emit` before the append. -/
def readTip (files : Files) (call : EmitCall) : Except PyError PyVal :=
  if env.prod && call.secretKeyHex.isNone then
    .error (.runtimeError "Production ledger requires explicit signing key")
  else do
    let path ← lookupPath env.host (call.scopeIn env)
    getLastHash files path

/-- The part of `emit` from the append on. -/
def appendTo (files : Files) (call : EmitCall) (prevHash : PyVal) :
    Except PyError Files :=
  appendEvent env files
    (buildEnvelope env.host env.crypto (call.args env) prevHash)

def step (s : EmitState) : EmitStep → EmitState
  | .read i =>
      match s.phase i with
      | .waiting =>
          match readTip env s.files (calls i) with
          | .ok prevHash =>
              s.moveTo i (.holding prevHash (target env s.files (calls i)))
          | .error _ => s.moveTo i .over
      | _ => s
  | .append i =>
      match s.phase i with
      | .holding prevHash _ =>
          match appendTo env s.files (calls i) prevHash with
          | .ok files => { s.moveTo i .over with files := files }
          | .error _ => s.moveTo i .over
      | _ => s
  | .giveUp i =>
      match s.phase i with
      | .holding _ _ => s.moveTo i .over
      | _ => s

end EmitState

def emitSteps (env : LedgerEnv) (calls : ℕ → EmitCall) :
    Machine EmitState EmitStep Unit where
  step s e := (s.step env calls e, ())

theorem emit_eq_read_append
    (env : LedgerEnv) (files : Files) (call : EmitCall) :
    emit env files call =
      (EmitState.readTip env files call).bind
        (EmitState.appendTo env files call) := by
  unfold emit EmitState.readTip EmitState.appendTo
  split_ifs
  · rfl
  · cases lookupPath env.host (call.scopeIn env) with
    | error e => rfl
    | ok path => rfl

/-! ## Runs -/

/-- A call reads the end of the file that it is to write, and no other call has
appended to this file when it appends. -/
def Unraced (env : LedgerEnv) (calls : ℕ → EmitCall) (s : EmitState) :
    EmitStep → Prop
  | .read i => s.phase i = .waiting → ∀ prevHash,
      EmitState.readTip env s.files (calls i) = .ok prevHash →
      ∀ q, writePath env.host ((calls i).scopeIn env) = .ok q →
        getLastHash s.files q = .ok prevHash ∧ q.Plain
  | .append i => ∀ prevHash seen, s.phase i = .holding prevHash seen →
      EmitState.target env s.files (calls i) = seen
  | .giveUp _ => True

/-- The files are chains, and every hash that a call holds is the end of what
its file held when it was read. -/
structure ConcurrentInv (env : LedgerEnv) (calls : ℕ → EmitCall)
    (s : EmitState) : Prop where
  ledger : LedgerInv env s.files
  held : ∀ i prevHash seen, s.phase i = .holding prevHash seen →
    ∀ q, writePath env.host ((calls i).scopeIn env) = .ok q →
      prevHash = lastId seen ∧ q.Plain

section Runs

variable {env : LedgerEnv} {calls : ℕ → EmitCall} {s : EmitState}

theorem ConcurrentInv.moveTo_over
    (hinv : ConcurrentInv env calls s) {files : Files}
    (hfiles : LedgerInv env files) (i : ℕ) :
    ConcurrentInv env calls { s.moveTo i .over with files := files } := by
  refine ⟨hfiles, ?_⟩
  intro j prevHash seen hphase
  by_cases hj : j = i
  · subst hj
    simp [EmitState.moveTo] at hphase
  · simp only [EmitState.moveTo, Function.update_of_ne hj] at hphase
    exact hinv.held j prevHash seen hphase

theorem getLastHash_ok
    {files : Files} {path : LedgerPath} {prevHash : PyVal}
    (h : getLastHash files path = .ok prevHash) :
    prevHash = lastId ((lookupEntry path files).getD []) := by
  unfold getLastHash readFile at h
  split_ifs at h with hexists
  · cases hlookup : lookupEntry path files with
    | none =>
        rw [hlookup] at h
        cases h
    | some events =>
        rw [hlookup] at h
        exact (Except.ok.inj h).symm
  · have hnone : lookupEntry path files = none := by
      cases hlookup : lookupEntry path files with
      | none => rfl
      | some events => simp [pathExists, hlookup] at hexists
    rw [hnone]
    exact (Except.ok.inj h).symm

theorem ConcurrentInv.read
    (hinv : ConcurrentInv env calls s) {i : ℕ}
    (hguard : Unraced env calls s (.read i)) :
    ConcurrentInv env calls (s.step env calls (.read i)) := by
  simp only [EmitState.step]
  split
  next hwaiting =>
    split
    next prevHash hread =>
      refine ⟨hinv.ledger, ?_⟩
      intro j hash seen hphase q hq
      by_cases hj : j = i
      · subst hj
        simp only [EmitState.moveTo, Function.update_self,
          Phase.holding.injEq] at hphase
        obtain ⟨rfl, rfl⟩ := hphase
        obtain ⟨hlast, hplain⟩ := hguard hwaiting _ hread q hq
        refine ⟨?_, hplain⟩
        rw [EmitState.target, hq]
        exact getLastHash_ok hlast
      · simp only [EmitState.moveTo, Function.update_of_ne hj] at hphase
        exact hinv.held j hash seen hphase q hq
    next => exact hinv.moveTo_over hinv.ledger i
  next => exact hinv

theorem ConcurrentInv.append
    (hinv : ConcurrentInv env calls s) {i : ℕ}
    (hguard : Unraced env calls s (.append i)) :
    ConcurrentInv env calls (s.step env calls (.append i)) := by
  simp only [EmitState.step]
  split
  next prevHash seen hholding =>
    split
    next files happend =>
      refine hinv.moveTo_over (ledgerInv_append hinv.ledger ?_ happend) i
      intro q hq
      obtain ⟨hlast, hplain⟩ := hinv.held i prevHash seen hholding q hq
      have hseen := hguard prevHash seen hholding
      have hq' : writePath env.host ((calls i).scopeIn env) = .ok q := hq
      rw [EmitState.target, hq'] at hseen
      exact ⟨by rw [hlast, ← hseen], hplain⟩
    next => exact hinv.moveTo_over hinv.ledger i
  next => exact hinv

theorem ConcurrentInv.giveUp (hinv : ConcurrentInv env calls s) (i : ℕ) :
    ConcurrentInv env calls (s.step env calls (.giveUp i)) := by
  simp only [EmitState.step]
  split
  next => exact hinv.moveTo_over hinv.ledger i
  next => exact hinv

end Runs

/-- In every interleaving in which no call appends to a file between another
call's read of its end and that call's append, the ledger is accepted. -/
theorem concurrent_emits_accepted
    (env : LedgerEnv) (calls : ℕ → EmitCall) (steps : List EmitStep)
    (hguard : (emitSteps env calls).Guarded (Unraced env calls) .start steps) :
    LedgerAccepted env ((emitSteps env calls).final .start steps).files := by
  have hinv : ConcurrentInv env calls
      ((emitSteps env calls).final .start steps) := by
    refine Machine.invariant_of_guarded
      (fun _ s => ConcurrentInv env calls s) ?_ ?_ steps hguard
    · refine ⟨⟨?_, List.forall_mem_nil _⟩, ?_⟩
      · intro path events hevents
        cases hevents
      · intro i prevHash seen hphase
        cases hphase
    · intro _ s e hs he
      cases e with
      | read i => exact hs.read he
      | append i => exact hs.append he
      | giveUp i => exact hs.giveUp i
  exact ledgerAccepted_of_inv hinv.ledger

/-! ### Calls one after the other -/

section Sequential

variable {env : LedgerEnv} {calls : ℕ → EmitCall} {s : EmitState}

theorem unraced_read
    {i : ℕ} {path : LedgerPath}
    (hlookup : lookupPath env.host ((calls i).scopeIn env) = .ok path)
    (hwrite : writePath env.host ((calls i).scopeIn env) = .ok path)
    (hplain : path.Plain) :
    Unraced env calls s (.read i) := by
  intro _ prevHash hread q hq
  obtain rfl := Except.ok.inj (hwrite.symm.trans hq)
  unfold EmitState.readTip at hread
  split_ifs at hread
  rw [hlookup] at hread
  exact ⟨hread, hplain⟩

theorem unraced_append {i : ℕ} (hwaiting : s.phase i = .waiting) :
    Unraced env calls (s.step env calls (.read i)) (.append i) := by
  intro prevHash seen hphase
  simp only [EmitState.step, hwaiting] at hphase ⊢
  cases hread : EmitState.readTip env s.files (calls i) with
  | error e => simp [hread, EmitState.moveTo] at hphase
  | ok tip =>
      simp only [hread, EmitState.moveTo, Function.update_self,
        Phase.holding.injEq] at hphase
      exact hphase.2

theorem step_phase_of_ne {i j : ℕ} (hne : j ≠ i) :
    ((s.step env calls (.read i)).step env calls (.append i)).phase j =
      s.phase j := by
  have hmove (s : EmitState) (phase : Phase) :
      (s.moveTo i phase).phase j = s.phase j :=
    Function.update_of_ne hne _ _
  have hread : (s.step env calls (.read i)).phase j = s.phase j := by
    simp only [EmitState.step]
    split
    · split
      · exact hmove _ _
      · exact hmove _ _
    · rfl
  rw [← hread]
  generalize s.step env calls (.read i) = t
  simp only [EmitState.step]
  split
  · split
    · exact hmove _ _
    · exact hmove _ _
  · rfl

end Sequential

def twoNotes (i : ℕ) : EmitCall :=
  noteIn (runScope "run") (if i = 0 then "a" else "b")

def oneAfterTheOther : List EmitStep := [.read 0, .append 0, .read 1, .append 1]

theorem concurrent_emits_accepted_in_turn :
    (emitSteps referenceLedger twoNotes).Guarded
        (Unraced referenceLedger twoNotes) .start oneAfterTheOther ∧
      LedgerAccepted referenceLedger
        ((emitSteps referenceLedger twoNotes).final .start
          oneAfterTheOther).files := by
  have hplain : (⟨false, ["run", "x.jsonl"]⟩ : LedgerPath).Plain := by
    unfold LedgerPath.Plain
    decide
  have hread (s : EmitState) (i : ℕ) :
      Unraced referenceLedger twoNotes s (.read i) :=
    unraced_read rfl rfl hplain
  have happend (s : EmitState) (i : ℕ) (hwaiting : s.phase i = .waiting) :
      Unraced referenceLedger twoNotes
        ((emitSteps referenceLedger twoNotes).step s (.read i)).1 (.append i) :=
    unraced_append hwaiting
  have hother (s : EmitState) :
      ((emitSteps referenceLedger twoNotes).step
        ((emitSteps referenceLedger twoNotes).step s (.read 0)).1
          (.append 0)).1.phase 1 = s.phase 1 :=
    step_phase_of_ne (by decide)
  have hguard : (emitSteps referenceLedger twoNotes).Guarded
      (Unraced referenceLedger twoNotes) .start oneAfterTheOther := by
    refine Machine.guarded_cons.mpr ⟨hread _ 0, ?_⟩
    refine Machine.guarded_cons.mpr ⟨happend _ 0 rfl, ?_⟩
    refine Machine.guarded_cons.mpr ⟨hread _ 1, ?_⟩
    refine Machine.guarded_cons.mpr ⟨?_, Machine.guarded_nil⟩
    refine happend _ 1 ?_
    exact hother .start
  exact ⟨hguard, concurrent_emits_accepted referenceLedger twoNotes
    oneAfterTheOther hguard⟩

def bothReadFirst : List EmitStep := [.read 0, .read 1, .append 0, .append 1]

/-- Both calls read the end of the empty file, so both events link to
nothing. -/
theorem concurrent_emits_not_accepted :
    ¬ LedgerAccepted referenceLedger
      ((emitSteps referenceLedger twoNotes).final .start
        bothReadFirst).files := by
  rintro ⟨⟨report, hverify, hok⟩, -⟩
  have hbad : (verifyChain referenceLedger
      ((emitSteps referenceLedger twoNotes).final .start bothReadFirst).files
        none).toOption.map Report.ok = some false := by
    decide +kernel
  rw [hverify] at hbad
  simp [Except.toOption, hok] at hbad

end Hydrogenuine.Ledger
