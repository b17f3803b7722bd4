import Hydrogenuine.Admission.Accounting

/-!
# The preemption matrix

A request looks only at the holder of the lock that it asks for, and requests of
different kinds ask for different locks.  The matrix is enforced along a run exactly
when no request that passes its own checks finds an unexpired lock of another kind
that the matrix sets against it.
-/

namespace Hydrogenuine.Admission

open Support Hydrogenuine.Core Hydrogenuine.Runtime

/-! ## Admitted requests -/

namespace AdmissionController

variable {c : AdmissionController} {host : Host} {now : ℚ} {utc : String}
  {req : AdmissionRequest}

/-- The request passes the checks that `request` makes of it, once the expired
leases are reclaimed. -/
structure Passes
    (host : Host) (c : AdmissionController) (now : ℚ) (utc : String)
    (req : AdmissionRequest) : Prop where
  own : ∀ record, (c.swept now).idempotency.get? req.idempotencyKey = some record →
    record.requestId = req.requestId
  approved : validateApproval host utc req = none
  calm : ((c.swept now).panicActive && req.kind != .panic) = false
  fate : (c.swept now).fate req ≠ .refuse
  room : (c.swept now).atCapacity req = false
  sandbox : (c.swept now).sandboxTaken req = false
  free : (req.kind.singleton && (c.swept now).locks.contains (lockKey req)) = false

theorem place_admitted_iff :
    (c.place now req).1.admitted = true ↔
      c.fate req ≠ .refuse ∧ c.atCapacity req = false ∧
        c.sandboxTaken req = false ∧
        (req.kind.singleton && c.locks.contains (lockKey req)) = false := by
  rcases c.place_cases now req with
    ⟨reason, h⟩ | ⟨-, hcapacity, -, h⟩ | ⟨hfate, hroom, hsandbox, hfree, h⟩
  · rw [h]
    refine iff_of_false (fun h' => by cases h') ?_
    rintro ⟨hfate, hroom, hsandbox, hfree⟩
    have hgrant : c.place now req = c.grant now req := by
      unfold place
      simp only [if_neg hfate, hroom, hsandbox, hfree, if_false, Bool.false_eq_true]
    rw [hgrant] at h
    have hsame : true = false := congrArg (fun decided => decided.1.admitted) h
    cases hsame
  · rw [h]
    refine iff_of_false (fun h' => by cases h') ?_
    rintro ⟨-, hroom, -⟩
    rw [hcapacity] at hroom
    cases hroom
  · rw [h]
    exact iff_of_true rfl ⟨hfate, hroom, hsandbox, hfree⟩

theorem request_admitted_iff :
    (c.request host now utc req).1.admitted = true ↔
      Passes host c now utc req := by
  rcases c.request_cases host now utc req with
    ⟨_, _, _, h, hnot⟩ | ⟨hown, happroved, hcalm, h⟩
  · rw [h]
    exact iff_of_false (fun h' => nomatch h') fun hpasses =>
      hnot ⟨hpasses.own, hpasses.approved, hpasses.calm⟩
  · rw [h, place_admitted_iff]
    constructor
    · rintro ⟨hfate, hroom, hsandbox, hfree⟩
      exact ⟨hown, happroved, hcalm, hfate, hroom, hsandbox, hfree⟩
    · intro hpasses
      exact ⟨hpasses.fate, hpasses.room, hpasses.sandbox, hpasses.free⟩

theorem reclaimExpired_panicActive (c : AdmissionController) (now : ℚ) :
    (c.reclaimExpired now).panicActive = c.panicActive := by
  have hfold : ∀ (entries : List (String × ActiveLock)) (d : AdmissionController),
      (entries.foldl
        (fun c entry =>
          if entry.2.leaseUntil < now then
            c.releaseLock entry.1 entry.2 "admission.refused.lock_lease_expired"
          else c) d).panicActive = d.panicActive := by
    intro entries
    induction entries with
    | nil => exact fun _ => rfl
    | cons entry entries ih =>
        intro d
        rw [List.foldl_cons, ih]
        split
        · rfl
        · rfl
  exact hfold c.locks.entries c

theorem swept_locks_of_unexpired
    (hcounted : Counted c) {key : String} {lock : ActiveLock}
    (hget : c.locks.get? key = some lock) (hlease : ¬ lock.leaseUntil < now) :
    (c.swept now).locks.contains key = true := by
  have hkept : key ∉ c.keysWhere fun lock => decide (lock.leaseUntil < now) := by
    rw [mem_keysWhere]
    rintro ⟨lock', hget', hexpired⟩
    rw [hget] at hget'
    rw [← Option.some.inj hget'] at hexpired
    exact hlease (of_decide_eq_true hexpired)
  rw [Dict.contains, (swept_drops hcounted now).locks, if_neg hkept, hget]
  rfl

/-- The locks of the singleton kinds are under their own keys. -/
def Coherent (c : AdmissionController) : Prop :=
  ∀ key lock, c.locks.get? key = some lock → lock.kind.singleton = true →
    key = lock.kind.text

theorem lockKey_of_singleton (h : req.kind.singleton = true) :
    lockKey req = req.kind.text := by
  unfold lockKey
  cases hkind : req.kind with
  | srpApply => rfl
  | maxAutoRun => rfl
  | melCycle => rfl
  | _ =>
      rw [hkind] at h
      cases h

theorem perform_coherent
    (host : Host) {s : Admitting} (hcounted : s.controller.Counted)
    (hcoherent : s.controller.Coherent) (input : ℚ × Operation) :
    (s.perform host input).1.controller.Coherent := by
  obtain ⟨c₁, hdrops, hgrants, -⟩ := perform_ways host hcounted input.1 input.2
  intro key lock hget hsingleton
  rcases hgrants.locks key lock hget with hold | ⟨req, rfl, hkind⟩
  · rw [hdrops.locks] at hold
    split at hold
    · cases hold
    · exact hcoherent key lock hold hsingleton
  · rw [hkind] at hsingleton ⊢
    exact lockKey_of_singleton hsingleton

/-! ## The matrix along a run -/

/-- The matrix admits a request beside every unexpired lock. -/
def Allows (c : AdmissionController) (now : ℚ) (req : AdmissionRequest) : Prop :=
  ∀ key lock, c.locks.get? key = some lock → ¬ lock.leaseUntil < now →
    arrivingFate (some lock.kind) req.kind c.panicActive = .admits

/-- An unexpired lock of another kind is held that the matrix sets against a
request. -/
def Opposes (c : AdmissionController) (now : ℚ) (req : AdmissionRequest) : Prop :=
  ∃ key lock, c.locks.get? key = some lock ∧ ¬ lock.leaseUntil < now ∧
    lock.kind ≠ req.kind ∧
    arrivingFate (some lock.kind) req.kind c.panicActive ≠ .admits

theorem arrivingFate_self {kind : MutatingKind} {panicActive : Bool}
    (hcalm : (panicActive && kind != .panic) = false)
    (h : arrivingFate (some kind) kind panicActive ≠ .admits) :
    kind.singleton = true := by
  rw [arrivingFate, hcalm] at h
  cases kind with
  | srpApply => rfl
  | melCycle => rfl
  | maxAutoRun => exact absurd rfl h
  | oeaEffect => exact absurd rfl h
  | terCommand => exact absurd rfl h
  | crrRecovery => exact absurd rfl h
  | panic => exact absurd rfl h

theorem Passes.allows_iff
    (hcounted : Counted c) (hcoherent : Coherent c)
    (hpasses : Passes host c now utc req) :
    Allows c now req ↔ ¬ Opposes c now req := by
  have hcalm := hpasses.calm
  rw [swept, purge, reclaimExpired_panicActive] at hcalm
  constructor
  · rintro hallows ⟨key, lock, hget, hlease, -, hfate⟩
    exact hfate (hallows key lock hget hlease)
  · intro hunopposed key lock hget hlease
    by_contra hfate
    by_cases hkind : lock.kind = req.kind
    · rw [hkind] at hfate
      have hsingleton := arrivingFate_self hcalm hfate
      have hkey : key = lockKey req := by
        rw [lockKey_of_singleton hsingleton, ← hkind]
        exact hcoherent key lock hget (hkind ▸ hsingleton)
      have hfree := hpasses.free
      rw [hsingleton, ← hkey, swept_locks_of_unexpired hcounted hget hlease] at hfree
      cases hfree
    · exact hunopposed ⟨key, lock, hget, hlease, hkind, hfate⟩

end AdmissionController

/-- A step that admits a request does so beside locks that the matrix admits it
with. -/
def MatrixEnforced
    (host : Host) (e : Step Admitting (ℚ × Operation) (Option AdmissionDecision)) :
    Prop :=
  ∀ utc req decision, e.input.2.asks host = some (utc, req) →
    e.output = some decision → decision.admitted = true →
      e.before.controller.Allows e.input.1 req

/-- A request that passes its own checks meets no lock that the matrix sets against
it. -/
def Unopposed (host : Host) (s : Admitting) (input : ℚ × Operation) : Prop :=
  ∀ utc req, input.2.asks host = some (utc, req) →
    s.controller.Passes host input.1 utc req →
      ¬ s.controller.Opposes input.1 req

theorem perform_output
    {host : Host} {s : Admitting} {input : ℚ × Operation} {utc : String}
    {req : AdmissionRequest} (hasks : input.2.asks host = some (utc, req)) :
    (s.perform host input).2 =
      some (s.controller.request host input.1 utc req).1 := by
  obtain ⟨now, op⟩ := input
  cases op with
  | request utc' req' =>
      cases hasks
      rfl
  | beginCrrRecovery utc' recoveryId n =>
      cases hasks
      rfl
  | _ => cases hasks

theorem matrixEnforced_iff
    {host : Host} {s : Admitting} (hcounted : s.controller.Counted)
    (hcoherent : s.controller.Coherent) (input : ℚ × Operation) :
    MatrixEnforced host ((admissionMachine host).stepAt s input) ↔
      Unopposed host s input := by
  constructor
  · intro h utc req hasks hpasses
    refine (hpasses.allows_iff hcounted hcoherent).mp ?_
    exact h utc req _ hasks (perform_output hasks)
      (AdmissionController.request_admitted_iff.mpr hpasses)
  · intro h utc req decision hasks houtput hadmitted
    have hdecision := Option.some.inj ((perform_output hasks).symm.trans houtput)
    rw [← hdecision] at hadmitted
    have hpasses := AdmissionController.request_admitted_iff.mp hadmitted
    exact (hpasses.allows_iff hcounted hcoherent).mpr (h utc req hasks hpasses)

/-- The matrix is enforced along a run exactly when no request that passes its own
checks is opposed. -/
theorem matrix_enforced_iff
    (host : Host) (queueCapacity : ℤ) (retentionS defaultLeaseS : ℚ)
    (inputs : List (ℚ × Operation)) :
    (∀ e ∈ (admissionMachine host).trace
        (opened queueCapacity retentionS defaultLeaseS) inputs,
        MatrixEnforced host e) ↔
      (admissionMachine host).Guarded (Unopposed host)
        (opened queueCapacity retentionS defaultLeaseS) inputs := by
  have hinv := @Machine.invariant_around _ _ _ (admissionMachine host)
    (fun s => s.controller.Counted ∧ s.controller.Coherent)
    (opened queueCapacity retentionS defaultLeaseS)
    ⟨opened_counted _ _ _, fun _ _ h => by cases h⟩
    (fun s input h => ⟨Admitting.perform_counted host h.1 input,
      AdmissionController.perform_coherent host h.1 h.2 input⟩) inputs
  refine forall₂_congr fun e he => ?_
  obtain ⟨⟨hcounted, hcoherent⟩, -⟩ := hinv e he
  rw [Machine.mem_trace_eq_stepAt he]
  exact matrixEnforced_iff hcounted hcoherent e.input

def cycleRequest : AdmissionRequest where
  requestId := "mel1"
  kind := .melCycle
  idempotencyKey := "mel1"

def cycleInRecovery : List (ℚ × Operation) :=
  [(0, .beginCrrRecovery "2026-01-01T00:00:00+00:00" (some "crr1") 0),
    (1, .request "2026-01-01T00:00:01+00:00" cycleRequest)]

/-- The cycle is admitted while the lock of the recovery is held. -/
theorem cycleInRecovery_admitted :
    ∃ e ∈ (admissionMachine referenceHost).trace (opened 64 3600 300)
        cycleInRecovery,
      e.output.map AdmissionDecision.admitted = some true ∧
        ¬ MatrixEnforced referenceHost e := by
  have hlock : ((admissionMachine referenceHost).final (opened 64 3600 300)
      (cycleInRecovery.take 1)).controller.locks.get? "crr_recovery" =
        some
          { lockKey := "crr_recovery"
            requestId := "crr1"
            kind := .crrRecovery
            leaseUntil := 300
            idempotencyKey := "crr:crr1" } := by decide +kernel
  have hadmitted : ((admissionMachine referenceHost).stepAt
      ((admissionMachine referenceHost).final (opened 64 3600 300)
        (cycleInRecovery.take 1))
      (1, .request "2026-01-01T00:00:01+00:00" cycleRequest)).output.map
        AdmissionDecision.admitted = some true := by decide +kernel
  refine ⟨_, List.mem_cons_of_mem _ List.mem_cons_self, hadmitted, ?_⟩
  intro henforced
  obtain ⟨decision, houtput, hdecision⟩ := Option.map_eq_some_iff.mp hadmitted
  have hallows := henforced _ cycleRequest decision rfl houtput hdecision
  have hfate := hallows "crr_recovery" _ hlock (by decide +kernel)
  revert hfate
  decide +kernel

end Hydrogenuine.Admission
