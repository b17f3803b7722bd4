import Hydrogenuine.Admission.Accounting

/-!
# Singleton locks and panic

A token holds its lock key from its admission until it is completed or released,
as long as its lease runs.  The controller releases a lock for every token that
carries the request id of the lock, and a retried request carries the id of its
first attempt: the late completion of the first attempt releases the lock of the
second.  A singleton key has one holder along the runs in which a lock is only
released for the token that it was granted with.
-/

namespace Hydrogenuine.Admission

open Support Hydrogenuine.Core Hydrogenuine.Runtime

/-! ## Actions -/

/-- An operation, or a reclaim of the expired locks by itself. -/
inductive Action where
  | operation (op : Operation)
  | reclaim

def Action.closes : Action → Option AdmissionToken
  | .operation op => op.closes
  | .reclaim => none

def Action.assertsPanic : Action → Prop
  | .operation (.assertPanic _) => True
  | _ => False

/-- The controller after an action, and the decision about a request. -/
def AdmissionController.act
    (host : Host) (c : AdmissionController) (now : ℚ) :
    Action → AdmissionController × Option AdmissionDecision
  | .operation op => c.perform host now op
  | .reclaim => (c.reclaimExpired now, none)

/-- The controller and the tokens that were admitted and neither completed nor
released since. -/
structure Holding where
  controller : AdmissionController
  unreleased : List AdmissionToken := []

namespace Holding

def holders (s : Holding) (now : ℚ) (key : String) : List AdmissionToken :=
  s.unreleased.filter fun token =>
    decide (token.lockKey = key) && decide (now ≤ token.leaseUntil)

def kept (s : Holding) (action : Action) : List AdmissionToken :=
  match action.closes with
  | some token => s.unreleased.erase token
  | none => s.unreleased

def act (host : Host) (s : Holding) (input : ℚ × Action) :
    Holding × Option AdmissionDecision :=
  let done := s.controller.act host input.1 input.2
  ({ controller := done.1
     unreleased := s.kept input.2 ++
      (done.2.bind AdmissionDecision.token).toList }, done.2)

end Holding

def holdingMachine (host : Host) :
    Machine Holding (ℚ × Action) (Option AdmissionDecision) where
  step := Holding.act host

/-! ## Keys -/

def singletonKey (key : String) : Bool :=
  key == "srp_apply" || key == "max_auto_run" || key == "mel_cycle" ||
    startsWith key "ter:"

def sandboxKey (sandbox : String) : String := "ter:" ++ sandbox

theorem startsWith_ter_iff (key : String) :
    startsWith key "ter:" = true ↔ ∃ sandbox, key = sandboxKey sandbox := by
  constructor
  · intro h
    obtain ⟨rest, hrest⟩ := (startsWith_iff key "ter:").mp h
    refine ⟨String.ofList rest, ?_⟩
    apply String.toList_inj.mp
    rw [sandboxKey, String.toList_append, ← hrest]
    exact congrArg ("ter:".toList ++ ·) String.toList_ofList.symm
  · rintro ⟨sandbox, rfl⟩
    exact startsWith_append "ter:" sandbox

theorem afterColon_sandboxKey (sandbox : String) :
    afterColon (sandboxKey sandbox) = sandbox := by
  rw [afterColon, sandboxKey, String.toList_append]
  exact String.ofList_toList

theorem sandboxKey_injective : Function.Injective sandboxKey := by
  intro a b h
  exact (String.append_right_inj "ter:").mp h

theorem singletonKey_append_eq_false
    {start : String} (rest : String)
    (hstart : start.toList.isPrefixOf "ter:".toList = false)
    (hter : "ter:".toList.isPrefixOf start.toList = false)
    (hfixed : ∀ key ∈ ["srp_apply", "max_auto_run", "mel_cycle"],
      startsWith key start = false) :
    singletonKey (start ++ rest) = false := by
  have hne : ∀ key ∈ ["srp_apply", "max_auto_run", "mel_cycle"],
      start ++ rest ≠ key := by
    rintro key hkey rfl
    have hstarts := hfixed _ hkey
    rw [startsWith_append] at hstarts
    cases hstarts
  simp only [List.mem_cons, List.not_mem_nil, or_false, forall_eq_or_imp,
    forall_eq] at hne
  simp only [singletonKey, beq_eq_false_iff_ne.mpr hne.1,
    beq_eq_false_iff_ne.mpr hne.2.1, beq_eq_false_iff_ne.mpr hne.2.2,
    startsWith_append_eq_false rest hstart hter, Bool.or_self]

theorem singletonKey_lockKey
    {req : AdmissionRequest} (h : singletonKey (lockKey req) = true) :
    (req.kind.singleton = true ∧ startsWith (lockKey req) "ter:" = false) ∨
      (req.kind = .terCommand ∧
        ∃ sandbox, given req.sandboxId = some sandbox ∧
          lockKey req = sandboxKey sandbox) := by
  have hother : ∀ start rest : String,
      start.toList.isPrefixOf "ter:".toList = false →
      "ter:".toList.isPrefixOf start.toList = false →
      (∀ key ∈ ["srp_apply", "max_auto_run", "mel_cycle"],
        startsWith key start = false) →
        ¬ singletonKey (start ++ rest) = true := by
    intro start rest hstart hter hfixed
    rw [singletonKey_append_eq_false rest hstart hter hfixed]
    nofun
  unfold lockKey at h ⊢
  cases hkind : req.kind with
  | srpApply =>
      have hfixed : startsWith "srp_apply" "ter:" = false := by decide
      exact Or.inl ⟨rfl, hfixed⟩
  | maxAutoRun =>
      have hfixed : startsWith "max_auto_run" "ter:" = false := by decide
      exact Or.inl ⟨rfl, hfixed⟩
  | melCycle =>
      have hfixed : startsWith "mel_cycle" "ter:" = false := by decide
      exact Or.inl ⟨rfl, hfixed⟩
  | crrRecovery =>
      have hrecovery : ¬ singletonKey "crr_recovery" = true := by decide
      rw [hkind] at h
      exact absurd h hrecovery
  | panic =>
      rw [hkind] at h
      exact absurd h
        (hother ("panic" ++ ":") _ (by decide) (by decide) (by decide))
  | terCommand =>
      rw [hkind] at h
      cases hgiven : given req.sandboxId with
      | some sandbox => exact Or.inr ⟨rfl, sandbox, rfl, rfl⟩
      | none =>
          rw [hgiven] at h
          exact absurd h
            (hother ("ter_command" ++ ":") _ (by decide) (by decide) (by decide))
  | oeaEffect =>
      rw [hkind] at h
      cases hgiven : given req.capabilityId with
      | some capability =>
          rw [hgiven] at h
          exact absurd h
            (hother "oea:" capability (by decide) (by decide) (by decide))
      | none =>
          rw [hgiven] at h
          exact absurd h
            (hother ("oea_effect" ++ ":") _ (by decide) (by decide) (by decide))

/-! ## What the controller keeps -/

namespace AdmissionController

variable {c c' c'' : AdmissionController} {capacity : ℤ}

def lockOf (token : AdmissionToken) : ActiveLock where
  lockKey := token.lockKey
  requestId := token.requestId
  kind := token.kind
  leaseUntil := token.leaseUntil
  idempotencyKey := token.idempotencyKey

theorem lockOf_injective : Function.Injective lockOf := by
  intro a b h
  cases a
  cases b
  cases h
  rfl

/-- A sandbox whose lock is held is among the sandboxes with a holder. -/
def SandboxesHeld (c : AdmissionController) : Prop :=
  ∀ sandbox, c.locks.contains (sandboxKey sandbox) = true →
    c.terSandboxHolders.contains sandbox = true

def PanicOnly (c : AdmissionController) : Prop :=
  ∀ key lock, c.locks.get? key = some lock → lock.kind = .panic

/-- What holds of the controller along every run. -/
structure Ordered (capacity : ℤ) (c : AdmissionController) : Prop where
  configured : c.queueCapacity = capacity
  counted : c.Counted
  sandboxes : c.SandboxesHeld
  panicked : c.panicActive = true → c.PanicOnly
  room : (c.queue.length : ℤ) ≤ max 0 capacity

/-- Nothing changes but that locks go. -/
structure Sheds (c c' : AdmissionController) : Prop where
  capacity : c'.queueCapacity = c.queueCapacity
  queue : c'.queue = c.queue
  panic : c'.panicActive = c.panicActive
  locks : ∀ key lock, c'.locks.get? key = some lock → c.locks.get? key = some lock
  sandboxes : c.SandboxesHeld → c'.SandboxesHeld

theorem Sheds.refl (c : AdmissionController) : Sheds c c :=
  ⟨rfl, rfl, rfl, fun _ _ h => h, fun h => h⟩

theorem Sheds.trans (h : Sheds c c') (h' : Sheds c' c'') : Sheds c c'' :=
  ⟨h'.capacity.trans h.capacity, h'.queue.trans h.queue, h'.panic.trans h.panic,
    fun key lock hget => h.locks key lock (h'.locks key lock hget),
    fun hheld => h'.sandboxes (h.sandboxes hheld)⟩

theorem Sheds.ordered (h : Sheds c c') (hcounted : c'.Counted)
    (hordered : c.Ordered capacity) : c'.Ordered capacity := by
  refine ⟨h.capacity.trans hordered.configured, hcounted,
    h.sandboxes hordered.sandboxes, ?_, ?_⟩
  · intro hpanic key lock hget
    exact hordered.panicked (h.panic ▸ hpanic) key lock (h.locks key lock hget)
  · rw [h.queue]
    exact hordered.room

theorem releaseLock_sheds
    (c : AdmissionController) (key : String) (active : ActiveLock)
    (reason : String) : Sheds c (c.releaseLock key active reason) := by
  refine ⟨rfl, rfl, rfl, ?_, ?_⟩
  · intro key' lock hget
    rw [releaseLock, Dict.get?_filter, Option.filter_eq_some_iff] at hget
    exact hget.1
  · intro hheld sandbox hcontains
    rw [releaseLock, Dict.contains, Dict.get?_filter, Option.isSome_filter,
      Option.any_eq_true] at hcontains
    obtain ⟨lock, hget, hne⟩ := hcontains
    have hold := hheld sandbox (by rw [Dict.contains, hget]; rfl)
    rw [releaseLock]
    dsimp only
    split
    · rename_i hter
      obtain ⟨sandbox', rfl⟩ := (startsWith_ter_iff key).mp hter
      have hother : sandbox ≠ sandbox' := by
        rintro rfl
        exact of_decide_eq_true hne rfl
      rw [afterColon_sandboxKey, Dict.contains, Dict.get?_filter]
      obtain ⟨holder, hholder⟩ := Option.isSome_iff_exists.mp hold
      simp [hholder, hother]
    · exact hold

theorem foldl_sheds
    {f : AdmissionController → String × ActiveLock → AdmissionController}
    (hf : ∀ c entry, Sheds c (f c entry)) (entries : List (String × ActiveLock))
    (c : AdmissionController) : Sheds c (entries.foldl f c) := by
  induction entries generalizing c with
  | nil => exact Sheds.refl c
  | cons entry entries ih => exact (hf c entry).trans (ih _)

theorem reclaimExpired_sheds (c : AdmissionController) (now : ℚ) :
    Sheds c (c.reclaimExpired now) := by
  refine foldl_sheds (fun c entry => ?_) c.locks.entries c
  split
  · exact releaseLock_sheds c _ _ _
  · exact Sheds.refl c

theorem swept_sheds (c : AdmissionController) (now : ℚ) : Sheds c (c.swept now) :=
  (c.reclaimExpired_sheds now).trans
    ⟨rfl, rfl, rfl, fun _ _ h => h, fun h => h⟩

theorem releaseHeld_sheds
    (c : AdmissionController) (token : AdmissionToken) (reason : String) :
    Sheds c (c.releaseHeld token reason) := by
  unfold releaseHeld
  split
  · split
    · exact releaseLock_sheds c _ _ _
    · exact Sheds.refl c
  · exact Sheds.refl c

theorem complete_sheds
    (c : AdmissionController) (now : ℚ) (token : AdmissionToken)
    (resultRef : String) : Sheds c (c.complete now token resultRef) := by
  have hrecord : Sheds c
      (c.record token.idempotencyKey token.requestId resultRef now) :=
    ⟨rfl, rfl, rfl, fun _ _ h => h, fun h => h⟩
  exact hrecord.trans (releaseHeld_sheds _ token "ok")

theorem complete_locks
    (c : AdmissionController) (now : ℚ) (token : AdmissionToken)
    (resultRef : String) :
    (c.complete now token resultRef).locks = (c.releaseHeld token "ok").locks := by
  have hlocks : (c.record token.idempotencyKey token.requestId resultRef
      now).locks = c.locks := rfl
  unfold complete releaseHeld
  rw [hlocks]
  split
  · split
    · rfl
    · rfl
  · rfl

theorem endCrrRecovery_sheds (c : AdmissionController) :
    Sheds c c.endCrrRecovery := by
  have hflag : Sheds c { c with crrRecoveryActive := false } :=
    ⟨rfl, rfl, rfl, fun _ _ h => h, fun h => h⟩
  unfold endCrrRecovery
  dsimp only
  split
  · exact hflag.trans (releaseLock_sheds _ _ _ _)
  · exact hflag

theorem assertPanic_spec
    (hcounted : c.Counted) (preemptor : String) :
    (c.assertPanic preemptor).2.panicActive = true ∧
      (c.assertPanic preemptor).2.PanicOnly ∧
      (c.assertPanic preemptor).2.queue = c.queue ∧
      (c.assertPanic preemptor).2.queueCapacity = c.queueCapacity ∧
      (c.SandboxesHeld → (c.assertPanic preemptor).2.SandboxesHeld) := by
  have hlocks := (assertPanic_drops hcounted preemptor).locks
  have hsheds : ∀ c₁, Sheds c₁
      (c.locks.entries.foldl (preempted preemptor) c₁) := by
    refine foldl_sheds (fun c entry => ?_) c.locks.entries
    unfold preempted
    split
    · exact Sheds.refl c
    · have hlogged : Sheds c
          { c with
            eventLog := c.eventLog ++
              [admissionDraft "ADM_PREEMPTION_RECEIPTED"
                (PreemptionReceipt.toPayload
                  { preemptor
                    preemptedRequestId := entry.2.requestId
                    preemptedKind := entry.2.kind })] } :=
        ⟨rfl, rfl, rfl, fun _ _ h => h, fun h => h⟩
      exact hlogged.trans (releaseLock_sheds _ _ _ _)
  refine ⟨?_, ?_, ?_, ?_, ?_⟩
  · rw [assertPanic_eq, (hsheds _).panic]
  · intro key lock hget
    rw [hlocks] at hget
    split at hget
    · cases hget
    · rename_i hkey
      by_contra hkind
      exact hkey (mem_keysWhere.mpr ⟨lock, hget, decide_eq_true hkind⟩)
  · rw [assertPanic_eq, (hsheds _).queue]
  · rw [assertPanic_eq, (hsheds _).capacity]
  · intro hheld
    rw [assertPanic_eq]
    exact (hsheds _).sandboxes hheld

/-! ## Requests -/

theorem swept_ordered
    (hordered : c.Ordered capacity) (now : ℚ) : (c.swept now).Ordered capacity := by
  refine (c.swept_sheds now).ordered ?_ hordered
  refine (swept_drops hordered.counted now).counted hordered.counted ?_
  intro key hkey
  obtain ⟨lock, hget, -⟩ := mem_keysWhere.mp hkey
  rw [Dict.contains, hget]
  rfl

theorem grant_get?
    (c : AdmissionController) (now : ℚ) (req : AdmissionRequest) (key : String) :
    (c.grant now req).2.locks.get? key =
      if key = lockKey req then
        some
          { lockKey := lockKey req
            requestId := req.requestId
            kind := req.kind
            leaseUntil := now + c.defaultLeaseS
            idempotencyKey := req.idempotencyKey }
      else c.locks.get? key :=
  Dict.get?_set _ _ _ _

theorem grant_ordered
    (hordered : c.Ordered capacity) (now : ℚ) {req : AdmissionRequest}
    (hpanic : (c.panicActive && req.kind != .panic) = false) :
    (c.grant now req).2.Ordered capacity := by
  refine ⟨hordered.configured, (grant_grants c now req).counted hordered.counted,
    ?_, ?_, hordered.room⟩
  · intro sandbox hcontains
    rw [grant_locks, Bool.or_eq_true, decide_eq_true_eq] at hcontains
    rw [grant]
    dsimp only
    rcases hcontains with hkey | hheld
    · have hsingleton : singletonKey (lockKey req) = true := by
        rw [← hkey, singletonKey, sandboxKey, startsWith_append, Bool.or_true]
      rcases singletonKey_lockKey hsingleton with
        ⟨-, hfixed⟩ | ⟨hkind, sandbox', hgiven, hkey'⟩
      · rw [← hkey, sandboxKey, startsWith_append] at hfixed
        cases hfixed
      · rw [hkind, hgiven, Dict.contains_set,
          sandboxKey_injective (hkey.trans hkey'), decide_eq_true rfl,
          Bool.true_or]
    · have hold := hordered.sandboxes sandbox hheld
      split
      · rw [Dict.contains_set, hold, Bool.or_true]
      · exact hold
  · intro hactive key lock hget
    rw [grant_get?] at hget
    split at hget
    · rw [← Option.some.inj hget]
      have hboth : (true && req.kind != .panic) = false := hactive ▸ hpanic
      simpa using hboth
    · exact hordered.panicked hactive key lock hget

theorem request_ordered
    (hordered : c.Ordered capacity) (host : Host) (now : ℚ) (utc : String)
    (req : AdmissionRequest) :
    (c.request host now utc req).2.Ordered capacity := by
  have hswept := swept_ordered hordered now
  have hsame : ∀ {c₁ : AdmissionController}, (c.swept now).locks = c₁.locks →
      (c.swept now).capabilityCounts = c₁.capabilityCounts →
      (c.swept now).terSandboxHolders = c₁.terSandboxHolders →
      (c.swept now).panicActive = c₁.panicActive →
      c₁.queueCapacity = capacity → (c₁.queue.length : ℤ) ≤ max 0 capacity →
        c₁.Ordered capacity := by
    intro c₁ hlocks hcounts hsandboxes hpanic hconfigured hroom
    refine ⟨hconfigured, (grants_none hlocks.symm hcounts.symm).counted
      hswept.counted, ?_, ?_, hroom⟩
    · intro sandbox hcontains
      rw [← hlocks] at hcontains
      rw [← hsandboxes]
      exact hswept.sandboxes sandbox hcontains
    · intro hactive key lock hget
      rw [← hlocks] at hget
      exact hswept.panicked (hpanic.trans hactive) key lock hget
  rcases c.request_cases host now utc req with ⟨_, _, _, h, -⟩ | ⟨-, -, hpanic, h⟩
  · rw [h]
    exact hsame rfl rfl rfl rfl hswept.configured hswept.room
  · rw [h]
    rcases (c.swept now).place_cases now req with
      ⟨reason, hp⟩ | ⟨-, -, hqueue, hp⟩ | ⟨-, -, -, -, hp⟩
    · rw [hp]
      exact hsame rfl rfl rfl rfl hswept.configured hswept.room
    · rw [hp]
      refine hsame rfl rfl rfl rfl hswept.configured ?_
      have hbelow := hswept.configured ▸ hqueue
      rw [enqueue, List.length_append, List.length_singleton]
      push_cast
      omega
    · rw [hp]
      exact grant_ordered hswept now hpanic

theorem assertPanic_ordered
    (hordered : c.Ordered capacity) (preemptor : String) :
    (c.assertPanic preemptor).2.Ordered capacity := by
  obtain ⟨-, honly, hqueue, hconfigured, hsandboxes⟩ :=
    assertPanic_spec hordered.counted preemptor
  refine ⟨hconfigured.trans hordered.configured, ?_,
    hsandboxes hordered.sandboxes, fun _ => honly, ?_⟩
  · refine (assertPanic_drops hordered.counted preemptor).counted
      hordered.counted fun key hkey => ?_
    obtain ⟨lock, hget, -⟩ := mem_keysWhere.mp hkey
    rw [Dict.contains, hget]
    rfl
  · rw [hqueue]
    exact hordered.room

theorem act_ordered
    (hordered : c.Ordered capacity) (host : Host) (now : ℚ) (action : Action) :
    (c.act host now action).1.Ordered capacity := by
  have hcounted : (c.act host now action).1.Counted := by
    cases action with
    | operation op =>
        exact Admitting.perform_counted host (s := { controller := c })
          hordered.counted (now, op)
    | reclaim =>
        have hswept := (swept_ordered hordered now).counted
        exact ⟨hswept.nonneg, hswept.held⟩
  cases action with
  | reclaim => exact (c.reclaimExpired_sheds now).ordered hcounted hordered
  | operation op =>
      cases op with
      | request utc req => exact request_ordered hordered host now utc req
      | complete token resultRef =>
          exact (c.complete_sheds now token resultRef).ordered hcounted hordered
      | release token =>
          exact (c.releaseHeld_sheds token _).ordered hcounted hordered
      | assertPanic preemptor => exact assertPanic_ordered hordered preemptor
      | beginCrrRecovery utc recoveryId n =>
          have hrequest := request_ordered hordered host now utc
            (recoveryRequest host recoveryId n)
          simp only [act, perform, beginCrrRecovery]
          split
          · exact ⟨hrequest.configured,
              ⟨hrequest.counted.nonneg, hrequest.counted.held⟩,
              hrequest.sandboxes, hrequest.panicked, hrequest.room⟩
          · exact hrequest
      | endCrrRecovery =>
          exact c.endCrrRecovery_sheds.ordered hcounted hordered
      | drainQueues n =>
          exact ⟨hordered.configured,
            ⟨hordered.counted.nonneg, hordered.counted.held⟩,
            hordered.sandboxes, hordered.panicked, le_max_left _ _⟩

/-! ## What an action does to the singleton locks -/

/-- What an action that closes no token does: a panic stays on, without a panic the
singleton locks stay whose leases run, and a token of a singleton key is granted
where there is no such lock, and without a panic. -/
structure Serves
    (now : ℚ) (c : AdmissionController) (granted : Option AdmissionToken)
    (c' : AdmissionController) : Prop where
  panics : c.panicActive = true → c'.panicActive = true
  kept : c'.panicActive = false → ∀ key lock, singletonKey key = true →
    c.locks.get? key = some lock → now ≤ lock.leaseUntil →
      c'.locks.get? key = some lock
  granted : ∀ token, granted = some token → singletonKey token.lockKey = true →
    c.panicActive = false ∧ c'.locks.get? token.lockKey = some (lockOf token) ∧
      ∀ lock, c.locks.get? token.lockKey = some lock → lock.leaseUntil < now

variable {now : ℚ}

theorem serves_none (hpanics : c.panicActive = true → c'.panicActive = true)
    (hkept : c'.panicActive = false → ∀ key lock, singletonKey key = true →
      c.locks.get? key = some lock → now ≤ lock.leaseUntil →
        c'.locks.get? key = some lock) : Serves now c none c' :=
  ⟨hpanics, hkept, fun _ h => by cases h⟩

theorem swept_get?
    (hcounted : c.Counted) {key : String} {lock : ActiveLock} :
    (c.swept now).locks.get? key = some lock ↔
      c.locks.get? key = some lock ∧ now ≤ lock.leaseUntil := by
  rw [(swept_drops hcounted now).locks]
  constructor
  · intro hget
    split at hget
    · cases hget
    · rename_i hkey
      refine ⟨hget, not_lt.mp fun hexpired => hkey ?_⟩
      exact mem_keysWhere.mpr ⟨lock, hget, decide_eq_true hexpired⟩
  · rintro ⟨hget, hlease⟩
    rw [if_neg]
    · exact hget
    · intro hkey
      obtain ⟨lock', hget', hexpired⟩ := mem_keysWhere.mp hkey
      rw [hget, Option.some.injEq] at hget'
      rw [← hget'] at hexpired
      exact not_lt.mpr hlease (of_decide_eq_true hexpired)

theorem grant_serves
    (hcounted : c.Counted) {req : AdmissionRequest}
    (hsandboxes : (c.swept now).SandboxesHeld)
    (hpanic : ((c.swept now).panicActive && req.kind != .panic) = false)
    (hsandbox : (c.swept now).sandboxTaken req = false)
    (hheld : (req.kind.singleton &&
      (c.swept now).locks.contains (lockKey req)) = false) :
    Serves now c ((c.swept now).grant now req).1.token
      ((c.swept now).grant now req).2 := by
  have hfree : singletonKey (lockKey req) = true →
      (c.swept now).locks.get? (lockKey req) = none := by
    intro hsingleton
    rcases singletonKey_lockKey hsingleton with
      ⟨hkind, -⟩ | ⟨hkind, sandbox, hgiven, hkey⟩
    · rw [hkind, Bool.true_and] at hheld
      exact Option.isNone_iff_eq_none.mp (by simpa [Dict.contains] using hheld)
    · rw [sandboxTaken, hkind, hgiven] at hsandbox
      by_contra hlocked
      have hcontains : (c.swept now).locks.contains (sandboxKey sandbox) =
          true := by
        rw [← hkey]
        exact Option.isSome_iff_ne_none.mpr hlocked
      have htaken := hsandboxes sandbox hcontains
      exact absurd (htaken.symm.trans hsandbox) (by decide)
  have hsame : (c.swept now).panicActive = c.panicActive :=
    (c.swept_sheds now).panic
  refine ⟨fun hactive => hsame.trans hactive, ?_, ?_⟩
  · intro _ key lock hsingleton hget hlease
    have hswept := (swept_get? hcounted).mpr ⟨hget, hlease⟩
    rw [grant_get?, if_neg]
    · exact hswept
    · rintro rfl
      rw [hfree hsingleton] at hswept
      cases hswept
  · rintro token ⟨⟩ hsingleton
    refine ⟨?_, ?_, ?_⟩
    · rw [← hsame]
      have hkind : (req.kind != .panic) = true := by
        rcases singletonKey_lockKey hsingleton with ⟨hkind, -⟩ | ⟨hkind, -⟩
        · cases hreq : req.kind with
          | panic => rw [hreq] at hkind; cases hkind
          | srpApply => rfl
          | maxAutoRun => rfl
          | melCycle => rfl
          | oeaEffect => rfl
          | terCommand => rfl
          | crrRecovery => rfl
        · rw [hkind]
          rfl
      rw [hkind, Bool.and_true] at hpanic
      exact hpanic
    · exact (grant_get? _ _ _ _).trans (if_pos rfl)
    · intro lock hget
      by_contra hlease
      have hswept := (swept_get? hcounted).mpr ⟨hget, not_lt.mp hlease⟩
      rw [hfree hsingleton] at hswept
      cases hswept

theorem request_serves
    (hordered : c.Ordered capacity) (host : Host) (now : ℚ) (utc : String)
    (req : AdmissionRequest) :
    Serves now c (c.request host now utc req).1.token
      (c.request host now utc req).2 := by
  have hsame : ∀ {c₁ : AdmissionController}, (c.swept now).locks = c₁.locks →
      (c.swept now).panicActive = c₁.panicActive → Serves now c none c₁ := by
    intro c₁ hlocks hpanic
    refine serves_none ?_ ?_
    · intro hactive
      rw [← hpanic, (c.swept_sheds now).panic, hactive]
    · intro _ key lock _ hget hlease
      rw [← hlocks]
      exact (swept_get? hordered.counted).mpr ⟨hget, hlease⟩
  rcases c.request_cases host now utc req with ⟨_, _, _, h, -⟩ | ⟨-, -, hpanic, h⟩
  · rw [h]
    exact hsame rfl rfl
  · rw [h]
    rcases (c.swept now).place_cases now req with
      ⟨reason, hp⟩ | ⟨-, -, -, hp⟩ | ⟨-, -, hsandbox, hheld, hp⟩
    · rw [hp]
      exact hsame rfl rfl
    · rw [hp]
      exact hsame rfl rfl
    · rw [hp]
      exact grant_serves hordered.counted
        (swept_ordered hordered now).sandboxes hpanic hsandbox hheld

theorem act_serves
    (hordered : c.Ordered capacity) (host : Host) (now : ℚ) {action : Action}
    (hcloses : action.closes = none) :
    Serves now c ((c.act host now action).2.bind AdmissionDecision.token)
      (c.act host now action).1 := by
  cases action with
  | reclaim =>
      refine serves_none (fun h => (c.reclaimExpired_sheds now).panic.trans h) ?_
      intro _ key lock _ hget hlease
      exact (swept_get? hordered.counted).mpr ⟨hget, hlease⟩
  | operation op =>
      cases op with
      | request utc req => exact request_serves hordered host now utc req
      | complete token resultRef => cases hcloses
      | release token => cases hcloses
      | assertPanic preemptor =>
          have hspec := assertPanic_spec hordered.counted preemptor
          refine serves_none (fun _ => hspec.1) fun hquiet => ?_
          rw [act, perform, hspec.1] at hquiet
          cases hquiet
      | beginCrrRecovery utc recoveryId n =>
          have hrequest := request_serves hordered host now utc
            (recoveryRequest host recoveryId n)
          simp only [act, perform, beginCrrRecovery]
          split
          · exact ⟨hrequest.panics, hrequest.kept, hrequest.granted⟩
          · exact hrequest
      | endCrrRecovery =>
          refine serves_none (fun h => c.endCrrRecovery_sheds.panic.trans h) ?_
          intro _ key lock hsingleton hget _
          rw [act, perform, (endCrrRecovery_drops hordered.counted).locks, if_neg]
          · exact hget
          · intro hkey
            split at hkey
            · rw [List.mem_singleton.mp hkey] at hsingleton
              exact absurd hsingleton (by decide)
            · cases hkey
      | drainQueues n => exact serves_none id fun _ _ _ _ hget _ => hget

end AdmissionController

/-! ## One holder -/

namespace Holding

open AdmissionController

variable {host : Host} {s : Holding} {now now' : ℚ} {key : String}

/-- A singleton key has one holder at most, and without a panic the lock that the
holder was granted with. -/
structure OneHolder (now : ℚ) (s : Holding) : Prop where
  single : ∀ key, singletonKey key = true → (s.holders now key).length ≤ 1
  locked : s.controller.panicActive = false →
    ∀ key, singletonKey key = true → ∀ token ∈ s.holders now key,
      s.controller.locks.get? key = some (lockOf token)

/-- If the token that is closed carries the request id of a singleton lock, then it
is the token that the lock was granted with. -/
def ReleasesOwn (s : Holding) (input : ℚ × Action) : Prop :=
  ∀ token lock, input.2.closes = some token →
    singletonKey token.lockKey = true →
    s.controller.locks.get? token.lockKey = some lock →
    lock.requestId = token.requestId → lock = lockOf token

theorem mem_holders {token : AdmissionToken} :
    token ∈ s.holders now key ↔
      token ∈ s.unreleased ∧ token.lockKey = key ∧ now ≤ token.leaseUntil := by
  simp [holders]

theorem holders_later (h : now ≤ now') (key : String) :
    (s.holders now' key).Sublist (s.holders now key) := by
  unfold holders
  refine List.monotone_filter_right _ ?_
  intro token htoken
  rw [Bool.and_eq_true, decide_eq_true_eq, decide_eq_true_eq] at htoken ⊢
  exact ⟨htoken.1, h.trans htoken.2⟩

theorem OneHolder.later (hs : s.OneHolder now) (h : now ≤ now') :
    s.OneHolder now' :=
  ⟨fun key hkey => (holders_later h key).length_le.trans (hs.single key hkey),
    fun hquiet key hkey token htoken =>
      hs.locked hquiet key hkey token ((holders_later h key).subset htoken)⟩

theorem OneHolder.serves
    {c' : AdmissionController} {granted : Option AdmissionToken}
    (hs : s.OneHolder now) (hserves : Serves now s.controller granted c') :
    OneHolder now
      { controller := c', unreleased := s.unreleased ++ granted.toList } := by
  have hsplit : ∀ key, holders
      { controller := c', unreleased := s.unreleased ++ granted.toList } now key =
        s.holders now key ++ granted.toList.filter fun token =>
          decide (token.lockKey = key) && decide (now ≤ token.leaseUntil) :=
    fun key => List.filter_append _ _
  have hfree : ∀ token, granted = some token →
      singletonKey token.lockKey = true → s.holders now token.lockKey = [] := by
    intro token hgranted hsingleton
    obtain ⟨hquiet, -, hexpired⟩ := hserves.granted token hgranted hsingleton
    refine List.eq_nil_iff_forall_not_mem.mpr fun holder hholder => ?_
    have hlock := hs.locked hquiet token.lockKey hsingleton holder hholder
    exact absurd (hexpired _ hlock) (not_lt.mpr (mem_holders.mp hholder).2.2)
  constructor
  · intro key hsingleton
    rw [hsplit, List.length_append]
    have hbefore := hs.single key hsingleton
    cases granted with
    | none => exact hbefore
    | some token =>
        by_cases hkey : token.lockKey = key
        · have hnone := hfree token rfl (hkey ▸ hsingleton)
          rw [hkey] at hnone
          rw [hnone, List.length_nil, zero_add]
          exact List.length_filter_le _ _
        · have hother : (Option.some token).toList.filter (fun token =>
              decide (token.lockKey = key) && decide (now ≤ token.leaseUntil)) =
                [] := by
            simp [hkey]
          rw [hother]
          exact hbefore
  · intro hquiet key hsingleton holder hholder
    rw [hsplit, List.mem_append] at hholder
    rcases hholder with hold | hnew
    · have hbefore : s.controller.panicActive = false := by
        by_contra hactive
        rw [hserves.panics (Bool.not_eq_false _ ▸ hactive)] at hquiet
        cases hquiet
      exact hserves.kept hquiet key _ hsingleton
        (hs.locked hbefore key hsingleton holder hold) (mem_holders.mp hold).2.2
    · obtain ⟨hmem, hholds⟩ := List.mem_filter.mp hnew
      rw [Bool.and_eq_true, decide_eq_true_eq] at hholds
      have hgranted : granted = some holder := by simpa using hmem
      rw [← hholds.1]
      exact (hserves.granted holder hgranted (hholds.1 ▸ hsingleton)).2.1

/-- Closing a token takes it from the holders; the lock goes with the holder that it
was granted to. -/
theorem OneHolder.closes
    {token : AdmissionToken} (reason : String) (c' : AdmissionController)
    (hs : s.OneHolder now) (hcounted : s.controller.Counted)
    (hown : ∀ lock, singletonKey token.lockKey = true →
      s.controller.locks.get? token.lockKey = some lock →
      lock.requestId = token.requestId → lock = lockOf token)
    (hlocks : c'.locks = (s.controller.releaseHeld token reason).locks)
    (hpanic : c'.panicActive = s.controller.panicActive) :
    OneHolder now { controller := c', unreleased := s.unreleased.erase token } := by
  have hfewer : ∀ key, (holders
      { controller := c', unreleased := s.unreleased.erase token } now key).Sublist
        (s.holders now key) :=
    fun key => List.erase_sublist.filter _
  refine ⟨fun key hkey => (hfewer key).length_le.trans (hs.single key hkey), ?_⟩
  intro hquiet key hsingleton holder hholder
  have hbefore := hs.locked (hpanic ▸ hquiet) key hsingleton holder
    ((hfewer key).subset hholder)
  rw [hlocks, (releaseHeld_drops hcounted token reason).locks, if_neg]
  · exact hbefore
  · intro hkey
    split at hkey
    · rename_i hheld
      obtain rfl := List.mem_singleton.mp hkey
      rw [heldBy, hbefore, Option.any_some, beq_iff_eq] at hheld
      have hsame := lockOf_injective (hown _ hsingleton hbefore hheld)
      subst hsame
      have hone := hs.single holder.lockKey hsingleton
      have hboth : (s.holders now holder.lockKey).count holder ≤ 1 :=
        List.count_le_length.trans hone
      have hafter : 0 < (s.unreleased.erase holder).count holder :=
        List.count_pos_iff.mpr (mem_holders.mp hholder).1
      have hcount : (s.holders now holder.lockKey).count holder =
          s.unreleased.count holder :=
        List.count_filter (by
          have hlease := (mem_holders.mp hholder).2.2
          simp [hlease])
      rw [List.count_erase_self] at hafter
      omega
    · cases hkey

variable {capacity : ℤ}

/-- An action keeps one holder for each singleton key, if it releases no lock of
another token. -/
theorem act_oneHolder {input : ℚ × Action} (hs : s.OneHolder now)
    (hordered : s.controller.Ordered capacity) (hclock : now ≤ input.1)
    (hown : s.ReleasesOwn input) :
    (s.act host input).1.OneHolder input.1 := by
  have hlater := hs.later hclock
  obtain ⟨now', action⟩ := input
  cases hcloses : action.closes with
  | none =>
      have hserved := hlater.serves
        (act_serves hordered host now' hcloses)
      simpa only [Holding.act, kept, hcloses] using hserved
  | some token =>
      have hown' := fun lock => hown token lock hcloses
      cases action with
      | reclaim => cases hcloses
      | operation op =>
          cases op with
          | request utc req => cases hcloses
          | assertPanic preemptor => cases hcloses
          | beginCrrRecovery utc recoveryId n => cases hcloses
          | endCrrRecovery => cases hcloses
          | drainQueues n => cases hcloses
          | complete closed resultRef =>
              cases hcloses
              have hclosed := hlater.closes "ok"
                (s.controller.complete now' token resultRef) hordered.counted
                hown' (complete_locks _ now' token resultRef)
                (s.controller.complete_sheds now' token resultRef).panic
              simpa only [Holding.act, kept, Action.closes, Operation.closes,
                AdmissionController.act, perform, Option.bind_none,
                Option.toList_none, List.append_nil] using hclosed
          | release closed =>
              cases hcloses
              have hclosed := hlater.closes "released"
                (s.controller.release token) hordered.counted hown' rfl
                (s.controller.releaseHeld_sheds token "released").panic
              simpa only [Holding.act, kept, Action.closes, Operation.closes,
                AdmissionController.act, perform, Option.bind_none,
                Option.toList_none, List.append_nil] using hclosed

/-- The tokens of singleton keys along a run in which no lock is released for another
token than its own. -/
theorem trace_oneHolder {inputs : List (ℚ × Action)}
    (hclock : (now :: inputs.map Prod.fst).Pairwise (· ≤ ·))
    (hs : s.OneHolder now) (hordered : s.controller.Ordered capacity)
    (hguard : (holdingMachine host).Guarded ReleasesOwn s inputs) :
    ∀ e ∈ (holdingMachine host).trace s inputs, e.after.OneHolder e.input.1 := by
  induction inputs generalizing now s with
  | nil => exact List.forall_mem_nil _
  | cons input inputs ih =>
      rw [List.map_cons, List.pairwise_cons] at hclock
      rw [Machine.guarded_cons] at hguard
      have hafter : (s.act host input).1.OneHolder input.1 :=
        act_oneHolder hs hordered (hclock.1 _ List.mem_cons_self) hguard.1
      exact List.forall_mem_cons.mpr ⟨hafter, ih hclock.2 hafter
        (act_ordered hordered host input.1 input.2) hguard.2⟩

/-! ## Panic -/

/-- After the step only locks of the panic are held, and the request that it
admitted, if any, is of the panic. -/
def PanicBinds (host : Host) (e : Step Holding (ℚ × Action)
    (Option AdmissionDecision)) : Prop :=
  e.after.controller.PanicOnly ∧
    ∀ op utc req decision, e.input.2 = .operation op →
      op.asks host = some (utc, req) → e.output = some decision →
      decision.admitted = true → req.kind = .panic

theorem request_panic
    {c : AdmissionController} (hactive : c.panicActive = true) (host : Host)
    (now : ℚ) (utc : String) (req : AdmissionRequest)
    (hadmitted : (c.request host now utc req).1.admitted = true) :
    req.kind = .panic := by
  rcases c.request_cases host now utc req with ⟨_, _, _, h, -⟩ | ⟨-, -, hpanic, -⟩
  · rw [h] at hadmitted
    cases hadmitted
  · rw [(c.swept_sheds now).panic, hactive, Bool.true_and] at hpanic
    simpa using hpanic

theorem act_panics
    {c : AdmissionController} (hordered : c.Ordered capacity)
    (hactive : c.panicActive = true) (host : Host) (now : ℚ) (action : Action) :
    (c.act host now action).1.panicActive = true := by
  cases hcloses : action.closes with
  | none => exact (act_serves hordered host now hcloses).panics hactive
  | some token =>
      cases action with
      | reclaim => cases hcloses
      | operation op =>
          cases op with
          | request utc req => cases hcloses
          | assertPanic preemptor => cases hcloses
          | beginCrrRecovery utc recoveryId n => cases hcloses
          | endCrrRecovery => cases hcloses
          | drainQueues n => cases hcloses
          | complete closed resultRef =>
              exact (c.complete_sheds now closed resultRef).panic.trans hactive
          | release closed =>
              exact (c.releaseHeld_sheds closed "released").panic.trans hactive

theorem act_panicBinds (hordered : s.controller.Ordered capacity)
    (hactive : s.controller.panicActive = true) (input : ℚ × Action) :
    PanicBinds host ((holdingMachine host).stepAt s input) := by
  have hordered' := act_ordered hordered host input.1 input.2
  refine ⟨hordered'.panicked (act_panics hordered hactive host _ _), ?_⟩
  rintro op utc req decision hop hasks houtput hadmitted
  obtain ⟨now, action⟩ := input
  obtain rfl : action = .operation op := hop
  cases op with
  | request utc' req' =>
      cases hasks
      cases houtput
      exact request_panic hactive host now utc req hadmitted
  | beginCrrRecovery utc' recoveryId n =>
      cases hasks
      cases houtput
      exact request_panic hactive host now utc _ hadmitted
  | complete token resultRef => cases hasks
  | release token => cases hasks
  | assertPanic preemptor => cases hasks
  | endCrrRecovery => cases hasks
  | drainQueues n => cases hasks

theorem act_assertsPanic (hordered : s.controller.Ordered capacity)
    {input : ℚ × Action} (h : input.2.assertsPanic) :
    (s.act host input).1.controller.panicActive = true ∧
      PanicBinds host ((holdingMachine host).stepAt s input) := by
  obtain ⟨now, action⟩ := input
  cases action with
  | reclaim => cases h
  | operation op =>
      cases op with
      | assertPanic preemptor =>
          have hspec := assertPanic_spec hordered.counted preemptor
          refine ⟨hspec.1, hspec.2.1, ?_⟩
          rintro op utc req decision hop hasks
          cases hop
          cases hasks
      | request utc req => cases h
      | complete token resultRef => cases h
      | release token => cases h
      | beginCrrRecovery utc recoveryId n => cases h
      | endCrrRecovery => cases h
      | drainQueues n => cases h

end Holding

/-! ## Runs from a new controller -/

open Holding AdmissionController in
/-- Along every run from a new controller in which no lock is released for another
token than its own, each singleton key has one holder at most; and along every run
the queue keeps to its capacity, and a panic binds the step that asserts it and all
later ones. -/
theorem singletons_and_panic
    (host : Host) (capacity : ℤ) (retentionS defaultLeaseS : ℚ)
    (inputs : List (ℚ × Action))
    (hclock : (inputs.map Prod.fst).Pairwise (· ≤ ·)) :
    let start : Holding :=
      { controller := (opened capacity retentionS defaultLeaseS).controller }
    let steps := (holdingMachine host).trace start inputs
    ((holdingMachine host).Guarded ReleasesOwn start inputs →
      ∀ e ∈ steps, ∀ key, singletonKey key = true →
        (e.after.holders e.input.1 key).length ≤ 1) ∧
      (∀ e ∈ steps, (e.after.controller.queue.length : ℤ) ≤ max 0 capacity) ∧
      (∀ e ∈ steps, e.input.2.assertsPanic → PanicBinds host e) ∧
      steps.Pairwise fun e e' => e.input.2.assertsPanic → PanicBinds host e' := by
  intro start steps
  have hordered : start.controller.Ordered capacity :=
    ⟨rfl, opened_counted _ _ _, nofun, nofun, le_max_left _ _⟩
  have hsteps : ∀ (s : Holding) (input : ℚ × Action),
      s.controller.Ordered capacity →
        ((holdingMachine host).step s input).1.controller.Ordered capacity :=
    fun s input hs => act_ordered hs host input.1 input.2
  have haround := @Machine.invariant_around _ _ _ (holdingMachine host)
    (fun s => s.controller.Ordered capacity) start hordered hsteps inputs
  refine ⟨?_, fun e he => (haround e he).2.room, ?_, ?_⟩
  · intro hguard e he
    have hempty : ∀ now, start.OneHolder now :=
      fun now => ⟨fun _ _ => Nat.zero_le _, fun _ _ _ _ h => by cases h⟩
    obtain ⟨now, hnow⟩ := exists_pairwise_le_cons hclock
    exact (trace_oneHolder hnow (hempty now) hordered hguard e he).single
  · intro e he hasserts
    rw [Machine.mem_trace_eq_stepAt he]
    exact (act_assertsPanic (haround e he).1 hasserts).2
  · refine List.Pairwise.imp ?_ (@Machine.pairwise_of_barrier_of_inv _ _ _
      (holdingMachine host) (fun s => s.controller.Ordered capacity)
      (fun s => s.controller.panicActive = true)
      (fun e => e.input.2.assertsPanic) (fun e => ¬ PanicBinds host e)
      hsteps ?_ ?_ ?_ start hordered inputs)
    · intro e e' h hasserts
      exact not_not.mp (h hasserts)
    · intro s input hs hasserts
      exact (act_assertsPanic hs hasserts).1
    · intro s input hs hactive
      exact act_panics hs hactive host input.1 input.2
    · intro s input hs hactive
      exact not_not.mpr (act_panicBinds hs hactive input)

/-! ## A late completion -/

def applyRequest (requestId : String) : Action :=
  .operation (.request "2026-01-01T00:00:00+00:00"
    { requestId, kind := .srpApply, idempotencyKey := requestId })

def applyToken (requestId : String) (leaseUntil : ℚ) : AdmissionToken where
  requestId := requestId
  kind := .srpApply
  lockKey := "srp_apply"
  idempotencyKey := requestId
  leaseUntil := leaseUntil

/-- A request is tried again once its lease has run out, one of the two tries
completes, and another request follows. -/
def lateCompletion (completed : ℚ) : List (ℚ × Action) :=
  [(0, applyRequest "first"), (301, applyRequest "first"),
    (302, .operation (.complete (applyToken "first" completed) "done")),
    (303, applyRequest "second"), (304, .operation (.assertPanic "plt:panic"))]

/-- The second try completes. -/
theorem lateCompletion_own :
    (holdingMachine referenceHost).Guarded Holding.ReleasesOwn
        { controller := (opened 64 3600 300).controller } (lateCompletion 601) ∧
      ∀ e ∈ (holdingMachine referenceHost).trace
          { controller := (opened 64 3600 300).controller } (lateCompletion 601),
        ∀ key, singletonKey key = true →
          (e.after.holders e.input.1 key).length ≤ 1 := by
  have hguard : (holdingMachine referenceHost).Guarded Holding.ReleasesOwn
      { controller := (opened 64 3600 300).controller } (lateCompletion 601) := by
    have hother : ∀ (s : Holding) (input : ℚ × Action),
        input.2.closes = none → s.ReleasesOwn input := by
      intro s input hnone token lock hcloses
      rw [hnone] at hcloses
      cases hcloses
    have hlock : ((holdingMachine referenceHost).final
        { controller := (opened 64 3600 300).controller }
        ((lateCompletion 601).take 2)).controller.locks.get? "srp_apply" =
          some (AdmissionController.lockOf (applyToken "first" 601)) := by
      decide +kernel
    simp only [lateCompletion, Machine.guarded_cons]
    refine ⟨hother _ _ rfl, hother _ _ rfl, ?_, hother _ _ rfl, hother _ _ rfl,
      Machine.guarded_nil⟩
    rintro token lock ⟨⟩ - hget -
    exact Option.some.inj (hget.symm.trans hlock)
  exact ⟨hguard, (singletons_and_panic referenceHost 64 3600 300
    (lateCompletion 601) (by decide +kernel)).1 hguard⟩

/-- The first try completes after the second one was admitted: the second and the
other request both hold the key. -/
theorem lateCompletion_twoHolders :
    ¬ ∀ (host : Host) (capacity : ℤ) (retentionS defaultLeaseS : ℚ)
        (inputs : List (ℚ × Action)),
      (inputs.map Prod.fst).Pairwise (· ≤ ·) →
        ∀ e ∈ (holdingMachine host).trace
            { controller := (opened capacity retentionS defaultLeaseS).controller }
            inputs,
          ∀ key, singletonKey key = true →
            (e.after.holders e.input.1 key).length ≤ 1 := by
  intro hall
  have htwo : ∃ e ∈ (holdingMachine referenceHost).trace
      { controller := (opened 64 3600 300).controller } (lateCompletion 300),
        ¬ (e.after.holders e.input.1 "srp_apply").length ≤ 1 := by
    decide +kernel
  obtain ⟨e, he, hboth⟩ := htwo
  exact hboth (hall referenceHost 64 3600 300 (lateCompletion 300)
    (by decide +kernel) e he "srp_apply" (by decide))

end Hydrogenuine.Admission
