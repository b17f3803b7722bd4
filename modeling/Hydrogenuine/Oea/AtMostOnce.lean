import Hydrogenuine.Core.ReferenceHost
import Hydrogenuine.Oea.BoundedExecutor
import Hydrogenuine.Support.Machine
import Mathlib.Tactic.Linarith

/-!
# Redelivery to the bounded executor

The executor asks for its admission under a key that stands for the commit
reference, and the store of the controller keeps the key of a completed effect for
the retention window.  The controller refuses a known key only to another request
id.  The request id is the id of the binding, which is the same at every delivery
of one handoff, so that a redelivered handoff is admitted again and its effect is
only stopped by the proof directory.

An effect stays `Remembered`: the store has its key, or its window is over.  From
this, effects of one reference are a window apart in every run in which no handoff
finds its own record in the store and a proof directory that takes the write.
-/

namespace Hydrogenuine.Oea

open Support Hydrogenuine.Core Hydrogenuine.Runtime
open Admission
  (AdmissionController AdmissionRequest AdmissionToken IdempotencyRecord)

/-! ## Effects in the idempotency store -/

/-- Two effects of one commit reference are never in one retention window: when the
later one was asked for, the window of the earlier one was over. -/
def AtMostOnce (retentionS : ℚ) (effects : List Effect) : Prop :=
  effects.Pairwise fun e e' =>
    e.commitRef = e'.commitRef → retentionS < e'.requestedAt - e.completedAt

/-- The store keeps the key of the effect, or the window of the effect is over. -/
def Remembered (c : AdmissionController) (t : ℚ) (e : Effect) : Prop :=
  e.completedAt ≤ t ∧
    (c.retentionS < t - e.completedAt ∨
      ∃ record : IdempotencyRecord,
        c.idempotency.get? ("oea:" ++ e.commitRef) = some record ∧
          e.completedAt ≤ record.recordedAt)

section Remembered

variable {c c' : AdmissionController} {t t' : ℚ} {e : Effect}

theorem Remembered.later (h : Remembered c t e) (ht : t ≤ t') :
    Remembered c t' e := by
  obtain ⟨hpast, hwindow | hrecord⟩ := h
  · exact ⟨hpast.trans ht, Or.inl (by linarith)⟩
  · exact ⟨hpast.trans ht, Or.inr hrecord⟩

theorem Remembered.of_sameStore
    (h : Remembered c t e) (hstore : c.SameStore c') : Remembered c' t e := by
  unfold Remembered
  rw [hstore.1, hstore.2]
  exact h

theorem Remembered.purge (h : Remembered c t e) : Remembered (c.purge t) t e := by
  obtain ⟨hpast, hwindow | ⟨record, hrecord, hafter⟩⟩ := h
  · exact ⟨hpast, Or.inl hwindow⟩
  · by_cases hexpired : c.retentionS < t - record.recordedAt
    · refine ⟨hpast, Or.inl ?_⟩
      change c.retentionS < t - e.completedAt
      linarith
    · refine ⟨hpast, Or.inr ⟨record, ?_, hafter⟩⟩
      unfold AdmissionController.purge
      rw [Dict.get?_filter, hrecord, Option.filter_some, if_pos (by simpa using hexpired)]

theorem Remembered.record
    (h : Remembered c t e) (key requestId resultRef : String) :
    Remembered (c.record key requestId resultRef t) t e := by
  obtain ⟨hpast, hkept⟩ := h.purge
  refine ⟨hpast, ?_⟩
  by_cases hkey : "oea:" ++ e.commitRef = key
  · refine Or.inr ⟨{ key, requestId, resultRef, recordedAt := t }, ?_, hpast⟩
    unfold AdmissionController.record
    rw [hkey, Dict.get?_set_self]
  · rcases hkept with hwindow | ⟨record, hrecord, hafter⟩
    · exact Or.inl hwindow
    · refine Or.inr ⟨record, ?_, hafter⟩
      unfold AdmissionController.record
      rw [Dict.get?_set_of_ne _ _ hkey, hrecord]

end Remembered

theorem remembered_complete
    (c : AdmissionController) {t : ℚ} {token : AdmissionToken} {e : Effect}
    (hkey : token.idempotencyKey = "oea:" ++ e.commitRef)
    (hpast : e.completedAt ≤ t) (resultRef : String) :
    Remembered (c.complete t token resultRef) t e := by
  have hrecord :
      Remembered (c.record token.idempotencyKey token.requestId resultRef t) t e := by
    refine ⟨hpast, Or.inr ⟨
      { key := token.idempotencyKey
        requestId := token.requestId
        resultRef
        recordedAt := t }, ?_, hpast⟩⟩
    unfold AdmissionController.record
    rw [← hkey, Dict.get?_set_self]
  exact hrecord.of_sameStore (AdmissionController.releaseHeld_sameStore _ _ _)

theorem Remembered.complete
    {c : AdmissionController} {t : ℚ} {e : Effect} (h : Remembered c t e)
    (token : AdmissionToken) (resultRef : String) :
    Remembered (c.complete t token resultRef) t e := by
  have hrecord := h.record token.idempotencyKey token.requestId resultRef
  exact hrecord.of_sameStore (AdmissionController.releaseHeld_sameStore _ _ _)

theorem complete_retentionS
    (c : AdmissionController) (t : ℚ) (token : AdmissionToken)
    (resultRef : String) :
    (c.complete t token resultRef).retentionS = c.retentionS :=
  (AdmissionController.releaseHeld_sameStore
    (c.record token.idempotencyKey token.requestId resultRef t) token "ok").2

/-! ## The invariant -/

/-- Every effect is remembered, and the effects are a window apart. -/
structure Accounted (window : ℚ) (x : Executor) (t : ℚ) : Prop where
  retention : x.controller.retentionS = window
  remembered : ∀ e ∈ x.effects, Remembered x.controller t e
  apart : AtMostOnce window x.effects

section Accounted

variable {window : ℚ} {x y : Executor} {t t' : ℚ}

theorem Accounted.later
    (h : Accounted window x t) (ht : t ≤ t') : Accounted window x t' :=
  ⟨h.retention, fun e he => (h.remembered e he).later ht, h.apart⟩

theorem Accounted.of_same
    (h : Accounted window x t) (hstore : x.controller.SameStore y.controller)
    (heffects : y.effects = x.effects) : Accounted window y t := by
  constructor
  · exact hstore.2.trans h.retention
  · rw [heffects]
    intro e he
    exact (h.remembered e he).of_sameStore hstore
  · rw [heffects]
    exact h.apart

theorem Accounted.request
    (h : Accounted window x t) (host : Host) (utc : String)
    (req : AdmissionRequest) :
    Accounted window
      { x with controller := (x.controller.request host t utc req).2 } t := by
  have hstore := x.controller.request_sameStore host t utc req
  constructor
  · exact hstore.2.trans h.retention
  · intro e he
    exact (h.remembered e he).purge.of_sameStore hstore
  · exact h.apart

theorem Accounted.complete
    {e : Effect} {token : AdmissionToken}
    (h : Accounted window x t) (ht : t ≤ e.completedAt)
    (hkey : token.idempotencyKey = "oea:" ++ e.commitRef)
    (hapart : ∀ e' ∈ x.effects, e'.commitRef = e.commitRef →
      window < e.requestedAt - e'.completedAt)
    {resultRef : String}
    (hcontroller :
      y.controller = x.controller.complete e.completedAt token resultRef)
    (heffects : y.effects = x.effects ++ [e]) : Accounted window y e.completedAt := by
  constructor
  · rw [hcontroller, complete_retentionS]
    exact h.retention
  · rw [hcontroller, heffects]
    intro e' he'
    rcases List.mem_append.mp he' with hold | hnew
    · exact ((h.remembered e' hold).later ht).complete token resultRef
    · rw [List.mem_singleton.mp hnew]
      exact remembered_complete x.controller hkey le_rfl resultRef
  · rw [heffects]
    refine List.pairwise_append.mpr ⟨h.apart, List.pairwise_singleton _ _, ?_⟩
    intro e' he' e'' he'' href
    rw [List.mem_singleton.mp he''] at href ⊢
    exact hapart e' he' href

end Accounted

namespace ExecutorServices

variable (s : ExecutorServices) {window : ℚ}

/-! ## What the tries do -/

/-- The proof directory takes the write that the arguments ask for. -/
def Writable (dir : ProofDir) (arguments : Items) : Prop :=
  (∃ target, dir.resolve (s.textArgument arguments "filename") =
      .ok (target, true)) ∧
    dir.mkdirError = none ∧
    (dir.targetExists = true → overwrites arguments = true) ∧
    dir.writeError = none

variable {s}

theorem writable_of_written
    {dir : ProofDir} {arguments : Items} {written : String × List String}
    (h : s.executeLocalReportWrite dir arguments = .ok written) :
    s.Writable dir arguments := by
  unfold executeLocalReportWrite resolveProofPath at h
  cases hresolve : dir.resolve (s.textArgument arguments "filename") with
  | error err =>
      rw [hresolve] at h
      cases h
  | ok found =>
      obtain ⟨target, inside⟩ := found
      cases inside with
      | false =>
          rw [hresolve] at h
          cases h
      | true =>
          rw [hresolve] at h
          cases hmkdir : dir.mkdirError with
          | some err =>
              rw [hmkdir] at h
              cases h
          | none =>
              rw [hmkdir] at h
              by_cases hexists : (dir.targetExists && !overwrites arguments) = true
              · simp only [if_pos hexists] at h
                cases h
              · simp only [if_neg hexists] at h
                cases hwrite : dir.writeError with
                | some err =>
                    rw [hwrite] at h
                    cases h
                | none =>
                    refine ⟨⟨target, hresolve⟩, hmkdir, ?_, hwrite⟩
                    intro hthere
                    simpa [hthere] using hexists

def effectOf (world : World) (binding : OEABinding) : Effect where
  commitRef := binding.ueakCommitRef
  bindingId := binding.bindingId
  requestedAt := world.requestAt
  completedAt := world.completeAt

/-- The two states differ neither in their effects nor in their controllers. -/
def Unaffected (x y : Executor) : Prop :=
  y.effects = x.effects ∧ y.controller = x.controller

/-- The second state has one effect more than the first, and the proof directory
has taken it. -/
def Affected (world : World) (binding : OEABinding) (x y : Executor) : Prop :=
  y.effects = x.effects ++ [effectOf world binding] ∧
    y.controller = x.controller ∧
    ∃ n, s.Writable (world.tried n) binding.arguments

theorem tryOnce_spec
    (world : World) (binding : OEABinding) (n : ℕ) (x : Executor) :
    Ends (s.tryOnce world binding n) x
      (fun _ y => Affected (s := s) world binding x y)
      (fun _ y => y = x) := by
  unfold tryOnce
  split
  · apply ends_bind
    apply ends_raising
    · intro written hwritten
      apply ends_bind
      apply ends_modify
      apply ends_pure
      exact ⟨rfl, rfl, n, writable_of_written hwritten⟩
    · exact fun _ _ => rfl
  · exact ends_throw rfl

theorem tries_spec
    (world : World) (binding : OEABinding) (capability : CapabilityDefinition)
    (fuel n : ℕ) (earlier : Option String) (x : Executor) :
    Ends (s.tries world binding capability fuel n earlier) x
      (fun tried y =>
        (tried.resultStatus = "executed" ∧
            Affected (s := s) world binding x y) ∨
          (tried.resultStatus = "failed" ∧ Unaffected x y))
      (fun _ y => Unaffected x y) := by
  induction fuel generalizing n earlier with
  | zero =>
      unfold tries
      apply ends_bind
      apply ends_attempt
      apply ends_mono (tryOnce_spec world binding n x)
      · intro written y hy
        exact ends_pure (Or.inl ⟨rfl, hy⟩)
      · rintro err y rfl
        cases err with
        | validation reason =>
            apply ends_bind
            apply ends_modify
            exact ends_pure (Or.inr ⟨rfl, rfl, rfl⟩)
        | binding reason => exact ends_throw ⟨rfl, rfl⟩
        | raised err => exact ends_throw ⟨rfl, rfl⟩
  | succ fuel ih =>
      unfold tries
      apply ends_bind
      apply ends_attempt
      apply ends_mono (tryOnce_spec world binding n x)
      · intro written y hy
        exact ends_pure (Or.inl ⟨rfl, hy⟩)
      · rintro err y rfl
        cases err with
        | validation reason =>
            by_cases hretry : mayRetry capability n "failed" = true
            · simp only [if_pos hretry]
              exact ih (n + 1) (some reason)
            · simp only [if_neg hretry]
              apply ends_bind
              apply ends_modify
              exact ends_pure (Or.inr ⟨rfl, rfl, rfl⟩)
        | binding reason => exact ends_throw ⟨rfl, rfl⟩
        | raised err => exact ends_throw ⟨rfl, rfl⟩

/-! ## One delivery -/

theorem appendReceipt_spec
    (world : World) (receipt : EffectReceipt) (x : Executor) :
    Ends (s.appendReceipt world receipt) x
      (fun _ y => Unaffected x y) (fun _ y => Unaffected x y) := by
  unfold appendReceipt
  apply ends_bind
  apply ends_get
  cases world.ledgerError with
  | some err => exact ends_throw ⟨rfl, rfl⟩
  | none =>
      apply ends_bind
      apply ends_set
      exact ends_pure ⟨rfl, rfl⟩

variable {x : Executor} {binding : OEABinding} {world : World} {t : ℚ}

/-- An admitted binding keeps the account, provided that its own record is not
in the store together with a proof directory that takes the write. -/
theorem executeAdmitted_spec {capability : CapabilityDefinition}
    {token : AdmissionToken}
    (hclock : world.requestAt ≤ world.completeAt)
    (hx : Accounted window x world.requestAt)
    (hkey : token.idempotencyKey = "oea:" ++ binding.ueakCommitRef)
    (hguard : ∀ record,
      x.controller.idempotency.get? ("oea:" ++ binding.ueakCommitRef) =
        some record →
      ∀ n, ¬ s.Writable (world.tried n) binding.arguments) :
    Ends (s.executeAdmitted world binding capability token) x
      (fun _ y => Accounted window y world.completeAt)
      (fun _ y => Accounted window y world.completeAt) := by
  unfold executeAdmitted
  apply ends_bind
  apply ends_mono (tries_spec world binding capability _ 0 none x)
  · intro tried y htried
    rcases htried with
      ⟨hstatus, heffects, hcontroller, n, hwritable⟩ | ⟨hstatus, hy⟩
    · have hapart : ∀ e ∈ x.effects, e.commitRef = binding.ueakCommitRef →
          window < world.requestAt - e.completedAt := by
        intro e he href
        obtain ⟨-, hover | ⟨record, hrecord, -⟩⟩ := hx.remembered e he
        · rw [← hx.retention]
          exact hover
        · rw [href] at hrecord
          exact absurd hwritable (hguard record hrecord n)
      have hcompleted : ∀ z : Executor,
          z.effects = y.effects →
          z.controller = y.controller.complete world.completeAt token
            (s.receiptOf world binding tried).receiptId →
          Accounted window z world.completeAt := by
        intro z hz hzc
        rw [hcontroller] at hzc
        rw [heffects] at hz
        exact hx.complete (e := effectOf world binding) hclock hkey hapart hzc hz
      simp only [hstatus, beq_self_eq_true, if_true]
      apply ends_bind
      apply ends_modify
      apply ends_mono (appendReceipt_spec world _ _)
      · intro receipt z hz
        exact hcompleted z hz.1 hz.2
      · intro err z hz
        exact hcompleted z hz.1 hz.2
    · have hkept : ∀ z, Unaffected y z → Accounted window z world.completeAt := by
        intro z hz
        refine (hx.of_same ?_ (hz.1.trans hy.1)).later hclock
        rw [hz.2, hy.2]
        exact AdmissionController.SameStore.refl _
      simp only [hstatus]
      apply ends_mono (appendReceipt_spec world _ _)
      · exact fun _ => hkept
      · exact fun _ => hkept
  · intro err y hy
    refine (hx.of_same ?_ hy.1).later hclock
    rw [hy.2]
    exact AdmissionController.SameStore.refl _

theorem executeBinding_spec
    (hclock : world.requestAt ≤ world.completeAt)
    (hx : Accounted window x world.requestAt)
    (hguard : ∀ record,
      (x.controller.purge world.requestAt).idempotency.get?
        ("oea:" ++ binding.ueakCommitRef) = some record →
      record.requestId = binding.bindingId →
      ∀ n, ¬ s.Writable (world.tried n) binding.arguments) :
    Ends (s.executeBinding world binding) x
      (fun _ y => Accounted window y world.completeAt)
      (fun _ y => Accounted window y world.completeAt) := by
  unfold executeBinding
  cases lookupCapability binding.capabilityId with
  | none => exact ends_throw (hx.later hclock)
  | some capability =>
      apply ends_bind
      apply ends_get
      apply ends_bind
      apply ends_set
      have hasked := hx.request s.host world.utc (effectRequest binding capability)
      have hstore := x.controller.request_sameStore s.host world.requestAt
        world.utc (effectRequest binding capability)
      split
      · next token hadmitted htoken =>
          obtain ⟨hkey, hown⟩ := AdmissionController.request_admitted htoken
          apply ends_andFinally
          apply ends_mono (executeAdmitted_spec hclock hasked hkey ?_)
          · intro receipt y hy
            exact hy.of_same (AdmissionController.releaseHeld_sameStore _ _ _) rfl
          · intro err y hy
            exact hy.of_same (AdmissionController.releaseHeld_sameStore _ _ _) rfl
          · intro record hrecord
            rw [hstore.1] at hrecord
            exact hguard record hrecord (hown record hrecord)
      · exact ends_throw (hasked.later hclock)

/-- The binding of a handoff has the reference, the id and the arguments that the
handoff determines. -/
theorem bindingFromCommitPayload_spec
    {config : OEAConfig} {createdAt dryRunRef : String} {payload : Items}
    {skipDryRunCheck : Bool}
    (h : s.bindingFromCommitPayload config createdAt payload dryRunRef
      skipDryRunCheck = .ok binding) :
    ∃ req, s.bindingRequest payload dryRunRef skipDryRunCheck = .ok req ∧
      binding.ueakCommitRef = req.ueakCommitRef ∧
      binding.bindingId = s.bindingId req ∧
      binding.arguments = req.arguments := by
  unfold BindingServices.bindingFromCommitPayload at h
  cases hreq : s.bindingRequest payload dryRunRef skipDryRunCheck with
  | error err =>
      rw [hreq] at h
      cases h
  | ok req =>
      rw [hreq] at h
      refine ⟨req, rfl, ?_⟩
      change s.createBinding config createdAt req = .ok binding at h
      unfold BindingServices.createBinding at h
      split at h
      · cases h
      · split at h
        · cases h
        · cases h
          exact ⟨rfl, rfl, rfl⟩

theorem refused_spec
    (payload : Items) (parent : String) (drafts : List Draft) (err : OeaError)
    (x : Executor) :
    Ends (s.refused payload parent drafts err) x
      (fun _ y => y = x) (fun _ y => y = x) := by
  cases err with
  | binding reason => exact ends_pure rfl
  | validation reason => exact ends_pure rfl
  | raised err => exact ends_throw rfl

variable (s) in
/-- The handoff does not come back to its own completed effect: if the store has an
unexpired record of its reference under the id of its own binding, then no try
finds a proof directory that takes the write. -/
def NotRepeated (x : Executor) (world : World) (payload : Items) : Prop :=
  ∀ dryRunRef req record,
    s.bindingRequest payload dryRunRef false = .ok req →
    (x.controller.purge world.requestAt).idempotency.get?
      ("oea:" ++ req.ueakCommitRef) = some record →
    record.requestId = s.bindingId req →
    ∀ n, ¬ s.Writable (world.tried n) req.arguments

theorem processCommit_spec {payload : Items} (parent : String)
    (hclock : world.requestAt ≤ world.completeAt)
    (hx : Accounted window x world.requestAt)
    (hguard : s.NotRepeated x world payload) :
    Ends (s.processCommit world payload parent) x
      (fun _ y => Accounted window y world.completeAt)
      (fun _ y => Accounted window y world.completeAt) := by
  have hrefused : ∀ drafts err y, Accounted window y world.completeAt →
      Ends (s.refused payload parent drafts err) y
        (fun _ y => Accounted window y world.completeAt)
        (fun _ y => Accounted window y world.completeAt) := by
    intro drafts err y hy
    apply ends_mono (refused_spec payload parent drafts err y)
    · rintro _ _ rfl
      exact hy
    · rintro _ _ rfl
      exact hy
  unfold processCommit
  apply ends_bind
  apply ends_get
  cases s.ensureDryRun x.config world payload parent with
  | error err => exact hrefused _ _ _ (hx.later hclock)
  | ok planned =>
      obtain ⟨dryRunRef, drafts⟩ := planned
      dsimp only
      cases hbinding : s.bindingFromCommitPayload x.config world.now payload
          dryRunRef false with
      | error err => exact hrefused _ _ _ (hx.later hclock)
      | ok binding =>
          obtain ⟨req, hreq, href, hid, harguments⟩ :=
            bindingFromCommitPayload_spec hbinding
          dsimp only
          cases s.verifyBinding binding dryRunRef with
          | error err => exact hrefused _ _ _ (hx.later hclock)
          | ok _ =>
              apply ends_bind
              apply ends_attempt
              apply ends_mono (executeBinding_spec hclock hx ?_)
              · intro receipt y hy
                apply ends_bind
                apply ends_modify
                exact ends_pure
                  (hy.of_same (AdmissionController.SameStore.refl _) rfl)
              · intro err y hy
                exact hrefused _ _ _ hy
              · intro record hrecord hown
                rw [href] at hrecord
                rw [hid] at hown
                rw [harguments]
                exact hguard dryRunRef req record hreq hrecord hown

/-! ## Calls and runs -/

def readings (deliveries : List Delivery) : List ℚ :=
  deliveries.flatMap fun delivery =>
    [delivery.world.requestAt, delivery.world.completeAt]

/-- A delivery that `NotRepeated` is about. -/
def DeliveryGuard (s : ExecutorServices) (x : Executor) (delivery : Delivery) :
    Prop :=
  delivery.event.type = "UEAK_EXECUTION_COMMITTED" →
    s.NotRepeated x delivery.world delivery.event.payload

/-- Every delivery of a call that is reached meets the guard. -/
def CallGuard (s : ExecutorServices) : Executor → List Delivery → Prop
  | _, [] => True
  | x, delivery :: rest =>
      DeliveryGuard s x delivery ∧
        CallGuard s (finalState (s.deliver delivery) x) rest

theorem deliver_spec
    {delivery : Delivery}
    (hclock : delivery.world.requestAt ≤ delivery.world.completeAt)
    (hx : Accounted window x delivery.world.requestAt)
    (hguard : DeliveryGuard s x delivery) :
    Ends (s.deliver delivery) x
      (fun _ y => Accounted window y delivery.world.completeAt)
      (fun _ y => Accounted window y delivery.world.completeAt) := by
  unfold deliver
  by_cases htype : delivery.event.type = "UEAK_EXECUTION_COMMITTED"
  · simp only [htype, beq_self_eq_true, if_true]
    exact processCommit_spec _ hclock hx (hguard htype)
  · have hskip : (delivery.event.type == "UEAK_EXECUTION_COMMITTED") = false :=
      beq_eq_false_iff_ne.mpr htype
    simp only [hskip]
    exact ends_pure (hx.later hclock)

theorem deliverAll_spec
    (deliveries : List Delivery)
    (hclock : (t :: readings deliveries).Pairwise (· ≤ ·))
    (hx : Accounted window x t) (hguard : CallGuard s x deliveries) :
    Ends (s.deliverAll deliveries) x
      (fun _ y => ∃ t' ∈ t :: readings deliveries, Accounted window y t')
      (fun _ y => ∃ t' ∈ t :: readings deliveries, Accounted window y t') := by
  induction deliveries generalizing t x with
  | nil => exact ends_pure ⟨t, List.mem_cons_self, hx⟩
  | cons delivery rest ih =>
      change (t :: delivery.world.requestAt :: delivery.world.completeAt ::
        readings rest).Pairwise (· ≤ ·) at hclock
      obtain ⟨hstart, hrequest, hrest⟩ := by
        simpa only [List.pairwise_cons] using hclock
      have hmem : ∀ t' ∈ delivery.world.completeAt :: readings rest,
          t' ∈ t :: readings (delivery :: rest) := by
        intro t' ht'
        exact List.mem_cons_of_mem _ (List.mem_cons_of_mem _ ht')
      have hdelivered := deliver_spec
        (hrequest _ List.mem_cons_self)
        (hx.later (hstart _ List.mem_cons_self)) hguard.1
      unfold deliverAll
      apply ends_bind
      apply ends_mono (ends_and hdelivered ends_outcome)
      · rintro drafts y ⟨hy, -, rfl⟩
        apply ends_bind
        apply ends_mono (ih (List.pairwise_cons.mpr hrest) hy hguard.2)
        · rintro drafts' z ⟨t', ht', hz⟩
          exact ends_pure ⟨t', hmem t' ht', hz⟩
        · rintro err z ⟨t', ht', hz⟩
          exact ⟨t', hmem t' ht', hz⟩
      · rintro err y ⟨hy, -⟩
        exact ⟨_, hmem _ List.mem_cons_self, hy⟩

theorem dispatchCommitted_spec
    (deliveries : List Delivery)
    (hclock : (t :: readings deliveries).Pairwise (· ≤ ·))
    (hx : Accounted window x t) (hguard : CallGuard s x deliveries) :
    Ends (s.dispatchCommitted deliveries) x
      (fun _ y => ∃ t' ∈ t :: readings deliveries, Accounted window y t')
      (fun _ y => ∃ t' ∈ t :: readings deliveries, Accounted window y t') := by
  unfold dispatchCommitted
  apply ends_bind
  apply ends_get
  by_cases hreal : x.config.isReal = true
  · simp only [if_pos hreal]
    exact deliverAll_spec deliveries hclock hx hguard
  · simp only [if_neg hreal]
    exact ends_throw ⟨t, List.mem_cons_self, hx⟩

/-- The executor as a machine: one input is one call of `dispatch_committed`. -/
def executorMachine (s : ExecutorServices) :
    Machine Executor (List Delivery) (Except OeaError (List Draft)) where
  step x deliveries :=
    (finalState (s.dispatchCommitted deliveries) x,
      outcome (s.dispatchCommitted deliveries) x)

theorem final_accounted
    (calls : List (List Delivery))
    (hclock : (t :: readings calls.flatten).Pairwise (· ≤ ·))
    (hx : Accounted window x t)
    (hguard : (executorMachine s).Guarded (CallGuard s) x calls) :
    ∃ t', Accounted window ((executorMachine s).final x calls) t' := by
  induction calls generalizing t x with
  | nil => exact ⟨t, hx⟩
  | cons call calls ih =>
      rw [List.flatten_cons, readings, List.flatMap_append] at hclock
      rw [Machine.guarded_cons] at hguard
      change (t :: (readings call ++ readings calls.flatten)).Pairwise (· ≤ ·)
        at hclock
      rw [← List.cons_append, List.pairwise_append] at hclock
      obtain ⟨hcall, hcalls, hacross⟩ := hclock
      have hafter : ∃ t' ∈ t :: readings call,
          Accounted window (finalState (s.dispatchCommitted call) x) t' := by
        rcases (dispatchCommitted_spec call hcall hx hguard.1).cases with
          ⟨_, -, hafter⟩ | ⟨_, -, hafter⟩
        · exact hafter
        · exact hafter
      obtain ⟨t', ht', haccounted⟩ := hafter
      exact ih (List.pairwise_cons.mpr ⟨hacross t' ht', hcalls⟩) haccounted
        hguard.2

/-- In every run of calls with redeliveries of any kind, in which no handoff comes
back to its own completed effect and a proof directory that takes the write, the
effect of a commit reference is carried out at most once in a retention window. -/
theorem effects_at_most_once
    (s : ExecutorServices) {x : Executor} (hnone : x.effects = [])
    (calls : List (List Delivery))
    (hclock : (readings calls.flatten).Pairwise (· ≤ ·))
    (hguard : (executorMachine s).Guarded (CallGuard s) x calls) :
    AtMostOnce x.controller.retentionS
      ((executorMachine s).final x calls).effects := by
  have hstart : ∀ t, Accounted x.controller.retentionS x t := by
    intro t
    constructor
    · rfl
    · rw [hnone]
      exact List.forall_mem_nil _
    · rw [hnone]
      exact List.Pairwise.nil
  obtain ⟨t, ht⟩ := exists_pairwise_le_cons hclock
  obtain ⟨t', hfinal⟩ := final_accounted calls ht (hstart t) hguard
  exact hfinal.apart

/-! ## A redelivered handoff -/

instance (retentionS : ℚ) (effects : List Effect) :
    Decidable (AtMostOnce retentionS effects) :=
  inferInstanceAs (Decidable (List.Pairwise _ _))

def plainServices : ExecutorServices where
  host := referenceHost
  catalogRefusal _ _ := none
  canonicalText items :=
    "\x7b" ++ ",".intercalate (items.map fun entry =>
      "\"" ++ entry.1 ++ "\":" ++
        match entry.2 with
        | .str text => "\"" ++ text ++ "\""
        | .bool true => "true"
        | .bool false => "false"
        | _ => "null") ++ "\x7d"
  containsRawSecret _ := false
  redactText text := text

def plainExecutor : Executor where
  config :=
    { mode := "real"
      realEnabled := true
      allowedCapabilities := ["local_report_file.write"] }
  controller := {}

def reportHandoff (overwrite : Bool) : Event where
  eventId := "evt_1"
  type := "UEAK_EXECUTION_COMMITTED"
  payload :=
    [("commit_ref", .str "commit_1"),
      ("decision_id", .str "decision_1"),
      ("capability_id", .str "local_report_file.write"),
      ("action", .dict
        [("arguments", .dict
          [("content", .str "done"), ("filename", .str "report.txt"),
            ("overwrite", .bool overwrite)])])]
  causalParents := []
  severity := none

def reportAt (t : ℚ) (overwrite targetExists : Bool) : Delivery where
  event := reportHandoff overwrite
  world :=
    { now := "2026-06-12T00:00:00.000000Z"
      utc := "2026-06-12T00:00:00.000000Z"
      requestAt := t
      completeAt := t
      planned :=
        { resolve := fun filename => .ok ("/proofs/" ++ filename, true)
          targetExists }
      tried := fun _ =>
        { resolve := fun filename => .ok ("/proofs/" ++ filename, true)
          targetExists } }

/-- The same handoff is delivered twice within a second: the report is written
twice. -/
theorem redelivered_twice :
    ¬ ∀ (s : ExecutorServices) (x : Executor) (calls : List (List Delivery)),
      x.effects = [] → (readings calls.flatten).Pairwise (· ≤ ·) →
        AtMostOnce x.controller.retentionS
          ((executorMachine s).final x calls).effects := by
  intro hall
  have htwice := hall plainServices plainExecutor
    [[reportAt 0 true false], [reportAt 1 true true]] rfl (by decide +kernel)
  exact absurd htwice (by decide +kernel)

theorem reportHandoff_arguments
    {overwrite : Bool} {dryRunRef : String} {req : BindingRequest}
    (h : plainServices.bindingRequest (reportHandoff overwrite).payload dryRunRef
      false = .ok req) :
    overwrites req.arguments = overwrite := by
  have harguments :
      (plainServices.bindingRequest (reportHandoff overwrite).payload dryRunRef
        false).map BindingRequest.arguments =
      .ok [("content", .str "done"), ("filename", .str "report.txt"),
        ("overwrite", .bool overwrite)] := rfl
  rw [h] at harguments
  rw [show req.arguments = _ from Except.ok.inj harguments]
  rfl

/-- Without the wish to overwrite, the second delivery finds the report. -/
theorem redelivered_once :
    AtMostOnce 3600
      ((executorMachine plainServices).final plainExecutor
        [[reportAt 0 false false], [reportAt 1 false true]]).effects := by
  apply effects_at_most_once plainServices (x := plainExecutor) rfl
  · decide +kernel
  · rw [Machine.guarded_cons, Machine.guarded_cons]
    refine ⟨⟨fun _ => ?_, trivial⟩, ⟨fun _ => ?_, trivial⟩, Machine.guarded_nil⟩
    · intro dryRunRef req record _ hrecord
      cases hrecord
    · intro dryRunRef req record hreq _ _ n hwritable
      have hoverwrites := hwritable.2.2.1 rfl
      rw [reportHandoff_arguments hreq] at hoverwrites
      cases hoverwrites

end ExecutorServices

end Hydrogenuine.Oea
