import Hydrogenuine.Oea.SandboxDispatch
import Hydrogenuine.Ueak.Admission

/-!
# What a dispatch is bound to

The preflight of a dispatch checks the hash of the handoff record, and the permit is
consumed under the id that the record names.  Neither looks at the arguments, at the
permit hash of the record or at the scope of the permit, so that a dispatch is bound
to what was permitted as far as its caller binds it.

`create_ter_handoff` makes a record that is bound to the proposed action and to the
permit of the dispatch plan.  A dispatch of this record with this action is bound as
soon as the plan is.
-/

namespace Hydrogenuine.Oea

open Support Hydrogenuine.Core
open Gpp (PermitStore)
open Ueak (ExecutionReceipt ExecutionDispatchPlan)

def executedArguments (call : DispatchCall) : Option Items :=
  if call.handoff.dispatchMode == "fake_sink" then none else some call.arguments

namespace ExecutorServices

variable (s : ExecutorServices)

/-- The dispatch is bound to what was permitted: the arguments that it executes have
the hash of the handoff, and the permit that is stored under its permit id has its
permit hash and covers its capability. -/
structure Bound (store : PermitStore) (call : DispatchCall) : Prop where
  arguments : ∀ arguments, executedArguments call = some arguments →
    s.host.canonicalHash (.dict arguments) = call.handoff.inputHash
  permit : ∃ permit, store.get call.handoff.permitId = some permit ∧
    permit.permitHash = call.handoff.permitHash ∧
    permit.scope.capabilityRef = call.handoff.capabilityId

def Executes (x : Dispatching) (call : DispatchCall) : Prop :=
  ∃ returned receipt, outcome (s.executeSlice2Dispatch call) x = .ok returned ∧
    returned.dispatchReceipt = some receipt ∧ receipt.resultStatus = "executed"

/-- The call can be carried out: the preflight passes, the permit can be consumed,
the report can be written, and the ledger takes the receipt. -/
structure CarriedOut (x : Dispatching) (call : DispatchCall) : Prop where
  preflight : preflightRefusal s.host call.config call.handoff = none
  consumable : s.Consumable x.permitStore call
  writable : call.handoff.dispatchMode ≠ "fake_sink" →
    s.Writable call.dir call.arguments
  ledger : call.ledgerError = none

variable {s}

theorem written_of_writable
    {dir : ProofDir} {arguments : Items} (h : s.Writable dir arguments) :
    ∃ written, s.executeLocalReportWrite dir arguments = .ok written := by
  obtain ⟨⟨target, hresolve⟩, hmkdir, hexists, hwrite⟩ := h
  have hfree : ¬(dir.targetExists && !overwrites arguments) = true := by
    rw [Bool.and_eq_true]
    rintro ⟨htarget, hkept⟩
    rw [hexists htarget] at hkept
    cases hkept
  unfold executeLocalReportWrite resolveProofPath
  simp only [hresolve, hmkdir, hwrite, if_pos, if_neg hfree]
  exact ⟨_, rfl⟩

/-- The receipt of the bounded effect is executed when there is nothing to write, or
the report can be written. -/
theorem boundedEffect_status (call : DispatchCall) :
    (∃ effect, s.boundedEffect call = .ok effect ∧
        (effect.resultStatus = "executed" ↔
          (call.handoff.dispatchMode ≠ "fake_sink" →
            s.Writable call.dir call.arguments))) ∨
      ((∃ err, s.boundedEffect call = .error err) ∧
        ¬(call.handoff.dispatchMode ≠ "fake_sink" →
          s.Writable call.dir call.arguments)) := by
  unfold boundedEffect
  by_cases hmode : call.handoff.dispatchMode = "fake_sink"
  · rw [if_pos (beq_iff_eq.mpr hmode)]
    exact Or.inl ⟨_, rfl, iff_of_true rfl fun h => absurd hmode h⟩
  · rw [if_neg (mt beq_iff_eq.mp hmode)]
    cases hwritten : s.executeLocalReportWrite call.dir call.arguments with
    | ok written =>
        exact Or.inl ⟨_, rfl,
          iff_of_true rfl fun _ => writable_of_written hwritten⟩
    | error err =>
        have hnot : ¬(call.handoff.dispatchMode ≠ "fake_sink" →
            s.Writable call.dir call.arguments) := by
          intro h
          obtain ⟨written, heq⟩ := written_of_writable (h hmode)
          rw [hwritten] at heq
          cases heq
        cases err with
        | validation reason =>
            have hfailed : "failed" ≠ "executed" := by decide
            exact Or.inl ⟨_, rfl, iff_of_false hfailed hnot⟩
        | binding reason => exact Or.inr ⟨⟨_, rfl⟩, hnot⟩
        | raised raised => exact Or.inr ⟨⟨_, rfl⟩, hnot⟩

/-- The calls that return an executed receipt. -/
theorem ends_executeSlice2Dispatch_status (call : DispatchCall) (x : Dispatching) :
    Ends (s.executeSlice2Dispatch call) x
      (fun returned _ => (∃ receipt, returned.dispatchReceipt = some receipt ∧
        receipt.resultStatus = "executed") ↔ s.CarriedOut x call)
      (fun _ _ => ¬s.CarriedOut x call) := by
  have hrefused : ∀ (code : String) (y : Dispatching), ¬s.CarriedOut x call →
      Ends (s.append call (slice2Receipt call "refused" "" [] (some code))) y
        (fun receipt _ => receipt.resultStatus = "refused" ∧
          ¬s.CarriedOut x call)
        (fun _ _ => ¬s.CarriedOut x call) := by
    intro code y hnot
    apply ends_mono (append_spec call _ y)
    · rintro receipt z ⟨-, -, -, hresult, -⟩
      exact ⟨hresult, hnot⟩
    · exact fun _ _ _ => hnot
  have hstatus : ∀ {receipt : EffectReceipt}, receipt.resultStatus = "refused" →
      ¬∃ receipt', some receipt = some receipt' ∧
        receipt'.resultStatus = "executed" := by
    rintro receipt hresult ⟨_, ⟨⟩, hexecuted⟩
    rw [hresult] at hexecuted
    exact absurd hexecuted (by decide)
  unfold executeSlice2Dispatch
  cases hpreflight : preflightRefusal s.host call.config call.handoff with
  | some code =>
      have hnot : ¬s.CarriedOut x call := by
        intro h
        have hpass := h.preflight
        rw [hpreflight] at hpass
        cases hpass
      apply ends_bind
      apply ends_mono (hrefused code x hnot)
      · rintro receipt y ⟨hresult, -⟩
        exact ends_pure (iff_of_false (hstatus hresult) hnot)
      · exact fun _ _ h => h
  | none =>
      have hok := PermitStore.consume_ok_iff s.host x.permitStore
        call.handoff.permitId call.createdAt (dispatchId call.handoff)
        call.handoff.handoffId
      dsimp only
      apply ends_bind
      apply ends_get
      apply ends_bind
      apply ends_set
      split
      · next hgranted =>
          have hconsumable : s.Consumable x.permitStore call := hok.mp hgranted
          apply ends_bind
          rcases boundedEffect_status call with
            ⟨effect, heffect, hwritable⟩ | ⟨⟨err, heffect⟩, hunwritable⟩
          · rw [heffect]
            apply ends_pure
            apply ends_bind
            apply ends_mono (append_spec call effect _)
            · rintro receipt y ⟨hledger, -, -, hresult, -⟩
              apply ends_pure
              constructor
              · rintro ⟨_, ⟨⟩, hexecuted⟩
                rw [hresult, hwritable] at hexecuted
                exact ⟨hpreflight, hconsumable, hexecuted, hledger⟩
              · intro h
                exact ⟨receipt, rfl, hresult.trans (hwritable.mpr h.writable)⟩
            · rintro err y ⟨-, hledger⟩
              exact fun h => hledger h.ledger
          · rw [heffect]
            exact ends_throw fun h => hunwritable h.writable
      · next hgranted =>
          have hnot : ¬s.CarriedOut x call :=
            fun h => hgranted (hok.mpr h.consumable)
          apply ends_bind
          apply ends_mono (hrefused _ _ hnot)
          · rintro receipt y ⟨hresult, -⟩
            exact ends_pure (iff_of_false (hstatus hresult) hnot)
          · exact fun _ _ h => h

theorem executes_iff (x : Dispatching) (call : DispatchCall) :
    s.Executes x call ↔ s.CarriedOut x call := by
  unfold Executes
  rcases (ends_executeSlice2Dispatch_status (s := s) call x).cases with
    ⟨returned, hout, hstatus⟩ | ⟨err, hout, hnot⟩
  · rw [hout, ← hstatus]
    simp
  · rw [hout]
    simp [hnot]

/-- A dispatch that is executed is bound to what was permitted if and only if,
whenever it can be carried out, its caller gives the arguments that the handoff was
made for, and a handoff with the hash and the capability of its permit. -/
theorem dispatch_bound_iff
    (s : ExecutorServices) (x : Dispatching) (call : DispatchCall) :
    (s.Executes x call → s.Bound x.permitStore call) ↔
      (s.CarriedOut x call →
        (call.handoff.dispatchMode ≠ "fake_sink" →
          s.host.canonicalHash (.dict call.arguments) = call.handoff.inputHash) ∧
        ∀ permit, x.permitStore.get call.handoff.permitId = some permit →
          permit.permitHash = call.handoff.permitHash ∧
            permit.scope.capabilityRef = call.handoff.capabilityId) := by
  rw [executes_iff]
  refine forall_congr' fun hcarried => ?_
  obtain ⟨permit, hpermit, -⟩ := hcarried.consumable
  have harguments : (∀ arguments, executedArguments call = some arguments →
      s.host.canonicalHash (.dict arguments) = call.handoff.inputHash) ↔
        (call.handoff.dispatchMode ≠ "fake_sink" →
          s.host.canonicalHash (.dict call.arguments) = call.handoff.inputHash) := by
    unfold executedArguments
    by_cases hmode : call.handoff.dispatchMode = "fake_sink"
    · simp [hmode]
    · simp [hmode]
  constructor
  · rintro ⟨hexecuted, permit', hpermit', hbound⟩
    refine ⟨harguments.mp hexecuted, fun permit'' hpermit'' => ?_⟩
    obtain rfl := Option.some.inj (hpermit'.symm.trans hpermit'')
    exact hbound
  · rintro ⟨hexecuted, hbound⟩
    exact ⟨harguments.mpr hexecuted, permit, hpermit, hbound permit hpermit⟩

end ExecutorServices

/-! ## A dispatch of something else -/

namespace ExecutorServices

/-- A report whose handoff was made for other arguments, with the permit of another
capability and under another hash. -/
def strayReport : DispatchCall :=
  { namelessReport with
    arguments := [("filename", .str "r.md"), ("content", .str "x")]
    dir := { resolve := fun _ => .ok ("/sandbox/r.md", true), targetExists := false } }

/-- The report is executed, and bound to nothing that was permitted. -/
theorem strayReport_executed :
    ¬ ∀ (s : ExecutorServices) (x : Dispatching) (call : DispatchCall),
      s.Executes x call → s.Bound x.permitStore call := by
  intro hall
  have hexecutes : plainServices.Executes { permitStore := issuedPermits }
      strayReport := by
    have hout : (outcome (plainServices.executeSlice2Dispatch strayReport)
        { permitStore := issuedPermits }).toOption.bind
          (fun returned => returned.dispatchReceipt.map EffectReceipt.resultStatus) =
            some "executed" := by
      decide +kernel
    unfold Executes
    cases hreturned : outcome (plainServices.executeSlice2Dispatch strayReport)
        { permitStore := issuedPermits } with
    | error err =>
        rw [hreturned] at hout
        cases hout
    | ok returned =>
        rw [hreturned] at hout
        cases hreceipt : returned.dispatchReceipt with
        | none =>
            change returned.dispatchReceipt.map _ = _ at hout
            rw [hreceipt] at hout
            cases hout
        | some receipt =>
            change returned.dispatchReceipt.map _ = _ at hout
            rw [hreceipt] at hout
            exact ⟨returned, receipt, rfl, hreceipt, Option.some.inj hout⟩
  obtain ⟨permit, hpermit, -, hscope⟩ :=
    (hall _ _ _ hexecutes).permit
  have hother : (issuedPermits.get strayReport.handoff.permitId).map
      (fun permit => permit.scope.capabilityRef) = some "cap.oea_stub_log" := by
    decide +kernel
  rw [hpermit] at hother
  have hname : permit.scope.capabilityRef = "cap.oea_stub_log" :=
    Option.some.inj hother
  rw [hname] at hscope
  have hdiffers : "cap.oea_stub_log" ≠ strayReport.handoff.capabilityId := by decide
  exact hdiffers hscope

end ExecutorServices

end Hydrogenuine.Oea
