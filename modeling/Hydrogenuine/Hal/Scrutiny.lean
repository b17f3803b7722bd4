import Hydrogenuine.Core.ReferenceHost
import Hydrogenuine.Hal.Arbitration
import Mathlib.Tactic.Linarith

/-!
# The scrutiny of the arousal state

Raising the severity, the depth of the scrutiny or the number of modulations should
only restrict what the arbiter lets through.  A higher severity does.  A greater
depth raises the threshold that the severity has to reach, and
`requestFromProposal` counts the modulations into the depth.
-/

namespace Hydrogenuine.Hal

open Support Hydrogenuine.Core Governance
open Hydrogenuine.Runtime

/-- The second request is the first one under more scrutiny. -/
structure Raised (request request' : ArbitrationRequest) : Prop where
  candidates : request'.candidates = request.candidates
  soarBinding : request'.soarBinding = request.soarBinding
  severity : request.aepMaxSeverity ≤ request'.aepMaxSeverity
  depth : request.scrutinyDepthDelta ≤ request'.scrutinyDepthDelta
  modulations : request.aepModulationRefs.Sublist request'.aepModulationRefs

/-- What is not accepted stays so, and no candidate becomes eligible. -/
structure Restricts (request request' : ArbitrationRequest) : Prop where
  routing : (arbitrate request).routing ≠ .accept →
    (arbitrate request').routing ≠ .accept
  eligible : ∀ candidate ∈ request.candidates,
    rejectReason request candidate ≠ none → rejectReason request' candidate ≠ none

/-- The severity reaches the threshold of the first request and not that of the
second. -/
def Lifted (request request' : ArbitrationRequest) : Prop :=
  7 + max 0 request.scrutinyDepthDelta ≤ request.aepMaxSeverity ∧
    request'.aepMaxSeverity < 7 + max 0 request'.scrutinyDepthDelta

/-- A candidate for a registered external write. -/
def ExternalWrite (candidate : ArbitrationCandidate) : Prop :=
  Registered (candidate.capabilityId, candidate.effectClass) ∧
    candidate.effectClass = "external_write"

section

variable {request request' : ArbitrationRequest} {candidate : ArbitrationCandidate}

theorem blockedByAepScrutiny_iff {effectClass : String} :
    blockedByAepScrutiny request effectClass = true ↔
      effectClass = "external_write" ∧
        7 + max 0 request.scrutinyDepthDelta ≤ request.aepMaxSeverity := by
  unfold blockedByAepScrutiny
  by_cases heffect : effectClass = "external_write"
  · simp [heffect]
  · simp [heffect]

theorem rejectReason_eq_none_iff :
    rejectReason request candidate = none ↔
      Registered (candidate.capabilityId, candidate.effectClass) ∧
        blockedByAepScrutiny request candidate.effectClass = false := by
  constructor
  · intro h
    refine ⟨registered_of_rejectReason h, ?_⟩
    unfold rejectReason at h
    split at h
    · cases h
    next capability hcapability =>
      split_ifs at h with hallowed heffect hblocked
      exact Bool.eq_false_iff.mpr hblocked
  · rintro ⟨⟨capability, hcapability, hallowed, heffect⟩, hblocked⟩
    unfold rejectReason
    rw [hcapability]
    simp [hallowed, heffect, hblocked]

theorem foldl_next_selected
    (request : ArbitrationRequest) (candidates : List ArbitrationCandidate) :
    ∀ loop : Selection,
      (candidates.foldl (Selection.next request) loop).selected = none ↔
        loop.selected = none ∧
          ∀ candidate ∈ candidates, rejectReason request candidate ≠ none := by
  induction candidates with
  | nil => exact fun loop => by simp
  | cons candidate candidates ih =>
      intro loop
      rw [List.foldl_cons, ih, List.forall_mem_cons]
      cases hreason : rejectReason request candidate with
      | some reason => simp [Selection.next, hreason]
      | none =>
          cases hselected : loop.selected with
          | some selected => simp [Selection.next, hreason, hselected]
          | none => simp [Selection.next, hreason, hselected]

theorem arbitrate_accept_iff :
    (arbitrate request).routing = .accept ↔
      blockedBySoarBinding request = none ∧
        ∃ candidate ∈ request.candidates, rejectReason request candidate = none := by
  unfold arbitrate
  cases hsoar : blockedBySoarBinding request with
  | some blocked =>
      refine iff_of_false ?_ (fun h => by cases h.1)
      rintro haccept
      dsimp only at haccept
      unfold blockedBySoarBinding at hsoar
      split at hsoar
      · cases hsoar
        cases haccept
      · cases hsoar
        cases haccept
      · cases hsoar
        cases haccept
      · cases hsoar
      · cases hsoar
  | none =>
      dsimp only
      by_cases hempty : request.candidates.isEmpty = true
      · rw [if_pos hempty]
        rw [List.isEmpty_iff] at hempty
        refine iff_of_false (fun h => by cases h) ?_
        rintro ⟨-, candidate, hmem, -⟩
        rw [hempty] at hmem
        cases hmem
      · rw [if_neg hempty]
        have hselected := foldl_next_selected request
          (request.candidates.insertionSort keyLe)
          ⟨none, [], "no_eligible_candidate"⟩
        cases hloop : ((request.candidates.insertionSort keyLe).foldl
            (Selection.next request)
            ⟨none, [], "no_eligible_candidate"⟩).selected with
        | none =>
            refine iff_of_false (fun h => by cases h) ?_
            rintro ⟨-, candidate, hmem, hreason⟩
            exact (hselected.mp hloop).2 candidate
              ((List.mem_insertionSort _).mpr hmem) hreason
        | some selected =>
            refine iff_of_true rfl ⟨rfl, ?_⟩
            by_contra hnone
            push Not at hnone
            have hcontra := hselected.mpr ⟨rfl, fun candidate hmem =>
              hnone candidate ((List.mem_insertionSort _).mp hmem)⟩
            rw [hloop] at hcontra
            cases hcontra

/-- More scrutiny only restricts, unless it lifts the threshold over the severity
and there is an external write for which this matters. -/
theorem Raised.restricts_iff (hraised : Raised request request') :
    Restricts request request' ↔
      ¬ (Lifted request request' ∧
        ∃ candidate ∈ request.candidates, ExternalWrite candidate) := by
  constructor
  · rintro hrestricts ⟨⟨hreached, hmissed⟩, candidate, hmem, hregistered, heffect⟩
    have hblocked : rejectReason request candidate ≠ none := by
      rw [Ne, rejectReason_eq_none_iff]
      rintro ⟨-, hfree⟩
      rw [blockedByAepScrutiny_iff.mpr ⟨heffect, hreached⟩] at hfree
      cases hfree
    refine hrestricts.eligible candidate hmem hblocked ?_
    refine rejectReason_eq_none_iff.mpr ⟨hregistered, ?_⟩
    rw [← Bool.not_eq_true, blockedByAepScrutiny_iff]
    rintro ⟨-, hreached'⟩
    omega
  · intro hnot
    have heligible : ∀ candidate ∈ request.candidates,
        rejectReason request candidate ≠ none →
          rejectReason request' candidate ≠ none := by
      intro candidate hmem hrejected hfree
      obtain ⟨hregistered, hfree'⟩ := rejectReason_eq_none_iff.mp hfree
      have hblocked : blockedByAepScrutiny request candidate.effectClass = true := by
        by_contra h
        exact hrejected (rejectReason_eq_none_iff.mpr
          ⟨hregistered, Bool.eq_false_iff.mpr h⟩)
      obtain ⟨heffect, hreached⟩ := blockedByAepScrutiny_iff.mp hblocked
      refine hnot ⟨⟨hreached, ?_⟩, candidate, hmem, hregistered, heffect⟩
      rw [← Bool.not_eq_true, blockedByAepScrutiny_iff] at hfree'
      by_contra hreached'
      exact hfree' ⟨heffect, not_lt.mp hreached'⟩
    refine ⟨?_, heligible⟩
    intro hrouting haccept
    obtain ⟨hsoar, candidate, hmem, hfree⟩ := arbitrate_accept_iff.mp haccept
    rw [hraised.candidates] at hmem
    refine hrouting (arbitrate_accept_iff.mpr ⟨?_, candidate, hmem, ?_⟩)
    · rw [blockedBySoarBinding, ← hraised.soarBinding]
      exact hsoar
    · by_contra hrejected
      exact heligible candidate hmem hrejected hfree

theorem requestFromProposal_raised
    {host : Host} {proposal : Event} {contextRefs : List String}
    {aepState aepState' : List (String × PyVal)} {refs refs' : List String}
    {soarRun : Option SoarRun}
    (h : requestFromProposal host proposal contextRefs aepState refs soarRun =
      .ok request)
    (h' : requestFromProposal host proposal contextRefs aepState' refs' soarRun =
      .ok request')
    (hseverity : request.aepMaxSeverity ≤ request'.aepMaxSeverity)
    (hrefs : refs.Sublist refs') : Raised request request' := by
  unfold requestFromProposal at h h'
  cases hcontent : copyItems proposal.payload "content" with
  | error e =>
      rw [hcontent] at h
      cases h
  | ok content =>
      cases hpriority :
          host.toInt ((PyVal.item? content "priority").getD (.int 0)) with
      | error e =>
          simp only [bind, Except.bind, hcontent, hpriority] at h
          cases h
      | ok priority =>
          simp only [bind, Except.bind, hcontent, hpriority] at h h'
          split at h
          · cases h
          split at h'
          · cases h'
          cases h
          cases h'
          exact ⟨rfl, rfl, hseverity, Int.ofNat_le.mpr hrefs.length_le, hrefs⟩

end

/-- Scrutiny only restricts exactly where it does not lift the threshold over the
severity, and the requests for a proposal are of this kind. -/
theorem scrutiny_restricts_iff (request request' : ArbitrationRequest) :
    (Raised request request' →
      (Restricts request request' ↔
        ¬ (Lifted request request' ∧
          ∃ candidate ∈ request.candidates, ExternalWrite candidate))) ∧
    ∀ (host : Host) (proposal : Event) (contextRefs : List String)
      (aepState aepState' : List (String × PyVal)) (refs refs' : List String)
      (soarRun : Option SoarRun),
      requestFromProposal host proposal contextRefs aepState refs soarRun =
          .ok request →
        requestFromProposal host proposal contextRefs aepState' refs' soarRun =
            .ok request' →
          request.aepMaxSeverity ≤ request'.aepMaxSeverity →
            refs.Sublist refs' → Raised request request' :=
  ⟨fun h => h.restricts_iff,
    fun _ _ _ _ _ _ _ _ h h' hseverity hrefs =>
      requestFromProposal_raised h h' hseverity hrefs⟩

def scaffoldRequest (severity : ℤ) (modulations : List String) :
    ArbitrationRequest where
  requestId := "hal_req_1"
  proposalRef := "prop_1"
  candidates :=
    [{ candidateId := "cand_ext"
       actionRef := "act_ext"
       capabilityId := "cap.external_write_scaffold"
       effectClass := "external_write"
       priority := 0 }]
  contextRefs := []
  aepModulationRefs := modulations
  aepMaxSeverity := severity
  scrutinyDepthDelta := modulations.length
  soarRunRef := none
  soarBinding := none

def scaffoldProposal : Event where
  eventId := "evt_1"
  type := "COGNITION_PROPOSAL"
  payload :=
    [("proposal_id", .str "prop_1"),
      ("content",
        .dict [("capability_id", .str "cap.external_write_scaffold"),
          ("effect_class", .str "external_write")])]
  causalParents := []
  severity := none

theorem severity_restricts :
    Restricts (scaffoldRequest 6 []) (scaffoldRequest 7 []) ∧
      ∃ request request' : ArbitrationRequest,
        requestFromProposal referenceHost scaffoldProposal []
            [("max_severity", .int 6)] [] none = .ok request ∧
          requestFromProposal referenceHost scaffoldProposal []
            [("max_severity", .int 7)] ["aep_mod_1"] none = .ok request' ∧
          Raised request request' := by
  constructor
  · have hraised : Raised (scaffoldRequest 6 []) (scaffoldRequest 7 []) :=
      ⟨rfl, rfl, by decide, le_refl _, List.Sublist.refl _⟩
    refine ((scrutiny_restricts_iff _ _).1 hraised).mpr ?_
    rintro ⟨⟨hreached, -⟩, -⟩
    revert hreached
    decide
  · have hbuilt : requestFromProposal referenceHost scaffoldProposal []
        [("max_severity", .int 6)] [] none = .ok _ := rfl
    have hbuilt' : requestFromProposal referenceHost scaffoldProposal []
        [("max_severity", .int 7)] ["aep_mod_1"] none = .ok _ := rfl
    exact ⟨_, _, hbuilt, hbuilt', (scrutiny_restricts_iff _ _).2
      _ _ _ _ _ _ _ _ hbuilt hbuilt' (by decide) (List.nil_sublist _)⟩

/-- At severity 7 the write is blocked, and with one modulation it is accepted. -/
theorem modulation_loosens :
    Raised (scaffoldRequest 7 []) (scaffoldRequest 7 ["aep_mod_1"]) ∧
      (arbitrate (scaffoldRequest 7 [])).routing = .reject ∧
      (arbitrate (scaffoldRequest 7 ["aep_mod_1"])).routing = .accept ∧
      ¬ Restricts (scaffoldRequest 7 []) (scaffoldRequest 7 ["aep_mod_1"]) := by
  have hreject : (arbitrate (scaffoldRequest 7 [])).routing = .reject := by
    decide +kernel
  have haccept :
      (arbitrate (scaffoldRequest 7 ["aep_mod_1"])).routing = .accept := by
    decide +kernel
  refine ⟨⟨rfl, rfl, le_refl _, by decide, List.nil_sublist _⟩, hreject, haccept, ?_⟩
  intro hrestricts
  refine hrestricts.routing ?_ haccept
  rw [hreject]
  decide

end Hydrogenuine.Hal
