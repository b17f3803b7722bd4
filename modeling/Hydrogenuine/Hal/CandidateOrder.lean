import Hydrogenuine.Hal.Arbitration
import Mathlib.Data.String.Basic

/-!
# The order of the candidates

The arbiter sorts its candidates by priority and id before it walks through them.  With
distinct ids the sorted list, and so the result, does not depend on the order in which
the candidates are listed.  The loop keeps every candidate, and it selects the first
eligible one.
-/

namespace Hydrogenuine.Hal

open Support

/-! ## The sorting key -/

section Key

variable {a b c : ArbitrationCandidate}

theorem keyLe_refl (a : ArbitrationCandidate) : keyLe a a := Or.inr ⟨rfl, le_refl _⟩

theorem keyLe_trans (hab : keyLe a b) (hbc : keyLe b c) : keyLe a c := by
  rcases hab with hab | ⟨hab, hids⟩
  · rcases hbc with hbc | ⟨hbc, -⟩
    · exact Or.inl (hbc.trans hab)
    · exact Or.inl (hbc ▸ hab)
  · rcases hbc with hbc | ⟨hbc, hids'⟩
    · exact Or.inl (hab ▸ hbc)
    · exact Or.inr ⟨hab.trans hbc, hids.trans hids'⟩

theorem keyLe_total (a b : ArbitrationCandidate) : keyLe a b ∨ keyLe b a := by
  rcases lt_trichotomy a.priority b.priority with hlt | heq | hgt
  · exact Or.inr (Or.inl hlt)
  · rcases le_total a.candidateId b.candidateId with hids | hids
    · exact Or.inl (Or.inr ⟨heq, hids⟩)
    · exact Or.inr (Or.inr ⟨heq.symm, hids⟩)
  · exact Or.inl (Or.inl hgt)

instance : IsTrans ArbitrationCandidate keyLe := ⟨fun _ _ _ => keyLe_trans⟩

instance : Std.Total keyLe := ⟨keyLe_total⟩

theorem candidateId_eq_of_keyLe (hab : keyLe a b) (hba : keyLe b a) :
    a.candidateId = b.candidateId := by
  rcases hab with hab | ⟨hab, hids⟩
  · rcases hba with hba | ⟨hba, -⟩
    · exact absurd hba (lt_asymm hab)
    · exact absurd hba hab.ne
  · rcases hba with hba | ⟨-, hids'⟩
    · exact absurd hab hba.ne
    · exact le_antisymm hids hids'

theorem insertionSort_eq_of_perm {candidates candidates' : List ArbitrationCandidate}
    (hperm : candidates'.Perm candidates)
    (hdistinct : (candidates.map ArbitrationCandidate.candidateId).Nodup) :
    candidates'.insertionSort keyLe = candidates.insertionSort keyLe := by
  have hsorted := List.pairwise_insertionSort keyLe candidates
  have hsorted' := List.pairwise_insertionSort keyLe candidates'
  have hsame := ((List.perm_insertionSort keyLe candidates').trans hperm).trans
    (List.perm_insertionSort keyLe candidates).symm
  refine List.Perm.eq_of_pairwise (fun a b ha hb hab hba => ?_) hsorted' hsorted hsame
  exact List.inj_on_of_nodup_map hdistinct
    (hperm.subset ((List.mem_insertionSort _).mp ha)) ((List.mem_insertionSort _).mp hb)
    (candidateId_eq_of_keyLe hab hba)

end Key

/-! ## The loop over the candidates -/

section Loop

variable (request : ArbitrationRequest)

def Selection.refs (loop : Selection) : List String :=
  loop.selected.toList.map ArbitrationCandidate.actionRef ++ loop.deferred

theorem Selection.refs_next (loop : Selection) (candidate : ArbitrationCandidate) :
    (loop.next request candidate).refs.Perm (loop.refs ++ [candidate.actionRef]) := by
  rcases hreason : rejectReason request candidate with _ | reason
  · rcases hselected : loop.selected with _ | selected
    · simp only [refs, next, hreason, hselected, Option.toList_some, Option.toList_none,
        List.map_cons, List.map_nil, List.nil_append]
      exact List.perm_append_comm
    · simp [refs, next, hreason, hselected]
  · simp [refs, next, hreason]

theorem refs_foldl_next (candidates : List ArbitrationCandidate) (loop : Selection) :
    (candidates.foldl (Selection.next request) loop).refs.Perm
      (loop.refs ++ candidates.map ArbitrationCandidate.actionRef) := by
  induction candidates generalizing loop with
  | nil => simp
  | cons candidate candidates ih =>
      have hrest := (loop.refs_next request candidate).append_right
        (candidates.map ArbitrationCandidate.actionRef)
      rw [List.append_assoc] at hrest
      exact (ih _).trans hrest

theorem selected_foldl_next (candidates : List ArbitrationCandidate) (loop : Selection) :
    (candidates.foldl (Selection.next request) loop).selected =
      loop.selected.or (candidates.find? fun c => (rejectReason request c).isNone) := by
  induction candidates generalizing loop with
  | nil => simp
  | cons candidate candidates ih =>
      rw [List.foldl_cons, ih]
      rcases hreason : rejectReason request candidate with _ | reason
      · rcases hselected : loop.selected with _ | selected
        · simp [Selection.next, hreason, hselected]
        · simp [Selection.next, hreason, hselected]
      · simp [Selection.next, hreason]

end Loop

/-! ## Arbitration -/

/-- The candidate is eligible, and no other eligible one comes before it. -/
structure BestCandidate
    (request : ArbitrationRequest) (candidate : ArbitrationCandidate) : Prop where
  mem : candidate ∈ request.candidates
  eligible : rejectReason request candidate = none
  minimal : ∀ other ∈ request.candidates, rejectReason request other = none →
    keyLe candidate other

theorem bestCandidate_of_find?
    {request : ArbitrationRequest} {candidate : ArbitrationCandidate}
    (h : (request.candidates.insertionSort keyLe).find?
      (fun c => (rejectReason request c).isNone) = some candidate) :
    BestCandidate request candidate := by
  obtain ⟨hnone, before, after, hsplit, hbefore⟩ := List.find?_eq_some_iff_append.mp h
  have hsorted := List.pairwise_insertionSort keyLe request.candidates
  rw [hsplit, List.pairwise_append, List.pairwise_cons] at hsorted
  have hmem : ∀ c, c ∈ request.candidates ↔ c ∈ before ++ candidate :: after := by
    intro c
    rw [← hsplit, List.mem_insertionSort]
  refine ⟨(hmem candidate).mpr (List.mem_append_right _ List.mem_cons_self),
    Option.isNone_iff_eq_none.mp hnone, fun other hother heligible => ?_⟩
  rcases List.mem_append.mp ((hmem other).mp hother) with hfirst | hrest
  · have hpassed := hbefore other hfirst
    simp [heligible] at hpassed
  · rcases List.mem_cons.mp hrest with rfl | hlater
    · exact keyLe_refl _
    · exact hsorted.2.1.1 other hlater

theorem arbitrate_accept {request : ArbitrationRequest}
    (haccept : (arbitrate request).routing = .accept) :
    ∃ selected, BestCandidate request selected ∧
      (arbitrate request).selectedCandidateRef = some selected.actionRef ∧
      (selected.actionRef :: (arbitrate request).deferredCandidateRefs).Perm
        (request.candidates.map ArbitrationCandidate.actionRef) := by
  have hfirst := selected_foldl_next request (request.candidates.insertionSort keyLe)
    ⟨none, [], "no_eligible_candidate"⟩
  have hrefs := refs_foldl_next request (request.candidates.insertionSort keyLe)
    ⟨none, [], "no_eligible_candidate"⟩
  unfold arbitrate at haccept ⊢
  rcases hsoar : blockedBySoarBinding request with _ | ⟨routing, reasonCode⟩
  · simp only [hsoar] at haccept ⊢
    by_cases hempty : request.candidates.isEmpty = true
    · rw [if_pos hempty] at haccept
      cases haccept
    · rw [if_neg hempty] at haccept ⊢
      rcases hselected : ((request.candidates.insertionSort keyLe).foldl
        (Selection.next request) ⟨none, [], "no_eligible_candidate"⟩).selected
        with _ | selected
      · simp only [hselected] at haccept
        cases haccept
      · rw [hselected, Option.none_or] at hfirst
        rw [Selection.refs, hselected] at hrefs
        exact ⟨selected, bestCandidate_of_find? hfirst.symm, rfl,
          hrefs.trans ((List.perm_insertionSort keyLe _).map _)⟩
  · simp only [hsoar] at haccept
    subst haccept
    unfold blockedBySoarBinding at hsoar
    split at hsoar
    all_goals cases hsoar

/-- The result of an arbitration over candidates with distinct ids does not depend on
their order.  It is the best candidate that is accepted, and no action is lost. -/
theorem arbitrate_order
    (request : ArbitrationRequest)
    (hdistinct : (request.candidates.map ArbitrationCandidate.candidateId).Nodup) :
    (∀ candidates : List ArbitrationCandidate, candidates.Perm request.candidates →
      arbitrate { request with candidates := candidates } = arbitrate request) ∧
    ((arbitrate request).routing = .accept →
      ∃ selected, BestCandidate request selected ∧
        (arbitrate request).selectedCandidateRef = some selected.actionRef ∧
        (selected.actionRef :: (arbitrate request).deferredCandidateRefs).Perm
          (request.candidates.map ArbitrationCandidate.actionRef)) := by
  refine ⟨fun candidates hperm => ?_, arbitrate_accept⟩
  have hsorted := insertionSort_eq_of_perm hperm hdistinct
  have hempty : candidates.isEmpty = request.candidates.isEmpty := by
    rw [Bool.eq_iff_iff, List.isEmpty_iff, List.isEmpty_iff]
    exact ⟨fun h => (h ▸ hperm).nil_eq.symm, fun h => (h ▸ hperm).eq_nil⟩
  simp only [arbitrate, hsorted, hempty]
  rfl

def twoCandidates : ArbitrationRequest where
  requestId := "hal_req_2"
  proposalRef := "prop_2"
  candidates :=
    [⟨"cand_a", "act_a", "cap.oea_stub_log", "audit_log", 1⟩,
      ⟨"cand_b", "act_b", "cap.oea_stub_log", "audit_log", 2⟩]
  contextRefs := []
  aepModulationRefs := []
  aepMaxSeverity := 0
  scrutinyDepthDelta := 0
  soarRunRef := none
  soarBinding := none

theorem twoCandidates_order :
    arbitrate { twoCandidates with candidates := twoCandidates.candidates.reverse } =
        arbitrate twoCandidates ∧
      ∃ selected, BestCandidate twoCandidates selected ∧
        (arbitrate twoCandidates).selectedCandidateRef = some selected.actionRef ∧
        (selected.actionRef :: (arbitrate twoCandidates).deferredCandidateRefs).Perm
          (twoCandidates.candidates.map ArbitrationCandidate.actionRef) :=
  ⟨(arbitrate_order twoCandidates (by decide)).1 _ (List.reverse_perm _),
    (arbitrate_order twoCandidates (by decide)).2 (by decide +kernel)⟩

end Hydrogenuine.Hal
