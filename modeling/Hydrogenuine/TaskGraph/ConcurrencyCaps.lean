import Mathlib.Algebra.Ring.Int.Defs
import Mathlib.Algebra.Order.BigOperators.Group.List
import Mathlib.Algebra.Order.Group.Int
import Hydrogenuine.Support.Dict
import Hydrogenuine.Support.Machine

/-!
# Concurrency caps

Embedding of `hg_core/task_graph/concurrency_caps.py`.  The slots in use are counted
twice, in all and for each workflow.  A release takes one from both counts, each with
its own floor at zero: where the workflow has no slot, only the first count moves.  The
two agree along a run exactly if no release does that.
-/

namespace Hydrogenuine.TaskGraph

open Support

/-! ## Counters -/

/-- `_limits`. -/
structure CapLimits where
  global : ℤ := 10
  perWorkflow : ℤ := 2

/-- The module-level counters, with the limits. -/
structure CapCounters where
  globalCount : ℤ := 0
  perWorkflow : Dict String ℤ := .empty
  limits : CapLimits := {}

/-- A call, with its arguments. -/
inductive CapCall where
  | setLimits (globalMax perWorkflowMax : Option ℤ)
  | tryAcquire (workflowId : String)
  | release (workflowId : String)

namespace CapCounters

/-- `_per_workflow.get(workflow_id, 0)`. -/
def count (s : CapCounters) (workflowId : String) : ℤ :=
  (s.perWorkflow.get? workflowId).getD 0

def setLimits (s : CapCounters) (globalMax perWorkflowMax : Option ℤ) : CapCounters :=
  { s with
    limits :=
      { global := globalMax.getD s.limits.global
        perWorkflow := perWorkflowMax.getD s.limits.perWorkflow } }

def tryAcquire (s : CapCounters) (workflowId : String) : CapCounters × Bool :=
  if s.limits.global ≤ s.globalCount then (s, false)
  else if s.limits.perWorkflow ≤ s.count workflowId then (s, false)
  else
    ({ s with
      globalCount := s.globalCount + 1
      perWorkflow := s.perWorkflow.set workflowId (s.count workflowId + 1) }, true)

def release (s : CapCounters) (workflowId : String) : CapCounters :=
  let n := s.count workflowId
  { s with
    globalCount := max 0 (s.globalCount - 1)
    perWorkflow :=
      if 0 < n then s.perWorkflow.set workflowId (n - 1) else s.perWorkflow }

end CapCounters

/-- The calls of a process, with the answers of `try_acquire`. -/
def capMachine : Machine CapCounters CapCall (Option Bool) where
  step s
    | .setLimits globalMax perWorkflowMax => (s.setLimits globalMax perWorkflowMax, none)
    | .tryAcquire workflowId =>
        let (s', acquired) := s.tryAcquire workflowId
        (s', some acquired)
    | .release workflowId => (s.release workflowId, none)

abbrev CapStep := Step CapCounters CapCall (Option Bool)

/-! ## The property -/

/-- The two counts agree, and no count is negative. -/
structure Balanced (s : CapCounters) : Prop where
  total : s.globalCount = s.perWorkflow.values.sum
  nonneg : 0 ≤ s.globalCount
  each : ∀ workflowId, 0 ≤ s.count workflowId

/-- An acquire that succeeds leaves both counts within their limits. -/
def AcquiresWithin (e : CapStep) : Prop :=
  ∀ workflowId, e.input = .tryAcquire workflowId → e.output = some true →
    e.after.globalCount ≤ e.after.limits.global ∧
      e.after.count workflowId ≤ e.after.limits.perWorkflow

/-- A release is of a workflow with a slot, unless no slot is in use at all. -/
def ReleasesSlot (s : CapCounters) : CapCall → Prop
  | .release workflowId => 0 < s.count workflowId ∨ s.globalCount = 0
  | _ => True

/-! ## One call -/

theorem sum_values_set (d : Dict String ℤ) (k : String) (v : ℤ) :
    (d.set k v).values.sum = d.values.sum - (d.get? k).getD 0 + v := by
  suffices hentries : ∀ entries : List (String × ℤ),
      ((assignEntry k v entries).map Prod.snd).sum =
        (entries.map Prod.snd).sum - (lookupEntry k entries).getD 0 + v from
    hentries d.entries
  intro entries
  induction entries with
  | nil => simp [assignEntry, lookupEntry]
  | cons entry rest ih =>
      obtain ⟨k', v'⟩ := entry
      by_cases hk : k' = k
      · simp only [assignEntry, lookupEntry, if_pos hk, List.map_cons, List.sum_cons,
          Option.getD_some]
        omega
      · simp only [assignEntry, lookupEntry, if_neg hk, List.map_cons, List.sum_cons, ih]
        omega

section

variable {s : CapCounters} {workflowId : String}

theorem count_le_sum (hs : ∀ workflowId, 0 ≤ s.count workflowId) :
    s.count workflowId ≤ s.perWorkflow.values.sum := by
  have hvalues : ∀ n ∈ s.perWorkflow.values, 0 ≤ n := by
    intro n hn
    obtain ⟨other, hother⟩ := s.perWorkflow.mem_values_iff.mp hn
    have hnonneg := hs other
    rw [CapCounters.count, hother] at hnonneg
    exact hnonneg
  cases hcount : s.perWorkflow.get? workflowId with
  | none =>
      rw [CapCounters.count, hcount]
      exact List.sum_nonneg hvalues
  | some n =>
      rw [CapCounters.count, hcount]
      exact List.single_le_sum hvalues n
        (s.perWorkflow.mem_values_iff.mpr ⟨workflowId, hcount⟩)

theorem count_set (s : CapCounters) (globalCount : ℤ) (workflowId other : String)
    (n : ℤ) :
    CapCounters.count
      { s with
        globalCount := globalCount
        perWorkflow := s.perWorkflow.set workflowId n } other =
      if other = workflowId then n else s.count other := by
  rw [CapCounters.count, Dict.get?_set]
  split
  · rfl
  · rfl

theorem balanced_setLimits (hs : Balanced s) (globalMax perWorkflowMax : Option ℤ) :
    Balanced (s.setLimits globalMax perWorkflowMax) where
  total := hs.total
  nonneg := hs.nonneg
  each := hs.each

theorem balanced_tryAcquire (hs : Balanced s) :
    Balanced (s.tryAcquire workflowId).1 := by
  unfold CapCounters.tryAcquire
  split_ifs with hglobal hworkflow
  · exact hs
  · exact hs
  · have hnonneg := hs.nonneg
    refine ⟨?_, ?_, fun other => ?_⟩
    · change s.globalCount + 1 = (s.perWorkflow.set workflowId _).values.sum
      rw [sum_values_set, hs.total, CapCounters.count]
      omega
    · change 0 ≤ s.globalCount + 1
      omega
    · rw [count_set]
      have hcount := hs.each workflowId
      split_ifs
      · omega
      · exact hs.each other

/-- A release keeps the balance exactly if it takes a slot from both counts, or from
neither. -/
theorem balanced_release_iff (hs : Balanced s) :
    Balanced (s.release workflowId) ↔ 0 < s.count workflowId ∨ s.globalCount = 0 := by
  have hle := @count_le_sum s workflowId hs.each
  have hnonneg := hs.nonneg
  have htotal := hs.total
  by_cases hslot : 0 < s.count workflowId
  · refine iff_of_true ⟨?_, ?_, fun other => ?_⟩ (Or.inl hslot)
    · change max 0 (s.globalCount - 1) = _
      simp only [CapCounters.release, if_pos hslot, sum_values_set]
      rw [CapCounters.count] at hslot hle ⊢
      omega
    · exact le_max_left (0 : ℤ) (s.globalCount - 1)
    · simp only [CapCounters.release, if_pos hslot]
      rw [count_set]
      split_ifs
      · omega
      · exact hs.each other
  · have hcounts : (s.release workflowId).perWorkflow = s.perWorkflow := by
      simp only [CapCounters.release, if_neg hslot]
    constructor
    · intro hafter
      have hbalance := hafter.total
      rw [hcounts, ← htotal] at hbalance
      change max 0 (s.globalCount - 1) = s.globalCount at hbalance
      omega
    · rintro (hpos | hzero)
      · exact absurd hpos hslot
      · refine ⟨?_, le_max_left (0 : ℤ) (s.globalCount - 1), fun other => ?_⟩
        · rw [hcounts, ← htotal, hzero]
          change max 0 (s.globalCount - 1) = 0
          omega
        · rw [CapCounters.count, hcounts]
          exact hs.each other

end

theorem balanced_step_iff {s : CapCounters} (hs : Balanced s) (call : CapCall) :
    Balanced (capMachine.step s call).1 ↔ ReleasesSlot s call := by
  cases call with
  | setLimits globalMax perWorkflowMax =>
      exact iff_of_true (balanced_setLimits hs globalMax perWorkflowMax) trivial
  | tryAcquire workflowId => exact iff_of_true (balanced_tryAcquire hs) trivial
  | release workflowId => exact balanced_release_iff hs

theorem acquiresWithin (s : CapCounters) (call : CapCall) :
    AcquiresWithin (capMachine.stepAt s call) := by
  rintro workflowId rfl hacquired
  change some (s.tryAcquire workflowId).2 = some true at hacquired
  change (s.tryAcquire workflowId).1.globalCount ≤
      (s.tryAcquire workflowId).1.limits.global ∧
    (s.tryAcquire workflowId).1.count workflowId ≤
      (s.tryAcquire workflowId).1.limits.perWorkflow
  unfold CapCounters.tryAcquire at hacquired ⊢
  split_ifs at hacquired ⊢ with hglobal hworkflow
  · cases hacquired
  · cases hacquired
  · refine ⟨?_, ?_⟩
    · change s.globalCount + 1 ≤ s.limits.global
      omega
    · rw [count_set, if_pos rfl]
      change s.count workflowId + 1 ≤ s.limits.perWorkflow
      omega

/-! ## Runs -/

/-- The counts stay balanced along a run, with every acquire within the limits, exactly
if every release is of a workflow with a slot or comes while no slot is in use. -/
theorem caps_balanced_iff (calls : List CapCall) :
    (∀ e ∈ capMachine.trace {} calls, Balanced e.after ∧ AcquiresWithin e) ↔
      capMachine.Guarded ReleasesSlot {} calls := by
  have hinitial : Balanced {} :=
    { total := rfl
      nonneg := le_rfl
      each := fun _ => le_refl (0 : ℤ) }
  rw [← Machine.forall_after_iff_guarded calls
    (fun s call _ hs => balanced_step_iff hs call) (fun _ _ _ _ h => h) hinitial]
  refine forall₂_congr fun e he => and_iff_left ?_
  rw [Machine.mem_trace_eq_stepAt he]
  exact acquiresWithin e.before e.input

/-- A release of a workflow without a slot gives back the slot of another. -/
theorem caps_not_balanced :
    ¬ ∀ calls : List CapCall, ∀ e ∈ capMachine.trace {} calls,
      Balanced e.after ∧ AcquiresWithin e := by
  intro h
  have hreleased := h [.tryAcquire "w1", .release "w2"]
    (capMachine.stepAt (capMachine.step {} (.tryAcquire "w1")).1 (.release "w2"))
    (List.mem_cons_of_mem _ List.mem_cons_self)
  exact absurd hreleased.1.total (by decide)

end Hydrogenuine.TaskGraph
