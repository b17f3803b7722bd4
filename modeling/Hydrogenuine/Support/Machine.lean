import Mathlib.Data.List.Induction
import Mathlib.Order.Basic

/-!
# Runs of a deterministic machine

A machine takes one input at a time, changes its state and returns an output.
`trace` records a whole run as the list of its steps, each with the states
around it, and `invariant` is the induction rule from which every property of
runs below is derived: what holds initially and survives one more step holds
along every run.  `invariant_of_guarded` is the same rule for the runs whose
steps all meet a guard, and `forall_after_iff_guarded` the rule for a property that a
guard decides at each step.
-/

namespace Hydrogenuine.Support

universe u v w

/-- A deterministic machine with outputs. -/
structure Machine (σ : Type u) (ι : Type v) (ο : Type w) where
  step : σ → ι → σ × ο

/-- One step of a run together with the states around it. -/
structure Step (σ : Type u) (ι : Type v) (ο : Type w) where
  before : σ
  input : ι
  output : ο
  after : σ

namespace Machine

variable {σ : Type u} {ι : Type v} {ο : Type w} (M : Machine σ ι ο)

/-- The step taken from `s` on input `i`. -/
def stepAt (s : σ) (i : ι) : Step σ ι ο where
  before := s
  input := i
  output := (M.step s i).2
  after := (M.step s i).1

/-- The steps of the run from `s` on the given inputs. -/
def trace : σ → List ι → List (Step σ ι ο)
  | _, [] => []
  | s, i :: is => M.stepAt s i :: trace (M.step s i).1 is

/-- The state reached from `s` on the given inputs. -/
def final : σ → List ι → σ
  | s, [] => s
  | s, i :: is => final (M.step s i).1 is

theorem final_snoc (s : σ) (is : List ι) (i : ι) :
    M.final s (is ++ [i]) = (M.step (M.final s is) i).1 := by
  induction is generalizing s with
  | nil => rfl
  | cons j is ih => exact ih _

theorem trace_snoc (s : σ) (is : List ι) (i : ι) :
    M.trace s (is ++ [i]) = M.trace s is ++ [M.stepAt (M.final s is) i] := by
  induction is generalizing s with
  | nil => rfl
  | cons j is ih => exact congrArg (M.stepAt s j :: ·) (ih _)

theorem final_append (s : σ) (is js : List ι) :
    M.final s (is ++ js) = M.final (M.final s is) js := by
  induction is generalizing s with
  | nil => rfl
  | cons i is ih => exact ih _

theorem trace_append (s : σ) (is js : List ι) :
    M.trace s (is ++ js) = M.trace s is ++ M.trace (M.final s is) js := by
  induction is generalizing s with
  | nil => rfl
  | cons i is ih => exact congrArg (M.stepAt s i :: ·) (ih _)

/-- Every step of the run from `s` meets `Guard`. -/
def Guarded (Guard : σ → ι → Prop) (s : σ) (is : List ι) : Prop :=
  ∀ e ∈ M.trace s is, Guard e.before e.input

variable {M}

variable {Guard : σ → ι → Prop} {is : List ι} {e : Step σ ι ο} {s : σ} {s₀ : σ}

theorem guarded_nil :
    M.Guarded Guard s [] :=
  List.forall_mem_nil _

theorem guarded_cons {i : ι} :
    M.Guarded Guard s (i :: is) ↔
      Guard s i ∧ M.Guarded Guard (M.step s i).1 is :=
  List.forall_mem_cons

theorem guarded_snoc_iff {i : ι} :
    M.Guarded Guard s (is ++ [i]) ↔
      M.Guarded Guard s is ∧ Guard (M.final s is) i := by
  rw [Guarded, trace_snoc, List.forall_mem_append, List.forall_mem_singleton]
  rfl

/-- What holds of the empty run, and survives one more guarded step, holds of
every run whose steps all meet the guard. -/
theorem invariant_of_guarded
    {Guard : σ → ι → Prop} (Inv : List (Step σ ι ο) → σ → Prop) {s₀ : σ}
    (hinit : Inv [] s₀)
    (hstep : ∀ tr s i, Inv tr s → Guard s i →
      Inv (tr ++ [M.stepAt s i]) (M.step s i).1)
    (is : List ι) (hguard : M.Guarded Guard s₀ is) :
    Inv (M.trace s₀ is) (M.final s₀ is) := by
  induction is using List.reverseRecOn with
  | nil => exact hinit
  | append_singleton is i ih =>
      obtain ⟨hprev, hi⟩ := guarded_snoc_iff.mp hguard
      rw [trace_snoc, final_snoc]
      exact hstep _ _ _ (ih hprev) hi

/-- If a guard decides at each step whether the state after it is good, and good steps
keep an invariant, then all states of a run are good exactly when the run is
guarded. -/
theorem forall_after_iff_guarded
    {Inv Good : σ → Prop} {Guard : σ → ι → Prop} (is : List ι)
    (hgood : ∀ s, ∀ i ∈ is, Inv s → (Good (M.step s i).1 ↔ Guard s i))
    (hkeep : ∀ s, ∀ i ∈ is, Inv s → Good (M.step s i).1 → Inv (M.step s i).1)
    {s : σ} (hs : Inv s) :
    (∀ e ∈ M.trace s is, Good e.after) ↔ M.Guarded Guard s is := by
  induction is generalizing s with
  | nil => exact iff_of_true (List.forall_mem_nil _) guarded_nil
  | cons i is ih =>
      have hrest : ∀ {t}, Inv t →
          ((∀ e ∈ M.trace t is, Good e.after) ↔ M.Guarded Guard t is) :=
        ih (fun s j hj => hgood s j (List.mem_cons_of_mem _ hj))
          (fun s j hj => hkeep s j (List.mem_cons_of_mem _ hj))
      have hfirst := hgood s i List.mem_cons_self hs
      rw [guarded_cons]
      constructor
      · intro h
        obtain ⟨hafter, hothers⟩ := List.forall_mem_cons.mp h
        have hinv := hkeep s i List.mem_cons_self hs hafter
        exact ⟨hfirst.mp hafter, (hrest hinv).mp hothers⟩
      · rintro ⟨hguard, hothers⟩
        have hafter := hfirst.mpr hguard
        have hinv := hkeep s i List.mem_cons_self hs hafter
        exact List.forall_mem_cons.mpr ⟨hafter, (hrest hinv).mpr hothers⟩

/-- A property of the steps of a run, each with the steps before it. -/
theorem forall_split_concat
    {α : Type u} {P : List α → α → Prop} {xs : List α} {x : α} :
    (∀ earlier e later, xs ++ [x] = earlier ++ e :: later → P earlier e) ↔
      (∀ earlier e later, xs = earlier ++ e :: later → P earlier e) ∧ P xs x := by
  constructor
  · intro h
    refine ⟨fun earlier e later heq => ?_, h xs x [] rfl⟩
    exact h earlier e (later ++ [x]) (by rw [heq, List.append_assoc, List.cons_append])
  · rintro ⟨hinit, hlast⟩ earlier e later heq
    rcases List.eq_nil_or_concat later with rfl | ⟨later, last, rfl⟩
    · obtain ⟨rfl, hlist⟩ := List.append_inj' heq rfl
      rw [← (List.cons.inj hlist).1]
      exact hlast
    · rw [List.concat_eq_append, ← List.cons_append, ← List.append_assoc] at heq
      exact hinit earlier e later (List.append_inj' heq rfl).1

/-- If a guard decides at each step whether the step is good after the steps so far, and
guarded steps keep an invariant, then all steps of a run are good exactly when all meet
the guard. -/
theorem forall_split_iff
    (Inv : List (Step σ ι ο) → σ → Prop)
    (Guard Good : List (Step σ ι ο) → Step σ ι ο → Prop) (hinit : Inv [] s₀)
    (hgood : ∀ tr s i, Inv tr s → (Good tr (M.stepAt s i) ↔ Guard tr (M.stepAt s i)))
    (hkeep : ∀ tr s i, Inv tr s → Guard tr (M.stepAt s i) →
      Inv (tr ++ [M.stepAt s i]) (M.step s i).1)
    (is : List ι) :
    (∀ earlier e later, M.trace s₀ is = earlier ++ e :: later → Good earlier e) ↔
      ∀ earlier e later, M.trace s₀ is = earlier ++ e :: later → Guard earlier e := by
  suffices hboth : ((∀ earlier e later, M.trace s₀ is = earlier ++ e :: later →
      Good earlier e) ↔ ∀ earlier e later, M.trace s₀ is = earlier ++ e :: later →
        Guard earlier e) ∧
      ((∀ earlier e later, M.trace s₀ is = earlier ++ e :: later → Guard earlier e) →
        Inv (M.trace s₀ is) (M.final s₀ is)) from hboth.1
  induction is using List.reverseRecOn with
  | nil =>
      have hnone {P : List (Step σ ι ο) → Step σ ι ο → Prop} :
          ∀ earlier e later, M.trace s₀ [] = earlier ++ e :: later → P earlier e :=
        fun earlier e later h => by cases earlier <;> cases h
      exact ⟨iff_of_true hnone hnone, fun _ => hinit⟩
  | append_singleton is i ih =>
      obtain ⟨hiff, hinv⟩ := ih
      rw [trace_snoc, final_snoc, forall_split_concat, forall_split_concat, hiff]
      exact ⟨and_congr_right fun hguard => hgood _ _ _ (hinv hguard),
        fun ⟨hguard, hlast⟩ => hkeep _ _ _ (hinv hguard) hlast⟩

/-- If an invariant makes the next step good after the steps so far whenever it meets a
guard on those steps, then every step of a run that meets the guard is good. -/
theorem forall_split_of_forall_split
    (Inv : List (Step σ ι ο) → σ → Prop)
    (Guard Good : List (Step σ ι ο) → Step σ ι ο → Prop) (hinit : Inv [] s₀)
    (hstep : ∀ tr s i, Inv tr s → Guard tr (M.stepAt s i) →
      Inv (tr ++ [M.stepAt s i]) (M.step s i).1 ∧ Good tr (M.stepAt s i))
    (hguard : ∀ earlier e later, M.trace s₀ is = earlier ++ e :: later →
      Guard earlier e) :
    ∀ earlier e later, M.trace s₀ is = earlier ++ e :: later → Good earlier e := by
  have hboth := (forall_split_iff Inv Guard (fun tr e => Guard tr e ∧ Good tr e) hinit
    (fun tr s i hinv => ⟨And.left, fun hi => ⟨hi, (hstep tr s i hinv hi).2⟩⟩)
    (fun tr s i hinv hi => (hstep tr s i hinv hi).1) is).mpr hguard
  exact fun earlier e later heq => (hboth earlier e later heq).2

/-- If an invariant of guarded runs makes the next guarded step good after the steps so
far, then every step of a guarded run is good after the steps before it. -/
theorem forall_split_of_guarded (Inv : List (Step σ ι ο) → σ → Prop)
    (Good : List (Step σ ι ο) → Step σ ι ο → Prop) (hinit : Inv [] s₀)
    (hstep : ∀ tr s i, Inv tr s → Guard s i →
      Inv (tr ++ [M.stepAt s i]) (M.step s i).1 ∧ Good tr (M.stepAt s i)) (hguard : M.Guarded Guard s₀ is) :
    ∀ earlier e later, M.trace s₀ is = earlier ++ e :: later → Good earlier e := by
  refine forall_split_of_forall_split Inv (fun _ e => Guard e.before e.input) Good hinit
    hstep fun earlier e later heq => hguard e ?_
  rw [heq]
  exact List.mem_append_right _ List.mem_cons_self

/-- What holds of the empty run and survives one more step holds of every
run. -/
theorem invariant
    (Inv : List (Step σ ι ο) → σ → Prop)
    (hinit : Inv [] s₀)
    (hstep : ∀ tr s i, Inv tr s → Inv (tr ++ [M.stepAt s i]) (M.step s i).1)
    (is : List ι) :
    Inv (M.trace s₀ is) (M.final s₀ is) :=
  @invariant_of_guarded _ _ _ _ (fun _ _ => True) Inv _ hinit
    (fun tr s i hinv _ => hstep tr s i hinv) is (fun _ _ => trivial)

/-- A property of the state that every step keeps holds in the states around
every step of a run. -/
theorem invariant_around
    (Inv : σ → Prop) {s₀ : σ}
    (hinit : Inv s₀) (hstep : ∀ s i, Inv s → Inv (M.step s i).1)
    (is : List ι) :
    ∀ e ∈ M.trace s₀ is, Inv e.before ∧ Inv e.after := by
  induction is generalizing s₀ with
  | nil =>
      intro e he
      cases he
  | cons i is ih =>
      intro e he
      rcases List.mem_cons.mp he with rfl | he
      · exact ⟨hinit, hstep _ _ hinit⟩
      · exact ih (hstep _ _ hinit) e he

/-- Once `Sets` has happened, `Blocked` never happens again, provided that a
property of the state separates the two: setting establishes it, every step
keeps it, and no blocked step is taken where it holds.  The three conditions are
only asked for in states that satisfy an invariant. -/
theorem pairwise_of_barrier_of_inv
    (Inv Barrier : σ → Prop) {Sets Blocked : Step σ ι ο → Prop}
    (hinv : ∀ s i, Inv s → Inv (M.step s i).1)
    (hset : ∀ s i, Inv s → Sets (M.stepAt s i) → Barrier (M.step s i).1)
    (hkeep : ∀ s i, Inv s → Barrier s → Barrier (M.step s i).1)
    (hblock : ∀ s i, Inv s → Barrier s → ¬ Blocked (M.stepAt s i))
    {s : σ} (hs : Inv s) (is : List ι) :
    (M.trace s is).Pairwise fun e e' => Sets e → ¬ Blocked e' := by
  have hafter : ∀ (is : List ι) (s : σ), Inv s → Barrier s →
      ∀ e ∈ M.trace s is, ¬ Blocked e := by
    intro is
    induction is with
    | nil =>
        intro s _ _ e he
        cases he
    | cons i is ih =>
        intro s hs hbarrier e he
        rcases List.mem_cons.mp he with rfl | he
        · exact hblock s i hs hbarrier
        · exact ih _ (hinv s i hs) (hkeep s i hs hbarrier) e he
  induction is generalizing s with
  | nil => exact List.Pairwise.nil
  | cons i is ih =>
      refine List.Pairwise.cons ?_ (ih (hinv s i hs))
      intro e he hsets
      exact hafter is _ (hinv s i hs) (hset s i hs hsets) e he

theorem pairwise_of_barrier
    (Barrier : σ → Prop) {Sets Blocked : Step σ ι ο → Prop}
    (hset : ∀ s i, Sets (M.stepAt s i) → Barrier (M.step s i).1)
    (hkeep : ∀ s i, Barrier s → Barrier (M.step s i).1)
    (hblock : ∀ s i, Barrier s → ¬ Blocked (M.stepAt s i))
    (s : σ) (is : List ι) :
    (M.trace s is).Pairwise fun e e' => Sets e → ¬ Blocked e' :=
  pairwise_of_barrier_of_inv (fun _ => True) Barrier (fun _ _ _ => trivial)
    (fun s i _ => hset s i) (fun s i _ => hkeep s i) (fun s i _ => hblock s i)
    trivial is

/-- Every recorded step is a step of the machine. -/
theorem mem_trace_eq_stepAt (he : e ∈ M.trace s is) :
    e = M.stepAt e.before e.input := by
  induction is generalizing s with
  | nil => cases he
  | cons i is ih =>
      rcases List.mem_cons.mp he with rfl | he
      · rfl
      · exact ih he

/-- Every recorded step starts in a state that a beginning of the run reaches. -/
theorem exists_prefix_of_mem_trace (he : e ∈ M.trace s is) :
    ∃ js, js <+: is ∧ e.before = M.final s js := by
  induction is generalizing s with
  | nil => cases he
  | cons i is ih =>
      rcases List.mem_cons.mp he with rfl | he
      · exact ⟨[], List.nil_prefix, rfl⟩
      · obtain ⟨js, hjs, hbefore⟩ := ih he
        exact ⟨i :: js, List.cons_prefix_cons.mpr ⟨rfl, hjs⟩, hbefore⟩

theorem input_mem_of_mem_trace (he : e ∈ M.trace s is) :
    e.input ∈ is := by
  induction is generalizing s with
  | nil => cases he
  | cons i is ih =>
      rcases List.mem_cons.mp he with rfl | he
      · exact List.mem_cons_self
      · exact List.mem_cons_of_mem _ (ih he)

end Machine

/-- An event that excludes its own repetition is counted at most once. -/
theorem countP_le_one_of_pairwise
    {α : Type u} {p : α → Bool} {xs : List α}
    (hxs : xs.Pairwise fun a b => p a = true → ¬ p b = true) :
    xs.countP p ≤ 1 := by
  induction hxs with
  | nil => simp
  | @cons a xs ha _ ih =>
      by_cases hp : p a = true
      · have hzero : xs.countP p = 0 := by
          rw [List.countP_eq_zero]
          intro b hb
          exact ha b hb hp
        simp [hp, hzero]
      · simpa [List.countP_cons, hp] using ih

/-- A time that no reading of a clock comes before. -/
theorem exists_pairwise_le_cons
    {α : Type u} [Preorder α] [Inhabited α] {readings : List α}
    (h : readings.Pairwise (· ≤ ·)) :
    ∃ start, (start :: readings).Pairwise (· ≤ ·) := by
  cases readings with
  | nil => exact ⟨default, List.pairwise_singleton _ _⟩
  | cons first rest =>
      refine ⟨first, List.pairwise_cons.mpr ⟨?_, h⟩⟩
      intro reading hreading
      rcases List.mem_cons.mp hreading with rfl | hrest
      · exact le_rfl
      · exact (List.pairwise_cons.mp h).1 reading hrest

end Hydrogenuine.Support
