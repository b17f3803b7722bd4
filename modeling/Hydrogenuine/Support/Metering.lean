import Mathlib.Algebra.Order.Field.Basic
import Mathlib.Data.List.Count
import Mathlib.Tactic.Linarith
import Mathlib.Tactic.Ring

/-!
# Metered events

A level pays for events: one unit for each that passes.  Between two events it
grows at a rate at most, and never beyond a capacity.  Then every window of time,
wherever it lies, holds at most as many passing events as the capacity pays for,
and what the rate yields within the window.
-/

namespace Hydrogenuine.Support

universe u

variable {τ : Type u} [LinearOrder τ]

/-- How many events pass from time `s` to time `t`. -/
def passedWithin (s t : τ) (events : List (τ × Bool)) : ℕ :=
  events.countP fun event => event.2 && decide (s ≤ event.1 ∧ event.1 ≤ t)

/-- How many events pass up to time `t`. -/
def passedUntil (t : τ) (events : List (τ × Bool)) : ℕ :=
  events.countP fun event => event.2 && decide (event.1 ≤ t)

variable {s t now : τ} {events : List (τ × Bool)}

theorem passedWithin_le_passedUntil (s t : τ) (events : List (τ × Bool)) :
    passedWithin s t events ≤ passedUntil t events := by
  refine List.countP_mono_left fun event _ h => ?_
  rw [Bool.and_eq_true, decide_eq_true_iff] at h ⊢
  exact ⟨h.1, h.2.2⟩

theorem passedUntil_refused :
    passedUntil t ((now, false) :: events) = passedUntil t events := by
  simp [passedUntil]

theorem passedUntil_passed (h : now ≤ t) :
    passedUntil t ((now, true) :: events) = passedUntil t events + 1 := by
  simp [passedUntil, h]

theorem passedWithin_of_lt {b : Bool} (h : now < s) :
    passedWithin s t ((now, b) :: events) = passedWithin s t events := by
  simp [passedWithin, not_le.mpr h]

section Levels

variable [Field τ]

/-- The events come in the order of their times, and the level that is left at time
`last` pays for those that pass. -/
inductive Metered (capacity rate : τ) : τ → τ → List (τ × Bool) → Prop
  | nil (level last : τ) : Metered capacity rate level last []
  | passed {level last now filled : τ} {events : List (τ × Bool)} :
      last ≤ now → filled ≤ capacity → filled ≤ level + (now - last) * rate →
      1 ≤ filled → Metered capacity rate (filled - 1) now events →
      Metered capacity rate level last ((now, true) :: events)
  | refused {level last now filled : τ} {events : List (τ × Bool)} :
      last ≤ now → filled ≤ capacity → filled ≤ level + (now - last) * rate →
      0 ≤ filled → Metered capacity rate filled now events →
      Metered capacity rate level last ((now, false) :: events)

variable {capacity rate level last : τ}

/-- The events come after the time of the level. -/
theorem Metered.le_of_mem
    (h : Metered capacity rate level last events) {event : τ × Bool}
    (hmem : event ∈ events) : last ≤ event.1 := by
  induction h with
  | nil => cases hmem
  | passed hle _ _ _ _ ih =>
      rcases List.mem_cons.mp hmem with rfl | hrest
      · exact hle
      · exact hle.trans (ih hrest)
  | refused hle _ _ _ _ ih =>
      rcases List.mem_cons.mp hmem with rfl | hrest
      · exact hle
      · exact hle.trans (ih hrest)

theorem Metered.passedUntil_of_lt
    (h : Metered capacity rate level last events) (hlast : t < last) :
    passedUntil t events = 0 := by
  refine List.countP_eq_zero.mpr fun event hmem hpassed => ?_
  rw [Bool.and_eq_true, decide_eq_true_iff] at hpassed
  exact absurd (hlast.trans_le (h.le_of_mem hmem)) (not_lt.mpr hpassed.2)

variable [IsStrictOrderedRing τ]

/-- What passes up to a time is paid for by the level and by what the rate yields
until then. -/
theorem Metered.passedUntil_le
    (h : Metered capacity rate level last events) (hrate : 0 ≤ rate)
    (hlevel : 0 ≤ level) (hlast : last ≤ t) :
    (passedUntil t events : τ) ≤ level + (t - last) * rate := by
  have hyield {u v : τ} (huv : u ≤ v) : 0 ≤ (v - u) * rate :=
    mul_nonneg (sub_nonneg.mpr huv) hrate
  induction h with
  | nil level last =>
      have hgrown := hyield hlast
      simp only [passedUntil, List.countP_nil, Nat.cast_zero]
      linarith
  | @passed level last now filled events hle hcap hfilled hone hrest ih =>
      by_cases hnow : now ≤ t
      · have hlater := ih (sub_nonneg.mpr hone) hnow
        have hsplit : (t - last) * rate = (now - last) * rate + (t - now) * rate := by
          ring
        rw [passedUntil_passed hnow, Nat.cast_add, Nat.cast_one]
        linarith
      · have hnone : passedUntil t ((now, true) :: events) = 0 :=
          (Metered.passed (le_refl now) hcap (by linarith [hyield (le_refl now)])
            hone hrest : Metered capacity rate filled now _).passedUntil_of_lt
            (not_le.mp hnow)
        have hgrown := hyield hlast
        rw [hnone, Nat.cast_zero]
        linarith
  | @refused level last now filled events hle hcap hfilled hpos hrest ih =>
      rw [passedUntil_refused]
      by_cases hnow : now ≤ t
      · have hlater := ih hpos hnow
        have hsplit : (t - last) * rate = (now - last) * rate + (t - now) * rate := by
          ring
        linarith
      · have hgrown := hyield hlast
        rw [hrest.passedUntil_of_lt (not_le.mp hnow), Nat.cast_zero]
        linarith

/-- Every window holds at most what the capacity and the rate within it pay for. -/
theorem Metered.passedWithin_le
    (h : Metered capacity rate level last events) (hrate : 0 ≤ rate)
    (hcapacity : 0 ≤ capacity) (hst : s ≤ t) :
    (passedWithin s t events : τ) ≤ capacity + (t - s) * rate := by
  have hwindow : 0 ≤ (t - s) * rate := mul_nonneg (sub_nonneg.mpr hst) hrate
  -- From the first event in the window on, all that counts is what passes until `t`.
  have hfrom {now filled : τ} {rest : List (τ × Bool)} {n : ℕ} (hs : s ≤ now)
      (hpos : 0 ≤ filled) (hcap : filled ≤ capacity)
      (hrest : Metered capacity rate filled now rest)
      (hn : n ≤ passedUntil t rest) : (n : τ) ≤ capacity + (t - s) * rate := by
    have hcount : (n : τ) ≤ (passedUntil t rest : τ) := Nat.cast_le.mpr hn
    by_cases hnow : now ≤ t
    · have hpaid := hrest.passedUntil_le hrate hpos hnow
      have hshorter : (t - now) * rate ≤ (t - s) * rate :=
        mul_le_mul_of_nonneg_right (by linarith) hrate
      linarith
    · rw [hrest.passedUntil_of_lt (not_le.mp hnow), Nat.cast_zero] at hcount
      linarith
  induction h with
  | nil level last =>
      simp only [passedWithin, List.countP_nil, Nat.cast_zero]
      linarith
  | @passed level last now filled events hle hcap hfilled hone hrest ih =>
      rcases lt_or_ge now s with hbefore | hs
      · rw [passedWithin_of_lt hbefore]
        exact ih
      · refine hfrom hs (zero_le_one.trans hone) hcap
          (Metered.passed (le_refl now) hcap ?_ hone hrest)
          (passedWithin_le_passedUntil s t _)
        linarith [mul_nonneg (sub_nonneg.mpr (le_refl now)) hrate]
  | @refused level last now filled events hle hcap hfilled hpos hrest ih =>
      rcases lt_or_ge now s with hbefore | hs
      · rw [passedWithin_of_lt hbefore]
        exact ih
      · refine hfrom hs hpos hcap (Metered.refused (le_refl now) hcap ?_ hpos hrest)
          (passedWithin_le_passedUntil s t _)
        linarith [mul_nonneg (sub_nonneg.mpr (le_refl now)) hrate]

end Levels

end Hydrogenuine.Support
