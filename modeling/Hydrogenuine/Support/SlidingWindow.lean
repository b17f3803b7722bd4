import Mathlib.Algebra.Order.Group.Defs
import Mathlib.Algebra.Order.Group.Unbundled.Basic
import Mathlib.Algebra.Order.Monoid.Defs
import Mathlib.Data.List.Count

/-!
# Limits on events per window

If an event is only let through while fewer than `limit` events are more recent than
`len` before it, then no window of length `len`, wherever it starts, ever holds more
than `limit` events.  The events need not come in the order of their times.
-/

namespace Hydrogenuine.Support

universe u

variable {τ : Type u} [AddCommGroup τ] [LinearOrder τ]

/-- How many of the events are later than `now - len`. -/
def recent (len now : τ) (times : List τ) : ℕ :=
  times.countP fun a => decide (now - len < a)

/-- Every window of length `len` holds at most `limit` of the events. -/
def WithinRate (len : τ) (limit : ℕ) (times : List τ) : Prop :=
  ∀ t, times.countP (fun a => decide (t ≤ a ∧ a < t + len)) ≤ limit

variable {len now : τ} {limit : ℕ} {times : List τ}

theorem withinRate_nil : WithinRate len limit [] := fun _ => Nat.zero_le _

/-- One more event, while the window that ends with it has room. -/
theorem WithinRate.concat [IsOrderedAddMonoid τ]
    (h : WithinRate len limit times) (hroom : recent len now times < limit) :
    WithinRate len limit (times ++ [now]) := by
  intro t
  rw [List.countP_append]
  by_cases hin : t ≤ now ∧ now < t + len
  · -- the window holds the new event, so it starts after `now - len`
    have hwindow : times.countP (fun a => decide (t ≤ a ∧ a < t + len)) ≤
        recent len now times := by
      refine List.countP_mono_left fun a _ ha => ?_
      rw [decide_eq_true_iff] at ha ⊢
      exact (sub_lt_iff_lt_add.mpr hin.2).trans_le ha.1
    rw [List.countP_singleton, if_pos (decide_eq_true hin)]
    exact Nat.succ_le_of_lt (hwindow.trans_lt hroom)
  · rw [List.countP_singleton, if_neg (by rw [decide_eq_true_iff]; exact hin)]
    exact h t

end Hydrogenuine.Support
