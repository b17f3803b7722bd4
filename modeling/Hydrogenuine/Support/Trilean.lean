import Mathlib.Order.Defs.PartialOrder

/-!
# Three-valued verdicts

Verdicts that are settled or still open, ordered by information: an open
verdict may turn into any verdict, a settled one may not change.  Negation and
the conjunction in which an open part keeps the whole open are monotone.
-/

namespace Hydrogenuine.Support

inductive Trilean where
  | yes
  | no
  | unknown
deriving DecidableEq

namespace Trilean

instance : PartialOrder Trilean where
  le a b := a = unknown ∨ a = b
  le_refl a := Or.inr rfl
  le_trans a b c hab hbc := by
    rcases hab with hab | rfl
    · exact Or.inl hab
    · exact hbc
  le_antisymm a b hab hba := by
    rcases hab with rfl | rfl
    · rcases hba with rfl | hba
      · rfl
      · exact hba.symm
    · rfl

def neg : Trilean → Trilean
  | yes => no
  | no => yes
  | unknown => unknown

/-- Conjunction: an open part keeps the whole open. -/
def and : Trilean → Trilean → Trilean
  | unknown, _ => unknown
  | _, unknown => unknown
  | yes, yes => yes
  | _, _ => no

theorem eq_of_le {a b : Trilean} (hab : a ≤ b) (ha : a ≠ unknown) : b = a := by
  rcases hab with hab | hab
  · exact absurd hab ha
  · exact hab.symm

theorem neg_mono {a b : Trilean} (hab : a ≤ b) : a.neg ≤ b.neg := by
  rcases hab with rfl | rfl
  · exact Or.inl rfl
  · exact le_refl _

theorem and_mono {a b c d : Trilean} (hab : a ≤ b) (hcd : c ≤ d) :
    a.and c ≤ b.and d := by
  rcases hab with rfl | rfl
  · exact Or.inl rfl
  · rcases hcd with rfl | rfl
    · cases a <;> exact Or.inl rfl
    · exact le_refl _

end Trilean

end Hydrogenuine.Support
