import Mathlib.Algebra.BigOperators.Group.List.Basic
import Hydrogenuine.Support.PyValue

/-!
# Arithmetic of floats

Sums and differences of floats are the exact results, rounded.  The rounding is a
parameter that takes a number to the float nearest to it, an infinite one where it
is out of range.  What is proved of a computation that rounds nothing is proved
under the condition that its exact results are floats themselves.
-/

namespace Hydrogenuine.Support

namespace PyFloat

/-- The number that a finite float stands for. -/
def value? : PyFloat → Option ℚ
  | .finite q _ => some q
  | _ => none

/-- `0.0`. -/
def zero : PyFloat := .finite 0 "0.0"

/-- `0 <= x`. -/
def Nonneg : PyFloat → Prop
  | .finite q _ => 0 ≤ q
  | .inf negative => negative = false
  | .nan => False

section Arithmetic

variable (round : ℚ → PyFloat)

/-- `x + y`. -/
def add : PyFloat → PyFloat → PyFloat
  | .finite p _, .finite q _ => round (p + q)
  | .finite _ _, y => y
  | x, .finite _ _ => x
  | .inf a, .inf b => if a = b then .inf a else .nan
  | _, _ => .nan

/-- `x - y`. -/
def sub : PyFloat → PyFloat → PyFloat
  | .finite p _, .finite q _ => round (p - q)
  | .finite _ _, .inf b => .inf !b
  | .inf a, .finite _ _ => .inf a
  | .inf a, .inf b => if a = b then .nan else .inf a
  | _, _ => .nan

/-- The numbers that the finite ones of some floats stand for. -/
def values (xs : List PyFloat) : List ℚ := xs.filterMap value?

/-- The number is a float. -/
def Exact (q : ℚ) : Prop := (round q).value? = some q

/-- The partial sums are floats. -/
def SumsExactly (xs : List PyFloat) : Prop :=
  ∀ taken rest, xs = taken ++ rest → Exact round (values taken).sum

variable {round} {x y : PyFloat} {p q : ℚ}

theorem value?_eq_some_iff : x.value? = some q ↔ ∃ repr, x = .finite q repr := by
  cases x with
  | finite p repr => simp [value?]
  | inf negative => simp [value?]
  | nan => simp [value?]

theorem value?_sub (hx : x.value? = some p) (hy : y.value? = some q)
    (hexact : Exact round (p - q)) : (sub round x y).value? = some (p - q) := by
  obtain ⟨_, rfl⟩ := value?_eq_some_iff.mp hx
  obtain ⟨_, rfl⟩ := value?_eq_some_iff.mp hy
  exact hexact

theorem value?_add (hx : x.value? = some p) (hy : y.value? = some q)
    (hexact : Exact round (p + q)) : (add round x y).value? = some (p + q) := by
  obtain ⟨_, rfl⟩ := value?_eq_some_iff.mp hx
  obtain ⟨_, rfl⟩ := value?_eq_some_iff.mp hy
  exact hexact

/-- A running sum of finite floats whose partial sums are floats is exact. -/
theorem value?_foldl_add
    {xs : List PyFloat} (hfinite : ∀ x ∈ xs, x.value?.isSome = true)
    (hexact : SumsExactly round xs) :
    (xs.foldl (add round) zero).value? = some (values xs).sum := by
  induction xs using List.reverseRecOn with
  | nil => rfl
  | append_singleton xs x ih =>
      have hbefore := ih (fun y hy => hfinite y (List.mem_append_left _ hy))
        fun taken rest h => hexact taken (rest ++ [x])
          (by rw [h, List.append_assoc])
      obtain ⟨q, hq⟩ := Option.isSome_iff_exists.mp
        (hfinite x (List.mem_append_right _ List.mem_cons_self))
      have hsum : (values (xs ++ [x])).sum = (values xs).sum + q := by
        simp [values, hq]
      rw [List.foldl_append, List.foldl_cons, List.foldl_nil, hsum]
      refine value?_add hbefore hq ?_
      rw [← hsum]
      exact hexact (xs ++ [x]) [] (List.append_nil _).symm

/-- An amount that is not negative and not above a finite float is finite. -/
theorem value?_of_not_numLt (hx : x.value? = some p) (hy : y.Nonneg)
    (hlt : PyVal.numLt x y = false) : ∃ q, y.value? = some q ∧ q ≤ p := by
  obtain ⟨_, rfl⟩ := value?_eq_some_iff.mp hx
  cases y with
  | finite q repr =>
      exact ⟨q, rfl, not_lt.mp (of_decide_eq_false hlt)⟩
  | inf negative =>
      rw [show negative = false from hy] at hlt
      cases hlt
  | nan => exact hy.elim

end Arithmetic

end PyFloat

end Hydrogenuine.Support
