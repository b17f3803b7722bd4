import Mathlib.Logic.Function.Basic
import Mathlib.Logic.Relation

/-!
# Books of evolving records

A book files records under keys.  A record is entered under a key that was
never used and from then on only changes along a fixed relation; nothing is
ever removed.  What follows for a single key over arbitrarily many changes is
all that the proofs below need to know about a store.
-/

namespace Hydrogenuine.Support

universe u v

variable {κ : Type u} {ρ : Type v} [DecidableEq κ]

/-- One change of a book: a fresh entry that satisfies `Opens`, or a change of
one record along `Moves`. -/
inductive BookStep
    (Opens : ρ → Prop) (Moves : ρ → ρ → Prop) (book : κ → Option ρ) :
    (κ → Option ρ) → Prop
  | opened (k : κ) (r : ρ) (hfresh : book k = none) (hopens : Opens r) :
      BookStep Opens Moves book (Function.update book k (some r))
  | moved (k : κ) (r r' : ρ) (hfiled : book k = some r) (hmoves : Moves r r') :
      BookStep Opens Moves book (Function.update book k (some r'))

/-- Any number of changes. -/
def BookSteps
    (Opens : ρ → Prop) (Moves : ρ → ρ → Prop) (book book' : κ → Option ρ) :
    Prop :=
  Relation.ReflTransGen (BookStep Opens Moves) book book'

namespace BookSteps

variable {Opens Opens' : ρ → Prop} {Moves Moves' : ρ → ρ → Prop}
  {book book' book'' : κ → Option ρ}

theorem refl (book : κ → Option ρ) : BookSteps Opens Moves book book :=
  Relation.ReflTransGen.refl

theorem trans
    (h : BookSteps Opens Moves book book')
    (h' : BookSteps Opens Moves book' book'') :
    BookSteps Opens Moves book book'' :=
  Relation.ReflTransGen.trans h h'

theorem single (h : BookStep Opens Moves book book') :
    BookSteps Opens Moves book book' :=
  Relation.ReflTransGen.single h

theorem mono
    (h : BookSteps Opens Moves book book')
    (hopens : ∀ r, Opens r → Opens' r)
    (hmoves : ∀ r r', Moves r r' → Moves' r r') :
    BookSteps Opens' Moves' book book' := by
  induction h with
  | refl => exact refl book
  | tail _ hstep ih =>
      refine ih.trans (single ?_)
      cases hstep with
      | opened k r hfresh hr => exact BookStep.opened k r hfresh (hopens r hr)
      | moved k r r' hfiled hr =>
          exact BookStep.moved k r r' hfiled (hmoves r r' hr)

/-- A filed record stays filed under its key and only evolves. -/
theorem evolves
    (h : BookSteps Opens Moves book book') {k : κ} {r : ρ}
    (hfiled : book k = some r) :
    ∃ r', book' k = some r' ∧ Relation.ReflTransGen Moves r r' := by
  induction h with
  | refl => exact ⟨r, hfiled, Relation.ReflTransGen.refl⟩
  | tail _ hstep ih =>
      obtain ⟨mid, hmid, hrun⟩ := ih
      cases hstep with
      | opened k₀ r₀ hfresh hopens =>
          have hk : k ≠ k₀ := by
            rintro rfl
            rw [hmid] at hfresh
            cases hfresh
          exact ⟨mid, by rw [Function.update_of_ne hk, hmid], hrun⟩
      | moved k₀ r₀ r₁ hr₀ hmoves =>
          by_cases hk : k = k₀
          · subst hk
            rw [hmid, Option.some.injEq] at hr₀
            subst hr₀
            exact ⟨r₁, Function.update_self .., hrun.tail hmoves⟩
          · exact ⟨mid, by rw [Function.update_of_ne hk, hmid], hrun⟩

/-- A record under a key that was unused has evolved from a fresh entry. -/
theorem origin
    (h : BookSteps Opens Moves book book') {k : κ} {r' : ρ}
    (hfresh : book k = none) (hfiled : book' k = some r') :
    ∃ r, Opens r ∧ Relation.ReflTransGen Moves r r' := by
  induction h generalizing r' with
  | refl =>
      rw [hfresh] at hfiled
      cases hfiled
  | tail _ hstep ih =>
      cases hstep with
      | opened k₀ r₀ _ hopens =>
          by_cases hk : k = k₀
          · subst hk
            rw [Function.update_self, Option.some.injEq] at hfiled
            subst hfiled
            exact ⟨r₀, hopens, Relation.ReflTransGen.refl⟩
          · rw [Function.update_of_ne hk] at hfiled
            exact ih hfiled
      | moved k₀ r₀ r₁ hr₀ hmoves =>
          by_cases hk : k = k₀
          · subst hk
            rw [Function.update_self, Option.some.injEq] at hfiled
            subst hfiled
            obtain ⟨r, hopens, hrun⟩ := ih hr₀
            exact ⟨r, hopens, hrun.tail hmoves⟩
          · rw [Function.update_of_ne hk] at hfiled
            exact ih hfiled

end BookSteps

end Hydrogenuine.Support
