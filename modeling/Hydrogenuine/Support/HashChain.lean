import Mathlib.Data.List.Induction
import Mathlib.Data.List.Forall2

/-!
# Hash chains

A chain is a list of entries in which every entry links to the hash of its
predecessor, the first one to a genesis value, and every entry is `Sealed`: the
hash it carries is the hash of its contents.  If equal hashes mean equal
contents and no hash is the genesis value, then the hash at the end determines
the whole chain, its length included.
-/

namespace Hydrogenuine.Support

universe u v

variable {ρ : Type u} {η : Type v} (link hash : ρ → η) (Sealed : ρ → Prop)

/-- The entries form a chain that starts at `start`. -/
def Chained (start : η) : List ρ → Prop
  | [] => True
  | r :: rs => link r = start ∧ Sealed r ∧ Chained (hash r) rs

/-- The hash at the end of a chain, the starting value of an empty one. -/
def endHash (start : η) : List ρ → η
  | [] => start
  | r :: rs => endHash (hash r) rs

variable {link hash Sealed}

@[simp] theorem endHash_concat (start : η) (rs : List ρ) (r : ρ) :
    endHash hash start (rs ++ [r]) = hash r := by
  induction rs generalizing start with
  | nil => rfl
  | cons s rs ih => exact ih (hash s)

/-- The end of a chain that is not empty does not depend on the start. -/
theorem endHash_eq_of_ne_nil {rs : List ρ} (h : rs ≠ []) (start start' : η) :
    endHash hash start rs = endHash hash start' rs := by
  cases rs with
  | nil => exact absurd rfl h
  | cons r rs => rfl

theorem chained_concat {start : η} {rs : List ρ} {r : ρ} :
    Chained link hash Sealed start (rs ++ [r]) ↔
      Chained link hash Sealed start rs ∧
        link r = endHash hash start rs ∧ Sealed r := by
  induction rs generalizing start with
  | nil => simp [Chained, endHash]
  | cons s rs ih =>
      simp only [List.cons_append, Chained, endHash, ih]
      tauto

theorem Chained.of_append {start : η} {rs rs' : List ρ}
    (h : Chained link hash Sealed start (rs ++ rs')) :
    Chained link hash Sealed start rs := by
  induction rs generalizing start with
  | nil => exact trivial
  | cons r rs ih =>
      obtain ⟨hlink, hsealed, hrest⟩ := h
      exact ⟨hlink, hsealed, ih hrest⟩

/-- The end of a chain determines it entry by entry, up to `Same`. -/
theorem forall₂_of_endHash_eq
    {Same : ρ → ρ → Prop} {start : η} {rs rs' : List ρ}
    (hsame : ∀ r ∈ rs, ∀ r' ∈ rs', Sealed r → Sealed r' → hash r = hash r' →
      Same r r' ∧ link r = link r')
    (hgenesis : ∀ r, Sealed r → hash r ≠ start)
    (hrs : Chained link hash Sealed start rs)
    (hrs' : Chained link hash Sealed start rs')
    (hend : endHash hash start rs = endHash hash start rs') :
    List.Forall₂ Same rs rs' := by
  induction rs using List.reverseRecOn generalizing rs' with
  | nil =>
      rcases List.eq_nil_or_concat rs' with rfl | ⟨init, r', rfl⟩
      · exact List.Forall₂.nil
      · rw [List.concat_eq_append] at hrs' hend
        obtain ⟨-, -, hsealed⟩ := chained_concat.mp hrs'
        rw [endHash_concat] at hend
        exact absurd hend.symm (hgenesis r' hsealed)
  | append_singleton rs r ih =>
      obtain ⟨hinit, hlink, hsealed⟩ := chained_concat.mp hrs
      rw [endHash_concat] at hend
      rcases List.eq_nil_or_concat rs' with rfl | ⟨init, r', rfl⟩
      · exact absurd hend (hgenesis r hsealed)
      · rw [List.concat_eq_append] at hsame hrs' hend ⊢
        obtain ⟨hinit', hlink', hsealed'⟩ := chained_concat.mp hrs'
        rw [endHash_concat] at hend
        obtain ⟨hlast, hlinks⟩ := hsame r (by simp) r' (by simp) hsealed
          hsealed' hend
        have hstem : List.Forall₂ Same rs init := by
          apply ih _ hinit hinit'
          · rw [← hlink, ← hlink', hlinks]
          · intro s hs s' hs'
            exact hsame s (List.mem_append_left _ hs) s'
              (List.mem_append_left _ hs')
        exact List.rel_append hstem (List.Forall₂.cons hlast .nil)

end Hydrogenuine.Support
