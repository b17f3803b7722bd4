import Mathlib.Data.List.Sort
import Mathlib.Order.Defs.LinearOrder

/-!
# Logs kept in named segments

A directory of segments is an association list in the order of the names, which
is the order in which a sorted listing visits the files.  Writing to a segment
creates it if need be.  Read in that order, the directory gives back what was
written in the order of writing exactly if the names never step back.
-/

namespace Hydrogenuine.Support

universe u v w

variable {κ : Type u} [LinearOrder κ] {β : Type v} {γ : Type w}

/-- Change the segment of the given name, from an empty one if there is none. -/
def updateSegment (k : κ) (f : β → β) (empty : β) :
    List (κ × β) → List (κ × β)
  | [] => [(k, f empty)]
  | (k', b) :: rest =>
      if k < k' then (k, f empty) :: (k', b) :: rest
      else if k = k' then (k', f b) :: rest
      else (k', b) :: updateSegment k f empty rest

/-- The directory in the order of its listing. -/
def readSegments (read : β → List γ) (files : List (κ × β)) : List γ :=
  files.flatMap fun file => read file.2

variable {k : κ} {f : β → β} {empty : β} {files : List (κ × β)}
  {read : β → List γ}

theorem mem_updateSegment
    {file : κ × β} (h : file ∈ updateSegment k f empty files) :
    file ∈ files ∨ file = (k, f empty) ∨
      ∃ b, (k, b) ∈ files ∧ file = (k, f b) := by
  induction files with
  | nil =>
      rw [updateSegment, List.mem_singleton] at h
      exact Or.inr (Or.inl h)
  | cons head rest ih =>
      obtain ⟨k', b⟩ := head
      unfold updateSegment at h
      split_ifs at h with hlt heq
      · rcases List.mem_cons.mp h with h | h
        · exact Or.inr (Or.inl h)
        · exact Or.inl h
      · subst heq
        rcases List.mem_cons.mp h with h | h
        · exact Or.inr (Or.inr ⟨b, List.mem_cons_self, h⟩)
        · exact Or.inl (List.mem_cons_of_mem _ h)
      · rcases List.mem_cons.mp h with h | h
        · exact Or.inl (h ▸ List.mem_cons_self)
        · rcases ih h with h | h | ⟨b', hb', h⟩
          · exact Or.inl (List.mem_cons_of_mem _ h)
          · exact Or.inr (Or.inl h)
          · exact Or.inr (Or.inr ⟨b', List.mem_cons_of_mem _ hb', h⟩)

/-- The names stay in order, each once. -/
theorem updateSegment_sorted
    (h : files.Pairwise fun a b => a.1 < b.1) :
    (updateSegment k f empty files).Pairwise fun a b => a.1 < b.1 := by
  induction files with
  | nil => exact List.pairwise_singleton _ _
  | cons head rest ih =>
      obtain ⟨k', b⟩ := head
      obtain ⟨hhead, hrest⟩ := List.pairwise_cons.mp h
      unfold updateSegment
      split_ifs with hlt heq
      · refine List.Pairwise.cons ?_ h
        intro file hfile
        rcases List.mem_cons.mp hfile with rfl | hfile
        · exact hlt
        · exact lt_trans hlt (hhead file hfile)
      · exact List.Pairwise.cons hhead hrest
      · have hk : k' < k := lt_of_le_of_ne (not_lt.mp hlt) (Ne.symm heq)
        refine List.Pairwise.cons ?_ (ih hrest)
        intro file hfile
        rcases mem_updateSegment hfile with hmem | rfl | ⟨b', hb', rfl⟩
        · exact hhead file hmem
        · exact hk
        · exact hk

/-- Two changes of one segment are one change. -/
theorem updateSegment_updateSegment (g : β → β) :
    updateSegment k g empty (updateSegment k f empty files) =
      updateSegment k (g ∘ f) empty files := by
  induction files with
  | nil => simp [updateSegment]
  | cons head rest ih =>
      obtain ⟨k', b⟩ := head
      by_cases hlt : k < k'
      · simp [updateSegment, hlt]
      · by_cases heq : k = k'
        · simp [updateSegment, heq]
        · simp [updateSegment, hlt, heq, ih]

/-- What is added to the segment with the last name is read last. -/
theorem readSegments_updateSegment
    {added : List γ} (hle : ∀ file ∈ files, file.1 ≤ k)
    (hsorted : files.Pairwise fun a b => a.1 < b.1)
    (hadd : ∀ b, (b = empty ∨ (k, b) ∈ files) → read (f b) = read b ++ added)
    (hempty : read empty = []) :
    readSegments read (updateSegment k f empty files) =
      readSegments read files ++ added := by
  induction files with
  | nil =>
      have hnew := hadd empty (Or.inl rfl)
      simp [updateSegment, readSegments, hnew, hempty]
  | cons head rest ih =>
      obtain ⟨k', b⟩ := head
      obtain ⟨hhead, hrest⟩ := List.pairwise_cons.mp hsorted
      have hk' : k' ≤ k := hle (k', b) List.mem_cons_self
      unfold updateSegment
      rw [if_neg (not_lt.mpr hk')]
      split_ifs with heq
      · -- Nothing lies beyond the last name.
        have hnil : rest = [] := by
          rw [List.eq_nil_iff_forall_not_mem]
          intro file hfile
          have hlt := hhead file hfile
          have hle' := hle file (List.mem_cons_of_mem _ hfile)
          exact absurd (lt_of_lt_of_le hlt hle') (by simp [heq])
        have hnew := hadd b (Or.inr (by simp [heq]))
        simp [hnil, readSegments, hnew]
      · have hrec := ih (fun file hfile => hle file (List.mem_cons_of_mem _ hfile))
          hrest (fun b' hb' => hadd b'
            (hb'.imp id (fun hmem => List.mem_cons_of_mem _ hmem)))
        simp only [readSegments, List.flatMap_cons, List.append_assoc] at hrec ⊢
        rw [hrec]

/-- Read in the order of the listing, the names never step back. -/
theorem readSegments_pairwise
    {name : γ → κ} (hsorted : files.Pairwise fun a b => a.1 < b.1)
    (hname : ∀ file ∈ files, ∀ x ∈ read file.2, name x = file.1) :
    (readSegments read files).Pairwise fun x y => name x ≤ name y := by
  induction files with
  | nil => exact List.Pairwise.nil
  | cons head rest ih =>
      obtain ⟨hhead, hrest⟩ := List.pairwise_cons.mp hsorted
      have hrec := ih hrest
        (fun file hfile => hname file (List.mem_cons_of_mem _ hfile))
      unfold readSegments at hrec ⊢
      rw [List.flatMap_cons, List.pairwise_append]
      have hhere : ∀ x ∈ read head.2, name x = head.1 :=
        hname head List.mem_cons_self
      refine ⟨?_, hrec, ?_⟩
      · exact List.pairwise_of_forall_mem_list fun x hx y hy =>
          le_of_eq ((hhere x hx).trans (hhere y hy).symm)
      · intro x hx y hy
        obtain ⟨file, hfile, hy⟩ := List.mem_flatMap.mp hy
        rw [hhere x hx, hname file (List.mem_cons_of_mem _ hfile) y hy]
        exact le_of_lt (hhead file hfile)

end Hydrogenuine.Support
