import Mathlib.Algebra.Ring.Nat
import Mathlib.Algebra.BigOperators.Group.List.Basic
import Mathlib.Data.List.Nodup
import Mathlib.Logic.Relation

/-!
# Reachability by a worklist

A queue of vertices is worked off from the front.  A vertex that is not in the
output yet joins it, and those of its successors that are not in the output are
queued.  The output of a search with enough fuel is the set of the vertices that
the seeds reach: every vertex found is reachable, and when the queue is empty the
output holds the seeds and is closed under successors.
-/

namespace Hydrogenuine.Support.Worklist

open Relation

variable {α : Type*} [DecidableEq α]

/-- Work off the queue. -/
def search (next : α → List α) : ℕ → List α → List α → List α
  | 0, _, out => out
  | _ + 1, [], out => out
  | fuel + 1, x :: queue, out =>
      if out.contains x then search next fuel queue out
      else
        let out' := out ++ [x]
        search next fuel
          (queue ++ (next x).filter fun y => !out'.contains y) out'

/-- Some seed leads to `x`. -/
def Reaches (next : α → List α) (seeds : List α) (x : α) : Prop :=
  ∃ seed ∈ seeds, ReflTransGen (fun a b => b ∈ next a) seed x

variable {next : α → List α} {seeds queue out : List α}

/-- What the search keeps to: the vertices found and queued are reachable, the
seeds are among them, and so are the successors of those found. -/
structure Searched
    (next : α → List α) (seeds queue out : List α) : Prop where
  nodup : out.Nodup
  sound : ∀ x, x ∈ out ∨ x ∈ queue → Reaches next seeds x
  seeds : ∀ x ∈ seeds, x ∈ out ∨ x ∈ queue
  closed : ∀ x ∈ out, ∀ y ∈ next x, y ∈ out ∨ y ∈ queue

omit [DecidableEq α] in
theorem searched_start (seeds : List α) : Searched next seeds seeds [] := by
  refine ⟨List.nodup_nil, ?_, fun _ hx => Or.inr hx, List.forall_mem_nil _⟩
  rintro x (hx | hx)
  · cases hx
  · exact ⟨x, hx, ReflTransGen.refl⟩

omit [DecidableEq α] in
/-- A vertex that was found before is dropped from the queue. -/
theorem Searched.skip
    {x : α} (h : Searched next seeds (x :: queue) out) (hx : x ∈ out) :
    Searched next seeds queue out := by
  have hdrop : ∀ y, y ∈ out ∨ y ∈ x :: queue → y ∈ out ∨ y ∈ queue := by
    rintro y (hy | hy)
    · exact Or.inl hy
    · rcases List.mem_cons.mp hy with rfl | hy
      · exact Or.inl hx
      · exact Or.inr hy
  refine ⟨h.nodup, ?_, fun y hy => hdrop y (h.seeds y hy),
    fun y hy z hz => hdrop z (h.closed y hy z hz)⟩
  rintro y (hy | hy)
  · exact h.sound y (Or.inl hy)
  · exact h.sound y (Or.inr (List.mem_cons_of_mem _ hy))

/-- A new vertex is expanded. -/
theorem Searched.expand
    {x : α} (h : Searched next seeds (x :: queue) out) (hx : x ∉ out) :
    Searched next seeds
      (queue ++ (next x).filter fun y => !(out ++ [x]).contains y)
      (out ++ [x]) := by
  have hkeep : ∀ y, y ∈ out ∨ y ∈ x :: queue →
      y ∈ out ++ [x] ∨
        y ∈ queue ++ (next x).filter fun y => !(out ++ [x]).contains y := by
    rintro y (hy | hy)
    · exact Or.inl (List.mem_append_left _ hy)
    · rcases List.mem_cons.mp hy with rfl | hy
      · exact Or.inl (List.mem_append_right _ (List.mem_singleton_self _))
      · exact Or.inr (List.mem_append_left _ hy)
  have hreached := h.sound x (Or.inr List.mem_cons_self)
  refine ⟨?_, ?_, fun y hy => hkeep y (h.seeds y hy), ?_⟩
  · refine List.nodup_append.mpr ⟨h.nodup, List.nodup_singleton x, ?_⟩
    rintro y hy _ hsingle rfl
    exact hx (List.mem_singleton.mp hsingle ▸ hy)
  · rintro y (hy | hy)
    · rcases List.mem_append.mp hy with hy | hy
      · exact h.sound y (Or.inl hy)
      · exact (List.mem_singleton.mp hy) ▸ hreached
    · rcases List.mem_append.mp hy with hy | hy
      · exact h.sound y (Or.inr (List.mem_cons_of_mem _ hy))
      · obtain ⟨seed, hseed, hpath⟩ := hreached
        exact ⟨seed, hseed, hpath.tail (List.mem_filter.mp hy).1⟩
  · intro y hy z hz
    rcases List.mem_append.mp hy with hy | hy
    · exact hkeep z (h.closed y hy z hz)
    · obtain rfl := List.mem_singleton.mp hy
      by_cases hz' : z ∈ out ++ [y]
      · exact Or.inl hz'
      · refine Or.inr (List.mem_append_right _ (List.mem_filter.mpr ⟨hz, ?_⟩))
        simpa using hz'

/-- The number of successors of the vertices of a list. -/
def degrees (next : α → List α) (xs : List α) : ℕ :=
  (xs.map fun x => (next x).length).sum

/-- With enough fuel the search ends with an empty queue.  `total` bounds the
successors of distinct vertices, and hence what is ever queued. -/
theorem searched_search
    {total : ℕ} (htotal : ∀ xs : List α, xs.Nodup → degrees next xs ≤ total)
    (fuel : ℕ) (h : Searched next seeds queue out)
    (hfuel : queue.length + total < fuel + degrees next out) :
    Searched next seeds [] (search next fuel queue out) := by
  induction fuel generalizing queue out with
  | zero =>
      have hbound := htotal out h.nodup
      omega
  | succ fuel ih =>
      cases queue with
      | nil => exact h
      | cons x queue =>
          rw [search]
          split
          · next hx =>
              refine ih (h.skip (List.contains_iff_mem.mp hx)) ?_
              rw [List.length_cons] at hfuel
              omega
          · next hx =>
              have hnew : x ∉ out := fun hmem =>
                hx (List.contains_iff_mem.mpr hmem)
              refine ih (h.expand hnew) ?_
              have hfresh : ((next x).filter fun y =>
                  !(out ++ [x]).contains y).length ≤ (next x).length :=
                List.length_filter_le _ _
              have hdegrees : degrees next (out ++ [x]) =
                  degrees next out + (next x).length := by
                simp [degrees]
              rw [List.length_cons] at hfuel
              rw [List.length_append, hdegrees]
              omega

/-- The output is what the seeds reach. -/
theorem mem_search_iff
    {total fuel : ℕ}
    (htotal : ∀ xs : List α, xs.Nodup → degrees next xs ≤ total)
    (hfuel : seeds.length + total < fuel) {x : α} :
    x ∈ search next fuel seeds [] ↔ Reaches next seeds x := by
  have hend := searched_search htotal fuel (searched_start seeds)
    (by simpa [degrees] using hfuel)
  have hout : ∀ y, y ∈ search next fuel seeds [] ∨ y ∈ [] →
      y ∈ search next fuel seeds [] := by
    rintro y (hy | hy)
    · exact hy
    · cases hy
  constructor
  · exact fun hx => hend.sound x (Or.inl hx)
  · rintro ⟨seed, hseed, hpath⟩
    induction hpath with
    | refl => exact hout seed (hend.seeds seed hseed)
    | @tail y z _ hstep ih => exact hout z (hend.closed y ih z hstep)

end Hydrogenuine.Support.Worklist
