import Mathlib.Data.List.Chain
import Mathlib.Logic.Function.Basic
import Mathlib.Logic.Relation
import Mathlib.Order.Bounds.Basic
import Mathlib.Order.MinMax

/-!
# Depths found in one pass over the edges of a graph

A pass over a list of edges that puts the end of each edge one below its beginning
finds, for every vertex, the longest chain that ends there among those whose edges are
listed in order.  The chains whose edges are listed in another order are not seen.
-/

namespace Hydrogenuine.Support

universe u

variable {V : Type u}

/-- Each edge begins where the one before it ends. -/
def EdgeChain (chain : List (V × V)) : Prop := chain.IsChain fun e f => e.2 = f.1

/-- The chain ends at the vertex, if it has an edge. -/
def EndsAt (v : V) (chain : List (V × V)) : Prop := ∀ e ∈ chain.getLast?, e.2 = v

/-- The lengths of the chains of edges. -/
def chainLengths (edges : List (V × V)) : Set ℕ :=
  {n | ∃ chain, (∀ e ∈ chain, e ∈ edges) ∧ EdgeChain chain ∧ chain.length = n}

/-- The lengths of the chains whose edges are listed in order. -/
def listedLengths (edges : List (V × V)) : Set ℕ :=
  {n | ∃ chain, chain.Sublist edges ∧ EdgeChain chain ∧ chain.length = n}

/-- The lengths of those of them that end at a vertex. -/
def listedLengthsAt (edges : List (V × V)) (v : V) : Set ℕ :=
  {n | ∃ chain, chain.Sublist edges ∧ EdgeChain chain ∧ EndsAt v chain ∧
    chain.length = n}

/-- No chain of edges leads back. -/
def AcyclicEdges (edges : List (V × V)) : Prop :=
  ∀ v, ¬ Relation.TransGen (fun a b => (a, b) ∈ edges) v v

theorem listedLengths_subset (edges : List (V × V)) :
    listedLengths edges ⊆ chainLengths edges := by
  rintro n ⟨chain, hlisted, hchain, hlength⟩
  exact ⟨chain, fun e he => hlisted.subset he, hchain, hlength⟩

variable {edges : List (V × V)} {e : V × V}

/-- Edges that lead up a ranking form no cycle. -/
theorem acyclicEdges_of_rank (rank : V → ℕ)
    (h : ∀ e ∈ edges, rank e.1 < rank e.2) : AcyclicEdges edges := by
  have hup {a b : V} (hpath : Relation.TransGen (fun a b => (a, b) ∈ edges) a b) :
      rank a < rank b := by
    induction hpath with
    | single hedge => exact h _ hedge
    | tail _ hedge ih => exact ih.trans (h _ hedge)
  exact fun v hcycle => lt_irrefl _ (hup hcycle)

/-- The longest listed chain is the longest of all in the listings that list some
longest chain in order, and in no other. -/
theorem isGreatest_chainLengths_iff {n : ℕ}
    (h : IsGreatest (listedLengths edges) n) :
    IsGreatest (chainLengths edges) n ↔
      ∃ longest : List (V × V), longest.Sublist edges ∧ EdgeChain longest ∧
        ∀ chain : List (V × V), (∀ e ∈ chain, e ∈ edges) → EdgeChain chain →
          chain.length ≤ longest.length := by
  constructor
  · intro hgreatest
    obtain ⟨longest, hlisted, hchain, hlength⟩ := h.1
    refine ⟨longest, hlisted, hchain, fun chain hedges hlinked => ?_⟩
    rw [hlength]
    exact hgreatest.2 ⟨chain, hedges, hlinked, rfl⟩
  · rintro ⟨longest, hlisted, hchain, hlongest⟩
    refine ⟨listedLengths_subset edges h.1, ?_⟩
    rintro _ ⟨chain, hedges, hlinked, rfl⟩
    exact (hlongest chain hedges hlinked).trans (h.2 ⟨longest, hlisted, hchain, rfl⟩)

theorem endsAt_concat {v : V} {chain : List (V × V)} :
    EndsAt v (chain ++ [e]) ↔ e.2 = v := by
  simp [EndsAt]

theorem edgeChain_concat {chain : List (V × V)} :
    EdgeChain (chain ++ [e]) ↔ EdgeChain chain ∧ EndsAt e.1 chain := by
  simp [EdgeChain, EndsAt, List.isChain_append]

/-- A listed chain that is listed with one more edge either leaves it out or ends with
it. -/
theorem mem_listedLengthsAt_concat {v : V} {n : ℕ} :
    n ∈ listedLengthsAt (edges ++ [e]) v ↔
      n ∈ listedLengthsAt edges v ∨
        e.2 = v ∧ ∃ m ∈ listedLengthsAt edges e.1, n = m + 1 := by
  constructor
  · rintro ⟨chain, hlisted, hchain, hends, rfl⟩
    rcases List.sublist_append_iff.mp hlisted with ⟨front, last, rfl, hfront, hlast⟩
    rcases List.sublist_singleton.mp hlast with rfl | rfl
    · rw [List.append_nil] at hchain hends ⊢
      exact Or.inl ⟨front, hfront, hchain, hends, rfl⟩
    · obtain ⟨hchain, hmeets⟩ := edgeChain_concat.mp hchain
      exact Or.inr ⟨endsAt_concat.mp hends, front.length,
        ⟨front, hfront, hchain, hmeets, rfl⟩, List.length_append⟩
  · rintro (⟨chain, hlisted, hchain, hends, rfl⟩ |
      ⟨hv, _, ⟨chain, hlisted, hchain, hends, rfl⟩, rfl⟩)
    · exact ⟨chain, hlisted.trans (List.sublist_append_left _ _), hchain, hends, rfl⟩
    · exact ⟨chain ++ [e], hlisted.append (List.Sublist.refl [e]),
        edgeChain_concat.mpr ⟨hchain, hends⟩, endsAt_concat.mpr hv,
        List.length_append⟩

section Pass

variable [DecidableEq V]

/-- The step of the pass. -/
def deepen (depth : V → ℕ) (e : V × V) : V → ℕ :=
  Function.update depth e.2 (max (depth e.2) (depth e.1 + 1))

/-- The pass. -/
def listedDepth (edges : List (V × V)) : V → ℕ := edges.foldl deepen fun _ => 0

theorem listedDepth_concat (edges : List (V × V)) (e : V × V) :
    listedDepth (edges ++ [e]) = deepen (listedDepth edges) e := by
  rw [listedDepth, List.foldl_concat, listedDepth]

/-- The pass finds the longest listed chain to every vertex. -/
theorem isGreatest_listedDepth (edges : List (V × V)) (v : V) :
    IsGreatest (listedLengthsAt edges v) (listedDepth edges v) := by
  induction edges using List.reverseRecOn generalizing v with
  | nil =>
      refine ⟨⟨[], List.Sublist.refl [], List.isChain_nil, by simp [EndsAt], rfl⟩, ?_⟩
      rintro _ ⟨chain, hlisted, -, -, rfl⟩
      rw [List.sublist_nil.mp hlisted]
      exact Nat.zero_le _
  | append_singleton edges e ih =>
      rw [listedDepth_concat, deepen]
      by_cases hv : v = e.2
      · subst hv
        rw [Function.update_self]
        constructor
        · rw [mem_listedLengthsAt_concat]
          rcases max_choice (listedDepth edges e.2) (listedDepth edges e.1 + 1) with
            hmax | hmax
          · rw [hmax]
            exact Or.inl (ih e.2).1
          · rw [hmax]
            exact Or.inr ⟨rfl, listedDepth edges e.1, (ih e.1).1, rfl⟩
        · intro n hn
          rcases mem_listedLengthsAt_concat.mp hn with hold | ⟨-, m, hm, rfl⟩
          · exact ((ih e.2).2 hold).trans (le_max_left _ _)
          · exact (Nat.succ_le_succ ((ih e.1).2 hm)).trans (le_max_right _ _)
      · rw [Function.update_of_ne hv]
        constructor
        · exact mem_listedLengthsAt_concat.mpr (Or.inl (ih v).1)
        · intro n hn
          rcases mem_listedLengthsAt_concat.mp hn with hold | ⟨hends, -⟩
          · exact (ih v).2 hold
          · exact absurd hends.symm hv

/-- The greatest depth that the pass finds is the length of the longest listed chain. -/
theorem isGreatest_listedLengths {edges : List (V × V)} {n : ℕ}
    (hreached : n = 0 ∨ ∃ v, listedDepth edges v = n)
    (hbound : ∀ v, listedDepth edges v ≤ n) : IsGreatest (listedLengths edges) n := by
  constructor
  · rcases hreached with rfl | ⟨v, rfl⟩
    · exact ⟨[], List.nil_sublist _, List.isChain_nil, rfl⟩
    · obtain ⟨chain, hlisted, hchain, -, hlength⟩ := (isGreatest_listedDepth edges v).1
      exact ⟨chain, hlisted, hchain, hlength⟩
  · rintro _ ⟨chain, hlisted, hchain, rfl⟩
    rcases List.eq_nil_or_concat chain with rfl | ⟨front, e, rfl⟩
    · exact Nat.zero_le _
    · rw [List.concat_eq_append] at hlisted hchain ⊢
      exact ((isGreatest_listedDepth edges e.2).2
        ⟨front ++ [e], hlisted, hchain, endsAt_concat.mpr rfl, rfl⟩).trans (hbound e.2)

end Pass

end Hydrogenuine.Support
