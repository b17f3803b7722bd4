import Mathlib.Data.List.Chain

/-!
# Journals of guarded transitions

A journal keeps the state it stands in, the states visited and the entries
written along the way.  `advance` takes a transition only where the guard
allows it and otherwise changes nothing; `enter` advances and writes an entry
whether or not the transition was taken.  Hence the visited states always form
a path of the guard (`Walk`), while the entries may name states that were never
entered.  `Tally` counts these slips, and `Tally.sublist_iff` says that the
entries follow the path exactly when there are none.
-/

namespace Hydrogenuine.Support

universe u v

/-- The current state, the states visited and the entries written. -/
structure Journal (σ : Type u) (δ : Type v) where
  current : σ
  visited : List σ
  entries : List δ

namespace Journal

variable {σ : Type u} {δ : Type v}

/-- The journal that stands in its first state. -/
def start (s₀ : σ) : Journal σ δ := ⟨s₀, [s₀], []⟩

/-- Write entries. -/
def note (J : Journal σ δ) (ds : List δ) : Journal σ δ :=
  { J with entries := J.entries ++ ds }

/-- Take a transition if the guard allows it. -/
def advance (can : σ → σ → Bool) (J : Journal σ δ) (s : σ) : Journal σ δ :=
  if can J.current s then
    { J with current := s, visited := J.visited ++ [s] }
  else J

/-- Advance, then write one entry. -/
def enter (can : σ → σ → Bool) (J : Journal σ δ) (s : σ) (d : δ) :
    Journal σ δ :=
  (J.advance can s).note [d]

/-- The visited states form a path from `s₀` to the current state. -/
structure Walk (can : σ → σ → Bool) (s₀ : σ) (J : Journal σ δ) : Prop where
  first : J.visited.head? = some s₀
  last : J.visited.getLast? = some J.current
  chain : J.visited.IsChain fun s t => can s t = true

/-- The states that entries name. -/
def named (names : δ → Option σ) (ds : List δ) : List σ := ds.filterMap names

/-- `k` entries name a state that their writing did not enter. -/
structure Tally
    (names : δ → Option σ) (s₀ : σ) (J : Journal σ δ) (k : ℕ) : Prop where
  count : (named names J.entries).length + 1 = J.visited.length + k
  inOrder : k = 0 → J.visited = s₀ :: named names J.entries

variable {can : σ → σ → Bool} {names : δ → Option σ} {s₀ s : σ} {d : δ}
  {J : Journal σ δ} {k : ℕ}

/-! ## The path -/

@[simp] theorem note_visited (ds : List δ) :
    (J.note ds).visited = J.visited := rfl

@[simp] theorem enter_current :
    (J.enter can s d).current = if can J.current s then s else J.current := by
  unfold enter advance
  split <;> rfl

theorem walk_start : Walk can s₀ (start s₀ : Journal σ δ) where
  first := rfl
  last := rfl
  chain := List.isChain_singleton _

theorem Walk.note (h : Walk can s₀ J) (ds : List δ) :
    Walk can s₀ (J.note ds) :=
  ⟨h.first, h.last, h.chain⟩

theorem Walk.advance (h : Walk can s₀ J) (s : σ) :
    Walk can s₀ (J.advance can s) := by
  unfold Journal.advance
  split
  · rename_i hcan
    constructor
    · rw [List.head?_append, h.first, Option.some_or]
    · exact List.getLast?_concat
    · refine List.isChain_append.mpr ⟨h.chain, List.isChain_singleton _, ?_⟩
      intro t ht t' ht'
      have hcurrent : J.current = t := by simpa [h.last] using ht
      have hnext : s = t' := by simpa using ht'
      rw [← hcurrent, ← hnext]
      exact hcan
  · exact h

theorem Walk.enter (h : Walk can s₀ J) (s : σ) (d : δ) :
    Walk can s₀ (J.enter can s d) :=
  (h.advance s).note [d]

/-! ## The entries -/

theorem tally_start : Tally names s₀ (start s₀ : Journal σ δ) 0 where
  count := rfl
  inOrder := fun _ => rfl

/-- Entries written without a transition are slips as far as they name
states. -/
theorem Tally.note (h : Tally names s₀ J k) (ds : List δ) :
    Tally names s₀ (J.note ds) (k + (named names ds).length) where
  count := by
    have hcount := h.count
    simp only [Journal.note, named, List.filterMap_append,
      List.length_append] at hcount ⊢
    omega
  inOrder := by
    intro hzero
    have hk : k = 0 := by omega
    have hds : named names ds = [] :=
      List.eq_nil_of_length_eq_zero (by omega)
    have hvisited := h.inOrder hk
    unfold named at hds hvisited ⊢
    rw [note_visited, hvisited, Journal.note, List.filterMap_append, hds,
      List.append_nil]

/-- A transition taken and named keeps the count. -/
theorem Tally.enter
    (h : Tally names s₀ J k) (hcan : can J.current s = true)
    (hnames : names d = some s) :
    Tally names s₀ (J.enter can s d) k := by
  unfold Journal.enter Journal.advance
  rw [if_pos hcan]
  constructor
  · have hcount := h.count
    simp only [Journal.note, named, List.filterMap_append, List.length_append,
      List.filterMap_cons, hnames, List.filterMap_nil, List.length_cons,
      List.length_nil] at hcount ⊢
    omega
  · intro hk
    have hvisited := h.inOrder hk
    unfold named at hvisited ⊢
    simp only [Journal.note, hvisited, List.filterMap_append,
      List.filterMap_cons, hnames, List.filterMap_nil, List.cons_append]

/-- A transition refused and named all the same is one more slip. -/
theorem Tally.enter_refused
    (h : Tally names s₀ J k) (hcan : can J.current s = false)
    (hnames : names d = some s) :
    Tally names s₀ (J.enter can s d) (k + 1) := by
  have hadvance : J.advance can s = J := by
    rw [Journal.advance, hcan]
    exact if_neg Bool.false_ne_true
  have hd : (named names [d]).length = 1 := by
    rw [named, List.filterMap_cons, hnames]
    rfl
  have hnote := h.note [d]
  rw [hd] at hnote
  rw [Journal.enter, hadvance]
  exact hnote

/-- The entries name states of the path, in its order, exactly when there is no
slip. -/
theorem Tally.sublist_iff
    (h : Tally names s₀ J k) (hfirst : J.visited.head? = some s₀)
    (hnever : ∀ d, names d ≠ some s₀) :
    (named names J.entries).Sublist J.visited ↔ k = 0 := by
  constructor
  · intro hsub
    have hlength := hsub.length_le
    have hcount := h.count
    by_contra hk
    -- with one slip the two lists have one length, so they would be equal
    have hsame : named names J.entries = J.visited :=
      hsub.eq_of_length (by omega)
    have hmem : s₀ ∈ named names J.entries := by
      rw [hsame]
      exact List.mem_of_mem_head? hfirst
    obtain ⟨d, -, hd⟩ := List.mem_filterMap.mp hmem
    exact hnever d hd
  · intro hk
    rw [h.inOrder hk]
    exact List.sublist_cons_self _ _

end Journal

end Hydrogenuine.Support
