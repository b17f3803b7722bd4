import Hydrogenuine.Support.Dict
import Mathlib.Logic.Relation
import Mathlib.Order.WellFounded

/-!
# Cycle detection by depth-first search

The search colors a vertex gray when it enters it and black when it leaves it, and
reports a cycle when it meets a gray vertex again.  A search that reports none
leaves only black vertices that are accessible along the edges: when a vertex is
left, all its successors are black already.  A search that reports one has found
an edge to a gray vertex, from which the path of the gray vertices leads back.
The depth is bounded by a fuel, which is enough when no more vertices are white.
-/

namespace Hydrogenuine.Support

/-- A stricter condition that fails where the other holds counts fewer
elements. -/
theorem countP_lt_of_exists
    {α : Type*} {p q : α → Bool} {xs : List α}
    (hle : ∀ x ∈ xs, p x = true → q x = true)
    (hlt : ∃ x ∈ xs, q x = true ∧ p x = false) :
    xs.countP p < xs.countP q := by
  obtain ⟨x, hx, hq, hp⟩ := hlt
  obtain ⟨before, after, rfl⟩ := List.append_of_mem hx
  have hbefore : before.countP p ≤ before.countP q :=
    List.countP_mono_left fun y hy =>
      hle y (List.mem_append_left _ hy)
  have hafter : after.countP p ≤ after.countP q :=
    List.countP_mono_left fun y hy =>
      hle y (List.mem_append_right _ (List.mem_cons_of_mem _ hy))
  rw [List.countP_append, List.countP_append, List.countP_cons,
    List.countP_cons, hq, hp]
  simp only [if_true, Bool.false_eq_true, if_false]
  omega

namespace DepthFirst

variable {α : Type*} [DecidableEq α]

/-- Gray vertices are `true`, black ones `false`, and white ones are absent. -/
abbrev Coloring (α : Type*) := List (α × Bool)

/-- Look at a successor: a white one is searched.  After a cycle nothing is looked
at any more. -/
def visit
    (vertices : List α) (down : α → Coloring α → Bool × Coloring α)
    (acc : Bool × Coloring α) (y : α) : Bool × Coloring α :=
  if acc.1 || !vertices.contains y then acc
  else
    match lookupEntry y acc.2 with
    | some gray => (gray, acc.2)
    | none => down y acc.2

/-- The search from a white vertex: whether it meets a gray one, and the colors
after it. -/
def search (edges : α → List α) (vertices : List α) :
    ℕ → α → Coloring α → Bool × Coloring α
  | 0, _, colors => (false, colors)
  | fuel + 1, x, colors =>
      match (edges x).foldl (visit vertices (search edges vertices fuel))
          (false, assignEntry x true colors) with
      | (true, colors') => (true, colors')
      | (false, colors') => (false, assignEntry x false colors')

variable {edges : α → List α} {vertices : List α} {colors colors' : Coloring α}

/-- `y` comes right before `x`. -/
def Precedes (edges : α → List α) (vertices : List α) (y x : α) : Prop :=
  y ∈ edges x ∧ y ∈ vertices

/-- The number of white vertices. -/
def whites (vertices : List α) (colors : Coloring α) : ℕ :=
  vertices.countP fun x => (lookupEntry x colors).isNone

/-- Colored vertices keep their colors. -/
def Extends (colors colors' : Coloring α) : Prop :=
  ∀ x gray, lookupEntry x colors = some gray → lookupEntry x colors' = some gray

/-- No cycle is below a black vertex. -/
def Grounded
    (edges : α → List α) (vertices : List α) (colors : Coloring α) : Prop :=
  ∀ x, lookupEntry x colors = some false → Acc (Precedes edges vertices) x

theorem whites_le (h : Extends colors colors') :
    whites vertices colors' ≤ whites vertices colors := by
  refine List.countP_mono_left fun x _ hx => ?_
  rw [Option.isNone_iff_eq_none] at hx ⊢
  cases hcolor : lookupEntry x colors with
  | none => rfl
  | some gray => exact absurd (h x gray hcolor) (by rw [hx]; nofun)

variable {down : α → Coloring α → Bool × Coloring α} {x : α}

theorem extends_assign (hwhite : lookupEntry x colors = none)
    (gray : Bool) : Extends colors (assignEntry x gray colors) := by
  intro y gray' hy
  have hne : y ≠ x := by
    rintro rfl
    rw [hwhite] at hy
    cases hy
  rw [lookupEntry_assignEntry, if_neg hne, hy]

theorem whites_assign_lt (hx : x ∈ vertices) (hwhite : lookupEntry x colors = none)
    (gray : Bool) :
    whites vertices (assignEntry x gray colors) < whites vertices colors := by
  apply countP_lt_of_exists
  · intro y _ hy
    rw [Option.isNone_iff_eq_none] at hy ⊢
    cases hcolor : lookupEntry y colors with
    | none => rfl
    | some gray' =>
        have hkept := extends_assign hwhite gray y gray' hcolor
        rw [hy] at hkept
        cases hkept
  · refine ⟨x, hx, by rw [hwhite]; rfl, ?_⟩
    rw [lookupEntry_assignEntry, if_pos rfl]
    rfl

/-- What a search without a cycle leaves behind. -/
structure Leaves
    (edges : α → List α) (vertices : List α) (colors colors' : Coloring α)
    (ys : List α) : Prop where
  grounded : Grounded edges vertices colors'
  kept : Extends colors colors'
  gray : ∀ x, lookupEntry x colors' = some true → lookupEntry x colors = some true
  black : ∀ y ∈ ys, y ∈ vertices → lookupEntry y colors' = some false

/-- A search that reports no cycle does what it shall. -/
def Searches
    (edges : α → List α) (vertices : List α) (fuel : ℕ)
    (down : α → Coloring α → Bool × Coloring α) : Prop :=
  ∀ y colors, y ∈ vertices → lookupEntry y colors = none →
    whites vertices colors ≤ fuel → Grounded edges vertices colors →
      (down y colors).1 = false →
        Leaves edges vertices colors (down y colors).2 [y]

theorem visit_stuck
    (down : α → Coloring α → Bool × Coloring α) (ys : List α)
    (colors : Coloring α) :
    ys.foldl (visit vertices down) (true, colors) = (true, colors) := by
  induction ys with
  | nil => rfl
  | cons y ys ih => exact ih

/-- One successor. -/
theorem visit_leaves
    {fuel : ℕ}
    (hdown : Searches edges vertices fuel down)
    (hfuel : whites vertices colors ≤ fuel)
    (hgrounded : Grounded edges vertices colors) (y : α)
    (h : (visit vertices down (false, colors) y).1 = false) :
    Leaves edges vertices colors (visit vertices down (false, colors) y).2
      [y] := by
  unfold visit at h ⊢
  by_cases hy : vertices.contains y = true
  · simp only [hy, Bool.not_true, Bool.or_false, Bool.false_eq_true, if_false]
      at h ⊢
    cases hcolor : lookupEntry y colors with
    | some gray =>
        rw [hcolor] at h
        obtain rfl : gray = false := h
        refine ⟨hgrounded, fun _ _ hx => hx, fun _ hx => hx, ?_⟩
        intro y' hy' _
        rw [List.mem_singleton.mp hy', hcolor]
    | none =>
        rw [hcolor] at h
        exact hdown y colors (List.contains_iff_mem.mp hy) hcolor hfuel hgrounded
          h
  · simp only [hy, Bool.not_false, Bool.or_true, if_true] at h ⊢
    refine ⟨hgrounded, fun _ _ hx => hx, fun _ hx => hx, ?_⟩
    intro y' hy' hmem
    rw [List.mem_singleton.mp hy'] at hmem
    exact absurd (List.contains_iff_mem.mpr hmem) hy

/-- The successors, one after the other. -/
theorem visits_leave
    {fuel : ℕ}
    (hdown : Searches edges vertices fuel down) (ys : List α)
    (hfuel : whites vertices colors ≤ fuel)
    (hgrounded : Grounded edges vertices colors)
    (h : (ys.foldl (visit vertices down) (false, colors)).1 = false) :
    Leaves edges vertices colors
      (ys.foldl (visit vertices down) (false, colors)).2 ys := by
  induction ys generalizing colors with
  | nil =>
      exact ⟨hgrounded, fun _ _ hx => hx, fun _ hx => hx, List.forall_mem_nil _⟩
  | cons y ys ih =>
      rw [List.foldl_cons] at h ⊢
      cases hvisit : visit vertices down (false, colors) y with
      | mk cycle colors' =>
          rw [hvisit] at h
          cases cycle with
          | true =>
              rw [visit_stuck] at h
              cases h
          | false =>
              have hfirst := visit_leaves hdown hfuel hgrounded y
                (by rw [hvisit])
              rw [hvisit] at hfirst
              have hrest := ih ((whites_le hfirst.kept).trans hfuel)
                hfirst.grounded h
              refine ⟨hrest.grounded, ?_, ?_, ?_⟩
              · exact fun x gray hx => hrest.kept x gray (hfirst.kept x gray hx)
              · exact fun x hx => hfirst.gray x (hrest.gray x hx)
              · intro y' hy' hmem
                rcases List.mem_cons.mp hy' with rfl | hy'
                · exact hrest.kept _ _
                    (hfirst.black y' List.mem_cons_self hmem)
                · exact hrest.black y' hy' hmem

theorem search_searches (fuel : ℕ) :
    Searches edges vertices fuel (search edges vertices fuel) := by
  induction fuel with
  | zero =>
      intro y colors hy hwhite hfuel
      have hsome := whites_assign_lt hy hwhite true
      omega
  | succ fuel ih =>
      intro x colors hx hwhite hfuel hgrounded h
      have hgray := whites_assign_lt hx hwhite true
      have hentered : Grounded edges vertices (assignEntry x true colors) := by
        intro y hy
        rw [lookupEntry_assignEntry] at hy
        split at hy
        · cases hy
        · exact hgrounded y hy
      rw [search] at h ⊢
      cases hvisits : (edges x).foldl (visit vertices
          (search edges vertices fuel)) (false, assignEntry x true colors) with
      | mk cycle colors' =>
          rw [hvisits] at h
          cases cycle with
          | true => cases h
          | false =>
              have hbelow := visits_leave ih (edges x) (by omega) hentered
                (by rw [hvisits])
              rw [hvisits] at hbelow
              refine ⟨?_, ?_, ?_, ?_⟩
              · intro y hy
                rw [lookupEntry_assignEntry] at hy
                split at hy
                · rename_i heq
                  subst heq
                  refine Acc.intro _ fun z hz => ?_
                  exact hbelow.grounded z (hbelow.black z hz.1 hz.2)
                · exact hbelow.grounded y hy
              · intro y gray hy
                have hne : y ≠ x := by
                  rintro rfl
                  rw [hwhite] at hy
                  cases hy
                rw [lookupEntry_assignEntry, if_neg hne]
                exact hbelow.kept y gray (extends_assign hwhite true y gray hy)
              · intro y hy
                rw [lookupEntry_assignEntry] at hy
                split at hy
                · cases hy
                · rename_i hne
                  have hgray' := hbelow.gray y hy
                  rw [lookupEntry_assignEntry, if_neg hne] at hgray'
                  exact hgray'
              · intro y hy _
                rw [List.mem_singleton.mp hy, lookupEntry_assignEntry,
                  if_pos rfl]

/-- One vertex of the search from all of them. -/
def enter
    (edges : α → List α) (vertices : List α) (acc : Bool × Coloring α) (x : α) :
    Bool × Coloring α :=
  if acc.1 || (lookupEntry x acc.2).isSome then acc
  else search edges vertices vertices.length x acc.2

/-- The search from every vertex that is still white. -/
def searchAll (edges : α → List α) (vertices : List α) :
    Bool × Coloring α :=
  vertices.foldl (enter edges vertices) (false, [])

theorem enter_stuck (xs : List α) (colors : Coloring α) :
    xs.foldl (enter edges vertices) (true, colors) = (true, colors) := by
  induction xs with
  | nil => rfl
  | cons x xs ih => exact ih

theorem acc_of_entered
    (xs : List α) (hxs : ∀ x ∈ xs, x ∈ vertices)
    (hgrounded : Grounded edges vertices colors)
    (hgray : ∀ x, lookupEntry x colors ≠ some true)
    (h : (xs.foldl (enter edges vertices) (false, colors)).1 = false) :
    ∀ x ∈ xs, Acc (Precedes edges vertices) x := by
  induction xs generalizing colors with
  | nil => exact List.forall_mem_nil _
  | cons x xs ih =>
      rw [List.foldl_cons] at h
      have hrest : ∀ y ∈ xs, y ∈ vertices :=
        fun y hy => hxs y (List.mem_cons_of_mem _ hy)
      cases hcolor : lookupEntry x colors with
      | some gray =>
          have hsame : enter edges vertices (false, colors) x =
              (false, colors) := by
            rw [enter, if_pos]
            rw [hcolor]
            rfl
          have hblack : gray = false :=
            Bool.eq_false_iff.mpr fun hg => hgray x (hg ▸ hcolor)
          rw [hsame] at h
          intro y hy
          rcases List.mem_cons.mp hy with rfl | hy
          · exact hgrounded y (hblack ▸ hcolor)
          · exact ih hrest hgrounded hgray h y hy
      | none =>
          have hsearch : enter edges vertices (false, colors) x =
              search edges vertices vertices.length x colors := by
            rw [enter, if_neg]
            rw [hcolor]
            exact Bool.false_ne_true
          rw [hsearch] at h
          cases hfound : search edges vertices vertices.length x colors with
          | mk cycle colors' =>
              rw [hfound] at h
              cases cycle with
              | true =>
                  rw [enter_stuck] at h
                  cases h
              | false =>
                  have hleaves := search_searches vertices.length x colors
                    (hxs x List.mem_cons_self) hcolor List.countP_le_length
                    hgrounded (by rw [hfound])
                  rw [hfound] at hleaves
                  intro y hy
                  rcases List.mem_cons.mp hy with rfl | hy
                  · exact hleaves.grounded y
                      (hleaves.black y List.mem_cons_self
                        (hxs y List.mem_cons_self))
                  · exact ih hrest hleaves.grounded
                      (fun z hz => hgray z (hleaves.gray z hz)) h y hy

/-- When the search from all vertices reports no cycle, every vertex is accessible
along the edges. -/
theorem acc_of_searchAll
    (h : (searchAll edges vertices).1 = false) :
    ∀ x ∈ vertices, Acc (Precedes edges vertices) x :=
  acc_of_entered vertices (fun _ hx => hx) (fun _ hx => by cases hx)
    (fun _ hx => by cases hx) h

/-! ## A reported cycle is one -/

open Relation

/-- Along edges between vertices, some vertex leads back to itself. -/
def Cyclic (edges : α → List α) (vertices : List α) : Prop :=
  ∃ x, TransGen (Precedes edges vertices) x x

/-- Every gray vertex leads to `x`. -/
def LeadTo
    (edges : α → List α) (vertices : List α) (colors : Coloring α) (x : α) :
    Prop :=
  ∀ y, lookupEntry y colors = some true →
    ReflTransGen (Precedes edges vertices) x y

/-- What a search from a vertex to which the gray ones lead may answer: a cycle
when there is one, and else no new gray vertex. -/
structure Reports
    (edges : α → List α) (vertices : List α) (colors : Coloring α)
    (answer : Bool × Coloring α) : Prop where
  cycle : answer.1 = true → Cyclic edges vertices
  gray : answer.1 = false → ∀ y, lookupEntry y answer.2 = some true →
    lookupEntry y colors = some true

theorem visit_reports
    (hdown : ∀ y colors, lookupEntry y colors = none →
      LeadTo edges vertices colors y →
        Reports edges vertices colors (down y colors))
    {x y : α} (hy : y ∈ edges x) (hlead : LeadTo edges vertices colors x) :
    Reports edges vertices colors (visit vertices down (false, colors) y) := by
  unfold visit
  by_cases hmem : y ∈ vertices
  · have hcontains : vertices.contains y = true := List.contains_iff_mem.mpr hmem
    simp only [hcontains, Bool.not_true, Bool.or_false, Bool.false_eq_true,
      if_false]
    cases hcolor : lookupEntry y colors with
    | some gray =>
        refine ⟨fun hgray => ?_, fun _ _ h => h⟩
        obtain rfl : gray = true := hgray
        exact ⟨y, TransGen.head' ⟨hy, hmem⟩ (hlead y hcolor)⟩
    | none =>
        exact hdown y colors hcolor fun z hz =>
          ReflTransGen.head ⟨hy, hmem⟩ (hlead z hz)
  · have hcontains : vertices.contains y = false := by
      rw [Bool.eq_false_iff]
      exact fun h => hmem (List.contains_iff_mem.mp h)
    simp only [hcontains, Bool.not_false, Bool.or_true, if_true]
    exact ⟨fun h => Bool.noConfusion h, fun _ _ h => h⟩

theorem visits_report
    (hdown : ∀ y colors, lookupEntry y colors = none →
      LeadTo edges vertices colors y →
        Reports edges vertices colors (down y colors)) (ys : List α) (hys : ∀ y ∈ ys, y ∈ edges x)
    (hlead : LeadTo edges vertices colors x) :
    Reports edges vertices colors
      (ys.foldl (visit vertices down) (false, colors)) := by
  induction ys generalizing colors with
  | nil => exact ⟨fun h => Bool.noConfusion h, fun _ _ h => h⟩
  | cons y ys ih =>
      have hfirst := visit_reports hdown (hys y List.mem_cons_self) hlead
      rw [List.foldl_cons]
      cases hvisit : visit vertices down (false, colors) y with
      | mk cycle colors' =>
          rw [hvisit] at hfirst
          cases cycle with
          | true =>
              rw [visit_stuck]
              exact ⟨fun _ => hfirst.cycle rfl, fun h => Bool.noConfusion h⟩
          | false =>
              have hrest := ih (fun z hz => hys z (List.mem_cons_of_mem _ hz))
                fun z hz => hlead z (hfirst.gray rfl z hz)
              exact ⟨hrest.cycle,
                fun h z hz => hfirst.gray rfl z (hrest.gray h z hz)⟩

theorem search_reports
    (fuel : ℕ) (x : α) (colors : Coloring α)
    (hwhite : lookupEntry x colors = none)
    (hlead : LeadTo edges vertices colors x) :
    Reports edges vertices colors (search edges vertices fuel x colors) := by
  induction fuel generalizing x colors with
  | zero => exact ⟨fun h => Bool.noConfusion h, fun _ _ h => h⟩
  | succ fuel ih =>
      have hentered : LeadTo edges vertices (assignEntry x true colors) x := by
        intro y hy
        rw [lookupEntry_assignEntry] at hy
        split at hy
        · next heq => exact heq ▸ ReflTransGen.refl
        · exact hlead y hy
      have hbelow := visits_report ih (edges x) (fun _ hy => hy) hentered
      rw [search]
      cases hvisits : (edges x).foldl (visit vertices
          (search edges vertices fuel)) (false, assignEntry x true colors) with
      | mk cycle colors' =>
          rw [hvisits] at hbelow
          cases cycle with
          | true => exact ⟨hbelow.cycle, fun h => Bool.noConfusion h⟩
          | false =>
              refine ⟨fun h => Bool.noConfusion h, fun _ y hy => ?_⟩
              rw [lookupEntry_assignEntry] at hy
              split at hy
              · cases hy
              · next hne =>
                  have hgray := hbelow.gray rfl y hy
                  rw [lookupEntry_assignEntry, if_neg hne] at hgray
                  exact hgray

theorem cyclic_of_entered
    (xs : List α) (hgray : ∀ x, lookupEntry x colors ≠ some true)
    (h : (xs.foldl (enter edges vertices) (false, colors)).1 = true) :
    Cyclic edges vertices := by
  induction xs generalizing colors with
  | nil => cases h
  | cons x xs ih =>
      rw [List.foldl_cons] at h
      cases hcolor : lookupEntry x colors with
      | some gray =>
          have hsame : enter edges vertices (false, colors) x =
              (false, colors) := by
            rw [enter, if_pos]
            rw [hcolor]
            rfl
          rw [hsame] at h
          exact ih hgray h
      | none =>
          have hsearch : enter edges vertices (false, colors) x =
              search edges vertices vertices.length x colors := by
            rw [enter, if_neg]
            rw [hcolor]
            exact Bool.false_ne_true
          have hreports : Reports edges vertices colors
              (search edges vertices vertices.length x colors) :=
            search_reports _ x colors hcolor fun y hy => absurd hy (hgray y)
          rw [hsearch] at h
          cases hfound : search edges vertices vertices.length x colors with
          | mk cycle colors' =>
              rw [hfound] at h hreports
              cases cycle with
              | true => exact hreports.cycle rfl
              | false =>
                  exact ih (fun y hy => hgray y (hreports.gray rfl y hy)) h

omit [DecidableEq α] in
theorem not_cyclic_of_acc
    (h : ∀ x ∈ vertices, Acc (Precedes edges vertices) x) :
    ¬ Cyclic edges vertices := by
  rintro ⟨x, hcycle⟩
  have hmem : x ∈ vertices := by
    obtain ⟨y, hxy, -⟩ := TransGen.head'_iff.mp hcycle
    exact hxy.2
  have hirrefl : ∀ y, Acc (TransGen (Precedes edges vertices)) y →
      ¬ TransGen (Precedes edges vertices) y y := by
    intro y hy
    induction hy with
    | intro y _ ih => exact fun hself => ih y hself hself
  exact hirrefl x (h x hmem).transGen hcycle

/-- The search from all vertices, in whatever order they are taken, reports a
cycle exactly when there is one. -/
theorem entered_iff_cyclic
    {xs : List α} (hxs : ∀ x, x ∈ xs ↔ x ∈ vertices) :
    (xs.foldl (enter edges vertices) (false, [])).1 = true ↔
      Cyclic edges vertices := by
  constructor
  · exact cyclic_of_entered xs fun x hx => by cases hx
  · intro hcyclic
    by_contra hnone
    rw [Bool.not_eq_true] at hnone
    have hacc := acc_of_entered xs (fun x hx => (hxs x).mp hx)
      (fun _ hx => by cases hx) (fun _ hx => by cases hx) hnone
    exact not_cyclic_of_acc (fun x hx => hacc x ((hxs x).mpr hx)) hcyclic

end DepthFirst

end Hydrogenuine.Support
