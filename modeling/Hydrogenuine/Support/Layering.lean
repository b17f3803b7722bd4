import Mathlib.Data.List.Sort

/-!
# Layers of a dependency graph

A vertex is ready once everything it depends on is in the order and it is not
there itself.  The order grows by all ready vertices at once, sorted.  Over
well-founded dependencies it ends as a permutation of the vertices in which each
vertex stands after all it depends on, and the list of vertices enters only up to
permutation.
-/

namespace Hydrogenuine.Support.Layering

variable {α : Type*} [DecidableEq α]

/-- `x` may be appended to the order. -/
def ready (deps : α → List α) (order : List α) (x : α) : Bool :=
  !order.contains x && (deps x).all order.contains

/-- The ready vertices, sorted by `r`. -/
def layer
    (r : α → α → Prop) [DecidableRel r] (deps : α → List α)
    (vertices order : List α) : List α :=
  (vertices.filter (ready deps order)).insertionSort r

/-- Append layers until one is empty.  Each takes a vertex, so that their number
bounds the number of layers. -/
def layers
    (r : α → α → Prop) [DecidableRel r] (deps : α → List α)
    (vertices : List α) : ℕ → List α → List α
  | 0, order => order
  | fuel + 1, order =>
      if (layer r deps vertices order).isEmpty then order
      else layers r deps vertices fuel (order ++ layer r deps vertices order)

/-- Each element of the list stands after all it depends on. -/
def Topological (deps : α → List α) (order : List α) : Prop :=
  ∀ before x after, order = before ++ x :: after → ∀ y ∈ deps x, y ∈ before

variable {r : α → α → Prop} [DecidableRel r] {deps : α → List α}
  {vertices order : List α}

theorem ready_eq_true_iff {x : α} :
    ready deps order x = true ↔ x ∉ order ∧ ∀ y ∈ deps x, y ∈ order := by
  simp [ready]

theorem mem_layer {x : α} :
    x ∈ layer r deps vertices order ↔
      x ∈ vertices ∧ x ∉ order ∧ ∀ y ∈ deps x, y ∈ order := by
  rw [layer, List.mem_insertionSort, List.mem_filter, ready_eq_true_iff]

theorem nodup_layer (hnodup : vertices.Nodup) :
    (layer r deps vertices order).Nodup :=
  (List.perm_insertionSort r _).nodup_iff.mpr (hnodup.filter _)

/-- What every list of layers satisfies: distinct vertices, each after all it
depends on. -/
structure Layered
    (deps : α → List α) (vertices order : List α) : Prop where
  nodup : order.Nodup
  subset : ∀ x ∈ order, x ∈ vertices
  topological : Topological deps order

omit [DecidableEq α] in
theorem layered_nil : Layered deps vertices [] := by
  refine ⟨List.nodup_nil, List.forall_mem_nil _, ?_⟩
  intro before x after heq
  cases before <;> cases heq

omit [DecidableEq α] in
/-- Elements whose dependencies are in the order may follow it in any order. -/
theorem Topological.append
    {later : List α} (h : Topological deps order)
    (hlater : ∀ x ∈ later, ∀ y ∈ deps x, y ∈ order) :
    Topological deps (order ++ later) := by
  intro before x after heq y hy
  rcases List.append_eq_append_iff.mp heq with
    ⟨middle, rfl, htail⟩ | ⟨middle, rfl, htail⟩
  · have hx : x ∈ later := htail ▸ List.mem_append_right _ List.mem_cons_self
    exact List.mem_append_left _ (hlater x hx y hy)
  · cases middle with
    | nil =>
        have hx : x ∈ later := by
          rw [← List.nil_append later, ← htail]
          exact List.mem_cons_self
        simpa using hlater x hx y hy
    | cons z middle =>
        obtain ⟨rfl, -⟩ := List.cons.inj htail
        exact h before x middle rfl y hy

theorem Layered.append_layer
    (hnodup : vertices.Nodup) (h : Layered deps vertices order) :
    Layered deps vertices (order ++ layer r deps vertices order) := by
  refine ⟨?_, ?_, ?_⟩
  · refine List.nodup_append.mpr ⟨h.nodup, nodup_layer hnodup, ?_⟩
    rintro x hx _ hy rfl
    exact (mem_layer.mp hy).2.1 hx
  · intro x hx
    rcases List.mem_append.mp hx with hx | hx
    · exact h.subset x hx
    · exact (mem_layer.mp hx).1
  · exact h.topological.append fun x hx => (mem_layer.mp hx).2.2

theorem Layered.layers
    (hnodup : vertices.Nodup) (fuel : ℕ) (h : Layered deps vertices order) :
    Layered deps vertices (layers r deps vertices fuel order) := by
  induction fuel generalizing order with
  | zero => exact h
  | succ fuel ih =>
      rw [Layering.layers]
      split
      · exact h
      · exact ih (h.append_layer hnodup)

/-- With enough fuel the last layer is empty. -/
theorem layer_layers
    (hnodup : vertices.Nodup) (fuel : ℕ) (h : Layered deps vertices order)
    (hfuel : vertices.length < order.length + fuel) :
    layer r deps vertices (layers r deps vertices fuel order) = [] := by
  induction fuel generalizing order with
  | zero =>
      have hle : order.length ≤ vertices.length :=
        (List.subperm_of_subset h.nodup h.subset).length_le
      omega
  | succ fuel ih =>
      rw [layers]
      split
      · next hempty => exact List.isEmpty_iff.mp hempty
      · next hsome =>
          have hpos : 0 < (layer r deps vertices order).length := by
            rw [List.length_pos_iff]
            exact fun hnil => hsome (List.isEmpty_iff.mpr hnil)
          refine ih (h.append_layer hnodup) ?_
          rw [List.length_append]
          omega

/-- Over well-founded dependencies nothing is left when the last layer is
empty. -/
theorem mem_of_layer_eq_nil
    (hknown : ∀ x ∈ vertices, ∀ y ∈ deps x, y ∈ vertices)
    (hempty : layer r deps vertices order = []) {x : α}
    (hacc : Acc (fun y x => y ∈ deps x ∧ y ∈ vertices) x) (hx : x ∈ vertices) :
    x ∈ order := by
  induction hacc with
  | intro x _ ih =>
      by_contra hnot
      have hdeps : ∀ y ∈ deps x, y ∈ order := fun y hy =>
        ih y ⟨hy, hknown x hx y hy⟩ (hknown x hx y hy)
      have hlayer : x ∈ layer r deps vertices order :=
        mem_layer.mpr ⟨hx, hnot, hdeps⟩
      rw [hempty] at hlayer
      cases hlayer

/-- The layers of a well-founded graph are a permutation of its vertices. -/
theorem layers_perm
    (hnodup : vertices.Nodup)
    (hknown : ∀ x ∈ vertices, ∀ y ∈ deps x, y ∈ vertices)
    (hacc : ∀ x ∈ vertices, Acc (fun y x => y ∈ deps x ∧ y ∈ vertices) x)
    {fuel : ℕ} (hfuel : vertices.length < fuel) :
    (layers r deps vertices fuel []).Perm vertices := by
  have hlayered : Layered deps vertices (layers r deps vertices fuel []) :=
    layered_nil.layers hnodup fuel
  have hempty : layer r deps vertices (layers r deps vertices fuel []) = [] :=
    layer_layers hnodup fuel layered_nil (by simpa using hfuel)
  refine (List.perm_ext_iff_of_nodup hlayered.nodup hnodup).mpr fun x => ?_
  exact ⟨hlayered.subset x, fun hx =>
    mem_of_layer_eq_nil hknown hempty (hacc x hx) hx⟩

section Order

variable [Std.Total r] [IsTrans α r] [Std.Antisymm r]

omit [DecidableEq α] in
/-- Sorting forgets the order of a list. -/
theorem insertionSort_eq_of_perm {xs ys : List α} (h : xs.Perm ys) :
    xs.insertionSort r = ys.insertionSort r :=
  (((List.perm_insertionSort r xs).trans h).trans
    (List.perm_insertionSort r ys).symm).eq_of_pairwise'
    (List.pairwise_insertionSort r xs) (List.pairwise_insertionSort r ys)

theorem layer_eq_of_perm {vertices' : List α} (h : vertices.Perm vertices') :
    layer r deps vertices order = layer r deps vertices' order :=
  insertionSort_eq_of_perm (h.filter _)

/-- The layers do not depend on the order in which the vertices are listed. -/
theorem layers_eq_of_perm
    {vertices' : List α} (h : vertices.Perm vertices') (fuel : ℕ) :
    layers r deps vertices fuel order = layers r deps vertices' fuel order := by
  induction fuel generalizing order with
  | zero => rfl
  | succ fuel ih => rw [layers, layers, layer_eq_of_perm h, ih]

end Order

end Hydrogenuine.Support.Layering
