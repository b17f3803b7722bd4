import Mathlib.Data.List.Basic

/-!
# Delivery to polling groups

A system that groups poll, seen through what waits for each group: a poll hands out
the first of what waits for its group, and that does not wait for it any more.  What
further polls can return is then exactly what waits.
-/

namespace Hydrogenuine.Support

universe u v w x

variable {σ : Type u} {γ : Type v} {π : Type w} {ν : Type x}

section Delivery

variable (poll : γ → π → σ → List ν × σ)

/-- What the polls of a group return in turn. -/
def polled (g : γ) : List π → σ → List ν
  | [], _ => []
  | p :: ps, s => (poll g p s).1 ++ polled g ps (poll g p s).2

/-- The item is returned by some further polls of the group. -/
def Returns (s : σ) (g : γ) (n : ν) : Prop := ∃ ps, n ∈ polled poll g ps s

/-- Every group is still returned each published item that it has not acknowledged. -/
def NothingLost (published : List ν) (acked : List (γ × ν)) (s : σ) : Prop :=
  ∀ g, ∀ n ∈ published, (g, n) ∉ acked → Returns poll s g n

/-- In the states with the invariant, polls hand out what waits in turn. -/
structure Delivers (Inv : σ → Prop) (waiting : σ → γ → List ν) : Prop where
  keeps : ∀ g p s, Inv s → Inv (poll g p s).2
  poll_waiting : ∀ g p s, Inv s →
    waiting s g = (poll g p s).1 ++ waiting (poll g p s).2 g
  exists_poll : ∀ g s, Inv s → ∃ p, (poll g p s).1 = waiting s g

variable {poll} {Inv : σ → Prop} {waiting : σ → γ → List ν}

namespace Delivers

variable (h : Delivers poll Inv waiting)

include h

variable {s : σ} {g : γ} {n : ν}

theorem mem_waiting_of_mem_polled (ps : List π) (hs : Inv s)
    (hn : n ∈ polled poll g ps s) : n ∈ waiting s g := by
  induction ps generalizing s with
  | nil => cases hn
  | cons p ps ih =>
      rw [h.poll_waiting g p s hs, List.mem_append]
      exact (List.mem_append.mp hn).imp_right (ih (h.keeps g p s hs))

theorem returns_iff (hs : Inv s) :
    Returns poll s g n ↔ n ∈ waiting s g := by
  constructor
  · rintro ⟨ps, hn⟩
    exact h.mem_waiting_of_mem_polled ps hs hn
  · intro hn
    obtain ⟨p, hp⟩ := h.exists_poll g s hs
    refine ⟨[p], ?_⟩
    rw [polled, List.mem_append, hp]
    exact Or.inl hn

theorem nothingLost_of_waiting {published : List ν} {acked : List (γ × ν)}
    (hs : Inv s) (hall : ∀ g, ∀ n ∈ published, n ∈ waiting s g) :
    NothingLost poll published acked s :=
  fun g n hn _ => (h.returns_iff hs).mpr (hall g n hn)

/-- Among distinct items, one that a poll returns is lost unless it is acknowledged. -/
theorem not_nothingLost_of_polled {published : List ν} {acked : List (γ × ν)}
    (hs : Inv s) {p : π} (hnodup : (waiting s g).Nodup)
    (hpolled : n ∈ (poll g p s).1) (hn : n ∈ published) (hacked : (g, n) ∉ acked) :
    ¬ NothingLost poll published acked (poll g p s).2 := by
  intro hlost
  have hwaits := (h.returns_iff (h.keeps g p s hs)).mp (hlost g n hn hacked)
  rw [h.poll_waiting g p s hs] at hnodup
  exact (List.nodup_append.mp hnodup).2.2 n hpolled n hwaits rfl

end Delivers

end Delivery

end Hydrogenuine.Support
