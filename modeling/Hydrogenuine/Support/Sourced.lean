import Mathlib.Data.List.Sort

/-!
# Event-sourced state

A state that is kept next to the log it is folded from.  `Emits new s t` says that
the events `new` take the one to the other: they are appended to the log, folded
into the state, and numbered on from the length of the log.  It composes, and it
keeps the state `Faithful` to its log; a replay of a faithful log in the order of
its numbers gives the state again.
-/

namespace Hydrogenuine.Support

universe u v

/-- A log and the state that is kept next to it. -/
structure Sourced (σ : Type u) (ε : Type v) where
  events : List ε
  state : σ

namespace Sourced

variable {σ : Type u} {ε : Type v} (reduce : σ → ε → σ) (seq : ε → ℕ)

/-- The events lead from one sourced state to the next. -/
structure Emits (new : List ε) (s t : Sourced σ ε) : Prop where
  events : t.events = s.events ++ new
  state : t.state = new.foldl reduce s.state
  seqs : new.map seq = List.range' (s.events.length + 1) new.length

/-- The state is the fold of the log, whose events are numbered from one. -/
structure Faithful (init : σ) (s : Sourced σ ε) : Prop where
  state : s.state = s.events.foldl reduce init
  seqs : s.events.map seq = List.range' 1 s.events.length

/-- The fold of a log in the order of its numbers. -/
def replay (init : σ) (events : List ε) : σ :=
  (events.insertionSort fun a b => seq a ≤ seq b).foldl reduce init

variable {reduce seq} {new new' : List ε} {s t u : Sourced σ ε} {init : σ}

theorem Emits.refl (s : Sourced σ ε) : Emits reduce seq [] s s :=
  ⟨(List.append_nil _).symm, rfl, rfl⟩

theorem Emits.trans
    (h : Emits reduce seq new s t) (h' : Emits reduce seq new' t u) :
    Emits reduce seq (new ++ new') s u := by
  constructor
  · rw [h'.events, h.events, List.append_assoc]
  · rw [h'.state, h.state, List.foldl_append]
  · have hstart : t.events.length + 1 = s.events.length + 1 + 1 * new.length := by
      rw [h.events, List.length_append]
      omega
    rw [List.map_append, h.seqs, h'.seqs, hstart, List.range'_append,
      List.length_append]

theorem Emits.single {e : ε}
    (hevents : t.events = s.events ++ [e]) (hstate : t.state = reduce s.state e)
    (hseq : seq e = s.events.length + 1) : Emits reduce seq [e] s t :=
  ⟨hevents, hstate, congrArg (fun n => [n]) hseq⟩

theorem Emits.faithful
    (h : Emits reduce seq new s t) (hs : Faithful reduce seq init s) :
    Faithful reduce seq init t := by
  constructor
  · rw [h.state, h.events, List.foldl_append, hs.state]
  · have hstart : s.events.length + 1 = 1 + 1 * s.events.length := by omega
    rw [h.events, List.map_append, hs.seqs, h.seqs, hstart, List.range'_append,
      List.length_append]

theorem Faithful.replay_eq (h : Faithful reduce seq init s) :
    replay reduce seq init s.events = s.state := by
  have hsorted : s.events.Pairwise fun a b => seq a ≤ seq b := by
    have hnumbers : (s.events.map seq).Pairwise (· ≤ ·) := by
      rw [h.seqs]
      exact List.pairwise_le_range'
    exact List.pairwise_map.mp hnumbers
  rw [replay, hsorted.insertionSort_eq, ← h.state]

/-- A property of the state that every event keeps is kept by all of them. -/
theorem Emits.keeps
    {P : σ → Prop} (hkeep : ∀ state e, P state → P (reduce state e))
    (h : Emits reduce seq new s t) (hs : P s.state) : P t.state := by
  rw [h.state]
  clear h
  generalize s.state = state at hs
  induction new generalizing state with
  | nil => exact hs
  | cons e new ih => exact ih _ (hkeep _ _ hs)

end Sourced

end Hydrogenuine.Support
