import Mathlib.Order.Defs.Unbundled

/-!
# Stateful computations that may raise

Rules for `EStateM`, in which an exception keeps the state changes made before
it.  `Ends m s Q E` says how the computation `m` ends from the state `s`: a
returned value and its state satisfy `Q`, a raised exception and its state
satisfy `E`.  `Along R m` is the frame form: whichever way it ends, `m` leads
along `R`.  The rules follow the structure of a computation, so that a function
is unfolded once, for its own specification.
-/

namespace Hydrogenuine.Support

variable {ε σ α β : Type}

/-- How a computation ends from a state. -/
def Ends
    (m : EStateM ε σ α) (s : σ) (Q : α → σ → Prop) (E : ε → σ → Prop) : Prop :=
  match m s with
  | .ok a t => Q a t
  | .error e t => E e t

/-- The state in which a computation ends, whether it returns or raises. -/
def finalState (m : EStateM ε σ α) (s : σ) : σ :=
  match m s with
  | .ok _ t => t
  | .error _ t => t

/-- What a computation returns or raises. -/
def outcome (m : EStateM ε σ α) (s : σ) : Except ε α :=
  match m s with
  | .ok a _ => .ok a
  | .error e _ => .error e

/-- Raise the error of a pure result, or return its value. -/
def raising : Except ε α → EStateM ε σ α
  | .ok a => pure a
  | .error e => throw e

/-- Catch an error: the changes made before it stay. -/
def attempt (m : EStateM ε σ α) : EStateM ε σ (Except ε α) := fun s =>
  match m s with
  | .ok a t => .ok (.ok a) t
  | .error e t => .ok (.error e) t

/-- Run a computation, and change the state whichever way it ended. -/
def andFinally (m : EStateM ε σ α) (g : σ → σ) : EStateM ε σ α := fun s =>
  match m s with
  | .ok a t => .ok a (g t)
  | .error e t => .error e (g t)

/-! ### Running a computation step by step -/

section Running

variable {s t : σ}

theorem get_bind_apply (f : σ → EStateM ε σ α) : (get >>= f) s = f s s := rfl

theorem set_bind_apply (f : PUnit → EStateM ε σ α) : (set t >>= f) s = f ⟨⟩ t := rfl

theorem modify_bind_apply (g : σ → σ) (f : PUnit → EStateM ε σ α) :
    (modify g >>= f) s = f ⟨⟩ (g s) := rfl

theorem raising_bind_apply (r : Except ε α) (f : α → EStateM ε σ β) :
    (raising r >>= f) s =
      match r with
      | .ok a => f a s
      | .error e => .error e s := by
  cases r with
  | ok a => rfl
  | error e => rfl

theorem bind_apply (m : EStateM ε σ α) (f : α → EStateM ε σ β) :
    (m >>= f) s =
      match m s with
      | .ok a t => f a t
      | .error e t => .error e t := rfl

end Running

section Ends

variable {m : EStateM ε σ α} {f : α → EStateM ε σ β} {s : σ}
  {Q Q' : α → σ → Prop} {E E' : ε → σ → Prop} {P : β → σ → Prop}

theorem ends_pure {a : α} (h : Q a s) : Ends (pure a) s Q E := h

theorem ends_throw {e : ε} (h : E e s) :
    Ends (throw e : EStateM ε σ α) s Q E := h

theorem ends_get {R : σ → σ → Prop} (h : R s s) :
    Ends (get : EStateM ε σ σ) s R E := h

theorem ends_modify {g : σ → σ} {R : PUnit → σ → Prop} (h : R ⟨⟩ (g s)) :
    Ends (modify g : EStateM ε σ PUnit) s R E := h

theorem ends_set {t : σ} {R : PUnit → σ → Prop} (h : R ⟨⟩ t) :
    Ends (set t : EStateM ε σ PUnit) s R E := h

theorem ends_bind
    (h : Ends m s (fun a t => Ends (f a) t P E) E) : Ends (m >>= f) s P E := by
  unfold Ends at h ⊢
  change match EStateM.bind m f s with
    | .ok a t => P a t
    | .error e t => E e t
  unfold EStateM.bind
  cases hm : m s with
  | ok a t =>
      rw [hm] at h
      exact h
  | error e t =>
      rw [hm] at h
      exact h

theorem ends_mono
    (h : Ends m s Q E) (hQ : ∀ a t, Q a t → Q' a t)
    (hE : ∀ e t, E e t → E' e t) : Ends m s Q' E' := by
  unfold Ends at h ⊢
  cases hm : m s with
  | ok a t =>
      rw [hm] at h
      exact hQ a t h
  | error e t =>
      rw [hm] at h
      exact hE e t h

theorem ends_attempt
    {P : Except ε α → σ → Prop}
    (h : Ends m s (fun a t => P (.ok a) t) (fun e t => P (.error e) t)) :
    Ends (attempt m) s P E := by
  unfold Ends at h ⊢
  unfold attempt
  cases hm : m s with
  | ok a t =>
      rw [hm] at h
      exact h
  | error e t =>
      rw [hm] at h
      exact h

theorem ends_andFinally
    {g : σ → σ}
    (h : Ends m s (fun a t => Q a (g t)) (fun e t => E e (g t))) :
    Ends (andFinally m g) s Q E := by
  unfold Ends at h ⊢
  unfold andFinally
  cases hm : m s with
  | ok a t =>
      rw [hm] at h
      exact h
  | error e t =>
      rw [hm] at h
      exact h

theorem ends_and
    (h : Ends m s Q E) (h' : Ends m s Q' E') :
    Ends m s (fun a t => Q a t ∧ Q' a t) (fun e t => E e t ∧ E' e t) := by
  unfold Ends at h h' ⊢
  cases hm : m s with
  | ok a t =>
      rw [hm] at h h'
      exact ⟨h, h'⟩
  | error e t =>
      rw [hm] at h h'
      exact ⟨h, h'⟩

theorem ends_raising
    {r : Except ε α} (hok : ∀ a, r = .ok a → Q a s)
    (herror : ∀ e, r = .error e → E e s) : Ends (raising r) s Q E := by
  cases r with
  | ok a => exact hok a rfl
  | error e => exact herror e rfl

theorem ends_of_forall
    (hQ : ∀ a t, Q a t) (hE : ∀ e t, E e t) : Ends m s Q E := by
  unfold Ends
  split
  · exact hQ _ _
  · exact hE _ _

/-- The specification of a computation, read off its state and its result. -/
theorem Ends.cases (h : Ends m s Q E) :
    (∃ a, outcome m s = .ok a ∧ Q a (finalState m s)) ∨
      ∃ e, outcome m s = .error e ∧ E e (finalState m s) := by
  unfold Ends at h
  unfold outcome finalState
  cases hm : m s with
  | ok a t =>
      rw [hm] at h
      exact Or.inl ⟨a, rfl, h⟩
  | error e t =>
      rw [hm] at h
      exact Or.inr ⟨e, rfl, h⟩

theorem Ends.of_ok {a : α} {t : σ} (h : Ends m s Q E) (hm : m s = .ok a t) : Q a t := by
  unfold Ends at h
  rw [hm] at h
  exact h

theorem Ends.of_error {e : ε} {t : σ} (h : Ends m s Q E) (hm : m s = .error e t) :
    E e t := by
  unfold Ends at h
  rw [hm] at h
  exact h

/-- A specification from the two ways in which a computation may end. -/
theorem ends_of_run
    (hok : ∀ a t, m s = .ok a t → Q a t) (herror : ∀ e t, m s = .error e t → E e t) :
    Ends m s Q E := by
  unfold Ends
  cases hm : m s with
  | ok a t => exact hok a t hm
  | error e t => exact herror e t hm

/-- A second computation is specified from where the first one ended. -/
theorem ends_bind_of_run
    (hok : ∀ a t, m s = .ok a t → Ends (f a) t P E)
    (herror : ∀ e t, m s = .error e t → E e t) : Ends (m >>= f) s P E :=
  ends_bind (ends_of_run hok herror)

theorem ends_iff_finalState {R : σ → Prop} :
    Ends m s (fun _ t => R t) (fun _ t => R t) ↔ R (finalState m s) := by
  unfold Ends finalState
  cases m s with
  | ok a t => exact Iff.rfl
  | error e t => exact Iff.rfl

/-- A computation ends with its outcome, in its final state. -/
theorem ends_outcome :
    Ends m s (fun a t => outcome m s = .ok a ∧ t = finalState m s)
      (fun e t => outcome m s = .error e ∧ t = finalState m s) := by
  unfold Ends outcome finalState
  cases m s with
  | ok a t => exact ⟨rfl, rfl⟩
  | error e t => exact ⟨rfl, rfl⟩

end Ends

-- The rules above are the only way into a specification: without this, `apply`
-- runs the computation in order to look for binders behind `Ends`.
attribute [irreducible] Ends

section Along

variable {R : σ → σ → Prop} {m : EStateM ε σ α} {f : α → EStateM ε σ β}

/-- Whether it returns or raises, the computation leads along `R`. -/
def Along (R : σ → σ → Prop) (m : EStateM ε σ α) : Prop :=
  ∀ s, Ends m s (fun _ t => R s t) (fun _ t => R s t)

theorem Along.finalState (h : Along R m) (s : σ) : R s (finalState m s) :=
  ends_iff_finalState.mp (h s)

theorem along_of_finalState (h : ∀ s, R s (finalState m s)) : Along R m :=
  fun s => ends_iff_finalState.mpr (h s)

/-- A frame that is only claimed from states with `P`. -/
theorem along_of_pre
    {P : σ → Prop}
    (h : ∀ s, P s → Ends m s (fun _ t => R s t) (fun _ t => R s t)) :
    Along (fun s t => P s → R s t) m := by
  intro s
  by_cases hs : P s
  · exact ends_mono (h s hs) (fun _ _ hR _ => hR) (fun _ _ hR _ => hR)
  · exact ends_of_forall (fun _ _ hP => absurd hP hs) (fun _ _ hP => absurd hP hs)

theorem along_pure [Std.Refl R] (a : α) :
    Along R (pure a : EStateM ε σ α) := by
  intro s
  exact ends_pure (Std.Refl.refl s)

theorem along_throw [Std.Refl R] (e : ε) :
    Along R (throw e : EStateM ε σ α) := by
  intro s
  exact ends_throw (Std.Refl.refl s)

theorem along_get [Std.Refl R] : Along R (get : EStateM ε σ σ) := by
  intro s
  exact ends_get (Std.Refl.refl s)

theorem along_modify {g : σ → σ} (h : ∀ s, R s (g s)) :
    Along R (modify g : EStateM ε σ PUnit) := by
  intro s
  exact ends_modify (h s)

theorem along_raising [Std.Refl R] (r : Except ε α) :
    Along R (raising r : EStateM ε σ α) := by
  cases r with
  | ok a => exact along_pure a
  | error e => exact along_throw e

theorem along_bind [IsTrans σ R]
    (hm : Along R m) (hf : ∀ a, Along R (f a)) : Along R (m >>= f) := by
  intro s
  apply ends_bind
  apply ends_mono (hm s)
  · intro a t hst
    apply ends_mono (hf a t)
    · intro b u htu
      exact IsTrans.trans s t u hst htu
    · intro e u htu
      exact IsTrans.trans s t u hst htu
  · intro e t hst
    exact hst

theorem along_forM [Std.Refl R] [IsTrans σ R]
    {γ : Type} {g : γ → EStateM ε σ PUnit} {xs : List γ}
    (hg : ∀ x ∈ xs, Along R (g x)) : Along R (xs.forM g) := by
  induction xs with
  | nil => exact along_pure _
  | cons x xs ih =>
      apply along_bind (hg x List.mem_cons_self)
      intro _
      apply ih
      intro y hy
      exact hg y (List.mem_cons_of_mem _ hy)

end Along

end Hydrogenuine.Support
