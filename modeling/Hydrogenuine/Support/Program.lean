import Mathlib.Logic.Function.Basic
import Hydrogenuine.Support.Machine

/-!
# Programs that share a state

A program makes one access to a shared state after another, and goes on with what each
answers.  A pool runs any number of programs on one state; between two accesses of one
program any accesses of the others may happen.

`Program.Safe` says what the accesses of a program may be, given what the program has
learnt from its accesses so far.  It follows the structure of the program, whatever the
answers are, and the part of a program that is left to run is safe again.
-/

namespace Hydrogenuine.Support

/-- A program that returns a `τ`, raises an `ε`, or makes an access and goes on. -/
inductive Program (α : Type) (ρ : α → Type) (ε τ : Type) where
  | done (value : τ)
  | raised (error : ε)
  | access (a : α) (next : ρ a → Program α ρ ε τ)

namespace Program

variable {α : Type} {ρ : α → Type} {ε τ υ : Type}

/-- Run a program, and go on with what it returns. -/
def bind : Program α ρ ε τ → (τ → Program α ρ ε υ) → Program α ρ ε υ
  | .done value, f => f value
  | .raised error, _ => .raised error
  | .access a next, f => .access a fun r => (next r).bind f

instance : Monad (Program α ρ ε) where
  pure := .done
  bind := bind

/-- One access. -/
def ask (a : α) : Program α ρ ε (ρ a) := .access a .done

/-- The run of a program with no other at work. -/
def alone {σ : Type} (perform : σ → (a : α) → σ × ρ a) :
    σ → Program α ρ ε τ → σ × Except ε τ
  | s, .done value => (s, .ok value)
  | s, .raised error => (s, .error error)
  | s, .access a next => (next (perform s a).2).alone perform (perform s a).1

theorem alone_access {σ : Type} (perform : σ → (a : α) → σ × ρ a) {s : σ} {a : α}
    {next : ρ a → Program α ρ ε τ} {t : σ} {r : ρ a} (h : perform s a = (t, r)) :
    (access a next).alone perform s = (next r).alone perform t := by
  rw [alone, h]

/-- The access that is made next. -/
def next? : Program α ρ ε τ → Option α
  | .access a _ => some a
  | _ => none

section Safe

variable {κ : Type} (allows : κ → α → Prop) (learns : κ → (a : α) → ρ a → κ)

/-- Every access of the program is allowed by what was learnt before it, and what is
known at the end, with the value that is returned, satisfies `Q`. -/
def Safe (k : κ) (p : Program α ρ ε τ) (Q : κ → τ → Prop) : Prop :=
  match p with
  | .done value => Q k value
  | .raised _ => True
  | .access a next => allows k a ∧ ∀ r, Safe (learns k a r) (next r) Q

variable {allows learns} {k : κ} {Q : κ → τ → Prop} {R : κ → υ → Prop}

theorem safe_pure {value : τ} (h : Q k value) :
    Safe allows learns k (pure value : Program α ρ ε τ) Q := h

theorem safe_raised {error : ε} :
    Safe allows learns k (.raised error : Program α ρ ε τ) Q := trivial

theorem safe_bind {p : Program α ρ ε τ} {f : τ → Program α ρ ε υ}
    (h : Safe allows learns k p fun k' value => Safe allows learns k' (f value) R) :
    Safe allows learns k (p >>= f) R := by
  induction p generalizing k with
  | done value => exact h
  | raised error => exact trivial
  | access a next ih => exact ⟨h.1, fun r => ih r (h.2 r)⟩

theorem safe_ask {a : α} {Q : κ → ρ a → Prop}
    (hallowed : allows k a) (h : ∀ r, Q (learns k a r) r) :
    Safe allows learns k (ask a : Program α ρ ε (ρ a)) Q :=
  ⟨hallowed, h⟩

theorem safe_mono {p : Program α ρ ε τ} {Q' : κ → τ → Prop}
    (h : Safe allows learns k p Q) (hQ : ∀ k' value, Q k' value → Q' k' value) :
    Safe allows learns k p Q' := by
  induction p generalizing k with
  | done value => exact hQ k value h
  | raised error => exact trivial
  | access a next ih => exact ⟨h.1, fun r => ih r (h.2 r)⟩

end Safe

end Program

/-! ## Pools -/

/-- A program under way, with what it has learnt. -/
structure Process (α : Type) (ρ : α → Type) (ε τ κ : Type) where
  knows : κ
  rest : Program α ρ ε τ

/-- A shared state, and the processes that have been started on it. -/
structure Pool (α : Type) (ρ : α → Type) (ε τ κ σ : Type) where
  shared : σ
  procs : ℕ → Option (Process α ρ ε τ κ)

/-- Start a process under a number that is free, or let one make its next access. -/
inductive PoolInput (ω : Type) where
  | start (i : ℕ) (op : ω)
  | run (i : ℕ)

section Pool

variable {α : Type} {ρ : α → Type} {ε τ κ σ ω : Type}
  (perform : σ → (a : α) → σ × ρ a) (learns : κ → (a : α) → ρ a → κ)
  (begins : ω → Process α ρ ε τ κ)

/-- The process after its access `a` was answered with `r`. -/
def Process.resume (k : κ) (a : α) (next : ρ a → Program α ρ ε τ) (r : ρ a) :
    Process α ρ ε τ κ :=
  ⟨learns k a r, next r⟩

/-- The pool, taking one access of one process after another; the output is the access
that was made. -/
def poolMachine : Machine (Pool α ρ ε τ κ σ) (PoolInput ω) (Option α) where
  step w input :=
    match input with
    | .start i op =>
        match w.procs i with
        | none => ({ w with procs := Function.update w.procs i (some (begins op)) }, none)
        | some _ => (w, none)
    | .run i =>
        match w.procs i with
        | some ⟨k, .access a next⟩ =>
            ({ shared := (perform w.shared a).1
               procs := Function.update w.procs i
                (some (Process.resume learns k a next (perform w.shared a).2)) }, some a)
        | _ => (w, none)

variable {perform learns begins} {w : Pool α ρ ε τ κ σ} {i : ℕ}

theorem poolStep_start {op : ω} (h : w.procs i = none) :
    ((poolMachine perform learns begins).step w (.start i op)) =
      ({ w with procs := Function.update w.procs i (some (begins op)) }, none) := by
  simp only [poolMachine, h]

theorem poolStep_run {k : κ} {a : α} {next : ρ a → Program α ρ ε τ}
    (h : w.procs i = some ⟨k, .access a next⟩) :
    ((poolMachine perform learns begins).step w (.run i)) =
      ({ shared := (perform w.shared a).1
         procs := Function.update w.procs i
          (some (Process.resume learns k a next (perform w.shared a).2)) }, some a) := by
  simp only [poolMachine, h]

/-- A step starts a process, lets one make an access, or does nothing. -/
theorem poolStep_cases (input : PoolInput ω) :
    (∃ i op, input = .start i op ∧ w.procs i = none ∧
      (poolMachine perform learns begins).step w input =
        ({ w with procs := Function.update w.procs i (some (begins op)) }, none)) ∨
    (∃ i k a next, input = .run i ∧ w.procs i = some ⟨k, .access a next⟩ ∧
      (poolMachine perform learns begins).step w input =
        ({ shared := (perform w.shared a).1
           procs := Function.update w.procs i
            (some (Process.resume learns k a next (perform w.shared a).2)) }, some a)) ∨
    (poolMachine perform learns begins).step w input = (w, none) := by
  cases input with
  | start i op =>
      cases h : w.procs i with
      | none => exact Or.inl ⟨i, op, rfl, h, poolStep_start h⟩
      | some process =>
          refine Or.inr (Or.inr ?_)
          simp only [poolMachine, h]
  | run i =>
      match h : w.procs i with
      | some ⟨k, .access a next⟩ =>
          exact Or.inr (Or.inl ⟨i, k, a, next, rfl, h, poolStep_run h⟩)
      | some ⟨_, .done _⟩ =>
          refine Or.inr (Or.inr ?_)
          simp only [poolMachine, h]
      | some ⟨_, .raised _⟩ =>
          refine Or.inr (Or.inr ?_)
          simp only [poolMachine, h]
      | none =>
          refine Or.inr (Or.inr ?_)
          simp only [poolMachine, h]

end Pool

end Hydrogenuine.Support
