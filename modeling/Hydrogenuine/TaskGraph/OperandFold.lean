import Mathlib.Algebra.Ring.Nat
import Mathlib.Algebra.BigOperators.Group.List.Basic
import Mathlib.Data.List.ReduceOption
import Hydrogenuine.TaskGraph.Evaluation

/-!
# Operators on more than two operands

`+`, `-`, `*` and `%` take lists of operands of any length.  A product multiplies them one
after the other, and so does a sum of numbers.  A difference and a remainder take the
first two operands only, and so does a sum that falls back to the texts of its operands.
-/

namespace Hydrogenuine.TaskGraph

open Support

def ArithmeticOp.key : ArithmeticOp → String
  | .add => "+"
  | .sub => "-"
  | .mul => "*"
  | .mod => "%"

theorem parse_key (op : ArithmeticOp) : Operator.parse op.key = some (.arithmetic op) := by
  cases op <;> rfl

section

variable (env : Interpreter) (mode : EvalMode) (ctx : ExprContext)

def foldOperands (op : ArithmeticOp) : List Datum → EvalM Datum
  | a :: rest => rest.foldlM (fun acc v => applyArithmetic env op [acc, v]) a
  | [] => throw .typeError

/-- A value other than `None` is that of the left fold over the values of the operands. -/
def Folded (op : ArithmeticOp) (args : List PyVal) (s : EvalState) : Prop :=
  ∀ vals u v t, evaluateAll env mode ctx (.arithmetic op) args s = .ok vals u →
    evaluate env mode ctx (.dict [(op.key, .list args)]) s = .ok v t → v ≠ .none →
      ∃ t', foldOperands env op vals u = .ok v t'

def total (numbers : List Number) : Except ExprError Number :=
  match integers? numbers with
  | some ints => .ok (.int ints.sum)
  | none => (env.sum numbers).map .float

/-- `sum` adds one number after the other. -/
def SumsInTurn : Prop :=
  ∀ numbers x, 2 ≤ numbers.length →
    total env (numbers ++ [x]) = (total env numbers).bind fun y => total env [y, x]

/-- The numbers that values are, `none` if some value is no number. -/
def numbersOf (vals : List Datum) : Option (List Number) := vals.mapM numberOf

/-- The operator takes all operands: there are two of them, or it is a product, or a sum
of integers, or a sum of numbers where `sum` adds one after the other. -/
def TakesAll (op : ArithmeticOp) (vals : List Datum) : Prop :=
  vals.length = 2 ∨ op = .mul ∨
    op = .add ∧ ∃ numbers, numbersOf vals = some numbers ∧
      ((integers? numbers).isSome = true ∨ SumsInTurn env)

end

def Number.datum : Number → Datum
  | .int n => .int n
  | .float x => .float x

section

variable {env : Interpreter} {mode : EvalMode} {ctx : ExprContext}

/-! ## Sums -/

theorem numberOf_datum (x : Number) : numberOf x.datum = some x := by
  cases x <;> rfl

theorem sumNumbers_eq_total (numbers : List Number) :
    sumNumbers env numbers = (total env numbers).map Number.datum := by
  unfold sumNumbers total
  cases integers? numbers with
  | some ints => rfl
  | none =>
      cases env.sum numbers with
      | ok x => rfl
      | error err => rfl

variable {vals : List Datum} {numbers : List Number} {op : ArithmeticOp}

theorem map_numberOf
    (hvals : numbersOf vals = some numbers) : vals.map numberOf = numbers.map some := by
  have hall := mapM_eq_some_iff.mp hvals
  clear hvals
  induction hall with
  | nil => rfl
  | cons hfirst _ ih => rw [List.map_cons, List.map_cons, hfirst, ih]

theorem takeWhile_map_some (numbers : List Number) :
    (numbers.map some).takeWhile Option.isSome = numbers.map some := by
  induction numbers with
  | nil => rfl
  | cons x rest ih => rw [List.map_cons, List.takeWhile_cons_of_pos rfl, ih]

theorem reduceOption_map_some (numbers : List Number) :
    (numbers.map some).reduceOption = numbers := by
  induction numbers with
  | nil => rfl
  | cons x rest ih => rw [List.map_cons, List.reduceOption_cons_of_some, ih]

theorem add_numbers
    (hvals : numbersOf vals = some numbers) (hlength : 2 ≤ vals.length) :
    add env vals = raising (sumNumbers env numbers) := by
  have hmap := map_numberOf hvals
  have hcount : (numbers.map some).length = vals.length := by
    rw [← hmap, List.length_map]
  unfold add
  split
  · exact absurd hlength (Nat.not_le.mpr Nat.one_lt_two)
  · dsimp only
    rw [hmap, takeWhile_map_some, reduceOption_map_some]
    exact (bind_congr fun _ => if_pos hcount).trans (bind_pure _)

theorem integers?_append {x : Number} {ints : List ℤ}
    (h : integers? (numbers ++ [x]) = some ints) :
    ∃ init n, integers? numbers = some init ∧ x = .int n ∧ ints = init ++ [n] := by
  unfold integers? at h ⊢
  rw [List.mapM_append] at h
  obtain ⟨init, hinit, h⟩ := Option.bind_eq_some_iff.mp h
  obtain ⟨last, hlast, hints⟩ := Option.bind_eq_some_iff.mp h
  obtain rfl := Option.some.inj hints
  cases x with
  | int n =>
      obtain rfl : [n] = last := Option.some.inj hlast
      exact ⟨init, n, hinit, rfl, rfl⟩
  | float x => cases hlast

theorem total_append_of_integers {x : Number}
    (h : (integers? (numbers ++ [x])).isSome = true) :
    total env (numbers ++ [x]) = (total env numbers).bind fun y => total env [y, x] := by
  obtain ⟨ints, hints⟩ := Option.isSome_iff_exists.mp h
  obtain ⟨init, n, hinit, rfl, rfl⟩ := integers?_append hints
  have hsum : (init ++ [n]).sum = [init.sum, n].sum := by
    rw [List.sum_append, List.sum_pair, List.sum_singleton]
  rw [total, total, hints, hinit]
  exact congrArg (fun m => Except.ok (Number.int m)) hsum

theorem numbersOf_append {init : List Datum} {v : Datum}
    (h : numbersOf (init ++ [v]) = some numbers) :
    ∃ before x, numbersOf init = some before ∧ numberOf v = some x ∧
      numbers = before ++ [x] := by
  unfold numbersOf at h ⊢
  rw [List.mapM_append] at h
  obtain ⟨before, hbefore, h⟩ := Option.bind_eq_some_iff.mp h
  obtain ⟨last, hlast, hnumbers⟩ := Option.bind_eq_some_iff.mp h
  obtain rfl := Option.some.inj hnumbers
  obtain ⟨x, hx, rfl⟩ : ∃ x, numberOf v = some x ∧ last = [x] := by
    rcases mapM_eq_some_iff.mp hlast with _ | ⟨hx, hrest⟩
    cases hrest
    exact ⟨_, hx, rfl⟩
  exact ⟨before, x, hbefore, hx, rfl⟩

theorem foldOperands_append (op : ArithmeticOp) {init : List Datum} (hinit : init ≠ [])
    (v : Datum) :
    foldOperands env op (init ++ [v]) =
      foldOperands env op init >>= fun acc => applyArithmetic env op [acc, v] := by
  rcases init with _ | ⟨a, rest⟩
  · exact absurd rfl hinit
  · rw [List.cons_append, foldOperands, foldOperands, List.foldlM_append]
    simp only [List.foldlM_cons, List.foldlM_nil, bind_pure]

theorem foldOperands_pair (op : ArithmeticOp) (a b : Datum) :
    foldOperands env op [a, b] = applyArithmetic env op [a, b] := by
  rw [foldOperands, List.foldlM_cons]
  exact bind_pure _

theorem foldOperands_add
    (hvals : numbersOf vals = some numbers) (hlength : 2 ≤ vals.length)
    (hturn : (integers? numbers).isSome = true ∨ SumsInTurn env) :
    foldOperands env .add vals = raising (sumNumbers env numbers) := by
  induction vals using List.reverseRecOn generalizing numbers with
  | nil => exact absurd hlength (by decide)
  | append_singleton init v ih =>
      obtain ⟨before, x, hbefore, hx, rfl⟩ := numbersOf_append hvals
      have hstep (acc : Datum) (y : Number) (hacc : numberOf acc = some y) :
          applyArithmetic env .add [acc, v] = raising (sumNumbers env [y, x]) :=
        add_numbers (mapM_eq_some_iff.mpr (.cons hacc (.cons hx .nil))) (Nat.le_refl 2)
      have hforall := mapM_eq_some_iff.mp hbefore
      rcases init with _ | ⟨a, _ | ⟨b, rest⟩⟩
      · exact absurd hlength (Nat.not_le.mpr Nat.one_lt_two)
      · obtain ⟨y, ys, hy, hrest, rfl⟩ := List.forall₂_cons_left_iff.mp hforall
        obtain rfl := List.forall₂_nil_left_iff.mp hrest
        exact (foldOperands_pair .add a v).trans (hstep a y hy)
      · have htwo : 2 ≤ (a :: b :: rest).length := Nat.le_add_left 2 rest.length
        have hearlier : (integers? before).isSome = true ∨ SumsInTurn env := by
          refine hturn.imp_left fun hints => ?_
          obtain ⟨ints, hints⟩ := Option.isSome_iff_exists.mp hints
          obtain ⟨earlier, n, hearlier, -⟩ := integers?_append hints
          rw [hearlier]
          rfl
        have hnext : total env (before ++ [x]) =
            (total env before).bind fun y => total env [y, x] := by
          rcases hturn with hints | hsums
          · exact total_append_of_integers hints
          · exact hsums before x (hforall.length_eq ▸ htwo)
        rw [foldOperands_append .add (List.cons_ne_nil a _), ih hbefore htwo hearlier]
        funext s
        rw [raising_bind_apply, sumNumbers_eq_total, sumNumbers_eq_total, hnext]
        cases total env before with
        | error err => rfl
        | ok y =>
            have hlast := hstep y.datum y (numberOf_datum y)
            rw [sumNumbers_eq_total] at hlast
            exact congrFun hlast s

/-! ## All operands -/

theorem foldOperands_of_takesAll
    (htakes : TakesAll env op vals) (hlength : 2 ≤ vals.length) :
    foldOperands env op vals = applyArithmetic env op vals := by
  rcases htakes with htwo | rfl | ⟨rfl, numbers, hvals, hturn⟩
  · obtain ⟨a, b, rfl⟩ := List.length_eq_two.mp htwo
    exact foldOperands_pair op a b
  · rcases vals with _ | ⟨a, rest⟩
    · exact absurd hlength (by decide)
    · have hpair (acc v : Datum) :
          applyArithmetic env .mul [acc, v] = mulAssign env acc v := by
        rw [applyArithmetic, List.foldlM_cons]
        exact bind_pure _
      rw [foldOperands, applyArithmetic]
      simp only [hpair]
  · rw [foldOperands_add hvals hlength hturn]
    exact (add_numbers hvals hlength).symm

theorem evaluateAll_length {args : List PyVal} {s u : EvalState}
    (h : evaluateAll env mode ctx (.arithmetic op) args s = .ok vals u) :
    vals.length = args.length := by
  induction args generalizing s u vals with
  | nil =>
      rw [evaluateAll_nil] at h
      cases h
      rfl
  | cons a rest ih =>
      cases heval : evaluate env mode ctx a s with
      | error err t =>
          rw [evaluateAll_cons_of_error heval] at h
          cases h
      | ok d t =>
          rw [evaluateAll_cons_of_pass heval rfl] at h
          cases hothers : evaluateAll env mode ctx (.arithmetic op) rest t with
          | error err w =>
              rw [hothers] at h
              cases h
          | ok ds w =>
              rw [hothers] at h
              obtain ⟨rfl, -⟩ := EStateM.Result.ok.inj h
              rw [List.length_cons, List.length_cons, ih hothers]

theorem checkArguments_pair (op : ArithmeticOp) (key : String) (a b : PyVal)
    (rest : List PyVal) :
    (Operator.arithmetic op).checkArguments key (.list (a :: b :: rest)) = .ok () := by
  cases op <;> rfl

theorem evaluate_arithmetic {a b : PyVal} {rest : List PyVal}
    {s u : EvalState}
    (h : evaluateAll env mode ctx (.arithmetic op) (a :: b :: rest) s = .ok vals u) :
    evaluate env mode ctx (.dict [(op.key, .list (a :: b :: rest))]) s =
      arithmetic env mode op.key op vals u := by
  rw [evaluate_operator_apply _ (parse_key op), checkArguments_pair]
  dsimp only [Operator.operands, argumentList]
  rw [h]
  rfl

theorem arithmetic_eq_ok {key : String}
    {u t : EvalState} {v : Datum} (h : arithmetic env mode key op vals u = .ok v t)
    (hv : v ≠ .none) : applyArithmetic env op vals u = .ok v t := by
  unfold arithmetic at h
  split_ifs at h with hnull hstrict
  · cases h
  · exact absurd (EStateM.Result.ok.inj h).1.symm hv
  · exact h

theorem arithmetic_of_ne_none {key : String}
    (hvals : ∀ d ∈ vals, d ≠ .none) :
    arithmetic env mode key op vals = applyArithmetic env op vals := by
  have hnull : ¬ vals.any Datum.isNone = true := by
    intro hany
    obtain ⟨d, hd, hnone⟩ := List.any_eq_true.mp hany
    cases d with
    | none => exact hvals _ hd rfl
    | _ => cases hnone
  rw [arithmetic, if_neg hnull]

theorem folded_of_takesAll {a b : PyVal} {rest : List PyVal}
    {s : EvalState}
    (htakes : ∀ vals u, evaluateAll env mode ctx (.arithmetic op) (a :: b :: rest) s =
      .ok vals u → TakesAll env op vals) :
    Folded env mode ctx op (a :: b :: rest) s := by
  intro vals u v t hvals hvalue hv
  rw [evaluate_arithmetic hvals] at hvalue
  have hlength : 2 ≤ vals.length := by
    rw [evaluateAll_length hvals]
    exact Nat.le_add_left 2 rest.length
  rw [foldOperands_of_takesAll (htakes vals u hvals) hlength]
  exact ⟨t, arithmetic_eq_ok hvalue hv⟩

/-! ## Dropped operands -/

section

variable {α : Type} {literal : α → PyVal} {value : α → Datum} {s : EvalState}

theorem evaluateAll_literals
    (hliteral : ∀ x, evaluate env mode ctx (literal x) = pure (value x))
    (op : ArithmeticOp) (xs : List α) :
    evaluateAll env mode ctx (.arithmetic op) (xs.map literal) s =
      .ok (xs.map value) s := by
  induction xs with
  | nil => rfl
  | cons x rest ih =>
      have heval : evaluate env mode ctx (literal x) s = .ok (value x) s := by
        rw [hliteral]
        rfl
      rw [List.map_cons, evaluateAll_cons_of_pass heval rfl, ih]
      rfl

theorem foldOperands_literals {op : ArithmeticOp} {f : α → α → α} {x : α} {ys : List α}
    (hstep : ∀ x, ∀ y ∈ ys,
      applyArithmetic env op [value x, value y] s = .ok (value (f x y)) s) :
    foldOperands env op ((x :: ys).map value) s = .ok (value (ys.foldl f x)) s := by
  rw [List.map_cons, foldOperands]
  induction ys generalizing x with
  | nil => rfl
  | cons y rest ih =>
      rw [List.map_cons, List.foldlM_cons, bind_apply, hstep x y List.mem_cons_self]
      exact ih fun x z hz => hstep x z (List.mem_cons_of_mem y hz)

/-- An operator that concludes from the first two of some literals folds these only if
the fold adds nothing to the first two. -/
theorem Folded.literals {op : ArithmeticOp} {f : α → α → α} {x y : α} {rest : List α}
    (hfolded : Folded env mode ctx op ((x :: y :: rest).map literal) s)
    (hliteral : ∀ x, evaluate env mode ctx (literal x) = pure (value x))
    (hvalue : ∀ x y, value x = value y → x = y) (hnone : ∀ x, value x ≠ .none)
    (hstep : ∀ x, ∀ z ∈ y :: rest,
      applyArithmetic env op [value x, value z] s = .ok (value (f x z)) s)
    (hfirst : applyArithmetic env op ((x :: y :: rest).map value) s =
      .ok (value (f x y)) s) : rest.foldl f (f x y) = f x y := by
  have hvals :=
    @evaluateAll_literals env mode ctx α literal value s hliteral op (x :: y :: rest)
  have hne : ∀ d ∈ (x :: y :: rest).map value, d ≠ .none := by
    intro d hd
    obtain ⟨z, -, rfl⟩ := List.mem_map.mp hd
    exact hnone z
  have heval := evaluate_arithmetic hvals
  rw [arithmetic_of_ne_none hne, hfirst] at heval
  obtain ⟨t, ht⟩ := hfolded _ s _ s hvals heval (hnone _)
  rw [foldOperands_literals hstep] at ht
  exact hvalue _ _ (EStateM.Result.ok.inj ht).1

end

/-! ### Integers and texts -/

theorem applyArithmetic_sub (a b : ℤ) (rest : List Datum) (s : EvalState) :
    applyArithmetic env .sub (.int a :: .int b :: rest) s = .ok (.int (a - b)) s := rfl

theorem applyArithmetic_mod (a : ℤ) {b : ℤ} (hb : b ≠ 0) (rest : List Datum)
    (s : EvalState) :
    applyArithmetic env .mod (.int a :: .int b :: rest) s =
      .ok (.int (a.fmod b)) s := by
  change raising (onNumbers intMod env.mod (.int a) (.int b)) s = _
  rw [onNumbers, intMod, if_neg hb]
  rfl

theorem value_str (h : Heap) (text : String) : h.value (.str text) = some (.str text) := by
  unfold Heap.value
  cases h.length <;> rfl

theorem strOf_str (text : String) (s : EvalState) :
    strOf env (.str text) s = .ok text s := by
  rw [strOf, readValue, bind_assoc, readHeap_bind_apply, value_str]
  exact congrArg (fun x => EStateM.Result.ok x s) (by simp [Interpreter.str, PyVal.render])

theorem applyArithmetic_add_texts (a b : String) (rest : List Datum) (s : EvalState) :
    applyArithmetic env .add (.str a :: .str b :: rest) s = .ok (.str (a ++ b)) s := by
  have hnumbers : ((Datum.str a :: .str b :: rest).map numberOf).takeWhile Option.isSome =
      [] := rfl
  have hlength : ¬ ([] : List (Option Number)).length =
      (Datum.str a :: .str b :: rest).length := nofun
  rw [applyArithmetic, add]
  · dsimp only
    rw [hnumbers, raising_bind_apply]
    change (if ([] : List (Option Number)).length = (Datum.str a :: .str b :: rest).length
      then _ else _ : EvalM Datum) s = _
    rw [if_neg hlength, bind_apply, strOf_str]
    dsimp only
    rw [bind_apply, strOf_str]
    rfl
  · exact nofun

theorem foldl_sub_ones (n : ℕ) (m : ℤ) :
    (List.replicate n (1 : ℤ)).foldl (· - ·) m = m - n := by
  induction n generalizing m with
  | zero => exact (Int.sub_zero m).symm
  | succ n ih =>
      rw [List.replicate_succ, List.foldl_cons, ih]
      omega

theorem foldl_mod_ones (n : ℕ) (m : ℤ) :
    (List.replicate (n + 1) (1 : ℤ)).foldl Int.fmod m = 0 := by
  induction n generalizing m with
  | zero => exact Int.fmod_one m
  | succ n ih => rw [List.replicate_succ, List.foldl_cons, ih]

theorem length_foldl_append (texts : List String) (text : String) :
    (texts.foldl (· ++ ·) text).length = text.length + (texts.map String.length).sum := by
  induction texts generalizing text with
  | nil => rfl
  | cons x rest ih =>
      rw [List.foldl_cons, ih, String.length_append, List.map_cons, List.sum_cons,
        Nat.add_assoc]

theorem integers?_ints (ints : List ℤ) :
    integers? (ints.map Number.int) = some ints := by
  unfold integers?
  refine mapM_eq_some_iff.mpr ?_
  induction ints with
  | nil => exact .nil
  | cons n rest ih => exact .cons rfl ih

theorem numbersOf_ints (ints : List ℤ) :
    numbersOf (ints.map .int) = some (ints.map .int) := by
  refine mapM_eq_some_iff.mpr ?_
  induction ints with
  | nil => exact .nil
  | cons n rest ih => exact .cons rfl ih

theorem evaluate_int (n : ℤ) : evaluate env mode ctx (.int n) = pure (.int n) := by
  rw [evaluate]

theorem evaluate_str (text : String) :
    evaluate env mode ctx (.str text) = pure (.str text) := by
  rw [evaluate]

theorem folded_integers_iff (op : ArithmeticOp) (n : ℕ) :
    (∀ (ints : List ℤ) s, ints.length = n + 2 →
        Folded env mode ctx op (ints.map .int) s) ↔ n = 0 ∨ op = .mul ∨ op = .add := by
  constructor
  · intro hfolded
    by_contra hother
    obtain ⟨hn, hmul, hadd⟩ : n ≠ 0 ∧ op ≠ .mul ∧ op ≠ .add := by
      simpa only [not_or] using hother
    obtain ⟨m, rfl⟩ := Nat.exists_eq_succ_of_ne_zero hn
    have hinj (x y : ℤ) (h : Datum.int x = .int y) : x = y := Datum.int.inj h
    have hones := List.length_replicate (n := m + 1) (a := (1 : ℤ))
    cases op with
    | add => exact hadd rfl
    | mul => exact hmul rfl
    | sub =>
        have hlist := hfolded (0 :: 0 :: List.replicate (m + 1) 1) { heap := [] }
          (by rw [List.length_cons, List.length_cons, hones])
        have hdrop := hlist.literals evaluate_int hinj (fun _ => nofun)
          (fun x z _ => applyArithmetic_sub x z [] _) (applyArithmetic_sub 0 0 _ _)
        rw [foldl_sub_ones] at hdrop
        omega
    | mod =>
        have hlist := hfolded (3 :: 2 :: List.replicate (m + 1) 1) { heap := [] }
          (by rw [List.length_cons, List.length_cons, hones])
        have hdivisors : ∀ z ∈ (2 : ℤ) :: List.replicate (m + 1) 1, z ≠ 0 := by
          intro z hz
          rcases List.mem_cons.mp hz with rfl | hone
          · decide
          · rw [List.eq_of_mem_replicate hone]
            decide
        have hdrop := hlist.literals evaluate_int hinj (fun _ => nofun)
          (fun x z hz => applyArithmetic_mod x (hdivisors z hz) [] _)
          (applyArithmetic_mod 3 (by decide) _ _)
        rw [foldl_mod_ones] at hdrop
        exact absurd hdrop (by decide)
  · intro htakes ints s hlength
    rcases ints with _ | ⟨a, _ | ⟨b, rest⟩⟩
    · cases hlength
    · cases hlength
    · refine folded_of_takesAll fun vals u hvals => ?_
      have hints := @evaluateAll_literals env mode ctx ℤ .int .int s evaluate_int op
        (a :: b :: rest)
      obtain ⟨rfl, rfl⟩ := EStateM.Result.ok.inj (hints.symm.trans hvals)
      rcases htakes with rfl | rfl | rfl
      · exact Or.inl (by rw [List.length_map, hlength])
      · exact Or.inr (Or.inl rfl)
      · exact Or.inr (Or.inr ⟨rfl, _, numbersOf_ints _,
          Or.inl (by rw [integers?_ints]; rfl)⟩)

theorem folded_texts_iff (n : ℕ) :
    (∀ (texts : List String) s, texts.length = n + 2 →
        Folded env mode ctx .add (texts.map .str) s) ↔ n = 0 := by
  constructor
  · intro hfolded
    have hlist := hfolded ("a" :: "a" :: List.replicate n "a") { heap := [] }
      (by rw [List.length_cons, List.length_cons, List.length_replicate])
    have hdrop := hlist.literals evaluate_str (fun _ _ h => Datum.str.inj h)
      (fun _ => nofun) (fun x z _ => applyArithmetic_add_texts x z [] _)
      (applyArithmetic_add_texts "a" "a" _ _)
    have hlengths := congrArg String.length hdrop
    have hone : "a".length = 1 := rfl
    rw [length_foldl_append, List.map_replicate, List.sum_replicate_nat, hone,
      Nat.mul_one] at hlengths
    omega
  · rintro rfl texts s hlength
    obtain ⟨a, b, rfl⟩ := List.length_eq_two.mp hlength
    refine folded_of_takesAll fun vals u hvals => Or.inl ?_
    rw [evaluateAll_length hvals]
    rfl

/-- The arithmetic operators are left folds where they take all operands; on integers
these are sums, products and operators on two, on texts sums of two only. -/
theorem arithmetic_folds_iff (env : Interpreter) (mode : EvalMode) (ctx : ExprContext)
    (op : ArithmeticOp) :
    (∀ (a b : PyVal) rest s,
      (∀ vals u, evaluateAll env mode ctx (.arithmetic op) (a :: b :: rest) s =
        .ok vals u → TakesAll env op vals) →
          Folded env mode ctx op (a :: b :: rest) s) ∧
    (∀ n, (∀ (ints : List ℤ) s, ints.length = n + 2 →
        Folded env mode ctx op (ints.map .int) s) ↔ n = 0 ∨ op = .mul ∨ op = .add) ∧
    (∀ n, (∀ (texts : List String) s, texts.length = n + 2 →
        Folded env mode ctx .add (texts.map .str) s) ↔ n = 0) :=
  ⟨fun _ _ _ _ htakes => folded_of_takesAll htakes, folded_integers_iff op,
    folded_texts_iff⟩

/-- A difference of three operands drops the third. -/
theorem arithmetic_not_folds :
    ¬ ∀ (env : Interpreter) (mode : EvalMode) (ctx : ExprContext) (op : ArithmeticOp)
      (a b : PyVal) (rest : List PyVal) (s : EvalState),
        Folded env mode ctx op (a :: b :: rest) s := by
  intro hclaim
  obtain ⟨t, ht⟩ := hclaim .noFloats { strict := true } {} .sub (.int 10) (.int 3) [.int 2]
    { heap := [] } [.int 10, .int 3, .int 2] { heap := [] } (.int 7) { heap := [] } rfl rfl
    nofun
  have hfold : foldOperands .noFloats .sub [.int 10, .int 3, .int 2] { heap := [] } =
      .ok (.int 5) { heap := [] } := rfl
  rw [hfold] at ht
  cases ht

end

end Hydrogenuine.TaskGraph
