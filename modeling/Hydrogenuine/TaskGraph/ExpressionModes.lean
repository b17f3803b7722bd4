import Hydrogenuine.TaskGraph.Evaluation

/-!
# Strict and lenient evaluation

A strict evaluation that succeeds goes the same way in lenient mode, with one exception:
the default of a variable reference is taken in strict mode only.  The two modes agree
on an expression and on all that is evaluated in its course exactly if no default is
taken.
-/

namespace Hydrogenuine.TaskGraph

open Support

/-- `evaluate(expression, context, strict=True)`. -/
def EvalMode.isStrict : EvalMode := { strict := true }

/-- `evaluate(expression, context, strict=False)`. -/
def EvalMode.isLenient : EvalMode := { strict := false }

section

variable {env : Interpreter} {mode : EvalMode} {ctx : ExprContext} {spec : PyVal}
  {s : EvalState}

/-! ## Variables -/

theorem variableRef_lenient
    (h : resolveVar s.heap ctx (variablePath env spec) = .ok none) :
    variableRef env .isLenient ctx spec s = .ok .none s := by
  rw [variableRef, readHeap_bind_apply, raising_bind_apply, h]
  rfl

theorem variableRef_strict_of_none
    (h : resolveVar s.heap ctx (variablePath env spec) = .ok none)
    (hdefault : variableDefault spec = .none) :
    ∃ err, variableRef env .isStrict ctx spec s = .error err s := by
  refine ⟨.valueError ("Missing variable path: " ++ env.str (variablePath env spec)), ?_⟩
  rw [variableRef, readHeap_bind_apply, raising_bind_apply, h, hdefault]
  rfl

theorem variableRef_strict_of_default
    (h : resolveVar s.heap ctx (variablePath env spec) = .ok none)
    (hdefault : variableDefault spec ≠ .none) :
    variableRef env .isStrict ctx spec s =
      .ok (Heap.alloc (variableDefault spec) s.heap).2
        { s with heap := (Heap.alloc (variableDefault spec) s.heap).1 } := by
  rw [variableRef, readHeap_bind_apply, raising_bind_apply, h]
  cases hvalue : variableDefault spec with
  | none => exact absurd hvalue hdefault
  | _ => rfl

theorem alloc_ne_none {v : PyVal} (hv : v ≠ .none) (h : Heap) :
    (Heap.alloc v h).2 ≠ .none := by
  cases v with
  | none => exact absurd rfl hv
  | _ => exact nofun

/-! ## Conclusions -/

variable {t : EvalState} {key : String} {v : Datum}

theorem compare_lenient_of_strict {op : Comparison} {a b : Datum} (h : compare .isStrict key op a b s = .ok v t) :
    compare .isLenient key op a b s = .ok v t := by
  unfold compare at h ⊢
  by_cases hnull : (a.isNone || b.isNone) = true
  · rw [hnull] at h
    cases h
  · rw [Bool.eq_false_iff.mpr hnull] at h ⊢
    exact h

theorem arithmetic_lenient_of_strict {op : ArithmeticOp}
    {vals : List Datum}
    (h : arithmetic env .isStrict key op vals s = .ok v t) :
    arithmetic env .isLenient key op vals s = .ok v t := by
  unfold arithmetic at h ⊢
  by_cases hnull : vals.any Datum.isNone = true
  · rw [if_pos hnull] at h
    cases h
  · rw [if_neg hnull] at h ⊢
    exact h

theorem conclude_lenient_of_strict {op : Operator} {vals : List Datum} (h : conclude env .isStrict key op vals s = .ok v t) :
    conclude env .isLenient key op vals s = .ok v t := by
  cases op with
  | compare op =>
      rcases vals with _ | ⟨a, _ | ⟨b, rest⟩⟩
      · exact h
      · exact h
      · exact compare_lenient_of_strict h
  | arithmetic op => exact arithmetic_lenient_of_strict h
  | not => rcases vals with _ | ⟨a, rest⟩ <;> exact h
  | and => exact h
  | or => exact h

end

/-! ## Agreement -/

section

variable (env : Interpreter) (ctx : ExprContext)

/-- A value of the strict mode is the value of the lenient mode. -/
def ModesAgree (e : PyVal) (s : EvalState) : Prop :=
  ∀ v t, evaluate env .isStrict ctx e s = .ok v t →
    evaluate env .isLenient ctx e s = .ok v t

/-- No variable that is missing where a strict evaluation comes to it has a default. -/
def NoDefaultTaken (e : PyVal) (s : EvalState) : Prop :=
  ∀ spec t, Reaches env .isStrict ctx e s (.dict [("var", spec)]) t →
    resolveVar t.heap ctx (variablePath env spec) = .ok none →
      variableDefault spec = .none

variable {env ctx}

theorem evaluateAll_lenient_of_strict {op : Operator} {operands : List PyVal}
    {s t : EvalState} {vals : List Datum}
    (hoperand : ∀ earlier a later u, operands = earlier ++ a :: later →
      Passes env .isStrict ctx op earlier s u → ModesAgree env ctx a u)
    (h : evaluateAll env .isStrict ctx op operands s = .ok vals t) :
    evaluateAll env .isLenient ctx op operands s = .ok vals t := by
  induction operands generalizing s t vals with
  | nil =>
      rw [evaluateAll_nil] at h ⊢
      exact h
  | cons operand rest ih =>
      have hfirst := hoperand [] operand rest s rfl (.nil s)
      cases heval : evaluate env .isStrict ctx operand s with
      | error err u =>
          rw [evaluateAll_cons_of_error heval] at h
          cases h
      | ok d u =>
          have hlenient := hfirst d u heval
          by_cases hgoes : op.goesOn u.heap d = true
          · rw [evaluateAll_cons_of_pass heval hgoes] at h
            rw [evaluateAll_cons_of_pass hlenient hgoes]
            cases hothers : evaluateAll env .isStrict ctx op rest u with
            | error err w =>
                rw [hothers] at h
                cases h
            | ok ds w =>
                rw [hothers] at h
                have hrest := ih (fun earlier a later w heq hpasses =>
                  hoperand (operand :: earlier) a later w
                    (by rw [heq, List.cons_append]) (.cons heval hgoes hpasses)) hothers
                rw [hrest]
                exact h
          · rw [evaluateAll_cons_of_stop heval hgoes] at h
            rw [evaluateAll_cons_of_stop hlenient hgoes]
            exact h

/-- Where no default is taken, the value of the strict mode is that of the lenient
mode. -/
theorem modesAgree_of_noDefaultTaken (e : PyVal) {s : EvalState}
    (hdefault : NoDefaultTaken env ctx e s) : ModesAgree env ctx e s := by
  induction e using expression_induction generalizing s with
  | step e ih =>
      intro v t h
      rcases @evaluate_forms env ctx e with
        ⟨d, -, hd⟩ | ⟨spec, rfl⟩ | ⟨key, args, op, rfl, hop⟩ | ⟨err, herr⟩
      · rw [hd] at h ⊢
        exact h
      · rw [evaluate_var] at h ⊢
        cases hresolve : resolveVar s.heap ctx (variablePath env spec) with
        | error err =>
            rw [variableRef_of_error hresolve] at h
            cases h
        | ok found =>
            cases found with
            | some d =>
                rw [variableRef_of_some hresolve] at h ⊢
                exact h
            | none =>
                obtain ⟨err, herr⟩ := variableRef_strict_of_none hresolve
                  (hdefault spec s (.here _ s) hresolve)
                rw [herr] at h
                cases h
      · rw [evaluate_operator_apply args hop] at h ⊢
        cases hcheck : op.checkArguments key args with
        | error err =>
            rw [hcheck] at h
            cases h
        | ok checked =>
            rw [hcheck] at h
            dsimp only at h ⊢
            cases hvals : evaluateAll env .isStrict ctx op (op.operands args) s with
            | error err u =>
                rw [hvals] at h
                cases h
            | ok vals u =>
                rw [hvals] at h
                have hlenient : evaluateAll env .isLenient ctx op (op.operands args) s =
                    .ok vals u := by
                  refine evaluateAll_lenient_of_strict
                    (fun earlier a later w heq hpasses => ?_) hvals
                  have ha : a ∈ op.operands args := by
                    rw [heq]
                    exact List.mem_append_right _ List.mem_cons_self
                  exact ih key args op rfl hop a ha fun spec x hreach =>
                    hdefault spec x (.operand hop hcheck heq hpasses hreach)
                rw [hlenient]
                exact conclude_lenient_of_strict h
      · rw [herr] at h
        cases h

theorem NoDefaultTaken.of_reaches {e e' : PyVal} {s t : EvalState}
    (hdefault : NoDefaultTaken env ctx e s)
    (hreach : Reaches env .isStrict ctx e s e' t) : NoDefaultTaken env ctx e' t :=
  fun spec u hvar hmissing => hdefault spec u (hreach.trans hvar) hmissing

theorem not_modesAgree_of_default {spec : PyVal} {s : EvalState}
    (hmissing : resolveVar s.heap ctx (variablePath env spec) = .ok none)
    (hdefault : variableDefault spec ≠ .none) :
    ¬ ModesAgree env ctx (.dict [("var", spec)]) s := by
  intro hagree
  have hstrict := variableRef_strict_of_default hmissing hdefault
  rw [← evaluate_var] at hstrict
  have hlenient := hagree _ _ hstrict
  rw [evaluate_var, variableRef_lenient hmissing] at hlenient
  have hvalue := (EStateM.Result.ok.inj hlenient).1
  exact alloc_ne_none hdefault s.heap hvalue.symm

/-- The two modes agree on an expression where no default is taken, and on all that is
evaluated in its course only then. -/
theorem strict_lenient_agree (env : Interpreter) (ctx : ExprContext) (e : PyVal)
    (s : EvalState) :
    (NoDefaultTaken env ctx e s → ModesAgree env ctx e s) ∧
      ((∀ e' t, Reaches env .isStrict ctx e s e' t → ModesAgree env ctx e' t) ↔
        NoDefaultTaken env ctx e s) := by
  refine ⟨modesAgree_of_noDefaultTaken e, fun hagree spec t hvar hmissing => ?_,
    fun hdefault e' t hreach =>
      modesAgree_of_noDefaultTaken e' (hdefault.of_reaches hreach)⟩
  by_contra hdefault
  exact not_modesAgree_of_default hmissing hdefault (hagree _ t hvar)

/-- A default for a missing variable makes the modes differ. -/
theorem strict_lenient_differ :
    ¬ ∀ (env : Interpreter) (ctx : ExprContext) (e : PyVal) (s : EvalState) v t,
      evaluate env .isStrict ctx e s = .ok v t →
        ∃ u, evaluate env .isLenient ctx e s = .ok v u := by
  intro hclaim
  obtain ⟨u, hu⟩ := hclaim .noFloats {} (.dict [("var", .list [.str "state.x", .int 1])])
    { heap := [] } (.int 1) { heap := [] } rfl
  have hnone : evaluate .noFloats .isLenient {}
      (.dict [("var", .list [.str "state.x", .int 1])]) { heap := [] } =
        .ok .none { heap := [] } := rfl
  rw [hnone] at hu
  cases hu

end

end Hydrogenuine.TaskGraph
