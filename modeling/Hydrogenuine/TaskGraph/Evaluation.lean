import Hydrogenuine.TaskGraph.Expression

/-!
# Rules of evaluation

What the evaluation of an expression calls, and in which states.  `Reaches` relates an
expression and a state to the evaluations that come about in its course; what these keep
of the state, the evaluation keeps (`evaluate_keeps`), and what one of them raises, the
evaluation raises.
-/

namespace Hydrogenuine.TaskGraph

open Support

section

variable (env : Interpreter) (mode : EvalMode) (ctx : ExprContext)

/-- The values of operands, up to the one that the operator stops at. -/
def evaluateAll (op : Operator) (operands : List PyVal) : EvalM (List Datum) :=
  evaluateEach env mode ctx op operands.length operands

variable {env mode ctx}

theorem readHeap_bind_apply {α : Type} (f : Heap → EvalM α) (s : EvalState) :
    (readHeap >>= f) s = f s.heap s := rfl

theorem evaluateAll_nil (op : Operator) :
    evaluateAll env mode ctx op [] = pure [] := by
  rw [evaluateAll, List.length_nil, evaluateEach]

theorem evaluateAll_cons (op : Operator) (operand : PyVal) (rest : List PyVal) :
    evaluateAll env mode ctx op (operand :: rest) = do
      let d ← evaluate env mode ctx operand
      if op.goesOn (← readHeap) d then
        return d :: (← evaluateAll env mode ctx op rest)
      else return [d] := by
  rw [evaluateAll, List.length_cons, evaluateEach]
  rfl

theorem evaluateAll_singleton (op : Operator) (operand : PyVal) :
    evaluateAll env mode ctx op [operand] = do
      return [← evaluate env mode ctx operand] := by
  rw [evaluateAll_cons, evaluateAll_nil]
  refine bind_congr fun d => ?_
  funext s
  rw [readHeap_bind_apply]
  by_cases hgoes : op.goesOn s.heap d = true
  · rw [if_pos hgoes, pure_bind]
  · rw [if_neg hgoes]

theorem evaluateEach_eq_take (op : Operator) (count : ℕ) (operands : List PyVal) :
    evaluateEach env mode ctx op count operands =
      evaluateAll env mode ctx op (operands.take count) := by
  induction count generalizing operands with
  | zero => rw [List.take_zero, evaluateAll_nil, evaluateEach]
  | succ count ih =>
      rcases operands with _ | ⟨operand, rest⟩
      · rw [List.take_nil, evaluateAll_nil, evaluateEach]
        exact nofun
      · rw [List.take_succ_cons, evaluateAll_cons, evaluateEach]
        simp only [ih]

theorem parse_var : Operator.parse "var" = none := rfl

theorem evaluate_list (items : List PyVal) :
    evaluate env mode ctx (.list items) = throw (unsupported env (.list items)) := by
  rw [evaluate]

variable {op : Operator}

theorem operands_eq_singleton {args : PyVal}
    (hargs : argumentList args = [args]) : op.operands args = [args] := by
  unfold Operator.operands
  rw [hargs]
  split
  · rfl
  · rfl
  · rfl

theorem operands_list (items : List PyVal) (hop : op ≠ .not) :
    items.take (op.operands (.list items)).length = op.operands (.list items) := by
  cases op with
  | not => exact absurd rfl hop
  | compare op =>
      rw [Operator.operands, argumentList, List.length_take, List.take_eq_take_iff]
      omega
  | _ => exact List.take_length

theorem evaluate_operator {key : String} (args : PyVal)
    (hop : Operator.parse key = some op) :
    evaluate env mode ctx (.dict [(key, args)]) =
      (raising (op.checkArguments key args) >>= fun _ =>
        evaluateAll env mode ctx op (op.operands args) >>=
          conclude env mode key op) := by
  have hkey : key ≠ "var" := by
    rintro rfl
    rw [parse_var] at hop
    cases hop
  rw [evaluate, if_neg hkey, hop]
  refine bind_congr fun _ => ?_
  have hsingle {args : PyVal} (hargs : argumentList args = [args]) :
      evaluate env mode ctx args >>= (fun d => conclude env mode key op [d]) =
        evaluateAll env mode ctx op (op.operands args) >>= conclude env mode key op := by
    rw [operands_eq_singleton hargs, evaluateAll_singleton, bind_assoc]
    rfl
  cases args with
  | list items =>
      dsimp only
      by_cases hnot : op = .not
      · rw [if_pos hnot, hnot, Operator.operands, evaluateAll_singleton, evaluate_list]
        rfl
      · rw [if_neg hnot, evaluateEach_eq_take, operands_list items hnot]
  | _ => exact hsingle rfl

/-! ## The forms of an expression -/

theorem evaluate_forms (e : PyVal) :
    (∃ d, (∀ a, d ≠ .ref a) ∧ ∀ mode, evaluate env mode ctx e = pure d) ∨
      (∃ spec, e = .dict [("var", spec)]) ∨
      (∃ key args op, e = .dict [(key, args)] ∧ Operator.parse key = some op) ∨
      ∃ err, ∀ mode, evaluate env mode ctx e = throw err := by
  rcases e with _ | b | n | x | s | items | items
  · exact Or.inl ⟨.none, fun _ => Datum.noConfusion, fun mode => by rw [evaluate]⟩
  · exact Or.inl ⟨.bool b, fun _ => Datum.noConfusion, fun mode => by rw [evaluate]⟩
  · exact Or.inl ⟨.int n, fun _ => Datum.noConfusion, fun mode => by rw [evaluate]⟩
  · exact Or.inl ⟨.float x, fun _ => Datum.noConfusion, fun mode => by rw [evaluate]⟩
  · exact Or.inl ⟨.str s, fun _ => Datum.noConfusion, fun mode => by rw [evaluate]⟩
  · exact Or.inr (Or.inr (Or.inr ⟨unsupported env (.list items),
      fun mode => evaluate_list items⟩))
  · rcases items with _ | ⟨⟨key, args⟩, _ | ⟨second, rest⟩⟩
    · refine Or.inr (Or.inr (Or.inr ⟨unsupported env (.dict []), fun mode => ?_⟩))
      rw [evaluate]
      exact nofun
    · by_cases hkey : key = "var"
      · exact Or.inr (Or.inl ⟨args, by rw [hkey]⟩)
      · cases hop : Operator.parse key with
        | some op => exact Or.inr (Or.inr (Or.inl ⟨key, args, op, rfl, hop⟩))
        | none =>
            refine Or.inr (Or.inr (Or.inr ⟨unsupported env (.dict [(key, args)]),
              fun mode => ?_⟩))
            rw [evaluate, if_neg hkey, hop]
    · refine Or.inr (Or.inr (Or.inr
        ⟨unsupported env (.dict ((key, args) :: second :: rest)), fun mode => ?_⟩))
      rw [evaluate]
      exact nofun

theorem evaluate_var (spec : PyVal) :
    evaluate env mode ctx (.dict [("var", spec)]) = variableRef env mode ctx spec := by
  rw [evaluate, if_pos rfl]

theorem variableRef_of_error {spec : PyVal} {s : EvalState} {err : ExprError}
    (h : resolveVar s.heap ctx (variablePath env spec) = .error err) :
    variableRef env mode ctx spec s = .error err s := by
  rw [variableRef, readHeap_bind_apply, raising_bind_apply, h]

theorem variableRef_of_some {spec : PyVal} {s : EvalState} {d : Datum}
    (h : resolveVar s.heap ctx (variablePath env spec) = .ok (some d)) :
    variableRef env mode ctx spec s = .ok d s := by
  rw [variableRef, readHeap_bind_apply, raising_bind_apply, h]
  rfl

theorem sizeOf_operand {args a : PyVal} (ha : a ∈ op.operands args) :
    sizeOf a ≤ sizeOf args := by
  have hargument : ∀ a ∈ argumentList args, sizeOf a ≤ sizeOf args := by
    intro a ha
    cases args with
    | list items =>
        have hsize : sizeOf a < sizeOf items := List.sizeOf_lt_of_mem ha
        rw [PyVal.list.sizeOf_spec]
        omega
    | _ =>
        rw [List.mem_singleton.mp ha]
  cases op with
  | not => rw [List.mem_singleton.mp ha]
  | compare op => exact hargument a (List.mem_of_mem_take ha)
  | _ => exact hargument a ha

theorem expression_induction {P : PyVal → Prop}
    (step : ∀ e, (∀ key args op, e = .dict [(key, args)] →
      Operator.parse key = some op → ∀ a ∈ op.operands args, P a) → P e) (e : PyVal) :
    P e := by
  induction hsize : sizeOf e using Nat.strong_induction_on generalizing e with
  | _ size ih =>
      refine step e fun key args op he _ a ha => ih (sizeOf a) ?_ a rfl
      have hle := sizeOf_operand ha
      rw [← hsize, he]
      simp only [PyVal.dict.sizeOf_spec, List.cons.sizeOf_spec, Prod.mk.sizeOf_spec]
      omega

end

/-! ## What is evaluated -/

section

variable (env : Interpreter) (mode : EvalMode) (ctx : ExprContext)

/-- Operands are evaluated one after the other, and the operator goes on after each. -/
inductive Passes (op : Operator) : List PyVal → EvalState → EvalState → Prop
  | nil (s : EvalState) : Passes op [] s s
  | cons {operand : PyVal} {rest : List PyVal} {s t u : EvalState} {d : Datum}
      (heval : evaluate env mode ctx operand s = .ok d t)
      (hgoes : op.goesOn t.heap d = true) (hrest : Passes op rest t u) :
      Passes op (operand :: rest) s u

/-- In the evaluation of the first expression in the first state, the second expression
is evaluated in the second state. -/
inductive Reaches : PyVal → EvalState → PyVal → EvalState → Prop
  | here (e : PyVal) (s : EvalState) : Reaches e s e s
  | operand {key : String} {args : PyVal} {op : Operator} {earlier later : List PyVal}
      {a e : PyVal} {s t u : EvalState} (hop : Operator.parse key = some op)
      (hcheck : op.checkArguments key args = .ok ())
      (hoperands : op.operands args = earlier ++ a :: later)
      (hpasses : Passes env mode ctx op earlier s t) (hreach : Reaches a t e u) :
      Reaches (.dict [(key, args)]) s e u

variable {env mode ctx}

theorem Reaches.trans {e e' e'' : PyVal} {s t u : EvalState}
    (hfirst : Reaches env mode ctx e s e' t) (hsecond : Reaches env mode ctx e' t e'' u) :
    Reaches env mode ctx e s e'' u := by
  induction hfirst with
  | here e s => exact hsecond
  | operand hop hcheck hoperands hpasses _ ih =>
      exact .operand hop hcheck hoperands hpasses (ih hsecond)

/-! ### Runs -/

variable {s t : EvalState} {err : ExprError} {op : Operator}

theorem finalState_eq_of_ok {α : Type} {m : EvalM α} {a : α}
    (h : m s = .ok a t) : finalState m s = t := by
  rw [finalState, h]

theorem finalState_eq_of_error {α : Type} {m : EvalM α} (h : m s = .error err t) : finalState m s = t := by
  rw [finalState, h]

theorem evaluateAll_cons_of_error {operand : PyVal} {rest : List PyVal}
    (h : evaluate env mode ctx operand s = .error err t) :
    evaluateAll env mode ctx op (operand :: rest) s = .error err t := by
  rw [evaluateAll_cons, bind_apply, h]

theorem evaluateAll_cons_of_stop {operand : PyVal} {rest : List PyVal} {d : Datum} (h : evaluate env mode ctx operand s = .ok d t)
    (hgoes : ¬ op.goesOn t.heap d = true) :
    evaluateAll env mode ctx op (operand :: rest) s = .ok [d] t := by
  rw [evaluateAll_cons, bind_apply, h]
  dsimp only
  rw [readHeap_bind_apply, if_neg hgoes]
  rfl

theorem evaluateAll_cons_of_pass {op : Operator} {operand : PyVal} {rest : List PyVal}
    {s t : EvalState} {d : Datum} (h : evaluate env mode ctx operand s = .ok d t)
    (hgoes : op.goesOn t.heap d = true) :
    evaluateAll env mode ctx op (operand :: rest) s =
      match evaluateAll env mode ctx op rest t with
      | .ok ds u => .ok (d :: ds) u
      | .error err u => .error err u := by
  rw [evaluateAll_cons, bind_apply, h]
  dsimp only
  rw [readHeap_bind_apply, if_pos hgoes, bind_apply]
  cases evaluateAll env mode ctx op rest t with
  | ok ds u => rfl
  | error err u => rfl

theorem evaluateAll_append {earlier : List PyVal}
    (hpasses : Passes env mode ctx op earlier s t) (later : List PyVal) :
    ∃ ds, evaluateAll env mode ctx op (earlier ++ later) s =
      match evaluateAll env mode ctx op later t with
      | .ok vals u => .ok (ds ++ vals) u
      | .error err u => .error err u := by
  induction hpasses with
  | nil s =>
      refine ⟨[], ?_⟩
      rw [List.nil_append]
      cases evaluateAll env mode ctx op later s with
      | ok vals u => rfl
      | error err u => rfl
  | @cons operand rest s t u d heval hgoes _ ih =>
      obtain ⟨ds, hds⟩ := ih
      refine ⟨d :: ds, ?_⟩
      rw [List.cons_append, evaluateAll_cons_of_pass heval hgoes, hds]
      cases evaluateAll env mode ctx op later u with
      | ok vals u => rfl
      | error err u => rfl

theorem evaluate_operator_apply {key : String} {op : Operator} (args : PyVal)
    (hop : Operator.parse key = some op) (s : EvalState) :
    evaluate env mode ctx (.dict [(key, args)]) s =
      match op.checkArguments key args with
      | .error err => .error err s
      | .ok _ =>
          match evaluateAll env mode ctx op (op.operands args) s with
          | .ok vals t => conclude env mode key op vals t
          | .error err t => .error err t := by
  rw [evaluate_operator args hop, raising_bind_apply]
  cases op.checkArguments key args with
  | ok _ =>
      dsimp only
      rw [bind_apply]
      cases evaluateAll env mode ctx op (op.operands args) s with
      | ok vals t => rfl
      | error err t => rfl
  | error err => rfl

theorem Reaches.error {e e' : PyVal} {s s' t : EvalState}
    (hreach : Reaches env mode ctx e s e' s')
    (h : evaluate env mode ctx e' s' = .error err t) :
    evaluate env mode ctx e s = .error err t := by
  induction hreach with
  | here e s => exact h
  | @operand key args op earlier later a e s t' u hop hcheck hoperands hpasses _ ih =>
      obtain ⟨ds, hds⟩ := evaluateAll_append hpasses (a :: later)
      rw [evaluate_operator_apply args hop, hcheck]
      dsimp only
      rw [hoperands, hds, evaluateAll_cons_of_error (ih h)]

/-! ### What evaluation keeps -/

section

variable {R : EvalState → EvalState → Prop} [Std.Refl R]

variable {s : EvalState}

theorem ends_readHeap_bind {α : Type} {f : Heap → EvalM α}
    {P : α → EvalState → Prop} {E : ExprError → EvalState → Prop}
    (h : Ends (f s.heap) s P E) : Ends (readHeap >>= f) s P E :=
  ends_bind (ends_bind (ends_get (ends_pure h)))

theorem along_sub (a b : Datum) : Along R (sub env a b) := by
  unfold sub
  split
  · exact along_raising _
  · exact along_throw _

theorem along_mulAssign
    (hset : ∀ s address items ds, s.heap.list? (.ref address) = some items →
      R s { s with heap := s.heap.set address (.list ds) })
    (hnew : ∀ s ds, R s { s with heap := s.heap ++ [.list ds] }) (a b : Datum) :
    Along R (mulAssign env a b) := by
  intro s
  have hpure (d : Datum) : Ends (pure d : EvalM Datum) s (fun _ t => R s t)
      (fun _ t => R s t) := ends_pure (Std.Refl.refl s)
  have hthrow : Ends (throw .typeError : EvalM Datum) s (fun _ t => R s t)
      (fun _ t => R s t) := ends_throw (Std.Refl.refl s)
  unfold mulAssign
  refine ends_readHeap_bind ?_
  split
  · split
    · exact hpure _
    · exact hthrow
  · split
    · next items n hitems _ =>
        exact ends_bind (ends_modify (ends_pure (hset s _ items _ hitems)))
    · exact hthrow
  · split
    · exact hpure _
    · exact hthrow
  · split
    · exact ends_bind (ends_modify (ends_pure (hnew s _)))
    · exact hthrow
  · split
    · exact (along_raising _) s
    · exact hthrow

variable [IsTrans EvalState R]

theorem along_readHeap : Along R readHeap :=
  along_bind along_get fun _ => along_pure _

theorem along_readValue (d : Datum) : Along R (readValue d) := by
  refine along_bind along_readHeap fun h => ?_
  split
  · exact along_pure _
  · exact along_throw _

theorem along_compare (key : String) (op : Comparison) (a b : Datum) :
    Along R (compare mode key op a b) := by
  unfold compare
  split_ifs
  · exact along_throw _
  · exact along_pure _
  · refine along_bind (along_readValue a) fun x => along_bind (along_readValue b) fun y => ?_
    split
    · exact along_pure _
    · exact along_throw _

theorem along_strOf (d : Datum) : Along R (strOf env d) :=
  along_bind (along_readValue d) fun _ => along_pure _

theorem along_add (vals : List Datum) : Along R (add env vals) := by
  unfold add
  split
  · exact along_pure _
  · refine along_bind (along_raising _) fun total => ?_
    split_ifs
    · exact along_pure _
    · split
      · exact along_bind (along_strOf _) fun x => along_bind (along_strOf _) fun y =>
          along_pure _
      · exact along_pure _

theorem along_mod (a b : Datum) : Along R (mod env a b) := by
  unfold mod
  split
  · exact along_bind (along_readValue _) fun _ => along_bind (along_raising _) fun _ =>
      along_pure _
  · split
    · exact along_raising _
    · exact along_throw _

theorem along_conclude
    (hset : ∀ s address items ds, s.heap.list? (.ref address) = some items →
      R s { s with heap := s.heap.set address (.list ds) })
    (hnew : ∀ s ds, R s { s with heap := s.heap ++ [.list ds] }) (key : String)
    (op : Operator) (vals : List Datum) : Along R (conclude env mode key op vals) := by
  have hproduct (a : Datum) (rest : List Datum) :
      Along R (rest.foldlM (mulAssign env) a) := by
    induction rest generalizing a with
    | nil => exact along_pure a
    | cons b rest ih =>
        rw [List.foldlM_cons]
        exact along_bind (along_mulAssign hset hnew a b) ih
  have harithmetic (op : ArithmeticOp) : Along R (applyArithmetic env op vals) := by
    unfold applyArithmetic
    split
    · exact along_add _
    · exact along_sub _ _
    · exact along_mod _ _
    · exact hproduct _ _
    · exact along_throw _
  unfold conclude
  split
  · exact along_bind along_readHeap fun _ => along_pure _
  · split
    · exact along_bind along_readHeap fun _ => along_pure _
    · exact along_pure _
  · exact along_pure _
  · exact along_compare _ _ _ _
  · unfold arithmetic
    split_ifs
    · exact along_throw _
    · exact along_pure _
    · exact harithmetic _
  · exact along_throw _

theorem evaluateAll_ends {Q : EvalState → Datum → Prop}
    (hstable : ∀ s t d, R s t → Q s d → Q t d) {op : Operator} {operands : List PyVal}
    {s : EvalState}
    (hoperand : ∀ earlier a later t, operands = earlier ++ a :: later →
      Passes env mode ctx op earlier s t → R s t →
        Ends (evaluate env mode ctx a) t (fun d u => R t u ∧ Q u d) fun _ u => R t u) :
    Ends (evaluateAll env mode ctx op operands) s (fun ds t => R s t ∧ ∀ d ∈ ds, Q t d)
      fun _ t => R s t := by
  induction operands generalizing s with
  | nil =>
      rw [evaluateAll_nil]
      exact ends_pure ⟨Std.Refl.refl s, fun _ hd => absurd hd List.not_mem_nil⟩
  | cons operand rest ih =>
      have hfirst := hoperand [] operand rest s rfl (.nil s) (Std.Refl.refl s)
      rw [evaluateAll_cons]
      refine ends_bind_of_run (fun d t heval => ?_) fun err t heval => hfirst.of_error heval
      obtain ⟨hst, hd⟩ := hfirst.of_ok heval
      refine ends_readHeap_bind ?_
      by_cases hgoes : op.goesOn t.heap d = true
      · rw [if_pos hgoes]
        have hrest := @ih t fun earlier a later u heq hpasses htu =>
          hoperand (operand :: earlier) a later u (by rw [heq, List.cons_append])
            (.cons heval hgoes hpasses) (IsTrans.trans _ _ _ hst htu)
        refine ends_bind (ends_mono hrest ?_ fun _ u htu => IsTrans.trans _ _ _ hst htu)
        rintro ds u ⟨htu, hds⟩
        exact ends_pure ⟨IsTrans.trans _ _ _ hst htu,
          List.forall_mem_cons.mpr ⟨hstable t u d htu hd, hds⟩⟩
      · rw [if_neg hgoes]
        exact ends_pure ⟨hst, fun x hx => List.mem_singleton.mp hx ▸ hd⟩

/-- How an evaluation ends, from how the variables and the conclusions in its course
end. -/
theorem evaluate_ends {Q : EvalState → Datum → Prop}
    (hstable : ∀ s t d, R s t → Q s d → Q t d)
    (hliteral : ∀ s d, (∀ a, d ≠ .ref a) → Q s d) (e : PyVal) {s : EvalState}
    (hvar : ∀ spec t, Reaches env mode ctx e s (.dict [("var", spec)]) t → R s t →
      Ends (variableRef env mode ctx spec) t (fun d u => R t u ∧ Q u d) fun _ u => R t u)
    (hconclude : ∀ key args op t vals u,
      Reaches env mode ctx e s (.dict [(key, args)]) t → Operator.parse key = some op →
        evaluateAll env mode ctx op (op.operands args) t = .ok vals u → R s u →
          (∀ d ∈ vals, Q u d) →
            Ends (conclude env mode key op vals) u (fun d w => R u w ∧ Q w d)
              fun _ w => R u w) :
    Ends (evaluate env mode ctx e) s (fun d t => R s t ∧ Q t d) fun _ t => R s t := by
  induction e using expression_induction generalizing s with
  | step e ih =>
      rcases @evaluate_forms env ctx e with
        ⟨d, hscalar, hd⟩ | ⟨spec, rfl⟩ | ⟨key, args, op, rfl, hop⟩ | ⟨err, herr⟩
      · rw [hd]
        exact ends_pure ⟨Std.Refl.refl s, hliteral s d hscalar⟩
      · have hend := hvar spec s (.here _ s) (Std.Refl.refl s)
        rw [evaluate_var]
        exact hend
      · rw [evaluate_operator args hop]
        refine ends_bind (ends_raising (fun checked hcheck => ?_)
          fun err _ => Std.Refl.refl s)
        have hoperands : Ends (evaluateAll env mode ctx op (op.operands args)) s
            (fun ds t => R s t ∧ ∀ d ∈ ds, Q t d) fun _ t => R s t := by
          refine evaluateAll_ends hstable fun earlier a later t heq hpasses hst => ?_
          have ha : a ∈ op.operands args := by
            rw [heq]
            exact List.mem_append_right _ List.mem_cons_self
          refine ih key args op rfl hop a ha (fun spec u hreach htu => ?_)
            (fun key' args' op' u vals w hreach hop' hvals htw => ?_)
          · exact hvar spec u (.operand hop hcheck heq hpasses hreach)
              (IsTrans.trans _ _ _ hst htu)
          · exact hconclude key' args' op' u vals w
              (.operand hop hcheck heq hpasses hreach) hop' hvals
              (IsTrans.trans _ _ _ hst htw)
        refine ends_bind_of_run (fun vals t hvals => ?_) fun err t hvals =>
          hoperands.of_error hvals
        obtain ⟨hst, hall⟩ := hoperands.of_ok hvals
        refine ends_mono (hconclude key args op s vals t (.here _ s) hop hvals hst hall) ?_
          fun _ u htu => IsTrans.trans _ _ _ hst htu
        rintro d u ⟨htu, hd⟩
        exact ⟨IsTrans.trans _ _ _ hst htu, hd⟩
      · rw [herr]
        exact ends_throw (Std.Refl.refl s)

theorem evaluateAll_keeps {op : Operator} {operands : List PyVal}
    (hkeeps : ∀ e t, R t (finalState (evaluate env mode ctx e) t)) :
    R s (finalState (evaluateAll env mode ctx op operands) s) := by
  refine ends_iff_finalState.mp (ends_mono (@evaluateAll_ends env mode ctx R _ _
    (fun _ _ => True) (fun _ _ _ _ => id) op operands s fun _ a _ t _ _ _ => ?_)
    (fun _ _ h => h.1) fun _ _ h => h)
  exact ends_mono (ends_iff_finalState.mpr (hkeeps a t)) (fun _ _ h => ⟨h, trivial⟩)
    fun _ _ h => h

theorem evaluate_keeps (e : PyVal)
    (hvar : ∀ spec t, Reaches env mode ctx e s (.dict [("var", spec)]) t →
      R t (finalState (variableRef env mode ctx spec) t))
    (hconclude : ∀ key args op t vals u,
      Reaches env mode ctx e s (.dict [(key, args)]) t → Operator.parse key = some op →
        evaluateAll env mode ctx op (op.operands args) t = .ok vals u →
          R u (finalState (conclude env mode key op vals) u)) :
    R s (finalState (evaluate env mode ctx e) s) := by
  have hend {α : Type} {m : EvalM α} {t : EvalState} (h : R t (finalState m t)) :
      Ends m t (fun _ u => R t u ∧ True) fun _ u => R t u :=
    ends_mono (ends_iff_finalState.mpr h) (fun _ _ htu => ⟨htu, trivial⟩) fun _ _ htu => htu
  refine ends_iff_finalState.mp (ends_mono (@evaluate_ends env mode ctx R _ _
    (fun _ _ => True) (fun _ _ _ _ => id) (fun _ _ _ => trivial) e s
    (fun spec t hreach _ => ?_) fun key args op t vals u hreach hop hvals _ _ => ?_)
    (fun _ _ h => h.1) fun _ _ h => h)
  · exact hend (hvar spec t hreach)
  · exact hend (hconclude key args op t vals u hreach hop hvals)

/-- Where variables and conclusions keep something, it is kept up to any evaluation in
the course of another. -/
theorem Reaches.keeps {e e' : PyVal} {s s' : EvalState}
    (hvar : ∀ spec, Along R (variableRef env mode ctx spec))
    (hconclude : ∀ key op vals, Along R (conclude env mode key op vals))
    (hreach : Reaches env mode ctx e s e' s') : R s s' := by
  have hkeeps (e : PyVal) (s : EvalState) :
      R s (finalState (evaluate env mode ctx e) s) :=
    evaluate_keeps e (fun spec t _ => (hvar spec).finalState t)
      (fun key _ op _ vals u _ _ _ => (hconclude key op vals).finalState u)
  have hpassed {op : Operator} {operands : List PyVal} {s t : EvalState}
      (hpasses : Passes env mode ctx op operands s t) : R s t := by
    induction hpasses with
    | nil s => exact Std.Refl.refl s
    | @cons operand rest s t u d heval _ _ ih =>
        have hfirst := hkeeps operand s
        rw [finalState_eq_of_ok heval] at hfirst
        exact IsTrans.trans _ _ _ hfirst ih
  induction hreach with
  | here e s => exact Std.Refl.refl s
  | operand _ _ _ hpasses _ ih => exact IsTrans.trans _ _ _ (hpassed hpasses) ih

/-- Where variables and conclusions keep something, it is kept from the end of any
evaluation on to the end of the evaluation that it is a part of. -/
theorem Reaches.keeps_to_end {e e' : PyVal} {s s' : EvalState}
    (hvar : ∀ spec, Along R (variableRef env mode ctx spec))
    (hconclude : ∀ key op vals, Along R (conclude env mode key op vals))
    (hreach : Reaches env mode ctx e s e' s') :
    R (finalState (evaluate env mode ctx e') s')
      (finalState (evaluate env mode ctx e) s) := by
  have hkeeps (e : PyVal) (s : EvalState) :
      R s (finalState (evaluate env mode ctx e) s) :=
    evaluate_keeps e (fun spec t _ => (hvar spec).finalState t)
      (fun key _ op _ vals u _ _ _ => (hconclude key op vals).finalState u)
  induction hreach with
  | here e s => exact Std.Refl.refl _
  | @operand key args op earlier later a e s t u hop hcheck hoperands hpasses _ ih =>
      refine IsTrans.trans _ _ _ ih ?_
      have hrun := @evaluate_operator_apply env mode ctx key op args hop s
      obtain ⟨ds, hds⟩ := evaluateAll_append hpasses (a :: later)
      rw [hcheck, hoperands, hds] at hrun
      dsimp only at hrun
      have hrest : R (finalState (evaluate env mode ctx a) t)
          (finalState (evaluateAll env mode ctx op (a :: later)) t) := by
        cases heval : evaluate env mode ctx a t with
        | error err v =>
            rw [finalState_eq_of_error heval,
              finalState_eq_of_error (evaluateAll_cons_of_error heval)]
            exact Std.Refl.refl v
        | ok d v =>
            rw [finalState_eq_of_ok heval]
            by_cases hgoes : op.goesOn v.heap d = true
            · have hlater : R v (finalState (evaluateAll env mode ctx op later) v) :=
                evaluateAll_keeps fun a w => hkeeps a w
              have hpass :=
                @evaluateAll_cons_of_pass env mode ctx op a later t v d heval hgoes
              rw [finalState] at hlater ⊢
              rw [hpass]
              cases hothers : evaluateAll env mode ctx op later v with
              | ok vals w =>
                  rw [hothers] at hlater
                  exact hlater
              | error err w =>
                  rw [hothers] at hlater
                  exact hlater
            · rw [finalState_eq_of_ok (evaluateAll_cons_of_stop heval hgoes)]
              exact Std.Refl.refl v
      refine IsTrans.trans _ _ _ hrest ?_
      cases hvals : evaluateAll env mode ctx op (a :: later) t with
      | error err v =>
          rw [hvals] at hrun
          rw [finalState_eq_of_error hvals, finalState_eq_of_error hrun]
          exact Std.Refl.refl v
      | ok vals v =>
          rw [hvals] at hrun
          rw [finalState_eq_of_ok hvals]
          have hend := (hconclude key op (ds ++ vals)).finalState v
          rw [finalState] at hend ⊢
          rw [hrun]
          exact hend

end

end

end Hydrogenuine.TaskGraph
