import Hydrogenuine.TaskGraph.Evaluation

/-!
# Validation of the paths of an expression

`validate_expression_paths` evaluates the expression and notes the paths of the missing
variables that the evaluation comes to.  References behind the operand that an `and` or
an `or` stops at, and the operands of a comparison from the third on, are not looked at.
The result is exact if and only if each unresolved path is one that the evaluation comes
to, and nothing else makes the evaluation raise.

The set `missing_paths` is the list of the paths that were added to it.
-/

namespace Hydrogenuine.TaskGraph

open Support

/-- Evaluation with `missing_paths`. -/
def EvalMode.isCollecting : EvalMode := { strict := true, collecting := true }

section

variable (env : Interpreter) (ctx : ExprContext)

def validateExpressionPaths (e : PyVal) : EStateM ExprError Heap (Bool × List PyVal) :=
  fun h =>
    match evaluate env .isCollecting ctx e { heap := h } with
    | .ok _ t => .ok (t.missing.isEmpty, t.missing) t.heap
    | .error (.valueError _) t => .ok (false, t.missing) t.heap
    | .error err t => .error err t.heap

/-- A variable reference occurs in an expression. -/
inductive Occurs (spec : PyVal) : PyVal → Prop
  | var : Occurs spec (.dict [("var", spec)])
  | operand {key : String} {args a : PyVal} (hkey : key ≠ "var")
      (ha : a ∈ argumentList args) (hoccurs : Occurs spec a) :
      Occurs spec (.dict [(key, args)])

def Resolves (h : Heap) (spec : PyVal) : Prop :=
  ∃ d, resolveVar h ctx (variablePath env spec) = .ok (some d)

def AllResolve (e : PyVal) (h : Heap) : Prop :=
  ∀ spec, Occurs spec e → Resolves env ctx h spec

/-- `(True, set())` is returned if all variables resolve, and else `False` with the paths
that do not. -/
def ValidationExact (e : PyVal) (h : Heap) : Prop :=
  ∃ valid missing, outcome (validateExpressionPaths env ctx e) h = .ok (valid, missing) ∧
    (valid = true ∧ missing = [] ↔ AllResolve env ctx e h) ∧
    (¬ AllResolve env ctx e h → valid = false ∧
      ∀ path, path ∈ missing ↔
        ∃ spec, Occurs spec e ∧ ¬ Resolves env ctx h spec ∧ variablePath env spec = path)

def Visits (e : PyVal) (h : Heap) (spec : PyVal) : Prop :=
  ∃ t, Reaches env .isCollecting ctx e { heap := h } (.dict [("var", spec)]) t

/-- The evaluation comes to each path that does not resolve. -/
def UnresolvedVisited (e : PyVal) (h : Heap) : Prop :=
  ∀ spec, Occurs spec e → ¬ Resolves env ctx h spec →
    ∃ spec', variablePath env spec' = variablePath env spec ∧ Visits env ctx e h spec'

/-- The evaluation raises at most a `ValueError`, and that only if some variable does not
resolve. -/
def EvaluationReturns (e : PyVal) (h : Heap) : Prop :=
  match outcome (evaluate env .isCollecting ctx e) { heap := h } with
  | .ok _ => True
  | .error (.valueError _) => ¬ AllResolve env ctx e h
  | .error _ => False

end

/-! ## What collecting keeps -/

section

/-- The dictionaries are the same, and the paths noted are kept. -/
structure Collected (s t : EvalState) : Prop where
  dict? : ∀ d, t.heap.dict? d = s.heap.dict? d
  missing : s.missing ⊆ t.missing

instance : Std.Refl Collected := ⟨fun _ => ⟨fun _ => rfl, fun _ hp => hp⟩⟩

instance : IsTrans EvalState Collected :=
  ⟨fun _ _ _ hst htu => ⟨fun d => (htu.dict? d).trans (hst.dict? d),
    fun _ hp => htu.missing (hst.missing hp)⟩⟩

theorem dict?_set_list {h : Heap} {address : ℕ} {items : List Datum}
    (hlist : h.list? (.ref address) = some items) (ds : List Datum) (d : Datum) :
    Heap.dict? (h.set address (.list ds)) d = h.dict? d := by
  cases d with
  | ref a =>
      rw [Heap.dict?, Heap.dict?]
      by_cases ha : address = a
      · subst ha
        rw [Heap.list?] at hlist
        cases hobject : h[address]? with
        | none =>
            rw [hobject] at hlist
            cases hlist
        | some object =>
            have hbound := (List.getElem?_eq_some_iff.mp hobject).1
            rw [List.getElem?_set_self hbound]
            cases object with
            | list items => rfl
            | dict items =>
                rw [hobject] at hlist
                cases hlist
      · rw [List.getElem?_set_ne ha]
  | _ => rfl

theorem dict?_append_list (h : Heap) (ds : List Datum) (d : Datum) :
    Heap.dict? (h ++ [.list ds]) d = h.dict? d := by
  cases d with
  | ref a =>
      rw [Heap.dict?, Heap.dict?]
      rcases Nat.lt_trichotomy a h.length with hlt | rfl | hgt
      · rw [List.getElem?_append_left hlt]
      · rw [List.getElem?_concat_length, List.getElem?_eq_none (Nat.le_refl _)]
      · rw [List.getElem?_eq_none (Nat.le_of_lt hgt), List.getElem?_eq_none]
        rw [List.length_append, List.length_singleton]
        exact hgt
  | _ => rfl

theorem getByDotPath_congr {h h' : Heap} (hdict : ∀ d, h'.dict? d = h.dict? d)
    (keys : List String) (items : List (String × Datum)) :
    getByDotPath h' keys items = getByDotPath h keys items := by
  induction keys generalizing items with
  | nil => rfl
  | cons key rest ih =>
      rcases rest with _ | ⟨next, rest⟩
      · rfl
      · rw [getByDotPath, getByDotPath]
        simp only [hdict, funext ih]
        · exact nofun
        · exact nofun

theorem resolveVar_congr {h h' : Heap} (hdict : ∀ d, h'.dict? d = h.dict? d)
    (ctx : ExprContext) (path : PyVal) :
    resolveVar h' ctx path = resolveVar h ctx path := by
  cases path with
  | str path =>
      rw [resolveVar, resolveVar, resolvePath, resolvePath]
      simp only [getByDotPath_congr hdict, hdict]
  | _ => rfl

theorem resolveVar_error {h : Heap} {ctx : ExprContext} {path : PyVal} {err : ExprError}
    (herr : resolveVar h ctx path = .error err) (message : String) :
    err ≠ .valueError message := by
  rintro rfl
  unfold resolveVar at herr
  split at herr
  · cases herr
  · split_ifs at herr
    · cases herr

variable {env : Interpreter} {ctx : ExprContext} {spec : PyVal} {s : EvalState}

theorem variableRef_collecting
    (h : resolveVar s.heap ctx (variablePath env spec) = .ok none) :
    variableRef env .isCollecting ctx spec s =
        .ok .none { s with missing := s.missing ++ [variablePath env spec] } ∨
      variableRef env .isCollecting ctx spec s = .error .typeError s := by
  rw [variableRef, readHeap_bind_apply, raising_bind_apply, h]
  cases variablePath env spec with
  | list items => exact Or.inr rfl
  | dict items => exact Or.inr rfl
  | _ => exact Or.inl rfl

theorem finalState_variableRef (env : Interpreter) (ctx : ExprContext) (spec : PyVal)
    (s : EvalState) :
    finalState (variableRef env .isCollecting ctx spec) s = s ∨
      resolveVar s.heap ctx (variablePath env spec) = .ok none ∧
        finalState (variableRef env .isCollecting ctx spec) s =
          { s with missing := s.missing ++ [variablePath env spec] } := by
  cases hresolve : resolveVar s.heap ctx (variablePath env spec) with
  | error err => exact Or.inl (finalState_eq_of_error (variableRef_of_error hresolve))
  | ok found =>
      cases found with
      | some d => exact Or.inl (finalState_eq_of_ok (variableRef_of_some hresolve))
      | none =>
          rcases variableRef_collecting hresolve with hok | herr
          · exact Or.inr ⟨rfl, finalState_eq_of_ok hok⟩
          · exact Or.inl (finalState_eq_of_error herr)

theorem along_variableRef (env : Interpreter) (ctx : ExprContext) (spec : PyVal) :
    Along Collected (variableRef env .isCollecting ctx spec) := by
  refine along_of_finalState fun s => ?_
  rcases finalState_variableRef env ctx spec s with hsame | ⟨-, hnoted⟩
  · rw [hsame]
    exact Std.Refl.refl s
  · rw [hnoted]
    exact ⟨fun _ => rfl, List.subset_append_left _ _⟩

theorem along_conclude_collected (env : Interpreter) (mode : EvalMode) (key : String)
    (op : Operator) (vals : List Datum) :
    Along Collected (conclude env mode key op vals) :=
  along_conclude (fun _ _ _ ds hlist => ⟨dict?_set_list hlist ds, fun _ hp => hp⟩)
    (fun s ds => ⟨dict?_append_list s.heap ds, fun _ hp => hp⟩) key op vals

/-! ### What is noted -/

/-- The paths noted in between have a property. -/
def NotesOnly (Q : PyVal → Prop) (s t : EvalState) : Prop :=
  ∀ path ∈ t.missing, path ∈ s.missing ∨ Q path

instance (Q : PyVal → Prop) : Std.Refl (NotesOnly Q) := ⟨fun _ _ hp => Or.inl hp⟩

instance (Q : PyVal → Prop) : IsTrans EvalState (NotesOnly Q) :=
  ⟨fun _ _ _ hst htu path hp => (htu path hp).elim (hst path) Or.inr⟩

theorem evaluate_notesOnly (e : PyVal) :
    NotesOnly (fun path => ∃ spec t,
        Reaches env .isCollecting ctx e s (.dict [("var", spec)]) t ∧
          resolveVar t.heap ctx path = .ok none ∧ variablePath env spec = path)
      s (finalState (evaluate env .isCollecting ctx e) s) := by
  refine evaluate_keeps e (fun spec t hreach path hp => ?_)
    (fun key _ op _ vals u _ _ _ => ?_)
  · rcases finalState_variableRef env ctx spec t with hsame | ⟨hmissing, hnoted⟩
    · rw [hsame] at hp
      exact Or.inl hp
    · rw [hnoted] at hp
      rcases List.mem_append.mp hp with hbefore | hlast
      · exact Or.inl hbefore
      · obtain rfl := List.mem_singleton.mp hlast
        exact Or.inr ⟨spec, t, hreach, hmissing, rfl⟩
  · exact (along_conclude (fun _ _ _ _ _ _ hp => Or.inl hp) (fun _ _ _ hp => Or.inl hp)
      key op vals).finalState u

/-- The missing path of a reference that the evaluation comes to is noted, unless the
evaluation raises. -/
theorem Reaches.noted {e : PyVal} {t : EvalState}
    (hreach : Reaches env .isCollecting ctx e s (.dict [("var", spec)]) t)
    (hunresolved : ¬ Resolves env ctx t.heap spec) :
    variablePath env spec ∈ (finalState (evaluate env .isCollecting ctx e) s).missing ∨
      ∃ err u, evaluate env .isCollecting ctx e s = .error err u ∧
        ∀ message, err ≠ .valueError message := by
  have hend := hreach.keeps_to_end (along_variableRef env ctx)
    (along_conclude_collected env .isCollecting)
  rw [evaluate_var] at hend
  cases hresolve : resolveVar t.heap ctx (variablePath env spec) with
  | error err =>
      have herr : evaluate env .isCollecting ctx (.dict [("var", spec)]) t =
          .error err t := by
        rw [evaluate_var, variableRef_of_error hresolve]
      exact Or.inr ⟨err, t, hreach.error herr, resolveVar_error hresolve⟩
  | ok found =>
      cases found with
      | some d => exact absurd ⟨d, hresolve⟩ hunresolved
      | none =>
          rcases variableRef_collecting hresolve with hok | herr
          · rw [finalState_eq_of_ok hok] at hend
            exact Or.inl (hend.missing (List.mem_append_right _ (List.mem_singleton_self _)))
          · rw [← evaluate_var] at herr
            exact Or.inr ⟨.typeError, t, hreach.error herr, nofun⟩

/-! ## Occurrences -/

theorem not_occurs_list (items : List PyVal) : ¬ Occurs spec (.list items) := nofun

theorem Reaches.occurs {mode : EvalMode} {e e' : PyVal} {t : EvalState}
    (hreach : Reaches env mode ctx e s e' t) (hoccurs : Occurs spec e') :
    Occurs spec e := by
  induction hreach with
  | here e s => exact hoccurs
  | @operand key args op earlier later a e s t u hop _ hoperands _ _ ih =>
      have ha : a ∈ op.operands args := by
        rw [hoperands]
        exact List.mem_append_right _ List.mem_cons_self
      have hkey : key ≠ "var" := by
        rintro rfl
        rw [parse_var] at hop
        cases hop
      have hin : a ∈ argumentList args := by
        cases op with
        | not =>
            obtain rfl := List.mem_singleton.mp ha
            cases a with
            | list items => exact absurd (ih hoccurs) (not_occurs_list items)
            | _ => exact List.mem_singleton_self _
        | compare op => exact List.mem_of_mem_take ha
        | _ => exact ha
      exact .operand hkey hin (ih hoccurs)

theorem Reaches.resolves_iff {e : PyVal} {t : EvalState}
    (hreach : Reaches env .isCollecting ctx e s (.dict [("var", spec)]) t) :
    Resolves env ctx t.heap spec ↔ Resolves env ctx s.heap spec := by
  have hkept := hreach.keeps (along_variableRef env ctx)
    (along_conclude_collected env .isCollecting)
  rw [Resolves, Resolves, resolveVar_congr hkept.dict?]

/-! ## Exactness -/

variable {e : PyVal} {h : Heap}

/-- The paths noted by an evaluation that returns are those of the unresolved references
that it comes to. -/
theorem mem_missing_iff (hreturns : EvaluationReturns env ctx e h) (path : PyVal) :
    path ∈ (finalState (evaluate env .isCollecting ctx e) { heap := h }).missing ↔
      ∃ spec, Visits env ctx e h spec ∧ ¬ Resolves env ctx h spec ∧
        variablePath env spec = path := by
  constructor
  · intro hpath
    rcases evaluate_notesOnly e path hpath with hstart | ⟨spec, t, hreach, hmissing, rfl⟩
    · cases hstart
    · refine ⟨spec, ⟨t, hreach⟩, ?_, rfl⟩
      intro hresolves
      obtain ⟨d, hd⟩ := hreach.resolves_iff.mpr hresolves
      rw [hmissing] at hd
      cases hd
  · rintro ⟨spec, ⟨t, hreach⟩, hunresolved, rfl⟩
    have ht : ¬ Resolves env ctx t.heap spec := mt hreach.resolves_iff.mp hunresolved
    rcases hreach.noted ht with hnoted | ⟨err, u, herr, hother⟩
    · exact hnoted
    · rw [EvaluationReturns, outcome, herr] at hreturns
      cases err with
      | valueError message => exact absurd rfl (hother message)
      | _ => exact hreturns.elim

theorem validateExpressionPaths_eq (env : Interpreter) (ctx : ExprContext) (e : PyVal)
    (h : Heap) :
    let t := finalState (evaluate env .isCollecting ctx e) { heap := h }
    outcome (validateExpressionPaths env ctx e) h =
      match outcome (evaluate env .isCollecting ctx e) { heap := h } with
      | .ok _ => .ok (t.missing.isEmpty, t.missing)
      | .error (.valueError _) => .ok (false, t.missing)
      | .error err => .error err := by
  unfold outcome finalState validateExpressionPaths
  cases evaluate env .isCollecting ctx e { heap := h } with
  | ok d t => rfl
  | error err t => cases err <;> rfl

theorem mem_missing_iff_occurs (hvisited : UnresolvedVisited env ctx e h)
    (hreturns : EvaluationReturns env ctx e h) (path : PyVal) :
    path ∈ (finalState (evaluate env .isCollecting ctx e) { heap := h }).missing ↔
      ∃ spec, Occurs spec e ∧ ¬ Resolves env ctx h spec ∧
        variablePath env spec = path := by
  rw [mem_missing_iff hreturns]
  constructor
  · rintro ⟨spec, ⟨t, hreach⟩, hunresolved, hpath⟩
    exact ⟨spec, hreach.occurs .var, hunresolved, hpath⟩
  · rintro ⟨spec, hoccurs, hunresolved, rfl⟩
    obtain ⟨spec', hpath, hvisits⟩ := hvisited spec hoccurs hunresolved
    refine ⟨spec', hvisits, ?_, hpath⟩
    rw [Resolves, hpath]
    exact hunresolved

theorem missing_eq_nil_iff (hvisited : UnresolvedVisited env ctx e h)
    (hreturns : EvaluationReturns env ctx e h) :
    (finalState (evaluate env .isCollecting ctx e) { heap := h }).missing = [] ↔
      AllResolve env ctx e h := by
  rw [List.eq_nil_iff_forall_not_mem]
  constructor
  · intro hnone spec hoccurs
    by_contra hunresolved
    exact hnone _ ((mem_missing_iff_occurs hvisited hreturns _).mpr
      ⟨spec, hoccurs, hunresolved, rfl⟩)
  · intro hall path hpath
    obtain ⟨spec, hoccurs, hunresolved, -⟩ :=
      (mem_missing_iff_occurs hvisited hreturns path).mp hpath
    exact hunresolved (hall spec hoccurs)

theorem ValidationExact.returns (hexact : ValidationExact env ctx e h) :
    EvaluationReturns env ctx e h := by
  obtain ⟨valid, missing, hresult, hempty, -⟩ := hexact
  rw [validateExpressionPaths_eq] at hresult
  unfold EvaluationReturns
  cases houtcome : outcome (evaluate env .isCollecting ctx e) { heap := h } with
  | ok d => trivial
  | error err =>
      rw [houtcome] at hresult
      cases err with
      | valueError message =>
          intro hall
          obtain ⟨hvalid, -⟩ := hempty.mpr hall
          rw [hvalid] at hresult
          cases hresult
      | _ => cases hresult

theorem missing_eq_of_outcome {valid : Bool} {missing : List PyVal}
    (hresult : outcome (validateExpressionPaths env ctx e) h = .ok (valid, missing)) :
    missing = (finalState (evaluate env .isCollecting ctx e) { heap := h }).missing := by
  rw [validateExpressionPaths_eq] at hresult
  cases houtcome : outcome (evaluate env .isCollecting ctx e) { heap := h } with
  | ok d =>
      rw [houtcome] at hresult
      exact (congrArg Prod.snd (Except.ok.inj hresult)).symm
  | error err =>
      rw [houtcome] at hresult
      cases err with
      | valueError message => exact (congrArg Prod.snd (Except.ok.inj hresult)).symm
      | _ => cases hresult

/-- The validation of the paths of an expression is exact if and only if the evaluation
comes to each path that does not resolve, and raises at most a `ValueError` where there is
such a path. -/
theorem validateExpressionPaths_exact_iff (env : Interpreter) (ctx : ExprContext)
    (e : PyVal) (h : Heap) :
    ValidationExact env ctx e h ↔
      UnresolvedVisited env ctx e h ∧ EvaluationReturns env ctx e h := by
  constructor
  · intro hexact
    have hreturns := hexact.returns
    refine ⟨fun spec hoccurs hnot => ?_, hreturns⟩
    obtain ⟨valid, missing, hresult, -, hunresolved⟩ := hexact
    obtain ⟨-, hpaths⟩ := hunresolved fun hall => hnot (hall spec hoccurs)
    have hnoted := (hpaths _).mpr ⟨spec, hoccurs, hnot, rfl⟩
    rw [missing_eq_of_outcome hresult, mem_missing_iff hreturns] at hnoted
    obtain ⟨spec', hvisits, -, hpath⟩ := hnoted
    exact ⟨spec', hpath, hvisits⟩
  · rintro ⟨hvisited, hreturns⟩
    have hmem := mem_missing_iff_occurs hvisited hreturns
    have hnil := missing_eq_nil_iff hvisited hreturns
    have hresult := validateExpressionPaths_eq env ctx e h
    have hends := hreturns
    unfold EvaluationReturns at hends
    cases houtcome : outcome (evaluate env .isCollecting ctx e) { heap := h } with
    | ok d =>
        rw [houtcome] at hresult
        refine ⟨_, _, hresult, ⟨fun hempty => hnil.mp hempty.2, fun hall => ?_⟩,
          fun hunresolved => ⟨?_, hmem⟩⟩
        · exact ⟨List.isEmpty_iff.mpr (hnil.mpr hall), hnil.mpr hall⟩
        · exact Bool.eq_false_iff.mpr fun hempty =>
            hunresolved (hnil.mp (List.isEmpty_iff.mp hempty))
    | error err =>
        rw [houtcome] at hresult hends
        cases err with
        | valueError message =>
            exact ⟨false, _, hresult, ⟨fun hempty => hnil.mp hempty.2,
              fun hall => absurd hall hends⟩, fun _ => ⟨rfl, hmem⟩⟩
        | _ => exact hends.elim

/-- A reference behind the operand that `or` stops at is overlooked. -/
theorem validateExpressionPaths_not_exact :
    ¬ ∀ (env : Interpreter) (ctx : ExprContext) (e : PyVal) (h : Heap),
      ValidationExact env ctx e h := by
  intro hclaim
  let reference : PyVal := .dict [("var", .str "state.missing")]
  obtain ⟨valid, missing, hresult, hempty, -⟩ :=
    hclaim .noFloats {} (.dict [("or", .list [.bool true, reference])]) []
  have hvalid : outcome (validateExpressionPaths .noFloats {}
      (.dict [("or", .list [.bool true, reference])])) [] = .ok (true, []) := rfl
  obtain ⟨rfl, rfl⟩ := Prod.mk.inj (Except.ok.inj (hresult.symm.trans hvalid))
  have hoccurs : Occurs (.str "state.missing")
      (.dict [("or", .list [.bool true, reference])]) :=
    .operand nofun (List.mem_cons_of_mem _ (List.mem_singleton_self _)) .var
  obtain ⟨d, hd⟩ := hempty.mp ⟨rfl, rfl⟩ _ hoccurs
  have hmissing : resolveVar [] {} (variablePath .noFloats (.str "state.missing")) =
      .ok none := by
    rw [variablePath, Interpreter.str, PyVal.render]
    · rfl
    · exact nofun
  rw [hmissing] at hd
  cases hd

end

/-! ## What an expression depends on -/

section

variable {env : Interpreter} {ctx ctx' : ExprContext}

/-- Both contexts give the variables of the expression the same values. -/
def AgreeOn (env : Interpreter) (ctx ctx' : ExprContext) (e : PyVal) : Prop :=
  ∀ spec, Occurs spec e → ∀ h,
    resolveVar h ctx' (variablePath env spec) = resolveVar h ctx (variablePath env spec)

theorem AgreeOn.operand {key : String} {args a : PyVal} {op : Operator}
    (hagree : AgreeOn env ctx ctx' (.dict [(key, args)]))
    (hop : Operator.parse key = some op) (ha : a ∈ op.operands args) :
    AgreeOn env ctx ctx' a := by
  intro spec hoccurs
  refine hagree spec (.operand ?_ ?_ hoccurs)
  · rintro rfl
    rw [parse_var] at hop
    cases hop
  · cases op with
    | not =>
        obtain rfl := List.mem_singleton.mp ha
        cases a with
        | list items => exact absurd hoccurs (not_occurs_list items)
        | _ => exact List.mem_singleton_self _
    | compare op => exact List.mem_of_mem_take ha
    | _ => exact ha

theorem evaluateAll_congr {mode : EvalMode} {op : Operator} {operands : List PyVal}
    (h : ∀ a ∈ operands, evaluate env mode ctx' a = evaluate env mode ctx a) :
    evaluateAll env mode ctx' op operands = evaluateAll env mode ctx op operands := by
  induction operands with
  | nil => rw [evaluateAll_nil, evaluateAll_nil]
  | cons operand rest ih =>
      rw [List.forall_mem_cons] at h
      rw [evaluateAll_cons, evaluateAll_cons, h.1, ih h.2]

theorem evaluate_congr (mode : EvalMode) (e : PyVal) (hagree : AgreeOn env ctx ctx' e) :
    evaluate env mode ctx' e = evaluate env mode ctx e := by
  induction e using expression_induction with
  | step e ih =>
      cases e with
      | dict items =>
          rcases items with _ | ⟨⟨key, args⟩, _ | ⟨second, rest⟩⟩
          · simp only [evaluate]
          · by_cases hkey : key = "var"
            · subst hkey
              rw [evaluate_var, evaluate_var]
              simp only [variableRef, hagree args .var]
            · cases hop : Operator.parse key with
              | none => rw [evaluate, evaluate, if_neg hkey, if_neg hkey, hop]
              | some op =>
                  rw [evaluate_operator args hop, evaluate_operator args hop,
                    evaluateAll_congr fun a ha =>
                      ih key args op rfl hop a ha (hagree.operand hop ha)]
          · simp only [evaluate]
      | _ => simp only [evaluate]

/-- Contexts that agree on the variables of an expression give it the same value in every
mode, and the same validation. -/
theorem evaluation_is_local (env : Interpreter) (ctx ctx' : ExprContext) (e : PyVal)
    (hagree : AgreeOn env ctx ctx' e) :
    (∀ mode, evaluate env mode ctx' e = evaluate env mode ctx e) ∧
      validateExpressionPaths env ctx' e = validateExpressionPaths env ctx e := by
  have hsame := fun mode => evaluate_congr mode e hagree
  refine ⟨hsame, funext fun h => ?_⟩
  simp only [validateExpressionPaths, hsame]

/-- The iteration of a loop does not matter to an expression about the state. -/
theorem evaluation_is_local_state :
    (∀ mode, evaluate .noFloats mode { loop := [("iteration", .int 1)] }
        (.dict [("var", .str "state.ready")]) =
      evaluate .noFloats mode {} (.dict [("var", .str "state.ready")])) ∧
    validateExpressionPaths .noFloats { loop := [("iteration", .int 1)] }
        (.dict [("var", .str "state.ready")]) =
      validateExpressionPaths .noFloats {} (.dict [("var", .str "state.ready")]) := by
  refine evaluation_is_local _ _ _ _ fun spec hoccurs h => ?_
  cases hoccurs with
  | var =>
      rw [variablePath, Interpreter.str, PyVal.render]
      · rfl
      · simp
  | operand hkey => exact absurd rfl hkey

end

end Hydrogenuine.TaskGraph
