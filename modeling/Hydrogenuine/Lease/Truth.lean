import Hydrogenuine.Core.ReferenceHost
import Hydrogenuine.Lease.Policy

/-!
# Truth values of conditions

Evaluation is monotone in information: when the second context agrees with the
first on every fact that is present and fresh there, a verdict that was settled
in the first context is the verdict in the second.  The induction is over the
condition; each of the two loops carries the truth value of what it has
accumulated.
-/

namespace Hydrogenuine.Lease

open Support Hydrogenuine.Core

/-! ## Reading truth off a result -/

theorem isOpenReason_unknown (rest : String) :
    isOpenReason (reasonUnknownFact ++ rest) = true := by
  simp [isOpenReason, startsWith_append]

theorem isOpenReason_stale (rest : String) :
    isOpenReason (reasonStaleFact ++ rest) = true := by
  simp [isOpenReason, startsWith_append]

theorem isOpenReason_conditionFalse (rest : String) :
    isOpenReason (reasonConditionFalse ++ rest) = false := by
  have h (p : String)
      (hpa : reasonConditionFalse.toList.isPrefixOf p.toList = false)
      (hap : p.toList.isPrefixOf reasonConditionFalse.toList = false) :=
    startsWith_append_eq_false rest hpa hap
  rw [isOpenReason, h _ (by decide) (by decide), h _ (by decide) (by decide),
    h _ (by decide) (by decide)]
  rfl

theorem isOpenReason_timeWindow (rest : String) :
    isOpenReason (reasonOutsideTimeWindow ++ rest) = false := by
  have h (p : String)
      (hpa : reasonOutsideTimeWindow.toList.isPrefixOf p.toList = false)
      (hap : p.toList.isPrefixOf reasonOutsideTimeWindow.toList = false) :=
    startsWith_append_eq_false rest hpa hap
  rw [isOpenReason, h _ (by decide) (by decide), h _ (by decide) (by decide),
    h _ (by decide) (by decide)]
  rfl

namespace CondResult

variable {res : CondResult}

theorem truth_eq_yes_iff :
    res.truth = .yes ↔ res.ok = true := by
  unfold truth
  split_ifs with hok hopen
  · simp [hok]
  · simp [hok]
  · simp [hok]

theorem truth_eq_no_iff :
    res.truth = .no ↔
      res.ok = false ∧ res.reasons.any isOpenReason = false := by
  unfold truth
  split_ifs with hok hopen
  · simp [hok]
  · simp only [hopen, Bool.true_eq_false, and_false]
  · simp only [Bool.not_eq_true] at hok hopen
    simp only [hok, hopen, and_self]

/-- The shape every result has: a satisfied condition gives no reasons. -/
def Clean (res : CondResult) : Prop := res.ok = true → res.reasons = []

theorem clean_of_not_ok (reasons : List String) : Clean ⟨false, reasons⟩ := by
  intro hfalse
  cases hfalse

theorem ok_of_truth_le
    {res res' : CondResult} (hle : res.truth ≤ res'.truth)
    (hok : res.ok = true) : res'.ok = true := by
  have hyes := truth_eq_yes_iff.mpr hok
  have heq := Trilean.eq_of_le hle (by rw [hyes]; decide)
  exact truth_eq_yes_iff.mp (heq.trans hyes)

theorem truth_negate (hclean : res.Clean) :
    (Condition.negate res).truth = res.truth.neg := by
  unfold Condition.negate
  by_cases hok : res.ok = true
  · have hnil := hclean hok
    have hopen := isOpenReason_conditionFalse ":not"
    simp [hok, hnil, truth, hopen, Trilean.neg]
  · by_cases hopen : res.reasons.any isOpenReason = true
    · simp only [hopen, if_true, truth, hok, Bool.false_eq_true, if_false,
        Trilean.neg]
    · simp only [hopen, hok, Bool.false_eq_true, if_false, truth, if_true,
        Trilean.neg]

theorem truth_append
    {ok : Bool} {reasons : List String}
    (hclean : CondResult.Clean ⟨ok, reasons⟩) (hres : res.ok = false) :
    truth ⟨false, reasons ++ res.reasons⟩ =
      (truth ⟨ok, reasons⟩).and res.truth := by
  by_cases hok : ok = true
  · obtain rfl : reasons = [] := hclean hok
    by_cases hopen : res.reasons.any isOpenReason = true
    · simp only [truth, hok, hres, List.nil_append, hopen, Bool.false_eq_true,
        if_false, if_true, Trilean.and]
    · simp only [truth, hok, hres, List.nil_append, hopen, Bool.false_eq_true,
        if_false, if_true, Trilean.and]
  · by_cases hacc : reasons.any isOpenReason = true
    · simp only [truth, hok, List.any_append, hacc, Bool.true_or,
        Bool.false_eq_true, if_false, if_true, Trilean.and]
    · by_cases hopen : res.reasons.any isOpenReason = true
      · simp only [truth, hok, hres, List.any_append, hacc, hopen, Bool.or_true,
          Bool.false_eq_true, if_false, if_true, Trilean.and]
      · simp only [truth, hok, hres, List.any_append, hacc, hopen, Bool.or_self,
          Bool.false_eq_true, if_false, Trilean.and]

end CondResult

/-! ## Satisfied conditions give no reasons -/

namespace Condition

variable {host : Host} {ctx ctx' : EvalContext}

theorem negate_clean (res : CondResult) : (negate res).Clean := by
  unfold negate CondResult.Clean
  split_ifs <;> simp

theorem allOfLoop_clean (children : List Condition) :
    ∀ ok reasons, CondResult.Clean ⟨ok, reasons⟩ → ∀ res,
      allOfLoop host ctx children ok reasons = .ok res → res.Clean := by
  induction children with
  | nil =>
      intro ok reasons hclean res hres
      cases hres
      exact hclean
  | cons child children ih =>
      intro ok reasons hclean res hres
      unfold allOfLoop at hres
      split at hres
      · cases hres
      · split at hres
        · exact ih ok reasons hclean res hres
        · exact ih false _ (CondResult.clean_of_not_ok _) res hres

theorem anyOfLoop_clean (children : List Condition) :
    ∀ reasons res, anyOfLoop host ctx children reasons = .ok res →
      res.Clean := by
  induction children with
  | nil =>
      intro reasons res hres
      cases hres
      intro hfalse
      cases hfalse
  | cons child children ih =>
      intro reasons res hres
      unfold anyOfLoop at hres
      split at hres
      · cases hres
      · split at hres
        · cases hres
          intro _
          rfl
        · exact ih _ res hres

theorem evaluate_clean
    {c : Condition} {res : CondResult} (hres : evaluate host ctx c = .ok res) :
    res.Clean := by
  cases c with
  | fact cond =>
      unfold evaluate at hres
      cases hres
      unfold FactCondition.evaluate CondResult.Clean
      split
      · simp
      · split_ifs
        · simp
        · simp
        · split <;> simp
  | timeWindow window =>
      unfold evaluate TimeWindow.evaluate at hres
      split at hres
      · cases hres
      · split at hres
        · cases hres
          simp [CondResult.Clean]
        · cases hres
          simp [CondResult.Clean]
  | allOf children =>
      unfold evaluate at hres
      exact allOfLoop_clean children true [] (fun _ => rfl) res hres
  | anyOf children =>
      unfold evaluate at hres
      exact anyOfLoop_clean children [] res hres
  | notCond child =>
      unfold evaluate at hres
      split at hres
      · cases hres
      · cases hres
        exact negate_clean _

/-! ## Monotonicity -/

/-- The second context only adds or refreshes facts: what is present and fresh
in the first is unchanged. -/
def Extends (ctx ctx' : EvalContext) : Prop :=
  ∀ name fact, ctx.facts.get? name = some fact →
    fact.fresh ctx.nowWall = true → ctx'.facts.get? name = some fact

/-- The second evaluation returns when the first does, with a verdict that
settles at most what was open. -/
def Settles (r r' : Except PyError CondResult) : Prop :=
  ∀ res, r = .ok res → ∃ res', r' = .ok res' ∧ res.truth ≤ res'.truth

theorem truth_fact_mono
    (hnow : ctx'.nowWall = ctx.nowWall) (hext : Extends ctx ctx')
    (cond : FactCondition) :
    (cond.evaluate ctx).truth ≤ (cond.evaluate ctx').truth := by
  cases hget : ctx.facts.get? cond.factName with
  | none =>
      left
      have hopen := isOpenReason_unknown (":" ++ cond.factName)
      rw [← String.append_assoc] at hopen
      simp [FactCondition.evaluate, hget, CondResult.truth, hopen]
  | some fact =>
      by_cases hfresh : fact.fresh ctx.nowWall = true
      · have hget' := hext _ _ hget hfresh
        right
        simp [FactCondition.evaluate, hget, hget', hnow]
      · left
        have hopen := isOpenReason_stale (":" ++ cond.factName)
        rw [← String.append_assoc] at hopen
        simp only [Bool.not_eq_true] at hfresh
        simp [FactCondition.evaluate, hget, hfresh, CondResult.truth, hopen]

theorem allOfLoop_settles
    (children : List Condition)
    (ih : ∀ c ∈ children,
      Settles (evaluate host ctx c) (evaluate host ctx' c)) :
    ∀ ok reasons ok' reasons',
      CondResult.Clean ⟨ok, reasons⟩ → CondResult.Clean ⟨ok', reasons'⟩ →
      CondResult.truth ⟨ok, reasons⟩ ≤ CondResult.truth ⟨ok', reasons'⟩ →
      Settles (allOfLoop host ctx children ok reasons)
        (allOfLoop host ctx' children ok' reasons') := by
  induction children with
  | nil =>
      intro ok reasons ok' reasons' _ _ hacc res hres
      cases hres
      exact ⟨_, rfl, hacc⟩
  | cons child children ihs =>
      intro ok reasons ok' reasons' hclean hclean' hacc res hres
      have hrest := ihs fun c hc => ih c (List.mem_cons_of_mem _ hc)
      unfold allOfLoop at hres ⊢
      cases hchild : evaluate host ctx child with
      | error e =>
          rw [hchild] at hres
          cases hres
      | ok r =>
          rw [hchild] at hres
          obtain ⟨r', hr', hle⟩ := ih child List.mem_cons_self r hchild
          rw [hr']
          dsimp only at hres ⊢
          -- the accumulated truth value is conjoined with that of the child
          by_cases hok : r.ok = true
          · rw [if_pos hok] at hres
            rw [if_pos (CondResult.ok_of_truth_le hle hok)]
            exact hrest ok reasons ok' reasons' hclean hclean' hacc res hres
          · rw [if_neg hok] at hres
            rw [Bool.not_eq_true] at hok
            have hand := CondResult.truth_append hclean hok
            by_cases hok' : r'.ok = true
            · rw [if_pos hok']
              refine hrest _ _ _ _ (CondResult.clean_of_not_ok _) hclean' ?_ res hres
              have hyes := CondResult.truth_eq_yes_iff.mpr hok'
              have hunknown : r.truth = .unknown := by
                rcases hle with hle | hle
                · exact hle
                · rw [hyes, CondResult.truth_eq_yes_iff, hok] at hle
                  cases hle
              left
              rw [hand, hunknown]
              cases CondResult.truth ⟨ok, reasons⟩ <;> rfl
            · rw [if_neg hok']
              rw [Bool.not_eq_true] at hok'
              refine hrest _ _ _ _ (CondResult.clean_of_not_ok _) (CondResult.clean_of_not_ok _) ?_ res hres
              rw [hand, CondResult.truth_append hclean' hok']
              exact Trilean.and_mono hacc hle

theorem anyOfLoop_ne_no
    (children : List Condition) :
    ∀ reasons res, reasons.any isOpenReason = true →
      anyOfLoop host ctx children reasons = .ok res → res.truth ≠ .no := by
  induction children with
  | nil =>
      intro reasons res hopen hres
      cases hres
      rw [Ne, CondResult.truth_eq_no_iff]
      rintro ⟨-, hclosed⟩
      have hne : reasons.isEmpty = false := by
        cases reasons with
        | nil => cases hopen
        | cons _ _ => rfl
      simp only [hne, Bool.false_eq_true, if_false] at hclosed
      rw [hopen] at hclosed
      cases hclosed
  | cons child children ih =>
      intro reasons res hopen hres
      unfold anyOfLoop at hres
      split at hres
      · cases hres
      · split at hres
        · cases hres
          decide
        · refine ih _ res ?_ hres
          rw [List.any_append, hopen, Bool.true_or]

theorem anyOfLoop_settles
    (children : List Condition)
    (ih : ∀ c ∈ children,
      Settles (evaluate host ctx c) (evaluate host ctx' c)) :
    ∀ reasons reasons',
      CondResult.truth ⟨false, reasons⟩ ≤ CondResult.truth ⟨false, reasons'⟩ →
      Settles (anyOfLoop host ctx children reasons)
        (anyOfLoop host ctx' children reasons') := by
  have hnil (reasons : List String) :
      CondResult.truth ⟨false,
          if reasons.isEmpty then [reasonConditionFalse] else reasons⟩ =
        CondResult.truth ⟨false, reasons⟩ := by
    cases reasons with
    | nil => decide
    | cons _ _ => rfl
  induction children with
  | nil =>
      intro reasons reasons' hacc res hres
      cases hres
      refine ⟨_, rfl, ?_⟩
      rw [hnil, hnil]
      exact hacc
  | cons child children ihs =>
      intro reasons reasons' hacc res hres
      have hrest := ihs fun c hc => ih c (List.mem_cons_of_mem _ hc)
      unfold anyOfLoop at hres ⊢
      cases hchild : evaluate host ctx child with
      | error e =>
          rw [hchild] at hres
          cases hres
      | ok r =>
          rw [hchild] at hres
          obtain ⟨r', hr', hle⟩ := ih child List.mem_cons_self r hchild
          rw [hr']
          dsimp only at hres ⊢
          by_cases hok : r.ok = true
          · rw [if_pos hok] at hres
            rw [if_pos (CondResult.ok_of_truth_le hle hok)]
            cases hres
            exact ⟨_, rfl, le_refl _⟩
          · rw [if_neg hok] at hres
            rw [Bool.not_eq_true] at hok
            by_cases hok' : r'.ok = true
            · -- the child was open and now holds: the first loop cannot refute
              rw [if_pos hok']
              refine ⟨_, rfl, ?_⟩
              have hopen : r.reasons.any isOpenReason = true := by
                by_contra hclosed
                rw [Bool.not_eq_true] at hclosed
                have hno := CondResult.truth_eq_no_iff.mpr ⟨hok, hclosed⟩
                have heq := Trilean.eq_of_le hle (by rw [hno]; decide)
                rw [CondResult.truth_eq_yes_iff.mpr hok', hno] at heq
                cases heq
              have hne := anyOfLoop_ne_no children _ res
                (by rw [List.any_append, hopen, Bool.or_true]) hres
              cases htruth : res.truth with
              | yes => exact Or.inr rfl
              | no => exact absurd htruth hne
              | unknown => exact Or.inl rfl
            · rw [if_neg hok']
              rw [Bool.not_eq_true] at hok'
              refine hrest _ _ ?_ res hres
              rw [CondResult.truth_append (CondResult.clean_of_not_ok _) hok,
                CondResult.truth_append (CondResult.clean_of_not_ok _) hok']
              exact Trilean.and_mono hacc hle

theorem evaluate_settles
    (hnow : ctx'.nowWall = ctx.nowWall) (hext : Extends ctx ctx')
    (c : Condition) : Settles (evaluate host ctx c) (evaluate host ctx' c) := by
  induction c using Condition.induct with
  | hfact cond =>
      intro res hres
      unfold evaluate at hres ⊢
      cases hres
      exact ⟨_, rfl, truth_fact_mono hnow hext cond⟩
  | hwindow window =>
      intro res hres
      unfold evaluate TimeWindow.evaluate at hres ⊢
      rw [hnow]
      exact ⟨res, hres, le_refl _⟩
  | hall children ih =>
      unfold evaluate
      exact allOfLoop_settles children ih true [] true [] (fun _ => rfl)
        (fun _ => rfl) (le_refl _)
  | hany children ih =>
      unfold evaluate
      exact anyOfLoop_settles children ih [] [] (le_refl _)
  | hnot child ih =>
      intro res hres
      unfold evaluate at hres ⊢
      cases hchild : evaluate host ctx child with
      | error e =>
          rw [hchild] at hres
          cases hres
      | ok r =>
          rw [hchild] at hres
          cases hres
          obtain ⟨r', hr', hle⟩ := ih r hchild
          rw [hr']
          refine ⟨_, rfl, ?_⟩
          rw [CondResult.truth_negate (evaluate_clean hchild),
            CondResult.truth_negate (evaluate_clean hr')]
          exact Trilean.neg_mono hle

theorem evaluate_iterate_notCond
    {c : Condition} {res : CondResult} (hres : evaluate host ctx c = .ok res)
    (hopen : res.reasons.any isOpenReason = true) (depth : ℕ) :
    evaluate host ctx (Condition.notCond^[depth] c) =
      .ok ⟨false, res.reasons⟩ := by
  have hok : res.ok = false := by
    by_contra hok
    rw [Bool.not_eq_false] at hok
    rw [evaluate_clean hres hok] at hopen
    cases hopen
  induction depth with
  | zero =>
      rw [Function.iterate_zero_apply, hres, ← hok]
  | succ depth ih =>
      rw [Function.iterate_succ_apply']
      unfold evaluate
      rw [ih]
      simp only [negate, hopen, if_true]

/-- Adding or refreshing missing and stale facts under the same clock keeps a
satisfied condition satisfied and a definitely false one definitely false, and
no nesting of negations turns an open result into a satisfied one. -/
theorem evaluate_monotone
    (host : Host) (c : Condition) (ctx ctx' : EvalContext)
    (hnow : ctx'.nowWall = ctx.nowWall) (hext : Extends ctx ctx') :
    (∀ res, evaluate host ctx c = .ok res → res.ok = true →
      ∃ res', evaluate host ctx' c = .ok res' ∧ res'.ok = true) ∧
    (∀ res, evaluate host ctx c = .ok res → res.ok = false →
      res.reasons.any isOpenReason = false →
      ∃ res', evaluate host ctx' c = .ok res' ∧ res'.ok = false ∧
        res'.reasons.any isOpenReason = false) ∧
    (∀ res, evaluate host ctx c = .ok res →
      res.reasons.any isOpenReason = true →
      ∀ depth, evaluate host ctx (Condition.notCond^[depth] c) =
        .ok ⟨false, res.reasons⟩) := by
  have hsettles : Settles (evaluate host ctx c) (evaluate host ctx' c) :=
    evaluate_settles hnow hext c
  refine ⟨?_, ?_, ?_⟩
  · intro res hres hok
    obtain ⟨res', hres', hle⟩ := hsettles res hres
    exact ⟨res', hres', CondResult.ok_of_truth_le hle hok⟩
  · intro res hres hok hclosed
    obtain ⟨res', hres', hle⟩ := hsettles res hres
    have hno := CondResult.truth_eq_no_iff.mpr ⟨hok, hclosed⟩
    have heq := Trilean.eq_of_le hle (by rw [hno]; decide)
    exact ⟨res', hres', CondResult.truth_eq_no_iff.mp (heq.trans hno)⟩
  · intro res hres hopen depth
    exact evaluate_iterate_notCond hres hopen depth

def doorClosed : Condition :=
  .anyOf [
    .fact ⟨"temperature", .lt, .int 30, none, by decide⟩,
    .notCond (.fact ⟨"door", .eq, .str "open", none, by decide⟩)]

def doorFact : SituationFact :=
  ⟨"door", .str "closed", "2026-03-01T11:00:00Z", "sensor:door", none, none, 1,
    "fact_1"⟩

def temperatureFact : SituationFact :=
  ⟨"temperature", .int 35, "2026-03-01T11:00:00Z", "sensor:air", none, none, 1,
    "fact_2"⟩

/-- The condition holds through the door alone, and still holds once the
temperature is known and too high. -/
theorem evaluate_monotone_doorClosed :
    ∃ res', evaluate referenceHost
        ⟨(Dict.ofList [("door", doorFact)]).set "temperature" temperatureFact,
          "2026-03-01T12:00:00Z"⟩ doorClosed = .ok res' ∧ res'.ok = true := by
  have hmono := evaluate_monotone referenceHost doorClosed
    ⟨Dict.ofList [("door", doorFact)], "2026-03-01T12:00:00Z"⟩
    ⟨(Dict.ofList [("door", doorFact)]).set "temperature" temperatureFact,
      "2026-03-01T12:00:00Z"⟩ rfl (by
      intro name fact hget _
      by_cases hname : name = "temperature"
      · subst hname
        cases hget
      · exact (Dict.get?_set_of_ne _ _ hname).trans hget)
  exact hmono.1 ⟨true, []⟩ rfl rfl

end Condition

end Hydrogenuine.Lease
