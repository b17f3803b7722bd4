import Hydrogenuine.AutoApproval.Limits

/-!
# Which rules decide

The loop over the active rules ends at the first rule that does not answer with a
scope mismatch or a denial, whatever it answers.  A rule that has expired, that has a
lower risk ceiling, that has reached a limit or that is for dry runs ends it too, and a
restriction is passed over when the caller gives no domain or the item no verdict.

The rule at which the loop ends decides.  An item is approved as the rules say as long
as this rule is let through if and only if some active rule is satisfied in full.
-/

namespace Hydrogenuine.AutoApproval

open Support Hydrogenuine.Core OperatorQueue

/-! ## What a rule answers -/

def verdictPasses (rule : Rule) (verdict : String) : Bool :=
  startsWith (upper verdict) (upper (String.ofList
    (rule.requiredTrustBoundaryVerdict.toList.takeWhile (· ≠ '_'))))

section Answers

variable (host : Host) (w : World) (call : Call)

def ruleAnswer (rule : Rule) : Except PyError RuleDecision :=
  match parseExpiry host rule.expiresAt call.now with
  | .error err => .error err
  | .ok true => .ok .expired
  | .ok false =>
      .ok (judgeRule rule call.item call.domain
        (w.usage call.store rule.ruleId)).1

/-- The loop goes on after the rule, which has not expired: it is for another action
type, or below its risk ceiling for another surface or domain, or below its limits for
another verdict. -/
def PassedOver (rule : Rule) : Prop :=
  parseExpiry host rule.expiresAt call.now = .ok false ∧
    (rule.actionType ≠ call.item.actionType.text ∨
      riskWithinCeiling call.item.actionType rule.maxRiskClass = true ∧
        ((rule.allowedSurfaces ≠ [] ∧
            call.item.requestedSurface.text ∉ rule.allowedSurfaces) ∨
          (rule.allowedDomains ≠ [] ∧
            ∃ name ∈ call.domain, name ≠ "" ∧ name ∉ rule.allowedDomains) ∨
          (limitReached? rule (w.usage call.store rule.ruleId) = none ∧
            trustMismatch rule call.item = true)))

instance (rule : Rule) : Decidable (PassedOver host w call rule) :=
  inferInstanceAs (Decidable (_ ∧ _))

def decidingRule : Option Rule :=
  w.activeRules.find? fun rule => !decide (PassedOver host w call rule)

/-- The rule approves the item: it has not expired, is for its action type, has room
below its limits, is not for dry runs, and each of its restrictions passes what the
call gives it.  A domain and a verdict that are not given pass. -/
structure LetThrough (rule : Rule) : Prop where
  unexpired : parseExpiry host rule.expiresAt call.now = .ok false
  type : rule.actionType = call.item.actionType.text
  ceiling : riskWithinCeiling call.item.actionType rule.maxRiskClass = true
  surfaces : rule.allowedSurfaces ≠ [] →
    call.item.requestedSurface.text ∈ rule.allowedSurfaces
  domains : rule.allowedDomains ≠ [] → ∀ name, call.domain = some name →
    name ≠ "" → name ∈ rule.allowedDomains
  verdict : rule.requiredTrustBoundaryVerdict ≠ "" →
    ∀ verdict, call.item.trustBoundaryVerdict = some verdict →
      verdict ≠ "" → verdictPasses rule verdict = true
  limits : limitReached? rule (w.usage call.store rule.ruleId) = none
  effective : rule.dryRunOnly = false

/-- The rule is active, and every restriction that it carries is satisfied by what the
call gives. -/
structure Satisfied (rule : Rule) : Prop where
  active : rule.status = .active
  unexpired : parseExpiry host rule.expiresAt call.now = .ok false
  type : rule.actionType = call.item.actionType.text
  ceiling : riskWithinCeiling call.item.actionType rule.maxRiskClass = true
  surfaces : rule.allowedSurfaces ≠ [] →
    call.item.requestedSurface.text ∈ rule.allowedSurfaces
  domains : rule.allowedDomains ≠ [] →
    ∃ name, call.domain = some name ∧ name ∈ rule.allowedDomains
  verdict : rule.requiredTrustBoundaryVerdict ≠ "" →
    ∃ verdict, call.item.trustBoundaryVerdict = some verdict ∧
      verdictPasses rule verdict = true
  limits : limitReached? rule (w.usage call.store rule.ruleId) = none
  effective : rule.dryRunOnly = false

def Approves : Prop :=
  ∃ evaluation, outcome (evaluateForQueueItem host call) w = .ok evaluation ∧
    evaluation.decision = .allowed

end Answers

section Decisions

variable {host : Host} {w : World} {call : Call} {rule : Rule}

theorem Satisfied.letThrough (h : Satisfied host w call rule) :
    LetThrough host w call rule where
  unexpired := h.unexpired
  type := h.type
  ceiling := h.ceiling
  surfaces := h.surfaces
  domains := by
    intro hdomains name hname _
    obtain ⟨name', hname', hmem⟩ := h.domains hdomains
    rw [hname] at hname'
    exact Option.some.inj hname' ▸ hmem
  verdict := by
    intro hrequired verdict hverdict _
    obtain ⟨verdict', hverdict', hpasses⟩ := h.verdict hrequired
    rw [hverdict] at hverdict'
    exact Option.some.inj hverdict' ▸ hpasses
  limits := h.limits
  effective := h.effective

variable {domain : Option String} {item : QueueItem} {rules : List Rule}

theorem scopeRefusal?_eq_none_iff :
    scopeRefusal? rule item domain = none ↔
      rule.actionType = item.actionType.text ∧
        riskWithinCeiling item.actionType rule.maxRiskClass = true ∧
        (rule.allowedSurfaces ≠ [] →
          item.requestedSurface.text ∈ rule.allowedSurfaces) ∧
        (rule.allowedDomains ≠ [] → ∀ name, domain = some name → name ≠ "" →
          name ∈ rule.allowedDomains) := by
  unfold scopeRefusal?
  by_cases htype : rule.actionType = item.actionType.text
  · rw [if_neg (not_not_intro htype)]
    by_cases hceiling : riskWithinCeiling item.actionType rule.maxRiskClass = true
    · rw [if_neg (by simp [hceiling])]
      by_cases hsurfaces : rule.allowedSurfaces ≠ [] →
          item.requestedSurface.text ∈ rule.allowedSurfaces
      · rw [if_neg (by simpa using hsurfaces)]
        rw [and_iff_right htype, and_iff_right hceiling, and_iff_right hsurfaces]
        cases domain with
        | none => simp
        | some name => simp
      · rw [if_pos (by simpa using hsurfaces)]
        simp only [reduceCtorEq, hsurfaces, false_and, and_false]
    · rw [if_pos (by simpa using hceiling)]
      simp only [reduceCtorEq, hceiling, false_and, and_false]
  · rw [if_pos htype]
    simp only [reduceCtorEq, htype, false_and]

theorem scopeRefusal?_mismatch_iff :
    (∃ reason, scopeRefusal? rule item domain = some (.scopeMismatch, reason)) ↔
      rule.actionType ≠ item.actionType.text ∨
        riskWithinCeiling item.actionType rule.maxRiskClass = true ∧
          ((rule.allowedSurfaces ≠ [] ∧
              item.requestedSurface.text ∉ rule.allowedSurfaces) ∨
            (rule.allowedDomains ≠ [] ∧
              ∃ name ∈ domain, name ≠ "" ∧ name ∉ rule.allowedDomains)) := by
  unfold scopeRefusal?
  by_cases htype : rule.actionType = item.actionType.text
  · rw [if_neg (not_not_intro htype)]
    by_cases hceiling : riskWithinCeiling item.actionType rule.maxRiskClass = true
    · rw [if_neg (by simp [hceiling])]
      by_cases hsurfaces : rule.allowedSurfaces ≠ [] ∧
          item.requestedSurface.text ∉ rule.allowedSurfaces
      · rw [if_pos (by simpa using hsurfaces)]
        exact iff_of_true ⟨_, rfl⟩ (Or.inr ⟨hceiling, Or.inl hsurfaces⟩)
      · rw [if_neg (by simpa using hsurfaces)]
        simp only [htype, ne_eq, not_true_eq_false, false_or, hceiling, true_and]
        rw [or_iff_right hsurfaces]
        cases domain with
        | none => simp
        | some name => simp [and_assoc]
    · rw [if_pos (by simpa using hceiling)]
      simp [htype, hceiling]
  · rw [if_pos htype]
    exact iff_of_true ⟨_, rfl⟩ (Or.inl htype)

theorem judgeRule_denied_iff
    {u : Usage} :
    (judgeRule rule item domain u).1 = .denied ↔
      scopeRefusal? rule item domain = none ∧ limitReached? rule u = none ∧
        trustMismatch rule item = true := by
  unfold judgeRule
  split
  · next refusal hscope =>
      rcases scopeRefusal?_decision hscope with hdecision | hdecision
      · simp [hscope, hdecision]
      · simp [hscope, hdecision]
  · next hscope =>
      split
      · next limit hlimit => simp [hlimit]
      · next hlimit =>
          split_ifs with htrust hdry
          · simp [hscope, hlimit, htrust]
          · simp [htrust]
          · simp [htrust]

theorem judgeRule_mismatch_iff
    {u : Usage} :
    (judgeRule rule item domain u).1 = .scopeMismatch ↔
      ∃ reason, scopeRefusal? rule item domain = some (.scopeMismatch, reason) := by
  unfold judgeRule
  split
  · next refusal hscope =>
      obtain ⟨decision, reason⟩ := refusal
      simp [hscope]
  · next hscope =>
      split
      · next limit hlimit => simp [hscope]
      · next hlimit => split_ifs <;> simp [hscope]

theorem passedOver_iff :
    PassedOver host w call rule ↔
      ruleAnswer host w call rule = .ok .denied ∨
        ruleAnswer host w call rule = .ok .scopeMismatch := by
  have hlogic : ∀ {a c s d l t : Prop},
      ¬a ∨ c ∧ (s ∨ d ∨ l ∧ t) ↔
        ((a ∧ c ∧ ¬s ∧ ¬d) ∧ l ∧ t) ∨ (¬a ∨ c ∧ (s ∨ d)) := by
    intro a c s d l t
    by_cases ha : a
    · by_cases hs : s
      · simp [ha, hs]
      · by_cases hd : d
        · simp [ha, hs, hd]
        · simp [ha, hs, hd]
    · simp [ha]
  have hanswer : ∀ decision, decision ≠ .expired →
      (ruleAnswer host w call rule = .ok decision ↔
        parseExpiry host rule.expiresAt call.now = .ok false ∧
          (judgeRule rule call.item call.domain
            (w.usage call.store rule.ruleId)).1 = decision) := by
    intro decision hne
    unfold ruleAnswer
    split
    · next herror => simp [herror]
    · next hexpired => simp [hexpired, Ne.symm hne]
    · next hunexpired => simp [hunexpired]
  rw [hanswer _ (by decide), hanswer _ (by decide), ← and_or_left,
    judgeRule_denied_iff, judgeRule_mismatch_iff, scopeRefusal?_mismatch_iff,
    scopeRefusal?_eq_none_iff, PassedOver]
  refine and_congr_right fun _ => ?_
  have hsurfaces : (rule.allowedSurfaces ≠ [] →
      call.item.requestedSurface.text ∈ rule.allowedSurfaces) ↔
        ¬(rule.allowedSurfaces ≠ [] ∧
          call.item.requestedSurface.text ∉ rule.allowedSurfaces) :=
    not_and_not_right.symm
  have hdomains : (rule.allowedDomains ≠ [] → ∀ name, call.domain = some name →
      name ≠ "" → name ∈ rule.allowedDomains) ↔
        ¬(rule.allowedDomains ≠ [] ∧
          ∃ name ∈ call.domain, name ≠ "" ∧ name ∉ rule.allowedDomains) := by
    constructor
    · rintro hall ⟨hne, name, hname, htext, hnot⟩
      exact hnot (hall hne name hname htext)
    · intro hnone hne name hname htext
      by_contra hnot
      exact hnone ⟨hne, name, hname, htext, hnot⟩
  rw [hsurfaces, hdomains]
  exact hlogic

theorem trustMismatch_eq_false_iff :
    trustMismatch rule item = false ↔
      (rule.requiredTrustBoundaryVerdict ≠ "" →
        ∀ verdict, item.trustBoundaryVerdict = some verdict → verdict ≠ "" →
          verdictPasses rule verdict = true) := by
  unfold trustMismatch verdictPasses
  cases item.trustBoundaryVerdict with
  | none => simp
  | some verdict =>
      by_cases hverdict : verdict = ""
      · simp [hverdict]
      · by_cases hrequired : rule.requiredTrustBoundaryVerdict = ""
        · simp [hrequired]
        · simp [hverdict, hrequired]

theorem ruleAnswer_allowed_iff :
    ruleAnswer host w call rule = .ok .allowed ↔ LetThrough host w call rule := by
  have hjudge : (judgeRule rule call.item call.domain
      (w.usage call.store rule.ruleId)).1 = .allowed ↔
        scopeRefusal? rule call.item call.domain = none ∧
          limitReached? rule (w.usage call.store rule.ruleId) = none ∧
          trustMismatch rule call.item = false ∧ rule.dryRunOnly = false := by
    unfold judgeRule
    split
    · next refusal hscope =>
        rcases scopeRefusal?_decision hscope with hdecision | hdecision
        · simp [hscope, hdecision]
        · simp [hscope, hdecision]
    · next hscope =>
        split
        · next limit hlimit => simp [hlimit]
        · next hlimit =>
            split_ifs with htrust hdry
            · simp [htrust]
            · simp [hdry]
            · simp [hscope, hlimit, htrust, hdry]
  have hanswer : ruleAnswer host w call rule = .ok .allowed ↔
      parseExpiry host rule.expiresAt call.now = .ok false ∧
        (judgeRule rule call.item call.domain
          (w.usage call.store rule.ruleId)).1 = .allowed := by
    unfold ruleAnswer
    split
    · next herror => simp [herror]
    · next hexpired => simp [hexpired]
    · next hunexpired => simp [hunexpired]
  rw [hanswer, hjudge, scopeRefusal?_eq_none_iff, trustMismatch_eq_false_iff]
  constructor
  · rintro ⟨h₁, ⟨h₂, h₃, h₄, h₅⟩, h₆, h₇, h₈⟩
    exact ⟨h₁, h₂, h₃, h₄, h₅, h₇, h₆, h₈⟩
  · rintro ⟨h₁, h₂, h₃, h₄, h₅, h₇, h₆, h₈⟩
    exact ⟨h₁, ⟨h₂, h₃, h₄, h₅⟩, h₆, h₇, h₈⟩

/-! ## The loop -/

theorem replaceRule_of_mem (hmem : rule ∈ rules)
    (status : RuleStatus) :
    ∃ rules', replaceRule { rule with status } rules = some rules' := by
  induction rules with
  | nil => cases hmem
  | cons r rules ih =>
      unfold replaceRule
      by_cases hid : r.ruleId = rule.ruleId
      · rw [if_pos hid]
        exact ⟨_, rfl⟩
      · rcases List.mem_cons.mp hmem with rfl | hrest
        · exact absurd rfl hid
        · obtain ⟨rules', hreplace⟩ := ih hrest
          rw [if_neg hid, hreplace]
          exact ⟨_, rfl⟩

theorem ends_evaluateRule_answer
    (hmem : rule ∈ w.rules) (hactive : rule.status = .active) :
    Ends (evaluateRule host call rule) w
      (fun evaluation w' => ruleAnswer host w call rule = .ok evaluation.decision ∧
        (evaluation.decision ≠ .expired → w' = w))
      (fun err _ => ruleAnswer host w call rule = .error err) := by
  unfold evaluateRule
  rw [hactive, if_neg nofun]
  apply ends_bind
  refine ends_raising (fun expired hexpired => ?_) (fun err herror => ?_)
  · cases expired with
    | true =>
        obtain ⟨rules', hreplace⟩ := replaceRule_of_mem hmem .expired
        rw [if_pos rfl]
        apply ends_bind
        unfold updateRule
        apply ends_bind
        apply ends_get
        rw [hreplace]
        apply ends_modify
        apply ends_bind
        apply ends_modify
        apply ends_pure
        exact ⟨by rw [ruleAnswer, hexpired], fun hne => absurd rfl hne⟩
    | false =>
        apply ends_bind
        apply ends_get
        apply ends_pure
        exact ⟨by rw [ruleAnswer, hexpired]; rfl, fun _ => rfl⟩
  · rw [ruleAnswer, herror]

/-- The first of the rules that is not passed over is let through. -/
def FirstLetThrough (host : Host) (w : World) (call : Call) (rules : List Rule) :
    Prop :=
  ∃ rule, rules.find? (fun rule => !decide (PassedOver host w call rule)) =
    some rule ∧ LetThrough host w call rule

theorem firstLetThrough_cons_of_passedOver
    (hpassed : PassedOver host w call rule) :
    FirstLetThrough host w call (rule :: rules) ↔
      FirstLetThrough host w call rules := by
  unfold FirstLetThrough
  rw [List.find?_cons_of_neg (by simpa using hpassed)]

theorem firstLetThrough_cons_of_not_passedOver
    (hpassed : ¬PassedOver host w call rule) :
    FirstLetThrough host w call (rule :: rules) ↔
      LetThrough host w call rule := by
  unfold FirstLetThrough
  rw [List.find?_cons_of_pos (by simpa using hpassed)]
  simp

/-- The loop approves when the rule at which it ends is let through. -/
theorem ends_evaluateRules_allowed
    (hrules : ∀ rule ∈ rules, rule ∈ w.rules ∧ rule.status = .active) :
    Ends (evaluateRules host call rules) w
      (fun evaluation _ => evaluation.decision = .allowed ↔
        FirstLetThrough host w call rules)
      (fun _ _ => ¬FirstLetThrough host w call rules) := by
  induction rules with
  | nil =>
      apply ends_pure
      constructor
      · intro h
        cases h
      · rintro ⟨rule, hfind, -⟩
        cases hfind
  | cons rule rules ih =>
      obtain ⟨⟨hmem, hactive⟩, hrest⟩ := List.forall_mem_cons.mp hrules
      unfold evaluateRules
      apply ends_bind
      apply ends_mono (ends_evaluateRule_answer hmem hactive)
      · rintro ⟨decision, reason, ruleId⟩ w' ⟨hanswer, hsame⟩
        dsimp only at hanswer hsame ⊢
        have hpassed : PassedOver host w call rule ↔
            decision = .denied ∨ decision = .scopeMismatch := by
          rw [passedOver_iff, hanswer, Except.ok.injEq, Except.ok.injEq]
        split_ifs with hallowed hends
        · apply ends_bind
          apply ends_modify
          apply ends_bind
          apply ends_modify
          apply ends_pure
          subst hallowed
          have hnot : ¬PassedOver host w call rule := by
            rw [hpassed]
            decide
          rw [firstLetThrough_cons_of_not_passedOver hnot]
          exact iff_of_true rfl (ruleAnswer_allowed_iff.mp hanswer)
        · apply ends_pure
          have hnot : ¬PassedOver host w call rule := by
            rw [hpassed, not_or]
            exact hends
          rw [firstLetThrough_cons_of_not_passedOver hnot,
            ← ruleAnswer_allowed_iff, hanswer]
          exact ⟨fun h => absurd h hallowed, fun h => Except.ok.inj h⟩
        · have hover : decision = .denied ∨ decision = .scopeMismatch := by
            by_contra hneither
            exact hends (not_or.mp hneither)
          rw [firstLetThrough_cons_of_passedOver (hpassed.mpr hover)]
          have hworld : w' = w := by
            apply hsame
            rcases hover with rfl | rfl
            · decide
            · decide
          rw [hworld]
          exact ih hrest
      · intro err w' herror
        have hnot : ¬PassedOver host w call rule := by
          rw [passedOver_iff, herror]
          simp
        rw [firstLetThrough_cons_of_not_passedOver hnot,
          ← ruleAnswer_allowed_iff, herror]
        simp

theorem approves_iff (hreaches : call.Reaches) :
    Approves host w call ↔
      ∃ rule, decidingRule host w call = some rule ∧
        LetThrough host w call rule := by
  obtain ⟨⟨stopPanic, hcontrol, hpanic, hstop⟩, hclock, htype⟩ := hreaches
  have hrules : ∀ rule ∈ w.activeRules, rule ∈ w.rules ∧ rule.status = .active := by
    intro rule hrule
    obtain ⟨hmem, hactive⟩ := List.mem_filter.mp hrule
    exact ⟨hmem, of_decide_eq_true hactive⟩
  have hends : Ends (evaluateForQueueItem host call) w
      (fun evaluation _ => evaluation.decision = .allowed ↔
        FirstLetThrough host w call w.activeRules)
      (fun _ _ => ¬FirstLetThrough host w call w.activeRules) := by
    unfold evaluateForQueueItem
    rw [hcontrol]
    apply ends_bind
    apply ends_pure
    rw [hpanic, if_neg (by decide), hclock]
    dsimp only
    rw [hstop, if_neg (by decide), htype, if_neg (by decide)]
    apply ends_bind
    apply ends_get
    exact ends_evaluateRules_allowed hrules
  unfold Approves
  rcases hends.cases with ⟨evaluation, hout, hallowed⟩ | ⟨err, hout, hnot⟩
  · rw [hout]
    constructor
    · rintro ⟨evaluation', heq, hdecision⟩
      obtain rfl := Except.ok.inj heq
      exact hallowed.mp hdecision
    · exact fun hfirst => ⟨evaluation, rfl, hallowed.mpr hfirst⟩
  · rw [hout]
    constructor
    · rintro ⟨evaluation', heq, -⟩
      cases heq
    · exact fun hfirst => absurd hfirst hnot

theorem Satisfied.not_passedOver (h : Satisfied host w call rule) :
    ¬PassedOver host w call rule := by
  rw [passedOver_iff, ruleAnswer_allowed_iff.mpr h.letThrough]
  simp

/-- The item is approved exactly by the rules if and only if the deciding rule is let
through just when some rule is satisfied. -/
theorem approves_exactly_iff
    (host : Host) (w : World) (call : Call) (hreaches : call.Reaches) :
    (Approves host w call ↔ ∃ rule ∈ w.rules, Satisfied host w call rule) ↔
      ∀ rule, decidingRule host w call = some rule →
        (LetThrough host w call rule →
          ∃ rule' ∈ w.rules, Satisfied host w call rule') ∧
        (¬LetThrough host w call rule →
          ∀ rule' ∈ w.rules, ¬Satisfied host w call rule') := by
  rw [approves_iff hreaches]
  cases hdeciding : decidingRule host w call with
  | none =>
      -- a satisfied rule would not have been passed over
      have hnone : ¬∃ rule ∈ w.rules, Satisfied host w call rule := by
        rintro ⟨rule, hmem, hsatisfied⟩
        have hactive : rule ∈ w.activeRules :=
          List.mem_filter.mpr ⟨hmem, decide_eq_true hsatisfied.active⟩
        have hpassed := List.find?_eq_none.mp hdeciding rule hactive
        exact hsatisfied.not_passedOver (by simpa using hpassed)
      simp [hnone]
  | some rule =>
      by_cases hthrough : LetThrough host w call rule
      · simp [hthrough]
      · simp [hthrough]

end Decisions

/-! ## Concrete calls -/

theorem refreshCall_reaches : (refreshCall 0 0).Reaches where
  control := ⟨_, rfl, rfl, rfl⟩
  clock := by decide +kernel
  type := by decide

def greenCall : Call :=
  { refreshCall 0 0 with
    domain := some "example.org"
    item :=
      { queueItemId := "oqi-1"
        actionType := .statusRefresh
        requestedSurface := .exciton
        trustBoundaryVerdict := some "GREEN_TRUSTED" } }

theorem greenCall_reaches : greenCall.Reaches :=
  ⟨refreshCall_reaches.control, refreshCall_reaches.clock,
    refreshCall_reaches.type⟩

theorem hourlyRule_satisfied :
    Satisfied referenceHost hourlyWorld greenCall hourlyRule where
  active := rfl
  unexpired := by decide +kernel
  type := rfl
  ceiling := by decide
  surfaces := fun _ => by decide
  domains := fun hne => absurd rfl hne
  verdict := fun _ => ⟨"GREEN_TRUSTED", rfl, by decide +kernel⟩
  limits := by decide
  effective := rfl

/-- An item with everything that the only rule asks for is approved. -/
theorem greenCall_exactly :
    Approves referenceHost hourlyWorld greenCall ↔
      ∃ rule ∈ hourlyWorld.rules,
        Satisfied referenceHost hourlyWorld greenCall rule := by
  have hdeciding : decidingRule referenceHost hourlyWorld greenCall =
      some hourlyRule := by
    decide +kernel
  refine (approves_exactly_iff referenceHost hourlyWorld greenCall
    greenCall_reaches).mpr ?_
  intro rule hrule
  obtain rfl := Option.some.inj (hdeciding.symm.trans hrule)
  exact ⟨fun _ => ⟨hourlyRule, List.mem_singleton_self _, hourlyRule_satisfied⟩,
    fun hnot => absurd hourlyRule_satisfied.letThrough hnot⟩

def domainWorld : World :=
  { hourlyWorld with
    rules := [{ hourlyRule with allowedDomains := ["example.org"] }] }

def expiredWorld : World :=
  { hourlyWorld with
    rules :=
      [{ hourlyRule with
          ruleId := "aar-0"
          actionType := "proof_open"
          expiresAt := "2020-01-01T00:00:00Z" },
        hourlyRule] }

/-- Without a domain the rule for one domain approves, and after a rule that has
expired the satisfied rule does not. -/
theorem not_decided_exactly :
    ((refreshCall 0 0).Reaches ∧
      ¬(Approves referenceHost domainWorld (refreshCall 0 0) ↔
        ∃ rule ∈ domainWorld.rules,
          Satisfied referenceHost domainWorld (refreshCall 0 0) rule)) ∧
    greenCall.Reaches ∧
      ¬(Approves referenceHost expiredWorld greenCall ↔
        ∃ rule ∈ expiredWorld.rules,
          Satisfied referenceHost expiredWorld greenCall rule) := by
  refine ⟨⟨refreshCall_reaches, ?_⟩, greenCall_reaches, ?_⟩
  · intro hexact
    have happroved : Approves referenceHost domainWorld (refreshCall 0 0) :=
      ⟨⟨.allowed, "rule matched", some "aar-1"⟩, by decide +kernel, rfl⟩
    obtain ⟨rule, hmem, hsatisfied⟩ := hexact.mp happroved
    rw [List.mem_singleton.mp hmem] at hsatisfied
    obtain ⟨name, hname, -⟩ := hsatisfied.domains (List.cons_ne_nil _ _)
    cases hname
  · intro hexact
    obtain ⟨evaluation, hout, hallowed⟩ := hexact.mpr
      ⟨hourlyRule, List.mem_cons_of_mem _ (List.mem_singleton_self _),
        ⟨rfl, hourlyRule_satisfied.unexpired, rfl, hourlyRule_satisfied.ceiling,
          hourlyRule_satisfied.surfaces, hourlyRule_satisfied.domains,
          hourlyRule_satisfied.verdict, hourlyRule_satisfied.limits, rfl⟩⟩
    have hexpired : outcome (evaluateForQueueItem referenceHost greenCall)
        expiredWorld = .ok ⟨.expired, "rule expired", some "aar-0"⟩ := by
      decide +kernel
    rw [hout] at hexpired
    rw [Except.ok.inj hexpired] at hallowed
    cases hallowed

end Hydrogenuine.AutoApproval
