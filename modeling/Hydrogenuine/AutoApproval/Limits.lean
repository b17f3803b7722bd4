import Mathlib.Algebra.Order.Group.Int
import Hydrogenuine.AutoApproval.Evaluator
import Hydrogenuine.Core.ReferenceHost
import Hydrogenuine.Support.Machine
import Hydrogenuine.Support.SlidingWindow

/-!
# The limits of auto-approval rules

The limits of a rule are checked against the counters of a store object, which start at
zero in every store and never fall, while the approvals of all stores stand in the
receipts file.  Along the runs in which the two agree about the limits, no hour and no
day holds more approvals than the rule allows, and no rule is refused below its limits.
-/

namespace Hydrogenuine.AutoApproval

open Support Hydrogenuine.Core OperatorQueue

abbrev RuleStep := Step World Call (Except PyError Evaluation)

/-! ## Approvals -/

def hour : ℤ := 3600 * 10 ^ 6

def day : ℤ := 24 * hour

def Receipt.approves (ruleId : String) (receipt : Receipt) : Bool :=
  receipt.event = "evaluate" && receipt.decision = .allowed && receipt.ruleId = ruleId

def World.approvals (w : World) (ruleId : String) : List ℤ :=
  (w.receipts.filter (·.approves ruleId)).map (·.createdAt)

def approvedBy (ruleId : String) (e : RuleStep) : Bool :=
  match e.output with
  | .ok evaluation => evaluation.decision = .allowed && evaluation.ruleId = some ruleId
  | .error _ => false

def approvalTimes (ruleId : String) (tr : List RuleStep) : List ℤ :=
  (tr.filter (approvedBy ruleId)).map (·.input.now)

def runCount (ruleId : String) (store : ℕ) (tr : List RuleStep) : ℕ :=
  tr.countP fun e => approvedBy ruleId e && decide (e.input.store = store)

/-- The approvals of the last hour, or of the last day, have reached the limit. -/
def Rule.AtRate (rule : Rule) (now : ℤ) (times : List ℤ) : Prop :=
  rule.maxCountPerHour ≤ recent hour now times ∨ rule.maxCountPerDay ≤ recent day now times

/-- The limits of the rules hold along the run: no hour and no day holds too many
approvals, and a rule that is refused as rate limited has reached one of its limits. -/
structure WithinLimits (rules : List Rule) (tr : List RuleStep) : Prop where
  hour : ∀ rule ∈ rules,
    WithinRate hour rule.maxCountPerHour.toNat (approvalTimes rule.ruleId tr)
  day : ∀ rule ∈ rules,
    WithinRate day rule.maxCountPerDay.toNat (approvalTimes rule.ruleId tr)
  refusals : ∀ earlier e later, tr = earlier ++ e :: later →
    ∀ rule ∈ rules, ∀ reason, e.output = .ok ⟨.rateLimited, reason, some rule.ruleId⟩ →
      rule.maxCountPerRun ≤ runCount rule.ruleId e.input.store earlier ∨
        rule.AtRate e.input.now (approvalTimes rule.ruleId earlier)

/-! ## Counters that agree with the receipts -/

/-- The call is not refused before the rules are looked at. -/
structure Call.Reaches (call : Call) : Prop where
  control : ∃ stopPanic, loadStopPanicState call.control call.workspace none =
    .ok stopPanic ∧ stopPanic.panicActive = false ∧ stopPanic.stopActive = false
  clock : clockRefusal? call.item.timeConfidence = none
  type : isForbiddenRuleActionType call.item.actionType = false

/-- Unless its run limit is reached, the counters of the store refuse the rule only where
the receipts do, and, if nothing else stands against an approval, wherever they do. -/
def RuleAgrees (w : World) (call : Call) (rule : Rule) : Prop :=
  let u := w.usage call.store rule.ruleId
  u.run < rule.maxCountPerRun →
    ((rule.maxCountPerHour ≤ u.hour ∨ rule.maxCountPerDay ≤ u.day) →
      rule.AtRate call.now (w.approvals rule.ruleId)) ∧
    (trustMismatch rule call.item = false → rule.dryRunOnly = false →
      rule.AtRate call.now (w.approvals rule.ruleId) →
        rule.maxCountPerHour ≤ u.hour ∨ rule.maxCountPerDay ≤ u.day)

/-- The counters agree with the receipts for every rule that the call comes to. -/
def CountersAgree (host : Host) (w : World) (call : Call) : List Rule → Prop
  | [] => True
  | rule :: rules =>
      parseExpiry host rule.expiresAt call.now = .ok false →
        (scopeRefusal? rule call.item call.domain = none → RuleAgrees w call rule) ∧
        ((judgeRule rule call.item call.domain (w.usage call.store rule.ruleId)).1 ∈
            [RuleDecision.denied, .scopeMismatch] →
          CountersAgree host w call rules)

/-- The counters of the store that is asked agree with the receipts file. -/
def Agreed (host : Host) (w : World) (call : Call) : Prop :=
  call.Reaches → CountersAgree host w call w.activeRules

/-! ## One call -/

def Rule.terms (rule : Rule) : Rule := { rule with status := .active }

/-- A call that approves nothing leaves the counters, the approvals and the terms of the
rules. -/
structure Unapproved (w w' : World) : Prop where
  usage : w'.usage = w.usage
  approvals : ∀ ruleId, w'.approvals ruleId = w.approvals ruleId
  terms : w'.rules.map Rule.terms = w.rules.map Rule.terms

theorem Unapproved.refl (w : World) : Unapproved w w := ⟨rfl, fun _ => rfl, rfl⟩

/-- An approval by the rule. -/
structure Approved (w w' : World) (call : Call) (ruleId : String) : Prop where
  usage : w'.usage = Function.update w.usage call.store
    (Function.update (w.usage call.store) ruleId (w.usage call.store ruleId).incremented)
  approvals : ∀ id, w'.approvals id =
    if id = ruleId then w.approvals id ++ [call.now] else w.approvals id
  terms : w'.rules.map Rule.terms = w.rules.map Rule.terms

/-- What a call may answer, and what becomes of the world with it. -/
def Answers (w : World) (call : Call) (evaluation : Evaluation) (w' : World) : Prop :=
  (evaluation.decision ≠ .allowed ∧ Unapproved w w' ∧
    (evaluation.decision = .rateLimited →
      ∃ rule ∈ w.rules, evaluation.ruleId = some rule.ruleId ∧
        (rule.maxCountPerRun ≤ (w.usage call.store rule.ruleId).run ∨
          rule.AtRate call.now (w.approvals rule.ruleId)))) ∨
  ∃ rule ∈ w.rules, evaluation.decision = .allowed ∧
    evaluation.ruleId = some rule.ruleId ∧
    ¬ rule.AtRate call.now (w.approvals rule.ruleId) ∧ Approved w w' call rule.ruleId

section OneCall

variable {host : Host} {w : World} {call : Call} {rule : Rule} {rules : List Rule}

theorem replaceRule_terms
    (hmem : rule ∈ rules) (hnodup : (rules.map Rule.ruleId).Nodup) (status : RuleStatus) :
    ∃ rules', replaceRule { rule with status } rules = some rules' ∧
      rules'.map Rule.terms = rules.map Rule.terms := by
  induction rules with
  | nil => cases hmem
  | cons r rules ih =>
      rw [List.map_cons, List.nodup_cons] at hnodup
      unfold replaceRule
      rcases List.mem_cons.mp hmem with rfl | hrest
      · rw [if_pos rfl]
        exact ⟨_, rfl, rfl⟩
      · have hne : r.ruleId ≠ rule.ruleId := fun hsame =>
          hnodup.1 (hsame ▸ List.mem_map_of_mem hrest)
        obtain ⟨rules', hreplace, hterms⟩ := ih hrest hnodup.2
        rw [if_neg hne, hreplace]
        exact ⟨_, rfl, congrArg (r.terms :: ·) hterms⟩

theorem scopeRefusal?_decision {domain : Option String} {item : QueueItem}
    {refusal : RuleDecision × String} (h : scopeRefusal? rule item domain = some refusal) :
    refusal.1 = .scopeMismatch ∨ refusal.1 = .riskTooHigh := by
  unfold scopeRefusal? at h
  split_ifs at h
  · exact Or.inl (Option.some.inj h ▸ rfl)
  · exact Or.inr (Option.some.inj h ▸ rfl)
  · exact Or.inl (Option.some.inj h ▸ rfl)
  · split at h
    · split_ifs at h
      exact Or.inl (Option.some.inj h ▸ rfl)
    · cases h

theorem limitReached?_eq_none_iff {u : Usage} :
    limitReached? rule u = none ↔
      u.run < rule.maxCountPerRun ∧ u.hour < rule.maxCountPerHour ∧
        u.day < rule.maxCountPerDay := by
  unfold limitReached?
  split_ifs <;> simp_all

theorem judgeRule_cases
    (hagrees : scopeRefusal? rule call.item call.domain = none → RuleAgrees w call rule)
    {decision : RuleDecision} {reason : String}
    (hjudge : judgeRule rule call.item call.domain (w.usage call.store rule.ruleId) =
      (decision, reason)) :
    (decision = .rateLimited →
      rule.maxCountPerRun ≤ (w.usage call.store rule.ruleId).run ∨
        rule.AtRate call.now (w.approvals rule.ruleId)) ∧
    (decision = .allowed → ¬ rule.AtRate call.now (w.approvals rule.ruleId)) := by
  unfold judgeRule at hjudge
  split at hjudge
  next refusal hscope =>
    have hdecision : decision = .scopeMismatch ∨ decision = .riskTooHigh := by
      have h := scopeRefusal?_decision hscope
      rwa [hjudge] at h
    rcases hdecision with rfl | rfl <;> exact ⟨nofun, nofun⟩
  next hscope =>
    have hrule := hagrees hscope
    split at hjudge
    next limit hlimit =>
      obtain ⟨rfl, -⟩ := Prod.mk.inj hjudge
      refine ⟨fun _ => ?_, nofun⟩
      by_cases hrun : rule.maxCountPerRun ≤ (w.usage call.store rule.ruleId).run
      · exact Or.inl hrun
      · refine Or.inr ((hrule (not_le.mp hrun)).1 ?_)
        by_contra hbelow
        rw [not_or, not_le, not_le] at hbelow
        rw [limitReached?_eq_none_iff.mpr ⟨not_le.mp hrun, hbelow⟩] at hlimit
        cases hlimit
    next hlimit =>
      obtain ⟨hrun, hhour, hday⟩ := limitReached?_eq_none_iff.mp hlimit
      split_ifs at hjudge with htrust hdry
      · obtain ⟨rfl, -⟩ := Prod.mk.inj hjudge
        exact ⟨nofun, nofun⟩
      · obtain ⟨rfl, -⟩ := Prod.mk.inj hjudge
        exact ⟨nofun, nofun⟩
      · obtain ⟨rfl, -⟩ := Prod.mk.inj hjudge
        refine ⟨nofun, fun _ hrate => ?_⟩
        rcases (hrule hrun).2 (Bool.eq_false_iff.mpr htrust) (Bool.eq_false_iff.mpr hdry)
          hrate with hfull | hfull
        · exact absurd hfull (not_le.mpr hhour)
        · exact absurd hfull (not_le.mpr hday)

theorem ends_evaluateRule
    (hmem : rule ∈ w.rules) (hnodup : (w.rules.map Rule.ruleId).Nodup)
    (hactive : rule.status = .active) :
    Ends (evaluateRule host call rule) w
      (fun evaluation w' =>
        evaluation.ruleId = some rule.ruleId ∧
        ((evaluation.decision = .expired ∧ Unapproved w w') ∨
          (w' = w ∧ parseExpiry host rule.expiresAt call.now = .ok false ∧
            judgeRule rule call.item call.domain (w.usage call.store rule.ruleId) =
              (evaluation.decision, evaluation.reason))))
      (fun _ w' => w' = w) := by
  unfold evaluateRule
  rw [hactive, if_neg nofun]
  apply ends_bind
  refine ends_raising (fun expired hexpired => ?_) (fun e herror => rfl)
  cases expired with
  | true =>
      obtain ⟨rules', hreplace, hterms⟩ := replaceRule_terms hmem hnodup .expired
      rw [if_pos rfl]
      apply ends_bind
      unfold updateRule
      apply ends_bind
      apply ends_get
      rw [hreplace]
      apply ends_modify
      apply ends_bind
      apply ends_modify
      apply ends_pure
      refine ⟨rfl, Or.inl ⟨rfl, rfl, fun id => ?_, hterms⟩⟩
      -- the receipt of the expiry is no approval
      unfold World.approvals
      rw [List.filter_append, List.map_append]
      exact List.append_nil _
  | false =>
      apply ends_bind
      apply ends_get
      apply ends_pure
      exact ⟨rfl, Or.inr ⟨rfl, hexpired, rfl⟩⟩

theorem approved_of_receipt (ruleId reason : String) :
    Approved w
      { w with
        receipts := w.receipts ++ [
          { ruleId
            event := "evaluate"
            decision := .allowed
            reason
            createdAt := call.now
            queueItemId := some call.item.queueItemId }]
        usage := Function.update w.usage call.store (Function.update (w.usage call.store)
          ruleId (w.usage call.store ruleId).incremented) } call ruleId where
  usage := rfl
  approvals := fun id => by
    unfold World.approvals
    rw [List.filter_append, List.map_append]
    by_cases hid : id = ruleId
    · rw [if_pos hid, hid]
      simp [Receipt.approves]
    · rw [if_neg hid]
      simp [Receipt.approves, Ne.symm hid]
  terms := rfl

theorem ends_evaluateRules
    (hnodup : (w.rules.map Rule.ruleId).Nodup)
    (hrules : ∀ rule ∈ rules, rule ∈ w.rules ∧ rule.status = .active)
    (hagree : CountersAgree host w call rules) :
    Ends (evaluateRules host call rules) w (Answers w call) (fun _ w' => w' = w) := by
  induction rules with
  | nil => exact ends_pure (Or.inl ⟨nofun, Unapproved.refl w, nofun⟩)
  | cons rule rules ih =>
      obtain ⟨⟨hmem, hactive⟩, hrest⟩ := List.forall_mem_cons.mp hrules
      unfold evaluateRules
      apply ends_bind
      apply ends_mono (ends_evaluateRule hmem hnodup hactive) ?_ (fun _ _ h => h)
      rintro ⟨decision, reason, ruleId⟩ w' ⟨rfl, ⟨rfl, hunapproved⟩ | ⟨rfl, hexpiry, hjudge⟩⟩
      · apply ends_pure
        exact Or.inl ⟨nofun, hunapproved, nofun⟩
      · obtain ⟨hrule, hpasses⟩ := hagree hexpiry
        obtain ⟨hlimited, hallowed⟩ := judgeRule_cases hrule hjudge
        dsimp only
        split_ifs with hallow hanswers
        · apply ends_bind
          apply ends_modify
          apply ends_bind
          apply ends_modify
          apply ends_pure
          subst hallow
          exact Or.inr ⟨rule, hmem, rfl, rfl, hallowed rfl, approved_of_receipt _ _⟩
        · apply ends_pure
          exact Or.inl ⟨hallow, Unapproved.refl _, fun h => ⟨rule, hmem, rfl, hlimited h⟩⟩
        · apply ih hrest
          apply hpasses
          rw [hjudge, List.mem_cons, List.mem_singleton]
          by_contra hanswer
          exact hanswers (not_or.mp hanswer)

theorem ends_evaluateForQueueItem
    (hnodup : (w.rules.map Rule.ruleId).Nodup) (hagreed : Agreed host w call) :
    Ends (evaluateForQueueItem host call) w (Answers w call) (fun _ w' => w' = w) := by
  have hquiet (evaluation : Evaluation) (hallowed : evaluation.decision ≠ .allowed)
      (hlimited : evaluation.decision ≠ .rateLimited) : Answers w call evaluation w :=
    Or.inl ⟨hallowed, Unapproved.refl w, fun h => absurd h hlimited⟩
  unfold evaluateForQueueItem
  apply ends_bind
  refine ends_raising (fun stopPanic hcontrol => ?_) (fun _ _ => rfl)
  by_cases hpanic : stopPanic.panicActive = true
  · rw [if_pos hpanic]
    exact ends_pure (hquiet _ nofun nofun)
  rw [if_neg hpanic]
  split
  next reason hclock => exact ends_pure (hquiet _ nofun nofun)
  next hclock =>
    split_ifs with hstop htype
    · exact ends_pure (hquiet _ nofun nofun)
    · exact ends_pure (hquiet _ nofun nofun)
    · apply ends_bind
      apply ends_get
      apply ends_evaluateRules hnodup
      · intro rule hrule
        obtain ⟨hmem, hactive⟩ := List.mem_filter.mp hrule
        exact ⟨hmem, of_decide_eq_true hactive⟩
      · exact hagreed ⟨⟨stopPanic, hcontrol, Bool.eq_false_iff.mpr hpanic,
          Bool.eq_false_iff.mpr hstop⟩, Option.eq_none_iff_forall_ne_some.mpr hclock,
          Bool.eq_false_iff.mpr htype⟩

end OneCall

/-! ## Runs -/

/-- Rules that have not been used: no two have the same identifier, there are no
approvals in the receipts file, and every store is as it was opened. -/
structure World.Fresh (w : World) : Prop where
  distinct : (w.rules.map Rule.ruleId).Nodup
  unapproved : ∀ ruleId, w.approvals ruleId = []
  opened : ∀ store ruleId, w.usage store ruleId = {}

/-- What the world holds after the steps of a run from `w₀`. -/
structure Tracked (w₀ : World) (tr : List RuleStep) (w : World) : Prop where
  terms : w.rules.map Rule.terms = w₀.rules.map Rule.terms
  approvals : ∀ ruleId, w.approvals ruleId = approvalTimes ruleId tr
  usage : ∀ store ruleId, (w.usage store ruleId).run = runCount ruleId store tr

section Runs

variable {host : Host} {w₀ w : World} {call : Call} {tr : List RuleStep} {e : RuleStep}
  {rule : Rule} {ruleId : String} {store : ℕ}

theorem approvalTimes_snoc :
    approvalTimes ruleId (tr ++ [e]) =
      approvalTimes ruleId tr ++ if approvedBy ruleId e then [e.input.now] else [] := by
  unfold approvalTimes
  rw [List.filter_append, List.map_append]
  cases h : approvedBy ruleId e <;> simp [h]

theorem runCount_snoc :
    runCount ruleId store (tr ++ [e]) = runCount ruleId store tr +
      if approvedBy ruleId e && decide (e.input.store = store) then 1 else 0 := by
  unfold runCount
  rw [List.countP_append, List.countP_singleton]

theorem Tracked.distinct (htracked : Tracked w₀ tr w) (hfresh : w₀.Fresh) :
    (w.rules.map Rule.ruleId).Nodup := by
  have hids := congrArg (List.map Rule.ruleId) htracked.terms
  rw [List.map_map, List.map_map] at hids
  exact hids ▸ hfresh.distinct

theorem Tracked.limits
    (htracked : Tracked w₀ tr w) (hfresh : w₀.Fresh) {rule₀ : Rule}
    (hrule₀ : rule₀ ∈ w₀.rules) (hrule : rule ∈ w.rules)
    (hsame : rule.ruleId = rule₀.ruleId) :
    rule.AtRate = rule₀.AtRate ∧ rule.maxCountPerRun = rule₀.maxCountPerRun := by
  have hmem : rule.terms ∈ w₀.rules.map Rule.terms := by
    rw [← htracked.terms]
    exact List.mem_map_of_mem hrule
  obtain ⟨rule', hrule', hterms⟩ := List.mem_map.mp hmem
  have hids : rule'.ruleId = rule₀.ruleId := (congrArg Rule.ruleId hterms).trans hsame
  have hrules := List.inj_on_of_nodup_map hfresh.distinct hrule' hrule₀ hids
  have hrule' : rule.terms = rule₀.terms := by rw [← hterms, hrules]
  have hrate : rule.terms.AtRate = rule₀.terms.AtRate := congrArg Rule.AtRate hrule'
  have hrun : rule.terms.maxCountPerRun = rule₀.terms.maxCountPerRun :=
    congrArg Rule.maxCountPerRun hrule'
  exact ⟨hrate, hrun⟩

theorem Tracked.unapproved {w' : World}
    (htracked : Tracked w₀ tr w) (hunapproved : Unapproved w w')
    (hnone : ∀ ruleId, approvedBy ruleId e = false) : Tracked w₀ (tr ++ [e]) w' where
  terms := hunapproved.terms.trans htracked.terms
  approvals := fun ruleId => by
    rw [hunapproved.approvals, htracked.approvals, approvalTimes_snoc, hnone]
    exact (List.append_nil _).symm
  usage := fun store ruleId => by
    rw [hunapproved.usage, htracked.usage, runCount_snoc, hnone]
    rfl

theorem Tracked.approved {w' : World}
    (htracked : Tracked w₀ tr w) (happroved : Approved w w' e.input ruleId)
    (hone : ∀ id, approvedBy id e = decide (id = ruleId)) : Tracked w₀ (tr ++ [e]) w' where
  terms := happroved.terms.trans htracked.terms
  approvals := fun id => by
    rw [happroved.approvals, htracked.approvals, approvalTimes_snoc, hone]
    by_cases hid : id = ruleId <;> simp [hid]
  usage := fun store id => by
    rw [happroved.usage, runCount_snoc, hone, ← htracked.usage]
    by_cases hstore : e.input.store = store
    · subst hstore
      rw [Function.update_self]
      by_cases hid : id = ruleId
      · subst hid
        rw [Function.update_self]
        simp [Usage.incremented]
      · rw [Function.update_of_ne hid]
        simp [hid]
    · rw [Function.update_of_ne (Ne.symm hstore)]
      simp [hstore]

/-- One more call: what it approves is counted, in the receipts file and in the store. -/
theorem Tracked.step
    (htracked : Tracked w₀ tr w) (hfresh : w₀.Fresh) (hagreed : Agreed host w call) :
    Tracked w₀ (tr ++ [(rulesMachine host).stepAt w call])
        ((rulesMachine host).step w call).1 ∧
      (∀ rule₀ ∈ w₀.rules,
        approvedBy rule₀.ruleId ((rulesMachine host).stepAt w call) = true →
          ¬ rule₀.AtRate call.now (approvalTimes rule₀.ruleId tr)) ∧
      ∀ rule₀ ∈ w₀.rules, ∀ reason,
        ((rulesMachine host).stepAt w call).output =
            .ok ⟨.rateLimited, reason, some rule₀.ruleId⟩ →
          rule₀.maxCountPerRun ≤ runCount rule₀.ruleId call.store tr ∨
            rule₀.AtRate call.now (approvalTimes rule₀.ruleId tr) := by
  have houtput : ((rulesMachine host).stepAt w call).output =
      outcome (evaluateForQueueItem host call) w := rfl
  rcases (ends_evaluateForQueueItem (htracked.distinct hfresh) hagreed).cases with
    ⟨evaluation, hout, hanswers⟩ | ⟨error, hout, hworld⟩
  · have hby (id : String) : approvedBy id ((rulesMachine host).stepAt w call) =
        (decide (evaluation.decision = .allowed) &&
          decide (evaluation.ruleId = some id)) := by
      unfold approvedBy
      rw [houtput, hout]
    rcases hanswers with ⟨hnot, hunapproved, hlimited⟩ |
      ⟨rule, hrule, hallowed, hid, hroom, happroved⟩
    · have hnone (id : String) :
          approvedBy id ((rulesMachine host).stepAt w call) = false := by
        rw [hby, decide_eq_false hnot, Bool.false_and]
      refine ⟨htracked.unapproved hunapproved hnone, ?_, ?_⟩
      · intro rule₀ _ happroved
        rw [hnone] at happroved
        cases happroved
      · intro rule₀ hrule₀ reason hrefused
        rw [houtput, hout] at hrefused
        obtain rfl := Except.ok.inj hrefused
        obtain ⟨rule, hrule, hid, hlimit⟩ := hlimited rfl
        have hsame : rule.ruleId = rule₀.ruleId := (Option.some.inj hid).symm
        obtain ⟨hrate, hrun⟩ := htracked.limits hfresh hrule₀ hrule hsame
        rwa [htracked.usage, htracked.approvals, hsame, hrate, hrun] at hlimit
    · have hone (id : String) : approvedBy id ((rulesMachine host).stepAt w call) =
          decide (id = rule.ruleId) := by
        rw [hby, decide_eq_true hallowed, Bool.true_and, hid]
        exact decide_eq_decide.mpr ⟨fun h => (Option.some.inj h).symm, fun h => h ▸ rfl⟩
      refine ⟨htracked.approved happroved hone, ?_, ?_⟩
      · intro rule₀ hrule₀ hby₀
        rw [hone, decide_eq_true_iff] at hby₀
        obtain ⟨hrate, -⟩ := htracked.limits hfresh hrule₀ hrule hby₀.symm
        rwa [htracked.approvals, ← hby₀, hrate] at hroom
      · intro rule₀ _ reason hrefused
        rw [houtput, hout] at hrefused
        obtain rfl := Except.ok.inj hrefused
        cases hallowed
  · have hnone (id : String) :
        approvedBy id ((rulesMachine host).stepAt w call) = false := by
      unfold approvedBy
      rw [houtput, hout]
    have hsame : ((rulesMachine host).step w call).1 = w := hworld
    refine ⟨?_, ?_, ?_⟩
    · rw [hsame]
      exact htracked.unapproved (Unapproved.refl w) hnone
    · intro rule₀ _ happroved
      rw [hnone] at happroved
      cases happroved
    · intro rule₀ _ reason hrefused
      rw [houtput, hout] at hrefused
      cases hrefused

theorem withinRate_snoc {len : ℤ} {limit : ℤ}
    (h : WithinRate len limit.toNat (approvalTimes ruleId tr))
    (hroom : approvedBy ruleId e = true →
      ¬ limit ≤ recent len e.input.now (approvalTimes ruleId tr)) :
    WithinRate len limit.toNat (approvalTimes ruleId (tr ++ [e])) := by
  rw [approvalTimes_snoc]
  split_ifs with happroved
  · apply h.concat
    have hlt := not_le.mp (hroom happroved)
    omega
  · rw [List.append_nil]
    exact h

/-- The limits of every rule hold along every run whose stores agree with the receipts. -/
theorem rules_withinLimits
    (host : Host) (w₀ : World) (hfresh : w₀.Fresh) (calls : List Call)
    (hguard : (rulesMachine host).Guarded (Agreed host) w₀ calls) :
    WithinLimits w₀.rules ((rulesMachine host).trace w₀ calls) := by
  have hinit : Tracked w₀ [] w₀ :=
    ⟨rfl, hfresh.unapproved, fun store ruleId => congrArg Usage.run (hfresh.opened _ _)⟩
  have hrates := Machine.invariant_of_guarded
    (fun tr w => Tracked w₀ tr w ∧ ∀ rule ∈ w₀.rules,
      WithinRate hour rule.maxCountPerHour.toNat (approvalTimes rule.ruleId tr) ∧
        WithinRate day rule.maxCountPerDay.toNat (approvalTimes rule.ruleId tr))
    ⟨hinit, fun _ _ => ⟨withinRate_nil, withinRate_nil⟩⟩
    (fun tr w call ⟨htracked, hwithin⟩ hagreed => by
      obtain ⟨hnext, hroom, -⟩ := htracked.step hfresh hagreed
      refine ⟨hnext, fun rule hrule => ⟨?_, ?_⟩⟩
      · exact withinRate_snoc (hwithin rule hrule).1 fun happroved hfull =>
          hroom rule hrule happroved (Or.inl hfull)
      · exact withinRate_snoc (hwithin rule hrule).2 fun happroved hfull =>
          hroom rule hrule happroved (Or.inr hfull)) calls hguard
  refine ⟨fun rule hrule => (hrates.2 rule hrule).1,
    fun rule hrule => (hrates.2 rule hrule).2, ?_⟩
  exact Machine.forall_split_of_guarded (Tracked w₀) (fun earlier e =>
      ∀ rule ∈ w₀.rules, ∀ reason, e.output = .ok ⟨.rateLimited, reason, some rule.ruleId⟩ →
        rule.maxCountPerRun ≤ runCount rule.ruleId e.input.store earlier ∨
          rule.AtRate e.input.now (approvalTimes rule.ruleId earlier)) hinit
    (fun tr w call htracked hagreed => by
      obtain ⟨hnext, -, hrefused⟩ := htracked.step hfresh hagreed
      exact ⟨hnext, hrefused⟩) hguard

def hourlyRule : Rule where
  ruleId := "aar-1"
  actionType := "status_refresh"
  allowedSurfaces := ["exciton"]
  maxRiskClass := "read_only"
  expiresAt := "2030-01-01T00:00:00Z"
  maxCountPerRun := 5
  maxCountPerHour := 1

def hourlyWorld : World where
  rules := [hourlyRule]
  receipts := []
  usage := fun _ _ => {}

theorem hourlyWorld_fresh : hourlyWorld.Fresh where
  distinct := List.nodup_singleton _
  unapproved := fun _ => rfl
  opened := fun _ _ => rfl

def refreshCall (store : ℕ) (minute : ℤ) : Call where
  store
  workspace := "/srv"
  item :=
    { queueItemId := "oqi-1"
      actionType := .statusRefresh
      requestedSurface := .exciton }
  now := 1700000000000000 + minute * 60000000
  control :=
    { stop := fun _ => false
      panic := fun _ => false
      controlState := fun _ => .absent
      runControl := fun _ => none }

def hourlyUsed : World := (rulesMachine referenceHost).final hourlyWorld [refreshCall 0 0]

/-- Two calls on one store within an hour: the second is refused. -/
theorem rules_withinLimits_refused :
    WithinLimits hourlyWorld.rules
      ((rulesMachine referenceHost).trace hourlyWorld
        [refreshCall 0 0, refreshCall 0 1]) := by
  refine rules_withinLimits referenceHost hourlyWorld hourlyWorld_fresh _
    (Machine.guarded_cons.mpr ⟨fun _ _ => ⟨fun _ => ?_, fun _ => trivial⟩,
      Machine.guarded_cons.mpr ⟨fun _ => ?_, Machine.guarded_nil⟩⟩)
  · intro _
    have hnone : ¬ hourlyRule.AtRate (refreshCall 0 0).now (hourlyWorld.approvals "aar-1") :=
      not_or.mpr ⟨by decide +kernel, by decide +kernel⟩
    exact ⟨fun h => absurd h (by decide), fun _ _ h => absurd h hnone⟩
  · change CountersAgree referenceHost hourlyUsed (refreshCall 0 1) hourlyUsed.activeRules
    have hrules : hourlyUsed.activeRules = [hourlyRule] := by decide +kernel
    have hcounter : hourlyRule.maxCountPerHour ≤ (hourlyUsed.usage 0 "aar-1").hour := by
      decide +kernel
    have hreceipts : hourlyRule.maxCountPerHour ≤
        recent hour (refreshCall 0 1).now (hourlyUsed.approvals "aar-1") := by
      decide +kernel
    rw [hrules]
    intro _
    exact ⟨fun _ _ => ⟨fun _ => Or.inl hreceipts, fun _ _ _ => Or.inl hcounter⟩,
      fun _ => trivial⟩

/-- Two stores on one file, as after a restart: both approve within the hour. -/
theorem restarted_not_withinLimits :
    ¬ WithinLimits hourlyWorld.rules
      ((rulesMachine referenceHost).trace hourlyWorld
        [refreshCall 0 0, refreshCall 1 1]) := by
  intro h
  have hwindow := h.hour hourlyRule (List.mem_singleton_self _) 1700000000000000
  have hcount : ¬ (approvalTimes hourlyRule.ruleId
      ((rulesMachine referenceHost).trace hourlyWorld
        [refreshCall 0 0, refreshCall 1 1])).countP
      (fun a => decide (1700000000000000 ≤ a ∧ a < 1700000000000000 + hour)) ≤
        hourlyRule.maxCountPerHour.toNat := by
    decide +kernel
  exact hcount hwindow

end Runs

end Hydrogenuine.AutoApproval
