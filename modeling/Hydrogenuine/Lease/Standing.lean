import Hydrogenuine.Lease.System
import Hydrogenuine.Lease.Truth

/-!
# The standing verdict and the clock

`on_fact_changed` disregards the reasons that time windows give, so that a
window by itself neither suspends a lease nor lets it stand.  That is a matter
of reasons, not of truth values: below `AnyOf` and `Not` a window still decides
whether other reasons are reported at all.  The verdict is independent of the
clock exactly as far as these guarded windows do not open or close.
-/

namespace Hydrogenuine.Lease

open Support Hydrogenuine.Core Gpp

namespace Condition

/-! ## Windows and their positions -/

mutual

def windows : Condition → List TimeWindow
  | .fact _ => []
  | .timeWindow window => [window]
  | .allOf children => windowsOf children
  | .anyOf children => windowsOf children
  | .notCond child => child.windows

def windowsOf : List Condition → List TimeWindow
  | [] => []
  | child :: children => child.windows ++ windowsOf children

end

mutual

/-- The time windows that stand below an `AnyOf` or a `Not`. -/
def guardedWindows : Condition → List TimeWindow
  | .fact _ => []
  | .timeWindow _ => []
  | .allOf children => guardedWindowsOf children
  | .anyOf children => windowsOf children
  | .notCond child => child.windows

def guardedWindowsOf : List Condition → List TimeWindow
  | [] => []
  | child :: children => child.guardedWindows ++ guardedWindowsOf children

end

theorem mem_windowsOf
    {window : TimeWindow} {child : Condition} {children : List Condition}
    (hchild : child ∈ children) (hwindow : window ∈ child.windows) :
    window ∈ windowsOf children := by
  induction children with
  | nil => cases hchild
  | cons first children ih =>
      rw [windowsOf, List.mem_append]
      rcases List.mem_cons.mp hchild with rfl | hchild
      · exact Or.inl hwindow
      · exact Or.inr (ih hchild)

theorem mem_guardedWindowsOf
    {window : TimeWindow} {child : Condition} {children : List Condition}
    (hchild : child ∈ children) (hwindow : window ∈ child.guardedWindows) :
    window ∈ guardedWindowsOf children := by
  induction children with
  | nil => cases hchild
  | cons first children ih =>
      rw [guardedWindowsOf, List.mem_append]
      rcases List.mem_cons.mp hchild with rfl | hchild
      · exact Or.inl hwindow
      · exact Or.inr (ih hchild)

/-! ## Evaluation at two clock readings -/

section TwoReadings

variable {host : Host} {facts : Snapshot} {now now' : String}
  {clock clock' : ℕ × ℕ}

/-- No fact expires between the two readings. -/
def SameFreshness (facts : Snapshot) (now now' : String) : Prop :=
  ∀ name fact, facts.get? name = some fact → fact.fresh now = fact.fresh now'

theorem evaluate_fact_congr
    (hfresh : SameFreshness facts now now') (cond : FactCondition) :
    cond.evaluate ⟨facts, now⟩ = cond.evaluate ⟨facts, now'⟩ := by
  unfold FactCondition.evaluate
  dsimp only
  split
  · rfl
  next fact hget => rw [hfresh _ _ hget]

theorem allOfLoop_congr
    {ctx ctx' : EvalContext} (children : List Condition)
    (ih : ∀ c ∈ children, evaluate host ctx c = evaluate host ctx' c) :
    ∀ ok reasons, allOfLoop host ctx children ok reasons =
      allOfLoop host ctx' children ok reasons := by
  induction children with
  | nil =>
      intro ok reasons
      rfl
  | cons child children ihs =>
      intro ok reasons
      have hrest := ihs fun c hc => ih c (List.mem_cons_of_mem _ hc)
      unfold allOfLoop
      rw [ih child List.mem_cons_self]
      simp only [hrest]

theorem anyOfLoop_congr
    {ctx ctx' : EvalContext} (children : List Condition)
    (ih : ∀ c ∈ children, evaluate host ctx c = evaluate host ctx' c) :
    ∀ reasons, anyOfLoop host ctx children reasons =
      anyOfLoop host ctx' children reasons := by
  induction children with
  | nil =>
      intro reasons
      rfl
  | cons child children ihs =>
      intro reasons
      have hrest := ihs fun c hc => ih c (List.mem_cons_of_mem _ hc)
      unfold anyOfLoop
      rw [ih child List.mem_cons_self]
      simp only [hrest]

theorem evaluate_congr
    (hclock : TimeWindow.clockOf host now = some clock)
    (hclock' : TimeWindow.clockOf host now' = some clock')
    (hfresh : SameFreshness facts now now') (c : Condition)
    (hsame : ∀ w ∈ c.windows, w.inside clock = w.inside clock') :
    evaluate host ⟨facts, now⟩ c = evaluate host ⟨facts, now'⟩ c := by
  induction c using Condition.induct with
  | hfact cond =>
      unfold evaluate
      rw [evaluate_fact_congr hfresh cond]
  | hwindow window =>
      have hinside := hsame window (List.mem_singleton_self _)
      simp only [evaluate, TimeWindow.evaluate, hclock, hclock', hinside]
  | hall children ih =>
      unfold evaluate
      apply allOfLoop_congr
      intro c hc
      exact ih c hc fun w hw => hsame w (mem_windowsOf hc hw)
  | hany children ih =>
      unfold evaluate
      apply anyOfLoop_congr
      intro c hc
      exact ih c hc fun w hw => hsame w (mem_windowsOf hc hw)
  | hnot child ih =>
      unfold evaluate
      rw [ih hsame]

theorem evaluate_returns
    (hclock : TimeWindow.clockOf host now = some clock) (facts : Snapshot)
    (c : Condition) : ∃ res, evaluate host ⟨facts, now⟩ c = .ok res := by
  induction c using Condition.induct with
  | hfact cond => exact ⟨_, by rw [evaluate]⟩
  | hwindow window =>
      simp only [evaluate, TimeWindow.evaluate, hclock]
      split_ifs
      · exact ⟨_, rfl⟩
      · exact ⟨_, rfl⟩
  | hall children ih =>
      have hloop : ∀ ok reasons, ∃ res,
          allOfLoop host ⟨facts, now⟩ children ok reasons = .ok res := by
        induction children with
        | nil =>
            intro ok reasons
            exact ⟨_, by rw [allOfLoop]⟩
        | cons child children ihs =>
            intro ok reasons
            obtain ⟨r, hr⟩ := ih child List.mem_cons_self
            have hrest := ihs fun c hc => ih c (List.mem_cons_of_mem _ hc)
            simp only [allOfLoop, hr]
            split_ifs
            · exact hrest _ _
            · exact hrest _ _
      unfold evaluate
      exact hloop true []
  | hany children ih =>
      have hloop : ∀ reasons, ∃ res,
          anyOfLoop host ⟨facts, now⟩ children reasons = .ok res := by
        induction children with
        | nil =>
            intro reasons
            exact ⟨_, by rw [anyOfLoop]⟩
        | cons child children ihs =>
            intro reasons
            obtain ⟨r, hr⟩ := ih child List.mem_cons_self
            have hrest := ihs fun c hc => ih c (List.mem_cons_of_mem _ hc)
            simp only [anyOfLoop, hr]
            split_ifs
            · exact ⟨_, rfl⟩
            · exact hrest _
      unfold evaluate
      exact hloop []
  | hnot child ih =>
      obtain ⟨r, hr⟩ := ih
      exact ⟨negate r, by simp only [evaluate, hr]⟩

/-! ## Health -/

def onlyWindows (reasons : List String) : Bool :=
  (reasons.filter fun reason =>
    !startsWith reason "policy.outside_time_window").isEmpty

theorem healthy_eq (res : CondResult) :
    res.healthy = (res.ok || onlyWindows res.reasons) := rfl

theorem onlyWindows_append (reasons reasons' : List String) :
    onlyWindows (reasons ++ reasons') =
      (onlyWindows reasons && onlyWindows reasons') := by
  unfold onlyWindows
  rw [List.filter_append]
  cases List.filter _ reasons <;> rfl

theorem allOfLoop_healthy
    {ctx : EvalContext} (children : List Condition) :
    ∀ ok reasons res, (ok = true → reasons = []) →
      allOfLoop host ctx children ok reasons = .ok res →
      (res.healthy = true ↔ onlyWindows reasons = true ∧
        ∀ c ∈ children, ∀ r, evaluate host ctx c = .ok r →
          r.healthy = true) := by
  induction children with
  | nil =>
      intro ok reasons res hclean hres
      rw [allOfLoop] at hres
      cases hres
      rw [healthy_eq]
      cases ok with
      | true =>
          rw [hclean rfl]
          simp [onlyWindows]
      | false => simp
  | cons child children ih =>
      intro ok reasons res hclean hres
      unfold allOfLoop at hres
      cases hchild : evaluate host ctx child with
      | error e =>
          rw [hchild] at hres
          cases hres
      | ok r =>
          simp only [hchild] at hres
          have hfirst : (∀ r', evaluate host ctx child = .ok r' →
              r'.healthy = true) ↔ r.healthy = true := by
            rw [hchild]
            simp
          rw [List.forall_mem_cons, hfirst]
          by_cases hok : r.ok = true
          · rw [if_pos hok] at hres
            rw [ih ok reasons res hclean hres, healthy_eq, hok]
            simp
          · rw [if_neg hok] at hres
            rw [ih false _ res (by simp) hres, onlyWindows_append, healthy_eq r]
            simp [hok, and_assoc]

theorem healthy_timeWindow
    {ctx : EvalContext} {window : TimeWindow} {res : CondResult}
    (hres : evaluate host ctx (.timeWindow window) = .ok res) :
    res.healthy = true := by
  simp only [evaluate, TimeWindow.evaluate] at hres
  split at hres
  · cases hres
  · split_ifs at hres
    · cases hres
      rfl
    · cases hres
      have hstarts := startsWith_append reasonOutsideTimeWindow
        (":" ++ window.startHhmm ++ "-" ++ window.endHhmm)
      simp only [← String.append_assoc] at hstarts
      generalize reasonOutsideTimeWindow ++ ":" ++ window.startHhmm ++ "-" ++
        window.endHhmm = reason at hstarts
      rw [reasonOutsideTimeWindow] at hstarts
      simp [healthy_eq, onlyWindows, hstarts]

/-- The health of a condition depends on the clock only through the windows
below an `AnyOf` or a `Not`. -/
theorem healthy_congr
    (hclock : TimeWindow.clockOf host now = some clock)
    (hclock' : TimeWindow.clockOf host now' = some clock')
    (hfresh : SameFreshness facts now now') (c : Condition)
    (hsame : ∀ w ∈ c.guardedWindows, w.inside clock = w.inside clock') :
    ∀ res res', evaluate host ⟨facts, now⟩ c = .ok res →
      evaluate host ⟨facts, now'⟩ c = .ok res' →
      res.healthy = res'.healthy := by
  induction c using Condition.induct with
  | hfact cond =>
      intro res res' hres hres'
      rw [evaluate] at hres hres'
      rw [← evaluate_fact_congr hfresh cond, hres] at hres'
      rw [Except.ok.inj hres']
  | hwindow window =>
      intro res res' hres hres'
      rw [healthy_timeWindow hres, healthy_timeWindow hres']
  | hall children ih =>
      intro res res' hres hres'
      rw [evaluate] at hres hres'
      rw [Bool.eq_iff_iff, allOfLoop_healthy children true [] res (fun _ => rfl)
        hres, allOfLoop_healthy children true [] res' (fun _ => rfl) hres']
      refine and_congr_right fun _ => forall₂_congr fun c hc => ?_
      have hchild := ih c hc fun w hw => hsame w (mem_guardedWindowsOf hc hw)
      obtain ⟨r, hr⟩ := evaluate_returns hclock facts c
      obtain ⟨r', hr'⟩ := evaluate_returns hclock' facts c
      rw [hr, hr']
      simp [hchild r r' hr hr']
  | hany children ih =>
      intro res res' hres hres'
      rw [evaluate_congr hclock hclock' hfresh (.anyOf children) hsame,
        hres'] at hres
      rw [Except.ok.inj hres]
  | hnot child ih =>
      intro res res' hres hres'
      rw [evaluate_congr hclock hclock' hfresh (.notCond child) hsame,
        hres'] at hres
      rw [Except.ok.inj hres]

end TwoReadings

end Condition

/-! ## The verdict on a lease -/

/-- The time windows below an `AnyOf` or a `Not` of a policy's condition. -/
def CanonicalPolicy.guardedWindows (policy : CanonicalPolicy) :
    List TimeWindow :=
  match policy.condition with
  | some condition => condition.guardedWindows
  | none => []

section Verdict

variable {host : Host} {facts : Snapshot} {now now' : String}
  {clock clock' : ℕ × ℕ}

theorem standing_returns
    (hclock : TimeWindow.clockOf host now = some clock)
    (policy : CanonicalPolicy) (facts : Snapshot) :
    ∃ ok, standing host policy facts now = .ok ok := by
  unfold standing
  split_ifs
  · split
    · exact ⟨true, rfl⟩
    next condition _ =>
      obtain ⟨res, hres⟩ := Condition.evaluate_returns hclock facts condition
      exact ⟨res.healthy, by rw [hres]⟩
  · exact ⟨false, rfl⟩

theorem standing_congr
    (hclock : TimeWindow.clockOf host now = some clock)
    (hclock' : TimeWindow.clockOf host now' = some clock')
    (hfresh : Condition.SameFreshness facts now now')
    (policy : CanonicalPolicy)
    (hsame : ∀ w ∈ policy.guardedWindows, w.inside clock = w.inside clock') :
    standing host policy facts now = standing host policy facts now' := by
  unfold standing
  unfold CanonicalPolicy.guardedWindows at hsame
  split_ifs
  · cases hcondition : policy.condition with
    | none => rfl
    | some condition =>
        rw [hcondition] at hsame
        obtain ⟨res, hres⟩ := Condition.evaluate_returns hclock facts condition
        obtain ⟨res', hres'⟩ :=
          Condition.evaluate_returns hclock' facts condition
        have hhealthy := Condition.healthy_congr hclock hclock' hfresh condition
          hsame res res' hres hres'
        simp only [hres, hres', hhealthy]
  · rfl

end Verdict

/-! ## What a changed fact leaves behind -/

section Review

variable {env : LeaseEnv} {s t : LeaseWorld} {fact : SituationFact}
  {lease : CapabilityLease}

theorem suspendFirst_ends
    (hs : s.Fresh env.host)
    (hget : s.leases.get lease.leaseId = some lease)
    (hlive : lease.state.isLive = true) :
    Ends (suspendFirst env fact lease) s
      (fun _ t => OnlyLeases s t ∧ t.Fresh env.host ∧
        ∃ lease', t.leases.get =
            Function.update s.leases.get lease.leaseId (some lease') ∧
          lease'.state = .suspended)
      (fun _ _ => False) := by
  unfold suspendFirst
  split_ifs with hactive
  · have hnext : transitions lease.state .suspend = some .suspended := by
      rw [hactive]
      rfl
    refine ends_mono (transition_moves hs hget hnext _ _) ?_ (fun _ _ h => h)
    rintro _ t ⟨honly, ht, eventId, hbook⟩
    exact ⟨honly, ht, lease.advance .suspended eventId, hbook, rfl⟩
  · refine ends_pure ⟨rfl, hs, lease, ?_, ?_⟩
    · rw [← hget, Function.update_eq_self]
    · cases hstate : lease.state <;> simp_all [LeaseState.isLive]

theorem resumeWhen_ends
    (hs : s.Fresh env.host) {leaseId : String} {filed : CapabilityLease}
    (hid : lease.leaseId = leaseId)
    (hget : s.leases.get leaseId = some filed)
    (hsuspended : filed.state = .suspended) (ok : Bool) :
    Ends (resumeWhen env ok fact lease) s
      (fun _ t => OnlyLeases s t ∧ t.Fresh env.host ∧
        ∃ lease', t.leases.get =
            Function.update s.leases.get leaseId (some lease') ∧
          (lease'.state = .suspended ↔ ok = false))
      (fun _ _ => False) := by
  unfold resumeWhen
  split_ifs with hok
  · unfold resumeLease
    apply ends_bind
    apply ends_readClock
    apply ends_bind
    apply ends_get
    have hticked : LeaseWorld.Fresh env.host { s with ticks := s.ticks + 1 } :=
      hs.mono rfl le_rfl
    have hticks : OnlyLeases s { s with ticks := s.ticks + 1 } := rfl
    rw [hid]
    dsimp only
    rw [hget]
    dsimp only
    split_ifs
    · have hnext : transitions filed.state .expire = some .expired := by
        rw [hsuspended]
        rfl
      refine ends_mono (transition_moves hticked hget hnext _ _) ?_
        (fun _ _ h => h)
      rintro _ t ⟨honly, ht, eventId, hbook⟩
      refine ⟨hticks.trans honly, ht, _, hbook, ?_⟩
      simp [CapabilityLease.advance, hok]
    · have hnext : transitions filed.state .resume = some .active := by
        rw [hsuspended]
        rfl
      refine ends_mono (transition_moves hticked hget hnext _ _) ?_
        (fun _ _ h => h)
      rintro _ t ⟨honly, ht, eventId, hbook⟩
      refine ⟨hticks.trans honly, ht, _, hbook, ?_⟩
      simp [CapabilityLease.advance, hok]
  · refine ends_pure ⟨rfl, hs, filed, ?_, ?_⟩
    · rw [← hget, Function.update_eq_self]
    · simp [hsuspended, hok]

/-- What the review of one lease does: no other lease changes, and a standing
lease that watches the fact is left suspended exactly on a negative verdict. -/
structure Reviewed
    (env : LeaseEnv) (fact : SituationFact) (nowWall : String)
    (lease : CapabilityLease) (s t : LeaseWorld) : Prop where
  fresh : t.Fresh env.host
  policies : t.policies = s.policies
  situation : t.situation = s.situation
  others : ∀ id, id ≠ lease.leaseId → t.leases.get id = s.leases.get id
  verdict : lease.state.isLive = true → ∀ policy,
    s.policyFor lease = some policy → fact.name ∈ policy.watched →
      ∃ lease', t.leases.get lease.leaseId = some lease' ∧
        (lease'.state = .suspended ↔
          standing env.host policy (snapshot s.situation nowWall) nowWall =
            .ok false)

theorem checkObligations_ends
    (policy : CanonicalPolicy) (nowWall : String)
    {Q : PUnit → LeaseWorld → Prop} {E : PyError → LeaseWorld → Prop}
    (h : ∀ obligations, Q ⟨⟩ { s with obligations := obligations }) :
    Ends (checkObligations env lease policy fact nowWall) s Q E := by
  unfold checkObligations
  split_ifs
  · exact ends_modify (h _)
  · exact ends_pure (h s.obligations)

theorem reviewLease_ends
    (hs : s.Fresh env.host)
    (hget : s.leases.get lease.leaseId = some lease) {nowWall : String}
    {clock : ℕ × ℕ}
    (hclock : TimeWindow.clockOf env.host nowWall = some clock) :
    Ends (reviewLease env fact nowWall lease) s
      (fun _ t => Reviewed env fact nowWall lease s t) (fun _ _ => False) := by
  unfold reviewLease
  split_ifs with hlive
  · apply ends_bind
    apply ends_get
    cases hpolicy : s.policyFor lease with
    | none =>
        refine ends_pure ⟨hs, rfl, rfl, fun _ _ => rfl, ?_⟩
        intro _ policy hsome
        rw [hpolicy] at hsome
        cases hsome
    | some policy =>
        dsimp only
        split_ifs with hwatched
        · apply ends_bind
          refine ends_mono (suspendFirst_ends hs hget hlive) ?_ (fun _ _ h => h)
          rintro _ u ⟨honly, hu, suspended, hbook, hsuspended⟩
          apply ends_bind
          apply ends_get
          apply ends_bind
          obtain ⟨ok, hok⟩ := standing_returns hclock policy
            (snapshot u.situation nowWall)
          rw [hok]
          apply ends_pure
          apply ends_bind
          have hgetu : u.leases.get lease.leaseId = some suspended := by
            rw [hbook, Function.update_self]
          refine ends_mono (resumeWhen_ends hu rfl hgetu hsuspended ok) ?_
            (fun _ _ h => h)
          rintro _ t ⟨honly', ht, final, hbook', hstate⟩
          have hall := honly.trans honly'
          apply checkObligations_ends
          intro obligations
          refine ⟨ht.mono rfl le_rfl, hall.policies, hall.situation, ?_, ?_⟩
          · intro id hne
            change t.leases.get id = s.leases.get id
            rw [hbook', Function.update_of_ne hne, hbook,
              Function.update_of_ne hne]
          · intro _ policy' hpolicy' _
            obtain rfl := Option.some.inj (hpolicy.symm.trans hpolicy')
            refine ⟨final, ?_, ?_⟩
            · change t.leases.get lease.leaseId = some final
              rw [hbook', Function.update_self]
            · rw [← honly.situation, hok, hstate]
              simp
        · apply checkObligations_ends
          intro obligations
          refine ⟨hs.mono rfl le_rfl, rfl, rfl, fun _ _ => rfl, ?_⟩
          intro _ policy' hpolicy' hwatched'
          obtain rfl := Option.some.inj (hpolicy.symm.trans hpolicy')
          exact absurd hwatched' hwatched
  · refine ends_pure ⟨hs, rfl, rfl, fun _ _ => rfl, ?_⟩
    intro hlive'
    exact absurd hlive' hlive

theorem reviewLoop_ends
    {nowWall : String} {clock : ℕ × ℕ}
    (hclock : TimeWindow.clockOf env.host nowWall = some clock)
    (leases : List CapabilityLease) :
    ∀ s : LeaseWorld, s.Fresh env.host →
      (∀ c ∈ leases, s.leases.get c.leaseId = some c) →
      (leases.map CapabilityLease.leaseId).Nodup →
      Ends (leases.forM (reviewLease env fact nowWall)) s
        (fun _ t =>
          (∀ id, id ∉ leases.map CapabilityLease.leaseId →
            t.leases.get id = s.leases.get id) ∧
          ∀ c ∈ leases, ∃ u v, Reviewed env fact nowWall c u v ∧
            u.policies = s.policies ∧ u.situation = s.situation ∧
            t.leases.get c.leaseId = v.leases.get c.leaseId)
        (fun _ _ => False) := by
  induction leases with
  | nil =>
      intro s hs _ _
      refine ends_pure ⟨fun _ _ => rfl, ?_⟩
      intro c hc
      cases hc
  | cons lease leases ih =>
      intro s hs hfiled hnodup
      rw [List.map_cons, List.nodup_cons] at hnodup
      apply ends_bind
      refine ends_mono (reviewLease_ends hs (hfiled lease List.mem_cons_self)
        hclock) ?_ (fun _ _ h => h)
      intro _ u hreviewed
      have hrest : ∀ c ∈ leases, c.leaseId ≠ lease.leaseId := by
        intro c hc heq
        exact hnodup.1 (List.mem_map.mpr ⟨c, hc, heq⟩)
      refine ends_mono (ih u hreviewed.fresh ?_ hnodup.2) ?_ (fun _ _ h => h)
      · intro c hc
        rw [hreviewed.others _ (hrest c hc)]
        exact hfiled c (List.mem_cons_of_mem _ hc)
      · rintro _ t ⟨hothers, heach⟩
        constructor
        · intro id hid
          rw [List.map_cons, List.mem_cons, not_or] at hid
          rw [hothers id hid.2, hreviewed.others id hid.1]
        · intro c hc
          rcases List.mem_cons.mp hc with rfl | hc
          · exact ⟨s, u, hreviewed, rfl, rfl, hothers _ hnodup.1⟩
          · obtain ⟨u', v, hreviewed', hpolicies, hsituation, hget⟩ :=
              heach c hc
            exact ⟨u', v, hreviewed', hpolicies.trans hreviewed.policies,
              hsituation.trans hreviewed.situation, hget⟩

/-- The lease is suspended after the invalidator has been told of the fact. -/
def SuspendedAfter
    (env : LeaseEnv) (s : LeaseWorld) (fact : SituationFact)
    (leaseId : String) : Prop :=
  ((finalState (onFactChanged env fact) s).leases.get leaseId).map
    CapabilityLease.state = some .suspended

instance (env : LeaseEnv) (s : LeaseWorld) (fact : SituationFact)
    (leaseId : String) : Decidable (SuspendedAfter env s fact leaseId) :=
  inferInstanceAs (Decidable (_ = _))

/-- A standing lease that watches the fact is left suspended exactly on a
negative verdict. -/
theorem suspendedAfter_iff
    (hs : s.Fresh env.host) {leaseId : String} {policy : CanonicalPolicy}
    (hget : s.leases.get leaseId = some lease)
    (hlive : lease.state.isLive = true)
    (hpolicy : s.policyFor lease = some policy)
    (hwatched : fact.name ∈ policy.watched) {clock : ℕ × ℕ}
    (hclock : TimeWindow.clockOf env.host (env.clock s.ticks).1 =
      some clock) :
    SuspendedAfter env s fact leaseId ↔
      standing env.host policy
          (snapshot s.situation (env.clock s.ticks).1) (env.clock s.ticks).1 =
        .ok false := by
  obtain rfl := LeaseStore.leaseId_of_get hget
  have hends : Ends (onFactChanged env fact) s
      (fun _ t => ∃ lease', t.leases.get lease.leaseId = some lease' ∧
        (lease'.state = .suspended ↔
          standing env.host policy
              (snapshot s.situation (env.clock s.ticks).1)
              (env.clock s.ticks).1 = .ok false))
      (fun _ _ => False) := by
    unfold onFactChanged
    apply ends_bind
    apply ends_readClock
    apply ends_bind
    apply ends_get
    refine ends_mono (reviewLoop_ends hclock _ _ (hs.mono rfl le_rfl) ?_
      (nodup_leaseIds s.leases)) ?_ (fun _ _ h => h)
    · intro c hc
      exact LeaseStore.mem_all_iff.mp hc
    · rintro _ t ⟨-, heach⟩
      obtain ⟨u, v, hreviewed, hpolicies, hsituation, hfinal⟩ :=
        heach lease (LeaseStore.mem_all_iff.mpr hget)
      have hpolicyu : u.policyFor lease = some policy := by
        rw [LeaseWorld.policyFor, hpolicies]
        exact hpolicy
      have hverdict := hreviewed.verdict hlive policy hpolicyu hwatched
      rw [hsituation, ← hfinal] at hverdict
      exact hverdict
  rcases hends.cases with ⟨_, -, lease', hget', hiff⟩ | ⟨_, -, hfalse⟩
  · rw [← hiff, SuspendedAfter, hget', Option.map_some, Option.some.injEq]
  · exact hfalse.elim

end Review

/-! ## Independence of the clock -/

/-- Whether the invalidator leaves a standing lease suspended is the same at the
two readings: in every state that a service over the host reaches, for every
standing lease, every watched fact and every policy whose guarded windows are
among the given ones, as long as no fact expires between the readings. -/
def VerdictIndependent
    (host : Host) (now now' : String) (windows : List TimeWindow) : Prop :=
  ∀ (env : LeaseEnv) (readings readings' : ℕ → String × ℚ)
    (situation : Dict String SituationFact) (gpp : PermitAuthority)
    (ops : List LeaseOp) (fact : SituationFact) (leaseId : String)
    (lease : CapabilityLease) (policy : CanonicalPolicy),
    env.host = host →
    ((leaseMachine env).final (.init situation gpp) ops).leases.get leaseId =
      some lease →
    lease.state = .active ∨ lease.state = .suspended →
    ((leaseMachine env).final (.init situation gpp) ops).policyFor lease =
      some policy →
    fact.name ∈ policy.watched →
    policy.guardedWindows ⊆ windows →
    (readings ((leaseMachine env).final (.init situation gpp) ops).ticks).1 =
      now →
    (readings' ((leaseMachine env).final (.init situation gpp) ops).ticks).1 =
      now' →
    Condition.SameFreshness
      ((leaseMachine env).final (.init situation gpp) ops).situation now now' →
    (SuspendedAfter { env with clock := readings }
        ((leaseMachine env).final (.init situation gpp) ops) fact leaseId ↔
      SuspendedAfter { env with clock := readings' }
        ((leaseMachine env).final (.init situation gpp) ops) fact leaseId)

theorem snapshot_congr
    {situation : Dict String SituationFact} {now now' : String}
    (hfresh : Condition.SameFreshness situation now now') :
    snapshot situation now = snapshot situation now' := by
  have hentries : (snapshot situation now).entries =
      (snapshot situation now').entries := by
    apply List.filter_congr
    intro entry hentry
    exact hfresh entry.1 entry.2 (situation.mem_entries_iff.mp hentry)
  cases hleft : snapshot situation now
  cases hright : snapshot situation now'
  rw [hleft, hright] at hentries
  simpa using hentries

theorem sameFreshness_snapshot
    {situation : Dict String SituationFact} {now now' : String}
    (hfresh : Condition.SameFreshness situation now now') (at_ : String) :
    Condition.SameFreshness (snapshot situation at_) now now' := by
  intro name fact hget
  rw [snapshot, Dict.get?_filter, Option.filter_eq_some_iff] at hget
  exact hfresh name fact hget.1

def outsideWindowPolicy (window : TimeWindow) : CanonicalPolicy :=
  { referencePolicy 1 with
    condition := some (.notCond (.timeWindow window))
    requiredFacts := ["presence"] }

def presenceFact : SituationFact :=
  ⟨"presence", .str "home", "2026-03-01T11:00:00Z", "sensor:hall", none, none,
    1, "fact_1"⟩

/-- Below a `Not` an open window gives a reason that is not its own, and a
closed one gives none. -/
theorem standing_outsideWindowPolicy
    {host : Host} {now : String} {clock : ℕ × ℕ}
    (hclock : TimeWindow.clockOf host now = some clock) (window : TimeWindow) :
    standing host (outsideWindowPolicy window)
        (snapshot (Dict.empty.set "presence" presenceFact) now) now =
      .ok (!window.inside clock) := by
  have hpresent : (outsideWindowPolicy window).requiredFacts.all
      (snapshot (Dict.empty.set "presence" presenceFact) now).contains =
      true := by
    rw [List.all_eq_true]
    intro name hname
    obtain rfl := List.mem_singleton.mp hname
    rw [Dict.contains_eq_true_iff]
    refine ⟨presenceFact, ?_⟩
    rw [snapshot, Dict.get?_filter, Dict.get?_set_self]
    rfl
  have hcondition : (outsideWindowPolicy window).condition =
      some (.notCond (.timeWindow window)) := rfl
  unfold standing
  rw [if_pos hpresent, hcondition]
  simp only [Condition.evaluate, TimeWindow.evaluate, hclock]
  by_cases hinside : window.inside clock = true
  · simp only [hinside, if_true]
    rfl
  · have hclosed := isOpenReason_timeWindow
      (":" ++ window.startHhmm ++ "-" ++ window.endHhmm)
    simp only [← String.append_assoc] at hclosed
    rw [Bool.not_eq_true] at hinside
    simp only [hinside, Bool.false_eq_true, if_false, Condition.negate,
      List.any_cons, List.any_nil, hclosed, Bool.or_false]
    rfl

theorem exists_minted
    (env : LeaseEnv) (situation : Dict String SituationFact)
    (gpp : PermitAuthority) (policy : CanonicalPolicy)
    (hsubjects : policy.subjects ≠ []) :
    ∃ lease,
      ((leaseMachine env).final (.init situation gpp)
        [.mint policy (confirmationOf env.host policy) none]).leases.get
          lease.leaseId = some lease ∧
      lease.state = .active ∧
      ((leaseMachine env).final (.init situation gpp)
        [.mint policy (confirmationOf env.host policy) none]).policyFor lease =
          some policy ∧
      ((leaseMachine env).final (.init situation gpp)
        [.mint policy (confirmationOf env.host policy) none]).situation =
          situation := by
  rcases (mintLease_ends (LeaseWorld.fresh_init env.host situation gpp) policy
    (confirmationOf env.host policy) none).cases with
    ⟨lease, -, -, -, heffect⟩ | ⟨e, -, -, -, -, hnot⟩
  · have hbook : (finalState (mintLease env policy
        (confirmationOf env.host policy) none)
        (.init situation gpp)).leases.get =
        Function.update (LeaseWorld.init situation gpp).leases.get
          lease.leaseId (some lease) := by
      rcases heffect.book with hsame | ⟨old, _, _, hsome, -⟩
      · exact hsame
      · cases hsome
    refine ⟨lease, ?_, heffect.minted.state, ?_, heffect.situation⟩
    · exact (congrFun hbook lease.leaseId).trans (Function.update_self ..)
    · have hpolicies := congrArg (·.get? lease.policyHash) heffect.policies
      refine hpolicies.trans ?_
      rw [heffect.minted.hash]
      exact Dict.get?_set_self ..
  · exact absurd ⟨⟨rfl, rfl, rfl⟩, hsubjects, rfl⟩ hnot

theorem sameFreshness_presence (now now' : String) :
    Condition.SameFreshness (Dict.empty.set "presence" presenceFact) now
      now' := by
  intro name fact hget
  rw [Dict.get?_set] at hget
  split_ifs at hget
  · obtain rfl := Option.some.inj hget
    rfl
  · cases hget

def dayWindow : TimeWindow :=
  ⟨"08:00", "18:00", (8, 0), (18, 0), by decide, by decide⟩

theorem door_named : "door" ≠ "" := by
  decide

def dayOrClosedPolicy : CanonicalPolicy :=
  { referencePolicy 1 with
    condition := some (.anyOf [.timeWindow dayWindow,
      .fact ⟨"door", .eq, .str "closed", none, door_named⟩]) }

def openDoorFact : SituationFact :=
  ⟨"door", .str "open", "2026-03-01T11:00:00Z", "sensor:door", none, none, 1,
    "fact_1"⟩

def openDoorWorld : LeaseWorld :=
  (leaseMachine referenceEnv).final
    (.init (Dict.empty.set "door" openDoorFact) (.init .empty))
    [.mint dayOrClosedPolicy (confirmationOf referenceHost dayOrClosedPolicy)
      none]

section Unwatched

variable {host : Host} {ctx ctx' : EvalContext}

theorem allOfLoop_congr {children : List Condition}
    (h : ∀ c ∈ children, c.evaluate host ctx' = c.evaluate host ctx) (ok : Bool)
    (reasons : List String) :
    Condition.allOfLoop host ctx' children ok reasons =
      Condition.allOfLoop host ctx children ok reasons := by
  induction children generalizing ok reasons with
  | nil => rw [Condition.allOfLoop, Condition.allOfLoop]
  | cons child children ih =>
      rw [List.forall_mem_cons] at h
      rw [Condition.allOfLoop, Condition.allOfLoop, h.1]
      simp only [ih h.2]

theorem anyOfLoop_congr {children : List Condition}
    (h : ∀ c ∈ children, c.evaluate host ctx' = c.evaluate host ctx)
    (reasons : List String) :
    Condition.anyOfLoop host ctx' children reasons =
      Condition.anyOfLoop host ctx children reasons := by
  induction children generalizing reasons with
  | nil => rw [Condition.anyOfLoop, Condition.anyOfLoop]
  | cons child children ih =>
      rw [List.forall_mem_cons] at h
      rw [Condition.anyOfLoop, Condition.anyOfLoop, h.1]
      simp only [ih h.2]

theorem mem_factNamesOf {children : List Condition} {c : Condition} (hc : c ∈ children)
    {name : String} (hname : name ∈ c.factNames) :
    name ∈ Condition.factNamesOf children := by
  induction children with
  | nil => cases hc
  | cons child children ih =>
      rw [Condition.factNamesOf, List.mem_append]
      rcases List.mem_cons.mp hc with rfl | hc
      · exact Or.inl hname
      · exact Or.inr (ih hc)

/-- A condition depends on the facts that it names, and on the clock. -/
theorem evaluate_congr_facts (hnow : ctx'.nowWall = ctx.nowWall) (c : Condition)
    (h : ∀ name ∈ c.factNames, ctx'.facts.get? name = ctx.facts.get? name) :
    c.evaluate host ctx' = c.evaluate host ctx := by
  induction c using Condition.induct with
  | hfact cond =>
      have hfact := h cond.factName (List.mem_singleton_self _)
      simp only [Condition.evaluate, FactCondition.evaluate, hfact, hnow]
  | hwindow window => simp only [Condition.evaluate, TimeWindow.evaluate, hnow]
  | hall children ih =>
      rw [Condition.evaluate, Condition.evaluate]
      exact allOfLoop_congr (fun c hc => ih c hc fun name hname =>
        h name (mem_factNamesOf hc hname)) _ _
  | hany children ih =>
      rw [Condition.evaluate, Condition.evaluate]
      exact anyOfLoop_congr (fun c hc => ih c hc fun name hname =>
        h name (mem_factNamesOf hc hname)) _
  | hnot child ih =>
      rw [Condition.evaluate, Condition.evaluate, ih h]

def factsAfter (facts : Dict String SituationFact) (changes : List SituationFact) :
    Dict String SituationFact :=
  changes.foldl (fun facts fact => facts.set fact.name fact) facts

theorem get?_factsAfter {facts : Dict String SituationFact} {changes : List SituationFact}
    {name : String} (hname : ∀ fact ∈ changes, fact.name ≠ name) :
    (factsAfter facts changes).get? name = facts.get? name := by
  induction changes generalizing facts with
  | nil => rfl
  | cons fact changes ih =>
      rw [List.forall_mem_cons] at hname
      exact (ih hname.2).trans (Dict.get?_set_of_ne _ _ hname.1.symm)

section

variable {policy : CanonicalPolicy} {facts facts' : Snapshot}
  (hget : ∀ name ∈ policy.watched, facts'.get? name = facts.get? name)

include hget

theorem contains_of_watched {name : String} (hname : name ∈ policy.requiredFacts) :
    facts'.contains name = facts.contains name := by
  rw [Bool.eq_iff_iff, Dict.contains_eq_true_iff, Dict.contains_eq_true_iff,
    hget name (List.mem_append_right _ hname)]

theorem evaluate_of_watched {condition : Condition} (hsome : policy.condition = some condition)
    (nowWall : String) :
    condition.evaluate host ⟨facts', nowWall⟩ = condition.evaluate host ⟨facts, nowWall⟩ := by
  refine @evaluate_congr_facts host ⟨facts, nowWall⟩ ⟨facts', nowWall⟩ rfl condition ?_
  intro name hname
  apply hget
  rw [CanonicalPolicy.watched, hsome]
  exact List.mem_append_left _ hname

theorem standing_of_watched (nowWall : String) :
    standing host policy facts' nowWall = standing host policy facts nowWall := by
  have hall : policy.requiredFacts.all facts'.contains =
      policy.requiredFacts.all facts.contains := by
    rw [Bool.eq_iff_iff, List.all_eq_true, List.all_eq_true]
    exact forall₂_congr fun name hname => by rw [contains_of_watched hget hname]
  cases hpolicy : policy.condition with
  | none => simp only [standing, hpolicy, hall]
  | some condition => simp only [standing, hpolicy, hall, evaluate_of_watched hget hpolicy]

theorem verdict_of_watched (request : ActionRequest) (lease : Option CapabilityLease)
    (nowWall : String) (nowMonotonic : ℚ) (seenRequestIds : List String) :
    verdict host request lease (some policy) facts' nowWall nowMonotonic seenRequestIds =
      verdict host request lease (some policy) facts nowWall nowMonotonic
        seenRequestIds := by
  have hrequired : requiredFactReasons policy facts' = requiredFactReasons policy facts :=
    List.flatMap_congr fun name hname => by rw [contains_of_watched hget hname]
  have hcollect : ∀ lease fromCondition,
      collectReasons host request lease policy facts' nowWall fromCondition =
        collectReasons host request lease policy facts nowWall fromCondition := by
    intro lease fromCondition
    rw [collectReasons, collectReasons, hrequired]
  have hreasons : conditionReasons host policy facts' nowWall =
      conditionReasons host policy facts nowWall := by
    cases hpolicy : policy.condition with
    | none => simp only [conditionReasons, hpolicy]
    | some condition =>
        simp only [conditionReasons, hpolicy, evaluate_of_watched hget hpolicy]
  cases lease with
  | none => rfl
  | some lease => simp only [verdict, hreasons, hcollect]

end

/-- Unless a watched fact is among the changes, no verdict under the policy changes, neither
that of a review nor that on a request. -/
theorem verdict_changes_watched (host : Host) (policy : CanonicalPolicy)
    (facts : Dict String SituationFact) (changes : List SituationFact) (nowWall : String) :
    (∃ fact ∈ changes, fact.name ∈ policy.watched) ∨
      standing host policy (snapshot (factsAfter facts changes) nowWall) nowWall =
          standing host policy (snapshot facts nowWall) nowWall ∧
        ∀ (request : ActionRequest) (lease : Option CapabilityLease) (nowMonotonic : ℚ)
          (seenRequestIds : List String),
          verdict host request lease (some policy)
              (snapshot (factsAfter facts changes) nowWall) nowWall nowMonotonic
              seenRequestIds =
            verdict host request lease (some policy) (snapshot facts nowWall) nowWall
              nowMonotonic seenRequestIds := by
  refine or_iff_not_imp_left.mpr fun hnone => ?_
  have hget : ∀ name ∈ policy.watched,
      (snapshot (factsAfter facts changes) nowWall).get? name =
        (snapshot facts nowWall).get? name := by
    intro name hname
    rw [snapshot, snapshot, Dict.get?_filter, Dict.get?_filter, get?_factsAfter]
    rintro fact hfact rfl
    exact hnone ⟨fact, hfact, hname⟩
  exact ⟨standing_of_watched hget nowWall, fun request lease nowMonotonic seenRequestIds =>
    verdict_of_watched hget request lease nowWall nowMonotonic seenRequestIds⟩

end Unwatched

end Hydrogenuine.Lease
