import Hydrogenuine.Lease.Compiler
import Hydrogenuine.Lease.Lifetime
import Hydrogenuine.Lease.Uses

/-!
# Validity windows as texts and as instants

A policy takes over the two ends of its window as they were spelled, a lease
takes them over from the policy, and `evaluate` compares the reading of the
clock with them as texts.  ISO-8601 has many spellings of one instant, so the
order of the texts need not be the order of the instants: an allowance is within
the window in time exactly when the two orders agree.
-/

namespace Hydrogenuine.Lease

open Support Hydrogenuine.Core Gpp

variable {env : LeaseEnv} {s t : LeaseWorld}

/-! ## The window of a minted lease -/

theorem mintLease_window
    (policy : CanonicalPolicy) (confirmation : OperatorConfirmation)
    (supersedesLeaseId : Option String) :
    Ends (mintLease env policy confirmation supersedesLeaseId) s
      (fun lease _ => lease.notBefore = policy.validFrom ∧
        lease.expiresAt = policy.validUntil) (fun _ _ => True) := by
  unfold mintLease
  apply ends_bind
  apply ends_readClock
  dsimp only
  split_ifs
  · exact ends_throw trivial
  · exact ends_throw trivial
  · exact ends_throw trivial
  · apply ends_bind
    apply ends_drawUuid
    split
    · exact ends_throw trivial
    next subject _ _ =>
      apply ends_bind
      apply ends_drawUuid
      apply ends_bind
      generalize hdraft : draftLease policy
        (policy.canonicalPolicyHash env.host) subject
        (leaseIdOf (env.host.uuidHex s.uuids))
        (env.host.uuidHex (s.uuids + 1)) (env.clock s.ticks)
        supersedesLeaseId = draft
      obtain ⟨first, second, hopen⟩ := @openLease_eq draft
        (by rw [← hdraft]; rfl) (by rw [← hdraft]; rfl) "lease.submitted"
        "lease.operator_confirmed" (env.clock s.ticks).1
        ("operator=" ++ confirmation.operatorId)
      rw [hopen]
      apply ends_pure
      apply ends_bind
      apply ends_modify
      apply ends_bind
      apply ends_putLease
      apply ends_bind
      apply ends_putLease
      apply ends_bind
      refine ends_mono (ends_of_forall (fun _ _ => trivial) (fun _ _ => trivial) :
        Ends _ _ (fun _ _ => True) (fun _ _ => True)) ?_ (fun _ _ h => h)
      intro _ u _
      apply ends_bind
      apply ends_get
      apply ends_bind
      apply ends_fileReceipt
      intro receipt
      apply ends_pure
      rw [← hdraft]
      exact ⟨rfl, rfl⟩

theorem minted_window_later
    {situation : Dict String SituationFact} {gpp : PermitAuthority}
    {ops later : List LeaseOp} {policy : CanonicalPolicy}
    {confirmation : OperatorConfirmation} {supersedesLeaseId : Option String}
    {lease lease' : CapabilityLease}
    (hminted : outcome (mintLease env policy confirmation supersedesLeaseId)
      ((leaseMachine env).final (.init situation gpp) ops) = .ok lease)
    (hlater : ((leaseMachine env).final (.init situation gpp)
      (ops ++ .mint policy confirmation supersedesLeaseId :: later)).leases.get
        lease.leaseId = some lease') :
    lease'.notBefore = policy.validFrom ∧ lease'.expiresAt = policy.validUntil := by
  have hs := fresh_final env situation gpp ops
  rw [Machine.final_append] at hlater
  generalize (leaseMachine env).final (.init situation gpp) ops = s at *
  have hends := ends_and (mintLease_ends hs policy confirmation supersedesLeaseId)
    (mintLease_window policy confirmation supersedesLeaseId)
  rcases hends.cases with ⟨other, hother, ⟨-, -, heffect⟩, hfrom, huntil⟩ |
    ⟨e, hraised, -⟩
  · obtain rfl := Except.ok.inj (hminted.symm.trans hother)
    obtain ⟨filed, hfiled, hmoves⟩ := heffect.filed
    obtain ⟨last, hlast, hrecord⟩ := run_laterRecord
      (leaseStep_fresh hs (.mint policy confirmation supersedesLeaseId)) hfiled later
    obtain rfl := Option.some.inj (hlast.symm.trans hlater)
    have hterms := hrecord.terms.trans (moves_run hmoves).1
    exact ⟨(congrArg CapabilityLease.notBefore hterms).trans hfrom,
      (congrArg CapabilityLease.expiresAt hterms).trans huntil⟩
  · cases hminted.symm.trans hraised

theorem compileDraft_window
    {host : Host} {draft : PolicyDraft} {issuerOperatorId digits : String}
    {allowModerate allowHighRiskLocalPolicy : Bool} {policy : CanonicalPolicy}
    (hcompiled : compileDraft host draft issuerOperatorId digits allowModerate
      allowHighRiskLocalPolicy = .policy policy) :
    policy.validFrom = draft.validFrom.getD "" ∧
      policy.validUntil = draft.validUntil.getD "" := by
  obtain ⟨-, rfl, -⟩ := compileDraft_eq_policy_iff.mp hcompiled
  exact ⟨rfl, rfl⟩

/-! ## Texts and instants -/

/-- The reading lies in the window as an instant. -/
def InstantWithin (host : Host) (validFrom validUntil nowWall : String) : Prop :=
  ∃ start stop current, parseRfc3339Z host validFrom = some start ∧
    parseRfc3339Z host validUntil = some stop ∧
    parseRfc3339Z host nowWall = some current ∧
    start.instant ≤ current.instant ∧ current.instant < stop.instant

/-- Where the texts put the reading after the start, or before the end, the
instants do so too. -/
def SpelledInOrder (host : Host) (validFrom validUntil nowWall : String) : Prop :=
  ∀ start stop current, parseRfc3339Z host validFrom = some start →
    parseRfc3339Z host validUntil = some stop →
    parseRfc3339Z host nowWall = some current →
      (validFrom ≤ nowWall → start.instant ≤ current.instant) ∧
        (nowWall < validUntil → current.instant < stop.instant)

/-- Between the ends of a window as texts, a reading lies in it as an instant exactly
when the three are spelled in order. -/
theorem instantWithin_iff
    {host : Host} {validFrom validUntil nowWall : String}
    {start stop current : Datetime}
    (hstart : parseRfc3339Z host validFrom = some start)
    (hstop : parseRfc3339Z host validUntil = some stop)
    (hcurrent : parseRfc3339Z host nowWall = some current)
    (hstarted : validFrom ≤ nowWall) (hunexpired : nowWall < validUntil) :
    InstantWithin host validFrom validUntil nowWall ↔
      SpelledInOrder host validFrom validUntil nowWall := by
  constructor
  · rintro ⟨start', stop', current', hstart', hstop', hcurrent', hle, hlt⟩ a b c
      ha hb hc
    obtain rfl := Option.some.inj (hstart'.symm.trans ha)
    obtain rfl := Option.some.inj (hstop'.symm.trans hb)
    obtain rfl := Option.some.inj (hcurrent'.symm.trans hc)
    exact ⟨fun _ => hle, fun _ => hlt⟩
  · intro hordered
    obtain ⟨hle, hlt⟩ := hordered start stop current hstart hstop hcurrent
    exact ⟨start, stop, current, hstart, hstop, hcurrent, hle hstarted,
      hlt hunexpired⟩

/-- A request that is allowed under a lease minted from a compiled draft, at any
later point of a run and at any reading of the clock, is allowed within the
window of the draft exactly when the three times are spelled in order. -/
theorem window_sound_iff
    (env : LeaseEnv) (situation : Dict String SituationFact)
    (gpp : PermitAuthority) (ops later : List LeaseOp)
    (draft : PolicyDraft) (issuerOperatorId digits : String)
    (allowModerate allowHighRiskLocalPolicy : Bool) (policy : CanonicalPolicy)
    (hcompiled : compileDraft env.host draft issuerOperatorId digits allowModerate
      allowHighRiskLocalPolicy = .policy policy)
    (confirmation : OperatorConfirmation) (supersedesLeaseId : Option String)
    (lease lease' : CapabilityLease)
    (hminted : outcome (mintLease env policy confirmation supersedesLeaseId)
      ((leaseMachine env).final (.init situation gpp) ops) = .ok lease)
    (hlater : ((leaseMachine env).final (.init situation gpp)
      (ops ++ .mint policy confirmation supersedesLeaseId :: later)).leases.get
        lease.leaseId = some lease')
    (validFrom validUntil nowWall : String) (start stop current : Datetime)
    (hfrom : draft.validFrom = some validFrom)
    (huntil : draft.validUntil = some validUntil)
    (hstart : parseRfc3339Z env.host validFrom = some start)
    (hstop : parseRfc3339Z env.host validUntil = some stop)
    (hcurrent : parseRfc3339Z env.host nowWall = some current)
    (request : ActionRequest) (facts : Snapshot) (nowMonotonic : ℚ)
    (seen reasons : List String)
    (hallow : verdict env.host request (some lease') (some policy) facts nowWall
      nowMonotonic seen = .ok (.allow, reasons)) :
    InstantWithin env.host validFrom validUntil nowWall ↔
      SpelledInOrder env.host validFrom validUntil nowWall := by
  obtain ⟨hleaseFrom, hleaseUntil⟩ := minted_window_later hminted hlater
  obtain ⟨hpolicyFrom, hpolicyUntil⟩ := compileDraft_window hcompiled
  rw [hfrom, Option.getD_some] at hpolicyFrom
  rw [huntil, Option.getD_some] at hpolicyUntil
  obtain ⟨hadmits, -⟩ := verdict_allow_iff.mp hallow
  have hstarted := hadmits.started
  have hunexpired := hadmits.unexpired
  rw [hleaseFrom, hpolicyFrom] at hstarted
  rw [hleaseUntil, hpolicyUntil] at hunexpired
  exact instantWithin_iff hstart hstop hcurrent hstarted hunexpired

/-! ## A window in another zone -/

/-- A draft for one lamp, for the first of March east of Greenwich, up to three in
the afternoon. -/
def easternDraft (validUntil : String) : PolicyDraft where
  subjects := some ["agent:lamp"]
  actions := some ["lamp.on"]
  objects := some ["lamp-1"]
  purpose := some "light"
  validFrom := some "2026-03-01T00:00:00+05:00"
  validUntil := some validUntil
  riskClass := some "LOW"
  renewalMode := none
  condition := none
  numericLimits := []
  unknownFactPolicy := none
  useLimit := none
  requiredFacts := []
  sourceConversationRefs := []
  closeObligations := []

def easternPolicy (validUntil : String) : CanonicalPolicy :=
  draftedPolicy referenceHost (easternDraft validUntil) "operator:owner" "1"

def easternLease (validUntil : String) : CapabilityLease :=
  (draftLease (easternPolicy validUntil)
    ((easternPolicy validUntil).canonicalPolicyHash referenceHost) "agent:lamp"
    "lease_0" "1" ("2026-03-01T12:00:00.000Z", 0) none).opened

def easternMint (validUntil : String) : LeaseOp :=
  .mint (easternPolicy validUntil)
    (confirmationOf referenceHost (easternPolicy validUntil)) none

theorem easternDraft_compiles (validUntil : String)
    (hquestions : draftQuestions referenceHost (easternDraft validUntil) = [])
    (hproblems : validatePolicy (easternPolicy validUntil) false false = []) :
    compileDraft referenceHost (easternDraft validUntil) "operator:owner" "1" false
      false = .policy (easternPolicy validUntil) :=
  compileDraft_eq_policy_iff.mpr ⟨hquestions, rfl, hproblems⟩

theorem window_sound_evening :
    InstantWithin referenceHost "2026-03-01T00:00:00+05:00"
        "2026-03-01T20:00:00+05:00" "2026-03-01T12:00:00.000Z" ↔
      SpelledInOrder referenceHost "2026-03-01T00:00:00+05:00"
        "2026-03-01T20:00:00+05:00" "2026-03-01T12:00:00.000Z" :=
  window_sound_iff referenceEnv Dict.empty (.init .empty) [] []
    (easternDraft "2026-03-01T20:00:00+05:00") "operator:owner" "1" false false
    (easternPolicy "2026-03-01T20:00:00+05:00")
    (easternDraft_compiles _ (by decide +kernel) (by decide +kernel))
    (confirmationOf referenceHost (easternPolicy "2026-03-01T20:00:00+05:00")) none
    (easternLease "2026-03-01T20:00:00+05:00")
    (easternLease "2026-03-01T20:00:00+05:00") (by decide +kernel)
    (by decide +kernel) "2026-03-01T00:00:00+05:00" "2026-03-01T20:00:00+05:00"
    "2026-03-01T12:00:00.000Z" _ _ _ rfl rfl rfl rfl rfl
    (referenceAction "r1" "agent:lamp") Dict.empty 0 [] [] (by decide +kernel)

/-- The window ended at ten in the morning, Greenwich time; as a text its end is
still to come at noon. -/
theorem allowed_outside_window :
    ¬ ∀ (env : LeaseEnv) (situation : Dict String SituationFact)
      (gpp : PermitAuthority) (ops later : List LeaseOp)
      (draft : PolicyDraft) (issuerOperatorId digits : String)
      (allowModerate allowHighRiskLocalPolicy : Bool) (policy : CanonicalPolicy)
      (confirmation : OperatorConfirmation) (supersedesLeaseId : Option String)
      (lease lease' : CapabilityLease),
      compileDraft env.host draft issuerOperatorId digits allowModerate
        allowHighRiskLocalPolicy = .policy policy →
      outcome (mintLease env policy confirmation supersedesLeaseId)
        ((leaseMachine env).final (.init situation gpp) ops) = .ok lease →
      ((leaseMachine env).final (.init situation gpp)
        (ops ++ .mint policy confirmation supersedesLeaseId :: later)).leases.get
          lease.leaseId = some lease' →
      ∀ (validFrom validUntil nowWall : String) (start stop current : Datetime),
        draft.validFrom = some validFrom → draft.validUntil = some validUntil →
        parseRfc3339Z env.host validFrom = some start →
        parseRfc3339Z env.host validUntil = some stop →
        parseRfc3339Z env.host nowWall = some current →
        ∀ (request : ActionRequest) (facts : Snapshot) (nowMonotonic : ℚ)
          (seen reasons : List String),
          verdict env.host request (some lease') (some policy) facts nowWall
            nowMonotonic seen = .ok (.allow, reasons) →
          InstantWithin env.host validFrom validUntil nowWall := by
  intro hsound
  obtain ⟨start, stop, current, -, hstop, hcurrent, -, hlt⟩ := hsound referenceEnv
    Dict.empty (.init .empty) [] [] (easternDraft "2026-03-01T15:00:00+05:00")
    "operator:owner" "1" false false (easternPolicy "2026-03-01T15:00:00+05:00")
    (confirmationOf referenceHost (easternPolicy "2026-03-01T15:00:00+05:00")) none
    (easternLease "2026-03-01T15:00:00+05:00")
    (easternLease "2026-03-01T15:00:00+05:00")
    (easternDraft_compiles _ (by decide +kernel) (by decide +kernel))
    (by decide +kernel) (by decide +kernel) "2026-03-01T00:00:00+05:00"
    "2026-03-01T15:00:00+05:00" "2026-03-01T12:00:00.000Z" _ _ _ rfl rfl rfl rfl rfl
    (referenceAction "r1" "agent:lamp") Dict.empty 0 [] [] (by decide +kernel)
  have hpast : ∀ stop ∈ parseRfc3339Z referenceHost "2026-03-01T15:00:00+05:00",
      ∀ current ∈ parseRfc3339Z referenceHost "2026-03-01T12:00:00.000Z",
        ¬ current.instant < stop.instant := by
    decide +kernel
  exact hpast stop hstop current hcurrent hlt

end Hydrogenuine.Lease
