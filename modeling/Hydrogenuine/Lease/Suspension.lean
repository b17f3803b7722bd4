import Hydrogenuine.Lease.Lifetime
import Hydrogenuine.Lease.Standing

/-!
# Who may lift a suspension

An operator and the invalidator drive the same two edges of the transition
table, and a suspended lease does not record which of them suspended it.  The
invalidator resumes every suspended lease whose watched facts are in order, so
a fact event lifts the suspension of an operator.  `FindsFit` is the exact
condition under which it does; an operator's suspension holds in a run exactly
when no fact event of the run finds a lease that an operator holds fit.
-/

namespace Hydrogenuine.Lease

open Support Hydrogenuine.Core Gpp

variable {env : LeaseEnv} {s t : LeaseWorld}

def LeaseWorld.stateOf (s : LeaseWorld) (leaseId : String) : Option LeaseState :=
  (s.leases.get leaseId).map CapabilityLease.state

/-! ## The review of a suspended lease -/

/-- No lease but the given one changes, and no policy and no fact does. -/
def Elsewhere (host : Host) (leaseId : String) (s t : LeaseWorld) : Prop :=
  s.Fresh host → t.Fresh host ∧ t.policies = s.policies ∧
    t.leases.get leaseId = s.leases.get leaseId

instance (host : Host) (leaseId : String) : Std.Refl (Elsewhere host leaseId) where
  refl _ hs := ⟨hs, rfl, rfl⟩

instance (host : Host) (leaseId : String) :
    IsTrans LeaseWorld (Elsewhere host leaseId) where
  trans _ _ _ hst htu hs := by
    obtain ⟨ht, hpolicies, hget⟩ := hst hs
    obtain ⟨hu, hpolicies', hget'⟩ := htu ht
    exact ⟨hu, hpolicies'.trans hpolicies, hget'.trans hget⟩

theorem elsewhere_transition
    {leaseId other : String} (hne : leaseId ≠ other) (event : LeaseEvent)
    (reasonCode detail : String) :
    Along (Elsewhere env.host leaseId)
      (transition env other event reasonCode detail) := by
  apply along_of_pre
  intro s hs
  refine ends_mono (transition_ends hs other event reasonCode detail) ?_ ?_
  · rintro _ t ⟨honly, ht, ⟨hsame, -⟩ | ⟨_, _, _, -, -, hput⟩⟩
    · exact ⟨ht, honly.policies, by rw [hsame]⟩
    · exact ⟨ht, honly.policies, by rw [hput, Function.update_of_ne hne]⟩
  · rintro _ t ⟨honly, ht, hsame, -⟩
    exact ⟨ht, honly.policies, by rw [hsame]⟩

theorem elsewhere_readClock (leaseId : String) :
    Along (Elsewhere env.host leaseId) (readClock env) := by
  intro s
  exact ends_readClock fun hs => ⟨hs.mono rfl le_rfl, rfl, rfl⟩

theorem elsewhere_resumeLease
    {leaseId other : String} (hne : leaseId ≠ other) (reasonCode : String) :
    Along (Elsewhere env.host leaseId) (resumeLease env other reasonCode) := by
  apply along_bind (elsewhere_readClock leaseId)
  intro now
  apply along_bind along_get
  intro s
  split
  · exact along_pure _
  · split_ifs
    · exact elsewhere_transition hne _ _ _
    · exact elsewhere_transition hne _ _ _

theorem elsewhere_checkObligations
    (leaseId : String) (lease : CapabilityLease) (policy : CanonicalPolicy)
    (fact : SituationFact) (nowWall : String) :
    Along (Elsewhere env.host leaseId)
      (checkObligations env lease policy fact nowWall) := by
  intro s
  apply checkObligations_ends
  intro obligations hs
  exact ⟨hs.mono rfl le_rfl, rfl, rfl⟩

variable {leaseId : String} {lease : CapabilityLease} {op : LeaseOp} {tr : List LeaseStep}

theorem elsewhere_reviewLease (hne : leaseId ≠ lease.leaseId)
    (fact : SituationFact) (nowWall : String) :
    Along (Elsewhere env.host leaseId) (reviewLease env fact nowWall lease) := by
  unfold reviewLease
  split_ifs
  · apply along_bind along_get
    intro s
    split
    · exact along_pure _
    next policy =>
      split_ifs
      · apply along_bind
        · unfold suspendFirst
          split_ifs
          · exact elsewhere_transition hne _ _ _
          · exact along_pure _
        · intro _
          apply along_bind along_get
          intro u
          apply along_bind (along_raising _)
          intro ok
          apply along_bind
          · unfold resumeWhen
            split_ifs
            · exact elsewhere_resumeLease hne _
            · exact along_pure _
          · intro _
            exact elsewhere_checkObligations _ _ _ _ _
      · exact elsewhere_checkObligations _ _ _ _ _
  · exact along_pure _

/-- The review finds the lease in order: its policy watches the fact and stands,
and the lease has not expired when the clock is read for its resumption. -/
def Fit
    (env : LeaseEnv) (s : LeaseWorld) (fact : SituationFact) (nowWall : String)
    (lease : CapabilityLease) : Prop :=
  ∃ policy, s.policyFor lease = some policy ∧ fact.name ∈ policy.watched ∧
    standing env.host policy (snapshot s.situation nowWall) nowWall = .ok true ∧
    (env.clock s.ticks).1 < lease.expiresAt

/-- Resuming a suspended lease makes it active, or expires it when its window has
elapsed. -/
theorem resumeLease_suspended
    (hs : s.Fresh env.host)
    (hget : s.leases.get lease.leaseId = some lease)
    (hsuspended : lease.state = .suspended) (reasonCode : String) :
    Ends (resumeLease env lease.leaseId reasonCode) s
      (fun _ t => t.Fresh env.host ∧
        (t.stateOf lease.leaseId = some .active ↔
          (env.clock s.ticks).1 < lease.expiresAt))
      (fun _ _ => False) := by
  unfold resumeLease
  apply ends_bind
  apply ends_readClock
  apply ends_bind
  apply ends_get
  have hticked : LeaseWorld.Fresh env.host { s with ticks := s.ticks + 1 } :=
    hs.mono rfl le_rfl
  dsimp only
  rw [hget]
  dsimp only
  split_ifs with helapsed
  · have hnext : transitions lease.state .expire = some .expired := by
      rw [hsuspended]
      rfl
    refine ends_mono (transition_moves hticked hget hnext _ _) ?_
      (fun _ _ h => h)
    rintro _ t ⟨-, ht, eventId, hbook⟩
    refine ⟨ht, iff_of_false ?_ (String.not_lt.mpr helapsed)⟩
    rw [LeaseWorld.stateOf, hbook, Function.update_self]
    simp [CapabilityLease.advance]
  · have hnext : transitions lease.state .resume = some .active := by
      rw [hsuspended]
      rfl
    refine ends_mono (transition_moves hticked hget hnext _ _) ?_
      (fun _ _ h => h)
    rintro _ t ⟨-, ht, eventId, hbook⟩
    refine ⟨ht, iff_of_true ?_ (String.not_le.mp helapsed)⟩
    rw [LeaseWorld.stateOf, hbook, Function.update_self]
    rfl

/-- The review of a suspended lease makes it active exactly when it is found in
order. -/
theorem reviewLease_suspended
    (hs : s.Fresh env.host)
    (hget : s.leases.get lease.leaseId = some lease)
    (hsuspended : lease.state = .suspended) (fact : SituationFact)
    (nowWall : String) :
    Ends (reviewLease env fact nowWall lease) s
      (fun _ t => t.Fresh env.host ∧
        (t.stateOf lease.leaseId = some .active ↔ Fit env s fact nowWall lease))
      (fun _ t => t.Fresh env.host ∧
        (t.stateOf lease.leaseId = some .active ↔ Fit env s fact nowWall lease)) := by
  have hstill : s.stateOf lease.leaseId = some .suspended := by
    rw [LeaseWorld.stateOf, hget, Option.map_some, hsuspended]
  have hsame (hnot : ¬ Fit env s fact nowWall lease) {t : LeaseWorld}
      (hleases : t.leases = s.leases) :
      t.stateOf lease.leaseId = some .active ↔ Fit env s fact nowWall lease := by
    refine iff_of_false ?_ hnot
    rw [LeaseWorld.stateOf, hleases, ← LeaseWorld.stateOf, hstill]
    simp
  unfold reviewLease
  rw [if_pos (by rw [hsuspended]; rfl)]
  apply ends_bind
  apply ends_get
  cases hpolicy : s.policyFor lease with
  | none =>
      refine ends_pure ⟨hs, hsame ?_ rfl⟩
      rintro ⟨policy, hsome, -⟩
      rw [hpolicy] at hsome
      cases hsome
  | some policy =>
      dsimp only
      split_ifs with hwatched
      · have hskip : suspendFirst env fact lease = pure ⟨⟩ := by
          rw [suspendFirst, if_neg (by rw [hsuspended]; decide)]
        rw [hskip]
        apply ends_bind
        apply ends_pure
        apply ends_bind
        apply ends_get
        apply ends_bind
        apply ends_raising
        · intro ok hok
          apply ends_bind
          cases ok with
          | false =>
              apply ends_pure
              apply checkObligations_ends
              intro obligations
              refine ⟨hs.mono rfl le_rfl, hsame ?_ rfl⟩
              rintro ⟨other, hother, -, hstands, -⟩
              obtain rfl := Option.some.inj (hpolicy.symm.trans hother)
              rw [hok] at hstands
              cases hstands
          | true =>
              refine ends_mono (resumeLease_suspended hs hget hsuspended _) ?_
                (fun _ _ h => h.elim)
              rintro _ t ⟨ht, hactive⟩
              apply checkObligations_ends
              intro obligations
              refine ⟨ht.mono rfl le_rfl, hactive.trans ?_⟩
              constructor
              · intro hlt
                exact ⟨policy, hpolicy, hwatched, hok, hlt⟩
              · rintro ⟨_, -, -, -, hlt⟩
                exact hlt
        · intro e he
          refine ⟨hs, hsame ?_ rfl⟩
          rintro ⟨other, hother, -, hstands, -⟩
          obtain rfl := Option.some.inj (hpolicy.symm.trans hother)
          rw [he] at hstands
          cases hstands
      · apply checkObligations_ends
        intro obligations
        refine ⟨hs.mono rfl le_rfl, hsame ?_ rfl⟩
        rintro ⟨other, hother, hmem, -⟩
        obtain rfl := Option.some.inj (hpolicy.symm.trans hother)
        exact hwatched hmem

/-! ## A fact event -/

def reviewStart (s : LeaseWorld) (fact : SituationFact) : LeaseWorld :=
  { s with situation := s.situation.set fact.name fact, ticks := s.ticks + 1 }

/-- The fact event finds this suspended lease in order: the invalidator listens,
it comes as far as this lease, and then the lease is fit. -/
def FindsFit
    (env : LeaseEnv) (s : LeaseWorld) (fact : SituationFact)
    (leaseId : String) : Prop :=
  env.subscribed = true ∧ ∃ earlier lease later,
    s.leases.all = earlier ++ lease :: later ∧ lease.leaseId = leaseId ∧
    lease.state = .suspended ∧
    outcome (earlier.forM (reviewLease env fact (env.clock s.ticks).1))
      (reviewStart s fact) = .ok ⟨⟩ ∧
    Fit env (finalState
        (earlier.forM (reviewLease env fact (env.clock s.ticks).1))
        (reviewStart s fact))
      fact (env.clock s.ticks).1 lease

theorem Elsewhere.stateOf (h : Elsewhere env.host leaseId s t)
    (hs : s.Fresh env.host) : t.stateOf leaseId = s.stateOf leaseId := by
  rw [LeaseWorld.stateOf, (h hs).2.2, LeaseWorld.stateOf]

theorem elsewhere_reviewLoop {leases : List CapabilityLease}
    (hnot : leaseId ∉ leases.map CapabilityLease.leaseId) (fact : SituationFact)
    (nowWall : String) :
    Along (Elsewhere env.host leaseId)
      (leases.forM (reviewLease env fact nowWall)) := by
  apply along_forM
  intro lease hmem
  apply elsewhere_reviewLease
  rintro rfl
  exact hnot (List.mem_map_of_mem hmem)

/-- What the loop does to a suspended lease is what the review of this lease
does, if the loop comes so far. -/
theorem reviewLoop_suspended
    (hs : s.Fresh env.host) {earlier later : List CapabilityLease}
    (hget : s.leases.get lease.leaseId = some lease)
    (hsuspended : lease.state = .suspended)
    (hearlier : lease.leaseId ∉ earlier.map CapabilityLease.leaseId)
    (hlater : lease.leaseId ∉ later.map CapabilityLease.leaseId)
    (fact : SituationFact) (nowWall : String) :
    (finalState ((earlier ++ lease :: later).forM
        (reviewLease env fact nowWall)) s).stateOf lease.leaseId =
          some .active ↔
      outcome (earlier.forM (reviewLease env fact nowWall)) s = .ok ⟨⟩ ∧
        Fit env (finalState (earlier.forM (reviewLease env fact nowWall)) s)
          fact nowWall lease := by
  have hstill : s.stateOf lease.leaseId = some .suspended := by
    rw [LeaseWorld.stateOf, hget, Option.map_some, hsuspended]
  suffices hends : Ends ((earlier ++ lease :: later).forM
      (reviewLease env fact nowWall)) s
      (fun _ t => t.stateOf lease.leaseId = some .active ↔
        outcome (earlier.forM (reviewLease env fact nowWall)) s = .ok ⟨⟩ ∧
          Fit env (finalState (earlier.forM (reviewLease env fact nowWall)) s)
            fact nowWall lease)
      (fun _ t => t.stateOf lease.leaseId = some .active ↔
        outcome (earlier.forM (reviewLease env fact nowWall)) s = .ok ⟨⟩ ∧
          Fit env (finalState (earlier.forM (reviewLease env fact nowWall)) s)
            fact nowWall lease) by
    rcases hends.cases with ⟨_, -, hactive⟩ | ⟨_, -, hactive⟩
    · exact hactive
    · exact hactive
  have hsplit : (earlier ++ lease :: later).forM (reviewLease env fact nowWall) =
      earlier.forM (reviewLease env fact nowWall) >>= fun _ =>
        reviewLease env fact nowWall lease >>= fun _ =>
          later.forM (reviewLease env fact nowWall) := List.forM_append
  rw [hsplit]
  apply ends_bind
  refine ends_mono (ends_and (elsewhere_reviewLoop hearlier fact nowWall s)
    ends_outcome) ?_ ?_
  · rintro _ u ⟨helse, hreached, rfl⟩
    obtain ⟨hu, -, hgetu⟩ := helse hs
    have hfit : ∀ {t : LeaseWorld}, (t.stateOf lease.leaseId = some .active ↔
        Fit env (finalState (earlier.forM (reviewLease env fact nowWall)) s) fact
          nowWall lease) →
        (t.stateOf lease.leaseId = some .active ↔
          outcome (earlier.forM (reviewLease env fact nowWall)) s = .ok ⟨⟩ ∧
            Fit env (finalState (earlier.forM (reviewLease env fact nowWall)) s)
              fact nowWall lease) := fun h =>
      h.trans (iff_and_self.mpr fun _ => hreached)
    apply ends_bind
    refine ends_mono (reviewLease_suspended hu (hgetu.trans hget) hsuspended fact
      nowWall) ?_ ?_
    · rintro _ t ⟨ht, hactive⟩
      have hlast := (elsewhere_reviewLoop hlater fact nowWall :
        Along (Elsewhere env.host lease.leaseId) _) t
      refine ends_mono hlast ?_ ?_
      · intro _ w hw
        rw [hw.stateOf ht]
        exact hfit hactive
      · intro _ w hw
        rw [hw.stateOf ht]
        exact hfit hactive
    · rintro _ t ⟨-, hactive⟩
      exact hfit hactive
  · rintro e u ⟨helse, hraised, -⟩
    refine iff_of_false ?_ ?_
    · rw [helse.stateOf hs, hstill]
      simp
    · rintro ⟨hreached, -⟩
      rw [hraised] at hreached
      cases hreached

theorem finalState_putFact (s : LeaseWorld) (fact : SituationFact) :
    finalState (putFact env fact) s =
      if env.subscribed then
        finalState (s.leases.all.forM
          (reviewLease env fact (env.clock s.ticks).1)) (reviewStart s fact)
      else { s with situation := s.situation.set fact.name fact } := by
  unfold putFact
  split_ifs
  · rfl
  · rfl

theorem FindsFit.stateOf
    {fact : SituationFact}
    (h : FindsFit env s fact leaseId) : s.stateOf leaseId = some .suspended := by
  obtain ⟨-, earlier, lease, later, hall, rfl, hstate, -⟩ := h
  have hget : s.leases.get lease.leaseId = some lease := by
    rw [← LeaseStore.mem_all_iff, hall]
    exact List.mem_append_right _ List.mem_cons_self
  rw [LeaseWorld.stateOf, hget, Option.map_some, hstate]

theorem putFact_suspended
    (hs : s.Fresh env.host)
    (hsuspended : s.stateOf leaseId = some .suspended) (fact : SituationFact) :
    (finalState (putFact env fact) s).stateOf leaseId = some .active ↔
      FindsFit env s fact leaseId := by
  rw [finalState_putFact]
  split_ifs with hlistens
  · have hstart : (reviewStart s fact).Fresh env.host := hs.mono rfl le_rfl
    have hloop : ∀ {earlier : List CapabilityLease} {lease : CapabilityLease}
        {later : List CapabilityLease},
        s.leases.all = earlier ++ lease :: later → lease.leaseId = leaseId →
        ((finalState (s.leases.all.forM
            (reviewLease env fact (env.clock s.ticks).1))
            (reviewStart s fact)).stateOf leaseId = some .active ↔
          outcome (earlier.forM (reviewLease env fact (env.clock s.ticks).1))
              (reviewStart s fact) = .ok ⟨⟩ ∧
            Fit env (finalState
                (earlier.forM (reviewLease env fact (env.clock s.ticks).1))
                (reviewStart s fact))
              fact (env.clock s.ticks).1 lease) := by
      intro earlier lease later hall hid
      subst hid
      have hget : s.leases.get lease.leaseId = some lease := by
        rw [← LeaseStore.mem_all_iff, hall]
        exact List.mem_append_right _ List.mem_cons_self
      have hstate : lease.state = .suspended := by
        rw [LeaseWorld.stateOf, hget] at hsuspended
        exact Option.some.inj hsuspended
      have hnodup := nodup_leaseIds s.leases
      rw [hall, List.map_append, List.map_cons, List.nodup_append,
        List.nodup_cons] at hnodup
      obtain ⟨-, ⟨hlater, -⟩, hdisjoint⟩ := hnodup
      rw [hall]
      refine reviewLoop_suspended hstart hget hstate (fun hmem => ?_) hlater fact
        _
      exact hdisjoint _ hmem _ List.mem_cons_self rfl
    constructor
    · intro hactive
      obtain ⟨lease, hget, hstate⟩ := Option.map_eq_some_iff.mp hsuspended
      obtain ⟨earlier, later, hall⟩ :=
        List.append_of_mem (LeaseStore.mem_all_iff.mpr
          (LeaseStore.leaseId_of_get hget ▸ hget))
      have hid := LeaseStore.leaseId_of_get hget
      obtain ⟨hreached, hfit⟩ := (hloop hall hid).mp hactive
      exact ⟨hlistens, earlier, lease, later, hall, hid, hstate, hreached, hfit⟩
    · rintro ⟨-, earlier, lease, later, hall, hid, -, hreached, hfit⟩
      exact (hloop hall hid).mpr ⟨hreached, hfit⟩
  · refine iff_of_false ?_ (fun hfit => hlistens hfit.1)
    change s.stateOf leaseId ≠ _
    rw [hsuspended]
    simp

/-! ## What one call does to a suspension -/

theorem stateOf_of_get
    (hget : s.leases.get leaseId = some lease) :
    s.stateOf leaseId = some lease.state := by
  rw [LeaseWorld.stateOf, hget, Option.map_some]

theorem leaseStep_suspended
    (hs : s.Fresh env.host)
    (hsuspended : s.stateOf leaseId = some .suspended) (op : LeaseOp) :
    ∃ state, (leaseStep env s op).1.stateOf leaseId = some state ∧
      (state = .suspended ∨ state = .active ∨ state.isTerminal = true) := by
  obtain ⟨lease, hget, hstate⟩ := Option.map_eq_some_iff.mp hsuspended
  obtain ⟨lease', hget', hlater⟩ := leaseStep_laterRecord hs op hget
  refine ⟨lease'.state, stateOf_of_get hget', ?_⟩
  have hentered : lease'.state.entered = true := by
    have hkept : ∀ {a b}, Relation.ReflTransGen Edge a b → a.entered = true →
        b.entered = true := by
      intro a b hrun ha
      induction hrun with
      | refl => exact ha
      | tail _ hedge ih => exact entered_of_edge hedge ih
    exact hkept hlater.edges (by rw [hstate]; rfl)
  cases hlast : lease'.state <;> simp_all [LeaseState.entered,
    LeaseState.isLive, LeaseState.isTerminal]

theorem leaseStep_terminal
    (hs : s.Fresh env.host) {state : LeaseState}
    (hstate : s.stateOf leaseId = some state)
    (hterminal : state.isTerminal = true) (op : LeaseOp) :
    (leaseStep env s op).1.stateOf leaseId = some state := by
  obtain ⟨lease, hget, rfl⟩ := Option.map_eq_some_iff.mp hstate
  obtain ⟨lease', hget', hlater⟩ := leaseStep_laterRecord hs op hget
  rw [stateOf_of_get hget', eq_of_edges_of_isTerminal hlater.edges hterminal]

theorem moves_suspended
    {Events : LeaseEvent → Prop} {lease lease' : CapabilityLease}
    (hrun : Relation.ReflTransGen (MovesBy Events) lease lease')
    (hresume : ¬ Events .resume) (hsuspended : lease.state = .suspended) :
    lease'.state ≠ .active := by
  have hkept : lease'.state = .suspended ∨ lease'.state.isTerminal = true := by
    induction hrun with
    | refl => exact Or.inl hsuspended
    | tail _ hmove ih =>
        obtain ⟨event, state, eventId, hevent, hnext, rfl⟩ := hmove
        change state = .suspended ∨ state.isTerminal = true
        rcases ih with hmid | hmid
        · rw [hmid] at hnext
          cases event <;> cases hnext
          all_goals first | exact Or.inr rfl | exact absurd hevent hresume
        · rw [transitions_of_isTerminal hmid] at hnext
          cases hnext
  rintro hactive
  rw [hactive] at hkept
  simp [LeaseState.isTerminal] at hkept

theorem moves_unsuspended
    {Events : LeaseEvent → Prop} {lease lease' : CapabilityLease}
    (hrun : Relation.ReflTransGen (MovesBy Events) lease lease')
    (hsuspend : ¬ Events .suspend) (hnot : lease.state ≠ .suspended) :
    lease'.state ≠ .suspended := by
  induction hrun with
  | refl => exact hnot
  | tail _ hmove ih =>
      obtain ⟨event, state, eventId, hevent, hnext, rfl⟩ := hmove
      rintro hstate
      change state = .suspended at hstate
      subst hstate
      have hsuspends : event = .suspend := by
        revert hnext
        generalize CapabilityLease.state _ = before
        cases before <;> cases event <;> simp [transitions]
      exact hsuspend (hsuspends ▸ hevent)

theorem authorize_stateOf
    (hs : s.Fresh env.host) (request : ActionRequest) (leaseId : String) :
    (leaseStep env s (.authorize request)).1.stateOf leaseId =
        s.stateOf leaseId ∨
      s.stateOf leaseId = some .active ∧
        (leaseStep env s (.authorize request)).1.stateOf leaseId ≠
          some .suspended := by
  rcases leaseStep_authorized hs request with
    ⟨answer, -, hauthorized⟩ | ⟨e, -, hraised⟩
  · rcases hauthorized.effect with hrefused | ⟨lease, lease', _, hby⟩
    · left
      rw [LeaseWorld.stateOf, hrefused.leases, LeaseWorld.stateOf]
    · by_cases hid : leaseId = lease.leaseId
      · subst hid
        right
        have hlast := hby.spends.state_cases.2
        rw [stateOf_of_get hby.by_lease.filed, hby.by_lease.active,
          LeaseWorld.stateOf, hby.book, Function.update_self, Option.map_some]
        refine ⟨rfl, fun hsuspended => ?_⟩
        rw [Option.some.inj hsuspended] at hlast
        simp at hlast
      · left
        rw [LeaseWorld.stateOf, hby.book, Function.update_of_ne hid,
          LeaseWorld.stateOf]
  · left
    rw [LeaseWorld.stateOf, hraised.untouched.leases, LeaseWorld.stateOf]

theorem LeaseOp.exists_of_events_resume (h : op.events .resume) :
    (∃ other reasonCode, op = .resume other reasonCode) ∨
      ∃ fact, op = .putFact fact := by
  cases op with
  | resume other reasonCode => exact Or.inl ⟨other, reasonCode, rfl⟩
  | putFact fact => exact Or.inr ⟨fact, rfl⟩
  | _ => simp [LeaseOp.events] at h

theorem LeaseOp.exists_of_events_suspend (h : op.events .suspend) :
    (∃ other reasonCode, op = .suspend other reasonCode) ∨
      ∃ fact, op = .putFact fact := by
  cases op with
  | suspend other reasonCode => exact Or.inl ⟨other, reasonCode, rfl⟩
  | putFact fact => exact Or.inr ⟨fact, rfl⟩
  | _ => simp [LeaseOp.events] at h

/-- A suspended lease becomes active only by an operator's resumption of it, or
by a fact event that finds it fit. -/
theorem leaseStep_wakes
    (hs : s.Fresh env.host)
    (hsuspended : s.stateOf leaseId = some .suspended)
    (hactive : (leaseStep env s op).1.stateOf leaseId = some .active) :
    (∃ reasonCode, op = .resume leaseId reasonCode) ∨
      ∃ fact, op = .putFact fact ∧ FindsFit env s fact leaseId := by
  by_cases hop : ∃ request, op = .authorize request
  · obtain ⟨request, rfl⟩ := hop
    rcases authorize_stateOf hs request leaseId with hsame | ⟨hbefore, -⟩
    · rw [hactive, hsuspended] at hsame
      cases hsame
    · rw [hsuspended] at hbefore
      cases hbefore
  · have hquiet := leaseStep_quiet hs fun request heq => hop ⟨request, heq⟩
    obtain ⟨lease, hget, hstate⟩ := Option.map_eq_some_iff.mp hsuspended
    obtain ⟨lease', hget', hmoves⟩ := hquiet.book.evolves hget
    have hresume : op.events .resume := by
      by_contra hnone
      rw [stateOf_of_get hget'] at hactive
      exact moves_suspended hmoves hnone hstate (Option.some.inj hactive)
    rcases LeaseOp.exists_of_events_resume hresume with
      ⟨other, reasonCode, rfl⟩ | ⟨fact, rfl⟩
    · left
      by_cases hid : leaseId = other
      · subst hid
        exact ⟨reasonCode, rfl⟩
      · have hsame := ((elsewhere_resumeLease hid reasonCode).finalState s).stateOf
          hs
        rw [hsuspended] at hsame
        rw [show (leaseStep env s (.resume other reasonCode)).1 = finalState
          (resumeLease env other reasonCode) s from rfl, hsame] at hactive
        cases hactive
    · exact Or.inr ⟨fact, rfl, (putFact_suspended hs hsuspended fact).mp hactive⟩

theorem opens_unsuspended (h : op.opens env lease) :
    lease.state ≠ .suspended := by
  cases op with
  | mint policy confirmation supersedesLeaseId =>
      rw [MintedFrom.state h]
      decide
  | delegate parent args =>
      rw [DelegatedFrom.state h]
      decide
  | _ => exact h.elim

/-- A lease becomes suspended only by an operator's suspension of it, or by a
fact event. -/
theorem leaseStep_suspends
    (hs : s.Fresh env.host)
    (hbefore : s.stateOf leaseId ≠ some .suspended)
    (hafter : (leaseStep env s op).1.stateOf leaseId = some .suspended) :
    (∃ reasonCode, op = .suspend leaseId reasonCode) ∨
      ∃ fact, op = .putFact fact := by
  by_cases hop : ∃ request, op = .authorize request
  · obtain ⟨request, rfl⟩ := hop
    rcases authorize_stateOf hs request leaseId with hsame | ⟨-, hnot⟩
    · exact absurd (hsame.symm.trans hafter) hbefore
    · exact absurd hafter hnot
  · have hquiet := leaseStep_quiet hs fun request heq => hop ⟨request, heq⟩
    obtain ⟨lease', hget', hstate'⟩ := Option.map_eq_some_iff.mp hafter
    have hsuspend : op.events .suspend := by
      by_contra hnone
      cases hget : s.leases.get leaseId with
      | none =>
          obtain ⟨lease, hopens, hmoves⟩ := hquiet.book.origin hget hget'
          exact moves_unsuspended hmoves hnone (opens_unsuspended hopens) hstate'
      | some lease =>
          obtain ⟨last, hlast, hmoves⟩ := hquiet.book.evolves hget
          obtain rfl := Option.some.inj (hlast.symm.trans hget')
          refine moves_unsuspended hmoves hnone (fun hstate => ?_) hstate'
          exact hbefore (by rw [stateOf_of_get hget, hstate])
    rcases LeaseOp.exists_of_events_suspend hsuspend with
      ⟨other, reasonCode, rfl⟩ | ⟨fact, rfl⟩
    · left
      by_cases hid : leaseId = other
      · subst hid
        exact ⟨reasonCode, rfl⟩
      · have hsame := ((elsewhere_transition hid .suspend reasonCode "").finalState
          s).stateOf hs
        rw [show (leaseStep env s (.suspend other reasonCode)).1 = finalState
          (transition env other .suspend reasonCode "") s from rfl, hsame] at hafter
        exact absurd hafter hbefore
    · exact Or.inr ⟨fact, rfl⟩

/-! ## Suspensions over a run -/

def Suspends (leaseId : String) (e : LeaseStep) : Prop :=
  e.before.stateOf leaseId ≠ some .suspended ∧
    e.after.stateOf leaseId = some .suspended

/-- An operator asks for the suspension of the lease. -/
def ByOperator (leaseId : String) (e : LeaseStep) : Prop :=
  ∃ reasonCode, e.input = .suspend leaseId reasonCode

def ByFact (e : LeaseStep) : Prop := ∃ fact, e.input = .putFact fact

def OperatorResumes (leaseId : String) (e : LeaseStep) : Prop :=
  (∃ reasonCode, e.input = .resume leaseId reasonCode) ∧
    e.after.stateOf leaseId = some .active

/-- The last suspension of the lease is of this kind, and still in force. -/
def HeldBy
    (Kind : LeaseStep → Prop) (leaseId : String) (tr : List LeaseStep) : Prop :=
  ∃ earlier e since, tr = earlier ++ e :: since ∧ Suspends leaseId e ∧ Kind e ∧
    ∀ later ∈ since, later.after.stateOf leaseId = some .suspended

def HeldOrEnded (s : LeaseWorld) (leaseId : String) : Prop :=
  ∃ state, s.stateOf leaseId = some state ∧
    (state = .suspended ∨ state.isTerminal = true)

/-- After an operator's suspension that no operator has lifted the lease is
still suspended or has ended, and a fact event lifts only a suspension made by a
fact event. -/
def KeepsSuspension (earlier : List LeaseStep) (e : LeaseStep) : Prop :=
  ∀ leaseId,
    (∀ first suspension since, earlier = first ++ suspension :: since →
      Suspends leaseId suspension → ByOperator leaseId suspension →
      (∀ later ∈ since ++ [e], ¬ OperatorResumes leaseId later) →
        HeldOrEnded e.after leaseId) ∧
    (ByFact e → e.before.stateOf leaseId = some .suspended →
      e.after.stateOf leaseId = some .active → HeldBy ByFact leaseId earlier)

/-- If the step is a fact event, it finds no lease fit that an operator
holds. -/
def SparesHeld
    (env : LeaseEnv) (earlier : List LeaseStep) (e : LeaseStep) : Prop :=
  ∀ fact leaseId, e.input = .putFact fact →
    HeldBy (ByOperator leaseId) leaseId earlier →
      ¬ FindsFit env e.before fact leaseId

section Histories

variable {Kind : LeaseStep → Prop} {leaseId : String} {tr : List LeaseStep}
  {e : LeaseStep}

theorem HeldBy.concat
    (h : HeldBy Kind leaseId tr)
    (hafter : e.after.stateOf leaseId = some .suspended) :
    HeldBy Kind leaseId (tr ++ [e]) := by
  obtain ⟨earlier, suspension, since, rfl, hsuspends, hkind, hsince⟩ := h
  refine ⟨earlier, suspension, since ++ [e], ?_, hsuspends, hkind, ?_⟩
  · rw [List.append_assoc, List.cons_append]
  · intro later hlater
    rcases List.mem_append.mp hlater with hlater | hlater
    · exact hsince later hlater
    · rw [List.mem_singleton.mp hlater]
      exact hafter

theorem heldBy_of_suspends
    (hsuspends : Suspends leaseId e) (hkind : Kind e) :
    HeldBy Kind leaseId (tr ++ [e]) :=
  ⟨tr, e, [], rfl, hsuspends, hkind, fun _ h => absurd h List.not_mem_nil⟩

end Histories

/-- What the steps so far say about the suspensions of this state. -/
structure Custody (host : Host) (tr : List LeaseStep) (s : LeaseWorld) : Prop where
  fresh : s.Fresh host
  someone : ∀ leaseId, s.stateOf leaseId = some .suspended →
    HeldBy (ByOperator leaseId) leaseId tr ∨ HeldBy ByFact leaseId tr
  operator : ∀ leaseId earlier suspension since,
    tr = earlier ++ suspension :: since → Suspends leaseId suspension →
    ByOperator leaseId suspension →
    (∀ later ∈ since, ¬ OperatorResumes leaseId later) →
      HeldBy (ByOperator leaseId) leaseId tr ∧
          s.stateOf leaseId = some .suspended ∨
        ∃ state, s.stateOf leaseId = some state ∧ state.isTerminal = true

/-- A step that spares the leases that operators hold leaves a lease suspended
or ended, unless an operator resumes it. -/
theorem heldOrEnded_step (hs : s.Fresh env.host)
    (hheld : HeldBy (ByOperator leaseId) leaseId tr ∧
          s.stateOf leaseId = some .suspended ∨
        ∃ state, s.stateOf leaseId = some state ∧ state.isTerminal = true) (hspares : SparesHeld env tr ((leaseMachine env).stepAt s op))
    (hnot : ¬ OperatorResumes leaseId ((leaseMachine env).stepAt s op)) :
    HeldBy (ByOperator leaseId) leaseId (tr ++ [(leaseMachine env).stepAt s op]) ∧
          (leaseStep env s op).1.stateOf leaseId = some .suspended ∨
        ∃ state, (leaseStep env s op).1.stateOf leaseId = some state ∧
          state.isTerminal = true := by
  rcases hheld with ⟨hheld, hsuspended⟩ | ⟨state, hstate, hterminal⟩
  · obtain ⟨state, hstate, rfl | rfl | hterminal⟩ :=
      leaseStep_suspended hs hsuspended op
    · exact Or.inl ⟨hheld.concat hstate, hstate⟩
    · exfalso
      rcases leaseStep_wakes hs hsuspended hstate with
        ⟨reasonCode, rfl⟩ | ⟨fact, rfl, hfit⟩
      · exact hnot ⟨⟨reasonCode, rfl⟩, hstate⟩
      · exact hspares fact leaseId rfl hheld hfit
    · exact Or.inr ⟨state, hstate, hterminal⟩
  · exact Or.inr ⟨state, leaseStep_terminal hs hstate hterminal op, hterminal⟩

theorem Custody.step (h : Custody env.host tr s)
    (hspares : SparesHeld env tr ((leaseMachine env).stepAt s op)) :
    Custody env.host (tr ++ [(leaseMachine env).stepAt s op])
      (leaseStep env s op).1 where
  fresh := leaseStep_fresh h.fresh op
  someone leaseId hafter := by
    by_cases hbefore : s.stateOf leaseId = some .suspended
    · exact (h.someone leaseId hbefore).imp (·.concat hafter) (·.concat hafter)
    · rcases leaseStep_suspends h.fresh hbefore hafter with
        ⟨reasonCode, rfl⟩ | ⟨fact, rfl⟩
      · exact Or.inl (heldBy_of_suspends ⟨hbefore, hafter⟩ ⟨reasonCode, rfl⟩)
      · exact Or.inr (heldBy_of_suspends ⟨hbefore, hafter⟩ ⟨fact, rfl⟩)
  operator leaseId earlier suspension since htr hsuspends hoperator hnone := by
    rcases List.eq_nil_or_concat since with rfl | ⟨since, last, rfl⟩
    · obtain ⟨rfl, hlist⟩ := List.append_inj' htr rfl
      obtain ⟨rfl, -⟩ := List.cons.inj hlist
      exact Or.inl ⟨heldBy_of_suspends hsuspends hoperator, hsuspends.2⟩
    · rw [List.concat_eq_append] at htr hnone
      rw [← List.cons_append, ← List.append_assoc] at htr
      obtain ⟨rfl, hlist⟩ := List.append_inj' htr rfl
      obtain ⟨rfl, -⟩ := List.cons.inj hlist
      obtain ⟨hsince, hlast⟩ := List.forall_mem_append.mp hnone
      exact heldOrEnded_step h.fresh
        (h.operator leaseId earlier suspension since rfl hsuspends hoperator hsince)
        hspares (hlast _ List.mem_cons_self)

theorem Custody.keepsSuspension_iff (h : Custody env.host tr s) (op : LeaseOp) :
    KeepsSuspension tr ((leaseMachine env).stepAt s op) ↔
      SparesHeld env tr ((leaseMachine env).stepAt s op) := by
  constructor
  · rintro hkeeps fact leaseId hop ⟨earlier, suspension, since, htr, hsuspends,
      hoperator, hsince⟩ hfit
    have hactive : (leaseStep env s op).1.stateOf leaseId = some .active := by
      rw [show op = .putFact fact from hop]
      exact (putFact_suspended h.fresh hfit.stateOf fact).mpr hfit
    have hnone : ∀ later ∈ since ++ [(leaseMachine env).stepAt s op],
        ¬ OperatorResumes leaseId later := by
      rintro later hlater ⟨⟨reasonCode, hresume⟩, hwoken⟩
      rcases List.mem_append.mp hlater with hlater | hlater
      · have heq := (hsince later hlater).symm.trans hwoken
        cases heq
      · rw [List.mem_singleton.mp hlater] at hresume
        have heq := hop.symm.trans hresume
        cases heq
    obtain ⟨state, hstate, hheld⟩ := (hkeeps leaseId).1 earlier suspension since
      htr hsuspends hoperator hnone
    obtain rfl := Option.some.inj (hactive.symm.trans hstate)
    simp [LeaseState.isTerminal] at hheld
  · intro hspares leaseId
    constructor
    · intro earlier suspension since htr hsuspends hoperator hnone
      obtain ⟨hsince, hlast⟩ := List.forall_mem_append.mp hnone
      rcases heldOrEnded_step h.fresh (h.operator leaseId earlier suspension since
        htr hsuspends hoperator hsince) hspares (hlast _ List.mem_cons_self) with
        ⟨-, hstate⟩ | ⟨state, hstate, hterminal⟩
      · exact ⟨_, hstate, Or.inl rfl⟩
      · exact ⟨state, hstate, Or.inr hterminal⟩
    · rintro ⟨fact, hop⟩ hbefore hactive
      rcases leaseStep_wakes h.fresh hbefore hactive with
        ⟨reasonCode, rfl⟩ | ⟨fact', rfl, hfit⟩
      · cases hop
      · refine (h.someone leaseId hbefore).resolve_left fun hoperator => ?_
        exact hspares fact' leaseId rfl hoperator hfit

/-- In every run of a new service operators' suspensions hold until an operator
lifts them, and fact events lift only suspensions made by fact events, exactly
when no fact event finds a lease fit that an operator holds suspended. -/
theorem operator_suspension_holds
    (env : LeaseEnv) (situation : Dict String SituationFact)
    (gpp : PermitAuthority) (ops : List LeaseOp) :
    (∀ earlier e later, (leaseMachine env).trace (.init situation gpp) ops =
        earlier ++ e :: later → KeepsSuspension earlier e) ↔
      ∀ earlier e later, (leaseMachine env).trace (.init situation gpp) ops =
        earlier ++ e :: later → SparesHeld env earlier e := by
  refine Machine.forall_split_iff (Custody env.host) _ _
    ⟨LeaseWorld.fresh_init env.host situation gpp, ?_, ?_⟩
    (fun _ _ op hcustody => hcustody.keepsSuspension_iff op)
    (fun _ _ _ hcustody hspares => hcustody.step hspares) ops
  · intro leaseId hsuspended
    cases hsuspended
  · intro leaseId earlier suspension since htr
    cases earlier <;> cases htr

def knownDoorPolicy : CanonicalPolicy :=
  { referencePolicy 1 with requiredFacts := ["door"] }

def repeatedDoorRun : List LeaseOp :=
  [.mint knownDoorPolicy (confirmationOf referenceHost knownDoorPolicy) none,
    .suspend "lease_0" "operator.pause", .putFact openDoorFact]

theorem not_keepsSuspension
    {leaseId reasonCode : String} {fact : SituationFact} (first : LeaseStep)
    (hbefore : s.stateOf leaseId = some .active)
    (hafter : (leaseStep env s (.suspend leaseId reasonCode)).1.stateOf leaseId =
      some .suspended)
    (hlifted : (leaseStep env (leaseStep env s (.suspend leaseId reasonCode)).1
      (.putFact fact)).1.stateOf leaseId = some .active) :
    ¬ KeepsSuspension
      [first, (leaseMachine env).stepAt s (.suspend leaseId reasonCode)]
      ((leaseMachine env).stepAt
        (leaseStep env s (.suspend leaseId reasonCode)).1 (.putFact fact)) := by
  intro hkeeps
  have hsuspends : Suspends leaseId
      ((leaseMachine env).stepAt s (.suspend leaseId reasonCode)) := by
    refine ⟨?_, hafter⟩
    change s.stateOf leaseId ≠ _
    rw [hbefore]
    decide
  obtain ⟨state, hstate, hheld⟩ := (hkeeps leaseId).1 [first] _ [] rfl hsuspends
    ⟨reasonCode, rfl⟩ (by
      rintro later hlater ⟨⟨reason, hresume⟩, -⟩
      rw [List.mem_singleton.mp hlater] at hresume
      cases hresume)
  obtain rfl := Option.some.inj (hlifted.symm.trans hstate)
  simp [LeaseState.isTerminal] at hheld

theorem repeated_fact_lifts_suspension :
    ¬ ∀ earlier e later, (leaseMachine referenceEnv).trace
        (.init (Dict.empty.set "door" openDoorFact) (.init .empty))
          repeatedDoorRun = earlier ++ e :: later → KeepsSuspension earlier e := by
  intro hkeeps
  let s₀ : LeaseWorld := .init (Dict.empty.set "door" openDoorFact) (.init .empty)
  let s₁ := (leaseStep referenceEnv s₀ (.mint knownDoorPolicy
    (confirmationOf referenceHost knownDoorPolicy) none)).1
  let s₂ := (leaseStep referenceEnv s₁ (.suspend "lease_0" "operator.pause")).1
  have hstates : s₁.stateOf "lease_0" = some .active ∧
      s₂.stateOf "lease_0" = some .suspended ∧
      (leaseStep referenceEnv s₂ (.putFact openDoorFact)).1.stateOf "lease_0" =
        some .active := by
    decide +kernel
  obtain ⟨hbefore, hafter, hlifted⟩ := hstates
  exact not_keepsSuspension _ hbefore hafter hlifted (hkeeps _ _ [] rfl)

end Hydrogenuine.Lease
