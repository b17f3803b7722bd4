import Hydrogenuine.Core.ReferenceHost
import Hydrogenuine.Lease.Authorization
import Hydrogenuine.Lease.Entries
import Hydrogenuine.Support.Machine

/-!
# The lease service as a machine

Every call on the lease authority, the delegation functions, the crossing and
the situation store is one input; a call that raises keeps the changes it made
before.  `leaseStep_quiet` and `leaseStep_authorized` say what one step can do,
and every property of runs is derived from these two.
-/

namespace Hydrogenuine.Lease

open Support Hydrogenuine.Core Gpp

/-- The calls on the service. -/
inductive LeaseOp where
  | mint (policy : CanonicalPolicy) (confirmation : OperatorConfirmation)
      (supersedesLeaseId : Option String)
  | delegate (parent : CapabilityLease) (args : DelegationArgs)
  | authorize (request : ActionRequest)
  | dispatch (authorized : AuthorizedAction) (request : ActionRequest)
  | suspend (leaseId reasonCode : String)
  | resume (leaseId reasonCode : String)
  | expire (leaseId : String)
  | revoke (leaseId revokerRef reasonCode : String)
  | revokeAll (revokerRef : String)
  | revokeDelegationsOf (parentLeaseId nowWall : String)
  | putFact (fact : SituationFact)

inductive LeaseReply where
  | minted (result : Except PyError CapabilityLease)
  | delegated (result : Except PyError CapabilityLease)
  | authorized (result : Except PyError AuthorizedAction)
  | dispatched (result : Except PyError CrossingResult)
  | done (result : Except PyError PUnit)
  | revokedAll (result : Except PyError ℕ)
  | cascaded (result : Except PyError (List String))

abbrev LeaseStep := Step LeaseWorld LeaseOp LeaseReply

/-- The state a call leaves and what it returns or raises. -/
def answering {α : Type}
    (m : LeaseM α) (reply : Except PyError α → LeaseReply) (s : LeaseWorld) :
    LeaseWorld × LeaseReply :=
  (finalState m s, reply (outcome m s))

def leaseStep (env : LeaseEnv) (s : LeaseWorld) :
    LeaseOp → LeaseWorld × LeaseReply
  | .mint policy confirmation supersedesLeaseId =>
      answering (mintLease env policy confirmation supersedesLeaseId) .minted s
  | .delegate parent args =>
      answering (delegateLease env parent args) .delegated s
  | .authorize request => answering (authorize env request) .authorized s
  | .dispatch authorized request =>
      answering (dispatch env authorized request) .dispatched s
  | .suspend leaseId reasonCode =>
      answering (suspendLease env leaseId reasonCode) .done s
  | .resume leaseId reasonCode =>
      answering (resumeLease env leaseId reasonCode) .done s
  | .expire leaseId => answering (expireLease env leaseId) .done s
  | .revoke leaseId revokerRef reasonCode =>
      answering (revokeLease env leaseId revokerRef reasonCode) .done s
  | .revokeAll revokerRef => answering (revokeAll env revokerRef) .revokedAll s
  | .revokeDelegationsOf parentLeaseId nowWall =>
      answering (revokeDelegationsOf env parentLeaseId nowWall) .cascaded s
  | .putFact fact => answering (putFact env fact) .done s

def leaseMachine (env : LeaseEnv) : Machine LeaseWorld LeaseOp LeaseReply where
  step := leaseStep env

def LeaseReply.decision? : LeaseReply → Option Decision
  | .authorized (.ok answer) => some answer.decision
  | _ => none

def allowsWhere (test : Decision → Bool) (e : LeaseStep) : Bool :=
  match e.output.decision? with
  | some decision => decide (decision.outcome = .allow) && test decision
  | none => false

def allowsUnder (leaseId : String) (e : LeaseStep) : Bool :=
  allowsWhere (fun decision => decide (decision.leaseId = some leaseId)) e

/-! ## What one step can do -/

def LeaseOp.opens (env : LeaseEnv) : LeaseOp → CapabilityLease → Prop
  | .mint policy _ _, lease => MintedFrom env policy lease
  | .delegate parent args, lease => DelegatedFrom parent args lease
  | _, _ => False

/-- The policy that a call hands to `mint_lease`. -/
def LeaseOp.policy? : LeaseOp → Option CanonicalPolicy
  | .mint policy _ _ => some policy
  | _ => none

/-- A policy is filed only under its own hash and only by the call it was
handed to. -/
def FilesOwnPolicy
    (env : LeaseEnv) (op : LeaseOp) (s t : LeaseWorld) : Prop :=
  t.policies = s.policies ∨
    ∃ policy, op.policy? = some policy ∧
      t.policies = s.policies.set (policy.canonicalPolicyHash env.host) policy

/-- The events that a call other than `authorize` may apply to filed leases. -/
def LeaseOp.events : LeaseOp → LeaseEvent → Prop
  | .mint .., event => event = .supersede
  | .suspend .., event => event = .suspend
  | .resume .., event => event = .resume ∨ event = .expire
  | .expire .., event => event = .expire
  | .revoke .., event => event = .revoke
  | .revokeAll .., event => event = .revoke
  | .revokeDelegationsOf .., event => event = .revoke
  | .putFact .., event =>
      event = .suspend ∨ event = .resume ∨ event = .expire
  | _, _ => False

/-- What every call but `authorize` does. -/
structure QuietStep (env : LeaseEnv) (op : LeaseOp) (s t : LeaseWorld) : Prop
    extends QuietEffect env.host (op.opens env) op.events s t where
  policies : FilesOwnPolicy env op s t

variable {op : LeaseOp} {leaseId : String}

theorem LeaseOp.events_ne_exhaust {event : LeaseEvent} (h : op.events event) :
    event ≠ .exhaust := by
  rintro rfl
  cases op <;> simp [events] at h

variable {env : LeaseEnv} {s t : LeaseWorld}

theorem QuietStep.moves (h : QuietStep env op s t) :
    BookSteps (op.opens env) Moves s.leases.get t.leases.get :=
  h.book.mono (fun _ hopens => hopens)
    (fun _ _ hmoves => hmoves.mono fun _ => LeaseOp.events_ne_exhaust)

theorem MintEffect.bookSteps
    {policy : CanonicalPolicy} {supersedesLeaseId : Option String}
    {lease : CapabilityLease}
    (h : MintEffect env s t policy supersedesLeaseId lease) :
    BookSteps (MintedFrom env policy) (MovesBy (· = .supersede)) s.leases.get
      t.leases.get := by
  have hentered : BookSteps (MintedFrom env policy)
      (MovesBy (· = .supersede)) s.leases.get
      (Function.update s.leases.get lease.leaseId (some lease)) :=
    BookSteps.single (BookStep.opened lease.leaseId lease h.unused h.minted)
  rcases h.book with hsame | ⟨old, filed, eventId, -, hfiled, hnext, hbook⟩
  · rw [hsame]
    exact hentered
  · rw [hbook]
    exact hentered.trans (BookSteps.single (BookStep.moved old filed _ hfiled
      ⟨.supersede, .superseded, eventId, rfl, hnext, rfl⟩))

theorem RevokedExactly.bookSteps
    {Opens : CapabilityLease → Prop} {ids : List String} (hnodup : ids.Nodup) :
    ∀ {book book' : String → Option CapabilityLease},
      RevokedExactly ids book book' →
        BookSteps Opens (MovesBy (· = .revoke)) book book' := by
  induction ids with
  | nil =>
      intro book book' h
      have hsame : book' = book := by
        funext leaseId
        exact (h leaseId).1 (List.not_mem_nil)
      rw [hsame]
      exact BookSteps.refl _
  | cons id ids ih =>
      intro book book' h
      rw [List.nodup_cons] at hnodup
      obtain ⟨lease, eventId, hget, hlive, hrevoked⟩ :=
        (h id).2 List.mem_cons_self
      have hfirst : BookSteps Opens (MovesBy (· = .revoke)) book
          (Function.update book id (some (lease.advance .revoked eventId))) :=
        BookSteps.single (BookStep.moved id lease _ hget
          ⟨.revoke, .revoked, eventId, rfl, transitions_revoke hlive, rfl⟩)
      refine hfirst.trans (ih hnodup.2 ?_)
      intro other
      by_cases heq : other = id
      · subst heq
        rw [Function.update_self]
        exact ⟨fun _ => hrevoked, fun hmem => absurd hmem hnodup.1⟩
      · rw [Function.update_of_ne heq]
        refine ⟨fun hnot => (h other).1 ?_, fun hmem => (h other).2
          (List.mem_cons_of_mem _ hmem)⟩
        intro hmem
        exact hnot ((List.mem_cons.mp hmem).resolve_left heq)

theorem quietStep_of_along
    {α : Type} {m : LeaseM α}
    (h : Along (Quietly env.host (op.opens env) op.events) m) (hs : s.Fresh env.host) :
    QuietStep env op s (finalState m s) := by
  obtain ⟨hquiet, hpolicies⟩ := h.finalState s hs
  exact ⟨hquiet, Or.inl hpolicies⟩

theorem quietStep_mint
    (hs : s.Fresh env.host) (policy : CanonicalPolicy)
    (confirmation : OperatorConfirmation) (supersedesLeaseId : Option String) :
    QuietStep env (.mint policy confirmation supersedesLeaseId) s
      (finalState (mintLease env policy confirmation supersedesLeaseId) s) := by
  rcases (mintLease_ends hs policy confirmation supersedesLeaseId).cases with
    ⟨lease, -, ht, hspares, heffect⟩ | ⟨e, -, ht, hspares, hraised, -⟩
  · exact ⟨⟨hspares, ht, heffect.bookSteps⟩,
      Or.inr ⟨policy, rfl, heffect.policies⟩⟩
  · rcases hraised with ⟨hleases, hpolicies⟩ | ⟨lease, heffect⟩
    · refine ⟨⟨hspares, ht, ?_⟩, Or.inl hpolicies⟩
      rw [hleases]
      exact BookSteps.refl _
    · exact ⟨⟨hspares, ht, heffect.bookSteps⟩,
        Or.inr ⟨policy, rfl, heffect.policies⟩⟩

theorem quietStep_delegate
    (hs : s.Fresh env.host) (parent : CapabilityLease)
    (args : DelegationArgs) :
    QuietStep env (.delegate parent args) s
      (finalState (delegateLease env parent args) s) := by
  rcases (delegateLease_ends hs parent args).cases with
    ⟨child, -, ht, hspares, hpolicies, hchild, hunused, hbook⟩ |
      ⟨e, -, ht, hspares, hpolicies, hleases⟩
  · refine ⟨⟨hspares, ht, ?_⟩, Or.inl hpolicies⟩
    rw [hbook]
    exact BookSteps.single (BookStep.opened child.leaseId child hunused hchild)
  · refine ⟨⟨hspares, ht, ?_⟩, Or.inl hpolicies⟩
    rw [hleases]
    exact BookSteps.refl _

theorem quietStep_revokeDelegationsOf
    (hs : s.Fresh env.host) (parentLeaseId nowWall : String) :
    QuietStep env (.revokeDelegationsOf parentLeaseId nowWall) s
      (finalState (revokeDelegationsOf env parentLeaseId nowWall) s) := by
  rcases (revokeDelegationsOf_ends hs parentLeaseId nowWall).cases with
    ⟨ids, -, honly, ht, hrevoked⟩ | ⟨e, -, hfalse⟩
  · refine ⟨⟨honly.spares, ht, hrevoked.bookSteps ?_⟩, Or.inl honly.policies⟩
    exact (nodup_leaseIds s.leases).sublist
      (List.filter_sublist.map CapabilityLease.leaseId)
  · exact hfalse.elim

theorem leaseStep_quiet
    (hs : s.Fresh env.host)
    (hop : ∀ request, op ≠ .authorize request) :
    QuietStep env op s (leaseStep env s op).1 := by
  cases op with
  | mint policy confirmation supersedesLeaseId =>
      exact quietStep_mint hs policy confirmation supersedesLeaseId
  | delegate parent args => exact quietStep_delegate hs parent args
  | authorize request => exact absurd rfl (hop request)
  | dispatch authorized request =>
      exact quietStep_of_along (quietly_dispatch authorized request) hs
  | suspend leaseId reasonCode =>
      exact quietStep_of_along (quietly_suspendLease (by rfl) leaseId reasonCode) hs
  | resume leaseId reasonCode =>
      exact quietStep_of_along (quietly_resumeLease (Or.inl rfl) (Or.inr rfl)
        leaseId reasonCode) hs
  | expire leaseId =>
      exact quietStep_of_along (quietly_expireLease (by rfl) leaseId) hs
  | revoke leaseId revokerRef reasonCode =>
      exact quietStep_of_along
        (quietly_revokeLease (by rfl) leaseId revokerRef reasonCode) hs
  | revokeAll revokerRef =>
      exact quietStep_of_along (quietly_revokeAll (by rfl) revokerRef) hs
  | revokeDelegationsOf parentLeaseId nowWall =>
      exact quietStep_revokeDelegationsOf hs parentLeaseId nowWall
  | putFact fact =>
      exact quietStep_of_along (quietly_putFact (Or.inl rfl)
        (Or.inr (Or.inl rfl)) (Or.inr (Or.inr rfl)) fact) hs

theorem leaseStep_authorized
    (hs : s.Fresh env.host) (request : ActionRequest) :
    (∃ answer, (leaseStep env s (.authorize request)).2 =
        .authorized (.ok answer) ∧
      Authorized env s (leaseStep env s (.authorize request)).1 request
        answer) ∨
    (∃ e, (leaseStep env s (.authorize request)).2 = .authorized (.error e) ∧
      AuthorizeRaised env.host s
        (leaseStep env s (.authorize request)).1) := by
  rcases (authorize_ends hs request).cases with
    ⟨answer, houtcome, hauthorized⟩ | ⟨e, houtcome, hraised⟩
  · exact Or.inl ⟨answer, congrArg LeaseReply.authorized houtcome, hauthorized⟩
  · exact Or.inr ⟨e, congrArg LeaseReply.authorized houtcome, hraised⟩

theorem leaseStep_fresh (hs : s.Fresh env.host) (op : LeaseOp) :
    (leaseStep env s op).1.Fresh env.host := by
  by_cases hop : ∃ request, op = .authorize request
  · obtain ⟨request, rfl⟩ := hop
    rcases leaseStep_authorized hs request with
      ⟨answer, -, hauthorized⟩ | ⟨e, -, hraised⟩
    · exact hauthorized.fresh
    · exact hraised.fresh
  · exact (leaseStep_quiet hs fun request heq => hop ⟨request, heq⟩).fresh

/-! ## What one step does to one lease -/

theorem allowsWhere_eq_true_iff
    {test : Decision → Bool} {e : LeaseStep} :
    allowsWhere test e = true ↔
      ∃ answer, e.output = .authorized (.ok answer) ∧
        answer.decision.outcome = .allow ∧ test answer.decision = true := by
  unfold allowsWhere LeaseReply.decision?
  constructor
  · intro hallows
    split at hallows
    next decision hdecision =>
      split at hdecision
      next answer houtput =>
        cases hdecision
        rw [Bool.and_eq_true, decide_eq_true_eq] at hallows
        exact ⟨answer, houtput, hallows⟩
      · cases hdecision
    · cases hallows
  · rintro ⟨answer, houtput, hallow, htest⟩
    simp [houtput, hallow, htest]

theorem allowsUnder_eq_true_iff {e : LeaseStep} :
    allowsUnder leaseId e = true ↔
      ∃ answer, e.output = .authorized (.ok answer) ∧
        answer.decision.outcome = .allow ∧
        answer.decision.leaseId = some leaseId := by
  rw [allowsUnder, allowsWhere_eq_true_iff]
  simp only [decide_eq_true_eq]

theorem input_of_output_authorized {answer : AuthorizedAction}
    (houtput : (leaseStep env s op).2 = .authorized (.ok answer)) :
    ∃ request, op = .authorize request := by
  cases op with
  | authorize request => exact ⟨request, rfl⟩
  | _ => cases houtput

theorem allowed_of_reply
    (hs : s.Fresh env.host) {answer : AuthorizedAction}
    (houtput : (leaseStep env s op).2 = .authorized (.ok answer))
    (hallow : answer.decision.outcome = .allow) :
    ∃ request lease lease' permitId, op = .authorize request ∧
      Authorized env s (leaseStep env s op).1 request answer ∧
      Allowed s (leaseStep env s op).1 request answer lease lease'
        permitId := by
  obtain ⟨request, rfl⟩ := input_of_output_authorized houtput
  rcases leaseStep_authorized hs request with
    ⟨answer', hreply, hauthorized⟩ | ⟨e, hreply, -⟩
  · obtain rfl : answer' = answer := by
      have heq := hreply.symm.trans houtput
      cases heq
      rfl
    rcases hauthorized.effect with hrefused | ⟨lease, lease', permitId, hby⟩
    · exact absurd hallow hrefused.outcome
    · exact ⟨request, lease, lease', permitId, rfl, hauthorized, hby⟩
  · have heq := hreply.symm.trans houtput
    cases heq

theorem allowed_of_allowsUnder
    (hs : s.Fresh env.host)
    (hallows : allowsUnder leaseId ((leaseMachine env).stepAt s op) = true) :
    ∃ request answer lease lease' permitId, op = .authorize request ∧
      lease.leaseId = leaseId ∧
      Allowed s (leaseStep env s op).1 request answer lease lease'
        permitId := by
  obtain ⟨answer, houtput, hallow, hlease⟩ := allowsUnder_eq_true_iff.mp hallows
  obtain ⟨request, lease, lease', permitId, hop, -, hby⟩ :=
    allowed_of_reply hs houtput hallow
  refine ⟨request, answer, lease, lease', permitId, hop, ?_, hby⟩
  exact Option.some.inj (hby.leaseId.symm.trans hlease)

/-- A step that allows a request under a lease spends one of its uses; any
other step only moves it. -/
theorem leaseStep_lease
    (hs : s.Fresh env.host) (op : LeaseOp)
    {lease : CapabilityLease} (hget : s.leases.get leaseId = some lease) :
    ∃ lease', (leaseStep env s op).1.leases.get leaseId = some lease' ∧
      ((allowsUnder leaseId ((leaseMachine env).stepAt s op) = true ∧
          Spends lease lease') ∨
        (allowsUnder leaseId ((leaseMachine env).stepAt s op) = false ∧
          Relation.ReflTransGen Moves lease lease')) := by
  by_cases hop : ∃ request, op = .authorize request
  · obtain ⟨request, rfl⟩ := hop
    cases hallows : allowsUnder leaseId
        ((leaseMachine env).stepAt s (.authorize request)) with
    | true =>
        obtain ⟨_, answer, filed, lease', permitId, -, hid, hby⟩ :=
          allowed_of_allowsUnder hs hallows
        subst hid
        obtain rfl := Option.some.inj (hby.by_lease.filed.symm.trans hget)
        refine ⟨lease', ?_, Or.inl ⟨rfl, hby.spends⟩⟩
        rw [hby.book, Function.update_self]
    | false =>
        refine ⟨lease, ?_, Or.inr ⟨rfl, Relation.ReflTransGen.refl⟩⟩
        rcases leaseStep_authorized hs request with
          ⟨answer, hreply, hauthorized⟩ | ⟨e, hreply, hraised⟩
        · rcases hauthorized.effect with hrefused | ⟨filed, filed', permitId,
            hby⟩
          · rw [hrefused.leases]
            exact hget
          · have hne : leaseId ≠ filed.leaseId := by
              rintro rfl
              have htrue : allowsUnder filed.leaseId
                  ((leaseMachine env).stepAt s (.authorize request)) = true :=
                allowsUnder_eq_true_iff.mpr
                  ⟨answer, hreply, hby.outcome, hby.leaseId⟩
              exact absurd (htrue.symm.trans hallows) (by decide)
            rw [hby.book, Function.update_of_ne hne]
            exact hget
        · rw [hraised.untouched.leases]
          exact hget
  · have hquiet := leaseStep_quiet hs fun request heq => hop ⟨request, heq⟩
    obtain ⟨lease', hget', hmoves⟩ := hquiet.moves.evolves hget
    refine ⟨lease', hget', Or.inr ⟨?_, hmoves⟩⟩
    rw [Bool.eq_false_iff]
    intro hallows
    obtain ⟨request, -, -, -, -, hauthorize, -⟩ :=
      allowed_of_allowsUnder hs hallows
    exact hop ⟨request, hauthorize⟩

theorem leaseStep_entered
    (hs : s.Fresh env.host) (op : LeaseOp)
    {lease' : CapabilityLease} (hunused : s.leases.get leaseId = none)
    (hget : (leaseStep env s op).1.leases.get leaseId = some lease') :
    ∃ lease, op.opens env lease ∧
      Relation.ReflTransGen Moves lease lease' := by
  by_cases hop : ∃ request, op = .authorize request
  · obtain ⟨request, rfl⟩ := hop
    exfalso
    rcases leaseStep_authorized hs request with
      ⟨answer, -, hauthorized⟩ | ⟨e, -, hraised⟩
    · rcases hauthorized.effect with hrefused | ⟨filed, filed', permitId, hby⟩
      · rw [hrefused.leases, hunused] at hget
        cases hget
      · have hne : leaseId ≠ filed.leaseId := by
          rintro rfl
          rw [hby.by_lease.filed] at hunused
          cases hunused
        rw [hby.book, Function.update_of_ne hne, hunused] at hget
        cases hget
    · rw [hraised.untouched.leases, hunused] at hget
      cases hget
  · have hquiet := leaseStep_quiet hs fun request heq => hop ⟨request, heq⟩
    exact hquiet.moves.origin hunused hget

theorem fresh_final
    (env : LeaseEnv) (situation : Dict String SituationFact)
    (gpp : PermitAuthority) (ops : List LeaseOp) :
    ((leaseMachine env).final (.init situation gpp) ops).Fresh env.host :=
  Machine.invariant (fun _ s => LeaseWorld.Fresh env.host s)
    (LeaseWorld.fresh_init env.host situation gpp)
    (fun _ _ op hs => leaseStep_fresh hs op) ops

/-! ## A reference service -/

def LeaseReply.mints (test : CapabilityLease → Bool) : LeaseReply → Bool
  | .minted (.ok lease) => test lease
  | _ => false

theorem LeaseReply.exists_of_mints
    {test : CapabilityLease → Bool} {reply : LeaseReply}
    (h : reply.mints test = true) :
    ∃ lease, reply = .minted (.ok lease) ∧ test lease = true := by
  unfold mints at h
  split at h
  next lease => exact ⟨lease, rfl, h⟩
  · cases h

/-- A service over the reference host and the reference permit authority, with
a clock that stands still. -/
def referenceEnv : LeaseEnv where
  host := referenceHost
  gpp := referenceConfig
  capabilityRef := "cap.oea_stub_log"
  effectClass := "audit_log"
  authorityChainRef := "dec_allow_stub"
  admissionRef := "adm:1"
  retentionRef := "ret:evidence_1"
  agentId := "agent:0"
  clock _ := ("2026-03-01T12:00:00.000Z", 0)
  hooks := []
  subscribed := true
  obligationSink := false
  adapter _ _ := none

def referencePolicy (uses : ℤ) : CanonicalPolicy where
  policyId := "pol-1"
  issuerOperatorId := "operator:owner"
  subjects := ["agent:lamp"]
  actions := ["lamp.on"]
  objects := ["lamp-1"]
  purpose := "light"
  condition := none
  numericLimits := []
  riskClass := "LOW"
  renewalMode := "NONE"
  unknownFactPolicy := "DENY"
  validFrom := "2026-03-01T00:00:00.000Z"
  validUntil := "2026-03-02T00:00:00.000Z"
  displaySummary := "lamp on"
  useLimit := some uses
  requiredFacts := []
  sourceConversationRefs := []
  closeObligations := []

def confirmationOf
    (host : Host) (policy : CanonicalPolicy) : OperatorConfirmation where
  operatorId := policy.issuerOperatorId
  policyHash := policy.canonicalPolicyHash host
  confirmedAt := policy.validFrom
  displaySummaryShown := policy.displaySummary

def referenceMint (uses : ℤ) (supersedesLeaseId : Option String) : LeaseOp :=
  .mint (referencePolicy uses)
    (confirmationOf referenceHost (referencePolicy uses)) supersedesLeaseId

def referenceAction (requestId subject : String) : ActionRequest where
  requestId := requestId
  subject := subject
  actionType := "lamp.on"
  objectId := "lamp-1"
  purpose := "light"
  requestedAt := "2026-03-01T12:00:00.000Z"
  parameters := []
  contextRefs := []

def referenceDelegation (uses : ℤ) : DelegationArgs where
  parentIssuerRole := "OWNER"
  delegateSubject := "agent:helper"
  nowWall := "2026-03-01T12:00:00.000Z"
  nowMonotonic := 0
  actionScope := none
  objectScope := none
  purposeScope := none
  expiresAt := none
  remainingUses := some uses

def referenceWorld : LeaseWorld :=
  .init Dict.empty (.init .empty)

end Hydrogenuine.Lease
