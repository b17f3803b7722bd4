import Hydrogenuine.Core.Host
import Hydrogenuine.Support.Book

/-!
# Capability lease lifecycle

Embedding of `hg_lease/lease.py`: the lease record, the transition table, the
idempotent application of one event and the debit of one use.  Over them stands
the abstract view of a lease: a record that is entered active and then either
moves along an edge of the table or spends a use.
-/

namespace Hydrogenuine.Lease

open Support Hydrogenuine.Core

inductive LeaseState where
  | draft
  | pending
  | active
  | suspended
  | expired
  | exhausted
  | revoked
  | superseded
  | failed
deriving DecidableEq

namespace LeaseState

def text : LeaseState → String
  | draft => "DRAFT"
  | pending => "PENDING"
  | active => "ACTIVE"
  | suspended => "SUSPENDED"
  | expired => "EXPIRED"
  | exhausted => "EXHAUSTED"
  | revoked => "REVOKED"
  | superseded => "SUPERSEDED"
  | failed => "FAILED"

/-- `TERMINAL_STATES`. -/
def isTerminal : LeaseState → Bool
  | expired | exhausted | revoked | superseded | failed => true
  | _ => false

def isLive : LeaseState → Bool
  | active | suspended => true
  | _ => false

end LeaseState

inductive LeaseEvent where
  | submit
  | confirm
  | reject
  | expire
  | suspend
  | exhaust
  | revoke
  | supersede
  | fail
  | resume
deriving DecidableEq

def LeaseEvent.text : LeaseEvent → String
  | submit => "submit"
  | confirm => "confirm"
  | reject => "reject"
  | expire => "expire"
  | suspend => "suspend"
  | exhaust => "exhaust"
  | revoke => "revoke"
  | supersede => "supersede"
  | fail => "fail"
  | resume => "resume"

def transitions : LeaseState → LeaseEvent → Option LeaseState
  | .draft, .submit => some .pending
  | .pending, .confirm => some .active
  | .pending, .reject => some .failed
  | .pending, .expire => some .expired
  | .active, .suspend => some .suspended
  | .active, .expire => some .expired
  | .active, .exhaust => some .exhausted
  | .active, .revoke => some .revoked
  | .active, .supersede => some .superseded
  | .active, .fail => some .failed
  | .suspended, .resume => some .active
  | .suspended, .expire => some .expired
  | .suspended, .revoke => some .revoked
  | .suspended, .supersede => some .superseded
  | .suspended, .fail => some .failed
  | _, _ => none

structure LifecycleEvent where
  eventId : String
  leaseId : String
  event : LeaseEvent
  fromState : LeaseState
  toState : LeaseState
  reasonCode : String
  atWall : String
  detail : String
deriving DecidableEq

structure CapabilityLease where
  leaseId : String
  policyId : String
  policyHash : String
  issuer : String
  subject : String
  actionScope : List String
  objectScope : List String
  purposeScope : List String
  issuedAtWall : String
  issuedAtMonotonicAnchor : ℚ
  notBefore : String
  expiresAt : String
  riskClass : String
  state : LeaseState
  remainingUses : Option ℤ
  parentLeaseId : Option String
  supersedesLeaseId : Option String
  revocationHandle : String
  provenanceRefs : List String
  appliedEventIds : List String
deriving DecidableEq

namespace CapabilityLease

def toPayload (lease : CapabilityLease) : PyVal :=
  .dict [
    ("schema_version", .str "hg.lease.v1"),
    ("lease_id", .str lease.leaseId),
    ("policy_id", .str lease.policyId),
    ("policy_hash", .str lease.policyHash),
    ("issuer", .str lease.issuer),
    ("subject", .str lease.subject),
    ("action_scope", .ofStrings lease.actionScope),
    ("object_scope", .ofStrings lease.objectScope),
    ("purpose_scope", .ofStrings lease.purposeScope),
    ("issued_at_wall", .str lease.issuedAtWall),
    ("not_before", .str lease.notBefore),
    ("expires_at", .str lease.expiresAt),
    ("risk_class", .str lease.riskClass),
    ("state", .str lease.state.text),
    ("remaining_uses", match lease.remainingUses with
      | some n => .int n
      | none => .none),
    ("parent_lease_id", .ofOption lease.parentLeaseId),
    ("supersedes_lease_id", .ofOption lease.supersedesLeaseId),
    ("provenance_refs", .ofStrings lease.provenanceRefs)]

def leaseHash (host : Host) (lease : CapabilityLease) : String :=
  host.canonicalHash lease.toPayload

/-- The terms of a lease: everything but its state, its counter and the events
applied to it. -/
def terms (lease : CapabilityLease) : CapabilityLease :=
  { lease with state := .draft, remainingUses := none, appliedEventIds := [] }

def advance
    (lease : CapabilityLease) (state : LeaseState) (eventId : String) :
    CapabilityLease :=
  { lease with
    state := state
    appliedEventIds := lease.appliedEventIds ++ [eventId] }

end CapabilityLease

def applyTransition
    (lease : CapabilityLease) (event : LeaseEvent)
    (eventId reasonCode nowWall detail : String) :
    Except PyError (CapabilityLease × Option LifecycleEvent) :=
  if eventId ∈ lease.appliedEventIds then .ok (lease, none)
  else
    match transitions lease.state event with
    | none =>
        .error (.leaseTransition ("invalid transition " ++ lease.state.text ++
          " --" ++ event.text ++ "--> ? (lease " ++ lease.leaseId ++ ")"))
    | some toState =>
        .ok (lease.advance toState eventId,
          some ⟨eventId, lease.leaseId, event, lease.state, toState, reasonCode,
            nowWall, detail⟩)

/-- `consume_use`: the debited lease, and whether it is exhausted now. -/
def consumeUse (lease : CapabilityLease) : CapabilityLease × Bool :=
  match lease.remainingUses with
  | none => (lease, false)
  | some n =>
      if n ≤ 0 then (lease, true)
      else ({ lease with remainingUses := some (n - 1) }, n - 1 == 0)

/-! ## The transition table -/

def Edge (s t : LeaseState) : Prop := ∃ event, transitions s event = some t

theorem transitions_of_isTerminal
    {s : LeaseState} (hterminal : s.isTerminal = true) (event : LeaseEvent) :
    transitions s event = none := by
  cases s <;> first | rfl | cases hterminal

variable {lease lease' : CapabilityLease} {s t : LeaseState}

theorem not_isTerminal_of_edge (hedge : Edge s t) :
    s.isTerminal = false := by
  obtain ⟨event, hevent⟩ := hedge
  by_contra hterminal
  rw [transitions_of_isTerminal (Bool.not_eq_false _ ▸ hterminal)] at hevent
  cases hevent

theorem eq_of_edges_of_isTerminal (hrun : Relation.ReflTransGen Edge s t)
    (hterminal : s.isTerminal = true) : t = s := by
  induction hrun with
  | refl => rfl
  | tail _ hedge ih =>
      subst ih
      rw [not_isTerminal_of_edge hedge] at hterminal
      cases hterminal

def LeaseState.entered (s : LeaseState) : Bool := s.isLive || s.isTerminal

theorem entered_of_edge (hedge : Edge s t) (hs : s.entered = true) :
    t.entered = true := by
  obtain ⟨event, hevent⟩ := hedge
  cases s <;> cases event <;> cases hevent <;> first | rfl | cases hs

/-! ## Records that move and records that spend -/

def MovesBy
    (Events : LeaseEvent → Prop) (lease lease' : CapabilityLease) : Prop :=
  ∃ event state eventId, Events event ∧
    transitions lease.state event = some state ∧
    lease' = lease.advance state eventId

/-- One event other than exhaustion has been applied. -/
def Moves (lease lease' : CapabilityLease) : Prop :=
  MovesBy (· ≠ .exhaust) lease lease'

/-- One use has been spent: an unlimited lease stays as it is, a limited one is
debited, and the last use exhausts it. -/
def Spends (lease lease' : CapabilityLease) : Prop :=
  lease.state = .active ∧
    ((lease.remainingUses = none ∧ lease' = lease) ∨
      (∃ n, lease.remainingUses = some n ∧ 1 < n ∧
        lease' = { lease with remainingUses := some (n - 1) }) ∨
      (lease.remainingUses = some 1 ∧ ∃ eventId,
        lease' = { lease with remainingUses := some 0 }.advance .exhausted
          eventId))

def Enters (lease : CapabilityLease) : Prop := lease.state = .active

theorem MovesBy.mono
    {Events Events' : LeaseEvent → Prop}
    (h : MovesBy Events lease lease')
    (hevents : ∀ event, Events event → Events' event) :
    MovesBy Events' lease lease' := by
  obtain ⟨event, state, eventId, hevent, hrest⟩ := h
  exact ⟨event, state, eventId, hevents event hevent, hrest⟩

namespace Moves

variable {lease lease' : CapabilityLease}

theorem edge (h : Moves lease lease') : Edge lease.state lease'.state := by
  obtain ⟨event, state, eventId, -, hnext, rfl⟩ := h
  exact ⟨event, hnext⟩

theorem terms_eq (h : Moves lease lease') : lease'.terms = lease.terms := by
  obtain ⟨event, state, eventId, -, -, rfl⟩ := h
  rfl

theorem remainingUses_eq (h : Moves lease lease') :
    lease'.remainingUses = lease.remainingUses := by
  obtain ⟨event, state, eventId, -, -, rfl⟩ := h
  rfl

theorem state_ne_exhausted (h : Moves lease lease') :
    lease'.state ≠ .exhausted := by
  obtain ⟨event, state, eventId, hne, hnext, rfl⟩ := h
  rintro rfl
  cases hstate : lease.state <;> cases event <;> simp_all [transitions]

end Moves

namespace Spends

variable {lease lease' : CapabilityLease}

theorem terms_eq (h : Spends lease lease') : lease'.terms = lease.terms := by
  obtain ⟨-, ⟨-, rfl⟩ | ⟨n, -, -, rfl⟩ | ⟨-, eventId, rfl⟩⟩ := h
  · rfl
  · rfl
  · rfl

theorem state_cases (h : Spends lease lease') :
    lease.state = .active ∧
      (lease'.state = .active ∨ lease'.state = .exhausted) := by
  obtain ⟨hactive, ⟨-, rfl⟩ | ⟨n, -, -, rfl⟩ | ⟨-, eventId, rfl⟩⟩ := h
  · exact ⟨hactive, Or.inl hactive⟩
  · exact ⟨hactive, Or.inl hactive⟩
  · exact ⟨hactive, Or.inr rfl⟩

theorem edges (h : Spends lease lease') :
    Relation.ReflTransGen Edge lease.state lease'.state := by
  obtain ⟨hactive, hstate | hstate⟩ := h.state_cases
  · rw [hactive, hstate]
  · rw [hactive, hstate]
    exact Relation.ReflTransGen.single ⟨.exhaust, rfl⟩

theorem remainingUses_of_some
    (h : Spends lease lease') {n : ℤ} (hn : lease.remainingUses = some n) :
    0 < n ∧ lease'.remainingUses = some (n - 1) ∧
      (lease'.state = .exhausted ↔ n - 1 = 0) := by
  obtain ⟨hactive, ⟨hnone, -⟩ | ⟨m, hm, hlt, rfl⟩ | ⟨hone, eventId, rfl⟩⟩ := h
  · rw [hn] at hnone
    cases hnone
  · rw [hn, Option.some.injEq] at hm
    subst hm
    refine ⟨by omega, rfl, ?_⟩
    simp only [hactive, reduceCtorEq, false_iff]
    omega
  · rw [hn, Option.some.injEq] at hone
    subst hone
    exact ⟨by decide, rfl, by simp [CapabilityLease.advance]⟩

end Spends

theorem moves_run
    (hrun : Relation.ReflTransGen Moves lease lease') :
    lease'.terms = lease.terms ∧
      lease'.remainingUses = lease.remainingUses ∧
      Relation.ReflTransGen Edge lease.state lease'.state := by
  induction hrun with
  | refl => exact ⟨rfl, rfl, Relation.ReflTransGen.refl⟩
  | tail _ hmove ih =>
      obtain ⟨hterms, hremaining, hedges⟩ := ih
      exact ⟨hmove.terms_eq.trans hterms,
        hmove.remainingUses_eq.trans hremaining, hedges.tail hmove.edge⟩

theorem moves_run_exhausted
    (hrun : Relation.ReflTransGen Moves lease lease')
    (hexhausted : lease'.state = .exhausted) : lease' = lease := by
  cases hrun with
  | refl => rfl
  | tail _ hmove => exact absurd hexhausted hmove.state_ne_exhausted

end Hydrogenuine.Lease
