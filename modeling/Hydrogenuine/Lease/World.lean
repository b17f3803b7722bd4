import Hydrogenuine.Gpp.Engine
import Hydrogenuine.Lease.Evaluator
import Hydrogenuine.Support.Stateful

/-!
# The shared state of the lease service

One `LeaseAuthority` with its stores, the permit authority it mints through,
the situation store and the invalidator that listens to it are one state, and
the methods are computations over it that may raise.  Clock readings and random
identifiers are drawn from counters, so that every reading and every identifier
is arbitrary but recorded.

`Fresh` is what the drawn identifiers guarantee: ids that are still to be drawn
name no lease and no applied event.  `transition` is the one place where a
stored lease changes its state.
-/

namespace Hydrogenuine.Lease

open Support Hydrogenuine.Core Gpp

/-- A restriction hook: it may stand aside, veto with a reason, or raise. -/
abbrev RestrictionHook :=
  ActionRequest → CapabilityLease → Decision → Except PyError (Option String)

structure AdapterResult where
  ok : Bool
  payload : PyVal

/-- What the service is configured with.  `clock n` is the `n`-th reading of the
clock; `adapter` is what the registered adapter, if there is one, answers. -/
structure LeaseEnv where
  host : Host
  gpp : AuthorityConfig
  capabilityRef : String
  effectClass : String
  authorityChainRef : String
  admissionRef : String
  retentionRef : String
  agentId : String
  clock : ℕ → String × ℚ
  hooks : List RestrictionHook
  subscribed : Bool
  obligationSink : Bool
  adapter : ActionRequest → ℕ → Option AdapterResult

structure ObligationDue where
  leaseId : String
  obligation : List (String × PyVal)
  triggeredByFact : String
  atWall : String

structure LeaseWorld where
  leases : LeaseStore
  receipts : List Receipt
  situation : Dict String SituationFact
  policies : Dict String CanonicalPolicy
  seenRequestIds : List String
  mintedPermits : Dict String (List String)
  gpp : PermitAuthority
  obligations : List ObligationDue
  ticks : ℕ
  uuids : ℕ

def LeaseWorld.init
    (situation : Dict String SituationFact) (gpp : PermitAuthority) :
    LeaseWorld where
  leases := LeaseStore.empty
  receipts := []
  situation := situation
  policies := Dict.empty
  seenRequestIds := []
  mintedPermits := Dict.empty
  gpp := gpp
  obligations := []
  ticks := 0
  uuids := 0

abbrev LeaseM (α : Type) := EStateM PyError LeaseWorld α

variable (env : LeaseEnv)

/-! ## Elementary operations -/

/-- `self._clock()`. -/
def readClock : LeaseM (String × ℚ) := do
  let s ← get
  modify fun s => { s with ticks := s.ticks + 1 }
  return env.clock s.ticks

/-- `uuid.uuid4().hex`. -/
def drawUuid : LeaseM String := do
  let s ← get
  modify fun s => { s with uuids := s.uuids + 1 }
  return env.host.uuidHex s.uuids

def putLease
    (lease : CapabilityLease) (event : Option LifecycleEvent) : LeaseM PUnit :=
  modify fun s => { s with leases := s.leases.put lease event }

/-- `ReceiptStore.append`. -/
def fileReceipt (fields : ReceiptFields) : LeaseM Receipt := do
  let digits ← drawUuid env
  let s ← get
  let receipt := newReceipt env.host s.receipts fields ("rcpt_" ++ digits)
  modify fun s => { s with receipts := s.receipts ++ [receipt] }
  return receipt

def eventIdOf (leaseId tag digits : String) : String :=
  leaseId ++ ":" ++ tag ++ ":" ++ digits

def leaseIdOf (digits : String) : String := "lease_" ++ digits

def transition
    (leaseId : String) (event : LeaseEvent) (reasonCode detail : String) :
    LeaseM PUnit := do
  let s ← get
  match s.leases.get leaseId with
  | none => return
  | some lease =>
      if lease.state.isTerminal then return
      else
        let (nowWall, _) ← readClock env
        let digits ← drawUuid env
        let (updated, lifecycle) ← raising (applyTransition lease event
          (eventIdOf leaseId event.text digits) reasonCode nowWall detail)
        putLease updated lifecycle

/-! ## Rules for the elementary operations -/

section Rules

variable {env} {s : LeaseWorld} {E : PyError → LeaseWorld → Prop}

theorem ends_readClock {Q : String × ℚ → LeaseWorld → Prop}
    (h : Q (env.clock s.ticks) { s with ticks := s.ticks + 1 }) :
    Ends (readClock env) s Q E := by
  apply ends_bind
  apply ends_get
  apply ends_bind
  apply ends_modify
  exact ends_pure h

theorem ends_drawUuid {Q : String → LeaseWorld → Prop}
    (h : Q (env.host.uuidHex s.uuids) { s with uuids := s.uuids + 1 }) :
    Ends (drawUuid env) s Q E := by
  apply ends_bind
  apply ends_get
  apply ends_bind
  apply ends_modify
  exact ends_pure h

theorem ends_putLease
    {lease : CapabilityLease} {event : Option LifecycleEvent}
    {Q : PUnit → LeaseWorld → Prop}
    (h : Q ⟨⟩ { s with leases := s.leases.put lease event }) :
    Ends (putLease lease event) s Q E :=
  ends_modify h

theorem ends_fileReceipt
    {fields : ReceiptFields} {Q : Receipt → LeaseWorld → Prop}
    (h : ∀ receipt, Q receipt
      { s with uuids := s.uuids + 1, receipts := s.receipts ++ [receipt] }) :
    Ends (fileReceipt env fields) s Q E := by
  apply ends_bind
  apply ends_drawUuid
  apply ends_bind
  apply ends_get
  apply ends_bind
  apply ends_modify
  exact ends_pure (h _)

end Rules

/-! ## Identifiers -/

theorem leaseIdOf_injective : Function.Injective leaseIdOf := by
  intro a b hab
  have hlists := congrArg String.toList hab
  simp only [leaseIdOf, String.toList_append, List.append_cancel_left_eq]
    at hlists
  exact String.toList_inj.mp hlists

theorem eventIdOf_inj
    {leaseId tag tag' digits digits' : String}
    (htag : ':' ∉ tag.toList) (htag' : ':' ∉ tag'.toList)
    (heq : eventIdOf leaseId tag digits = eventIdOf leaseId tag' digits') :
    tag = tag' ∧ digits = digits' := by
  have hlists := congrArg String.toList heq
  simp only [eventIdOf, String.toList_append, List.append_assoc,
    List.append_cancel_left_eq] at hlists
  have hcolon : (":" : String).toList = [':'] := rfl
  rw [hcolon, List.singleton_append, List.singleton_append] at hlists
  have htake (t rest : List Char) (ht : ':' ∉ t) :
      (t ++ ':' :: rest).takeWhile (fun c => decide (c ≠ ':')) = t := by
    rw [List.takeWhile_append_of_pos]
    · simp
    · intro c hc
      simp only [ne_eq, decide_eq_true_eq]
      rintro rfl
      exact ht hc
  have htags : tag.toList = tag'.toList := by
    rw [← htake tag.toList digits.toList htag, hlists,
      htake tag'.toList digits'.toList htag']
  rw [htags, List.append_cancel_left_eq] at hlists
  exact ⟨String.toList_inj.mp htags,
    String.toList_inj.mp (List.cons.inj hlists).2⟩

theorem eventIdOf_ne_opening
    {leaseId tag digits opening : String}
    (hopening : ':' ∉ opening.toList.tail) :
    eventIdOf leaseId tag digits ≠ leaseId ++ opening := by
  intro heq
  have hlists := congrArg String.toList heq
  simp only [eventIdOf, String.toList_append, List.append_assoc,
    List.append_cancel_left_eq] at hlists
  apply hopening
  rw [← hlists]
  simp

theorem LeaseEvent.colon_not_mem_text (event : LeaseEvent) :
    ':' ∉ event.text.toList := by
  cases event <;> decide

/-- What the identifiers still to be drawn guarantee. -/
structure LeaseWorld.Fresh (host : Host) (s : LeaseWorld) : Prop where
  leaseIds : ∀ k, s.uuids ≤ k → s.leases.get (leaseIdOf (host.uuidHex k)) = none
  eventIds : ∀ leaseId lease, s.leases.get leaseId = some lease →
    ∀ k, s.uuids ≤ k → ∀ tag, ':' ∉ tag.toList →
      eventIdOf leaseId tag (host.uuidHex k) ∉ lease.appliedEventIds

theorem LeaseWorld.fresh_init
    (host : Host) (situation : Dict String SituationFact)
    (gpp : PermitAuthority) : (LeaseWorld.init situation gpp).Fresh host where
  leaseIds k _ := rfl
  eventIds leaseId lease hget := by cases hget

theorem LeaseWorld.Fresh.mono
    {host : Host} {s t : LeaseWorld} (hs : s.Fresh host)
    (hleases : t.leases.get = s.leases.get) (huuids : s.uuids ≤ t.uuids) :
    t.Fresh host where
  leaseIds k hk := by
    rw [hleases]
    exact hs.leaseIds k (huuids.trans hk)
  eventIds leaseId lease hget k hk := by
    rw [hleases] at hget
    exact hs.eventIds leaseId lease hget k (huuids.trans hk)

theorem LeaseWorld.Fresh.put
    {host : Host} {s t : LeaseWorld} (hs : s.Fresh host)
    (lease : CapabilityLease) {bound : ℕ}
    (hleases : t.leases.get =
      Function.update s.leases.get lease.leaseId (some lease))
    (huuids : s.uuids ≤ t.uuids) (hbound : bound < t.uuids)
    (hid : s.leases.get lease.leaseId ≠ none ∨
      lease.leaseId = leaseIdOf (host.uuidHex bound))
    (hevents : ∀ k, t.uuids ≤ k → ∀ tag, ':' ∉ tag.toList →
      eventIdOf lease.leaseId tag (host.uuidHex k) ∉ lease.appliedEventIds) :
    t.Fresh host where
  leaseIds k hk := by
    have hne : leaseIdOf (host.uuidHex k) ≠ lease.leaseId := by
      intro heq
      rcases hid with hid | hid
      · apply hid
        rw [← heq]
        exact hs.leaseIds k (huuids.trans hk)
      · rw [hid] at heq
        have hkb := host.uuidHex_injective (leaseIdOf_injective heq)
        omega
    rw [hleases, Function.update_of_ne hne]
    exact hs.leaseIds k (huuids.trans hk)
  eventIds leaseId filed hget k hk tag htag := by
    rw [hleases] at hget
    by_cases heq : leaseId = lease.leaseId
    · subst heq
      rw [Function.update_self, Option.some.injEq] at hget
      subst hget
      exact hevents k hk tag htag
    · rw [Function.update_of_ne heq] at hget
      exact hs.eventIds leaseId filed hget k (huuids.trans hk) tag htag

end Hydrogenuine.Lease
