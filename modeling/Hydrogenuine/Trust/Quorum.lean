import Hydrogenuine.Trust.Threshold

/-!
# Quorum of the issuer group

An action should be finalized once, before its expiry and after enough members of its
issuer group have signed it, and signed neither after that nor after its expiry.  The
code does not look at the group when it takes a signature, compares the times as texts,
and overwrites an action when it proposes another with the same id.  Every step of a run
is sound if signatures come from members who stay, the texts compare as the times do,
and proposals get new ids.
-/

namespace Hydrogenuine.Trust

open Support Hydrogenuine.Core

abbrev TrustStep := Step TrustStore (ℤ × TrustCall) TrustReply

/-! ## The property -/

def Finalizes (id : String) (e : TrustStep) : Prop :=
  e.input.2 = .finalize id ∧ e.output = .verdict true none

def Signs (id did : String) (e : TrustStep) : Prop :=
  ∃ call, e.input.2 = .sign call ∧ call.actionId = id ∧ call.signerId = did ∧
    e.output = .verdict true none

def TrustStore.members (store : TrustStore) (id : String) : List String :=
  match (store.groupOf.get? id).bind store.groups.get? with
  | none => []
  | some group => group.members

def ThresholdAction.expiry (host : Host) (action : ThresholdAction) : Option ℤ :=
  (parseRfc3339Z host action.expiresTs).map Datetime.instant

/-- The expiry of the action has not been reached. -/
def BeforeExpiry (host : Host) (store : TrustStore) (id : String) (now : ℤ) : Prop :=
  ∀ action, store.actions.get? id = some action →
    ∀ expiry, action.expiry host = some expiry → now < expiry

/-- As many distinct members of the group signed the action, as members then. -/
def EnoughMembers (earlier : List TrustStep) (store : TrustStore) (id : String)
    (m : ℤ) : Prop :=
  ∃ dids : List String, dids.Nodup ∧ m ≤ dids.length ∧ ∀ did ∈ dids,
    did ∈ store.members id ∧
      ∃ e ∈ earlier, Signs id did e ∧ did ∈ e.before.members id

/-- What a step may do after the steps before it. -/
structure SoundAfter (host : Host) (earlier : List TrustStep) (e : TrustStep) :
    Prop where
  once : ∀ id, Finalizes id e → ∀ e' ∈ earlier, ¬ Finalizes id e'
  inTime : ∀ id, Finalizes id e → BeforeExpiry host e.before id e.input.1
  quorum : ∀ id, Finalizes id e → ∃ action,
    e.before.actions.get? id = some action ∧
      EnoughMembers earlier e.before id action.quorumM
  signedOpen : ∀ id did, Signs id did e → ∀ e' ∈ earlier, ¬ Finalizes id e'
  signedInTime : ∀ id did, Signs id did e → BeforeExpiry host e.before id e.input.1

/-- Every step is sound after the steps before it. -/
def SoundRun (host : Host) (trace : List TrustStep) : Prop :=
  ∀ earlier e later, trace = earlier ++ e :: later → SoundAfter host earlier e

/-! ## The condition -/

/-- Once the expiry of an open action is reached, its text is below that of the clock. -/
def ClockAgrees (host : Host) (store : TrustStore) (id : String) (now : ℤ) : Prop :=
  ∀ action, store.actions.get? id = some action → isText action.finalizedTs = false →
    ∀ expiry, action.expiry host = some expiry → expiry ≤ now →
      action.isExpired now = true

/-- Proposals get new ids, a signature that is added comes from a member, and the
signers are still members when the action is finalized. -/
def MembersSign (host : Host) (store : TrustStore) (input : ℤ × TrustCall) : Prop :=
  match input.2 with
  | .proposeIssuance _ =>
      store.actions.get? (TrustStore.actionIdAt host input.1 "VC_ISSUANCE") = none
  | .proposeRevocation _ =>
      store.actions.get? (TrustStore.actionIdAt host input.1 "VC_REVOCATION") = none
  | .sign call =>
      ClockAgrees host store call.actionId input.1 ∧
        ∀ written, signRead input.1 call (store.actions.get? call.actionId) =
          .ok written → call.signerId ∈ store.members call.actionId
  | .finalize id =>
      ClockAgrees host store id input.1 ∧
        ∀ action, store.actions.get? id = some action →
          isText action.finalizedTs = false →
            ∀ signature ∈ action.signatures, signature.signerId ∈ store.members id
  | _ => True

/-! ## What is read and written -/

section

variable {now : ℤ} {read : Option ThresholdAction} {written : ThresholdAction}

theorem signRead_ok {call : SignCall} (h : signRead now call read = .ok written) :
    ∃ action, read = some action ∧ isText action.finalizedTs = false ∧
      action.isExpired now = false ∧
      call.signerId ∉ action.signatures.map Signature.signerId ∧
      written =
        { action with signatures := action.signatures ++ [call.signature now] } := by
  cases read with
  | none => cases h
  | some action =>
      rw [signRead] at h
      split_ifs at h with hfinalized hexpired hdisallowed hduplicate
      refine ⟨action, rfl, Bool.eq_false_iff.mpr hfinalized,
        Bool.eq_false_iff.mpr hexpired, fun hmem => hduplicate ?_,
        (Except.ok.inj h).symm⟩
      obtain ⟨signature, hsignature, hsigner⟩ := List.mem_map.mp hmem
      exact List.any_eq_true.mpr ⟨signature, hsignature, decide_eq_true hsigner⟩

theorem finalizeRead_ok (h : finalizeRead now read = .ok written) :
    ∃ action, read = some action ∧ isText action.finalizedTs = false ∧
      action.isExpired now = false ∧ action.quorumM ≤ action.signatures.length ∧
      written = { action with finalizedTs := some (isoTs now) } := by
  cases read with
  | none => cases h
  | some action =>
      rw [finalizeRead] at h
      split_ifs at h with hfinalized hexpired hquorum
      exact ⟨action, rfl, Bool.eq_false_iff.mpr hfinalized,
        Bool.eq_false_iff.mpr hexpired, not_lt.mp hquorum, (Except.ok.inj h).symm⟩

end

theorem isText_isoTs (now : ℤ) : isText (some (isoTs now)) = true := by
  rw [isText, bne_iff_ne]
  intro hempty
  have hlength := congrArg String.length hempty
  rw [isoTs, String.length_append] at hlength
  exact absurd hlength (Nat.succ_ne_zero _)

/-! ## One step -/

section

variable {host : Host} {store : TrustStore} {input : ℤ × TrustCall}

def Idle (e : TrustStep) : Prop :=
  (∀ id, ¬ Finalizes id e) ∧ ∀ id did, ¬ Signs id did e

/-- What a call makes of the actions: nothing, a new action without signatures, a
signature more, or a finalized action. -/
inductive Effect (store : TrustStore) (e : TrustStep) : Prop where
  | nothing (idle : Idle e) (actions : e.after.actions = store.actions)
  | proposed (idle : Idle e) (id : String) (action : ThresholdAction)
      (fresh : store.actions.get? id = none) (unsigned : action.signatures = [])
      (actions : e.after.actions = store.actions.set id action)
  | signed (call : SignCall) (written : ThresholdAction)
      (input : e.input.2 = .sign call) (output : e.output = .verdict true none)
      (read : signRead e.input.1 call (store.actions.get? call.actionId) = .ok written)
      (actions : e.after.actions = store.actions.set call.actionId written)
  | finalized (id : String) (written : ThresholdAction)
      (input : e.input.2 = .finalize id) (output : e.output = .verdict true none)
      (read : finalizeRead e.input.1 (store.actions.get? id) = .ok written)
      (actions : e.after.actions = store.actions.set id written)

variable {e : TrustStep} {written : ThresholdAction} {id : String}

theorem idle_of_ne (h : e.output ≠ .verdict true none) : Idle e :=
  ⟨fun _ hfinalizes => h hfinalizes.2, fun _ _ ⟨_, _, _, _, houtput⟩ => h houtput⟩

theorem proposeVc_effect {actionType subjectKey : String} {proposal : VcProposal}
    (hfresh : store.actions.get? (TrustStore.actionIdAt host e.input.1 actionType) =
      none)
    (houtput : e.output =
      .proposed (store.proposeVc host e.input.1 actionType subjectKey proposal).1)
    (hafter : e.after =
      (store.proposeVc host e.input.1 actionType subjectKey proposal).2) :
    Effect store e := by
  have hidle : Idle e := idle_of_ne (by rw [houtput]; exact nofun)
  rw [TrustStore.proposeVc] at hafter
  split at hafter
  · exact .nothing hidle (congrArg TrustStore.actions hafter)
  · exact .proposed hidle _ _ hfresh rfl (congrArg TrustStore.actions hafter)

/-- What a guarded call makes of the actions. -/
theorem perform_effect (hguard : MembersSign host store input) :
    Effect store ((trustMachine host).stepAt store input) := by
  obtain ⟨now, call⟩ := input
  cases call with
  | publishGroup groupId members quorumM quorumN permittedTypes expiresTs =>
      exact .nothing (idle_of_ne nofun) rfl
  | addMember groupId memberDid =>
      refine .nothing (idle_of_ne nofun) ?_
      change (store.addIssuerGroupMember groupId memberDid).actions = _
      rw [TrustStore.addIssuerGroupMember]
      split
      · rfl
      · split <;> rfl
  | removeMember groupId memberDid =>
      refine .nothing (idle_of_ne nofun) ?_
      change (store.removeIssuerGroupMember groupId memberDid).actions = _
      rw [TrustStore.removeIssuerGroupMember]
      split
      · rfl
      · split <;> rfl
  | checkQuorum groupId credentialType =>
      refine .nothing (idle_of_ne fun houtput => ?_) rfl
      injection houtput with _ hreason
      cases hreason
  | proposeIssuance proposal => exact proposeVc_effect hguard rfl rfl
  | proposeRevocation proposal => exact proposeVc_effect hguard rfl rfl
  | sign call =>
      cases hread : signRead now call (store.actions.get? call.actionId) with
      | error reason =>
          have hwrite : store.addThresholdSignature now call =
              ((false, some reason), store) := by
            rw [TrustStore.addThresholdSignature, hread, TrustStore.writeAction]
          refine .nothing (idle_of_ne ?_) ?_
          · change TrustReply.verdict (store.addThresholdSignature now call).1.1
              (store.addThresholdSignature now call).1.2 ≠ _
            rw [hwrite]
            exact nofun
          · change (store.addThresholdSignature now call).2.actions = _
            rw [hwrite]
      | ok written =>
          have hwrite : store.addThresholdSignature now call = ((true, none),
              { store with actions := store.actions.set call.actionId written }) := by
            rw [TrustStore.addThresholdSignature, hread, TrustStore.writeAction]
          refine .signed call written rfl ?_ hread ?_
          · change TrustReply.verdict (store.addThresholdSignature now call).1.1
              (store.addThresholdSignature now call).1.2 = _
            rw [hwrite]
          · change (store.addThresholdSignature now call).2.actions = _
            rw [hwrite]
  | finalize id =>
      cases hread : finalizeRead now (store.actions.get? id) with
      | error reason =>
          have hwrite : store.finalizeThresholdAction now id =
              ((false, some reason), store) := by
            rw [TrustStore.finalizeThresholdAction, hread, TrustStore.writeAction]
          refine .nothing (idle_of_ne ?_) ?_
          · change TrustReply.verdict (store.finalizeThresholdAction now id).1.1
              (store.finalizeThresholdAction now id).1.2 ≠ _
            rw [hwrite]
            exact nofun
          · change (store.finalizeThresholdAction now id).2.actions = _
            rw [hwrite]
      | ok written =>
          have hwrite : store.finalizeThresholdAction now id = ((true, none),
              { store with actions := store.actions.set id written }) := by
            rw [TrustStore.finalizeThresholdAction, hread, TrustStore.writeAction]
          refine .finalized id written rfl ?_ hread ?_
          · change TrustReply.verdict (store.finalizeThresholdAction now id).1.1
              (store.finalizeThresholdAction now id).1.2 = _
            rw [hwrite]
          · change (store.finalizeThresholdAction now id).2.actions = _
            rw [hwrite]

/-! ## Runs -/

/-- A finalized action stays so, and every signature of a stored action is of another
signer, who was a member when it was added. -/
structure TrustInv (trace : List TrustStep) (store : TrustStore) : Prop where
  finalized : ∀ id, ∀ e ∈ trace, Finalizes id e → ∃ action,
    store.actions.get? id = some action ∧ isText action.finalizedTs = true
  distinct : ∀ id action, store.actions.get? id = some action →
    (action.signatures.map Signature.signerId).Nodup
  signed : ∀ id action, store.actions.get? id = some action →
    ∀ signature ∈ action.signatures, ∃ e ∈ trace,
      Signs id signature.signerId e ∧ signature.signerId ∈ e.before.members id

variable {trace : List TrustStep}

theorem TrustInv.open_not_finalized (h : TrustInv trace store)
    {action : ThresholdAction} (hget : store.actions.get? id = some action)
    (hopen : isText action.finalizedTs = false) : ∀ e ∈ trace, ¬ Finalizes id e := by
  intro e he hfinalizes
  obtain ⟨action', hget', hfinalized⟩ := h.finalized id e he hfinalizes
  obtain rfl := Option.some.inj (hget.symm.trans hget')
  rw [hopen] at hfinalized
  cases hfinalized

theorem beforeExpiry_of_clockAgrees {now : ℤ} {action : ThresholdAction}
    (hclock : ClockAgrees host store id now)
    (hget : store.actions.get? id = some action)
    (hopen : isText action.finalizedTs = false)
    (hexpired : action.isExpired now = false) : BeforeExpiry host store id now := by
  intro action' hget' expiry hexpiry
  obtain rfl := Option.some.inj (hget.symm.trans hget')
  by_contra hreached
  have htext := hclock action hget hopen expiry hexpiry (not_lt.mp hreached)
  rw [hexpired] at htext
  cases htext

/-- A step that leaves the other actions alone keeps the invariant, if it is kept for
the action that it stores. -/
theorem TrustInv.set (h : TrustInv trace store) (hafter : e.after.actions = store.actions.set id written)
    (hothers : ∀ id', Finalizes id' e → id' = id ∧ isText written.finalizedTs = true)
    (hkept : ∀ action, store.actions.get? id = some action →
      isText action.finalizedTs = true → isText written.finalizedTs = true)
    (hdistinct : (written.signatures.map Signature.signerId).Nodup)
    (hsigned : ∀ signature ∈ written.signatures, ∃ e' ∈ trace ++ [e],
      Signs id signature.signerId e' ∧ signature.signerId ∈ e'.before.members id) :
    TrustInv (trace ++ [e]) e.after := by
  have hget : ∀ id', e.after.actions.get? id' =
      if id' = id then some written else store.actions.get? id' := by
    intro id'
    rw [hafter, Dict.get?_set]
  refine ⟨fun id' e' he' hfinalizes => ?_, fun id' action haction => ?_,
    fun id' action haction signature hsignature => ?_⟩
  · rw [hget]
    rcases List.mem_append.mp he' with hold | hnew
    · obtain ⟨action, haction, hfinalized⟩ := h.finalized id' e' hold hfinalizes
      split_ifs with hid
      · rw [hid] at haction
        exact ⟨written, rfl, hkept action haction hfinalized⟩
      · exact ⟨action, haction, hfinalized⟩
    · rw [List.mem_singleton.mp hnew] at hfinalizes
      obtain ⟨hid, hfinalized⟩ := hothers id' hfinalizes
      rw [if_pos hid]
      exact ⟨written, rfl, hfinalized⟩
  · rw [hget] at haction
    split_ifs at haction
    · rw [← Option.some.inj haction]
      exact hdistinct
    · exact h.distinct id' action haction
  · rw [hget] at haction
    split_ifs at haction with hid
    · rw [← Option.some.inj haction] at hsignature
      rw [hid]
      exact hsigned signature hsignature
    · obtain ⟨e', he', hsigns⟩ := h.signed id' action haction signature hsignature
      exact ⟨e', List.mem_append_left _ he', hsigns⟩

theorem TrustInv.of_idle (h : TrustInv trace store) (hidle : Idle e)
    (hafter : e.after.actions = store.actions) : TrustInv (trace ++ [e]) e.after := by
  refine ⟨fun id e' he' hfinalizes => ?_, fun id action haction => ?_,
    fun id action haction signature hsignature => ?_⟩
  · rw [hafter]
    rcases List.mem_append.mp he' with hold | hnew
    · exact h.finalized id e' hold hfinalizes
    · rw [List.mem_singleton.mp hnew] at hfinalizes
      exact absurd hfinalizes (hidle.1 id)
  · rw [hafter] at haction
    exact h.distinct id action haction
  · rw [hafter] at haction
    obtain ⟨e', he', hsigns⟩ := h.signed id action haction signature hsignature
    exact ⟨e', List.mem_append_left _ he', hsigns⟩

theorem soundAfter_of_idle (hidle : Idle e) :
    SoundAfter host trace e where
  once id h := absurd h (hidle.1 id)
  inTime id h := absurd h (hidle.1 id)
  quorum id h := absurd h (hidle.1 id)
  signedOpen id did h := absurd h (hidle.2 id did)
  signedInTime id did h := absurd h (hidle.2 id did)

theorem TrustInv.signed_step (h : TrustInv trace store) {call : SignCall} (hbefore : e.before = store)
    (hinput : e.input.2 = .sign call) (houtput : e.output = .verdict true none)
    (hread : signRead e.input.1 call (store.actions.get? call.actionId) = .ok written)
    (hafter : e.after.actions = store.actions.set call.actionId written)
    (hclock : ClockAgrees host store call.actionId e.input.1)
    (hmember : call.signerId ∈ store.members call.actionId) :
    TrustInv (trace ++ [e]) e.after ∧ SoundAfter host trace e := by
  obtain ⟨action, hget, hopen, hexpired, hnew, rfl⟩ := signRead_ok hread
  have hnone : ∀ id, ¬ Finalizes id e := by
    intro id hfinalizes
    have hinput' := hfinalizes.1
    rw [hinput] at hinput'
    cases hinput'
  have hsame : ∀ {id did}, Signs id did e → id = call.actionId := by
    rintro id did ⟨call', hinput', rfl, -, -⟩
    rw [hinput] at hinput'
    cases hinput'
    rfl
  constructor
  · refine h.set hafter (fun id hfinalizes => absurd hfinalizes (hnone id)) ?_ ?_ ?_
    · intro action' hget' hfinalized
      obtain rfl := Option.some.inj (hget.symm.trans hget')
      exact hfinalized
    · rw [List.map_append, List.map_singleton]
      refine List.nodup_append.mpr ⟨h.distinct _ action hget, List.nodup_singleton _, ?_⟩
      rintro did hdid _ hlast rfl
      rw [List.mem_singleton.mp hlast] at hdid
      exact hnew hdid
    · intro signature hsignature
      rcases List.mem_append.mp hsignature with hold | hlast
      · obtain ⟨e', he', hsigns⟩ := h.signed _ action hget signature hold
        exact ⟨e', List.mem_append_left _ he', hsigns⟩
      · rw [List.mem_singleton.mp hlast]
        refine ⟨e, List.mem_append_right _ (List.mem_singleton_self _),
          ⟨call, hinput, rfl, rfl, houtput⟩, ?_⟩
        rw [hbefore]
        exact hmember
  · refine ⟨fun id hf => absurd hf (hnone id), fun id hf => absurd hf (hnone id),
      fun id hf => absurd hf (hnone id), fun id did hsigns => ?_,
      fun id did hsigns => ?_⟩
    · rw [hsame hsigns]
      exact h.open_not_finalized hget hopen
    · rw [hsame hsigns, hbefore]
      exact beforeExpiry_of_clockAgrees hclock hget hopen hexpired

theorem TrustInv.finalized_step (h : TrustInv trace store) (hbefore : e.before = store)
    (hinput : e.input.2 = .finalize id)
    (hread : finalizeRead e.input.1 (store.actions.get? id) = .ok written)
    (hafter : e.after.actions = store.actions.set id written)
    (hclock : ClockAgrees host store id e.input.1)
    (hmembers : ∀ action, store.actions.get? id = some action →
      isText action.finalizedTs = false →
        ∀ signature ∈ action.signatures, signature.signerId ∈ store.members id) :
    TrustInv (trace ++ [e]) e.after ∧ SoundAfter host trace e := by
  obtain ⟨action, hget, hopen, hexpired, hquorum, rfl⟩ := finalizeRead_ok hread
  have hnone : ∀ id' did, ¬ Signs id' did e := by
    rintro id' did ⟨call, hinput', -⟩
    rw [hinput] at hinput'
    cases hinput'
  have hsame : ∀ {id'}, Finalizes id' e → id' = id := by
    intro id' hfinalizes
    have hinput' := hfinalizes.1
    rw [hinput] at hinput'
    cases hinput'
    rfl
  constructor
  · refine h.set hafter (fun id' hf => ⟨hsame hf, isText_isoTs _⟩)
      (fun _ _ _ => isText_isoTs _) (h.distinct id action hget) ?_
    intro signature hsignature
    obtain ⟨e', he', hsigns⟩ := h.signed id action hget signature hsignature
    exact ⟨e', List.mem_append_left _ he', hsigns⟩
  · refine ⟨fun id' hf => ?_, fun id' hf => ?_, fun id' hf => ?_,
      fun id' did hsigns => absurd hsigns (hnone id' did),
      fun id' did hsigns => absurd hsigns (hnone id' did)⟩
    · rw [hsame hf]
      exact h.open_not_finalized hget hopen
    · rw [hsame hf, hbefore]
      exact beforeExpiry_of_clockAgrees hclock hget hopen hexpired
    · rw [hsame hf, hbefore]
      refine ⟨action, hget, action.signatures.map Signature.signerId,
        h.distinct id action hget, ?_, fun did hdid => ?_⟩
      · rw [List.length_map]
        exact hquorum
      · obtain ⟨signature, hsignature, rfl⟩ := List.mem_map.mp hdid
        exact ⟨hmembers action hget hopen signature hsignature,
          h.signed id action hget signature hsignature⟩

theorem TrustInv.step (h : TrustInv trace store) (hguard : MembersSign host store input) :
    TrustInv (trace ++ [(trustMachine host).stepAt store input])
        ((trustMachine host).step store input).1 ∧
      SoundAfter host trace ((trustMachine host).stepAt store input) := by
  rcases perform_effect hguard with ⟨hidle, hafter⟩ |
    ⟨hidle, id, action, hfresh, hunsigned, hafter⟩ |
    ⟨call, written, hinput, houtput, hread, hafter⟩ |
    ⟨id, written, hinput, -, hread, hafter⟩
  · exact ⟨h.of_idle hidle hafter, soundAfter_of_idle hidle⟩
  · refine ⟨h.set hafter (fun id' hf => absurd hf (hidle.1 id')) ?_ ?_ ?_,
      soundAfter_of_idle hidle⟩
    · intro action' hget
      rw [hfresh] at hget
      cases hget
    · rw [hunsigned]
      exact List.nodup_nil
    · rw [hunsigned]
      exact List.forall_mem_nil _
  · have hinput' : input.2 = .sign call := hinput
    rw [MembersSign, hinput'] at hguard
    exact h.signed_step rfl hinput houtput hread hafter hguard.1
      (hguard.2 written hread)
  · have hinput' : input.2 = .finalize id := hinput
    rw [MembersSign, hinput'] at hguard
    exact h.finalized_step rfl hinput hread hafter hguard.1 hguard.2

end

theorem trustInv_init : TrustInv [] {} where
  finalized _ _ he := by cases he
  distinct _ _ hget := by cases hget
  signed _ _ hget := by cases hget

/-- From an empty store, every step of a run is sound if signatures come from members
who stay, the texts of the times compare as the times do, and proposals get new ids. -/
theorem soundRun_of_membersSign (host : Host) {inputs : List (ℤ × TrustCall)}
    (hguard : (trustMachine host).Guarded (MembersSign host) {} inputs) :
    SoundRun host ((trustMachine host).trace {} inputs) :=
  Machine.forall_split_of_guarded TrustInv (SoundAfter host) trustInv_init
    (fun _ _ _ h hi => h.step hi) hguard

/-! ## Runs of a group of one -/

def newYear : ℤ := 1767225600000000

example : isoTs newYear = "2026-01-01T00:00:00Z" := by decide +kernel

def roleProposal : VcProposal where
  groupId := "ig"
  subject := "OperatorRole"
  payloadRef := []
  scope := [("type", "run")]
  expiresTs := some "2026-01-01T00:00:01Z"

def roleAction : String := TrustStore.actionIdAt referenceHost newYear "VC_ISSUANCE"

/-- A group of one member proposes an action, the signer signs it, and it is finalized,
so many microseconds later. -/
def groupOfOne (signer : String) (later : ℤ) : List (ℤ × TrustCall) :=
  [(newYear, .publishGroup "ig" ["did:a"] 1 1 ["OperatorRole"] none),
    (newYear, .proposeIssuance roleProposal),
    (newYear + later, .sign ⟨roleAction, signer, [], []⟩),
    (newYear + later, .finalize roleAction)]

def groupStore (signer : String) (later : ℤ) (n : ℕ) : TrustStore :=
  (trustMachine referenceHost).final {} ((groupOfOne signer later).take n)

def actionView (action : ThresholdAction) : ℤ × Option ℤ × Option String × List String :=
  (action.quorumM, action.expiry referenceHost, action.finalizedTs,
    action.signatures.map Signature.signerId)

theorem clockAgrees_of_view {store : TrustStore} {signers : List String}
    (hview : (store.actions.get? roleAction).map actionView =
      some (1, some (newYear + 1000000), none, signers)) :
    ClockAgrees referenceHost store roleAction (newYear + 500000) := by
  intro action hget _ expiry hexpiry hreached
  rw [hget, Option.map_some, actionView, hexpiry] at hview
  simp only [Option.some.injEq, Prod.mk.injEq] at hview
  omega

theorem member_signs_guarded :
    MembersSign referenceHost (groupStore "did:a" 500000 2)
      (newYear + 500000, .sign ⟨roleAction, "did:a", [], []⟩) := by
  have hmembers : "did:a" ∈ (groupStore "did:a" 500000 2).members roleAction := by
    decide +kernel
  exact ⟨@clockAgrees_of_view _ [] (by decide +kernel), fun _ _ => hmembers⟩

theorem member_finalizes_guarded :
    MembersSign referenceHost (groupStore "did:a" 500000 3)
      (newYear + 500000, .finalize roleAction) := by
  refine ⟨@clockAgrees_of_view _ ["did:a"] (by decide +kernel), fun action hget _ => ?_⟩
  have hsigners : ((groupStore "did:a" 500000 3).actions.get? roleAction).all
      (fun action => decide (∀ signature ∈ action.signatures, signature.signerId ∈
        (groupStore "did:a" 500000 3).members roleAction)) = true := by decide +kernel
  rw [hget] at hsigners
  exact of_decide_eq_true hsigners

theorem member_run_guarded :
    (trustMachine referenceHost).Guarded (MembersSign referenceHost) {}
      (groupOfOne "did:a" 500000) := by
  have hproposed : (trustMachine referenceHost).Guarded (MembersSign referenceHost) {}
      ((groupOfOne "did:a" 500000).take 2) :=
    Machine.guarded_cons.mpr ⟨trivial, Machine.guarded_cons.mpr
      ⟨rfl, Machine.guarded_nil⟩⟩
  have hsigned : (trustMachine referenceHost).Guarded (MembersSign referenceHost) {}
      ((groupOfOne "did:a" 500000).take 3) :=
    Machine.guarded_snoc_iff.mpr ⟨hproposed, member_signs_guarded⟩
  exact Machine.guarded_snoc_iff.mpr ⟨hsigned, member_finalizes_guarded⟩

/-- The member signs in time. -/
theorem member_sound :
    SoundRun referenceHost
      ((trustMachine referenceHost).trace {} (groupOfOne "did:a" 500000)) :=
  soundRun_of_membersSign referenceHost member_run_guarded

/-- The finalization of an action that a stranger signed half a second after the expiry
was reached. -/
def strangerStep : TrustStep :=
  (trustMachine referenceHost).stepAt (groupStore "did:mallory" 1500000 3)
    (newYear + 1500000, .finalize roleAction)

/-- The action is finalized, after its expiry, and no member signed it. -/
theorem stranger_finalizes :
    Finalizes roleAction strangerStep ∧
      ¬ BeforeExpiry referenceHost strangerStep.before roleAction
        (newYear + 1500000) ∧
      (∀ did ∈ strangerStep.before.members roleAction,
        ∀ e ∈ (trustMachine referenceHost).trace {} (groupOfOne "did:mallory" 1500000),
          ¬ Signs roleAction did e) ∧
      ¬ SoundRun referenceHost
        ((trustMachine referenceHost).trace {} (groupOfOne "did:mallory" 1500000)) := by
  have hfinalizes : Finalizes roleAction strangerStep := by
    have hverdict : ((groupStore "did:mallory" 1500000 3).finalizeThresholdAction
        (newYear + 1500000) roleAction).1 = (true, none) := by decide +kernel
    refine ⟨rfl, ?_⟩
    change TrustReply.verdict _ _ = _
    rw [hverdict]
  have hview : ((groupStore "did:mallory" 1500000 3).actions.get? roleAction).map
      actionView = some (1, some (newYear + 1000000), none, ["did:mallory"]) := by
    decide +kernel
  have hlate : ¬ BeforeExpiry referenceHost strangerStep.before roleAction
      (newYear + 1500000) := by
    intro hbefore
    obtain ⟨action, hget, haction⟩ := Option.map_eq_some_iff.mp hview
    rw [actionView] at haction
    simp only [Prod.mk.injEq] at haction
    have hopen := hbefore action hget (newYear + 1000000) haction.2.1
    omega
  have hmembers : strangerStep.before.members roleAction = ["did:a"] := by
    decide +kernel
  refine ⟨hfinalizes, hlate, ?_, fun hsound => ?_⟩
  · intro did hdid e he hsigns
    rw [hmembers, List.mem_singleton] at hdid
    obtain ⟨call, hinput, -, hsigner, -⟩ := hsigns
    have hmem := Machine.input_mem_of_mem_trace he
    rw [groupOfOne] at hmem
    simp only [List.mem_cons, List.not_mem_nil, or_false] at hmem
    rcases hmem with h | h | h | h <;> rw [h] at hinput <;> cases hinput
    rw [hdid] at hsigner
    exact absurd hsigner (by decide)
  · have htrace := (trustMachine referenceHost).trace_snoc {}
      ((groupOfOne "did:mallory" 1500000).take 3)
      (newYear + 1500000, .finalize roleAction)
    exact hlate ((hsound _ strangerStep [] htrace).inTime roleAction hfinalizes)

end Hydrogenuine.Trust
