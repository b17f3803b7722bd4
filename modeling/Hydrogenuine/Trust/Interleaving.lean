import Hydrogenuine.Trust.Quorum
import Mathlib.Logic.Function.Basic

/-!
# Signatures at the same time

Calls of `add_threshold_signature` and `finalize_threshold_action` on one action that
run at the same time.  A call reads the document of the action, and writes the whole
document back; other calls may take steps between the two.  A run is any interleaving of
the steps of any number of calls.
-/

namespace Hydrogenuine.Trust

open Support Hydrogenuine.Core

/-- A call on the action. -/
inductive ActionCall where
  | sign (call : SignCall)
  | finalize

def ActionCall.made (now : ℤ) (read : Option ThresholdAction) :
    ActionCall → Except String ThresholdAction
  | .sign call => signRead now call read
  | .finalize => finalizeRead now read

def ActionCall.added (now : ℤ) : ActionCall → List Signature
  | .sign call => [call.signature now]
  | .finalize => []

/-- How far a call is. -/
inductive CallPhase where
  | waiting
  /-- The time and the document that were read, and the document to be written. -/
  | holding (now : ℤ) (read : Option ThresholdAction) (made : ThresholdAction)
  | over

inductive ActionStep where
  | read (call : ℕ) (now : ℤ)
  | write (call : ℕ)

/-- The stored document, how far the calls are, and the signatures that were reported as
added. -/
structure ActionState where
  stored : Option ThresholdAction
  phase : ℕ → CallPhase := fun _ => .waiting
  reported : List Signature := []

namespace ActionState

def moveTo (s : ActionState) (call : ℕ) (phase : CallPhase) : ActionState :=
  { s with phase := Function.update s.phase call phase }

def step (calls : ℕ → ActionCall) (s : ActionState) : ActionStep → ActionState
  | .read i now =>
      match s.phase i with
      | .waiting =>
          match (calls i).made now s.stored with
          | .ok made => s.moveTo i (.holding now s.stored made)
          | .error _ => s.moveTo i .over
      | _ => s
  | .write i =>
      match s.phase i with
      | .holding now _ made =>
          { s.moveTo i .over with
            stored := some made
            reported := s.reported ++ (calls i).added now }
      | _ => s

def Finalized (s : ActionState) : Prop :=
  ∃ action, s.stored = some action ∧ isText action.finalizedTs = true

/-- Every signature that was reported as added is stored. -/
def SignaturesKept (s : ActionState) : Prop :=
  ∀ signature ∈ s.reported, ∃ action, s.stored = some action ∧
    signature ∈ action.signatures

end ActionState

def actionMachine (calls : ℕ → ActionCall) : Machine ActionState ActionStep Unit where
  step s i := (s.step calls i, ())

/-- At every moment the reported signatures are stored, and no step undoes a
finalization. -/
def NothingUndone (trace : List (Step ActionState ActionStep Unit)) : Prop :=
  ∀ e ∈ trace, e.after.SignaturesKept ∧ (e.before.Finalized → e.after.Finalized)

theorem addThresholdSignature_eq_read_write
    (store : TrustStore) (now : ℤ) (call : SignCall) (calls : ℕ → ActionCall)
    (hcall : calls 0 = .sign call) :
    (store.addThresholdSignature now call).2.actions.get? call.actionId =
      ((actionMachine calls).final { stored := store.actions.get? call.actionId }
        [.read 0 now, .write 0]).stored := by
  rw [TrustStore.addThresholdSignature, Machine.final, Machine.final, Machine.final,
    actionMachine]
  simp only [ActionState.step, hcall, ActionCall.made]
  cases hread : signRead now call (store.actions.get? call.actionId) with
  | error reason => simp [TrustStore.writeAction, ActionState.moveTo]
  | ok written => simp [TrustStore.writeAction, ActionState.moveTo]

theorem finalizeThresholdAction_eq_read_write
    (store : TrustStore) (now : ℤ) (actionId : String) (calls : ℕ → ActionCall)
    (hcall : calls 0 = .finalize) :
    (store.finalizeThresholdAction now actionId).2.actions.get? actionId =
      ((actionMachine calls).final { stored := store.actions.get? actionId }
        [.read 0 now, .write 0]).stored := by
  rw [TrustStore.finalizeThresholdAction, Machine.final, Machine.final, Machine.final,
    actionMachine]
  simp only [ActionState.step, hcall, ActionCall.made]
  cases hread : finalizeRead now (store.actions.get? actionId) with
  | error reason => simp [TrustStore.writeAction, ActionState.moveTo]
  | ok written => simp [TrustStore.writeAction, ActionState.moveTo]

/-! ## Runs -/

/-- The document that a call writes over is the one that it read. -/
def Unraced (s : ActionState) : ActionStep → Prop
  | .read _ _ => True
  | .write i => ∀ now read made, s.phase i = .holding now read made → s.stored = read

/-- The reported signatures are stored, and what a call holds is what it made of the
document that it read. -/
structure ActionInv (calls : ℕ → ActionCall) (s : ActionState) : Prop where
  kept : s.SignaturesKept
  held : ∀ i now read made, s.phase i = .holding now read made →
    (calls i).made now read = .ok made

theorem ActionCall.made_ok {call : ActionCall} {now : ℤ} {read : Option ThresholdAction}
    {made : ThresholdAction} (h : call.made now read = .ok made) :
    ∃ action, read = some action ∧ isText action.finalizedTs = false ∧
      made.signatures = action.signatures ++ call.added now := by
  cases call with
  | sign call =>
      obtain ⟨action, hread, hopen, -, -, rfl⟩ := signRead_ok h
      exact ⟨action, hread, hopen, rfl⟩
  | finalize =>
      obtain ⟨action, hread, hopen, -, -, rfl⟩ := finalizeRead_ok h
      exact ⟨action, hread, hopen, (List.append_nil _).symm⟩

section

variable {calls : ℕ → ActionCall} {s : ActionState}

theorem ActionInv.held_moveTo (h : ActionInv calls s) {i : ℕ} {phase : CallPhase}
    (hphase : ∀ now read made, phase = .holding now read made →
      (calls i).made now read = .ok made) :
    ∀ j now read made, (s.moveTo i phase).phase j = .holding now read made →
      (calls j).made now read = .ok made := by
  intro j now read made hj
  rw [ActionState.moveTo] at hj
  dsimp only at hj
  by_cases hij : j = i
  · subst hij
    rw [Function.update_self] at hj
    exact hphase now read made hj
  · rw [Function.update_of_ne hij] at hj
    exact h.held j now read made hj

theorem ActionInv.read (h : ActionInv calls s) (i : ℕ) (now : ℤ) :
    ActionInv calls (s.step calls (.read i now)) ∧
      (s.step calls (.read i now)).stored = s.stored := by
  rw [ActionState.step]
  split
  · split
    · rename_i made hmade
      refine ⟨⟨h.kept, h.held_moveTo ?_⟩, rfl⟩
      rintro _ _ _ ⟨rfl, rfl, rfl⟩
      exact hmade
    · exact ⟨⟨h.kept, h.held_moveTo fun _ _ _ hover => by cases hover⟩, rfl⟩
  · exact ⟨h, rfl⟩

theorem ActionInv.write (h : ActionInv calls s) {i : ℕ} (hguard : Unraced s (.write i)) :
    ActionInv calls (s.step calls (.write i)) ∧
      (s.Finalized → (s.step calls (.write i)).Finalized) := by
  rw [ActionState.step]
  split
  · rename_i now read made hholding
    obtain ⟨action, hread, hopen, hsignatures⟩ :=
      ActionCall.made_ok (h.held i now read made hholding)
    have hstored : s.stored = some action :=
      (hguard now read made hholding).trans hread
    refine ⟨⟨fun signature hsignature => ⟨made, rfl, ?_⟩,
      h.held_moveTo fun _ _ _ hover => by cases hover⟩, ?_⟩
    · rw [hsignatures]
      rcases List.mem_append.mp hsignature with hold | hnew
      · obtain ⟨action', hstored', hmem⟩ := h.kept signature hold
        obtain rfl := Option.some.inj (hstored.symm.trans hstored')
        exact List.mem_append_left _ hmem
      · exact List.mem_append_right _ hnew
    · rintro ⟨action', hstored', hfinalized⟩
      obtain rfl := Option.some.inj (hstored.symm.trans hstored')
      rw [hopen] at hfinalized
      cases hfinalized
  · exact ⟨h, id⟩

theorem ActionInv.step (h : ActionInv calls s) {i : ActionStep} (hguard : Unraced s i) :
    ActionInv calls (s.step calls i) ∧
      (s.Finalized → (s.step calls i).Finalized) := by
  cases i with
  | read i now =>
      obtain ⟨hinv, hstored⟩ := h.read i now
      refine ⟨hinv, ?_⟩
      rintro ⟨action, haction, hfinalized⟩
      exact ⟨action, hstored.trans haction, hfinalized⟩
  | write i => exact h.write hguard

end

/-- In every interleaving in which no call writes over a document that it has not read,
the reported signatures are stored and a finalized action stays so. -/
theorem nothingUndone_of_unraced (calls : ℕ → ActionCall)
    (stored : Option ThresholdAction) (steps : List ActionStep)
    (hguard : (actionMachine calls).Guarded Unraced { stored } steps) :
    NothingUndone ((actionMachine calls).trace { stored } steps) := by
  have hinit : ActionInv calls { stored } :=
    ⟨List.forall_mem_nil _, fun _ _ _ _ hphase => by cases hphase⟩
  have hsplit := Machine.forall_split_of_guarded (fun _ s => ActionInv calls s)
    (fun _ e => e.after.SignaturesKept ∧ (e.before.Finalized → e.after.Finalized)) hinit
    (fun _ s i h hi => by
      obtain ⟨hinv, hfinalized⟩ := h.step hi
      exact ⟨hinv, hinv.kept, hfinalized⟩) hguard
  intro e he
  obtain ⟨earlier, later, heq⟩ := List.append_of_mem he
  exact hsplit earlier e later heq

/-! ### Calls one after the other -/

section

variable {calls : ℕ → ActionCall} {s : ActionState}

theorem unraced_write {i : ℕ} {now : ℤ} (hwaiting : s.phase i = .waiting) :
    Unraced (s.step calls (.read i now)) (.write i) := by
  intro now' read made hphase
  simp only [ActionState.step, hwaiting] at hphase ⊢
  cases hmade : (calls i).made now s.stored with
  | error reason => simp [hmade, ActionState.moveTo] at hphase
  | ok written =>
      simp only [hmade, ActionState.moveTo, Function.update_self,
        CallPhase.holding.injEq] at hphase
      exact hphase.2.1

theorem phase_of_ne {i j : ℕ} {now : ℤ} (hne : j ≠ i) :
    ((s.step calls (.read i now)).step calls (.write i)).phase j = s.phase j := by
  have hmove (s : ActionState) (phase : CallPhase) :
      (s.moveTo i phase).phase j = s.phase j :=
    Function.update_of_ne hne _ _
  have hread : (s.step calls (.read i now)).phase j = s.phase j := by
    rw [ActionState.step]
    split
    · split
      · exact hmove _ _
      · exact hmove _ _
    · rfl
  rw [← hread]
  generalize s.step calls (.read i now) = t
  rw [ActionState.step]
  split
  · exact hmove _ _
  · rfl

end

def openAction : ThresholdAction where
  actionId := "tact_0"
  actionType := "VC_ISSUANCE"
  scope := []
  proposedTs := isoTs newYear
  expiresTs := ""
  quorumM := 0
  quorumN := 2
  payloadRef := []

def twoSigners : ℕ → ActionCall
  | 0 => .sign ⟨"tact_0", "did:a", [], []⟩
  | 1 => .sign ⟨"tact_0", "did:b", [], []⟩
  | _ => .finalize

/-- One signs after the other. -/
theorem nothingUndone_in_turn :
    NothingUndone ((actionMachine twoSigners).trace { stored := some openAction }
      [.read 0 newYear, .write 0, .read 1 newYear, .write 1]) := by
  refine nothingUndone_of_unraced twoSigners (some openAction)
    [.read 0 newYear, .write 0, .read 1 newYear, .write 1] ?_
  have hwrite (s : ActionState) (i : ℕ) (hwaiting : s.phase i = .waiting) :
      Unraced ((actionMachine twoSigners).step s (.read i newYear)).1 (.write i) :=
    unraced_write hwaiting
  have hother (s : ActionState) : ((actionMachine twoSigners).step
      ((actionMachine twoSigners).step s (.read 0 newYear)).1 (.write 0)).1.phase 1 =
        s.phase 1 :=
    phase_of_ne (by decide)
  refine Machine.guarded_cons.mpr ⟨trivial, ?_⟩
  refine Machine.guarded_cons.mpr ⟨hwrite _ 0 rfl, ?_⟩
  refine Machine.guarded_cons.mpr ⟨trivial, ?_⟩
  refine Machine.guarded_cons.mpr ⟨hwrite _ 1 ?_, Machine.guarded_nil⟩
  exact hother { stored := some openAction }

def bothSign : ActionState :=
  (actionMachine twoSigners).final { stored := some openAction }
    [.read 0 newYear, .read 1 newYear, .write 0, .write 1]

def finalizedMeanwhile : ActionState :=
  (actionMachine twoSigners).final { stored := some openAction }
    [.read 0 newYear, .read 2 newYear, .write 2]

/-- Two signatures are reported and one is stored, and a signature undoes a
finalization. -/
theorem signature_lost :
    (bothSign.reported.map Signature.signerId = ["did:a", "did:b"] ∧
      bothSign.stored.map (fun action => action.signatures.map Signature.signerId) =
        some ["did:b"]) ∧
    (finalizedMeanwhile.Finalized ∧
      ¬ (finalizedMeanwhile.step twoSigners (.write 0)).Finalized) ∧
    ¬ NothingUndone ((actionMachine twoSigners).trace { stored := some openAction }
        [.read 0 newYear, .read 1 newYear, .write 0, .write 1]) ∧
    ¬ NothingUndone ((actionMachine twoSigners).trace { stored := some openAction }
        [.read 0 newYear, .read 2 newYear, .write 2, .write 0]) := by
  have hreported : bothSign.reported.map Signature.signerId = ["did:a", "did:b"] := by
    decide +kernel
  have hstored : bothSign.stored.map (fun action =>
      action.signatures.map Signature.signerId) = some ["did:b"] := by decide +kernel
  have hfinalized : finalizedMeanwhile.Finalized := by
    have htext : finalizedMeanwhile.stored.any
        (fun action => isText action.finalizedTs) = true := by decide +kernel
    obtain ⟨action, haction, htext⟩ := (Option.any_eq_true _ _).mp htext
    exact ⟨action, haction, htext⟩
  have hundone : ¬ (finalizedMeanwhile.step twoSigners (.write 0)).Finalized := by
    have htext : (finalizedMeanwhile.step twoSigners (.write 0)).stored.any
        (fun action => isText action.finalizedTs) = false := by decide +kernel
    rintro ⟨action, haction, hfinalized⟩
    rw [haction, Option.any_some, hfinalized] at htext
    cases htext
  refine ⟨⟨hreported, hstored⟩, ⟨hfinalized, hundone⟩, fun hkept => ?_, fun hkept => ?_⟩
  · obtain ⟨signature, hsignature, hsigner⟩ :=
      List.mem_map.mp (hreported.symm ▸ List.mem_cons_self :
        "did:a" ∈ bothSign.reported.map Signature.signerId)
    have htrace := (actionMachine twoSigners).trace_snoc { stored := some openAction }
      [.read 0 newYear, .read 1 newYear, .write 0] (.write 1)
    have hlast := (hkept _ (htrace ▸ List.mem_append_right _
      (List.mem_singleton_self _))).1
    obtain ⟨action, haction, hmem⟩ := hlast signature hsignature
    have haction' : bothSign.stored = some action := haction
    rw [haction', Option.map_some, Option.some.injEq] at hstored
    have hsigned : signature.signerId ∈ ["did:b"] := by
      rw [← hstored]
      exact List.mem_map_of_mem hmem
    rw [hsigner] at hsigned
    exact absurd hsigned (by decide)
  · have htrace := (actionMachine twoSigners).trace_snoc { stored := some openAction }
      [.read 0 newYear, .read 2 newYear, .write 2] (.write 0)
    exact hundone ((hkept _ (htrace ▸ List.mem_append_right _
      (List.mem_singleton_self _))).2 hfinalized)

end Hydrogenuine.Trust
