import Hydrogenuine.Ownership.Protocol

/-!
# Operations that meet another version

`perform_cases` says how an operation can end.  An operation that fails its
compare-and-set has its event in the ledger by then, and `is_transfer_effective` reads
the ledger: an accept that was refused makes a transfer effective.  `decline_ownership`
compares no version, and `resolve_contested` compares it before it appends.
-/

namespace Hydrogenuine.Ownership

open Support

/-! ## How an operation ends -/

def OwnershipOp.mutate (env : Call) (op : OwnershipOp) (record : OwnershipRecord) :
    OwnershipRecord :=
  match op with
  | .offer .. => offerMut record
  | .accept _ actor tokenId leaseTtlS _ => acceptMut env actor tokenId leaseTtlS record
  | .decline .. => record
  | .renew _ _ tokenId newTtlS _ => renewMut tokenId (env.now + newTtlS) record
  | .release _ _ tokenId _ _ => releaseMut tokenId record
  | .pendingReview _ _ approverSpec escalationSpec _ checkpointId _ =>
      pendingReviewMut approverSpec escalationSpec checkpointId record
  | .approve _ _ checkpointId _ _ _ => reviewedMut "in_progress" checkpointId record
  | .deny _ _ checkpointId _ _ _ => reviewedMut "completed" checkpointId record
  | .abandon .. => abandonMut record
  | .contest _ _ claims _ => contestedMut claims record
  | .resolve _ _ _ winnerActor =>
      resolveMut (winnerActor.getD (leastActor (record.contestedClaims.getD []))) record

def OwnershipOp.comparesFirst : OwnershipOp → Bool
  | .decline .. => true
  | .resolve .. => true
  | _ => false

def Appended (before after : Tables) : Prop :=
  ∃ event, after = (Write.insertEvent event).apply before

def OwnershipOp.written
    (env : Call) (op : OwnershipOp) (tables : Tables) : OwnershipRecord :=
  updatedRecord (op.mutate env) env.now (tables.getTask env.runId op.taskId)

/-- The ways in which an operation ends. -/
inductive EndsAs (env : Call) (tables : Tables) (op : OwnershipOp) :
    ProtocolResult × Tables → Prop where
  | conflict (result : ProtocolResult) (after : Tables)
      (hop : op.comparesFirst = false)
      (hversion : (tables.getTask env.runId op.taskId).version ≠ op.expectedVersion)
      (hresult : result.ok = false ∧ result.error = some "VERSION_CONFLICT")
      (hafter : Appended tables after) : EndsAs env tables op (result, after)
  | refused (result : ProtocolResult) (hop : op.comparesFirst = true)
      (hresult : result.ok = false) : EndsAs env tables op (result, tables)
  | declined (result : ProtocolResult) (after : Tables)
      (hop : ∃ taskId actor tokenId reason expectedVersion,
        op = .decline taskId actor tokenId reason expectedVersion)
      (hresult : result.ok = true ∧ result.error = none)
      (hafter : Appended tables after) : EndsAs env tables op (result, after)
  | updated (result : ProtocolResult) (appended : Tables)
      (hversion : (tables.getTask env.runId op.taskId).version = op.expectedVersion)
      (hresult : result.ok = true ∧ result.error = none)
      (happended : Appended tables appended) :
      EndsAs env tables op (result,
        (casWrites env.runId op.taskId (op.written env tables)).foldl Write.apply
          appended)

section Cases

variable {env : Call} {tables : Tables} {op : OwnershipOp}

theorem getTask_ledgerAppend
    (type actor taskId : String) (payload : Dict String PyVal)
    (expectedVersion : Option ℤ) (runId' taskId' : String) :
    (tables.ledgerAppend env taskId type actor payload expectedVersion).getTask
      runId' taskId' = tables.getTask runId' taskId' := rfl

theorem recordThenUpdate_ends
    (hop : op.comparesFirst = true →
      (tables.getTask env.runId op.taskId).version = op.expectedVersion)
    {mutate : OwnershipRecord → OwnershipRecord}
    (hmutate : op.mutate env (tables.getTask env.runId op.taskId) =
      mutate (tables.getTask env.runId op.taskId))
    {returns : OwnershipRecord → ProtocolResult}
    (hreturns : ∀ updated, (returns updated).ok = true ∧ (returns updated).error = none)
    {refused : ProtocolResult} (hrefused : refused.ok = false)
    (type actor : String) (payload : Dict String PyVal) :
    EndsAs env tables op (recordThenUpdate env tables op.taskId type actor payload
      op.expectedVersion mutate returns refused) := by
  have happended : Appended tables (tables.ledgerAppend env op.taskId type actor payload
      (some op.expectedVersion)) := ⟨_, rfl⟩
  by_cases hversion :
      (tables.getTask env.runId op.taskId).version = op.expectedVersion
  · have hwritten : op.written env tables =
        updatedRecord mutate env.now (tables.getTask env.runId op.taskId) := by
      rw [OwnershipOp.written, updatedRecord, hmutate, updatedRecord]
    have hcas := @casUpdate_updated
      (tables.ledgerAppend env op.taskId type actor payload (some op.expectedVersion))
      ⟨env.runId, op.taskId, op.expectedVersion, mutate, env.now⟩ hversion
    rw [getTask_ledgerAppend, ← hwritten] at hcas
    simp only [recordThenUpdate, hcas]
    exact .updated _ _ hversion (hreturns _) happended
  · have hfirst : op.comparesFirst = false :=
      Bool.eq_false_iff.mpr fun htrue => hversion (hop htrue)
    have hcas := @casUpdate_conflict
      (tables.ledgerAppend env op.taskId type actor payload (some op.expectedVersion))
      ⟨env.runId, op.taskId, op.expectedVersion, mutate, env.now⟩ hversion
    simp only [recordThenUpdate, hcas]
    exact .conflict _ _ hfirst hversion ⟨hrefused, rfl⟩ happended

theorem versionOf_ok (updated : OwnershipRecord) :
    (versionOf updated).ok = true ∧ (versionOf updated).error = none := ⟨rfl, rfl⟩

theorem perform_ends (env : Call) (tables : Tables) (op : OwnershipOp) :
    EndsAs env tables op (op.perform env tables) := by
  cases op with
  | decline taskId actor tokenId reason expectedVersion =>
      exact .declined _ _ ⟨_, _, _, _, _, rfl⟩ ⟨rfl, rfl⟩ ⟨_, rfl⟩
  | resolve taskId actor expectedVersion winnerActor =>
      simp only [OwnershipOp.perform, resolveContested]
      split_ifs with hcontested hversion
      · exact .refused _ rfl rfl
      · exact .refused _ rfl rfl
      · exact @recordThenUpdate_ends env tables
          (.resolve taskId actor expectedVersion winnerActor)
          (fun _ => not_not.mp hversion) _ rfl _ (fun _ => ⟨rfl, rfl⟩) _ rfl _ _ _
  | offer taskId actor offeredTo leaseTtlS ackDeadlineS expectedVersion rolesDelta =>
      exact @recordThenUpdate_ends env tables
        (.offer taskId actor offeredTo leaseTtlS ackDeadlineS expectedVersion rolesDelta)
        nofun _ rfl _ (fun _ => ⟨rfl, rfl⟩) _ rfl _ _ _
  | accept taskId actor tokenId leaseTtlS expectedVersion =>
      exact @recordThenUpdate_ends env tables
        (.accept taskId actor tokenId leaseTtlS expectedVersion)
        nofun _ rfl _ versionOf_ok _ rfl _ _ _
  | renew taskId actor tokenId newTtlS expectedVersion =>
      exact @recordThenUpdate_ends env tables
        (.renew taskId actor tokenId newTtlS expectedVersion)
        nofun _ rfl _ (fun _ => ⟨rfl, rfl⟩) _ rfl _ _ _
  | release taskId actor tokenId expectedVersion nextOffer =>
      exact @recordThenUpdate_ends env tables
        (.release taskId actor tokenId expectedVersion nextOffer)
        nofun _ rfl _ versionOf_ok _ rfl _ _ _
  | pendingReview taskId actor approverSpec escalationSpec slaS checkpointId
      expectedVersion =>
      exact @recordThenUpdate_ends env tables
        (.pendingReview taskId actor approverSpec escalationSpec slaS checkpointId
          expectedVersion)
        nofun _ rfl _ versionOf_ok _ rfl _ _ _
  | approve taskId actor checkpointId expectedVersion decision comment =>
      exact @recordThenUpdate_ends env tables
        (.approve taskId actor checkpointId expectedVersion decision comment)
        nofun _ rfl _ versionOf_ok _ rfl _ _ _
  | deny taskId actor checkpointId expectedVersion decision comment =>
      exact @recordThenUpdate_ends env tables
        (.deny taskId actor checkpointId expectedVersion decision comment)
        nofun _ rfl _ versionOf_ok _ rfl _ _ _
  | abandon taskId actor expectedVersion reason =>
      exact @recordThenUpdate_ends env tables
        (.abandon taskId actor expectedVersion reason)
        nofun _ rfl _ versionOf_ok _ rfl _ _ _
  | contest taskId actor claims expectedVersion =>
      exact @recordThenUpdate_ends env tables
        (.contest taskId actor claims expectedVersion)
        nofun _ rfl _ versionOf_ok _ rfl _ _ _

end Cases

/-! ## What a conflict leaves -/

/-- Records, ledger and the answers of `is_transfer_effective` are as before. -/
structure NoTrace (before after : Tables) : Prop where
  records : ∀ runId taskId, after.getTask runId taskId = before.getTask runId taskId
  ledger : after.events = before.events
  effective : ∀ runId taskId,
    after.isTransferEffective runId taskId = before.isTransferEffective runId taskId

theorem NoTrace.refl (tables : Tables) : NoTrace tables tables :=
  ⟨fun _ _ => rfl, rfl, fun _ _ => rfl⟩

theorem not_noTrace_of_appended {before after : Tables} (h : Appended before after) :
    ¬ NoTrace before after := by
  obtain ⟨event, rfl⟩ := h
  intro htrace
  have hlength := congrArg List.length htrace.ledger
  simp [Write.apply] at hlength

/-- An operation leaves no trace when it ends with `VERSION_CONFLICT`, exactly when it
is a decline or a resolution, or expects the version that is stored. -/
theorem conflict_no_trace_iff (env : Call) (tables : Tables) (op : OwnershipOp) :
    ((op.perform env tables).1.error = some "VERSION_CONFLICT" →
        NoTrace tables (op.perform env tables).2) ↔
      op.comparesFirst = true ∨
        (tables.getTask env.runId op.taskId).version = op.expectedVersion := by
  have hends := perform_ends env tables op
  generalize op.perform env tables = outcome at hends
  cases hends with
  | conflict result after hop hversion hresult hafter =>
      refine iff_of_false (fun h => ?_) ?_
      · exact not_noTrace_of_appended hafter (h hresult.2)
      · rw [not_or, hop]
        exact ⟨nofun, hversion⟩
  | refused result hop hresult =>
      exact iff_of_true (fun _ => .refl tables) (Or.inl hop)
  | declined result after hop hresult hafter =>
      refine iff_of_true (fun h => ?_) (Or.inl ?_)
      · rw [hresult.2] at h
        cases h
      · obtain ⟨_, _, _, _, _, rfl⟩ := hop
        rfl
  | updated result appended hversion hresult happended =>
      refine iff_of_true (fun h => ?_) (Or.inr hversion)
      rw [hresult.2] at h
      cases h

def referenceCall (now : ℚ) : Call where
  runId := "run"
  now := now
  tokenUuid := "token"
  eventUuid := "event"
  reprFloat q := toString q

def offeredTables : Tables :=
  ((OwnershipOp.offer "task" "alice" "bob" 60 30 0 []).perform (referenceCall 0) .empty).2

def lateAccept : OwnershipOp := .accept "task" "bob" "token" 60 0

theorem refused_accept_is_effective :
    ¬ ((lateAccept.perform (referenceCall 1) offeredTables).1.error =
        some "VERSION_CONFLICT" →
      NoTrace offeredTables (lateAccept.perform (referenceCall 1) offeredTables).2) := by
  intro h
  have hflips : (lateAccept.perform (referenceCall 1) offeredTables).1.error =
        some "VERSION_CONFLICT" ∧
      offeredTables.isTransferEffective "run" "task" = false ∧
      (lateAccept.perform (referenceCall 1) offeredTables).2.isTransferEffective
        "run" "task" = true := by
    decide +kernel
  obtain ⟨hconflict, hbefore, hafter⟩ := hflips
  have hsame := (h hconflict).effective "run" "task"
  rw [hbefore, hafter] at hsame
  cases hsame

end Hydrogenuine.Ownership
