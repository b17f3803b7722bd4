import Hydrogenuine.Core.ReferenceHost
import Hydrogenuine.OperatorQueue.Runtime

/-!
# What a refused operation leaves behind

A decision changes the request of its item before its reason is read, before the
receipt is validated and before the queue is saved, so an operation that is refused
there leaves a changed queue, and `mark_executed` a receipt as well.  The refusals
that leave everything as it was are characterized on the arguments and on the state
before the call.
-/

namespace Hydrogenuine.OperatorQueue

open Support Hydrogenuine.Core

/-! ## Decisions as plans -/

/-- What a decision method does. -/
structure Plan where
  /-- The checks before `_transition`. -/
  check : Session → Except QueueError Unit
  change : Change
  /-- The reference that is set in the request after `_transition`. -/
  receiptRef : Option PyVal

namespace Plan

variable (env : QueueEnv) (plan : Plan) (draws : Draws)

def finish (r : ActionRequest) : ActionRequest :=
  { plan.change.apply draws r with
    executionReceiptRef := plan.receiptRef.getD r.executionReceiptRef }

def precheck (s : Session) : Except QueueError QueueItem := do
  plan.check s
  plan.change.check s

/-- The session when `_transition` has changed the request. -/
def changed (s : Session) (item : QueueItem) : Session :=
  s.setRequest item.request (plan.change.apply draws (s.requestOf item))

def receipt (s : Session) (item : QueueItem) (reason : String) : Receipt :=
  transitionReceipt env item (plan.change.apply draws (s.requestOf item))
    plan.change.decisionType plan.change.operatorRef reason
    (s.requestOf item).status.text plan.change.newStatus.text draws

def finished (s : Session) (item : QueueItem) (reason : String) : Session :=
  { s.setRequest item.request (plan.finish draws (s.requestOf item)) with
    receipts := s.receipts ++ [plan.receipt env draws s item reason] }

def decision (s : Session) (item : QueueItem) (reason : String) : Decision where
  decisionId := draws.receiptId
  queueItemId := item.queueItemId
  decisionType := plan.change.decisionType
  operatorRef := plan.change.operatorRef
  reason := reason
  createdAt := draws.receiptAt
  previousStatus := (s.requestOf item).status.text
  newStatus := plan.change.newStatus.text

def saved (decision : Decision) (t : Session) :
    EStateM.Result QueueError Session Returned :=
  match validatePayload env (t.queuePayload env) with
  | .error e => .error e t
  | .ok () =>
      .ok (.decision decision)
        { t with file := .json (.dict (t.queuePayload env)) }

def run (s : Session) : EStateM.Result QueueError Session Returned :=
  match plan.precheck s with
  | .error e => .error e s
  | .ok item =>
      match scrubText plan.change.reason with
      | .error e => .error (.python e) (plan.changed draws s item)
      | .ok reason =>
          match validatePayload env
            ((plan.receipt env draws s item reason).toPayload env) with
          | .error e => .error e (plan.changed draws s item)
          | .ok () =>
              saved env (plan.decision draws s item reason)
                (plan.finished env draws s item reason)

end Plan

def Plan.plain (change : Change) : Plan := ⟨fun _ => .ok (), change, none⟩

def Operation.plan? (env : QueueEnv) : Operation → Option Plan
  | .enqueue _ => none
  | .approveItem id operatorRef reason => some
      { check := fun s => checkApproval s id operatorRef
        change := ⟨id, .approved, .approveItem, operatorRef, reason, true⟩
        receiptRef := none }
  | .denyItem id operatorRef reason => some
      (.plain ⟨id, .denied, .denyItem, operatorRef, reason, false⟩)
  | .expireItem id reason => some
      (.plain ⟨id, .expired, .expireItem, .none, reason, false⟩)
  | .cancelItem id operatorRef reason => some
      (.plain ⟨id, .cancelled, .cancelItem, operatorRef, reason, false⟩)
  | .blockItem id reason => some
      (.plain ⟨id, .blocked, .blockItem, .none, reason, false⟩)
  | .markExecuted id ref dryRun => some
      { check := fun s => checkExecution s id dryRun
        change := ⟨id, .executed, .markExecuted, .none,
          .str ("marked_executed:" ++ env.host.str ref), false⟩
        receiptRef := some ref }
  | .markFailed id reason => some
      (.plain ⟨id, .failed, .markFailed, .none, reason, false⟩)

section Equations

variable {env : QueueEnv} {draws : Draws} {s : Session}

theorem requestOf_setRequest (s : Session) (item : QueueItem) (r : ActionRequest) :
    (s.setRequest item.request r).requestOf item = r :=
  Function.update_self _ _ _

theorem writeTransitionReceipt_eq
    (item : QueueItem) (type : DecisionType) (operatorRef : PyVal)
    (reason previous new : String) :
    writeTransitionReceipt env item type operatorRef reason previous new draws s =
      match validatePayload env
        ((transitionReceipt env item (s.requestOf item) type operatorRef reason
          previous new draws).toPayload env) with
      | .error e => .error e s
      | .ok () =>
          .ok (transitionReceipt env item (s.requestOf item) type operatorRef reason
              previous new draws)
            { s with
              receipts := s.receipts ++ [transitionReceipt env item (s.requestOf item)
                type operatorRef reason previous new draws] } := by
  unfold writeTransitionReceipt
  simp only [get_bind_apply, raising_bind_apply]
  cases validatePayload env ((transitionReceipt env item (s.requestOf item) type
    operatorRef reason previous new draws).toPayload env) with
  | error e => rfl
  | ok _ => rfl

theorem transition_eq (change : Change) :
    transition env change draws s =
      match change.check s with
      | .error e => .error e s
      | .ok item =>
          match scrubText change.reason with
          | .error e => .error (.python e) ((Plan.plain change).changed draws s item)
          | .ok reason =>
              match validatePayload env
                (((Plan.plain change).receipt env draws s item reason).toPayload
                  env) with
              | .error e => .error e ((Plan.plain change).changed draws s item)
              | .ok () =>
                  .ok (item, (Plan.plain change).decision draws s item reason)
                    { (Plan.plain change).changed draws s item with
                      receipts := s.receipts ++
                        [(Plan.plain change).receipt env draws s item reason] } := by
  unfold transition
  simp only [get_bind_apply, raising_bind_apply]
  cases change.check s with
  | error e => rfl
  | ok item =>
      simp only [set_bind_apply, raising_bind_apply]
      cases scrubText change.reason with
      | error e => rfl
      | ok reason =>
          simp only [Except.mapError, bind_apply, writeTransitionReceipt_eq,
            requestOf_setRequest]
          unfold Plan.receipt Plan.plain
          simp only
          cases validatePayload env ((transitionReceipt env item
            (change.apply draws (s.requestOf item)) change.decisionType
            change.operatorRef reason (s.requestOf item).status.text
            change.newStatus.text draws).toPayload env) with
          | error e => rfl
          | ok _ => rfl

theorem save_eq :
    save env s =
      match validatePayload env (s.queuePayload env) with
      | .error e => .error e s
      | .ok () => .ok ⟨⟩ { s with file := .json (.dict (s.queuePayload env)) } := by
  unfold save
  simp only [get_bind_apply, raising_bind_apply]
  cases validatePayload env (s.queuePayload env) with
  | error e => rfl
  | ok _ => rfl

theorem saving_eq (decide : QueueM (QueueItem × Decision)) :
    (Returned.decision <$> saving env decide) s =
      match decide s with
      | .error e t => .error e t
      | .ok (_, decision) t => Plan.saved env decision t := by
  unfold saving
  simp only [map_eq_pure_bind, bind_apply]
  cases decide s with
  | error e t => rfl
  | ok decided t =>
      simp only [save_eq, Plan.saved]
      cases validatePayload env (t.queuePayload env) with
      | error e => rfl
      | ok _ => rfl

variable (env draws s) in
theorem run_plain (change : Change) :
    (Returned.decision <$> saving env (transition env change draws)) s =
      (Plan.plain change).run env draws s := by
  have hprecheck : (Plan.plain change).precheck s = change.check s := rfl
  rw [saving_eq, transition_eq, Plan.run, hprecheck]
  cases change.check s with
  | error e => rfl
  | ok item =>
      have hreason : (Plan.plain change).change.reason = change.reason := rfl
      rw [hreason]
      simp only
      cases scrubText change.reason with
      | error e => rfl
      | ok reason =>
          simp only
          cases validatePayload env (((Plan.plain change).receipt env draws s item
            reason).toPayload env) with
          | error e => rfl
          | ok _ => rfl

theorem Plan.precheck_eq (plan : Plan) :
    plan.precheck s =
      match plan.check s with
      | .error e => .error e
      | .ok () => plan.change.check s := by
  unfold Plan.precheck
  cases plan.check s with
  | error e => rfl
  | ok _ => rfl

theorem run_approveItem (id : String) (operatorRef reason : PyVal) :
    (Returned.decision <$> saving env
        (approveItem env id operatorRef reason draws)) s =
      Plan.run env
        { check := fun s => checkApproval s id operatorRef
          change := ⟨id, .approved, .approveItem, operatorRef, reason, true⟩
          receiptRef := none } draws s := by
  have hplain := run_plain env draws s
    ⟨id, .approved, .approveItem, operatorRef, reason, true⟩
  rw [saving_eq] at hplain ⊢
  unfold approveItem
  rw [get_bind_apply, raising_bind_apply, Plan.run, Plan.precheck_eq]
  simp only
  cases checkApproval s id operatorRef with
  | error e => rfl
  | ok _ => exact hplain

variable (env draws s) in
theorem Plan.finished_eq (plan : Plan) (item : QueueItem) (reason : String) :
    Session.setRequest
        { plan.changed draws s item with
          receipts := s.receipts ++ [plan.receipt env draws s item reason] }
        item.request (plan.finish draws (s.requestOf item)) =
      plan.finished env draws s item reason := by
  unfold Plan.changed Plan.finished Session.setRequest
  simp only [Function.update_idem]

theorem run_markExecuted (id : String) (ref : PyVal) (dryRun : Bool) :
    (Returned.decision <$> saving env (markExecuted env id draws ref dryRun)) s =
      Plan.run env
        { check := fun s => checkExecution s id dryRun
          change := ⟨id, .executed, .markExecuted, .none,
            .str ("marked_executed:" ++ env.host.str ref), false⟩
          receiptRef := some ref } draws s := by
  rw [saving_eq]
  unfold markExecuted
  rw [get_bind_apply, raising_bind_apply]
  generalize hplan : Plan.mk (fun s => checkExecution s id dryRun)
    ⟨id, .executed, .markExecuted, .none,
      .str ("marked_executed:" ++ env.host.str ref), false⟩
    (some ref) = plan
  have hfinish (r : ActionRequest) : plan.finish draws r =
      { plan.change.apply draws r with executionReceiptRef := ref } := by
    rw [← hplan]
    rfl
  have hcheck : checkExecution s id dryRun = plan.check s := by
    rw [← hplan]
  have hchange : Change.mk id .executed .markExecuted .none
      (.str ("marked_executed:" ++ env.host.str ref)) false = plan.change := by
    rw [← hplan]
  rw [hchange, hcheck, Plan.run, Plan.precheck_eq]
  cases plan.check s with
  | error e => rfl
  | ok _ =>
      simp only [bind_apply, transition_eq]
      cases plan.change.check s with
      | error e => rfl
      | ok item =>
          simp only
          cases scrubText plan.change.reason with
          | error e => rfl
          | ok reason =>
              have hreceipt : (Plan.plain plan.change).receipt env draws s item reason =
                  plan.receipt env draws s item reason := rfl
              have hchanged : (Plan.plain plan.change).changed draws s item =
                  plan.changed draws s item := rfl
              have hfinished := plan.finished_eq env draws s item reason
              simp only [hreceipt, hchanged]
              cases validatePayload env
                ((plan.receipt env draws s item reason).toPayload env) with
              | error e => rfl
              | ok _ =>
                  have hrequest : Session.requestOf
                      { plan.changed draws s item with
                        receipts := s.receipts ++
                          [plan.receipt env draws s item reason] } item =
                      plan.change.apply draws (s.requestOf item) :=
                    requestOf_setRequest s item _
                  rw [hfinish, ← hrequest] at hfinished
                  exact congrArg (Plan.saved env _) hfinished

theorem Operation.run_of_plan
    {op : Operation} {plan : Plan} (hplan : op.plan? env = some plan) :
    op.run env draws s = plan.run env draws s := by
  cases op with
  | enqueue ref => cases hplan
  | approveItem id operatorRef reason =>
      obtain rfl := Option.some.inj hplan
      exact run_approveItem id operatorRef reason
  | markExecuted id ref dryRun =>
      obtain rfl := Option.some.inj hplan
      exact run_markExecuted id ref dryRun
  | denyItem id operatorRef reason =>
      obtain rfl := Option.some.inj hplan
      exact run_plain env draws s _
  | expireItem id reason =>
      obtain rfl := Option.some.inj hplan
      exact run_plain env draws s _
  | cancelItem id operatorRef reason =>
      obtain rfl := Option.some.inj hplan
      exact run_plain env draws s _
  | blockItem id reason =>
      obtain rfl := Option.some.inj hplan
      exact run_plain env draws s _
  | markFailed id reason =>
      obtain rfl := Option.some.inj hplan
      exact run_plain env draws s _

def enqueuedItem (draws : Draws) (ref : ℕ) : QueueItem :=
  ⟨draws.queueItemId, ref, .none⟩

def enqueueReceipt (env : QueueEnv) (draws : Draws) (s : Session) (ref : ℕ) :
    Receipt :=
  transitionReceipt env (enqueuedItem draws ref) (s.requests ref).normalized
    .enqueueItem .none "enqueued" "" (s.requests ref).normalized.status.text draws

def enqueuedSession (env : QueueEnv) (draws : Draws) (s : Session) (ref : ℕ) :
    Session :=
  { s.setRequest ref (s.requests ref).normalized with
    items := s.items ++ [enqueuedItem draws ref]
    receipts := s.receipts ++ [enqueueReceipt env draws s ref] }

theorem enqueue_eq (ref : ℕ) :
    enqueue env ref draws s =
      match refuseForbidden env ""
        ((enqueuedItem draws ref).toPayload env.host (s.requests ref).normalized) with
      | .error e => .error e (s.setRequest ref (s.requests ref).normalized)
      | .ok () =>
          match validatePayload env ((enqueueReceipt env draws s ref).toPayload
            env) with
          | .error e => .error e
              { s.setRequest ref (s.requests ref).normalized with
                items := s.items ++ [enqueuedItem draws ref] }
          | .ok () =>
              match save env (enqueuedSession env draws s ref) with
              | .error e t => .error e t
              | .ok _ t => .ok (enqueuedItem draws ref) t := by
  have hrequest := requestOf_setRequest s (enqueuedItem draws ref)
    (s.requests ref).normalized
  unfold enqueue
  rw [modify_bind_apply, get_bind_apply]
  simp only
  have hitem : QueueItem.mk draws.queueItemId ref .none = enqueuedItem draws ref :=
    rfl
  have hreceipt : transitionReceipt env (enqueuedItem draws ref)
      (s.requests ref).normalized .enqueueItem .none "enqueued" ""
      (s.requests ref).normalized.status.text draws = enqueueReceipt env draws s ref :=
    rfl
  have happended : Session.requestOf
      { s.setRequest ref (s.requests ref).normalized with
        items := s.items ++ [enqueuedItem draws ref] } (enqueuedItem draws ref) =
      (s.requests ref).normalized := hrequest
  have hsetRequest : s.setRequest (enqueuedItem draws ref).request
      (s.requests ref).normalized = s.setRequest ref (s.requests ref).normalized := rfl
  rw [hsetRequest] at hrequest
  rw [raising_bind_apply, hitem, hrequest]
  cases refuseForbidden env ""
      ((enqueuedItem draws ref).toPayload env.host (s.requests ref).normalized) with
  | error e => rfl
  | ok _ =>
      simp only
      rw [set_bind_apply, bind_apply, writeTransitionReceipt_eq]
      simp only [Session.setRequest_items]
      rw [happended, hreceipt]
      cases validatePayload env ((enqueueReceipt env draws s ref).toPayload env) with
      | error e => rfl
      | ok _ =>
          change (save env >>= fun _ => pure (enqueuedItem draws ref))
            (enqueuedSession env draws s ref) = _
          rw [bind_apply]
          cases save env (enqueuedSession env draws s ref) with
          | error e t => rfl
          | ok _ t => rfl

end Equations

/-! ## What the validations look at -/

section Validations

variable {env : QueueEnv} {draws : Draws} {s : Session}

theorem refuseForbidden_eq_ok_iff {opening : String} {payload : Items} :
    refuseForbidden env opening payload = .ok () ↔ Clean (.dict payload) := by
  unfold refuseForbidden Clean
  cases scanForbidden "" (.dict payload) with
  | nil => simp
  | cons path paths => simp

theorem refuseForbidden_cases (opening : String) (payload : Items) :
    Clean (.dict payload) ∧ refuseForbidden env opening payload = .ok () ∨
      ¬ Clean (.dict payload) ∧
        ∃ e, refuseForbidden env opening payload = .error e := by
  cases hvalid : refuseForbidden env opening payload with
  | ok _ => exact .inl ⟨refuseForbidden_eq_ok_iff.mp hvalid, rfl⟩
  | error e =>
      refine .inr ⟨fun hclean => ?_, e, rfl⟩
      rw [refuseForbidden_eq_ok_iff.mpr hclean] at hvalid
      cases hvalid

theorem validatePayload_cases (payload : Items) :
    Clean (.dict payload) ∧ validatePayload env payload = .ok () ∨
      ¬ Clean (.dict payload) ∧ ∃ e, validatePayload env payload = .error e :=
  refuseForbidden_cases _ payload

/-- The scan finds nothing in a receipt exactly when it finds nothing in what the
caller and the item put there. -/
theorem Receipt.clean_iff (receipt : Receipt) :
    Clean (.dict (receipt.toPayload env)) ↔
      Clean receipt.actionId ∧ Clean receipt.operatorRef := by
  have hkeys : ∀ k ∈ ["schema", "version", "receipt_id", "queue_item_id",
      "action_id", "action_type", "decision_type", "operator_ref", "reason",
      "created_at", "previous_status", "new_status", "queue_hash_at_transition",
      "previous_receipt_ref"] ++ frozen.map Prod.fst ++ ["receipt_hash"],
      k ∈ writtenKeys := by
    decide
  have hfrozen : ∀ entry ∈ frozen, Clean entry.2 := by simp [frozen]
  unfold Receipt.toPayload
  rw [clean_dict_of_written
    (fun entry hentry => hkeys entry.1 (List.mem_map_of_mem hentry))]
  simp only [List.forall_mem_append, List.forall_mem_cons, clean_str, clean_none,
    true_and, List.not_mem_nil, false_imp_iff, implies_true, and_true]
  rw [and_iff_left hfrozen]

theorem Session.clean_queuePayload_iff :
    Clean (.dict (s.queuePayload env)) ↔
      ∀ item ∈ s.items, (s.requestOf item).AllClean ∧ Clean item.previousItemRef := by
  have hkeys : ∀ k ∈ ["schema", "version", "store_root", "items"] ++
      frozen.map Prod.fst, k ∈ writtenKeys := by
    decide
  have hfrozen : ∀ entry ∈ frozen, Clean entry.2 := by simp [frozen]
  unfold Session.queuePayload
  rw [clean_dict_of_written
    (fun entry hentry => hkeys entry.1 (List.mem_map_of_mem hentry))]
  simp only [List.forall_mem_append, List.forall_mem_cons, clean_str, true_and,
    List.not_mem_nil, false_imp_iff, implies_true, and_true, clean_list_iff,
    List.forall_mem_map, QueueItem.clean_iff]
  rw [and_iff_left hfrozen]

end Validations

/-! ## Refusals that leave no trace -/

/-- The items and their requests, the stored file and the receipts are the same. -/
structure Same (s t : Session) : Prop where
  items : t.items = s.items
  requests : ∀ item ∈ s.items, t.requestOf item = s.requestOf item
  file : t.file = s.file
  receipts : t.receipts = s.receipts

theorem Same.refl (s : Session) : Same s s := ⟨rfl, fun _ _ => rfl, rfl, rfl⟩

namespace Plan

def kept (plan : Plan) (r : ActionRequest) : ActionRequest :=
  { r with
    operatorDecisionRef :=
      if plan.change.recordsOperator then none else r.operatorDecisionRef
    executionReceiptRef :=
      if plan.receiptRef.isSome then .none else r.executionReceiptRef }

/-- Nothing that is looked at after the first change refuses the plan. -/
structure Acceptable (plan : Plan) (s : Session) (item : QueueItem) : Prop where
  reason : ∃ text, plan.change.reason = .str text
  operatorRef : Clean plan.change.operatorRef
  receiptRef : ∀ ref, plan.receiptRef = some ref → Clean ref
  items : ∀ other ∈ s.items, Clean other.previousItemRef ∧
    (if other.request = item.request then plan.kept (s.requestOf other)
      else s.requestOf other).AllClean

section Outcomes

variable {env : QueueEnv} {draws : Draws} {s t : Session} {plan : Plan}
  {item : QueueItem}

theorem precheck_cases (h : plan.precheck s = .ok item) :
    item ∈ s.items ∧ item.queueItemId = plan.change.queueItemId ∧
      mayTransition (s.requestOf item).status plan.change.newStatus = true := by
  rw [precheck_eq] at h
  cases hcheck : plan.check s with
  | error e =>
      rw [hcheck] at h
      cases h
  | ok _ =>
      rw [hcheck] at h
      simp only [Change.check, Session.findItem] at h
      cases hfind : s.items.find? fun item =>
          item.queueItemId == plan.change.queueItemId with
      | none =>
          rw [hfind] at h
          cases h
      | some found =>
          rw [hfind] at h
          simp only [bind, Except.bind] at h
          split at h
          · cases h
          · split at h
            · cases h
            · rename_i hmay
              obtain rfl := Except.ok.inj h
              have hid := List.find?_some hfind
              refine ⟨List.mem_of_find?_eq_some hfind, by simpa using hid, ?_⟩
              simpa using hmay

theorem status_ne_of_mayTransition
    {current new : ActionStatus} (h : mayTransition current new = true) :
    new ≠ current := by
  rintro rfl
  simp [mayTransition] at h

theorem requestOf_finished (other : QueueItem) (reason : String) :
    (plan.finished env draws s item reason).requestOf other =
      if other.request = item.request then plan.finish draws (s.requestOf other)
      else s.requestOf other := by
  unfold finished Session.requestOf Session.setRequest
  simp only
  split_ifs with h
  · rw [h, Function.update_self]
  · rw [Function.update_of_ne h]

theorem allClean_finish_iff (r : ActionRequest) :
    (plan.finish draws r).AllClean ↔
      (plan.kept r).AllClean ∧
        (plan.change.recordsOperator = true → Clean plan.change.operatorRef) ∧
          ∀ ref, plan.receiptRef = some ref → Clean ref := by
  have hreceipt : Clean (plan.finish draws r).executionReceiptRef ↔
      Clean (plan.kept r).executionReceiptRef ∧
        ∀ ref, plan.receiptRef = some ref → Clean ref := by
    unfold finish kept
    cases plan.receiptRef with
    | none => simp
    | some ref => simp
  have hdecision : (∀ ref, (plan.finish draws r).operatorDecisionRef = some ref →
        Clean ref.toPayload) ↔
      (∀ ref, (plan.kept r).operatorDecisionRef = some ref → Clean ref.toPayload) ∧
        (plan.change.recordsOperator = true → Clean plan.change.operatorRef) := by
    unfold finish kept Change.apply
    cases plan.change.recordsOperator with
    | false => simp
    | true => simp [DecisionRef.clean_iff]
  constructor
  · intro h
    obtain ⟨hkept, href⟩ := hreceipt.mp h.receipt
    obtain ⟨hother, hoperator⟩ := hdecision.mp h.decision
    exact ⟨⟨h.actionId, h.sourceAgent, hother, hkept, h.details⟩, hoperator, href⟩
  · rintro ⟨h, hoperator, href⟩
    exact ⟨h.actionId, h.sourceAgent, hdecision.mpr ⟨h.decision, hoperator⟩,
      hreceipt.mpr ⟨h.receipt, href⟩, h.details⟩

variable (env draws) in
theorem acceptable_iff (hcheck : plan.precheck s = .ok item) (reason : String) :
    plan.Acceptable s item ↔
      (∃ text, plan.change.reason = .str text) ∧
        Clean (.dict ((plan.receipt env draws s item reason).toPayload env)) ∧
          Clean (.dict ((plan.finished env draws s item reason).queuePayload env)) := by
  obtain ⟨hitem, -, -⟩ := precheck_cases hcheck
  rw [Receipt.clean_iff, Session.clean_queuePayload_iff]
  constructor
  · intro h
    refine ⟨h.reason, ⟨?_, h.operatorRef⟩, ?_⟩
    · have hkept := (h.items item hitem).2
      rw [if_pos rfl] at hkept
      exact hkept.actionId
    · intro other hother
      obtain ⟨hlink, hclean⟩ := h.items other hother
      refine ⟨?_, hlink⟩
      rw [requestOf_finished]
      split_ifs with hsame
      · rw [if_pos hsame] at hclean
        exact (allClean_finish_iff _).mpr ⟨hclean, fun _ => h.operatorRef, h.receiptRef⟩
      · rwa [if_neg hsame] at hclean
  · rintro ⟨hreason, ⟨-, hoperator⟩, hitems⟩
    have hfinish := (hitems item hitem).1
    rw [requestOf_finished, if_pos rfl] at hfinish
    refine ⟨hreason, hoperator, ((allClean_finish_iff _).mp hfinish).2.2, ?_⟩
    intro other hother
    obtain ⟨hclean, hlink⟩ := hitems other hother
    refine ⟨hlink, ?_⟩
    rw [requestOf_finished] at hclean
    split_ifs at hclean ⊢ with hsame
    · exact ((allClean_finish_iff _).mp hclean).1
    · exact hclean

theorem scrubText_cases (v : PyVal) :
    (∃ text out, v = .str text ∧ scrubText v = .ok out) ∨
      (¬ ∃ text, v = .str text) ∧ ∃ e, scrubText v = .error e := by
  cases v with
  | str text => exact .inl ⟨text, _, rfl, rfl⟩
  | _ => exact .inr ⟨by simp, _, rfl⟩

variable (env draws) in
/-- A plan whose checks pass is carried out if it is acceptable, and otherwise is
refused when the request has changed already. -/
theorem run_cases (hcheck : plan.precheck s = .ok item) :
    plan.Acceptable s item ∧ (∃ reason,
        plan.run env draws s = .ok (.decision (plan.decision draws s item reason))
          { plan.finished env draws s item reason with
            file := .json (.dict
              ((plan.finished env draws s item reason).queuePayload env)) }) ∨
      ¬ plan.Acceptable s item ∧ ∃ e t, plan.run env draws s = .error e t ∧
        (t.requestOf item).status = plan.change.newStatus := by
  have hchanged : ((plan.changed draws s item).requestOf item).status =
      plan.change.newStatus := by
    rw [changed, requestOf_setRequest]
    rfl
  unfold run
  rw [hcheck]
  simp only
  rcases scrubText_cases plan.change.reason with
    ⟨text, reason, hreason, hscrub⟩ | ⟨hreason, e, hscrub⟩
  · rw [hscrub]
    simp only
    have hiff := acceptable_iff env draws hcheck reason
    rcases validatePayload_cases ((plan.receipt env draws s item reason).toPayload
      env) with ⟨hclean, hvalid⟩ | ⟨hclean, e, hvalid⟩
    · rw [hvalid]
      simp only [saved]
      rcases validatePayload_cases ((plan.finished env draws s item
        reason).queuePayload env) with ⟨hqueue, hvalid⟩ | ⟨hqueue, e, hvalid⟩
      · rw [hvalid]
        exact .inl ⟨hiff.mpr ⟨⟨text, hreason⟩, hclean, hqueue⟩, reason, rfl⟩
      · rw [hvalid]
        refine .inr ⟨fun h => hqueue (hiff.mp h).2.2, e, _, rfl, ?_⟩
        rw [requestOf_finished, if_pos rfl]
        rfl
    · rw [hvalid]
      exact .inr ⟨fun h => hclean (hiff.mp h).2.1, e, _, rfl, hchanged⟩
  · rw [hscrub]
    exact .inr ⟨fun h => hreason h.reason, _, _, rfl, hchanged⟩

/-- A refused plan leaves no trace exactly when a check before the first change
refuses it, or nothing afterwards would. -/
theorem refused_same_iff :
    (∀ e t, plan.run env draws s = .error e t → Same s t) ↔
      (∃ e, plan.precheck s = .error e) ∨
        ∃ item, plan.precheck s = .ok item ∧ plan.Acceptable s item := by
  cases hcheck : plan.precheck s with
  | error e =>
      refine iff_of_true ?_ (.inl ⟨e, rfl⟩)
      intro e' t h
      unfold run at h
      rw [hcheck] at h
      obtain ⟨rfl, rfl⟩ := EStateM.Result.error.inj h
      exact Same.refl s
  | ok item =>
      obtain ⟨hitem, -, hmay⟩ := precheck_cases hcheck
      rcases run_cases env draws hcheck with
        ⟨haccept, reason, hrun⟩ | ⟨hreject, e, t, hrun, hstatus⟩
      · refine iff_of_true ?_ (.inr ⟨item, rfl, haccept⟩)
        intro e t h
        rw [hrun] at h
        cases h
      · refine iff_of_false ?_ ?_
        · intro hsame
          have hrequest := (hsame e t hrun).requests item hitem
          rw [hrequest] at hstatus
          exact status_ne_of_mayTransition hmay hstatus.symm
        · rintro (⟨e, he⟩ | ⟨item', hitem', haccept⟩)
          · cases he
          · obtain rfl := Except.ok.inj hitem'
            exact hreject haccept

end Outcomes

end Plan

section Enqueue

variable {env : QueueEnv} {draws : Draws} {s : Session} {ref : ℕ}

theorem allClean_normalized_iff (r : ActionRequest) :
    r.normalized.AllClean ↔ r.AllClean :=
  ⟨fun h => ⟨h.actionId, h.sourceAgent, h.decision, h.receipt, h.details⟩,
    fun h => ⟨h.actionId, h.sourceAgent, h.decision, h.receipt, h.details⟩⟩

theorem requestOf_enqueuedSession (other : QueueItem) :
    (enqueuedSession env draws s ref).requestOf other =
      if other.request = ref then (s.requests ref).normalized
      else s.requestOf other := by
  unfold enqueuedSession Session.requestOf Session.setRequest
  simp only
  split_ifs with h
  · rw [h, Function.update_self]
  · rw [Function.update_of_ne h]

variable (env draws) in
theorem clean_enqueuedSession_iff (hclean : (s.requests ref).AllClean) :
    Clean (.dict ((enqueuedSession env draws s ref).queuePayload env)) ↔
      ∀ item ∈ s.items, (s.requestOf item).AllClean ∧ Clean item.previousItemRef := by
  have hnew := (allClean_normalized_iff _).mpr hclean
  have hitems : (enqueuedSession env draws s ref).items =
      s.items ++ [enqueuedItem draws ref] := rfl
  have hlast : (enqueuedItem draws ref).request = ref := rfl
  rw [Session.clean_queuePayload_iff, hitems, List.forall_mem_append,
    List.forall_mem_singleton, requestOf_enqueuedSession, if_pos hlast]
  rw [and_iff_left ⟨hnew, clean_none⟩]
  refine forall₂_congr fun item hitem => and_congr_left fun _ => ?_
  rw [requestOf_enqueuedSession]
  split_ifs with hsame
  · rw [Session.requestOf, hsame]
    exact allClean_normalized_iff _
  · rfl

variable (env draws s ref) in
/-- How an enqueue ends: refused by the validation of the item, refused when the
queue is saved, or carried out. -/
theorem run_enqueue_cases :
    ¬ (s.requests ref).AllClean ∧
        (∃ e, (Operation.enqueue ref).run env draws s =
          .error e (s.setRequest ref (s.requests ref).normalized)) ∨
      (s.requests ref).AllClean ∧
        ((∀ item ∈ s.items, (s.requestOf item).AllClean ∧
              Clean item.previousItemRef) ∧
            (Operation.enqueue ref).run env draws s =
              .ok (.item (enqueuedItem draws ref))
                { enqueuedSession env draws s ref with
                  file := .json (.dict
                    ((enqueuedSession env draws s ref).queuePayload env)) } ∨
          (¬ ∀ item ∈ s.items, (s.requestOf item).AllClean ∧
              Clean item.previousItemRef) ∧
            ∃ e, (Operation.enqueue ref).run env draws s =
              .error e (enqueuedSession env draws s ref)) := by
  have hrun : (Operation.enqueue ref).run env draws s =
      match enqueue env ref draws s with
      | .ok item t => .ok (.item item) t
      | .error e t => .error e t := by
    change (Returned.item <$> enqueue env ref draws) s = _
    rw [map_eq_pure_bind, bind_apply]
    cases enqueue env ref draws s with
    | ok item t => rfl
    | error e t => rfl
  have hitem : Clean (.dict ((enqueuedItem draws ref).toPayload env.host
      (s.requests ref).normalized)) ↔ (s.requests ref).AllClean := by
    rw [QueueItem.clean_iff, allClean_normalized_iff]
    exact and_iff_left clean_none
  have hreceipt : Clean (.dict ((enqueueReceipt env draws s ref).toPayload env)) ↔
      Clean (s.requests ref).actionId := by
    rw [Receipt.clean_iff]
    exact and_iff_left clean_none
  rw [hrun, enqueue_eq]
  rcases refuseForbidden_cases "" ((enqueuedItem draws ref).toPayload env.host
    (s.requests ref).normalized) with ⟨hclean, hvalid⟩ | ⟨hclean, e, hvalid⟩
  · rw [hitem] at hclean
    refine .inr ⟨hclean, ?_⟩
    rw [hvalid]
    simp only
    have hvalid' : validatePayload env
        ((enqueueReceipt env draws s ref).toPayload env) = .ok () :=
      refuseForbidden_eq_ok_iff.mpr (hreceipt.mpr hclean.actionId)
    rw [hvalid', save_eq]
    simp only
    rw [← clean_enqueuedSession_iff env draws hclean]
    rcases validatePayload_cases ((enqueuedSession env draws s ref).queuePayload
      env) with ⟨hqueue, hsave⟩ | ⟨hqueue, e, hsave⟩
    · rw [hsave]
      exact .inl ⟨hqueue, rfl⟩
    · rw [hsave]
      exact .inr ⟨hqueue, e, rfl⟩
  · rw [hitem] at hclean
    refine .inl ⟨hclean, e, ?_⟩
    rw [hvalid]

variable (env draws) in
theorem run_enqueue_of_clean
    (hown : (s.requests ref).AllClean)
    (hitems : ∀ item ∈ s.items, (s.requestOf item).AllClean ∧
      Clean item.previousItemRef) :
    (Operation.enqueue ref).run env draws s =
      .ok (.item (enqueuedItem draws ref))
        { enqueuedSession env draws s ref with
          file := .json (.dict
            ((enqueuedSession env draws s ref).queuePayload env)) } := by
  rcases run_enqueue_cases env draws s ref with
    ⟨hnot, -⟩ | ⟨-, ⟨-, hrun⟩ | ⟨hnot, -⟩⟩
  · exact absurd hown hnot
  · exact hrun
  · exact absurd hitems hnot

end Enqueue

/-! ## All operations -/

/-- A refusal of the operation would leave no trace.  A decision is either refused by
a check before its first change, or by nothing after it.  An enqueue is either refused
when it leaves the requests of the queue as they are, or by nothing. -/
def Operation.LeavesNoTrace (env : QueueEnv) (s : Session) : Operation → Prop
  | .enqueue ref =>
      ((s.requests ref).AllClean → ∀ item ∈ s.items,
          (s.requestOf item).AllClean ∧ Clean item.previousItemRef) ∧
        (¬ (s.requests ref).AllClean → ∀ item ∈ s.items, item.request = ref →
          (s.requests ref).normalized = s.requests ref)
  | op => ∃ plan, op.plan? env = some plan ∧
      ((∃ e, plan.precheck s = .error e) ∨
        ∃ item, plan.precheck s = .ok item ∧ plan.Acceptable s item)

section Theorem

variable {env : QueueEnv} {draws : Draws} {s : Session}

theorem enqueue_refused_same_iff (ref : ℕ) :
    (∀ e t, (Operation.enqueue ref).run env draws s = .error e t → Same s t) ↔
      (Operation.enqueue ref).LeavesNoTrace env s := by
  rcases run_enqueue_cases env draws s ref with
    ⟨hclean, e, hrun⟩ | ⟨hclean, ⟨hitems, hrun⟩ | ⟨hitems, e, hrun⟩⟩
  · constructor
    · intro hsame
      refine ⟨fun h => absurd h hclean, fun _ item hitem href => ?_⟩
      have hrequest := (hsame e _ hrun).requests item hitem
      unfold Session.requestOf at hrequest
      rw [href] at hrequest
      exact (Function.update_self _ _ _).symm.trans hrequest
    · rintro ⟨-, hkept⟩ e' t h
      rw [hrun] at h
      obtain ⟨-, rfl⟩ := EStateM.Result.error.inj h
      refine ⟨rfl, fun item hitem => ?_, rfl, rfl⟩
      by_cases href : item.request = ref
      · have hnormalized := hkept hclean item hitem href
        unfold Session.requestOf
        rw [href, hnormalized]
        exact Function.update_self _ _ _
      · exact Function.update_of_ne href _ _
  · refine iff_of_true ?_ ⟨fun _ => hitems, fun h => absurd hclean h⟩
    intro e t h
    rw [hrun] at h
    cases h
  · refine iff_of_false ?_ fun h => hitems (h.1 hclean)
    intro hsame
    have hlength := congrArg List.length (hsame e _ hrun).items
    have happended : (enqueuedSession env draws s ref).items =
        s.items ++ [enqueuedItem draws ref] := rfl
    rw [happended, List.length_append, List.length_singleton] at hlength
    omega

theorem plan_refused_same_iff
    {op : Operation} {plan : Plan} (hplan : op.plan? env = some plan) :
    (∀ e t, op.run env draws s = .error e t → Same s t) ↔
      ∃ plan, op.plan? env = some plan ∧
        ((∃ e, plan.precheck s = .error e) ∨
          ∃ item, plan.precheck s = .ok item ∧ plan.Acceptable s item) := by
  simp only [Operation.run_of_plan hplan, Plan.refused_same_iff, hplan,
    Option.some.injEq, exists_eq_left']

/-- A refused operation changes nothing in the queue, in the stored file and in the
receipts exactly when its refusal leaves no trace. -/
theorem refused_operation_same_iff
    (env : QueueEnv) (draws : Draws) (s : Session) (op : Operation) :
    (∀ e t, op.run env draws s = .error e t → Same s t) ↔
      op.LeavesNoTrace env s := by
  cases op with
  | enqueue ref => exact enqueue_refused_same_iff ref
  | approveItem id operatorRef reason => exact plan_refused_same_iff rfl
  | denyItem id operatorRef reason => exact plan_refused_same_iff rfl
  | expireItem id reason => exact plan_refused_same_iff rfl
  | cancelItem id operatorRef reason => exact plan_refused_same_iff rfl
  | blockItem id reason => exact plan_refused_same_iff rfl
  | markExecuted id ref dryRun => exact plan_refused_same_iff rfl
  | markFailed id reason => exact plan_refused_same_iff rfl

end Theorem

def referenceQueue : QueueEnv := ⟨referenceHost, ".hg-local/operator_action_queue"⟩

def noteRequest : ActionRequest where
  actionId := .str "act-1"
  actionType := .operatorNote
  sourceAgent := .str "agent0"
  status := .queued
  humanSummary := "a note"
  sanitizedPreview := "a note"
  operatorDecisionRef := none
  executionReceiptRef := .none
  details := default

def drawsOf (queueItemId : String) : Draws :=
  ⟨queueItemId, "oqi-for-" ++ queueItemId, "2026-06-15T04:00:00+00:00",
    "oqr-for-" ++ queueItemId, "2026-06-15T04:00:00+00:00"⟩

theorem noteRequest_allClean : noteRequest.AllClean :=
  ⟨clean_str _, clean_str _, by simp [noteRequest], clean_none, List.forall_mem_nil _⟩

def denyNote : Operation := .denyItem "oqi-1" (.str "operator") (.str "no")

def noteQueued : Session where
  requests := fun _ => noteRequest
  next := 1
  items := [⟨"oqi-1", 0, .none⟩]
  stopPanic := {}
  file := .absent
  receipts := []

/-- A denial whose operator is given as a dictionary with a key `token`, as the body
of a request to the control interface may give it. -/
def denyWithToken : Operation :=
  .denyItem "oqi-1" (.dict [("token", .str "x")]) (.str "no")

/-- The receipt of the denial is refused, and the item is denied all the same. -/
theorem refused_deny_not_same :
    ¬ ∀ e t, denyWithToken.run referenceQueue (drawsOf "oqi-2") noteQueued =
      .error e t → Same noteQueued t := by
  intro hsame
  have hfound : Clean (.dict [("token", .str "x")]) → False := by
    decide +kernel
  have hplan : denyWithToken.plan? referenceQueue = some (.plain
      ⟨"oqi-1", .denied, .denyItem, .dict [("token", .str "x")], .str "no", false⟩) :=
    rfl
  rw [Operation.run_of_plan hplan] at hsame
  have hcheck : (Plan.plain ⟨"oqi-1", .denied, .denyItem,
      .dict [("token", .str "x")], .str "no", false⟩).precheck noteQueued =
      .ok ⟨"oqi-1", 0, .none⟩ := rfl
  rcases Plan.refused_same_iff.mp hsame with ⟨e, he⟩ | ⟨item, -, haccept⟩
  · rw [hcheck] at he
    cases he
  · exact hfound haccept.operatorRef

end Hydrogenuine.OperatorQueue
