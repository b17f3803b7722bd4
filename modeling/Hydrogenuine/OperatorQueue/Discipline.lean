import Hydrogenuine.OperatorQueue.Views
import Hydrogenuine.Support.Machine

/-!
# Approval before execution

Along the runs of one runtime in which no request object is enqueued that the queue
already holds, in which new identifiers are new, and in which the arguments of decisions
can be recorded, the receipts of every item replay to its status, statuses that are
terminal stay, and nothing is executed for real without an approval by an operator.
-/

namespace Hydrogenuine.OperatorQueue

open Support Hydrogenuine.Core

/-! ## Runs of one runtime -/

inductive QueueInput where
  /-- The caller makes a request object. -/
  | construct (request : ActionRequest)
  | call (op : Operation) (draws : Draws)
  | reload (control : Except PyError StopPanicState)

def queueMachine (env : QueueEnv) :
    Machine Session QueueInput (Option (Except QueueError Returned)) where
  step s
    | .construct request =>
        ({ s with
            requests := Function.update s.requests s.next request
            next := s.next + 1 }, none)
    | .call op draws =>
        if op.made s.next then
          (finalState (op.run env draws) s, some (outcome (op.run env draws) s))
        else (s, none)
    | .reload control => (finalState (reload env control) s, none)

variable {s : Session} {env : QueueEnv}

theorem queueMachine_call {op : Operation} (draws : Draws)
    (hmade : op.made s.next = true) :
    (queueMachine env).step s (.call op draws) =
      (finalState (op.run env draws) s, some (outcome (op.run env draws) s)) := by
  simp [queueMachine, hmade]

def Session.new (stopPanic : StopPanicState) : Session where
  requests := fun _ => default
  next := 0
  items := []
  stopPanic := stopPanic
  file := .absent
  receipts := []

/-! ## What holds along a run -/

def receiptsOf (receipts : List Receipt) (queueItemId : String) : List Receipt :=
  receipts.filter fun receipt => receipt.queueItemId == queueItemId

/-- Receipts that begin with an enqueue and lead to a status by transitions that are
allowed, each from the status that the one before it led to. -/
inductive Replays : List Receipt → ActionStatus → Prop
  | enqueued {receipt : Receipt} {status : ActionStatus}
      (htype : receipt.decisionType = .enqueueItem)
      (hprevious : receipt.previousStatus = "")
      (hnew : receipt.newStatus = status.text) : Replays [receipt] status
  | moved {receipts : List Receipt} {receipt : Receipt} {current new : ActionStatus}
      (hbefore : Replays receipts current) (hmay : mayTransition current new = true)
      (hprevious : receipt.previousStatus = current.text)
      (hnew : receipt.newStatus = new.text) : Replays (receipts ++ [receipt]) new

/-- An operator who is not the agent itself has approved the item. -/
def Approved (receipts : List Receipt) (queueItemId : String) : Prop :=
  ∃ receipt ∈ receiptsOf receipts queueItemId,
    receipt.decisionType = .approveItem ∧
      receipt.operatorRef.pyEq (.str "agent0") = false

/-- What holds of the items, the receipts and the stored file together. -/
structure Recorded
    (env : QueueEnv) (view : List ReadItem) (receipts : List Receipt)
    (file : StoredFile) : Prop where
  ids : (view.map ReadItem.queueItemId).Nodup
  clean : ∀ v ∈ view, v.request.AllClean ∧ Clean v.previousItemRef
  stored : file = .json (.dict (viewPayload env view)) ∨ file = .absent ∧ view = []
  replayed : ∀ v ∈ view, Replays (receiptsOf receipts v.queueItemId) v.request.status
  approved : ∀ v ∈ view, v.request.status = .approved →
    Approved receipts v.queueItemId
  issued : ∀ receipt ∈ receipts, ∃ v ∈ view, v.queueItemId = receipt.queueItemId

structure Disciplined (env : QueueEnv) (s : Session) : Prop where
  distinct : s.Distinct
  recorded : Recorded env s.view s.receipts s.file

/-- The arguments of a decision that are recorded can be recorded. -/
structure Plan.Recordable (plan : Plan) : Prop where
  reason : ∃ text, plan.change.reason = .str text
  operatorRef : Clean plan.change.operatorRef
  receiptRef : ∀ ref, plan.receiptRef = some ref → Clean ref

/-- An enqueue is of a request that the queue does not hold, under a new identifier, and
the arguments of a decision that passes its checks can be recorded. -/
def QueueInput.Regular (env : QueueEnv) (s : Session) : QueueInput → Prop
  | .call (.enqueue ref) draws =>
      (∀ item ∈ s.items, item.request ≠ ref) ∧
        ∀ item ∈ s.items, item.queueItemId ≠ draws.queueItemId
  | .call op _ => ∀ plan item, op.plan? env = some plan →
      plan.precheck s = .ok item → plan.Recordable
  | _ => True

/-! ## Decisions -/

section Decisions

variable {env : QueueEnv} {draws : Draws} {s : Session} {plan : Plan}
  {item : QueueItem} {op : Operation}

theorem findItem_of_precheck (h : plan.precheck s = .ok item) :
    s.findItem plan.change.queueItemId = .ok item := by
  rw [Plan.precheck_eq] at h
  cases hcheck : plan.check s with
  | error e =>
      rw [hcheck] at h
      cases h
  | ok _ =>
      rw [hcheck] at h
      simp only [Change.check] at h
      cases hfind : s.findItem plan.change.queueItemId with
      | error e =>
          rw [hfind] at h
          cases h
      | ok found =>
          rw [hfind] at h
          simp only [bind, Except.bind] at h
          split at h
          · cases h
          · split at h
            · cases h
            · exact congrArg _ (Except.ok.inj h)

theorem approving_cases
    (hplan : op.plan? env = some plan) (hcheck : plan.precheck s = .ok item)
    (hnew : plan.change.newStatus = .approved) :
    plan.change.decisionType = .approveItem ∧
      plan.change.operatorRef.pyEq (.str "agent0") = false := by
  cases op with
  | enqueue ref => cases hplan
  | approveItem id operatorRef reason =>
      obtain rfl := Option.some.inj hplan
      refine ⟨rfl, ?_⟩
      rw [Plan.precheck_eq] at hcheck
      simp only [checkApproval] at hcheck
      cases hagent : operatorRef.pyEq (.str "agent0") with
      | true =>
          rw [hagent] at hcheck
          cases hcheck
      | false => rfl
  | denyItem id operatorRef reason =>
      obtain rfl := Option.some.inj hplan
      cases hnew
  | expireItem id reason =>
      obtain rfl := Option.some.inj hplan
      cases hnew
  | cancelItem id operatorRef reason =>
      obtain rfl := Option.some.inj hplan
      cases hnew
  | blockItem id reason =>
      obtain rfl := Option.some.inj hplan
      cases hnew
  | markExecuted id ref dryRun =>
      obtain rfl := Option.some.inj hplan
      cases hnew
  | markFailed id reason =>
      obtain rfl := Option.some.inj hplan
      cases hnew

theorem executing_cases
    (hplan : op.plan? env = some plan) (hcheck : plan.precheck s = .ok item)
    (hnew : plan.change.newStatus = .executed) :
    ∃ ref dryRun, op = .markExecuted item.queueItemId ref dryRun ∧
      (dryRun = false → (s.requestOf item).status = .approved) := by
  have hid := (Plan.precheck_cases hcheck).2.1
  have hfind := findItem_of_precheck hcheck
  cases op with
  | enqueue ref => cases hplan
  | approveItem id operatorRef reason =>
      obtain rfl := Option.some.inj hplan
      cases hnew
  | denyItem id operatorRef reason =>
      obtain rfl := Option.some.inj hplan
      cases hnew
  | expireItem id reason =>
      obtain rfl := Option.some.inj hplan
      cases hnew
  | cancelItem id operatorRef reason =>
      obtain rfl := Option.some.inj hplan
      cases hnew
  | blockItem id reason =>
      obtain rfl := Option.some.inj hplan
      cases hnew
  | markFailed id reason =>
      obtain rfl := Option.some.inj hplan
      cases hnew
  | markExecuted id ref dryRun =>
      obtain rfl := Option.some.inj hplan
      refine ⟨ref, dryRun, by rw [hid], ?_⟩
      rintro rfl
      rw [Plan.precheck_eq] at hcheck
      simp only [checkExecution] at hcheck hfind
      rw [hfind] at hcheck
      simp only [bind, Except.bind] at hcheck
      apply status_of_itemMayMarkExecuted
      cases hmay : itemMayMarkExecuted (s.requestOf item) false with
      | mk may message =>
          cases may with
          | true => rfl
          | false =>
              rw [hmay] at hcheck
              cases hcheck

end Decisions

/-! ## Receipts -/

section Receipts

variable {receipts : List Receipt} {receipt : Receipt} {id : String}

theorem receiptsOf_append_own (h : receipt.queueItemId = id) :
    receiptsOf (receipts ++ [receipt]) id = receiptsOf receipts id ++ [receipt] := by
  simp [receiptsOf, h]

theorem receiptsOf_append_other (h : receipt.queueItemId ≠ id) :
    receiptsOf (receipts ++ [receipt]) id = receiptsOf receipts id := by
  simp [receiptsOf, h]

theorem Approved.append (h : Approved receipts id) (receipt : Receipt) :
    Approved (receipts ++ [receipt]) id := by
  obtain ⟨approval, hmem, happroval⟩ := h
  refine ⟨approval, ?_, happroval⟩
  unfold receiptsOf at hmem ⊢
  rw [List.filter_append]
  exact List.mem_append_left _ hmem

end Receipts

section Recorded

variable {env : QueueEnv} {s t : Session} {item : QueueItem} {r : ActionRequest}
  {receipt : Receipt}

theorem view_ids (s : Session) :
    s.view.map ReadItem.queueItemId = s.items.map QueueItem.queueItemId := by
  rw [Session.view, List.map_map]
  rfl

/-- An item that moves to a status that is allowed, with its receipt, keeps the
records. -/
theorem Recorded.move
    (h : Recorded env s.view s.receipts s.file) (hs : s.Distinct)
    (hitem : item ∈ s.items) (hitems : t.items = s.items)
    (hrequests : t.requests = Function.update s.requests item.request r)
    (hreceipt : receipt.queueItemId = item.queueItemId)
    (hmay : mayTransition (s.requestOf item).status r.status = true)
    (hprevious : receipt.previousStatus = (s.requestOf item).status.text)
    (hnew : receipt.newStatus = r.status.text) (hclean : r.AllClean)
    (happroves : r.status = .approved → receipt.decisionType = .approveItem ∧
      receipt.operatorRef.pyEq (.str "agent0") = false) :
    Recorded env t.view (s.receipts ++ [receipt])
      (.json (.dict (viewPayload env t.view))) := by
  have hview {v : ReadItem} := mem_view_setRequest hs hitem hitems hrequests (v := v)
  have hown : s.viewOf item ∈ s.view := List.mem_map_of_mem hitem
  have hids : (s.items.map QueueItem.queueItemId).Nodup := view_ids s ▸ h.ids
  have hotherId {other : QueueItem} (hmem : other ∈ s.items) (hne : other ≠ item) :
      receipt.queueItemId ≠ (s.viewOf other).queueItemId := by
    rw [hreceipt]
    exact fun hsame => hne (List.inj_on_of_nodup_map hids hmem hitem hsame.symm)
  have hothers {other : QueueItem} (hmem : other ∈ s.items) :
      s.viewOf other ∈ s.view := List.mem_map_of_mem hmem
  refine ⟨?_, ?_, .inl rfl, ?_, ?_, ?_⟩
  · rw [view_ids, hitems]
    exact hids
  · intro v hv
    rcases hview.mp hv with rfl | ⟨other, hmem, -, rfl⟩
    · exact ⟨hclean, (h.clean _ hown).2⟩
    · exact h.clean _ (hothers hmem)
  · intro v hv
    rcases hview.mp hv with rfl | ⟨other, hmem, hne, rfl⟩
    · rw [receiptsOf_append_own hreceipt]
      exact .moved (h.replayed _ hown) hmay hprevious hnew
    · rw [receiptsOf_append_other (hotherId hmem hne)]
      exact h.replayed _ (hothers hmem)
  · intro v hv hstatus
    rcases hview.mp hv with rfl | ⟨other, hmem, -, rfl⟩
    · refine ⟨receipt, ?_, happroves hstatus⟩
      rw [receiptsOf_append_own hreceipt]
      exact List.mem_append_right _ (List.mem_singleton_self receipt)
    · exact (h.approved _ (hothers hmem) hstatus).append receipt
  · have hissued (id : String) (hid : ∃ v ∈ s.view, v.queueItemId = id) :
        ∃ v ∈ t.view, v.queueItemId = id := by
      have hmem : id ∈ s.view.map ReadItem.queueItemId := List.mem_map.mpr hid
      rw [view_ids, ← hitems, ← view_ids] at hmem
      exact List.mem_map.mp hmem
    intro receipt' hmem
    rcases List.mem_append.mp hmem with hold | hlast
    · exact hissued _ (h.issued receipt' hold)
    · rw [List.mem_singleton.mp hlast, hreceipt]
      exact hissued _ ⟨_, hown, rfl⟩

theorem Recorded.enqueue
    {view : List ReadItem} {receipts : List Receipt} {file : StoredFile} {v : ReadItem}
    (h : Recorded env view receipts file)
    (hfresh : ∀ other ∈ view, other.queueItemId ≠ v.queueItemId)
    (hreceipt : receipt.queueItemId = v.queueItemId)
    (htype : receipt.decisionType = .enqueueItem)
    (hprevious : receipt.previousStatus = "")
    (hnew : receipt.newStatus = v.request.status.text)
    (hclean : v.request.AllClean ∧ Clean v.previousItemRef)
    (hstatus : v.request.status ≠ .approved) :
    Recorded env (view ++ [v]) (receipts ++ [receipt])
      (.json (.dict (viewPayload env (view ++ [v])))) := by
  have hnone : receiptsOf receipts v.queueItemId = [] := by
    unfold receiptsOf
    rw [List.filter_eq_nil_iff]
    intro receipt' hmem hsame
    obtain ⟨other, hother, hid⟩ := h.issued receipt' hmem
    exact hfresh other hother (hid.trans (eq_of_beq hsame))
  have hother {other : ReadItem} (hmem : other ∈ view) :
      receipt.queueItemId ≠ other.queueItemId := by
    rw [hreceipt]
    exact (hfresh other hmem).symm
  refine ⟨?_, ?_, .inl rfl, ?_, ?_, ?_⟩
  · rw [List.map_append, List.map_singleton, ← List.concat_eq_append,
      List.nodup_concat]
    refine ⟨?_, h.ids⟩
    intro hmem
    obtain ⟨other, hmem, hid⟩ := List.mem_map.mp hmem
    exact hfresh other hmem hid
  · rw [List.forall_mem_append, List.forall_mem_singleton]
    exact ⟨h.clean, hclean⟩
  · rw [List.forall_mem_append, List.forall_mem_singleton]
    constructor
    · intro other hmem
      rw [receiptsOf_append_other (hother hmem)]
      exact h.replayed other hmem
    · rw [receiptsOf_append_own hreceipt, hnone, List.nil_append]
      exact .enqueued htype hprevious hnew
  · rw [List.forall_mem_append, List.forall_mem_singleton]
    exact ⟨fun other hmem happroved =>
      (h.approved other hmem happroved).append receipt,
      fun happroved => absurd happroved hstatus⟩
  · rw [List.forall_mem_append, List.forall_mem_singleton]
    constructor
    · intro receipt' hmem
      obtain ⟨other, hother, hid⟩ := h.issued receipt' hmem
      exact ⟨other, List.mem_append_left _ hother, hid⟩
    · exact ⟨v, List.mem_append_right _ (List.mem_singleton_self v), hreceipt.symm⟩

theorem Recorded.reread
    {view : List ReadItem} {receipts : List Receipt} {file : StoredFile}
    (h : Recorded env view receipts file) :
    Recorded env (view.map ReadItem.stored) receipts file := by
  refine ⟨?_, ?_, ?_, ?_, ?_, ?_⟩
  · rw [List.map_map]
    exact h.ids
  · rw [List.forall_mem_map]
    exact fun v hv =>
      ⟨(ActionRequest.allClean_stored_iff _).mpr (h.clean v hv).1, (h.clean v hv).2⟩
  · rw [viewPayload_stored]
    exact h.stored.imp id fun ⟨hfile, hview⟩ => ⟨hfile, by rw [hview]; rfl⟩
  · rw [List.forall_mem_map]
    exact h.replayed
  · rw [List.forall_mem_map]
    exact h.approved
  · intro receipt hmem
    obtain ⟨v, hv, hid⟩ := h.issued receipt hmem
    exact ⟨v.stored, List.mem_map_of_mem hv, hid⟩

end Recorded

/-! ## Steps -/

/-- Terminal statuses stay, and what is newly executed was executed by a call of
`mark_executed`, which was a dry run or came after an approval. -/
structure Orderly (before : Session) (input : QueueInput) (after : Session) :
    Prop where
  terminal : ∀ v ∈ before.view, v.request.status ∈ terminalStatuses →
    ∃ v' ∈ after.view, v'.queueItemId = v.queueItemId ∧
      v'.request.status = v.request.status
  executed : ∀ v ∈ after.view, v.request.status = .executed →
    (∃ v' ∈ before.view, v'.queueItemId = v.queueItemId ∧
      v'.request.status = .executed) ∨
    ∃ ref dryRun draws,
      input = .call (.markExecuted v.queueItemId ref dryRun) draws ∧
        (dryRun = false → Approved before.receipts v.queueItemId)

section Steps

variable {env : QueueEnv} {s t : Session} {input : QueueInput}

theorem Orderly.of_map
    {f : ReadItem → ReadItem} (hview : t.view = s.view.map f)
    (hid : ∀ v, (f v).queueItemId = v.queueItemId)
    (hstatus : ∀ v, (f v).request.status = v.request.status) : Orderly s input t := by
  constructor
  · intro v hv _
    refine ⟨f v, ?_, hid v, hstatus v⟩
    rw [hview]
    exact List.mem_map_of_mem hv
  · intro v hv hexecuted
    rw [hview] at hv
    obtain ⟨v, hold, rfl⟩ := List.mem_map.mp hv
    rw [hstatus] at hexecuted
    exact .inl ⟨v, hold, (hid v).symm, hexecuted⟩

theorem Orderly.of_view (hview : t.view = s.view) : Orderly s input t := by
  have hmap : t.view = s.view.map id := by rw [hview, List.map_id]
  exact .of_map hmap (fun _ => rfl) (fun _ => rfl)

theorem Disciplined.of_view
    (h : Disciplined env s) (hdistinct : t.Distinct) (hview : t.view = s.view)
    (hreceipts : t.receipts = s.receipts) (hfile : t.file = s.file) :
    Disciplined env t := by
  refine ⟨hdistinct, ?_⟩
  rw [hview, hreceipts, hfile]
  exact h.recorded

theorem Disciplined.construct (h : Disciplined env s) (request : ActionRequest) :
    Disciplined env ((queueMachine env).step s (.construct request)).1 ∧
      Orderly s (.construct request)
        ((queueMachine env).step s (.construct request)).1 := by
  have hview : ((queueMachine env).step s (.construct request)).1.view = s.view :=
    view_setRequest_of_not_held
      (fun item hitem => (h.distinct.allocated item hitem).ne) rfl rfl
  have hdistinct : ((queueMachine env).step s (.construct request)).1.Distinct :=
    ⟨h.distinct.refs, fun item hitem =>
      Nat.lt_succ_of_lt (h.distinct.allocated item hitem)⟩
  exact ⟨h.of_view hdistinct hview rfl rfl, .of_view hview⟩

variable {plan : Plan} {ref : ℕ}

theorem Plan.allClean_kept {r : ActionRequest} (h : r.AllClean) :
    (plan.kept r).AllClean := by
  have hdecision : ∀ ref, (plan.kept r).operatorDecisionRef = some ref →
      Clean ref.toPayload := by
    intro ref href
    change (if plan.change.recordsOperator then none else r.operatorDecisionRef) =
      some ref at href
    split at href
    · cases href
    · exact h.decision ref href
  have hreceipt : Clean (plan.kept r).executionReceiptRef := by
    change Clean (if plan.receiptRef.isSome then .none else r.executionReceiptRef)
    split
    · exact clean_none
    · exact h.receipt
  exact ⟨h.actionId, h.sourceAgent, hdecision, hreceipt, h.details⟩

theorem Plan.acceptable_of_recordable {item : QueueItem} (hplan : plan.Recordable)
    (hitems : ∀ other ∈ s.items,
      (s.requestOf other).AllClean ∧ Clean other.previousItemRef) :
    plan.Acceptable s item := by
  refine ⟨hplan.reason, hplan.operatorRef, hplan.receiptRef, ?_⟩
  intro other hother
  obtain ⟨hclean, hlink⟩ := hitems other hother
  refine ⟨hlink, ?_⟩
  split_ifs
  · exact Plan.allClean_kept hclean
  · exact hclean

theorem Disciplined.clean_items (h : Disciplined env s) :
    ∀ item ∈ s.items, (s.requestOf item).AllClean ∧ Clean item.previousItemRef :=
  fun _ hitem => h.recorded.clean _ (List.mem_map_of_mem hitem)

theorem Disciplined.decide
    (h : Disciplined env s) {op : Operation} {draws : Draws}
    (hplan : op.plan? env = some plan)
    (hrecordable : ∀ item, plan.precheck s = .ok item → plan.Recordable) :
    Disciplined env (finalState (op.run env draws) s) ∧
      Orderly s (.call op draws) (finalState (op.run env draws) s) := by
  unfold finalState
  rw [Operation.run_of_plan hplan]
  cases hcheck : plan.precheck s with
  | error e =>
      unfold Plan.run
      rw [hcheck]
      exact ⟨h, .of_view rfl⟩
  | ok item =>
      obtain ⟨hitem, hid, hmay⟩ := Plan.precheck_cases hcheck
      replace hrecordable := hrecordable item hcheck
      have haccept : plan.Acceptable s item :=
        Plan.acceptable_of_recordable hrecordable h.clean_items
      rcases Plan.run_cases env draws hcheck with ⟨-, reason, hrun⟩ | ⟨hreject, -⟩
      · have hown := List.mem_map_of_mem (f := s.viewOf) hitem
        have hfinish : (plan.finish draws (s.requestOf item)).AllClean :=
          (Plan.allClean_finish_iff _).mpr
            ⟨Plan.allClean_kept (h.recorded.clean _ hown).1,
              fun _ => hrecordable.operatorRef, hrecordable.receiptRef⟩
        have hview {v : ReadItem} := mem_view_setRequest h.distinct hitem
          (t := plan.finished env draws s item reason) rfl rfl (v := v)
        have hrecorded : Recorded env (plan.finished env draws s item reason).view
            (s.receipts ++ [plan.receipt env draws s item reason])
            (.json (.dict (viewPayload env
              (plan.finished env draws s item reason).view))) :=
          h.recorded.move h.distinct hitem rfl rfl rfl hmay rfl rfl hfinish
            (fun happroved => approving_cases hplan hcheck happroved)
        rw [hrun]
        simp only
        rw [queuePayload_eq]
        refine ⟨⟨⟨h.distinct.refs, h.distinct.allocated⟩, hrecorded⟩, ?_, ?_⟩
        · intro v hv hterminal
          obtain ⟨other, hmem, rfl⟩ := List.mem_map.mp hv
          by_cases hsame : other = item
          · subst hsame
            exact absurd hterminal (not_terminal_of_mayTransition hmay)
          · exact ⟨_, hview.mpr (.inr ⟨other, hmem, hsame, rfl⟩), rfl, rfl⟩
        · intro v hv hexecuted
          rcases hview.mp hv with rfl | ⟨other, hmem, -, rfl⟩
          · obtain ⟨ref, dryRun, rfl, happroved⟩ :=
              executing_cases hplan hcheck hexecuted
            exact .inr ⟨ref, dryRun, draws, rfl,
              fun hdry =>
                h.recorded.approved (s.viewOf item) hown (happroved hdry)⟩
          · exact .inl ⟨_, List.mem_map_of_mem hmem, rfl, hexecuted⟩
      · exact absurd haccept hreject

theorem normalized_status (r : ActionRequest) :
    r.normalized.status = .queued ∨ r.normalized.status = .dryRunOnly := by
  unfold ActionRequest.normalized
  cases r.status with
  | dryRunOnly => exact .inr rfl
  | _ => exact .inl rfl

def enqueuedView (draws : Draws) (s : Session) (ref : ℕ) : List ReadItem :=
  s.view ++ [⟨draws.queueItemId, (s.requests ref).normalized, .none⟩]

variable (env) in
theorem view_enqueuedSession (draws : Draws) (hheld : ∀ item ∈ s.items, item.request ≠ ref) :
    (enqueuedSession env draws s ref).view = enqueuedView draws s ref := by
  have hother : ∀ item ∈ s.items,
      (enqueuedSession env draws s ref).viewOf item = s.viewOf item := by
    intro item hitem
    unfold Session.viewOf
    rw [requestOf_enqueuedSession, if_neg (hheld item hitem)]
  have hnew : (enqueuedSession env draws s ref).viewOf (enqueuedItem draws ref) =
      ⟨draws.queueItemId, (s.requests ref).normalized, .none⟩ := by
    have hlast : (enqueuedItem draws ref).request = ref := rfl
    unfold Session.viewOf
    rw [requestOf_enqueuedSession, if_pos hlast]
    rfl
  have hitems : (enqueuedSession env draws s ref).items =
      s.items ++ [enqueuedItem draws ref] := rfl
  unfold enqueuedView Session.view
  rw [hitems, List.map_append, List.map_singleton, hnew, List.map_congr_left hother]

variable (env) in
theorem distinct_enqueuedSession (draws : Draws) (h : s.Distinct) (hmade : ref < s.next)
    (hheld : ∀ item ∈ s.items, item.request ≠ ref) :
    (enqueuedSession env draws s ref).Distinct := by
  have hitems : (enqueuedSession env draws s ref).items =
      s.items ++ [enqueuedItem draws ref] := rfl
  constructor
  · rw [hitems, List.map_append, List.map_singleton, ← List.concat_eq_append,
      List.nodup_concat]
    refine ⟨?_, h.refs⟩
    intro hmem
    obtain ⟨item, hitem, href⟩ := List.mem_map.mp hmem
    exact hheld item hitem href
  · rw [hitems, List.forall_mem_append, List.forall_mem_singleton]
    exact ⟨h.allocated, hmade⟩

theorem Disciplined.enqueue
    (h : Disciplined env s) {draws : Draws} (hmade : ref < s.next)
    (hheld : ∀ item ∈ s.items, item.request ≠ ref)
    (hfresh : ∀ item ∈ s.items, item.queueItemId ≠ draws.queueItemId) :
    Disciplined env (finalState ((Operation.enqueue ref).run env draws) s) ∧
      Orderly s (.call (.enqueue ref) draws)
        (finalState ((Operation.enqueue ref).run env draws) s) := by
  unfold finalState
  rcases run_enqueue_cases env draws s ref with
    ⟨-, e, hrun⟩ | ⟨hown, ⟨-, hrun⟩ | ⟨hitems, -⟩⟩
  · have hview : (s.setRequest ref (s.requests ref).normalized).view = s.view :=
      view_setRequest_of_not_held hheld rfl rfl
    rw [hrun]
    exact ⟨h.of_view ⟨h.distinct.refs, h.distinct.allocated⟩ hview rfl rfl,
      .of_view hview⟩
  · have hview := view_enqueuedSession env draws hheld
    have hdistinct := distinct_enqueuedSession env draws h.distinct hmade hheld
    have hqueued := normalized_status (s.requests ref)
    have hrecorded : Recorded env (enqueuedView draws s ref)
        (s.receipts ++ [enqueueReceipt env draws s ref])
        (.json (.dict (viewPayload env (enqueuedView draws s ref)))) :=
      h.recorded.enqueue (List.forall_mem_map.mpr hfresh) rfl rfl rfl rfl
        ⟨(allClean_normalized_iff _).mpr hown, clean_none⟩
        (by rcases hqueued with hstatus | hstatus <;> simp [hstatus])
    rw [← hview] at hrecorded
    rw [hrun]
    simp only
    rw [queuePayload_eq]
    refine ⟨⟨⟨hdistinct.refs, hdistinct.allocated⟩, hrecorded⟩, ?_, ?_⟩
    · intro v hv _
      refine ⟨v, ?_, rfl, rfl⟩
      change v ∈ (enqueuedSession env draws s ref).view
      rw [hview]
      exact List.mem_append_left _ hv
    · intro v hv hexecuted
      change v ∈ (enqueuedSession env draws s ref).view at hv
      rw [hview] at hv
      rcases List.mem_append.mp hv with hold | hlast
      · exact .inl ⟨v, hold, rfl, hexecuted⟩
      · obtain rfl := List.mem_singleton.mp hlast
        rcases hqueued with hstatus | hstatus <;> simp [hstatus] at hexecuted
  · exact absurd h.clean_items hitems

theorem Disciplined.load (h : Disciplined env s) :
    load env s = .ok ⟨⟩ (s.adopt (s.view.map ReadItem.stored)) := by
  rcases h.recorded.stored with hfile | ⟨hfile, hview⟩
  · exact load_view hfile h.recorded.clean
  · rw [hview]
    exact load_absent hfile

theorem Disciplined.adopt (h : Disciplined env s) :
    Disciplined env (s.adopt (s.view.map ReadItem.stored)) := by
  refine ⟨adopt_distinct _, ?_⟩
  rw [adopt_view]
  exact h.recorded.reread

theorem Disciplined.reload
    (h : Disciplined env s) (control : Except PyError StopPanicState) :
    Disciplined env (finalState (reload env control) s) ∧
      Orderly s (.reload control) (finalState (reload env control) s) := by
  have hview : (finalState (OperatorQueue.reload env control) s).view =
      s.view.map ReadItem.stored ∧
        Disciplined env (finalState (OperatorQueue.reload env control) s) := by
    have hadopt := h.adopt
    unfold finalState OperatorQueue.reload
    rw [bind_apply, h.load]
    simp only
    rw [raising_bind_apply]
    cases control with
    | error e => exact ⟨adopt_view _, hadopt⟩
    | ok stopPanic =>
        exact ⟨adopt_view _,
          hadopt.of_view ⟨hadopt.distinct.refs, hadopt.distinct.allocated⟩ rfl rfl rfl⟩
  exact ⟨hview.2, .of_map hview.1 (fun _ => rfl) (fun _ => rfl)⟩

theorem Disciplined.step
    (h : Disciplined env s) (hregular : input.Regular env s) :
    Disciplined env ((queueMachine env).step s input).1 ∧
      Orderly s input ((queueMachine env).step s input).1 := by
  cases input with
  | construct request => exact h.construct request
  | reload control => exact h.reload control
  | call op draws =>
      cases hmade : op.made s.next with
      | false =>
          have hstep : (queueMachine env).step s (.call op draws) = (s, none) := by
            simp [queueMachine, hmade]
          rw [hstep]
          exact ⟨h, .of_view rfl⟩
      | true =>
          rw [queueMachine_call draws hmade]
          cases hplan : op.plan? env with
          | some plan =>
              refine h.decide hplan ?_
              cases op with
              | enqueue ref => cases hplan
              | _ => exact fun item hcheck => hregular plan item hplan hcheck
          | none =>
              cases op with
              | enqueue ref =>
                  exact h.enqueue (of_decide_eq_true hmade) hregular.1 hregular.2
              | _ => cases hplan

end Steps

/-! ## Runs -/

theorem Disciplined.new (env : QueueEnv) (stopPanic : StopPanicState) :
    Disciplined env (.new stopPanic) where
  distinct := ⟨List.nodup_nil, List.forall_mem_nil _⟩
  recorded :=
    { ids := List.nodup_nil
      clean := List.forall_mem_nil _
      stored := .inr ⟨rfl, rfl⟩
      replayed := List.forall_mem_nil _
      approved := List.forall_mem_nil _
      issued := List.forall_mem_nil _ }

/-- After every step of a regular run the receipts of each item replay to its status,
terminal statuses have stayed, and nothing was executed for real that no operator had
approved. -/
theorem queue_disciplined
    (env : QueueEnv) (stopPanic : StopPanicState) (inputs : List QueueInput)
    (hregular : (queueMachine env).Guarded (QueueInput.Regular env) (.new stopPanic)
      inputs) :
    ∀ e ∈ (queueMachine env).trace (.new stopPanic) inputs,
      Orderly e.before e.input e.after ∧
        ∀ v ∈ e.after.view,
          Replays (receiptsOf e.after.receipts v.queueItemId) v.request.status := by
  have hrun := Machine.invariant_of_guarded (M := queueMachine env)
    (fun trace s => Disciplined env s ∧ ∀ e ∈ trace,
      Orderly e.before e.input e.after ∧ Disciplined env e.after)
    ⟨.new env stopPanic, List.forall_mem_nil _⟩
    (fun trace s input hs hguard => by
      obtain ⟨hafter, horderly⟩ := hs.1.step hguard
      rw [List.forall_mem_append, List.forall_mem_singleton]
      exact ⟨hafter, hs.2, horderly, hafter⟩)
    inputs hregular
  intro e he
  obtain ⟨horderly, hafter⟩ := hrun.2 e he
  exact ⟨horderly, hafter.recorded.replayed⟩

def approvedRun : List QueueInput :=
  [.construct noteRequest, .call (.enqueue 0) (drawsOf "oqi-1"),
    .call (.approveItem "oqi-1" (.str "operator") (.str "ok")) (drawsOf "oqi-2"),
    .call (.markExecuted "oqi-1" (.str "receipt") false) (drawsOf "oqi-3"),
    .reload (.ok {})]

theorem queue_disciplined_approved :
    (queueMachine referenceQueue).Guarded (QueueInput.Regular referenceQueue) (.new {})
        approvedRun ∧
      ∀ e ∈ (queueMachine referenceQueue).trace (.new {}) approvedRun,
        Orderly e.before e.input e.after ∧
          ∀ v ∈ e.after.view,
            Replays (receiptsOf e.after.receipts v.queueItemId) v.request.status := by
  refine ⟨?regular, queue_disciplined referenceQueue {} approvedRun ?regular⟩
  unfold approvedRun
  simp only [Machine.guarded_cons]
  refine ⟨trivial, ⟨List.forall_mem_nil _, List.forall_mem_nil _⟩, ?_, ?_, trivial,
    Machine.guarded_nil⟩
  · intro plan _ hplan _
    obtain rfl := Option.some.inj hplan
    exact ⟨⟨_, rfl⟩, clean_str _, by simp⟩
  · intro plan _ hplan _
    obtain rfl := Option.some.inj hplan
    exact ⟨⟨_, rfl⟩, clean_none, by simp⟩

theorem view_enqueue_held {draws : Draws} {ref : ℕ}
    (hheld : ∀ item ∈ s.items, item.request = ref) :
    ∀ v ∈ (finalState ((Operation.enqueue ref).run env draws) s).view,
      v.request = (s.requests ref).normalized := by
  have hset : ∀ item ∈ s.items,
      (s.setRequest ref (s.requests ref).normalized).requestOf item =
        (s.requests ref).normalized := by
    intro item hitem
    unfold Session.requestOf
    rw [hheld item hitem]
    exact Function.update_self _ _ _
  have hboth : ∀ item ∈ s.items ++ [enqueuedItem draws ref],
      (enqueuedSession env draws s ref).requestOf item =
        (s.requests ref).normalized := by
    rw [List.forall_mem_append, List.forall_mem_singleton]
    refine ⟨fun item hitem => ?_, ?_⟩
    · rw [requestOf_enqueuedSession, if_pos (hheld item hitem)]
    · have hlast : (enqueuedItem draws ref).request = ref := rfl
      rw [requestOf_enqueuedSession, if_pos hlast]
  unfold finalState
  rcases run_enqueue_cases env draws s ref with
    ⟨-, e, hrun⟩ | ⟨-, ⟨-, hrun⟩ | ⟨-, e, hrun⟩⟩
  · rw [hrun]
    exact List.forall_mem_map.mpr hset
  · rw [hrun]
    exact List.forall_mem_map.mpr hboth
  · rw [hrun]
    exact List.forall_mem_map.mpr hboth

def requeuedRun : List QueueInput :=
  [.construct noteRequest, .call (.enqueue 0) (drawsOf "oqi-1"),
    .call denyNote (drawsOf "oqi-2"), .call (.enqueue 0) (drawsOf "oqi-3")]

def noteMade : Session :=
  ((queueMachine referenceQueue).step (.new {}) (.construct noteRequest)).1

def noteStored : Session :=
  finalState ((Operation.enqueue 0).run referenceQueue (drawsOf "oqi-1")) noteMade

theorem noteStored_disciplined : Disciplined referenceQueue noteStored :=
  (((Disciplined.new referenceQueue {}).construct noteRequest).1.enqueue (by decide)
    (List.forall_mem_nil _) (List.forall_mem_nil _)).1

theorem Disciplined.enqueued {ref : ℕ} (draws : Draws) (h : Disciplined env s)
    (hown : (s.requests ref).AllClean) :
    finalState ((Operation.enqueue ref).run env draws) s =
      { enqueuedSession env draws s ref with
        file := .json (.dict ((enqueuedSession env draws s ref).queuePayload env)) } := by
  unfold finalState
  rw [run_enqueue_of_clean env draws hown h.clean_items]

theorem noteStored_eq :
    noteStored = { enqueuedSession referenceQueue (drawsOf "oqi-1") noteMade 0 with
      file := .json (.dict ((enqueuedSession referenceQueue (drawsOf "oqi-1") noteMade
        0).queuePayload referenceQueue)) } := by
  have hmade : Disciplined referenceQueue noteMade :=
    ((Disciplined.new referenceQueue {}).construct noteRequest).1
  have hown : (noteMade.requests 0).AllClean := noteRequest_allClean
  exact hmade.enqueued (drawsOf "oqi-1") hown

theorem noteStored_found :
    noteStored.items = [⟨"oqi-1", 0, .none⟩] ∧
      (noteStored.requests 0).status = .queued ∧ noteStored.next = 1 := by
  rw [noteStored_eq]
  exact ⟨rfl, rfl, rfl⟩

theorem Disciplined.carried_out {plan : Plan} {item : QueueItem} {op : Operation}
    (draws : Draws) (h : Disciplined env s) (hplan : op.plan? env = some plan)
    (hrecordable : plan.Recordable) (hcheck : plan.precheck s = .ok item) :
    ∃ t, finalState (op.run env draws) s = t ∧ t.items = s.items ∧
      t.requestOf item = plan.finish draws (s.requestOf item) ∧ t.next = s.next := by
  unfold finalState
  rw [Operation.run_of_plan hplan]
  rcases Plan.run_cases env draws hcheck with ⟨-, reason, hrun⟩ | ⟨hnot, -⟩
  · rw [hrun]
    exact ⟨_, rfl, rfl, requestOf_setRequest s item _, rfl⟩
  · exact absurd (Plan.acceptable_of_recordable hrecordable h.clean_items) hnot

def denyChange : Change :=
  ⟨"oqi-1", .denied, .denyItem, .str "operator", .str "no", false⟩

theorem noteDenied (h : Disciplined referenceQueue s)
    (hitems : s.items = [⟨"oqi-1", 0, .none⟩])
    (hqueued : (s.requests 0).status = .queued) :
    ∃ denied, finalState (denyNote.run referenceQueue (drawsOf "oqi-2")) s = denied ∧
      denied.items = [⟨"oqi-1", 0, .none⟩] ∧
        (denied.requests 0).status = .denied ∧ denied.next = s.next := by
  have hplan : denyNote.plan? referenceQueue = some (.plain denyChange) := rfl
  have hrecordable : (Plan.plain denyChange).Recordable :=
    ⟨⟨_, rfl⟩, clean_str _, by simp [Plan.plain]⟩
  have hmay : mayTransition (s.requests 0).status .denied = true := by
    rw [hqueued]
    rfl
  have hcheck : (Plan.plain denyChange).precheck s = .ok ⟨"oqi-1", 0, .none⟩ := by
    rw [Plan.precheck_eq]
    simp [Plan.plain, denyChange, Change.check, Session.findItem, hitems,
      Session.requestOf, hmay, bind, Except.bind, pure, Except.pure]
  obtain ⟨denied, hdenied, hsame, hrequest, hnext⟩ :=
    h.carried_out (drawsOf "oqi-2") hplan hrecordable hcheck
  exact ⟨denied, hdenied, hsame.trans hitems, congrArg ActionRequest.status hrequest,
    hnext⟩

/-- The second item shares the request object of the first, which is denied no
longer. -/
theorem requeued_not_disciplined :
    ¬ ∀ e ∈ (queueMachine referenceQueue).trace (.new {}) requeuedRun,
      Orderly e.before e.input e.after ∧
        ∀ v ∈ e.after.view,
          Replays (receiptsOf e.after.receipts v.queueItemId) v.request.status := by
  intro h
  obtain ⟨hstored, hqueued, hone⟩ := noteStored_found
  obtain ⟨denied, hdenied, hitems, hstatus, hnext⟩ :=
    noteDenied noteStored_disciplined hstored hqueued
  have hlast : Orderly denied (.call (.enqueue 0) (drawsOf "oqi-3"))
      (finalState ((Operation.enqueue 0).run referenceQueue (drawsOf "oqi-3"))
        denied) := by
    have hmade : ((queueMachine referenceQueue).step (.new {})
        (.construct noteRequest)).1 = noteMade := rfl
    have hfirst : ((queueMachine referenceQueue).step noteMade
        (.call (.enqueue 0) (drawsOf "oqi-1"))).1 = noteStored := by
      have hallocated : (Operation.enqueue 0).made noteMade.next = true := rfl
      rw [queueMachine_call _ hallocated, noteStored]
    have hdeny : ((queueMachine referenceQueue).step noteStored
        (.call denyNote (drawsOf "oqi-2"))).1 = denied := by
      have hallocated : denyNote.made noteStored.next = true := rfl
      rw [queueMachine_call _ hallocated, hdenied]
    have hallocated : (Operation.enqueue 0).made denied.next = true := by
      rw [hnext, hone]
      rfl
    unfold requeuedRun at h
    simp only [Machine.trace, List.forall_mem_cons, hmade, hfirst, hdeny] at h
    have hagain := h.2.2.2.1.1
    unfold Machine.stepAt at hagain
    rw [queueMachine_call _ hallocated] at hagain
    simp only at hagain
    exact hagain
  have hmem : denied.viewOf ⟨"oqi-1", 0, .none⟩ ∈ denied.view := by
    refine List.mem_map_of_mem ?_
    rw [hitems]
    exact List.mem_singleton_self _
  have hterminal : (denied.viewOf ⟨"oqi-1", 0, .none⟩).request.status = .denied :=
    hstatus
  obtain ⟨v, hv, -, hkept⟩ := hlast.terminal _ hmem (by rw [hterminal]; decide)
  have hheld : ∀ item ∈ denied.items, item.request = 0 := by
    rw [hitems]
    exact List.forall_mem_singleton.mpr rfl
  rw [view_enqueue_held hheld v hv, hterminal] at hkept
  rcases normalized_status (denied.requests 0) with hagain | hagain <;>
    simp [hagain] at hkept

end Hydrogenuine.OperatorQueue
