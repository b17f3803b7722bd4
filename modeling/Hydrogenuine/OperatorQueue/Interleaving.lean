import Hydrogenuine.OperatorQueue.Runtimes

/-!
# Several runtimes on one store

A runtime saves its own copy of the queue as a whole, so a copy that another runtime's
save has made stale undoes that save.  Along the runs in which the copy of a runtime
says what the file says whenever an operation of it is called, and no request object is
enqueued that the copy holds in a terminal status, what is stored stays stored and
terminal statuses stay.
-/

namespace Hydrogenuine.OperatorQueue

open Support Hydrogenuine.Core

/-! ## What stays stored -/

/-- Every item stays, and so does its status if it is terminal. -/
def Kept (before after : List ReadItem) : Prop :=
  ∀ v ∈ before, ∃ v' ∈ after, v'.queueItemId = v.queueItemId ∧
    (v.request.status ∈ terminalStatuses → v'.request.status = v.request.status)

namespace Kept

variable {a b c : List ReadItem}

theorem refl (a : List ReadItem) : Kept a a := fun v hv => ⟨v, hv, rfl, fun _ => rfl⟩

theorem trans (hab : Kept a b) (hbc : Kept b c) : Kept a c := by
  intro v hv
  obtain ⟨u, hu, hid, hstatus⟩ := hab v hv
  obtain ⟨t, ht, hid', hstatus'⟩ := hbc u hu
  refine ⟨t, ht, hid'.trans hid, fun hterminal => ?_⟩
  have hsame := hstatus hterminal
  exact (hstatus' (hsame ▸ hterminal)).trans hsame

theorem of_stored (h : a.map ReadItem.stored = b.map ReadItem.stored) : Kept a b := by
  intro v hv
  have hmem : v.stored ∈ b.map ReadItem.stored := h ▸ List.mem_map_of_mem hv
  obtain ⟨u, hu, husame⟩ := List.mem_map.mp hmem
  have hid := congrArg ReadItem.queueItemId husame
  have hstatus := congrArg (fun v : ReadItem => v.request.status) husame
  exact ⟨u, hu, hid, fun _ => hstatus⟩

theorem mem_ids (h : Kept a b) {queueItemId : String}
    (hid : queueItemId ∈ a.map ReadItem.queueItemId) :
    queueItemId ∈ b.map ReadItem.queueItemId := by
  obtain ⟨v, hv, rfl⟩ := List.mem_map.mp hid
  obtain ⟨u, hu, hsame, -⟩ := h v hv
  exact List.mem_map.mpr ⟨u, hu, hsame⟩

end Kept

theorem kept_view
    {s t : Session} (hitems : s.items ⊆ t.items)
    (hstatus : ∀ item ∈ s.items, (s.requestOf item).status ∈ terminalStatuses →
      (t.requestOf item).status = (s.requestOf item).status) :
    Kept s.view t.view := by
  intro v hv
  obtain ⟨item, hitem, rfl⟩ := List.mem_map.mp hv
  exact ⟨t.viewOf item, List.mem_map_of_mem (hitems hitem), rfl, hstatus item hitem⟩

def storedItems (file : StoredFile) : List ReadItem :=
  match readItems file with
  | .ok items => items
  | .error _ => []

theorem storedItems_viewPayload (env : QueueEnv) (view : List ReadItem) :
    storedItems (.json (.dict (viewPayload env view))) = view.map ReadItem.stored := by
  rw [storedItems, readItems_viewPayload]

/-- The copy of a runtime says what the file says. -/
def Session.UpToDate (s : Session) : Prop :=
  ∃ read, readItems s.file = .ok read ∧
    read.map ReadItem.stored = s.view.map ReadItem.stored

/-- An enqueue of a request object that an item holds in a terminal status would take
that item back. -/
def Operation.Reopens (op : Operation) (s : Session) : Prop :=
  ∃ item ∈ s.items, op = .enqueue item.request ∧
    (s.requestOf item).status ∈ terminalStatuses

/-! ## Operations of an up-to-date runtime -/

section Operations

variable {env : QueueEnv} {draws : Draws} {s t : Session} {op : Operation}

variable (env) in
theorem kept_saved (h : s.UpToDate) (hkept : Kept s.view t.view) :
    Kept (storedItems s.file)
      (storedItems (.json (.dict (t.queuePayload env)))) := by
  obtain ⟨read, hread, hsame⟩ := h
  have hbefore : storedItems s.file = read := by rw [storedItems, hread]
  rw [hbefore, queuePayload_eq, storedItems_viewPayload]
  have hstored : t.view.map ReadItem.stored =
      (t.view.map ReadItem.stored).map ReadItem.stored := by
    rw [List.map_map]
    exact List.map_congr_left fun v _ =>
      (congrArg (ReadItem.mk v.queueItemId · v.previousItemRef)
        (ActionRequest.stored_stored v.request)).symm
  exact ((Kept.of_stored hsame).trans hkept).trans (.of_stored hstored)

variable (env draws s) in
theorem Plan.run_ends (plan : Plan) :
    (∃ e, plan.run env draws s = .error e s) ∨
      ∃ item, plan.precheck s = .ok item ∧
        ((∃ e, plan.run env draws s = .error e (plan.changed draws s item)) ∨
          ∃ reason,
            (∃ e, plan.run env draws s =
              .error e (plan.finished env draws s item reason)) ∨
            plan.run env draws s =
              .ok (.decision (plan.decision draws s item reason))
                { plan.finished env draws s item reason with
                  file := .json (.dict
                    ((plan.finished env draws s item reason).queuePayload env)) }) := by
  unfold Plan.run
  cases hcheck : plan.precheck s with
  | error e => exact .inl ⟨e, rfl⟩
  | ok item =>
      refine .inr ⟨item, rfl, ?_⟩
      simp only
      cases scrubText plan.change.reason with
      | error e => exact .inl ⟨.python e, rfl⟩
      | ok reason =>
          simp only
          cases validatePayload env
              ((plan.receipt env draws s item reason).toPayload env) with
          | error e => exact .inl ⟨e, rfl⟩
          | ok _ =>
              refine .inr ⟨reason, ?_⟩
              simp only [saved]
              cases validatePayload env
                  ((plan.finished env draws s item reason).queuePayload env) with
              | error e => exact .inl ⟨e, rfl⟩
              | ok _ => exact .inr rfl

variable (draws) in
theorem kept_decide
    (h : s.UpToDate) {plan : Plan} (hplan : op.plan? env = some plan) :
    Kept (storedItems s.file) (storedItems (finalState (op.run env draws) s).file) := by
  unfold finalState
  rw [Operation.run_of_plan hplan]
  rcases plan.run_ends env draws s with
    ⟨e, hrun⟩ | ⟨item, hcheck, ⟨e, hrun⟩ | ⟨reason, ⟨e, hrun⟩ | hrun⟩⟩
  · rw [hrun]
    exact .refl _
  · rw [hrun]
    exact .refl _
  · rw [hrun]
    exact .refl _
  · rw [hrun]
    obtain ⟨-, -, hmay⟩ := Plan.precheck_cases hcheck
    have hview : Kept s.view (plan.finished env draws s item reason).view := by
      refine kept_view (List.Subset.refl _) fun other _ hterminal => ?_
      rw [Plan.requestOf_finished]
      split_ifs with hsame
      · have hown : s.requestOf other = s.requestOf item := congrArg s.requests hsame
        rw [hown] at hterminal
        exact absurd hterminal (not_terminal_of_mayTransition hmay)
      · rfl
    exact kept_saved env h hview

variable (env draws) in
/-- An enqueue by an up-to-date runtime keeps what is stored, and stores the new item,
unless the request is held in a terminal status. -/
theorem kept_enqueue
    {ref : ℕ} (h : s.UpToDate) (hopen : ¬ (Operation.enqueue ref).Reopens s) :
    Kept (storedItems s.file)
        (storedItems (finalState ((Operation.enqueue ref).run env draws) s).file) ∧
      ∀ item, outcome ((Operation.enqueue ref).run env draws) s = .ok (.item item) →
        item.queueItemId ∈ (storedItems (finalState ((Operation.enqueue ref).run env
          draws) s).file).map ReadItem.queueItemId := by
  unfold finalState outcome
  rcases run_enqueue_cases env draws s ref with
    ⟨-, e, hrun⟩ | ⟨-, ⟨-, hrun⟩ | ⟨-, e, hrun⟩⟩
  · rw [hrun]
    exact ⟨.refl _, fun item houtcome => nomatch houtcome⟩
  · rw [hrun]
    have hview : Kept s.view (enqueuedSession env draws s ref).view := by
      refine kept_view (List.subset_append_left _ _) fun other hother hterminal => ?_
      rw [requestOf_enqueuedSession]
      split_ifs with hsame
      · exact absurd ⟨other, hother, by rw [hsame], hterminal⟩ hopen
      · rfl
    refine ⟨kept_saved env h hview, ?_⟩
    intro item houtcome
    obtain rfl := Returned.item.inj (Except.ok.inj houtcome)
    have hnew : enqueuedItem draws ref ∈ (enqueuedSession env draws s ref).items :=
      List.mem_append_right _ (List.mem_singleton_self _)
    simp only
    rw [queuePayload_eq, storedItems_viewPayload, List.map_map]
    have hmem := List.mem_map_of_mem
      (f := (enqueuedSession env draws s ref).viewOf) hnew
    exact List.mem_map.mpr ⟨_, hmem, rfl⟩
  · rw [hrun]
    exact ⟨.refl _, fun item houtcome => nomatch houtcome⟩

variable (env draws) in
theorem kept_run (h : s.UpToDate) (hopen : ¬ op.Reopens s) :
    Kept (storedItems s.file) (storedItems (finalState (op.run env draws) s).file) ∧
      ∀ ref item, op = .enqueue ref →
        outcome (op.run env draws) s = .ok (.item item) →
        item.queueItemId ∈ (storedItems (finalState (op.run env draws) s).file).map
          ReadItem.queueItemId := by
  cases hplan : op.plan? env with
  | some plan =>
      refine ⟨kept_decide draws h hplan, ?_⟩
      rintro ref item rfl
      cases hplan
  | none =>
      cases op with
      | enqueue ref =>
          obtain ⟨hkept, hstored⟩ := kept_enqueue env draws h hopen
          exact ⟨hkept, fun _ item _ => hstored item⟩
      | _ => cases hplan

theorem load_cases (env : QueueEnv) (s : Session) :
    (∃ e, load env s = .error e s) ∨
      ∃ read, readItems s.file = .ok read ∧ load env s = .ok ⟨⟩ (s.adopt read) := by
  unfold load
  rw [get_bind_apply, raising_bind_apply]
  cases hread : readItems s.file with
  | error e => exact .inl ⟨e, rfl⟩
  | ok read =>
      simp only
      rw [raising_bind_apply]
      cases validatePayload env ((s.adopt read).queuePayload env) with
      | error e => exact .inl ⟨e, rfl⟩
      | ok _ => exact .inr ⟨read, rfl, rfl⟩

theorem upToDate_of_load (h : load env s = .ok ⟨⟩ t) : t.UpToDate := by
  rcases load_cases env s with ⟨e, hload⟩ | ⟨read, hread, hload⟩
  · rw [h] at hload
    cases hload
  · rw [h] at hload
    obtain ⟨-, rfl⟩ := EStateM.Result.ok.inj hload
    exact ⟨read, hread, by rw [adopt_view]⟩

variable (env) in
theorem reload_cases (control : Except PyError StopPanicState) (s : Session) :
    (∃ e, reload env control s = .error e s) ∨
      ∃ read, readItems s.file = .ok read ∧
        ((∃ e, reload env control s = .error e (s.adopt read)) ∨
          ∃ stopPanic, control = .ok stopPanic ∧
            reload env control s =
              .ok ⟨⟩ { s.adopt read with stopPanic := stopPanic }) := by
  unfold reload
  rw [bind_apply]
  rcases load_cases env s with ⟨e, hload⟩ | ⟨read, hread, hload⟩
  · rw [hload]
    exact .inl ⟨e, rfl⟩
  · rw [hload]
    refine .inr ⟨read, hread, ?_⟩
    simp only
    rw [raising_bind_apply]
    cases control with
    | error e => exact .inl ⟨.python e, rfl⟩
    | ok stopPanic => exact .inr ⟨stopPanic, rfl, rfl⟩

theorem upToDate_of_reload
    (control : Except PyError StopPanicState) (h : load env s = .ok ⟨⟩ t) :
    (finalState (reload env control) s).UpToDate := by
  have hfresh := upToDate_of_load h
  unfold finalState reload
  rw [bind_apply, h]
  simp only
  rw [raising_bind_apply]
  cases control with
  | error e => exact hfresh
  | ok stopPanic => exact hfresh

theorem reload_file (control : Except PyError StopPanicState) :
    (finalState (reload env control) s).file = s.file := by
  unfold finalState
  rcases reload_cases env control s with
    ⟨e, hrun⟩ | ⟨read, -, ⟨e, hrun⟩ | ⟨stopPanic, -, hrun⟩⟩ <;> rw [hrun] <;> rfl

end Operations

/-! ## Runs -/

/-- A runtime is up to date when an operation of it is called, and no request object is
enqueued that it holds in a terminal status. -/
def StoreInput.Fresh (w : World) : StoreInput → Prop
  | .call i op _ => ∀ rt, w.runtimes i = some rt →
      (w.session rt).UpToDate ∧ ¬ op.Reopens (w.session rt)
  | _ => True

/-- What is stored before the step is kept, and what it enqueues is stored. -/
structure Preserves
    (before : World) (input : StoreInput) (output : Option StoreOutput)
    (after : World) : Prop where
  kept : Kept (storedItems before.file) (storedItems after.file)
  enqueued : ∀ i ref draws item, input = .call i (.enqueue ref) draws →
    output = some (.returned (.ok (.item item))) →
    item.queueItemId ∈ (storedItems after.file).map ReadItem.queueItemId

section Runs

variable {env : QueueEnv} {w : World} {input : StoreInput}

theorem Preserves.of_file
    {output : Option StoreOutput} {after : World} (hfile : after.file = w.file)
    (hnone : ∀ returned, output ≠ some (.returned (.ok returned))) :
    Preserves w input output after where
  kept := by rw [hfile]; exact .refl _
  enqueued := fun _ _ _ _ _ houtput => absurd houtput (hnone _)

variable (env) in
theorem preserves_step (hfresh : input.Fresh w) :
    Preserves w input ((storeMachine env).step w input).2
      ((storeMachine env).step w input).1 := by
  cases input with
  | construct request => exact .of_file rfl (fun _ h => by cases h)
  | control files => exact .of_file rfl (fun _ h => by cases h)
  | create i workspace runDir =>
      simp only [storeMachine]
      cases hrun : reload env (w.controlOf ⟨workspace, runDir, [], {}⟩)
          (w.session ⟨workspace, runDir, [], {}⟩) with
      | error e s => exact .of_file rfl (fun _ h => by cases h)
      | ok _ s =>
          have hfile : (finalState (OperatorQueue.reload env (w.controlOf
              ⟨workspace, runDir, [], {}⟩))
              (w.session ⟨workspace, runDir, [], {}⟩)).file = w.file := reload_file _
          unfold finalState at hfile
          rw [hrun] at hfile
          exact .of_file hfile (fun _ h => by cases h)
  | reload i =>
      cases hrt : w.runtimes i with
      | none =>
          simp only [storeMachine, hrt]
          exact .of_file rfl (fun _ h => by cases h)
      | some rt =>
          rw [storeMachine_reload hrt]
          exact .of_file (reload_file _) (fun _ h => by cases h)
  | report i queueItemId =>
      cases hrt : w.runtimes i with
      | none =>
          simp only [storeMachine, hrt]
          exact .of_file rfl (fun _ h => by cases h)
      | some rt =>
          simp only [storeMachine, hrt]
          exact .of_file rfl (fun _ h => by cases h)
  | call i op draws =>
      rcases storeMachine_call_cases env w i op draws with
        hstep | ⟨rt, hrt, hstep⟩
      · rw [hstep]
        exact .of_file rfl (fun _ h => by cases h)
      · obtain ⟨hfreshCopy, hopen⟩ := hfresh rt hrt
        obtain ⟨hkept, hstored⟩ := kept_run env draws hfreshCopy hopen
        rw [hstep]
        refine ⟨hkept, ?_⟩
        intro i' ref draws' item hinput houtput
        obtain ⟨rfl, rfl, rfl⟩ := StoreInput.call.inj hinput
        exact hstored ref item rfl
          (StoreOutput.returned.inj (Option.some.inj houtput))

/-- Along a run in which every operation is called on an up-to-date runtime, and none
reopens a terminal item, every stored item and every terminal status stay stored, and so
does every item whose enqueue succeeded. -/
theorem stored_kept
    (env : QueueEnv) (w : World) (inputs : List StoreInput)
    (hfresh : (storeMachine env).Guarded StoreInput.Fresh w inputs) :
    ∀ e ∈ (storeMachine env).trace w inputs,
      Preserves e.before e.input e.output ((storeMachine env).final w inputs) :=
  (storeMachine env).invariant_of_guarded
    (fun trace now => ∀ e ∈ trace, Preserves e.before e.input e.output now)
    (List.forall_mem_nil _)
    (fun trace now input htrace hguard => by
      have hstep := preserves_step env hguard
      rw [List.forall_mem_append, List.forall_mem_singleton]
      refine ⟨fun e he => ?_, hstep⟩
      have hbefore := htrace e he
      exact ⟨hbefore.kept.trans hstep.kept, fun i ref draws item hinput houtput =>
        hstep.kept.mem_ids (hbefore.enqueued i ref draws item hinput houtput)⟩)
    inputs hfresh

end Runs

def noControl : ControlFiles :=
  ⟨fun _ => false, fun _ => false, fun _ => .absent, fun _ => none⟩

def emptyRuntime : Runtime := ⟨"workspace", none, [], {}⟩

def twoOpened : World where
  requests := fun _ => noteRequest
  next := 2
  file := .absent
  receipts := []
  control := noControl
  runtimes := fun i => if i < 2 then some emptyRuntime else none

def noteSession (draws : Draws) (s : Session) (ref : ℕ) : Session :=
  { enqueuedSession referenceQueue draws s ref with
    file := .json (.dict
      ((enqueuedSession referenceQueue draws s ref).queuePayload referenceQueue)) }

theorem ids_noteSession (draws : Draws) (s : Session) (ref : ℕ) :
    (storedItems (noteSession draws s ref).file).map ReadItem.queueItemId =
      s.items.map QueueItem.queueItemId ++ [draws.queueItemId] := by
  unfold noteSession
  simp only
  rw [queuePayload_eq, storedItems_viewPayload, List.map_map]
  unfold Session.view enqueuedSession
  rw [List.map_map, List.map_append]
  rfl

theorem step_enqueue_note
    {w : World} {i ref : ℕ} (draws : Draws) (hrt : w.runtimes i = some emptyRuntime)
    (hmade : ref < w.next) (hnote : w.requests ref = noteRequest) :
    (storeMachine referenceQueue).step w (.call i (.enqueue ref) draws) =
      (w.put i emptyRuntime (noteSession draws (w.session emptyRuntime) ref),
        some (.returned (.ok (.item (enqueuedItem draws ref))))) := by
  have hown : ((w.session emptyRuntime).requests ref).AllClean := by
    change (w.requests ref).AllClean
    rw [hnote]
    exact noteRequest_allClean
  have hallocated : (Operation.enqueue ref).made w.next = true := decide_eq_true hmade
  rw [storeMachine_call draws hrt hallocated]
  unfold finalState outcome
  rw [run_enqueue_of_clean referenceQueue draws hown (List.forall_mem_nil _)]
  rfl

def firstEnqueued : World :=
  twoOpened.put 0 emptyRuntime
    (noteSession (drawsOf "oqi-1") (twoOpened.session emptyRuntime) 0)

theorem step_first :
    (storeMachine referenceQueue).step twoOpened
        (.call 0 (.enqueue 0) (drawsOf "oqi-1")) =
      (firstEnqueued,
        some (.returned (.ok (.item (enqueuedItem (drawsOf "oqi-1") 0))))) :=
  step_enqueue_note (drawsOf "oqi-1") rfl (by decide) rfl

def reloadedRun : List StoreInput :=
  [.call 0 (.enqueue 0) (drawsOf "oqi-1"), .reload 1,
    .call 1 denyNote (drawsOf "oqi-2")]

theorem stored_kept_reloaded :
    (storeMachine referenceQueue).Guarded StoreInput.Fresh twoOpened reloadedRun ∧
      ∀ e ∈ (storeMachine referenceQueue).trace twoOpened reloadedRun,
        Preserves e.before e.input e.output
          ((storeMachine referenceQueue).final twoOpened reloadedRun) := by
  refine ⟨?fresh, stored_kept referenceQueue twoOpened reloadedRun ?fresh⟩
  unfold reloadedRun
  rw [Machine.guarded_cons, Machine.guarded_cons, Machine.guarded_cons, step_first]
  refine ⟨?_, trivial, ?_, Machine.guarded_nil⟩
  · intro rt hrt
    obtain rfl := Option.some.inj hrt
    exact ⟨⟨[], rfl, rfl⟩, fun ⟨item, hitem, _⟩ => nomatch hitem⟩
  · have hrt : firstEnqueued.runtimes 1 = some emptyRuntime := rfl
    rw [storeMachine_reload hrt]
    intro rt hreloaded
    rw [World.put_runtimes_self] at hreloaded
    obtain rfl := Option.some.inj hreloaded
    rw [World.session_put]
    refine ⟨?_, fun ⟨item, _, hop, _⟩ => nomatch hop⟩
    have hfile : (firstEnqueued.session emptyRuntime).file =
        .json (.dict (viewPayload referenceQueue (enqueuedSession referenceQueue
          (drawsOf "oqi-1") (twoOpened.session emptyRuntime) 0).view)) := by
      rw [← queuePayload_eq]
      rfl
    have hown : ((twoOpened.session emptyRuntime).requests 0).AllClean :=
      noteRequest_allClean
    have hclean := (clean_enqueuedSession_iff referenceQueue (drawsOf "oqi-1")
      hown).mpr (List.forall_mem_nil _)
    rw [queuePayload_eq] at hclean
    exact upToDate_of_reload _ (load_view hfile (clean_view_iff.mp hclean))

def overwrittenRun : List StoreInput :=
  [.call 0 (.enqueue 0) (drawsOf "oqi-1"), .call 1 (.enqueue 1) (drawsOf "oqi-2")]

theorem step_second :
    (storeMachine referenceQueue).step firstEnqueued
        (.call 1 (.enqueue 1) (drawsOf "oqi-2")) =
      (firstEnqueued.put 1 emptyRuntime
          (noteSession (drawsOf "oqi-2") (firstEnqueued.session emptyRuntime) 1),
        some (.returned (.ok (.item (enqueuedItem (drawsOf "oqi-2") 1))))) :=
  step_enqueue_note (drawsOf "oqi-2") rfl (by decide : 1 < 2) rfl

theorem final_overwritten :
    (storeMachine referenceQueue).final twoOpened overwrittenRun =
      firstEnqueued.put 1 emptyRuntime
        (noteSession (drawsOf "oqi-2") (firstEnqueued.session emptyRuntime) 1) := by
  unfold overwrittenRun Machine.final Machine.final
  rw [step_first]
  simp only
  rw [step_second]
  rfl

/-- The item of the first runtime is not in the file that the second one saved. -/
theorem overwritten_not_kept :
    ¬ ∀ e ∈ (storeMachine referenceQueue).trace twoOpened overwrittenRun,
      Preserves e.before e.input e.output
        ((storeMachine referenceQueue).final twoOpened overwrittenRun) := by
  intro h
  rw [final_overwritten] at h
  have hfirst := h ((storeMachine referenceQueue).stepAt twoOpened
    (.call 0 (.enqueue 0) (drawsOf "oqi-1"))) List.mem_cons_self
  have hreturned : ((storeMachine referenceQueue).stepAt twoOpened
      (.call 0 (.enqueue 0) (drawsOf "oqi-1"))).output =
        some (.returned (.ok (.item (enqueuedItem (drawsOf "oqi-1") 0)))) :=
    congrArg Prod.snd step_first
  have hmem := hfirst.enqueued 0 0 (drawsOf "oqi-1") _ rfl hreturned
  have hnone : (firstEnqueued.session emptyRuntime).items = [] := rfl
  rw [World.put_file, ids_noteSession, hnone] at hmem
  exact absurd hmem (by decide)

end Hydrogenuine.OperatorQueue
