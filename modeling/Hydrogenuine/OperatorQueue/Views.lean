import Hydrogenuine.OperatorQueue.Refusals

/-!
# Queues by value

What a queue says, without the numbers of its request objects.  The stored payload of
a queue depends on this view only, and a runtime that loads the file has the view that
was stored, with request objects of its own.
-/

namespace Hydrogenuine.OperatorQueue

open Support Hydrogenuine.Core

/-! ## Views -/

namespace Session

def viewOf (s : Session) (item : QueueItem) : ReadItem :=
  ⟨item.queueItemId, s.requestOf item, item.previousItemRef⟩

def view (s : Session) : List ReadItem := s.items.map s.viewOf

/-- No two items share a request object, and all objects have been made. -/
structure Distinct (s : Session) : Prop where
  refs : (s.items.map QueueItem.request).Nodup
  allocated : ∀ item ∈ s.items, item.request < s.next

end Session

namespace ReadItem

def stored (v : ReadItem) : ReadItem := { v with request := v.request.stored }

def toPayload (host : Host) (v : ReadItem) : PyVal :=
  .dict (QueueItem.toPayload host ⟨v.queueItemId, 0, v.previousItemRef⟩ v.request)

end ReadItem

section Stored

theorem slice_slice (s : String) (n : ℕ) : slice (slice s 0 n) 0 n = slice s 0 n := by
  simp [slice, List.take_take]

theorem ActionRequest.body_stored (r : ActionRequest) : r.stored.body = r.body := by
  unfold ActionRequest.body ActionRequest.fields ActionRequest.stored
  simp only [slice_slice]

theorem ActionRequest.stored_stored (r : ActionRequest) :
    r.stored.stored = r.stored := by
  unfold ActionRequest.stored
  simp only [slice_slice]

theorem ReadItem.toPayload_stored (host : Host) (v : ReadItem) :
    v.stored.toPayload host = v.toPayload host := by
  have hrequest : v.request.stored.toPayload host = v.request.toPayload host := by
    rw [ActionRequest.toPayload, ActionRequest.body_stored]
    rfl
  unfold ReadItem.toPayload ReadItem.stored QueueItem.toPayload QueueItem.body
  simp only [hrequest]

theorem ActionRequest.allClean_stored_iff (r : ActionRequest) :
    r.stored.AllClean ↔ r.AllClean :=
  ⟨fun h => ⟨h.actionId, h.sourceAgent, h.decision, h.receipt, h.details⟩,
    fun h => ⟨h.actionId, h.sourceAgent, h.decision, h.receipt, h.details⟩⟩

end Stored

/-! ## The stored payload -/

section Payload

variable {env : QueueEnv} {s t : Session}

def viewPayload (env : QueueEnv) (view : List ReadItem) : Items :=
  [("schema", .str "operator-action-queue"),
    ("version", .str "operator-action-queue/1"),
    ("store_root", .str env.storeRoot),
    ("items", .list (view.map (ReadItem.toPayload env.host)))] ++ frozen

theorem queuePayload_eq : s.queuePayload env = viewPayload env s.view := by
  unfold Session.queuePayload viewPayload Session.view
  rw [List.map_map]
  rfl

theorem viewPayload_stored (view : List ReadItem) :
    viewPayload env (view.map ReadItem.stored) = viewPayload env view := by
  unfold viewPayload
  rw [List.map_map]
  have hsame : ReadItem.toPayload env.host ∘ ReadItem.stored =
      ReadItem.toPayload env.host :=
    funext fun v => ReadItem.toPayload_stored env.host v
  rw [hsame]

theorem mapM_fromPayload (view : List ReadItem) :
    (view.map (ReadItem.toPayload env.host)).mapM ReadItem.fromPayload =
      .ok (view.map ReadItem.stored) := by
  induction view with
  | nil => rfl
  | cons v view ih =>
      have hv : ReadItem.fromPayload (v.toPayload env.host) = .ok v.stored :=
        ReadItem.fromPayload_toPayload env.host
          ⟨v.queueItemId, 0, v.previousItemRef⟩ v.request
      rw [List.map_cons, List.mapM_cons, hv, ih]
      rfl

theorem readItems_viewPayload (view : List ReadItem) :
    readItems (.json (.dict (viewPayload env view))) =
      .ok (view.map ReadItem.stored) := by
  have hitems : PyVal.item? (viewPayload env view) "items" =
      some (.list (view.map (ReadItem.toPayload env.host))) := by
    simp [viewPayload, PyVal.item?, List.lookup_cons]
  rw [readItems, hitems]
  simp only
  rw [mapM_fromPayload]

theorem clean_view_iff :
    Clean (.dict (viewPayload env s.view)) ↔
      ∀ v ∈ s.view, v.request.AllClean ∧ Clean v.previousItemRef := by
  rw [← queuePayload_eq, Session.clean_queuePayload_iff, Session.view,
    List.forall_mem_map]
  rfl

end Payload

/-! ## Loading -/

section Loading

variable {env : QueueEnv} {s : Session}

theorem adopt_items (read : List ReadItem) :
    (s.adopt read).items.map QueueItem.request = List.range' s.next read.length := by
  unfold Session.adopt
  simp only [List.map_map]
  apply List.ext_getElem
  · simp
  · intro k _ _
    simp

theorem adopt_view (read : List ReadItem) : (s.adopt read).view = read := by
  apply List.ext_getElem
  · simp [Session.view, Session.adopt]
  · intro k _ hk
    have hnew : ¬ s.next + k < s.next := Nat.not_lt.mpr (Nat.le_add_right _ _)
    simp [Session.view, Session.adopt, Session.viewOf, Session.requestOf,
      List.getElem?_eq_getElem hk, hnew]

theorem adopt_distinct (read : List ReadItem) : (s.adopt read).Distinct := by
  constructor
  · rw [adopt_items]
    exact List.nodup_range'
  · intro item hitem
    have hmem : item.request ∈ (s.adopt read).items.map QueueItem.request :=
      List.mem_map_of_mem hitem
    rw [adopt_items, List.mem_range'_1] at hmem
    exact hmem.2

theorem load_view
    {view : List ReadItem}
    (hfile : s.file = .json (.dict (viewPayload env view)))
    (hclean : ∀ v ∈ view, v.request.AllClean ∧ Clean v.previousItemRef) :
    load env s = .ok ⟨⟩ (s.adopt (view.map ReadItem.stored)) := by
  unfold load
  rw [get_bind_apply, hfile, readItems_viewPayload, raising_bind_apply]
  simp only
  rw [raising_bind_apply]
  have hvalid : validatePayload env
      ((s.adopt (view.map ReadItem.stored)).queuePayload env) = .ok () := by
    refine refuseForbidden_eq_ok_iff.mpr ?_
    rw [queuePayload_eq, clean_view_iff, adopt_view, List.forall_mem_map]
    intro v hv
    exact ⟨(ActionRequest.allClean_stored_iff _).mpr (hclean v hv).1,
      (hclean v hv).2⟩
  rw [hvalid]
  rfl

theorem load_absent (hfile : s.file = .absent) :
    load env s = .ok ⟨⟩ (s.adopt []) := by
  unfold load
  rw [get_bind_apply, hfile, readItems, raising_bind_apply]
  simp only
  rw [raising_bind_apply]
  have hvalid : validatePayload env ((s.adopt []).queuePayload env) = .ok () := by
    refine refuseForbidden_eq_ok_iff.mpr ?_
    rw [queuePayload_eq, clean_view_iff, adopt_view]
    exact List.forall_mem_nil _
  rw [hvalid]
  rfl

end Loading

/-! ## What an operation does to the view -/

section Effects

variable {env : QueueEnv} {draws : Draws} {s : Session}

theorem mem_view_setRequest
    (hs : s.Distinct) {item : QueueItem} (hitem : item ∈ s.items)
    {r : ActionRequest} {t : Session} (hitems : t.items = s.items)
    (hrequests : t.requests = Function.update s.requests item.request r)
    {v : ReadItem} :
    v ∈ t.view ↔ v = ⟨item.queueItemId, r, item.previousItemRef⟩ ∨
      ∃ other ∈ s.items, other ≠ item ∧ v = s.viewOf other := by
  have hown : t.viewOf item = ⟨item.queueItemId, r, item.previousItemRef⟩ := by
    unfold Session.viewOf Session.requestOf
    rw [hrequests, Function.update_self]
  have hother : ∀ other ∈ s.items, other ≠ item → t.viewOf other = s.viewOf other := by
    intro other hmem hne
    have href : other.request ≠ item.request := fun h =>
      hne (List.inj_on_of_nodup_map hs.refs hmem hitem h)
    unfold Session.viewOf Session.requestOf
    rw [hrequests, Function.update_of_ne href]
  unfold Session.view
  rw [hitems, List.mem_map]
  constructor
  · rintro ⟨other, hmem, rfl⟩
    by_cases hsame : other = item
    · exact .inl (hsame ▸ hown)
    · exact .inr ⟨other, hmem, hsame, hother other hmem hsame⟩
  · rintro (rfl | ⟨other, hmem, hne, rfl⟩)
    · exact ⟨item, hitem, hown⟩
    · exact ⟨other, hmem, hother other hmem hne⟩

theorem view_setRequest_of_not_held
    {ref : ℕ} (hheld : ∀ item ∈ s.items, item.request ≠ ref) {r : ActionRequest}
    {t : Session} (hitems : t.items = s.items)
    (hrequests : t.requests = Function.update s.requests ref r) :
    t.view = s.view := by
  unfold Session.view
  rw [hitems]
  apply List.map_congr_left
  intro item hitem
  unfold Session.viewOf Session.requestOf
  rw [hrequests, Function.update_of_ne (hheld item hitem)]

end Effects

end Hydrogenuine.OperatorQueue
