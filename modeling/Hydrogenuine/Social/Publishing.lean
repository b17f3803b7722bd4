import Hydrogenuine.Social.ReviewQueue

/-!
# What the review operations write

For every operation, what its accesses may be, given what its earlier accesses have told
it: which changes a write makes to the queue that was loaded, which control file pauses
publishing, and that an item is only posted where the control file was open.
-/

namespace Hydrogenuine.Social

open Support Hydrogenuine.Core

/-! ## What a process has learnt -/

def Operation.pauses : Operation → Bool
  | .pauseLivePublish _ _ => true
  | _ => false

def Operation.resumes : Operation → Bool
  | .resumeApprovedOnly _ => true
  | _ => false

def Operation.publishes : Operation → Bool
  | .publishNext _ _ => true
  | _ => false

/-- The operation of a process, and what its accesses have told it. -/
structure Knows where
  op : Operation
  /-- The control file as it was first loaded. -/
  control : Option Items := none
  /-- The queue as it was last loaded. -/
  queue : Option Queue := none
  /-- The digits that have been drawn since the last write. -/
  drawn : List String := []
  /-- What has been posted. -/
  posted : Option String := none
  /-- Whether the queue has been written since. -/
  marked : Bool := false
  /-- Whether a post has been tried. -/
  tried : Bool := false

namespace Knows

def sawControl (k : Knows) (control : Items) : Knows :=
  { k with control := k.control.or (some control) }

def sawQueue (k : Knows) (queue : Queue) : Knows := { k with queue := some queue }

def drew (k : Knows) (digits : String) : Knows := { k with drawn := digits :: k.drawn }

def wrote (k : Knows) : Knows := { k with drawn := [], marked := k.posted.isSome }

end Knows

def learns (k : Knows) : (a : Access) → Answer a → Knows
  | .loadControl, control => k.sawControl control
  | .saveControl _, _ => k
  | .loadQueue, queue => k.sawQueue queue
  | .writeQueue _, _ => k.wrote
  | .draw, digits => k.drew digits
  | .publish queueItemId accepted, _ =>
      { k with posted := if accepted then some queueItemId else k.posted, tried := true }

def Knows.owes (k : Knows) : Option String := if k.marked then none else k.posted

/-- Nothing has been posted. -/
structure Knows.Plain (k : Knows) : Prop where
  posted : k.posted = none
  unmarked : k.marked = false
  untried : k.tried = false

/-- Publishing is paused by the control file. -/
def Paused (control : Items) : Prop := flag control "live_publish_paused_for_review" = true

abbrev Run := Pool Access Answer PyError Result Knows Files

abbrev ReviewStep := Step Run (PoolInput Operation) (Option Access)

def reviewMachine (env : ReviewEnv) : Machine Run (PoolInput Operation) (Option Access) :=
  poolMachine (perform env.host) learns fun op => ⟨{ op }, op.program env⟩

/-! ## What an operation may write -/

/-- What a write may do to an item: a decision about a queued item, or the mark on the
item that the process has posted. -/
def ItemChange (k : Knows) (old new : Item) : Prop :=
  new.queueItemId = old.queueItemId ∧
    (new.status = old.status ∨
      old.status = .queued ∧ (new.status = .approved ∨ new.status = .denied) ∨
      k.owes = some old.queueItemId ∧ new.status = .published)

/-- What a write may do to the items that were loaded. -/
structure ItemsChange (k : Knows) (old new : List Item) : Prop where
  changes : ∃ changed added, new = changed ++ added ∧
    List.Forall₂ (ItemChange k) old changed ∧
      (added = [] ∨ ∃ item digits, added = [item] ∧ digits ∈ k.drawn ∧
        item.queueItemId = "sri-" ++ digits ∧ item.status = .queued)
  marks : ∀ item ∈ new, k.owes = some item.queueItemId → item.status = .published

def Queue.ids (queue : Queue) : List String := queue.items.map Item.queueItemId

def allows (k : Knows) : Access → Prop
  | .saveControl control => (k.op.pauses = true ∧ Paused control) ∨
      k.op.resumes = true ∧ ¬ Paused control
  | .writeQueue queue => ∃ old, k.queue = some old ∧
      (old.ids.Nodup → ItemsChange k old.items queue.items)
  | .publish _ _ => k.op.publishes = true ∧ k.Plain ∧
      ∃ control, k.control = some control ∧ ¬ Paused control
  | _ => True

/-- The program only makes accesses that are allowed. -/
abbrev Allowed {τ : Type} (k : Knows) (p : ReviewProgram τ) (Q : Knows → τ → Prop) : Prop :=
  p.Safe allows learns k Q

section Programs

variable {env : ReviewEnv} {k : Knows}

theorem allowed_loadControl {Q : Knows → Items → Prop}
    (h : ∀ control, Q (k.sawControl control) control) : Allowed k loadControl Q :=
  Program.safe_ask trivial h

theorem allowed_loadQueue {Q : Knows → Queue → Prop}
    (h : ∀ queue, Q (k.sawQueue queue) queue) : Allowed k loadQueue Q :=
  Program.safe_ask trivial h

theorem ItemChange.refl (item : Item) : ItemChange k item item := ⟨rfl, Or.inl rfl⟩

variable {item : Item} {f : Item → Item} {old : List Item} {id : String}

theorem forall₂_changeFirst {R : Item → Item → Prop}
    {items : List Item} (hrefl : ∀ item, R item item)
    (hfirst : ∀ item, items.find? (fun item => item.queueItemId = id) = some item →
      R item (f item)) : List.Forall₂ R items (changeFirst id f items) := by
  induction items with
  | nil => exact .nil
  | cons item items ih =>
      unfold changeFirst
      by_cases hid : item.queueItemId = id
      · rw [if_pos hid]
        refine .cons (hfirst item ?_) (List.forall₂_same.mpr fun item _ => hrefl item)
        simp [hid]
      · rw [if_neg hid]
        refine .cons (hrefl item) (ih fun item' hfind => hfirst item' ?_)
        simpa [hid] using hfind

theorem allowed_saveQueue {queue old : Queue} {Q : Knows → Unit → Prop}
    (hloaded : k.queue = some old)
    (hchange : old.ids.Nodup → ItemsChange k old.items queue.items)
    (hwritten : ∀ control, Q (k.sawControl control).wrote ()) :
    Allowed k (saveQueue env queue) Q := by
  unfold saveQueue
  apply Program.safe_bind
  apply allowed_loadControl
  intro control
  split
  · exact Program.safe_raised
  · exact Program.safe_ask ⟨old, hloaded, fun hnodup =>
      ⟨(hchange hnodup).changes, (hchange hnodup).marks⟩⟩ fun _ => hwritten control

theorem allowed_newReviewReceiptId {Q : Knows → String → Prop}
    (h : ∀ digits, Q (k.drew digits) ("srr-" ++ digits)) :
    Allowed k newReviewReceiptId Q :=
  Program.safe_bind (Program.safe_ask trivial h)

theorem allowed_newQueueItemId {Q : Knows → String → Prop}
    (h : ∀ digits, Q (k.drew digits) ("sri-" ++ digits)) : Allowed k newQueueItemId Q :=
  Program.safe_bind (Program.safe_ask trivial h)

theorem Knows.Plain.sawControl (h : k.Plain) (control : Items) :
    (k.sawControl control).Plain :=
  ⟨h.posted, h.unmarked, h.untried⟩

theorem Knows.Plain.sawQueue (h : k.Plain) (queue : Queue) : (k.sawQueue queue).Plain :=
  ⟨h.posted, h.unmarked, h.untried⟩

theorem Knows.Plain.drew (h : k.Plain) (digits : String) : (k.drew digits).Plain :=
  ⟨h.posted, h.unmarked, h.untried⟩

theorem Knows.Plain.wrote (h : k.Plain) : k.wrote.Plain :=
  ⟨h.posted, congrArg Option.isSome h.posted, h.untried⟩

theorem Knows.Plain.owes (h : k.Plain) : k.owes = none := by
  unfold Knows.owes
  rw [h.posted, ite_self]

theorem itemsChange_decision
    (hplain : k.Plain) (hfind : old.find? (fun item => item.queueItemId = id) = some item)
    (hqueued : item.status = .queued)
    (hf : ∀ item, (f item).queueItemId = item.queueItemId ∧
      ((f item).status = .approved ∨ (f item).status = .denied)) :
    ItemsChange k old (changeFirst id f old) where
  changes := by
    refine ⟨_, [], (List.append_nil _).symm, forall₂_changeFirst ItemChange.refl ?_,
      Or.inl rfl⟩
    intro item' hitem'
    obtain rfl := Option.some.inj (hitem'.symm.trans hfind)
    exact ⟨(hf item').1, Or.inr (Or.inl ⟨hqueued, (hf item').2⟩)⟩
  marks := fun item _ howes => by
    rw [hplain.owes] at howes
    cases howes

theorem queued_of_mayApprove (h : (itemMayApprove item).1 = true) :
    item.status = .queued := by
  unfold itemMayApprove at h
  by_contra hstatus
  rw [if_pos hstatus] at h
  cases h

theorem queued_of_mayDeny (h : (itemMayDeny item).1 = true) :
    item.status = .queued := by
  unfold itemMayDeny at h
  by_contra hstatus
  rw [if_pos hstatus] at h
  cases h

theorem allowed_approveItem (hplain : k.Plain) (id operatorRef : String) (stopped : Bool) :
    Allowed k (approveItem env id operatorRef stopped) fun k' _ => k'.Plain := by
  unfold approveItem
  cases stopped with
  | true => exact Program.safe_pure hplain
  | false =>
      apply Program.safe_bind
      apply allowed_loadQueue
      intro queue
      split
      next => exact Program.safe_pure ⟨hplain.posted, hplain.unmarked, hplain.untried⟩
      next item hfind =>
        split_ifs with hmay
        · exact Program.safe_pure ⟨hplain.posted, hplain.unmarked, hplain.untried⟩
        · rw [Bool.not_eq_true', Bool.not_eq_false] at hmay
          apply Program.safe_bind
          apply allowed_newReviewReceiptId
          intro receiptDigits
          apply Program.safe_bind
          apply allowed_newQueueItemId
          intro tokenDigits
          have hplain' := ((hplain.sawQueue queue).drew receiptDigits).drew tokenDigits
          apply Program.safe_bind
          refine allowed_saveQueue rfl (fun _ => ?_) fun control => ?_
          · exact itemsChange_decision hplain' hfind (queued_of_mayApprove hmay)
              fun _ => ⟨rfl, Or.inl rfl⟩
          · exact Program.safe_pure (hplain'.sawControl control).wrote

theorem allowed_denyItem (hplain : k.Plain) (id operatorRef : String) (stopped : Bool) :
    Allowed k (denyItem env id operatorRef stopped) fun k' _ => k'.Plain := by
  unfold denyItem
  cases stopped with
  | true => exact Program.safe_pure hplain
  | false =>
      apply Program.safe_bind
      apply allowed_loadQueue
      intro queue
      split
      next => exact Program.safe_pure ⟨hplain.posted, hplain.unmarked, hplain.untried⟩
      next item hfind =>
        split_ifs with hmay
        · exact Program.safe_pure ⟨hplain.posted, hplain.unmarked, hplain.untried⟩
        · rw [Bool.not_eq_true', Bool.not_eq_false] at hmay
          apply Program.safe_bind
          apply allowed_newReviewReceiptId
          intro receiptDigits
          have hplain' := (hplain.sawQueue queue).drew receiptDigits
          apply Program.safe_bind
          refine allowed_saveQueue rfl (fun _ => ?_) fun control => ?_
          · exact itemsChange_decision hplain' hfind (queued_of_mayDeny hmay)
              fun _ => ⟨rfl, Or.inr rfl⟩
          · exact Program.safe_pure (hplain'.sawControl control).wrote

theorem flag_updateControl_pause (control : Items) (reason now : String) :
    Paused (updateControl control
      [("allow_live_social_publish", .bool false),
        ("max_posts_total", .int 0),
        ("live_publish_paused_for_review", .bool true),
        ("approved_only_mode", .bool false),
        ("updated_at", .str now),
        ("pause_reason", .str reason)]) := by
  simp [Paused, flag, updateControl, PyVal.getItem_setItem, PyVal.truthy]

theorem itemsChange_same (hplain : k.Plain) : ItemsChange k old old where
  changes := ⟨old, [], (List.append_nil _).symm,
    List.forall₂_same.mpr fun item _ => ItemChange.refl item, Or.inl rfl⟩
  marks := fun item _ howes => by
    rw [hplain.owes] at howes
    cases howes

theorem allowed_pauseLivePublish
    (hplain : k.Plain) (hop : k.op.pauses = true) (reason now : String) :
    Allowed k (pauseLivePublish env reason now) fun k' _ => k'.Plain := by
  unfold pauseLivePublish
  apply Program.safe_bind
  apply allowed_loadControl
  intro control
  apply Program.safe_bind
  refine Program.safe_ask (Or.inl ⟨hop, flag_updateControl_pause control reason now⟩)
    fun _ => ?_
  apply Program.safe_bind
  apply allowed_loadQueue
  intro queue
  apply Program.safe_bind
  have hplain' := (hplain.sawControl control).sawQueue queue
  exact allowed_saveQueue rfl (fun _ => itemsChange_same hplain')
    fun control' => Program.safe_pure (hplain'.sawControl control').wrote

theorem flag_updateControl_resume (control : Items) (maxPosts : ℤ) (now : String) :
    ¬ Paused (updateControl control
      [("live_publish_paused_for_review", .bool false),
        ("approved_only_mode", .bool true),
        ("allow_live_social_publish", .bool true),
        ("max_posts_total", .int maxPosts),
        ("updated_at", .str now)]) := by
  simp [Paused, flag, updateControl, PyVal.getItem_setItem, PyVal.truthy]

theorem allowed_countOf {Q : Knows → ℤ → Prop} {value : PyVal} (h : ∀ count, Q k count) :
    Allowed k (countOf env value) Q := by
  unfold countOf
  split
  · exact Program.safe_pure (h _)
  · exact Program.safe_raised

theorem allowed_resumedMaxPosts (hplain : k.Plain) (hop : k.op.resumes = true)
    (control : Items) :
    Allowed k (resumedMaxPosts env control) fun k' _ => k'.Plain ∧ k'.op.resumes = true := by
  unfold resumedMaxPosts
  apply Program.safe_bind
  apply allowed_countOf
  intro maxPosts
  split_ifs with hpositive
  · exact Program.safe_pure ⟨hplain, hop⟩
  · apply Program.safe_bind
    apply allowed_loadControl
    intro _
    split
    · exact allowed_countOf fun _ => ⟨⟨hplain.posted, hplain.unmarked, hplain.untried⟩, hop⟩
    · exact Program.safe_pure ⟨⟨hplain.posted, hplain.unmarked, hplain.untried⟩, hop⟩

theorem allowed_resumeApprovedOnly
    (hplain : k.Plain) (hop : k.op.resumes = true) (now : String) :
    Allowed k (resumeApprovedOnly env now) fun k' _ => k'.Plain := by
  unfold resumeApprovedOnly
  apply Program.safe_bind
  apply allowed_loadControl
  intro control
  split_ifs with hconfirmed
  · exact Program.safe_pure ⟨hplain.posted, hplain.unmarked, hplain.untried⟩
  · apply Program.safe_bind
    refine Program.safe_mono (allowed_resumedMaxPosts (hplain.sawControl control) hop
      control) ?_
    rintro k' maxPosts ⟨hplain', hop'⟩
    apply Program.safe_bind
    refine Program.safe_ask
      (Or.inr ⟨hop', flag_updateControl_resume control maxPosts now⟩) fun _ => ?_
    apply Program.safe_bind
    apply allowed_loadQueue
    intro queue
    have hloaded := hplain'.sawQueue queue
    apply Program.safe_bind
    exact allowed_saveQueue rfl (fun _ => itemsChange_same hloaded)
      fun control' => Program.safe_pure (hloaded.sawControl control').wrote

theorem itemsChange_added {digits : String}
    (hplain : k.Plain) (hdrawn : digits ∈ k.drawn)
    (hid : item.queueItemId = "sri-" ++ digits) (hstatus : item.status = .queued) :
    ItemsChange k old (old ++ [item]) where
  changes := ⟨old, [item], rfl, List.forall₂_same.mpr fun item _ => ItemChange.refl item,
    Or.inr ⟨item, digits, rfl, hdrawn, hid, hstatus⟩⟩
  marks := fun item _ howes => by
    rw [hplain.owes] at howes
    cases howes

theorem allowed_enqueueFromDraft (hplain : k.Plain) (draft : Draft) (stopped : Bool) :
    Allowed k (enqueueFromDraft env draft stopped) fun k' _ => k'.Plain := by
  unfold enqueueFromDraft
  apply Program.safe_bind
  apply allowed_loadQueue
  intro queue
  split
  next => exact Program.safe_pure ⟨hplain.posted, hplain.unmarked, hplain.untried⟩
  next =>
    apply Program.safe_bind
    apply allowed_newQueueItemId
    intro digits
    have hdrew := (hplain.sawQueue queue).drew digits
    apply Program.safe_bind
    refine allowed_saveQueue rfl
      (fun _ => itemsChange_added hdrew List.mem_cons_self rfl rfl) fun control => ?_
    apply Program.safe_bind
    apply Program.safe_bind
    apply allowed_loadControl
    intro control'
    apply Program.safe_bind
    apply allowed_loadQueue
    intro queue'
    apply Program.safe_pure
    have hwritten := (((hdrew.sawControl control).wrote).sawControl control').sawQueue queue'
    split_ifs
    · apply Program.safe_bind
      refine Program.safe_mono (allowed_approveItem hwritten _ _ _) ?_
      intro k' result happroved
      split
      · apply Program.safe_bind
        apply allowed_loadQueue
        intro _
        exact Program.safe_pure (happroved.sawQueue _)
      · exact Program.safe_pure happroved
    · exact Program.safe_pure hwritten

theorem allowed_pickApprovedForPublish (hplain : k.Plain) (hfirst : k.control = none) :
    Allowed k pickApprovedForPublish fun k' item? =>
      k'.Plain ∧ k'.op = k.op ∧ ∀ item, item? = some item →
        ∃ control, k'.control = some control ∧ ¬ Paused control := by
  unfold pickApprovedForPublish isPublishPaused
  apply Program.safe_bind
  apply Program.safe_bind
  apply allowed_loadControl
  intro control
  apply Program.safe_bind
  apply allowed_loadQueue
  intro _
  apply Program.safe_pure
  split_ifs with hpaused
  · exact Program.safe_pure ⟨⟨hplain.posted, hplain.unmarked, hplain.untried⟩, rfl, nofun⟩
  · have hopen : ¬ Paused control := by
      intro h
      unfold Paused at h
      rw [h] at hpaused
      exact hpaused rfl
    unfold approvedOnlyMode
    apply Program.safe_bind
    apply Program.safe_bind
    apply allowed_loadControl
    intro _
    apply Program.safe_bind
    apply allowed_loadQueue
    intro _
    apply Program.safe_pure
    split_ifs
    · exact Program.safe_pure ⟨⟨hplain.posted, hplain.unmarked, hplain.untried⟩, rfl, nofun⟩
    · apply Program.safe_bind
      apply allowed_loadQueue
      intro _
      refine Program.safe_pure ⟨⟨hplain.posted, hplain.unmarked, hplain.untried⟩, rfl, fun _ _ => ?_⟩
      refine ⟨control, ?_, hopen⟩
      simp [Knows.sawControl, Knows.sawQueue, hfirst]

theorem changed_of_mem_changeFirst {items : List Item} (hnodup : (items.map Item.queueItemId).Nodup)
    (hmem : item ∈ changeFirst id f items) (hid : item.queueItemId = id) :
    ∃ item', item = f item' := by
  induction items with
  | nil => cases hmem
  | cons head items ih =>
      rw [List.map_cons, List.nodup_cons] at hnodup
      unfold changeFirst at hmem
      split_ifs at hmem with hhead
      · rcases List.mem_cons.mp hmem with rfl | hrest
        · exact ⟨head, rfl⟩
        · have hids : item.queueItemId ∈ items.map Item.queueItemId :=
            List.mem_map_of_mem hrest
          rw [hid, ← hhead] at hids
          exact absurd hids hnodup.1
      · rcases List.mem_cons.mp hmem with rfl | hrest
        · exact absurd hid hhead
        · exact ih hnodup.2 hrest

theorem itemsChange_mark {id ref : String} {old : Queue} (howes : k.owes = some id)
    (hnodup : old.ids.Nodup) :
    ItemsChange k old.items (changeFirst id (fun item =>
      { item with
        status := .published
        publishReceiptRef := some ref
        approvalHandle := none }) old.items) where
  changes := by
    refine ⟨_, [], (List.append_nil _).symm, forall₂_changeFirst ItemChange.refl ?_,
      Or.inl rfl⟩
    intro item hfind
    have hid : item.queueItemId = id := by simpa using List.find?_some hfind
    exact ⟨rfl, Or.inr (Or.inr ⟨hid ▸ howes, rfl⟩)⟩
  marks := fun item hitem howes' => by
    have hid : item.queueItemId = id := Option.some.inj (howes'.symm.trans howes)
    obtain ⟨item', rfl⟩ := changed_of_mem_changeFirst hnodup hitem hid
    rfl

theorem allowed_markItemPublished {id ref : String} (howes : k.owes = some id) :
    Allowed k (markItemPublished env id ref) fun _ _ => True := by
  unfold markItemPublished
  apply Program.safe_bind
  apply allowed_loadQueue
  intro queue
  split_ifs
  · exact allowed_saveQueue rfl (itemsChange_mark howes) fun _ => trivial
  · exact Program.safe_pure trivial

theorem allowed_publishNext (hplain : k.Plain) (hop : k.op.publishes = true)
    (hfirst : k.control = none) (accepted : Bool) (ref : String) :
    Allowed k (publishNext env accepted ref) fun _ _ => True := by
  unfold publishNext
  apply Program.safe_bind
  refine Program.safe_mono (allowed_pickApprovedForPublish hplain hfirst) ?_
  rintro k' item? ⟨hplain', hsame, hopen⟩
  split
  next => exact Program.safe_pure trivial
  next item =>
    apply Program.safe_bind
    refine Program.safe_ask ⟨hsame ▸ hop, hplain', hopen item rfl⟩ fun _ => ?_
    split_ifs with haccepted
    · apply Program.safe_bind
      refine Program.safe_mono (allowed_markItemPublished ?_) fun _ _ _ => trivial
      simp [Knows.owes, learns, haccepted, hplain'.unmarked]
    · exact Program.safe_pure trivial

theorem allowed_program (op : Operation) :
    Allowed { op } (op.program env) fun _ _ => True := by
  have hplain : ({ op } : Knows).Plain := ⟨rfl, rfl, rfl⟩
  cases op with
  | enqueueFromDraft draft stopped =>
      exact Program.safe_mono (allowed_enqueueFromDraft hplain draft stopped)
        fun _ _ _ => trivial
  | approveItem id operatorRef stopped =>
      exact Program.safe_mono (allowed_approveItem hplain id operatorRef stopped)
        fun _ _ _ => trivial
  | denyItem id operatorRef stopped =>
      exact Program.safe_mono (allowed_denyItem hplain id operatorRef stopped)
        fun _ _ _ => trivial
  | pauseLivePublish reason now =>
      exact Program.safe_mono (allowed_pauseLivePublish hplain rfl reason now)
        fun _ _ _ => trivial
  | resumeApprovedOnly now =>
      exact Program.safe_mono (allowed_resumeApprovedOnly hplain rfl now)
        fun _ _ _ => trivial
  | publishNext accepted ref => exact allowed_publishNext hplain rfl rfl accepted ref

end Programs

end Hydrogenuine.Social
