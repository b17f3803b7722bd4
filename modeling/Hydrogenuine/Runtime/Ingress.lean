import Hydrogenuine.Runtime.Bus
import Hydrogenuine.Support.Machine

/-!
# The ingress queue

Over whole runs of submissions and polls: what becomes of every submitted draft.
A ledger beside the bus notes each draft that entered the queue, each eviction
with the queue it was made from, each draft that a poll turned into an event and
each report of dropped drafts.
-/

namespace Hydrogenuine.Runtime

open Support Hydrogenuine.Core

/-! ## Draining -/

/-- Emission accepts the draft: its type is registered, its payload is a
dictionary and holds nothing secret. -/
def Emittable (env : BusEnv) (draft : QueuedDraft) : Prop :=
  ∃ valid, Bus.validate env (.str draft.type) draft.payload = .ok valid

/-- The event carries what the draft says. -/
structure MadeFrom (draft : QueuedDraft) (event : Envelope) : Prop where
  type_eq : event.type = draft.type
  payload_eq : .dict event.payload = draft.payload
  source_eq : event.source = draft.source
  parents_eq : event.causalParents = draft.causalParents
  severity_eq : event.severity = draft.severity

variable {env : BusEnv}

theorem validate_ok {type payload : PyVal} {name : String}
    {items : List (String × PyVal)}
    (h : Bus.validate env type payload = .ok (name, items)) :
    type = .str name ∧ payload = .dict items ∧
      (env.registry.types name).isSome = true ∧
      env.scan.walkItems "payload" items = none := by
  unfold Bus.validate at h
  cases hinfo : env.registry.info type with
  | error e =>
      rw [hinfo] at h
      cases h
  | ok found =>
      rw [hinfo] at h
      have htype : type = .str found.1 ∧
          (env.registry.types found.1).isSome = true := by
        cases type with
        | str text =>
            cases hlookup : env.registry.types text with
            | none =>
                simp only [TypeRegistry.info, hlookup] at hinfo
                cases hinfo
            | some info =>
                simp only [TypeRegistry.info, hlookup] at hinfo
                obtain rfl := Except.ok.inj hinfo
                simp [hlookup]
        | _ => cases hinfo
      cases payload with
      | dict entries =>
          simp only [bind, Except.bind] at h
          split at h
          · cases h
          next hscan =>
            obtain ⟨rfl, rfl⟩ := Prod.mk.inj (Except.ok.inj h)
            exact ⟨htype.1, rfl, htype.2, hscan⟩
      | _ => cases h

theorem madeFrom_of_emitted {s : Bus} {draft : QueuedDraft} {event : Envelope}
    (h : Bus.Emitted env s (.str draft.type) draft.payload draft.source
      (.list draft.causalParents) draft.severity event) :
    MadeFrom draft event := by
  obtain ⟨htype, hpayload, -, -⟩ := validate_ok h.valid
  exact ⟨(PyVal.str.inj htype).symm, hpayload.symm, h.source_eq,
    (Except.ok.inj h.parents).symm, h.severity_eq⟩

/-- The next `n` appends succeed. -/
def Undisturbed (env : BusEnv) (s : Bus) (n : ℕ) : Prop :=
  ∀ i < n, env.appends (s.writes + i) = .done

theorem undisturbed_succ {s t : Bus} {n : ℕ} (hwrites : t.writes = s.writes + 1) :
    Undisturbed env s (n + 1) ↔
      env.appends s.writes = .done ∧ Undisturbed env t n := by
  unfold Undisturbed
  rw [hwrites]
  constructor
  · intro h
    refine ⟨h 0 (Nat.succ_pos n), fun i hi => ?_⟩
    rw [Nat.add_assoc, Nat.add_comm 1]
    exact h (i + 1) (Nat.succ_lt_succ hi)
  · rintro ⟨hfirst, hrest⟩ i hi
    cases i with
    | zero => exact hfirst
    | succ i =>
        rw [Nat.add_comm i, ← Nat.add_assoc]
        exact hrest i (Nat.lt_of_succ_lt_succ hi)

/-- The first drafts of a batch become events one by one, up to the first that
is refused or cannot be written; the queue is not looked at. -/
def Drains (env : BusEnv) (batch : List QueuedDraft) (s t : Bus) : Prop :=
  ∃ made lost events, batch = made ++ lost ∧
    List.Forall₂ MadeFrom made events ∧
    t.emitted = s.emitted ++ events ∧ t.queue = s.queue ∧
    t.droppedPending = s.droppedPending ∧
    t.arrivalCounter = s.arrivalCounter ∧
    (lost = [] ↔ (∀ draft ∈ batch, Emittable env draft) ∧
      Undisturbed env s batch.length)

theorem emitBatch_drains (batch : List QueuedDraft) (s : Bus) :
    Ends (Bus.emitBatch env batch) s (fun _ t => Drains env batch s t)
      (fun _ t => Drains env batch s t) := by
  induction batch generalizing s with
  | nil =>
      exact ends_pure ⟨[], [], [], rfl, .nil, by simp, rfl, rfl, rfl,
        by simp [Undisturbed]⟩
  | cons draft batch ih =>
      unfold Bus.emitBatch
      apply ends_bind
      refine ends_mono (Bus.emit_ends env s _ _ _ _ _) ?_ ?_
      · rintro event t ⟨hevent, hwritten, rfl⟩
        have hdrains {u : Bus} (h : Drains env batch (s.appended event) u) :
            Drains env (draft :: batch) s u := by
          obtain ⟨made, lost, events, hbatch, hmade, hemitted, hqueue, hdropped,
            harrivals, hlost⟩ := h
          refine ⟨draft :: made, lost, event :: events, by rw [hbatch]; rfl,
            .cons (madeFrom_of_emitted hevent) hmade, ?_, hqueue, hdropped,
            harrivals, ?_⟩
          · rw [hemitted]
            simp [Bus.appended]
          · have hsucc : Undisturbed env s (batch.length + 1) ↔
                env.appends s.writes = .done ∧
                  Undisturbed env (s.appended event) batch.length :=
              undisturbed_succ rfl
            rw [hlost, List.forall_mem_cons, List.length_cons, hsucc]
            exact ⟨fun h => ⟨⟨⟨_, hevent.valid⟩, h.1⟩, hwritten, h.2⟩,
              fun h => ⟨h.1.2, h.2.2⟩⟩
        apply ends_bind
        refine ends_mono (ih (s.appended event)) ?_ (fun _ _ => hdrains)
        intro events u hu
        exact ends_pure (hdrains hu)
      · have hstops {u : Bus} (hemitted : u.emitted = s.emitted)
            (hqueue : u.queue = s.queue)
            (hdropped : u.droppedPending = s.droppedPending)
            (harrivals : u.arrivalCounter = s.arrivalCounter)
            (hstop : ¬ (Emittable env draft ∧ env.appends s.writes = .done)) :
            Drains env (draft :: batch) s u := by
          refine ⟨[], draft :: batch, [], rfl, .nil, ?_, hqueue, hdropped,
            harrivals, ?_⟩
          · rw [hemitted, List.append_nil]
          · simp only [reduceCtorEq, false_iff]
            rintro ⟨hall, hundisturbed⟩
            exact hstop ⟨hall draft List.mem_cons_self,
              hundisturbed 0 (Nat.succ_pos _)⟩
        rintro e t (⟨hrefused, rfl⟩ | ⟨-, -, hrefused, -⟩ |
          ⟨event, written, -, hfailed, -, rfl⟩)
        · refine hstops rfl rfl rfl rfl ?_
          rintro ⟨⟨valid, hvalid⟩, -⟩
          cases hrefused.symm.trans hvalid
        · cases hrefused
        · refine hstops rfl rfl rfl rfl ?_
          rintro ⟨-, hdone⟩
          cases hfailed.symm.trans hdone

theorem walkItems_counts
    (scan : SecretScan) (path : String) (counts : List (String × ℕ)) :
    scan.walkItems path
      (counts.map fun entry => (entry.1, PyVal.int entry.2)) = none := by
  induction counts with
  | nil => simp [SecretScan.walkItems]
  | cons entry counts ih =>
      simp [SecretScan.walkItems, SecretScan.walk, ih]

theorem validate_droppedPayload
    (env : BusEnv) (dropped : List (String × ℕ)) :
    ∃ items, PyVal.dict items = Bus.droppedPayload dropped ∧
      Bus.validate env (.str "EVENTS_DROPPED") (Bus.droppedPayload dropped) =
        .ok ("EVENTS_DROPPED", items) := by
  have hspoken := env.registry.spoken "EVENTS_DROPPED" (by simp [loopTypes])
  obtain ⟨info, hinfo⟩ := Option.isSome_iff_exists.mp hspoken
  refine ⟨_, rfl, ?_⟩
  simp [Bus.validate, TypeRegistry.info, hinfo, Bus.droppedPayload, bind,
    Except.bind, SecretScan.walkItems, SecretScan.walk, walkItems_counts]

/-- What is reported before the drafts of a poll. -/
def Reports (dropped : List (String × ℕ)) (report : List Envelope) : Prop :=
  if dropped = [] then report = []
  else ∃ event, report = [event] ∧ event.type = "EVENTS_DROPPED" ∧
    .dict event.payload = Bus.droppedPayload dropped

def pollSize (s : Bus) : ℕ :=
  (if s.droppedPending = [] then 0 else 1) + s.queue.length

/-- Nothing stops a poll: every queued draft is accepted and every append
succeeds. -/
def PollsAll (env : BusEnv) (s : Bus) : Prop :=
  (∀ draft ∈ s.queue, Emittable env draft) ∧ Undisturbed env s (pollSize s)

/-- A poll empties the queue and the counts, reports the counts and emits the
drafts up to the first that is refused or cannot be written.  When the report
itself cannot be written nothing is emitted. -/
def Polls (env : BusEnv) (s t : Bus) : Prop :=
  ∃ report made lost events,
    s.queue.insertionSort (fun a b => a.arrival ≤ b.arrival) = made ++ lost ∧
    List.Forall₂ MadeFrom made events ∧
    (Reports s.droppedPending report ∨
      s.droppedPending ≠ [] ∧ report = [] ∧ events = []) ∧
    t.emitted = s.emitted ++ (report ++ events) ∧ t.queue = [] ∧
    t.droppedPending = [] ∧ t.arrivalCounter = s.arrivalCounter ∧
    (Reports s.droppedPending report ∧ lost = [] ↔ PollsAll env s)

theorem polls_of_drains {s q t : Bus} {report : List Envelope}
    (h : Drains env
      (s.queue.insertionSort fun a b => a.arrival ≤ b.arrival) q t)
    (hreport : Reports s.droppedPending report)
    (hemitted : q.emitted = s.emitted ++ report) (hqueue : q.queue = [])
    (hdropped : q.droppedPending = [])
    (harrivals : q.arrivalCounter = s.arrivalCounter)
    (hwrites : Undisturbed env s (pollSize s) ↔
      Undisturbed env q s.queue.length) :
    Polls env s t := by
  obtain ⟨made, lost, events, hbatch, hmade, hemitted', hqueue', hdropped',
    harrivals', hlost⟩ := h
  refine ⟨report, made, lost, events, hbatch, hmade, .inl hreport, ?_,
    hqueue'.trans hqueue, hdropped'.trans hdropped,
    harrivals'.trans harrivals, ?_⟩
  · rw [hemitted', hemitted, List.append_assoc]
  · have hperm := List.perm_insertionSort
      (fun a b : QueuedDraft => a.arrival ≤ b.arrival) s.queue
    have hall : (∀ draft ∈
        s.queue.insertionSort (fun a b => a.arrival ≤ b.arrival),
          Emittable env draft) ↔ ∀ draft ∈ s.queue, Emittable env draft :=
      ⟨fun h draft hdraft => h draft (hperm.mem_iff.mpr hdraft),
        fun h draft hdraft => h draft (hperm.mem_iff.mp hdraft)⟩
    rw [hlost, hall, hperm.length_eq, ← hwrites]
    exact ⟨fun h => h.2, fun h => ⟨hreport, h⟩⟩

theorem poll_polls (env : BusEnv) (s : Bus) :
    Ends (Bus.poll env) s (fun _ t => Polls env s t)
      (fun _ t => Polls env s t) := by
  unfold Bus.poll
  apply ends_bind
  apply ends_get
  split_ifs with hidle hnone
  · obtain ⟨hqueue, hdropped⟩ : s.queue = [] ∧ s.droppedPending = [] := by
      simpa using hidle
    refine ends_pure ⟨[], [], [], [], ?_, .nil, ?_, ?_, hqueue, hdropped, rfl,
      ?_⟩
    · rw [hqueue]
      rfl
    · simp [Reports, hdropped]
    · simp
    · simp [Reports, PollsAll, Undisturbed, pollSize, hqueue, hdropped]
  · have hdropped : s.droppedPending = [] := List.isEmpty_iff.mp hnone
    apply ends_bind
    apply ends_set
    have hreport : Reports s.droppedPending [] := by simp [Reports, hdropped]
    have hpolls {t : Bus} (h : Drains env
        (s.queue.insertionSort fun a b => a.arrival ≤ b.arrival)
        { s with queue := [], droppedPending := [] } t) : Polls env s t := by
      refine polls_of_drains h hreport (List.append_nil _).symm rfl rfl rfl ?_
      rw [pollSize, if_pos hdropped, Nat.zero_add]
      exact Iff.rfl
    exact ends_mono (emitBatch_drains _ _) (fun _ _ => hpolls)
      (fun _ _ => hpolls)
  · have hdropped : s.droppedPending ≠ [] := fun h => hnone (by simp [h])
    have hsize : pollSize s = s.queue.length + 1 := by
      rw [pollSize, if_neg hdropped, Nat.add_comm]
    obtain ⟨items, hitems, hvalid⟩ :=
      validate_droppedPayload env s.droppedPending
    apply ends_bind
    apply ends_set
    apply ends_bind
    refine ends_mono (Bus.emit_ends env _ _ _ _ _ _) ?_ ?_
    · rintro event t ⟨hevent, hwritten, rfl⟩
      obtain ⟨htype, hpayload⟩ :=
        Prod.mk.inj (Except.ok.inj (hvalid.symm.trans hevent.valid))
      have hreport : Reports s.droppedPending [event] := by
        rw [Reports, if_neg hdropped]
        exact ⟨event, rfl, htype.symm, by rw [← hpayload, hitems]⟩
      have hpolls {t : Bus} (h : Drains env
          (s.queue.insertionSort fun a b => a.arrival ≤ b.arrival)
          (Bus.appended { s with queue := [], droppedPending := [] } event) t) :
          Polls env s t := by
        refine polls_of_drains h hreport rfl rfl rfl rfl ?_
        have hsucc : Undisturbed env s (s.queue.length + 1) ↔
            env.appends s.writes = .done ∧
              Undisturbed env
                (Bus.appended { s with queue := [], droppedPending := [] } event)
                s.queue.length :=
          undisturbed_succ rfl
        rw [hsize, hsucc]
        exact ⟨fun h => h.2, fun h => ⟨hwritten, h⟩⟩
      apply ends_bind
      refine ends_mono (emitBatch_drains _ _) ?_ (fun _ _ => hpolls)
      intro events u hu
      exact ends_pure (hpolls hu)
    · rintro e t (⟨hrefused, -⟩ | ⟨-, -, hrefused, -⟩ |
        ⟨event, written, -, hfailed, -, rfl⟩)
      · cases hvalid.symm.trans hrefused
      · cases hrefused
      · refine ⟨[], [], _, [], rfl, .nil, .inr ⟨hdropped, rfl, rfl⟩, ?_, rfl,
          rfl, rfl, ?_⟩
        · exact (List.append_nil _).symm
        · constructor
          · rintro ⟨hreport, -⟩
            rw [Reports, if_neg hdropped] at hreport
            obtain ⟨_, hnil, -⟩ := hreport
            cases hnil
          · rintro ⟨-, hundisturbed⟩
            have hdone := hundisturbed 0 (by omega)
            cases hfailed.symm.trans hdone

/-! ## Evicting -/

theorem foldl_victim
    (rest : List QueuedDraft) (first : QueuedDraft) :
    let victim := rest.foldl
      (fun victim q => if Bus.dropsBefore victim q then q else victim) first
    victim ∈ first :: rest ∧
      ∀ q ∈ first :: rest, ¬ Bus.dropsBefore victim q := by
  induction rest generalizing first with
  | nil =>
      simp [Bus.dropsBefore]
  | cons q rest ih =>
      simp only [List.foldl_cons]
      split_ifs with hdrops
      · obtain ⟨hmem, hlowest⟩ := ih q
        refine ⟨List.mem_cons_of_mem _ hmem, ?_⟩
        intro p hp
        rcases List.mem_cons.mp hp with rfl | hp
        · have hq := hlowest q List.mem_cons_self
          unfold Bus.dropsBefore at hdrops hq ⊢
          omega
        · exact hlowest p hp
      · obtain ⟨hmem, hlowest⟩ := ih first
        refine ⟨?_, ?_⟩
        · rcases List.mem_cons.mp hmem with hmem | hmem
          · rw [hmem]
            exact List.mem_cons_self
          · exact List.mem_cons_of_mem _ (List.mem_cons_of_mem _ hmem)
        · intro p hp
          rcases List.mem_cons.mp hp with rfl | hp
          · exact hlowest p List.mem_cons_self
          · rcases List.mem_cons.mp hp with rfl | hp
            · have hfirst := hlowest first List.mem_cons_self
              unfold Bus.dropsBefore at hdrops hfirst ⊢
              omega
            · exact hlowest p (List.mem_cons_of_mem _ hp)

theorem victimOf_spec
    {queue : List QueuedDraft} {victim : QueuedDraft}
    (h : Bus.victimOf queue = some victim) :
    victim ∈ queue ∧ ∀ q ∈ queue, victim.priority ≤ q.priority := by
  cases queue with
  | nil => cases h
  | cons first rest =>
      obtain rfl := Option.some.inj h
      obtain ⟨hmem, hlowest⟩ := foldl_victim rest first
      refine ⟨hmem, fun q hq => ?_⟩
      by_contra hlt
      exact hlowest q hq (Or.inl (not_le.mp hlt))

theorem perm_cons_filter_arrival
    {queue : List QueuedDraft} {victim : QueuedDraft}
    (hdistinct : (queue.map QueuedDraft.arrival).Nodup)
    (hmem : victim ∈ queue) :
    queue.Perm
      (victim :: queue.filter fun q => q.arrival ≠ victim.arrival) := by
  induction queue with
  | nil => cases hmem
  | cons first rest ih =>
      obtain ⟨hfirst, hrest⟩ := List.nodup_cons.mp hdistinct
      rcases List.mem_cons.mp hmem with rfl | hmem
      · have hall : rest.filter (fun q => q.arrival ≠ victim.arrival) = rest := by
          rw [List.filter_eq_self]
          intro q hq
          have hne : q.arrival ≠ victim.arrival := fun heq =>
            hfirst (heq ▸ List.mem_map_of_mem hq)
          simpa using hne
        rw [List.filter_cons_of_neg (by simp), hall]
      · have hne : first.arrival ≠ victim.arrival := fun heq =>
          hfirst (heq ▸ List.mem_map_of_mem hmem)
        rw [List.filter_cons_of_pos (by simpa using hne)]
        exact ((ih hrest hmem).cons first).trans (List.Perm.swap _ _ _)

/-! ## The ledger -/

structure Eviction where
  draft : QueuedDraft
  queue : List QueuedDraft

structure Ledger where
  submitted : List QueuedDraft
  evictions : List Eviction
  drained : List (QueuedDraft × Envelope)
  reported : List (List (String × ℕ))

structure IngressState where
  bus : Bus
  ledger : Ledger

inductive IngressOp where
  | submit (type : String) (payload : PyVal) (source : String)
      (causalParents : List PyVal) (severity : PyVal)
  | poll

namespace Ledger

def noteSubmit
    (capacity : ℕ) (ledger : Ledger) (queued : Bus) (draft : QueuedDraft) :
    Ledger :=
  { ledger with
    submitted := ledger.submitted ++ [draft]
    evictions := ledger.evictions ++
      if capacity < queued.queue.length then
        (Bus.victimOf queued.queue).toList.map fun victim =>
          ⟨victim, queued.queue⟩
      else [] }

/-- Note what a poll emitted: the report, if there was something to report, and
then the drafts in the order of their arrival. -/
def notePoll (ledger : Ledger) (s t : Bus) : Ledger :=
  let events := t.emitted.drop s.emitted.length
  let reports := if s.droppedPending = [] then [] else events.take 1
  { ledger with
    reported := ledger.reported ++ reports.map fun _ => s.droppedPending
    drained := ledger.drained ++
      (s.queue.insertionSort fun a b => a.arrival ≤ b.arrival).zip
        (events.drop reports.length) }

end Ledger

def IngressState.perform (env : BusEnv) (s : IngressState) :
    IngressOp → IngressState
  | .submit type payload source causalParents severity =>
      { bus := finalState
          (Bus.submit env type payload source causalParents severity) s.bus
        ledger :=
          match env.registry.types type with
          | none => s.ledger
          | some info =>
              let draft := Bus.queuedDraft s.bus type info payload source
                causalParents severity
              s.ledger.noteSubmit env.queueCapacity
                (Bus.enqueue s.bus draft) draft }
  | .poll =>
      let t := finalState (Bus.poll env) s.bus
      { bus := t, ledger := s.ledger.notePoll s.bus t }

def ingressMachine (env : BusEnv) : Machine IngressState IngressOp Unit where
  step s op := (s.perform env op, ())

def IngressState.fresh : IngressState := ⟨Bus.fresh, ⟨[], [], [], []⟩⟩

def countOf (type : String) (counts : List (String × ℕ)) : ℕ :=
  (lookupEntry type counts).getD 0

/-- Every draft that entered the queue was turned into one event, is still
queued, or was dropped; what was dropped is counted, and reported or about to be
reported; the queue keeps to its capacity, and a dropped draft had the lowest
priority in the queue. -/
structure IngressKept (env : BusEnv) (s : IngressState) : Prop where
  accounted : s.ledger.submitted.Perm
    (s.ledger.drained.map Prod.fst ++
      (s.bus.queue ++ s.ledger.evictions.map Eviction.draft))
  once : (s.ledger.submitted.map QueuedDraft.arrival).Nodup
  genuine : ∀ pair ∈ s.ledger.drained, MadeFrom pair.1 pair.2
  logged : (s.ledger.drained.map Prod.snd).Sublist s.bus.emitted
  reports : ∀ counts ∈ s.ledger.reported, ∃ event ∈ s.bus.emitted,
    event.type = "EVENTS_DROPPED" ∧
      .dict event.payload = Bus.droppedPayload counts
  counted : ∀ type,
    (s.ledger.evictions.filter fun e => e.draft.type = type).length =
      countOf type s.bus.droppedPending +
        (s.ledger.reported.map (countOf type)).sum
  settled : (s.perform env .poll).bus.droppedPending = []
  bounded : s.bus.queue.length ≤ env.queueCapacity
  lowest : ∀ e ∈ s.ledger.evictions, ∀ q ∈ e.queue,
    e.draft.priority ≤ q.priority

/-! ## The invariant -/

def IngressState.tally (s : IngressState) : ℕ :=
  s.ledger.drained.length + s.bus.queue.length + s.ledger.evictions.length

def IngressState.droppedOf (s : IngressState) (type : String) : ℕ :=
  (s.ledger.evictions.filter fun e => e.draft.type = type).length

def IngressState.countedOf (s : IngressState) (type : String) : ℕ :=
  countOf type s.bus.droppedPending + (s.ledger.reported.map (countOf type)).sum

/-- What holds of every run, whether drafts are refused or not. -/
structure IngressInv (s : IngressState) : Prop where
  arrived : ∀ q ∈ s.bus.queue, q.arrival ≤ s.bus.arrivalCounter
  distinct : (s.bus.queue.map QueuedDraft.arrival).Nodup
  numbered : s.ledger.submitted.map QueuedDraft.arrival =
    List.range' 1 s.bus.arrivalCounter
  genuine : ∀ pair ∈ s.ledger.drained, MadeFrom pair.1 pair.2
  logged : (s.ledger.drained.map Prod.snd).Sublist s.bus.emitted
  reports : ∀ counts ∈ s.ledger.reported, ∃ event ∈ s.bus.emitted,
    event.type = "EVENTS_DROPPED" ∧
      .dict event.payload = Bus.droppedPayload counts
  lowest : ∀ e ∈ s.ledger.evictions, ∀ q ∈ e.queue,
    e.draft.priority ≤ q.priority
  pending : s.bus.droppedPending ≠ [] →
    ∃ type, 0 < countOf type s.bus.droppedPending
  tally_le : s.tally ≤ s.ledger.submitted.length
  countedOf_le : ∀ type, s.countedOf type ≤ s.droppedOf type

def Lossless (s : IngressState) : Prop :=
  s.tally = s.ledger.submitted.length ∧
    ∀ type, s.droppedOf type = s.countedOf type

def Accounted (s : IngressState) : Prop :=
  s.ledger.submitted.Perm
    (s.ledger.drained.map Prod.fst ++
      (s.bus.queue ++ s.ledger.evictions.map Eviction.draft))

theorem tally_of_accounted {s : IngressState} (h : Accounted s) :
    s.tally = s.ledger.submitted.length := by
  rw [h.length_eq, IngressState.tally]
  simp only [List.length_append, List.length_map]
  omega

theorem countOf_countUp (type k : String) (counts : List (String × ℕ)) :
    countOf type (Bus.countUp k counts) =
      countOf type counts + if k = type then 1 else 0 := by
  unfold countOf Bus.countUp
  rw [lookupEntry_assignEntry]
  by_cases h : type = k
  · simp [h]
  · simp [h, Ne.symm h]

theorem finalState_submit {type : String} {info : EventTypeInfo}
    (hinfo : env.registry.types type = some info) (s : Bus) (payload : PyVal)
    (source : String) (causalParents : List PyVal) (severity : PyVal) :
    finalState (Bus.submit env type payload source causalParents severity) s =
      let queued := Bus.enqueue s
        (Bus.queuedDraft s type info payload source causalParents severity)
      if env.queueCapacity < queued.queue.length then Bus.evict queued
      else queued := by
  have hends : Ends
      (Bus.submit env type payload source causalParents severity) s
      (fun _ t => t =
        let queued := Bus.enqueue s
          (Bus.queuedDraft s type info payload source causalParents severity)
        if env.queueCapacity < queued.queue.length then Bus.evict queued
        else queued)
      (fun _ _ => False) := by
    unfold Bus.submit
    simp only [TypeRegistry.info, hinfo]
    apply ends_bind
    apply ends_pure
    apply ends_bind
    apply ends_get
    dsimp only
    split_ifs with hfull
    · apply ends_bind
      apply ends_set
      exact ends_pure rfl
    · apply ends_bind
      apply ends_set
      exact ends_pure rfl
  rcases hends.cases with ⟨-, -, hfinal⟩ | ⟨-, -, hfalse⟩
  · exact hfinal
  · exact hfalse.elim

theorem finalState_submit_unknown {type : String} (hinfo : env.registry.types type = none)
    (s : Bus) (payload : PyVal) (source : String) (causalParents : List PyVal)
    (severity : PyVal) :
    finalState (Bus.submit env type payload source causalParents severity) s =
      s := by
  have hends : Ends
      (Bus.submit env type payload source causalParents severity) s
      (fun _ _ => False) (fun _ t => t = s) := by
    unfold Bus.submit
    simp only [TypeRegistry.info, hinfo]
    apply ends_bind
    exact ends_throw rfl
  rcases hends.cases with ⟨-, -, hfalse⟩ | ⟨-, -, hfinal⟩
  · exact hfalse.elim
  · exact hfinal

/-! ### Submissions -/

section Enqueue

variable {s : IngressState} {draft victim : QueuedDraft}

def IngressState.enqueued (s : IngressState) (draft : QueuedDraft) :
    IngressState where
  bus := Bus.enqueue s.bus draft
  ledger := { s.ledger with submitted := s.ledger.submitted ++ [draft] }

def IngressState.evicted (s : IngressState) (victim : QueuedDraft) :
    IngressState where
  bus :=
    { s.bus with
      queue := s.bus.queue.filter fun q => q.arrival ≠ victim.arrival
      droppedPending := Bus.countUp victim.type s.bus.droppedPending }
  ledger :=
    { s.ledger with
      evictions := s.ledger.evictions ++ [⟨victim, s.bus.queue⟩] }

@[simp] theorem tally_enqueued :
    (s.enqueued draft).tally = s.tally + 1 := by
  simp only [IngressState.tally, IngressState.enqueued, Bus.enqueue,
    List.length_append, List.length_singleton]
  omega

theorem lossless_enqueued :
    Lossless (s.enqueued draft) ↔ Lossless s := by
  unfold Lossless
  have hlength : (s.enqueued draft).ledger.submitted.length =
      s.ledger.submitted.length + 1 :=
    List.length_append
  rw [tally_enqueued, hlength, Nat.add_right_cancel_iff]
  exact Iff.rfl

theorem ingressInv_enqueued
    (hinv : IngressInv s)
    (harrival : draft.arrival = s.bus.arrivalCounter + 1) :
    IngressInv (s.enqueued draft) where
  arrived := by
    intro q hq
    rcases List.mem_append.mp hq with hq | hq
    · have hold := hinv.arrived q hq
      change q.arrival ≤ s.bus.arrivalCounter + 1
      omega
    · rw [List.mem_singleton.mp hq, harrival]
      exact le_refl _
  distinct := by
    change ((s.bus.queue ++ [draft]).map QueuedDraft.arrival).Nodup
    rw [List.map_append, List.nodup_append]
    refine ⟨hinv.distinct, by simp, ?_⟩
    intro a ha b hb
    obtain ⟨q, hq, rfl⟩ := List.mem_map.mp ha
    rw [List.map_singleton, List.mem_singleton] at hb
    have hold := hinv.arrived q hq
    omega
  numbered := by
    change (s.ledger.submitted ++ [draft]).map QueuedDraft.arrival =
      List.range' 1 (s.bus.arrivalCounter + 1)
    rw [List.map_append, hinv.numbered, List.map_singleton, harrival,
      List.range'_1_concat, Nat.add_comm 1]
  genuine := hinv.genuine
  logged := hinv.logged
  reports := hinv.reports
  lowest := hinv.lowest
  pending := hinv.pending
  tally_le := by
    have htally := hinv.tally_le
    change _ ≤ (s.ledger.submitted ++ [draft]).length
    rw [tally_enqueued, List.length_append, List.length_singleton]
    omega
  countedOf_le := hinv.countedOf_le

theorem accounted_enqueued (h : Accounted s) :
    Accounted (s.enqueued draft) := by
  change (s.ledger.submitted ++ [draft]).Perm
    (s.ledger.drained.map Prod.fst ++
      ((s.bus.queue ++ [draft]) ++ s.ledger.evictions.map Eviction.draft))
  have hmove : (s.bus.queue ++ [draft] ++
      s.ledger.evictions.map Eviction.draft).Perm
      (s.bus.queue ++ s.ledger.evictions.map Eviction.draft ++ [draft]) := by
    rw [List.append_assoc, List.append_assoc]
    exact List.perm_append_comm.append_left _
  refine (h.append_right [draft]).trans ?_
  rw [List.append_assoc]
  exact (hmove.symm).append_left _

theorem length_filter_arrival
    (hinv : IngressInv s) (hvictim : victim ∈ s.bus.queue) :
    (s.evicted victim).bus.queue.length + 1 = s.bus.queue.length := by
  have hperm := perm_cons_filter_arrival hinv.distinct hvictim
  rw [hperm.length_eq, List.length_cons]
  rfl

theorem tally_evicted
    (hinv : IngressInv s) (hvictim : victim ∈ s.bus.queue) :
    (s.evicted victim).tally = s.tally := by
  have hqueue := length_filter_arrival hinv hvictim
  have hevictions : (s.evicted victim).ledger.evictions.length =
      s.ledger.evictions.length + 1 :=
    List.length_append
  have hdrained : (s.evicted victim).ledger.drained = s.ledger.drained := rfl
  unfold IngressState.tally
  rw [hevictions, hdrained]
  omega

theorem droppedOf_evicted (type : String) :
    (s.evicted victim).droppedOf type =
      s.droppedOf type + if victim.type = type then 1 else 0 := by
  unfold IngressState.droppedOf IngressState.evicted
  rw [List.filter_append, List.length_append]
  split_ifs with htype
  · simp [htype]
  · simp [htype]

theorem countedOf_evicted (type : String) :
    (s.evicted victim).countedOf type =
      s.countedOf type + if victim.type = type then 1 else 0 := by
  have hcount := countOf_countUp type victim.type s.bus.droppedPending
  change countOf type (Bus.countUp victim.type s.bus.droppedPending) +
    (s.ledger.reported.map (countOf type)).sum = _
  rw [hcount, IngressState.countedOf]
  omega

theorem lossless_evicted
    (hinv : IngressInv s) (hvictim : victim ∈ s.bus.queue) :
    Lossless (s.evicted victim) ↔ Lossless s := by
  unfold Lossless
  rw [tally_evicted hinv hvictim]
  refine and_congr Iff.rfl (forall_congr' fun type => ?_)
  rw [droppedOf_evicted, countedOf_evicted, Nat.add_right_cancel_iff]

theorem ingressInv_evicted
    (hinv : IngressInv s) (hvictim : Bus.victimOf s.bus.queue = some victim) :
    IngressInv (s.evicted victim) where
  arrived q hq := hinv.arrived q (List.mem_filter.mp hq).1
  distinct := hinv.distinct.sublist (List.filter_sublist.map _)
  numbered := hinv.numbered
  genuine := hinv.genuine
  logged := hinv.logged
  reports := hinv.reports
  lowest := by
    intro e he q hq
    rcases List.mem_append.mp he with he | he
    · exact hinv.lowest e he q hq
    · rw [List.mem_singleton.mp he] at hq ⊢
      exact (victimOf_spec hvictim).2 q hq
  pending := by
    intro _
    refine ⟨victim.type, ?_⟩
    change 0 < countOf _ (Bus.countUp _ _)
    rw [countOf_countUp, if_pos rfl]
    exact Nat.succ_pos _
  tally_le := by
    rw [tally_evicted hinv (victimOf_spec hvictim).1]
    exact hinv.tally_le
  countedOf_le type := by
    rw [droppedOf_evicted, countedOf_evicted]
    exact Nat.add_le_add_right (hinv.countedOf_le type) _

theorem accounted_evicted
    (hinv : IngressInv s) (hvictim : victim ∈ s.bus.queue)
    (h : Accounted s) :
    Accounted (s.evicted victim) := by
  have hperm := perm_cons_filter_arrival hinv.distinct hvictim
  have hmove : (s.bus.queue ++ s.ledger.evictions.map Eviction.draft).Perm
      ((s.evicted victim).bus.queue ++
        (s.evicted victim).ledger.evictions.map Eviction.draft) := by
    refine (hperm.append_right _).trans ?_
    have hevictions : (s.evicted victim).ledger.evictions.map Eviction.draft =
        s.ledger.evictions.map Eviction.draft ++ [victim] :=
      List.map_append
    rw [hevictions, ← List.append_assoc]
    exact (List.perm_append_singleton _ _).symm
  exact h.trans (hmove.append_left _)

end Enqueue

/-- What a submission comes to: it is refused, the draft is queued, or the draft
is queued and the victim dropped. -/
theorem perform_submit
    (env : BusEnv) (s : IngressState) (type : String) (payload : PyVal)
    (source : String) (causalParents : List PyVal) (severity : PyVal) :
    let t := s.perform env (.submit type payload source causalParents severity)
    t = s ∨ ∃ draft, draft.arrival = s.bus.arrivalCounter + 1 ∧
      ((s.enqueued draft).bus.queue.length ≤ env.queueCapacity ∧
          t = s.enqueued draft ∨
        ∃ victim, Bus.victimOf (s.enqueued draft).bus.queue = some victim ∧
          t = (s.enqueued draft).evicted victim) := by
  dsimp only [IngressState.perform]
  cases hinfo : env.registry.types type with
  | none =>
      left
      rw [finalState_submit_unknown hinfo]
  | some info =>
      right
      refine ⟨Bus.queuedDraft s.bus type info payload source causalParents
        severity, rfl, ?_⟩
      rw [finalState_submit hinfo]
      dsimp only
      generalize Bus.queuedDraft s.bus type info payload source causalParents
        severity = draft
      split_ifs with hfull
      · right
        obtain ⟨victim, hvictim⟩ :
            ∃ victim, Bus.victimOf (s.bus.enqueue draft).queue = some victim := by
          cases hqueue : (s.bus.enqueue draft).queue with
          | nil => simp [Bus.enqueue] at hqueue
          | cons first rest => exact ⟨_, rfl⟩
        refine ⟨victim, hvictim, ?_⟩
        simp only [Bus.evict, Ledger.noteSubmit, hvictim, if_pos hfull]
        rfl
      · left
        refine ⟨not_lt.mp hfull, ?_⟩
        simp only [Ledger.noteSubmit, if_neg hfull, List.append_nil]
        rfl

/-! ### Polls -/

/-- A poll together with its entries in the ledger. -/
structure PollNoted (env : BusEnv) (s t : IngressState)
    (reports : List (List (String × ℕ))) (made lost : List QueuedDraft)
    (events : List Envelope) : Prop where
  queued : (s.bus.queue.insertionSort fun a b => a.arrival ≤ b.arrival) =
    made ++ lost
  genuine : List.Forall₂ MadeFrom made events
  logged : ∃ report, t.bus.emitted = s.bus.emitted ++ (report ++ events)
  reported : ∀ counts ∈ reports, ∃ event ∈ t.bus.emitted,
    event.type = "EVENTS_DROPPED" ∧
      .dict event.payload = Bus.droppedPayload counts
  ledger_eq : t.ledger = { s.ledger with
    reported := s.ledger.reported ++ reports
    drained := s.ledger.drained ++ made.zip events }
  queue_eq : t.bus.queue = []
  dropped_eq : t.bus.droppedPending = []
  arrivals_eq : t.bus.arrivalCounter = s.bus.arrivalCounter
  counted_le : ∀ type, (reports.map (countOf type)).sum ≤
    countOf type s.bus.droppedPending
  complete : PollsAll env s.bus → lost = [] ∧
    ∀ type, (reports.map (countOf type)).sum =
      countOf type s.bus.droppedPending
  stopped : ¬ PollsAll env s.bus → lost ≠ [] ∨
    s.bus.droppedPending ≠ [] ∧ reports = []

theorem zip_append_of_forall₂
    {α β : Type} {R : α → β → Prop} {xs : List α} {ys : List β}
    (h : List.Forall₂ R xs ys) (rest : List α) :
    (xs ++ rest).zip ys = xs.zip ys := by
  induction h with
  | nil => simp
  | cons _ _ ih => simp [ih]

theorem perform_poll (env : BusEnv) (s : IngressState) :
    ∃ reports made lost events,
      PollNoted env s (s.perform env .poll) reports made lost events := by
  obtain ⟨report, made, lost, events, hsort, hmade, hreport, hemitted, hqueue,
      hdropped, harrivals, hall⟩ :
      Polls env s.bus (finalState (Bus.poll env) s.bus) := by
    rcases (poll_polls env s.bus).cases with ⟨-, -, h⟩ | ⟨-, -, h⟩
    · exact h
    · exact h
  have hnew : (finalState (Bus.poll env) s.bus).emitted.drop
      s.bus.emitted.length = report ++ events := by
    rw [hemitted, List.drop_left]
  by_cases hidle : s.bus.droppedPending = []
  · have hnone : report = [] := by
      rcases hreport with hreport | ⟨hbusy, -⟩
      · rwa [Reports, if_pos hidle] at hreport
      · exact absurd hidle hbusy
    subst hnone
    refine ⟨[], made, lost, events, hsort, hmade, ⟨[], hemitted⟩, by simp, ?_,
      hqueue, hdropped, harrivals, by simp, ?_, ?_⟩
    · simp only [IngressState.perform, Ledger.notePoll, hnew, if_pos hidle,
        hsort, List.map_nil, List.length_nil, List.drop_zero, List.nil_append,
        zip_append_of_forall₂ hmade]
    · intro hpolls
      refine ⟨(hall.mpr hpolls).2, fun type => ?_⟩
      rw [hidle]
      rfl
    · intro hstop
      left
      intro hlost
      exact hstop (hall.mp ⟨by rw [Reports, if_pos hidle], hlost⟩)
  · rcases hreport with hreport | ⟨-, rfl, rfl⟩
    · have hreports := hreport
      rw [Reports, if_neg hidle] at hreport
      obtain ⟨event, rfl, htype, hpayload⟩ := hreport
      refine ⟨[s.bus.droppedPending], made, lost, events, hsort, hmade,
        ⟨[event], hemitted⟩, ?_, ?_, hqueue, hdropped, harrivals, by simp,
        ?_, ?_⟩
      · intro counts hcounts
        obtain rfl := List.mem_singleton.mp hcounts
        refine ⟨event, ?_, htype, hpayload⟩
        change event ∈ (finalState (Bus.poll env) s.bus).emitted
        rw [hemitted]
        simp
      · simp only [IngressState.perform, Ledger.notePoll, hnew, if_neg hidle,
          hsort, List.singleton_append, List.take_succ_cons, List.take_zero,
          List.map_singleton, List.length_singleton, List.drop_succ_cons,
          List.drop_zero, zip_append_of_forall₂ hmade]
      · intro hpolls
        exact ⟨(hall.mpr hpolls).2, fun type => by simp⟩
      · intro hstop
        left
        intro hlost
        exact hstop (hall.mp ⟨hreports, hlost⟩)
    · obtain rfl := List.forall₂_nil_right_iff.mp hmade
      refine ⟨[], [], lost, [], hsort, .nil, ⟨[], hemitted⟩, by simp, ?_,
        hqueue, hdropped, harrivals, by simp, ?_, ?_⟩
      · simp only [IngressState.perform, Ledger.notePoll, hnew, if_neg hidle,
          List.append_nil, List.take_nil, List.map_nil, List.length_nil,
          List.drop_nil, List.zip_nil_right]
      · intro hpolls
        have hreports := (hall.mpr hpolls).1
        rw [Reports, if_neg hidle] at hreports
        obtain ⟨_, hnil, -⟩ := hreports
        cases hnil
      · intro _
        exact .inr ⟨hidle, rfl⟩

section Poll

variable {env : BusEnv} {s t : IngressState}
  {reports : List (List (String × ℕ))} {made lost : List QueuedDraft}
  {events : List Envelope}

theorem PollNoted.perm
    (h : PollNoted env s t reports made lost events) :
    s.bus.queue.Perm (made ++ lost) := by
  rw [← h.queued]
  exact (List.perm_insertionSort _ _).symm

theorem PollNoted.zip_fst
    (h : PollNoted env s t reports made lost events) :
    (made.zip events).map Prod.fst = made :=
  List.map_fst_zip (le_of_eq h.genuine.length_eq)

theorem PollNoted.zip_snd
    (h : PollNoted env s t reports made lost events) :
    (made.zip events).map Prod.snd = events :=
  List.map_snd_zip (le_of_eq h.genuine.length_eq.symm)

theorem PollNoted.tally_eq
    (h : PollNoted env s t reports made lost events) :
    t.tally + lost.length = s.tally := by
  have hqueue := h.perm.length_eq
  have hzip : (made.zip events).length = made.length := by
    rw [← List.length_map Prod.fst, h.zip_fst]
  rw [List.length_append] at hqueue
  simp only [IngressState.tally, h.ledger_eq, h.queue_eq, List.length_append,
    List.length_nil, hzip]
  omega

theorem PollNoted.countedOf_eq
    (h : PollNoted env s t reports made lost events) (type : String) :
    t.countedOf type + countOf type s.bus.droppedPending =
      s.countedOf type + (reports.map (countOf type)).sum := by
  have hnone : countOf type [] = 0 := rfl
  simp only [IngressState.countedOf, h.ledger_eq, h.dropped_eq,
    List.map_append, List.sum_append, hnone]
  omega

theorem PollNoted.droppedOf_eq
    (h : PollNoted env s t reports made lost events) (type : String) :
    t.droppedOf type = s.droppedOf type := by
  unfold IngressState.droppedOf
  rw [h.ledger_eq]

theorem PollNoted.submitted_eq
    (h : PollNoted env s t reports made lost events) :
    t.ledger.submitted = s.ledger.submitted := by
  rw [h.ledger_eq]

theorem ingressInv_poll
    (h : PollNoted env s t reports made lost events) (hinv : IngressInv s) :
    IngressInv t where
  arrived := by
    rw [h.queue_eq]
    exact List.forall_mem_nil _
  distinct := by
    rw [h.queue_eq]
    exact List.nodup_nil
  numbered := by
    rw [h.submitted_eq, h.arrivals_eq]
    exact hinv.numbered
  genuine := by
    intro pair hpair
    rw [h.ledger_eq] at hpair
    rcases List.mem_append.mp hpair with hpair | hpair
    · exact hinv.genuine pair hpair
    · exact (List.forall₂_iff_zip.mp h.genuine).2 hpair
  logged := by
    obtain ⟨report, hemitted⟩ := h.logged
    rw [hemitted, h.ledger_eq, List.map_append, h.zip_snd]
    exact hinv.logged.append (List.sublist_append_right report events)
  reports := by
    intro counts hcounts
    rw [h.ledger_eq] at hcounts
    rcases List.mem_append.mp hcounts with hcounts | hcounts
    · obtain ⟨report, hemitted⟩ := h.logged
      obtain ⟨event, hevent, hreport⟩ := hinv.reports counts hcounts
      refine ⟨event, ?_, hreport⟩
      rw [hemitted]
      exact List.mem_append_left _ hevent
    · exact h.reported counts hcounts
  lowest := by
    rw [h.ledger_eq]
    exact hinv.lowest
  pending hpending := absurd h.dropped_eq hpending
  tally_le := by
    have htally := h.tally_eq
    have hold := hinv.tally_le
    rw [h.submitted_eq]
    omega
  countedOf_le type := by
    have hcounted := h.countedOf_eq type
    have hreports := h.counted_le type
    have hold := hinv.countedOf_le type
    rw [h.droppedOf_eq]
    omega

theorem accounted_poll
    (h : PollNoted env s t reports made lost events) (hlost : lost = [])
    (hacc : Accounted s) :
    Accounted t := by
  have hqueue := h.perm
  rw [hlost, List.append_nil] at hqueue
  unfold Accounted
  rw [h.queue_eq, h.ledger_eq, List.map_append, h.zip_fst, List.nil_append,
    List.append_assoc]
  exact hacc.trans ((hqueue.append_right _).append_left _)

theorem lossless_poll
    (h : PollNoted env s t reports made lost events) (hinv : IngressInv s)
    (hlossless : Lossless t) :
    Lossless s ∧ PollsAll env s.bus := by
  obtain ⟨htally, hcounts⟩ := hlossless
  have htally' := h.tally_eq
  have hold := hinv.tally_le
  rw [h.submitted_eq] at htally
  have hlost : lost.length = 0 := by omega
  have hcounted (type : String) : s.countedOf type = s.droppedOf type ∧
      countOf type s.bus.droppedPending =
        (reports.map (countOf type)).sum := by
    have hnew := h.countedOf_eq type
    have hreports := h.counted_le type
    have hle := hinv.countedOf_le type
    have heq := hcounts type
    rw [h.droppedOf_eq] at heq
    omega
  refine ⟨⟨by omega, fun type => (hcounted type).1.symm⟩, ?_⟩
  by_contra hstop
  rcases h.stopped hstop with hstop | ⟨hpending, hnone⟩
  · exact hstop (List.eq_nil_of_length_eq_zero hlost)
  · obtain ⟨type, hpositive⟩ := hinv.pending hpending
    have hzero := (hcounted type).2
    rw [hnone, List.map_nil, List.sum_nil] at hzero
    omega

theorem countedOf_poll
    (h : PollNoted env s t reports made lost events)
    (hpolls : PollsAll env s.bus)
    (hcounted : ∀ type, s.droppedOf type = s.countedOf type) (type : String) :
    t.droppedOf type = t.countedOf type := by
  have hreports := (h.complete hpolls).2 type
  have hnew := h.countedOf_eq type
  have hold := hcounted type
  rw [h.droppedOf_eq]
  omega

end Poll

/-! ## Runs -/

/-- Nothing stops the call, when it is a poll. -/
def Unstopped (env : BusEnv) (s : IngressState) (op : IngressOp) : Prop :=
  op = .poll → PollsAll env s.bus

/-- The invariant of a run: the numbers add up only if no poll was stopped, and
then every draft is accounted for. -/
structure IngressRun (env : BusEnv)
    (trace : List (Step IngressState IngressOp Unit)) (s : IngressState) :
    Prop where
  inv : IngressInv s
  bounded : s.bus.queue.length ≤ env.queueCapacity
  unstopped : Lossless s → ∀ e ∈ trace, Unstopped env e.before e.input
  accounted : (∀ e ∈ trace, Unstopped env e.before e.input) →
    Accounted s ∧ ∀ type, s.droppedOf type = s.countedOf type

section Runs

variable {env : BusEnv} {s : IngressState}
  {trace : List (Step IngressState IngressOp Unit)}

theorem IngressRun.submit
    (h : IngressRun env trace s) {op : IngressOp} (hop : op ≠ .poll) :
    IngressRun env (trace ++ [(ingressMachine env).stepAt s op])
      (s.perform env op) := by
  have hguard : (∀ e ∈ trace ++ [(ingressMachine env).stepAt s op],
      Unstopped env e.before e.input) ↔
        ∀ e ∈ trace, Unstopped env e.before e.input := by
    rw [List.forall_mem_append, List.forall_mem_singleton]
    exact ⟨fun h => h.1, fun h => ⟨h, fun hpoll => absurd hpoll hop⟩⟩
  have hkeeps {t : IngressState} (hinv : IngressInv t)
      (hbounded : t.bus.queue.length ≤ env.queueCapacity)
      (hlossless : Lossless t ↔ Lossless s)
      (haccounted : Accounted s → Accounted t)
      (hcounted : (∀ type, s.droppedOf type = s.countedOf type) →
        ∀ type, t.droppedOf type = t.countedOf type) :
      IngressRun env (trace ++ [(ingressMachine env).stepAt s op]) t := by
    refine ⟨hinv, hbounded, ?_, ?_⟩
    · intro hall
      exact hguard.mpr (h.unstopped (hlossless.mp hall))
    · intro hall
      obtain ⟨hold, hcounts⟩ := h.accounted (hguard.mp hall)
      exact ⟨haccounted hold, hcounted hcounts⟩
  cases op with
  | poll => exact absurd rfl hop
  | submit type payload source causalParents severity =>
      rcases perform_submit env s type payload source causalParents severity
        with hsame | ⟨draft, harrival, hqueued⟩
      · rw [hsame]
        exact hkeeps h.inv h.bounded Iff.rfl id id
      · have hinv := ingressInv_enqueued h.inv harrival
        rcases hqueued with ⟨hroom, heq⟩ | ⟨victim, hvictim, heq⟩
        · rw [heq]
          exact hkeeps hinv hroom lossless_enqueued accounted_enqueued id
        · have hmem := (victimOf_spec hvictim).1
          have hlength := length_filter_arrival hinv hmem
          have hqueue : (s.enqueued draft).bus.queue.length =
              s.bus.queue.length + 1 :=
            List.length_append
          have hbounded := h.bounded
          rw [heq]
          refine hkeeps (ingressInv_evicted hinv hvictim) (by omega)
            ((lossless_evicted hinv hmem).trans lossless_enqueued)
            (fun hacc => accounted_evicted hinv hmem (accounted_enqueued hacc))
            ?_
          intro hcounted dropped
          rw [droppedOf_evicted, countedOf_evicted]
          exact congrArg (· + _) (hcounted dropped)

theorem IngressRun.poll (h : IngressRun env trace s) :
    IngressRun env (trace ++ [(ingressMachine env).stepAt s .poll])
      (s.perform env .poll) := by
  obtain ⟨reports, made, lost, events, hpoll⟩ := perform_poll env s
  refine ⟨ingressInv_poll hpoll h.inv, ?_, ?_, ?_⟩
  · rw [hpoll.queue_eq]
    exact Nat.zero_le _
  · intro hlossless
    obtain ⟨hbefore, hpolls⟩ := lossless_poll hpoll h.inv hlossless
    rw [List.forall_mem_append, List.forall_mem_singleton]
    exact ⟨h.unstopped hbefore, fun _ => hpolls⟩
  · intro hall
    rw [List.forall_mem_append, List.forall_mem_singleton] at hall
    have hpolls : PollsAll env s.bus := hall.2 rfl
    obtain ⟨hold, hcounted⟩ := h.accounted hall.1
    exact ⟨accounted_poll hpoll (hpoll.complete hpolls).1 hold,
      countedOf_poll hpoll hpolls hcounted⟩

theorem ingressRun (env : BusEnv) (ops : List IngressOp) :
    IngressRun env ((ingressMachine env).trace .fresh ops)
      ((ingressMachine env).final .fresh ops) := by
  refine Machine.invariant (IngressRun env) ?_ ?_ ops
  · refine ⟨?_, Nat.zero_le _, fun _ => List.forall_mem_nil _, ?_⟩
    · exact
        { arrived := List.forall_mem_nil _
          distinct := List.nodup_nil
          numbered := rfl
          genuine := List.forall_mem_nil _
          logged := List.Sublist.refl _
          reports := List.forall_mem_nil _
          lowest := List.forall_mem_nil _
          pending := fun h => absurd rfl h
          tally_le := le_refl _
          countedOf_le := fun _ => le_refl _ }
    · intro _
      exact ⟨List.Perm.refl _, fun _ => rfl⟩
  · intro trace s op h
    by_cases hop : op = .poll
    · subst hop
      exact h.poll
    · exact h.submit hop

end Runs

/-- Over every sequence of submissions and polls, every draft is emitted once,
still queued or dropped and counted exactly when no poll was stopped by a draft
that emission refuses or by a failed append. -/
theorem ingress_kept_iff (env : BusEnv) (ops : List IngressOp) :
    IngressKept env ((ingressMachine env).final .fresh ops) ↔
      (ingressMachine env).Guarded (Unstopped env) .fresh ops := by
  have hrun := ingressRun env ops
  constructor
  · intro hkept
    exact hrun.unstopped ⟨tally_of_accounted hkept.accounted, hkept.counted⟩
  · intro hall
    obtain ⟨haccounted, hcounted⟩ := hrun.accounted hall
    obtain ⟨reports, made, lost, events, hpoll⟩ :=
      perform_poll env ((ingressMachine env).final .fresh ops)
    exact
      { accounted := haccounted
        once := by
          rw [hrun.inv.numbered]
          exact List.nodup_range'
        genuine := hrun.inv.genuine
        logged := hrun.inv.logged
        reports := hrun.inv.reports
        counted := hcounted
        settled := hpoll.dropped_eq
        bounded := hrun.bounded
        lowest := hrun.inv.lowest }

def afterTwoMessages (first second : String) : IngressState :=
  (ingressMachine (referenceBus fun _ => "2026-03-01T10:00:00.000000Z")).final
    .fresh [
      .submit "CHAT_MESSAGE" (.dict [("text", .str first)]) "test" [] .none,
      .submit "CHAT_MESSAGE" (.dict [("text", .str second)]) "test" [] .none,
      .poll]

/-- The first message holds a marker that the secret guard refuses, and the
second is gone with it: neither emitted nor queued nor counted. -/
theorem message_lost_behind_refused :
    ¬ IngressKept (referenceBus fun _ => "2026-03-01T10:00:00.000000Z")
      (afterTwoMessages "HG-CANARY-SEC-EVENT-9f3a2b" "hello") := by
  intro h
  have htally := tally_of_accounted h.accounted
  have hnone : (afterTwoMessages "HG-CANARY-SEC-EVENT-9f3a2b" "hello").tally =
      0 := by
    decide +kernel
  have htwo : (afterTwoMessages "HG-CANARY-SEC-EVENT-9f3a2b"
      "hello").ledger.submitted.length = 2 := by
    decide +kernel
  omega

end Hydrogenuine.Runtime
