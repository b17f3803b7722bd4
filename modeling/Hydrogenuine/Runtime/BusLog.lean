import Hydrogenuine.Runtime.Bus
import Hydrogenuine.Support.HashChain
import Hydrogenuine.Support.Machine

/-!
# The log behind the bus

What the operations of the bus do to the segment files and to the head of the
chain, over whole runs with re-openings in between.  The files are read in the
order of their names, and an event goes to the file of its day: the log comes
back in the order of emission exactly if the days of the emitted events never
step back.
-/

namespace Hydrogenuine.Runtime

open Support Hydrogenuine.Core

/-! ## Chains of envelopes -/

namespace Envelope

/-- Where an event stands in the chain: its number and its predecessor. -/
def position (event : Envelope) : ℤ × String := (event.seq, event.prevHash)

def next (event : Envelope) : ℤ × String := (event.seq + 1, event.eventHash)

/-- The hash and the id are those derived from the other fields. -/
def Sealed (host : Host) (event : Envelope) : Prop := event.sealed host = event

def segment (event : Envelope) : String := segmentFor event.timestamp

end Envelope

/-- The events are numbered from zero, linked and sealed. -/
def EventChain (host : Host) (events : List Envelope) : Prop :=
  Chained Envelope.position Envelope.next (Envelope.Sealed host)
    (0, genesisHash) events

def headOf (events : List Envelope) : ℤ × String :=
  endHash Envelope.next (0, genesisHash) events

def InDayOrder (events : List Envelope) : Prop :=
  events.Pairwise fun event later => event.segment ≤ later.segment

def linesOf (events : List Envelope) : List Line :=
  events.map fun event => .record event.record

theorem computeEventHash_record (host : Host) (event : Envelope) :
    computeEventHash host event.record = computeEventHash host event.body := by
  unfold computeEventHash Envelope.record
  rw [List.filter_append]
  simp

theorem field_seq (event : Envelope) :
    Bus.field event.record "seq" = .ok (.int event.seq) := by
  simp [Bus.field, Bus.subscript, Envelope.record, Envelope.body, PyVal.item?,
    List.lookup_cons]

theorem field_prev_hash (event : Envelope) :
    Bus.field event.record "prev_hash" = .ok (.str event.prevHash) := by
  simp [Bus.field, Bus.subscript, Envelope.record, Envelope.body, PyVal.item?,
    List.lookup_cons]

theorem field_event_hash (event : Envelope) :
    Bus.field event.record "event_hash" = .ok (.str event.eventHash) := by
  simp [Bus.field, Bus.subscript, Envelope.record, Envelope.body, PyVal.item?,
    List.lookup_cons]

theorem pyEq_int_self (n : ℤ) : (PyVal.int n).pyEq (.int n) = true := by
  simp [PyVal.pyEq, PyVal.num?, PyVal.numEq]

variable {events : List Envelope} {host : Host} {event : Envelope} {env : BusEnv} {s : Bus}

theorem verifyFrom_append {n : ℕ} {prev : String}
    (h : Chained Envelope.position Envelope.next (Envelope.Sealed host)
      ((n : ℤ), prev) events) (rest : List Line) :
    Bus.verifyFrom host n (.str prev) (linesOf events ++ rest) =
      Bus.verifyFrom host (n + events.length)
        (.str (endHash Envelope.next ((n : ℤ), prev) events).2) rest := by
  induction events generalizing n prev with
  | nil => rfl
  | cons event events ih =>
      obtain ⟨hposition, hsealed, hrest⟩ := h
      obtain ⟨hseq, hprev⟩ := Prod.mk.inj hposition
      have hnext : event.next = (((n + 1 : ℕ) : ℤ), event.eventHash) := by
        rw [Envelope.next, hseq, Nat.cast_succ]
      rw [hnext] at hrest
      have hhash : event.eventHash = computeEventHash host event.record := by
        rw [computeEventHash_record]
        exact (congrArg Envelope.eventHash hsealed).symm
      have hstr (s : String) : (PyVal.str s).pyEq (.str s) = true :=
        (PyVal.pyEq_str_iff _ _).mpr rfl
      have hrec := ih hrest
      have hlength : n + (events.length + 1) = n + 1 + events.length := by omega
      simp only [linesOf, List.map_cons, List.cons_append] at hrec ⊢
      simp only [Bus.verifyFrom, Line.parse, field_seq, field_prev_hash,
        field_event_hash, bind, Except.bind, hseq, hprev, ← hhash, pyEq_int_self,
        hstr, Bool.not_true, Bool.false_eq_true, if_false, hrec, endHash, hnext,
        List.length_cons, hlength]

theorem verifyFrom_of_chained (h : EventChain host events) :
    Bus.verifyFrom host 0 (.str genesisHash) (linesOf events) =
      .ok ⟨true, events.length, none⟩ := by
  have hall := verifyFrom_append (n := 0) h []
  rw [List.append_nil, Nat.zero_add] at hall
  exact hall

/-! ## What the operations do to the log -/

/-- The part of a bus that its log is about. -/
structure LogState where
  directory : Directory
  nextSeq : ℤ
  headHash : String

def Bus.log (s : Bus) : LogState where
  directory := s.directory
  nextSeq := s.nextSeq
  headHash := s.headHash

/-- An event that is emitted at the head of the log. -/
def AtHead (host : Host) (log : LogState) (event : Envelope) : Prop :=
  event.position = (log.nextSeq, log.headHash) ∧ event.Sealed host

def LogState.add (log : LogState) (event : Envelope) : LogState where
  directory := log.directory.append event .line
  nextSeq := log.nextSeq + 1
  headHash := event.eventHash

/-- The events are added to the log one after the other, each at its head. -/
inductive LogRun (host : Host) : LogState → List Envelope → LogState → Prop
  | refl (log : LogState) : LogRun host log [] log
  | add {log log' : LogState} {events : List Envelope} {event : Envelope} :
      LogRun host log events log' → AtHead host log' event →
      LogRun host log (events ++ [event]) (log'.add event)

theorem LogRun.trans {log log' log'' : LogState} {events events' : List Envelope}
    (h : LogRun host log events log') (h' : LogRun host log' events' log'') :
    LogRun host log (events ++ events') log'' := by
  induction h' with
  | refl => simpa using h
  | add _ hhead ih =>
      rw [← List.append_assoc]
      exact .add ih hhead

/-- The bus emits some events and adds exactly these to the log. -/
def LogMoves (host : Host) (s t : Bus) : Prop :=
  ∃ added, t.emitted = s.emitted ++ added ∧ LogRun host s.log added t.log

instance (host : Host) : Std.Refl (LogMoves host) :=
  ⟨fun s => ⟨[], by simp, .refl s.log⟩⟩

instance (host : Host) : IsTrans Bus (LogMoves host) where
  trans := by
    rintro s t u ⟨added, hadded, hrun⟩ ⟨added', hadded', hrun'⟩
    exact ⟨added ++ added', by rw [hadded', hadded, List.append_assoc],
      hrun.trans hrun'⟩

theorem Bus.Emitted.atHead {type payload : PyVal} {source : String}
    {causalParents severity : PyVal}
    (h : Bus.Emitted env s type payload source causalParents severity event) :
    AtHead env.host s.log event :=
  ⟨Prod.ext h.seq_eq h.prev_eq, h.sealed_eq⟩

section Moves

variable {env : BusEnv}

theorem logMoves_of_eq
    {s t : Bus} (hlog : t.log = s.log) (hemitted : t.emitted = s.emitted) :
    LogMoves env.host s t :=
  ⟨[], by rw [hemitted, List.append_nil], by rw [hlog]; exact .refl s.log⟩

theorem emit_logMoves
    (hdone : ∀ n, env.appends n = .done)
    (type payload : PyVal) (source : String) (causalParents severity : PyVal) :
    Along (LogMoves env.host)
      (Bus.emit env type payload source causalParents severity) := by
  intro s
  refine ends_mono (Bus.emit_ends env s type payload source causalParents severity)
    ?_ ?_
  · rintro event t ⟨hemitted, -, rfl⟩
    exact ⟨[event], rfl, .add (.refl s.log) hemitted.atHead⟩
  · rintro e t (⟨-, rfl⟩ | ⟨-, -, -, rfl⟩ | ⟨-, written, -, hfailed, -⟩)
    · exact logMoves_of_eq rfl rfl
    · exact logMoves_of_eq rfl rfl
    · rw [hdone] at hfailed
      cases hfailed

theorem evict_log (s : Bus) :
    (Bus.evict s).log = s.log ∧ (Bus.evict s).emitted = s.emitted := by
  unfold Bus.evict
  split
  · exact ⟨rfl, rfl⟩
  · exact ⟨rfl, rfl⟩

theorem submit_logMoves
    (type : String) (payload : PyVal) (source : String)
    (causalParents : List PyVal) (severity : PyVal) :
    Along (LogMoves env.host)
      (Bus.submit env type payload source causalParents severity) := by
  intro s
  unfold Bus.submit
  apply ends_bind
  apply ends_raising
  · rintro ⟨name, info⟩ _
    apply ends_bind
    apply ends_get
    dsimp only
    split_ifs
    · apply ends_bind
      apply ends_set
      exact ends_pure (logMoves_of_eq (evict_log _).1 (evict_log _).2)
    · apply ends_bind
      apply ends_set
      exact ends_pure (logMoves_of_eq rfl rfl)
  · intro e _
    exact logMoves_of_eq rfl rfl

theorem emitBatch_logMoves
    (hdone : ∀ n, env.appends n = .done) (batch : List QueuedDraft) :
    Along (LogMoves env.host) (Bus.emitBatch env batch) := by
  induction batch with
  | nil => exact along_pure _
  | cons item items ih =>
      unfold Bus.emitBatch
      apply along_bind (emit_logMoves hdone _ _ _ _ _)
      intro event
      apply along_bind ih
      intro events
      exact along_pure _

theorem poll_logMoves (hdone : ∀ n, env.appends n = .done) :
    Along (LogMoves env.host) (Bus.poll env) := by
  intro s
  unfold Bus.poll
  apply ends_bind
  apply ends_get
  split_ifs
  · exact ends_pure (logMoves_of_eq rfl rfl)
  · apply ends_bind
    apply ends_set
    exact emitBatch_logMoves hdone _ _
  · apply ends_bind
    apply ends_set
    have hreport : Along (LogMoves env.host) (do
        let report ← Bus.emit env (.str "EVENTS_DROPPED")
          (Bus.droppedPayload s.droppedPending) "loop" (.list []) .none
        let events ← Bus.emitBatch env
          (s.queue.insertionSort fun a b => a.arrival ≤ b.arrival)
        return report :: events) := by
      apply along_bind (emit_logMoves hdone _ _ _ _ _)
      intro report
      apply along_bind (emitBatch_logMoves hdone _)
      intro events
      exact along_pure _
    exact hreport _

end Moves

/-! ## The invariant of the log -/

/-- The files hold complete lines of events, each in the file of its day; and
as long as the `dated` events are in the order of their days, the log read back
is the chain of `events`, with the head at its end. -/
structure LogInv
    (host : Host) (log : LogState) (dated events : List Envelope) : Prop where
  sorted : log.directory.Pairwise fun a b => a.1 < b.1
  complete : ∀ file ∈ log.directory, file.2.rest = none
  named : ∀ file ∈ log.directory, ∀ line ∈ file.2.lines, ∃ event : Envelope,
    line = .record event.record ∧ event.segment = file.1
  listed : ∀ file ∈ log.directory, ∃ event ∈ dated, event.segment = file.1
  ordered : InDayOrder dated →
    log.directory.lines = linesOf events ∧ EventChain host events ∧
      (log.nextSeq, log.headHash) = headOf events

theorem inDayOrder_concat :
    InDayOrder (events ++ [event]) ↔
      InDayOrder events ∧ ∀ e ∈ events, e.segment ≤ event.segment := by
  unfold InDayOrder
  rw [List.pairwise_append]
  simp

theorem write_line_of_rest
    {segment : Segment} {line : Line} (h : segment.rest = none) :
    segment.write line .line = ⟨segment.lines ++ [line], none⟩ := by
  unfold Segment.write Segment.glue
  rw [h]

/-- A directory of complete files in which no day lies after that of the event
is read back with the event at its end. -/
theorem lines_append_line
    {directory : Directory}
    (hsorted : directory.Pairwise fun a b => a.1 < b.1)
    (hcomplete : ∀ file ∈ directory, file.2.rest = none)
    (hle : ∀ file ∈ directory, file.1 ≤ event.segment) :
    (directory.append event .line).lines =
      directory.lines ++ [Line.record event.record] := by
  have hread : readSegments Segment.read
      (updateSegment event.segment (fun segment =>
        segment.write (.record event.record) .line) .empty directory) =
      readSegments Segment.read directory ++ [.record event.record] := by
    apply readSegments_updateSegment hle hsorted _ rfl
    rintro segment (rfl | hsegment)
    · rfl
    · have hrest : segment.rest = none := hcomplete _ hsegment
      rw [write_line_of_rest hrest]
      unfold Segment.read
      rw [hrest]
      simp
  exact hread

theorem logInv_add {log : LogState} {dated events : List Envelope}
    (hinv : LogInv host log dated events) (hhead : AtHead host log event) :
    LogInv host (log.add event) (dated ++ [event]) (events ++ [event]) := by
  have hmem : ∀ file ∈ (log.add event).directory, file ∈ log.directory ∨
      file = (event.segment, ⟨[.record event.record], none⟩) ∨
      ∃ segment, (event.segment, segment) ∈ log.directory ∧
        file = (event.segment,
          ⟨segment.lines ++ [.record event.record], none⟩) := by
    intro file hfile
    rcases mem_updateSegment hfile with hold | hnew | ⟨segment, hsegment, hfile⟩
    · exact Or.inl hold
    · exact Or.inr (Or.inl hnew)
    · refine Or.inr (Or.inr ⟨segment, hsegment, ?_⟩)
      rw [hfile, write_line_of_rest (hinv.complete _ hsegment)]
      rfl
  constructor
  · exact updateSegment_sorted hinv.sorted
  · intro file hfile
    rcases hmem file hfile with hold | rfl | ⟨segment, -, rfl⟩
    · exact hinv.complete file hold
    · rfl
    · rfl
  · intro file hfile line hline
    rcases hmem file hfile with hold | rfl | ⟨segment, hsegment, rfl⟩
    · exact hinv.named file hold line hline
    · exact ⟨event, List.mem_singleton.mp hline, rfl⟩
    · rcases List.mem_append.mp hline with hline | hline
      · exact hinv.named _ hsegment line hline
      · exact ⟨event, List.mem_singleton.mp hline, rfl⟩
  · intro file hfile
    have hlast : event ∈ dated ++ [event] :=
      List.mem_append_right _ (List.mem_singleton_self event)
    rcases hmem file hfile with hold | rfl | ⟨segment, -, rfl⟩
    · obtain ⟨earlier, hearlier, hname⟩ := hinv.listed file hold
      exact ⟨earlier, List.mem_append_left _ hearlier, hname⟩
    · exact ⟨event, hlast, rfl⟩
    · exact ⟨event, hlast, rfl⟩
  · intro horder
    obtain ⟨hprior, hle⟩ := inDayOrder_concat.mp horder
    obtain ⟨hlines, hchain, hat⟩ := hinv.ordered hprior
    obtain ⟨hposition, hsealed⟩ := hhead
    refine ⟨?_, ?_, ?_⟩
    · have hfiles : ∀ file ∈ log.directory, file.1 ≤ event.segment := by
        intro file hfile
        obtain ⟨earlier, hearlier, hname⟩ := hinv.listed file hfile
        rw [← hname]
        exact hle earlier hearlier
      calc (log.add event).directory.lines
          = log.directory.lines ++ [Line.record event.record] :=
            lines_append_line hinv.sorted hinv.complete hfiles
        _ = linesOf (events ++ [event]) := by
            rw [hlines]
            simp [linesOf]
    · exact chained_concat.mpr ⟨hchain, hposition.trans hat, hsealed⟩
    · have hseq : event.seq = log.nextSeq := congrArg Prod.fst hposition
      unfold headOf
      rw [LogState.add, endHash_concat, Envelope.next, hseq]

theorem logInv_run {log log' : LogState} {added dated events : List Envelope}
    (h : LogRun host log added log') (hinv : LogInv host log dated events) :
    LogInv host log' (dated ++ added) (events ++ added) := by
  induction h with
  | refl => simpa using hinv
  | add _ hhead ih =>
      rw [← List.append_assoc, ← List.append_assoc]
      exact logInv_add ih hhead

theorem logInv_fresh (host : Host) : LogInv host Bus.fresh.log [] [] where
  sorted := List.Pairwise.nil
  complete := by simp [Bus.log, Bus.fresh]
  named := by simp [Bus.log, Bus.fresh]
  listed := by simp [Bus.log, Bus.fresh]
  ordered := fun _ => ⟨rfl, trivial, rfl⟩

/-! ## Re-opening -/

theorem lastLine_eq (directory : Directory) :
    Bus.lastLine directory = directory.lines.getLast? :=
  List.getLast?_flatMap.symm

theorem recoverChainHead_of_lines
    (host : Host) {directory : Directory}
    (h : directory.lines = linesOf events) :
    Bus.recoverChainHead host directory = .ok (headOf events) := by
  unfold Bus.recoverChainHead headOf
  rw [lastLine_eq, h]
  rcases List.eq_nil_or_concat events with rfl | ⟨init, event, rfl⟩
  · rfl
  · have hlast : (linesOf (init.concat event)).getLast? =
        some (.record event.record) := by
      simp [linesOf]
    rw [hlast, List.concat_eq_append, endHash_concat]
    simp only [Line.parse, field_seq, field_event_hash, bind, Except.bind,
      Host.toInt, Host.str, PyVal.render]
    rfl

theorem logInv_reopen {s t : Bus} {dated events : List Envelope}
    (h : Bus.reopen env s = .ok t)
    (hinv : LogInv env.host s.log dated events) :
    LogInv env.host t.log dated events ∧ t.emitted = s.emitted := by
  unfold Bus.reopen at h
  cases hhead : Bus.recoverChainHead env.host s.directory with
  | error e =>
      rw [hhead] at h
      cases h
  | ok head =>
      rw [hhead] at h
      obtain rfl := Except.ok.inj h
      refine ⟨⟨hinv.sorted, hinv.complete, hinv.named, hinv.listed, ?_⟩, rfl⟩
      intro horder
      obtain ⟨hlines, hchain, -⟩ := hinv.ordered horder
      refine ⟨hlines, hchain, ?_⟩
      have hrecovered := recoverChainHead_of_lines env.host hlines
      exact Except.ok.inj (hhead.symm.trans hrecovered)

/-! ## Runs -/

/-- The calls on a bus, and closing it and opening it again. -/
inductive BusOp where
  | emit (type payload : PyVal) (source : String)
      (causalParents severity : PyVal)
  | submit (type : String) (payload : PyVal) (source : String)
      (causalParents : List PyVal) (severity : PyVal)
  | poll
  | reopen

def Bus.perform (env : BusEnv) (s : Bus) : BusOp → Bus
  | .emit type payload source causalParents severity =>
      finalState (emit env type payload source causalParents severity) s
  | .submit type payload source causalParents severity =>
      finalState (submit env type payload source causalParents severity) s
  | .poll => finalState (poll env) s
  | .reopen =>
      match reopen env s with
      | .ok t => t
      | .error _ => s

def busMachine (env : BusEnv) : Machine Bus BusOp Unit where
  step s op := (Bus.perform env s op, ())

def Bus.after (env : BusEnv) (ops : List BusOp) : Bus :=
  (busMachine env).final Bus.fresh ops

theorem logInv_perform (hdone : ∀ n, env.appends n = .done)
    {dated events : List Envelope} (op : BusOp)
    (hinv : LogInv env.host s.log dated events) :
    ∃ added, (Bus.perform env s op).emitted = s.emitted ++ added ∧
      LogInv env.host (Bus.perform env s op).log (dated ++ added)
        (events ++ added) := by
  have hmoves {t : Bus} (h : LogMoves env.host s t) :
      ∃ added, t.emitted = s.emitted ++ added ∧
        LogInv env.host t.log (dated ++ added) (events ++ added) := by
    obtain ⟨added, hadded, hrun⟩ := h
    exact ⟨added, hadded, logInv_run hrun hinv⟩
  cases op with
  | emit type payload source causalParents severity =>
      exact hmoves ((emit_logMoves hdone type payload source causalParents
        severity).finalState s)
  | submit type payload source causalParents severity =>
      exact hmoves ((submit_logMoves type payload source causalParents
        severity).finalState s)
  | poll => exact hmoves ((poll_logMoves hdone).finalState s)
  | reopen =>
      refine ⟨[], ?_⟩
      rw [List.append_nil, List.append_nil, List.append_nil]
      unfold Bus.perform
      cases hopen : Bus.reopen env s with
      | error e => exact ⟨rfl, hinv⟩
      | ok t =>
          obtain ⟨hinv', hemitted⟩ := logInv_reopen hopen hinv
          exact ⟨hemitted, hinv'⟩

theorem logInv_final (hdone : ∀ n, env.appends n = .done)
    {dated events : List Envelope}
    (hinv : LogInv env.host s.log dated events) (ops : List BusOp) :
    ∃ added, ((busMachine env).final s ops).emitted = s.emitted ++ added ∧
      LogInv env.host ((busMachine env).final s ops).log (dated ++ added)
        (events ++ added) := by
  refine (busMachine env).invariant (fun _ t => ∃ added,
    t.emitted = s.emitted ++ added ∧
      LogInv env.host t.log (dated ++ added) (events ++ added)) ?_ ?_ ops
  · refine ⟨[], ?_⟩
    rw [List.append_nil, List.append_nil, List.append_nil]
    exact ⟨rfl, hinv⟩
  · rintro - t op ⟨added, hadded, hinv⟩
    obtain ⟨more, hmore, hinv'⟩ := logInv_perform hdone op hinv
    refine ⟨added ++ more, ?_, ?_⟩
    · rw [← List.append_assoc, ← hadded]
      exact hmore
    · rw [← List.append_assoc, ← List.append_assoc]
      exact hinv'

theorem logInv_after (hdone : ∀ n, env.appends n = .done) (ops : List BusOp) :
    LogInv env.host (Bus.after env ops).log (Bus.after env ops).emitted
      (Bus.after env ops).emitted := by
  obtain ⟨added, hadded, hinv⟩ :=
    logInv_final hdone (logInv_fresh env.host) ops
  have hemitted : (Bus.after env ops).emitted = added := hadded
  rw [hemitted]
  exact hinv

/-- The log comes back as it was emitted: the events in their order, numbered
without gap or repetition, and the chain verifies. -/
structure InOrder (host : Host) (s : Bus) : Prop where
  readAll_eq : s.readAll = .ok (s.emitted.map Envelope.record)
  numbered : s.emitted.map Envelope.seq =
    (List.range s.emitted.length).map Nat.cast
  verified : s.verifyChain host = .ok ⟨true, s.emitted.length, none⟩

theorem parse_linesOf (events : List Envelope) :
    (linesOf events).mapM Line.parse = .ok (events.map Envelope.record) := by
  induction events with
  | nil => rfl
  | cons event events ih =>
      simp only [linesOf, List.map_cons, List.mapM_cons, Line.parse, bind,
        Except.bind] at ih ⊢
      rw [ih]
      rfl

theorem lines_of_parse
    {lines : List Line} {records : List Record}
    (h : lines.mapM Line.parse = .ok records) :
    lines = records.map Line.record := by
  induction lines generalizing records with
  | nil =>
      cases h
      rfl
  | cons line lines ih =>
      rw [List.mapM_cons] at h
      cases line with
      | broken => cases h
      | record first =>
          simp only [Line.parse, bind, Except.bind] at h
          cases hrest : lines.mapM Line.parse with
          | error e =>
              rw [hrest] at h
              cases h
          | ok rest =>
              rw [hrest] at h
              obtain rfl := Except.ok.inj h
              rw [ih hrest]
              rfl

theorem numbered_of_chained {n : ℕ} {prev : String}
    (h : Chained Envelope.position Envelope.next (Envelope.Sealed host)
      ((n : ℤ), prev) events) :
    events.map Envelope.seq =
      (List.range' n events.length).map Nat.cast := by
  induction events generalizing n prev with
  | nil => rfl
  | cons event events ih =>
      obtain ⟨hposition, -, hrest⟩ := h
      have hseq : event.seq = n := congrArg Prod.fst hposition
      have hnext : event.next = (((n + 1 : ℕ) : ℤ), event.eventHash) := by
        rw [Envelope.next, hseq, Nat.cast_succ]
      rw [hnext] at hrest
      rw [List.map_cons, ih hrest, hseq, List.length_cons, List.range'_succ,
        List.map_cons]

def Line.segment : Line → String
  | .record items =>
      match PyVal.getItem items "timestamp" with
      | .str timestamp => segmentFor timestamp
      | _ => ""
  | .broken => ""

theorem segment_record (event : Envelope) :
    (Line.record event.record).segment = event.segment := by
  simp [Line.segment, Envelope.record, Envelope.body, PyVal.getItem,
    PyVal.item?, List.lookup_cons, Envelope.segment]

/-- With an undisturbed disk, the log of any run of calls and re-openings comes
back in order exactly if the days of the emitted events never step back. -/
theorem log_in_order_iff
    (env : BusEnv) (hdone : ∀ n, env.appends n = .done) (ops : List BusOp) :
    InOrder env.host (Bus.after env ops) ↔
      InDayOrder (Bus.after env ops).emitted := by
  have hinv := logInv_after hdone ops
  constructor
  · intro h
    -- Read back, the names are in order, and they are the names as emitted.
    have hlines : (Bus.after env ops).directory.lines =
        linesOf (Bus.after env ops).emitted := by
      rw [lines_of_parse h.readAll_eq, List.map_map]
      rfl
    have hnames : ((Bus.after env ops).directory.lines).Pairwise
        fun a b => a.segment ≤ b.segment := by
      apply readSegments_pairwise hinv.sorted
      intro file hfile line hline
      unfold Segment.read at hline
      rw [hinv.complete file hfile, Option.toList_none,
        List.append_nil] at hline
      obtain ⟨event, rfl, hname⟩ := hinv.named file hfile line hline
      rw [segment_record, hname]
    rw [hlines, linesOf, List.pairwise_map] at hnames
    refine hnames.imp ?_
    intro event later hle
    rw [segment_record, segment_record] at hle
    exact hle
  · intro horder
    obtain ⟨hlines, hchain, -⟩ := hinv.ordered horder
    have hlines' : (Bus.after env ops).directory.lines =
        linesOf (Bus.after env ops).emitted := hlines
    constructor
    · rw [Bus.readAll, hlines', parse_linesOf]
    · rw [List.range_eq_range']
      exact numbered_of_chained (n := 0) hchain
    · rw [Bus.verifyChain, hlines']
      exact verifyFrom_of_chained hchain

def emitMessage (text : String) : BusOp :=
  .emit (.str "CHAT_MESSAGE") (.dict [("text", .str text)]) "test" (.list [])
    .none

def forwardClock (n : ℕ) : String :=
  if n = 0 then "2026-03-01T10:00:00.000000Z"
  else "2026-03-02T10:00:00.000000Z"

theorem log_in_order_forward :
    (∀ n, (referenceBus forwardClock).appends n = .done) ∧
      InOrder referenceHost (Bus.after (referenceBus forwardClock)
        [emitMessage "a", .reopen, emitMessage "b"]) := by
  refine ⟨fun _ => rfl, (log_in_order_iff (referenceBus forwardClock)
    (fun _ => rfl) [emitMessage "a", .reopen, emitMessage "b"]).mpr ?_⟩
  have hdays : ((Bus.after (referenceBus forwardClock)
      [emitMessage "a", .reopen, emitMessage "b"]).emitted.map
      Envelope.segment) =
      ["events-20260301.jsonl", "events-20260302.jsonl"] := by
    decide +kernel
  unfold InDayOrder
  rw [← List.pairwise_map, hdays]
  decide

def backwardClock (n : ℕ) : String :=
  if n = 0 then "2026-03-02T00:00:01.000000Z"
  else "2026-03-01T23:59:59.000000Z"

def Bus.chainOk (host : Host) (s : Bus) : Option Bool :=
  match s.verifyChain host with
  | .ok report => some report.ok
  | .error _ => none

/-- Two events that are emitted over a midnight that the clock crosses backwards
come back in the wrong order, and the chain does not verify. -/
theorem chain_broken_by_backward_clock :
    ¬ InOrder referenceHost (Bus.after (referenceBus backwardClock)
      [emitMessage "a", emitMessage "b"]) := by
  intro h
  have hok : Bus.chainOk referenceHost (Bus.after (referenceBus backwardClock)
      [emitMessage "a", emitMessage "b"]) = some true := by
    unfold Bus.chainOk
    rw [h.verified]
  have hbroken : Bus.chainOk referenceHost
      (Bus.after (referenceBus backwardClock)
        [emitMessage "a", emitMessage "b"]) = some false := by
    decide +kernel
  rw [hbroken] at hok
  cases hok

end Hydrogenuine.Runtime
