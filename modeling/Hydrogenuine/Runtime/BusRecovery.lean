import Hydrogenuine.Runtime.BusLog

/-!
# Recovery after a failed append

An append that fails leaves nothing, a part of its line, the line without its
end, or the whole line on the disk, and the bus is opened again on what is
there.  Opening reads the last line; appending continues in the file.  The
recovery is settled for each of these cases and for every continuation.
-/

namespace Hydrogenuine.Runtime

open Support Hydrogenuine.Core

/-! ## The crash and the recovery -/

/-- The arguments of an emission. -/
structure EmitArgs where
  type : PyVal
  payload : PyVal
  source : String
  causalParents : PyVal
  severity : PyVal

def EmitArgs.op (args : EmitArgs) : BusOp :=
  .emit args.type args.payload args.source args.causalParents args.severity

def EmitArgs.Emits
    (args : EmitArgs) (env : BusEnv) (s : Bus) (event : Envelope) : Prop :=
  Bus.Emitted env s args.type args.payload args.source args.causalParents
    args.severity event

def BusEnv.failing (env : BusEnv) (written : Written) : BusEnv :=
  { env with appends := fun _ => .failed written }

def BusEnv.later (env : BusEnv) (clock : ℕ → String) : BusEnv :=
  { env with clock := clock, appends := fun _ => .done }

def Bus.crash (env : BusEnv) (s : Bus) (args : EmitArgs) (written : Written) :
    Bus :=
  Bus.perform (env.failing written) s args.op

/-- The directory opens, continues where the events on the disk end, and after
any further calls, as long as the clock does not step back over a day, the chain
verifies and every event whose emission returned is there. -/
def Recovers (env : BusEnv) (crashed : Bus) (event : Envelope) : Prop :=
  ∃ t, Bus.reopen env crashed = .ok t ∧
    (∃ events, t.readAll = .ok (events.map Envelope.record) ∧
      (t.nextSeq, t.headHash) = headOf events) ∧
    ∀ clock ops, ∃ added,
      ((busMachine (env.later clock)).final t ops).emitted =
          crashed.emitted ++ added ∧
        (InDayOrder (crashed.emitted ++ [event] ++ added) →
          (∃ n, ((busMachine (env.later clock)).final t ops).verifyChain
            env.host = .ok ⟨true, n, none⟩) ∧
          ∃ records,
            ((busMachine (env.later clock)).final t ops).readAll =
              .ok records ∧
            ∀ e ∈ crashed.emitted ++ added, e.record ∈ records)

section Crash

variable {env : BusEnv} {s : Bus} {args : EmitArgs} {event : Envelope}

theorem crash_eq
    (hevent : args.Emits env s event) (written : Written) :
    Bus.crash env s args written =
      { s with
        readings := s.readings + 1
        writes := s.writes + 1
        directory := s.directory.append event written } := by
  have hends := Bus.emit_ends (env.failing written) s args.type args.payload
    args.source args.causalParents args.severity
  have hsame : args.Emits (env.failing written) s event :=
    ⟨hevent.valid, hevent.parents, hevent.source_eq, hevent.severity_eq,
      hevent.seq_eq, hevent.prev_eq, hevent.timestamp_eq, hevent.sealed_eq⟩
  rcases hends.cases with ⟨e, -, -, hdone, -⟩ | ⟨e, -, hend⟩
  · cases hdone
  · rcases hend with ⟨hrefused, -⟩ | ⟨-, -, hrefused, -⟩ |
      ⟨event', written', hevent', hfailed, -, hfinal⟩
    · cases hsame.valid.symm.trans hrefused
    · cases hsame.parents.symm.trans hrefused
    · obtain rfl : written = written' := Append.failed.inj hfailed
      rw [hsame.unique hevent']
      exact hfinal

theorem perform_later
    {t : Bus} {clock : ℕ → String} {next : Envelope}
    (hnext : args.Emits (env.later clock) t next) :
    Bus.perform (env.later clock) t args.op = t.appended next := by
  have hends := Bus.emit_ends (env.later clock) t args.type args.payload
    args.source args.causalParents args.severity
  rcases hends.cases with ⟨event', -, hevent', -, hfinal⟩ | ⟨e, -, hend⟩
  · rw [hnext.unique hevent']
    exact hfinal
  · rcases hend with ⟨hrefused, -⟩ | ⟨-, -, hrefused, -⟩ |
      ⟨event', written, -, hfailed, -⟩
    · cases hnext.valid.symm.trans hrefused
    · cases hnext.parents.symm.trans hrefused
    · cases hfailed

end Crash

/-! ## Opening what a crash leaves -/

theorem reopen_of_lines
    (env : BusEnv) {s : Bus} {events : List Envelope}
    (h : s.directory.lines = linesOf events) :
    ∃ t, Bus.reopen env s = .ok t ∧ t.directory = s.directory ∧
      t.emitted = s.emitted ∧ (t.nextSeq, t.headHash) = headOf events := by
  unfold Bus.reopen
  rw [recoverChainHead_of_lines env.host h]
  exact ⟨_, rfl, rfl, rfl, rfl⟩

theorem reopen_of_broken
    (env : BusEnv) {s : Bus} {lines : List Line}
    (h : s.directory.lines = lines ++ [.broken]) :
    Bus.reopen env s = .error .jsonDecodeError := by
  unfold Bus.reopen Bus.recoverChainHead
  rw [lastLine_eq, h, List.getLast?_concat]
  rfl

theorem recovers_of_logInv
    {env : BusEnv} {crashed t : Bus} {event : Envelope}
    (events : List Envelope)
    (hopen : Bus.reopen env crashed = .ok t)
    (hemitted : t.emitted = crashed.emitted)
    (hreturned : ∀ e ∈ crashed.emitted, e ∈ events)
    (hdays : InDayOrder (crashed.emitted ++ [event]))
    (hinv : LogInv env.host t.log (crashed.emitted ++ [event]) events) :
    Recovers env crashed event := by
  obtain ⟨hlines, -, hhead⟩ := hinv.ordered hdays
  have hread : t.directory.lines = linesOf events := hlines
  refine ⟨t, hopen, ⟨events, ?_, hhead⟩, ?_⟩
  · rw [Bus.readAll, hread, parse_linesOf]
  · intro clock ops
    have hdone : ∀ n, (env.later clock).appends n = .done := fun _ => rfl
    obtain ⟨added, hadded, hfinal⟩ := logInv_final hdone hinv ops
    refine ⟨added, hemitted ▸ hadded, fun horder => ?_⟩
    obtain ⟨hlines', hchain', -⟩ := hfinal.ordered horder
    generalize (busMachine (env.later clock)).final t ops = u at hlines' ⊢
    have hread' : u.directory.lines = linesOf (events ++ added) := hlines'
    refine ⟨⟨(events ++ added).length, ?_⟩,
      (events ++ added).map Envelope.record, ?_, ?_⟩
    · rw [Bus.verifyChain, hread']
      exact verifyFrom_of_chained hchain'
    · rw [Bus.readAll, hread', parse_linesOf]
    · intro e he
      apply List.mem_map_of_mem
      rcases List.mem_append.mp he with he | he
      · exact List.mem_append_left _ (hreturned e he)
      · exact List.mem_append_right _ he

section Cases

variable {env : BusEnv} {s : Bus} {args : EmitArgs} {event : Envelope}
  (hevent : args.Emits env s event)
  (hinv : LogInv env.host s.log s.emitted s.emitted)
  (hdays : InDayOrder (s.emitted ++ [event]))

include hinv hdays in
theorem files_le (file : String × Segment) (hfile : file ∈ s.directory) :
    file.1 ≤ event.segment := by
  obtain ⟨earlier, hearlier, hname⟩ := hinv.listed file hfile
  rw [← hname]
  exact (inDayOrder_concat.mp hdays).2 earlier hearlier

include hinv in
theorem logInv_touched {directory : Directory}
    (h : directory = s.directory ∨
      directory = s.directory.append event .nothing) :
    LogInv env.host ⟨directory, s.nextSeq, s.headHash⟩ (s.emitted ++ [event])
      s.emitted := by
  have hlast : event ∈ s.emitted ++ [event] :=
    List.mem_append_right _ (List.mem_singleton_self event)
  rcases h with rfl | rfl
  · refine ⟨hinv.sorted, hinv.complete, hinv.named, ?_, ?_⟩
    · intro file hfile
      obtain ⟨earlier, hearlier, hname⟩ := hinv.listed file hfile
      exact ⟨earlier, List.mem_append_left _ hearlier, hname⟩
    · intro horder
      exact hinv.ordered (inDayOrder_concat.mp horder).1
  · have hmem : ∀ file ∈ s.directory.append event .nothing,
        file ∈ s.directory ∨ file = (event.segment, Segment.empty) := by
      intro file hfile
      rcases mem_updateSegment hfile with hold | hnew | ⟨segment, hsegment, rfl⟩
      · exact Or.inl hold
      · exact Or.inr hnew
      · exact Or.inl hsegment
    refine ⟨updateSegment_sorted hinv.sorted, ?_, ?_, ?_, ?_⟩
    · intro file hfile
      rcases hmem file hfile with hold | rfl
      · exact hinv.complete file hold
      · rfl
    · intro file hfile line hline
      rcases hmem file hfile with hold | rfl
      · exact hinv.named file hold line hline
      · cases hline
    · intro file hfile
      rcases hmem file hfile with hold | rfl
      · obtain ⟨earlier, hearlier, hname⟩ := hinv.listed file hold
        exact ⟨earlier, List.mem_append_left _ hearlier, hname⟩
      · exact ⟨event, hlast, rfl⟩
    · intro horder
      obtain ⟨hlines, hchain, hhead⟩ :=
        hinv.ordered (inDayOrder_concat.mp horder).1
      refine ⟨?_, hchain, hhead⟩
      have hsame : (s.directory.append event .nothing).lines =
          s.directory.lines ++ [] := by
        apply readSegments_updateSegment (files_le hinv horder) hinv.sorted
        · intro segment _
          rw [List.append_nil]
          rfl
        · rfl
      rw [hsame, List.append_nil]
      exact hlines

end Cases

/-! ## The cases -/

section Recovery

variable {env : BusEnv} {s : Bus} {args : EmitArgs} {event : Envelope}
  (hevent : args.Emits env s event)
  (hinv : LogInv env.host s.log s.emitted s.emitted)
  (hdays : InDayOrder (s.emitted ++ [event]))

include hevent hinv hdays

theorem recovers_of_untouched
    {written : Written} (h : written = .unopened ∨ written = .nothing) :
    Recovers env (Bus.crash env s args written) event := by
  have hcrash := crash_eq hevent written
  have hdirectory : (Bus.crash env s args written).directory = s.directory ∨
      (Bus.crash env s args written).directory =
        s.directory.append event .nothing := by
    rw [hcrash]
    rcases h with rfl | rfl
    · exact Or.inl rfl
    · exact Or.inr rfl
  have hemitted : (Bus.crash env s args written).emitted = s.emitted := by
    rw [hcrash]
  have htouched := logInv_touched hinv hdirectory
  obtain ⟨hlines, -, hhead⟩ := htouched.ordered hdays
  obtain ⟨t, hopen, hdir, hemit, hat⟩ :=
    reopen_of_lines (s := Bus.crash env s args written) env hlines
  refine recovers_of_logInv s.emitted hopen hemit ?_ ?_ ?_
  · rw [hemitted]
    exact fun e he => he
  · rw [hemitted]
    exact hdays
  · have hlog : t.log = ⟨(Bus.crash env s args written).directory, s.nextSeq,
        s.headHash⟩ := by
      obtain ⟨hseq, hhash⟩ := Prod.mk.inj (hat.trans hhead.symm)
      unfold Bus.log
      rw [hdir, hseq, hhash]
    rw [hemitted, hlog]
    exact htouched

theorem recovers_of_line :
    Recovers env (Bus.crash env s args .line) event := by
  have hcrash := crash_eq hevent .line
  have hadd := logInv_add hinv hevent.atHead
  obtain ⟨hlines, -, hhead⟩ := hadd.ordered hdays
  have hdirectory : (Bus.crash env s args .line).directory =
      (s.log.add event).directory := by
    rw [hcrash]
    rfl
  have hemitted : (Bus.crash env s args .line).emitted = s.emitted := by
    rw [hcrash]
  have hcrashed : (Bus.crash env s args .line).directory.lines =
      linesOf (s.emitted ++ [event]) := by
    rw [hdirectory]
    exact hlines
  obtain ⟨t, hopen, hdir, hemit, hat⟩ := reopen_of_lines env hcrashed
  refine recovers_of_logInv (s.emitted ++ [event]) hopen hemit ?_ ?_ ?_
  · rw [hemitted]
    exact fun e he => List.mem_append_left _ he
  · rw [hemitted]
    exact hdays
  · have hlog : t.log = s.log.add event := by
      obtain ⟨hseq, hhash⟩ := Prod.mk.inj (hat.trans hhead.symm)
      change (⟨t.directory, t.nextSeq, t.headHash⟩ : LogState) = _
      rw [hdir, hseq, hhash, hdirectory]
    rw [hemitted, hlog]
    exact hadd

theorem not_recovers_of_part :
    ¬ Recovers env (Bus.crash env s args .part) event := by
  rintro ⟨t, hopen, -⟩
  have hlines : (Bus.crash env s args .part).directory.lines =
      s.directory.lines ++ [.broken] := by
    rw [crash_eq hevent]
    apply readSegments_updateSegment (files_le hinv hdays) hinv.sorted _ rfl
    rintro segment (rfl | hsegment)
    · rfl
    · have hrest : segment.rest = none := hinv.complete _ hsegment
      simp [Segment.write, Segment.read, hrest]
  rw [reopen_of_broken env hlines] at hopen
  cases hopen

/-- A line without its end opens, but the next event of the day runs into it. -/
theorem not_recovers_of_unterminated :
    ¬ Recovers env (Bus.crash env s args .unterminated) event := by
  have hcrash := crash_eq hevent .unterminated
  rintro ⟨t, hopen, -, hlater⟩
  -- Emit the same once more, on the same day.
  obtain ⟨added, hadded, hgood⟩ := hlater (fun _ => event.timestamp) [args.op]
  obtain ⟨hdir, hemit⟩ : t.directory =
      (Bus.crash env s args .unterminated).directory ∧
      t.emitted = (Bus.crash env s args .unterminated).emitted := by
    unfold Bus.reopen at hopen
    cases hhead : Bus.recoverChainHead env.host
        (Bus.crash env s args .unterminated).directory with
    | error e =>
        rw [hhead] at hopen
        cases hopen
    | ok head =>
        rw [hhead] at hopen
        obtain rfl := Except.ok.inj hopen
        exact ⟨rfl, rfl⟩
  let next : Envelope := Envelope.sealed env.host
    { seq := t.nextSeq
      timestamp := event.timestamp
      type := event.type
      payload := event.payload
      source := event.source
      causalParents := event.causalParents
      severity := event.severity
      prevHash := t.headHash
      eventHash := ""
      eventId := "" }
  have hnext : args.Emits (env.later fun _ => event.timestamp) t next :=
    ⟨hevent.valid, hevent.parents, hevent.source_eq, hevent.severity_eq, rfl,
      rfl, rfl, rfl⟩
  have hfinal : (busMachine (env.later fun _ => event.timestamp)).final t
      [args.op] = t.appended next := perform_later hnext
  have hemitted : (Bus.crash env s args .unterminated).emitted = s.emitted := by
    rw [hcrash]
  rw [hfinal] at hadded hgood
  obtain rfl : [next] = added := by
    have hsplit : t.emitted ++ [next] =
        (Bus.crash env s args .unterminated).emitted ++ added := hadded
    rw [hemit] at hsplit
    exact List.append_cancel_left hsplit
  have horder : InDayOrder ((Bus.crash env s args .unterminated).emitted ++
      [event] ++ [next]) := by
    rw [hemitted, inDayOrder_concat]
    refine ⟨hdays, fun e he => ?_⟩
    rcases List.mem_append.mp he with he | he
    · exact (inDayOrder_concat.mp hdays).2 e he
    · rw [List.mem_singleton.mp he]
      exact le_refl event.segment
  obtain ⟨⟨n, hverified⟩, -⟩ := hgood horder
  have hlines : (t.appended next).directory.lines =
      linesOf s.emitted ++ [.broken] := by
    have htwice : (t.appended next).directory =
        updateSegment event.segment
          ((fun segment => segment.write (.record next.record) .line) ∘
            fun segment => segment.write (.record event.record) .unterminated)
          .empty s.directory := by
      rw [← updateSegment_updateSegment]
      change Directory.append t.directory next .line = _
      rw [hdir, hcrash]
      rfl
    have hprior : s.directory.lines = linesOf s.emitted :=
      (hinv.ordered (inDayOrder_concat.mp hdays).1).1
    rw [htwice, ← hprior]
    apply readSegments_updateSegment (files_le hinv hdays) hinv.sorted _ rfl
    rintro segment (rfl | hsegment)
    · rfl
    · have hrest : segment.rest = none := hinv.complete _ hsegment
      simp [Segment.write, Segment.glue, Segment.read, hrest]
  obtain ⟨-, hchain, -⟩ := hinv.ordered (inDayOrder_concat.mp hdays).1
  rw [Bus.verifyChain, hlines, verifyFrom_append (n := 0) hchain] at hverified
  cases hverified

end Recovery

/-- After any run on an undisturbed disk, the bus recovers from a failed append
exactly if nothing of the line, or all of it with its end, was written. -/
theorem recovers_iff
    (env : BusEnv) (hdone : ∀ n, env.appends n = .done) (ops : List BusOp)
    {args : EmitArgs} {event : Envelope}
    (hevent : args.Emits env (Bus.after env ops) event)
    (hdays : InDayOrder ((Bus.after env ops).emitted ++ [event]))
    (written : Written) :
    Recovers env (Bus.crash env (Bus.after env ops) args written) event ↔
      written ≠ .part ∧ written ≠ .unterminated := by
  have hinv := logInv_after hdone ops
  cases written with
  | unopened =>
      simp [recovers_of_untouched hevent hinv hdays (Or.inl rfl)]
  | nothing =>
      simp [recovers_of_untouched hevent hinv hdays (Or.inr rfl)]
  | part => simp [not_recovers_of_part hevent hinv hdays]
  | unterminated => simp [not_recovers_of_unterminated hevent hinv hdays]
  | line => simp [recovers_of_line hevent hinv hdays]

/-! ### Concrete crashes -/

def lostMessage : EmitArgs where
  type := .str "CHAT_MESSAGE"
  payload := .dict [("text", .str "b")]
  source := "test"
  causalParents := .list []
  severity := .none

def oneMessage : Bus :=
  Bus.after (referenceBus forwardClock) [emitMessage "a"]

def lostEvent : Envelope :=
  Envelope.sealed referenceHost
    { seq := oneMessage.nextSeq
      timestamp := forwardClock oneMessage.readings
      type := "CHAT_MESSAGE"
      payload := [("text", .str "b")]
      source := "test"
      causalParents := []
      severity := .none
      prevHash := oneMessage.headHash
      eventHash := ""
      eventId := "" }

theorem lostMessage_emits :
    lostMessage.Emits (referenceBus forwardClock) oneMessage lostEvent where
  valid := by rfl
  parents := rfl
  source_eq := rfl
  severity_eq := rfl
  seq_eq := rfl
  prev_eq := rfl
  timestamp_eq := rfl
  sealed_eq := rfl

theorem lostEvent_inDayOrder : InDayOrder (oneMessage.emitted ++ [lostEvent]) := by
  have hdays : (oneMessage.emitted ++ [lostEvent]).map Envelope.segment =
      ["events-20260301.jsonl", "events-20260302.jsonl"] := by
    decide +kernel
  unfold InDayOrder
  rw [← List.pairwise_map, hdays]
  decide

theorem recovers_from_unwritten :
    Recovers (referenceBus forwardClock)
      (Bus.crash (referenceBus forwardClock) oneMessage lostMessage .nothing)
      lostEvent :=
  (recovers_iff (referenceBus forwardClock) (fun _ => rfl) [emitMessage "a"]
    lostMessage_emits lostEvent_inDayOrder .nothing).mpr (by decide)

/-- A directory with a torn last line cannot be opened any more. -/
theorem torn_line_not_recovered :
    ¬ Recovers (referenceBus forwardClock)
      (Bus.crash (referenceBus forwardClock) oneMessage lostMessage .part)
      lostEvent :=
  not_recovers_of_part lostMessage_emits
    (logInv_after (fun _ => rfl) [emitMessage "a"]) lostEvent_inDayOrder

end Hydrogenuine.Runtime
