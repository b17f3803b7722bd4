import Mathlib.Algebra.Order.Field.Rat
import Mathlib.Tactic.Linarith
import Hydrogenuine.Realtime.RunLeases

/-!
# Who holds a run

A worker holds a run from the answer that leases it until it releases the run or the
lease is stale.  `holdings` keeps these books from the answers alone, next to the table
of the store.

The invariant is that the row of a run belongs to the worker of every live holding of
it.  Acquiring, beating and reaping keep it, since each looks at the row; releasing
deletes the row of the run whoever it belongs to.  A worker that was slower than its
lease ends the lease of the next holder when it releases the run, and then a third
worker acquires the run beside that holder.
-/

namespace Hydrogenuine.Realtime

open Support

abbrev LeaseCallStep := Step LeaseStore TimedCall LeaseAnswer

/-! ## Holdings -/

/-- A lease that a worker was given, and what the worker did with it since. -/
structure Holding where
  run : String
  worker : String
  leaseId : String
  lastBeat : ℚ
  released : Bool

/-- The holding after one more call: a heartbeat for it that was accepted renews it, and
its worker's release of the run gives it up. -/
def Holding.after (e : LeaseCallStep) (h : Holding) : Holding :=
  match e.input.call, e.output with
  | .heartbeat workerId runId leaseId _, .beaten =>
      if h.run = runId ∧ h.worker = workerId ∧ h.leaseId = leaseId then
        { h with lastBeat := e.after.clock }
      else h
  | .release workerId runId, _ =>
      if h.run = runId ∧ h.worker = workerId then { h with released := true } else h
  | _, _ => h

def granted (e : LeaseCallStep) : List Holding :=
  match e.output with
  | .leased lease => [⟨lease.runId, lease.workerId, lease.leaseId, lease.acquiredAt, false⟩]
  | _ => []

def holdings (tr : List LeaseCallStep) : List Holding :=
  tr.foldl (fun hs e => hs.map (Holding.after e) ++ granted e) []

def staleBounds (run : String) (tr : List LeaseCallStep) : List ℚ :=
  tr.filterMap fun e =>
    match e.input.call with
    | .acquire _ runId _ staleAfterS => if runId = run then some staleAfterS else none
    | .reapStale staleAfterS => some staleAfterS
    | _ => none

/-- At time `t` the holding is not released by its worker and not stale. -/
def Holding.Live (tr : List LeaseCallStep) (t : ℚ) (h : Holding) : Prop :=
  h.released = false ∧ ∀ bound ∈ staleBounds h.run tr, t - h.lastBeat ≤ bound

instance (tr : List LeaseCallStep) (t : ℚ) (h : Holding) : Decidable (h.Live tr t) :=
  inferInstanceAs (Decidable (_ ∧ _))

/-- The worker was given a lease on the run at some time. -/
def HasHeld (tr : List LeaseCallStep) (worker run : String) : Prop :=
  ∃ h ∈ holdings tr, h.run = run ∧ h.worker = worker

def LeaseCall.actsOn : LeaseCall → Option (String × String)
  | .heartbeat workerId runId _ _ => some (workerId, runId)
  | .release workerId runId => some (workerId, runId)
  | _ => none

/-- From the call on live holdings of one run have one worker, and the call does not
touch the row of another worker when it comes from one that held the run before. -/
def Exclusive (earlier : List LeaseCallStep) (e : LeaseCallStep) : Prop :=
  (∀ t ≥ e.after.clock, ∀ h ∈ holdings (earlier ++ [e]),
    ∀ h' ∈ holdings (earlier ++ [e]), h.run = h'.run →
      h.Live (earlier ++ [e]) t → h'.Live (earlier ++ [e]) t → h.worker = h'.worker) ∧
  ∀ worker run row, e.input.call.actsOn = some (worker, run) →
    HasHeld earlier worker run → e.before.table.get? run = some row →
    row.workerId ≠ worker → e.after.table.get? run = some row

/-- A release meets no row, a row of the worker that calls it, or a stale row of a run
that this worker never held. -/
def ReleasesOwn (earlier : List LeaseCallStep) (e : LeaseCallStep) : Prop :=
  ∀ worker run row, e.input.call = .release worker run →
    e.before.table.get? run = some row →
      row.workerId = worker ∨
        ¬ HasHeld earlier worker run ∧
          ∃ bound ∈ staleBounds run earlier, bound < e.after.clock - row.lastHeartbeatAt

section Books

variable {tr : List LeaseCallStep} {e : LeaseCallStep} {h : Holding} {t : ℚ}

theorem holdings_concat (tr : List LeaseCallStep) (e : LeaseCallStep) :
    holdings (tr ++ [e]) = (holdings tr).map (Holding.after e) ++ granted e := by
  simp [holdings]

theorem mem_holdings_concat :
    h ∈ holdings (tr ++ [e]) ↔
      (∃ h₀ ∈ holdings tr, h₀.after e = h) ∨ h ∈ granted e := by
  rw [holdings_concat, List.mem_append, List.mem_map]

theorem mem_staleBounds_concat {run : String} {bound : ℚ}
    (hbound : bound ∈ staleBounds run tr) : bound ∈ staleBounds run (tr ++ [e]) := by
  rw [staleBounds, List.filterMap_append]
  exact List.mem_append_left _ hbound

theorem Holding.Live.earlier
    (hlive : h.Live (tr ++ [e]) t) {t₀ : ℚ} (hle : t₀ ≤ t) : h.Live tr t₀ := by
  refine ⟨hlive.1, fun bound hbound => ?_⟩
  have := hlive.2 bound (mem_staleBounds_concat hbound)
  linarith

end Books

/-! ## The row of a run and its live holdings -/

/-- The row of the run belongs to the worker of the holding and is at least as
recent. -/
def Backs (table : LeaseTable) (h : Holding) : Prop :=
  ∃ row, table.get? h.run = some row ∧ row.workerId = h.worker ∧
    h.lastBeat ≤ row.lastHeartbeatAt

/-- No beat lies in the future, and the table backs every live holding. -/
structure Backed (tr : List LeaseCallStep) (s : LeaseStore) : Prop where
  past : ∀ h ∈ holdings tr, h.lastBeat ≤ s.clock
  backs : ∀ h ∈ holdings tr, h.Live tr s.clock → Backs s.table h

theorem Backed.worker_eq
    {tr : List LeaseCallStep} {s : LeaseStore} (hs : Backed tr s) {h h' : Holding}
    (hmem : h ∈ holdings tr) (hmem' : h' ∈ holdings tr) (hrun : h.run = h'.run) {t : ℚ}
    (ht : s.clock ≤ t) (hlive : h.Live tr t) (hlive' : h'.Live tr t) :
    h.worker = h'.worker := by
  have hsooner {k : Holding} (hk : k.Live tr t) : k.Live tr s.clock :=
    ⟨hk.1, fun bound hbound => by linarith [hk.2 bound hbound]⟩
  obtain ⟨row, hrow, hworker, -⟩ := hs.backs h hmem (hsooner hlive)
  obtain ⟨row', hrow', hworker', -⟩ := hs.backs h' hmem' (hsooner hlive')
  rw [hrun, hrow'] at hrow
  obtain rfl := Option.some.inj hrow
  rw [← hworker, hworker']

section Keeping

variable {tr : List LeaseCallStep} {s : LeaseStore} {input : TimedCall}

theorem LeaseStore.clock_le_next (s : LeaseStore) (input : TimedCall) :
    s.clock ≤ s.next input :=
  le_add_of_nonneg_right input.elapsed.2

/-- The table and the books stay together if the call keeps backed what is live, and
backs what it grants. -/
theorem backed_step
    (hpast : ∀ h ∈ holdings tr, (h.after (leaseStoreMachine.stepAt s input)).lastBeat ≤
      s.next input)
    (hold : ∀ h ∈ holdings tr,
      (h.after (leaseStoreMachine.stepAt s input)).Live
        (tr ++ [leaseStoreMachine.stepAt s input]) (s.next input) →
      Backs (leaseStoreMachine.step s input).1.table
        (h.after (leaseStoreMachine.stepAt s input)))
    (hnew : ∀ h ∈ granted (leaseStoreMachine.stepAt s input),
      h.lastBeat ≤ s.next input ∧ Backs (leaseStoreMachine.step s input).1.table h) :
    Backed (tr ++ [leaseStoreMachine.stepAt s input])
      (leaseStoreMachine.step s input).1 where
  past h hmem := by
    rcases mem_holdings_concat.mp hmem with ⟨h₀, hmem₀, rfl⟩ | hgranted
    · exact hpast h₀ hmem₀
    · exact (hnew h hgranted).1
  backs h hmem hlive := by
    rcases mem_holdings_concat.mp hmem with ⟨h₀, hmem₀, rfl⟩ | hgranted
    · exact hold h₀ hmem₀ hlive
    · exact (hnew h hgranted).2

theorem Backed.step_of_unnoticed
    (hs : Backed tr s)
    (hsame : ∀ h : Holding, h.after (leaseStoreMachine.stepAt s input) = h)
    (hold : ∀ h ∈ holdings tr, Backs s.table h →
      h.Live (tr ++ [leaseStoreMachine.stepAt s input]) (s.next input) →
      Backs (leaseStoreMachine.step s input).1.table h)
    (hnew : ∀ h ∈ granted (leaseStoreMachine.stepAt s input),
      h.lastBeat ≤ s.next input ∧ Backs (leaseStoreMachine.step s input).1.table h) :
    Backed (tr ++ [leaseStoreMachine.stepAt s input])
      (leaseStoreMachine.step s input).1 := by
  refine backed_step (fun h hmem => ?_) (fun h hmem hlive => ?_) hnew
  · rw [hsame]
    exact (hs.past h hmem).trans (s.clock_le_next input)
  · rw [hsame] at hlive ⊢
    have hbefore := hlive.earlier (s.clock_le_next input)
    exact hold h hmem (hs.backs h hmem hbefore) hlive

theorem mem_staleBounds_last {run : String} {bound : ℚ} {e : LeaseCallStep}
    (hbound : bound ∈ staleBounds run [e]) : bound ∈ staleBounds run (tr ++ [e]) := by
  rw [staleBounds, List.filterMap_append]
  exact List.mem_append_right _ hbound

theorem Backed.step_of_refused
    (hs : Backed tr s) {message : String}
    (hcall : (∃ workerId runId uuid staleAfterS,
        input.call = .acquire workerId runId uuid staleAfterS) ∨
      ∃ workerId runId leaseId seq,
        input.call = .heartbeat workerId runId leaseId seq)
    (hstep : leaseStoreMachine.step s input =
      (⟨s.next input, s.table⟩, .refused message)) :
    Backed (tr ++ [leaseStoreMachine.stepAt s input])
      (leaseStoreMachine.step s input).1 := by
  refine hs.step_of_unnoticed (fun h => ?_) (fun h _ hbacks _ => ?_) (fun h hmem => ?_)
  · simp only [Holding.after, Machine.stepAt, hstep]
    rcases hcall with ⟨_, _, _, _, hcall⟩ | ⟨_, _, _, _, hcall⟩ <;> rw [hcall]
  · rw [hstep]
    exact hbacks
  · simp only [granted, Machine.stepAt, hstep] at hmem
    cases hmem

theorem Backed.acquire
    (hs : Backed tr s) {workerId runId uuid : String} {staleAfterS : ℚ}
    (hcall : input.call = .acquire workerId runId uuid staleAfterS) :
    Backed (tr ++ [leaseStoreMachine.stepAt s input])
      (leaseStoreMachine.step s input).1 := by
  rcases acquire_cases s hcall with ⟨hstep, hstale⟩ | ⟨message, hstep⟩
  · refine hs.step_of_unnoticed (fun h => ?_) (fun h _ hbacks hlive => ?_)
      (fun h hmem => ?_)
    · simp only [Holding.after, Machine.stepAt, hcall]
    · obtain ⟨row, hrow, hworker, hbeat⟩ := hbacks
      have hother : h.run ≠ runId := by
        rintro rfl
        have hfresh := hlive.2 staleAfterS (mem_staleBounds_last (by
          simp [staleBounds, Machine.stepAt, hcall]))
        linarith [hstale row hrow]
      refine ⟨row, ?_, hworker, hbeat⟩
      rw [hstep]
      exact (Dict.get?_set_of_ne _ _ hother).trans hrow
    · simp only [granted, Machine.stepAt, hstep, List.mem_singleton] at hmem
      subst hmem
      refine ⟨le_rfl, ?_⟩
      rw [hstep]
      exact ⟨_, Dict.get?_set_self _ _ _, rfl, le_rfl⟩
  · exact hs.step_of_refused (Or.inl ⟨_, _, _, _, hcall⟩) hstep

theorem Backed.heartbeat
    (hs : Backed tr s) {workerId runId leaseId : String} {seq : ℤ}
    (hcall : input.call = .heartbeat workerId runId leaseId seq) :
    Backed (tr ++ [leaseStoreMachine.stepAt s input])
      (leaseStoreMachine.step s input).1 := by
  rcases heartbeat_cases s hcall with
    ⟨row, hrow, -, hworker, hstep⟩ | ⟨message, hstep⟩
  · have hafter (h : Holding) : h.after (leaseStoreMachine.stepAt s input) =
        if h.run = runId ∧ h.worker = workerId ∧ h.leaseId = leaseId then
          { h with lastBeat := s.next input } else h := by
      simp only [Holding.after, Machine.stepAt, hcall, hstep]
    refine backed_step (fun h hmem => ?_) (fun h hmem hlive => ?_) (fun h hmem => ?_)
    · rw [hafter]
      split_ifs
      · exact le_rfl
      · exact (hs.past h hmem).trans (s.clock_le_next input)
    · rw [hafter] at hlive ⊢
      rw [hstep]
      split_ifs at hlive ⊢ with hown
      · obtain ⟨rfl, rfl, -⟩ := hown
        exact ⟨_, Dict.get?_set_self _ _ _, hworker, le_rfl⟩
      · obtain ⟨row', hrow', hworker', hbeat⟩ :=
          hs.backs h hmem (hlive.earlier (s.clock_le_next input))
        by_cases hrun : h.run = runId
        · subst hrun
          obtain rfl := Option.some.inj (hrow.symm.trans hrow')
          exact ⟨_, Dict.get?_set_self _ _ _, hworker',
            (hs.past h hmem).trans (s.clock_le_next input)⟩
        · exact ⟨row', (Dict.get?_set_of_ne _ _ hrun).trans hrow', hworker', hbeat⟩
    · simp only [granted, Machine.stepAt, hstep] at hmem
      cases hmem
  · exact hs.step_of_refused (Or.inr ⟨_, _, _, _, hcall⟩) hstep

theorem Backed.reapStale
    (hs : Backed tr s) {staleAfterS : ℚ} (hcall : input.call = .reapStale staleAfterS) :
    Backed (tr ++ [leaseStoreMachine.stepAt s input])
      (leaseStoreMachine.step s input).1 := by
  refine hs.step_of_unnoticed (fun h => ?_) (fun h _ hbacks hlive => ?_)
    (fun h hmem => ?_)
  · simp only [Holding.after, Machine.stepAt, hcall]
  · obtain ⟨row, hrow, hworker, hbeat⟩ := hbacks
    have hfresh := hlive.2 staleAfterS (mem_staleBounds_last (by
      simp [staleBounds, Machine.stepAt, hcall]))
    refine ⟨row, ?_, hworker, hbeat⟩
    simp only [leaseStoreMachine, LeaseTable.call, hcall]
    exact get?_reapStale_of_fresh hrow (by linarith)
  · simp only [granted, Machine.stepAt, leaseStoreMachine, LeaseTable.call, hcall] at hmem
    cases hmem

theorem Backed.release
    (hs : Backed tr s) {workerId runId : String}
    (hcall : input.call = .release workerId runId)
    (hown : ReleasesOwn tr (leaseStoreMachine.stepAt s input)) :
    Backed (tr ++ [leaseStoreMachine.stepAt s input])
      (leaseStoreMachine.step s input).1 := by
  have hafter (h : Holding) : h.after (leaseStoreMachine.stepAt s input) =
      if h.run = runId ∧ h.worker = workerId then { h with released := true }
      else h := by
    simp only [Holding.after, Machine.stepAt, hcall]
  have htable : (leaseStoreMachine.step s input).1.table =
      (s.table.release runId).2 := by
    simp only [leaseStoreMachine, LeaseTable.call, hcall]
  refine backed_step (fun h hmem => ?_) (fun h hmem hlive => ?_) (fun h hmem => ?_)
  · rw [hafter]
    split_ifs
    · exact (hs.past h hmem).trans (s.clock_le_next input)
    · exact (hs.past h hmem).trans (s.clock_le_next input)
  · rw [hafter] at hlive ⊢
    split_ifs at hlive ⊢ with hgiven
    · exact absurd hlive.1 (by simp)
    · obtain ⟨row, hrow, hworker, hbeat⟩ :=
        hs.backs h hmem (hlive.earlier (s.clock_le_next input))
      refine ⟨row, ?_, hworker, hbeat⟩
      rw [htable, get?_release]
      split_ifs with hrun
      · exfalso
        rcases hown workerId runId row hcall (hrun ▸ hrow) with
          hsame | ⟨-, bound, hbound, hstale⟩
        · exact hgiven ⟨hrun, hworker.symm.trans hsame⟩
        · have hfresh := hlive.2 bound (mem_staleBounds_concat (hrun ▸ hbound))
          change bound < s.next input - _ at hstale
          linarith
      · exact hrow
  · simp only [granted, Machine.stepAt, leaseStoreMachine, LeaseTable.call, hcall] at hmem
    cases hmem

theorem Backed.step
    (hs : Backed tr s) (hown : ReleasesOwn tr (leaseStoreMachine.stepAt s input)) :
    Backed (tr ++ [leaseStoreMachine.stepAt s input])
      (leaseStoreMachine.step s input).1 := by
  cases hcall : input.call with
  | acquire => exact hs.acquire hcall
  | heartbeat => exact hs.heartbeat hcall
  | release => exact hs.release hcall hown
  | reapStale => exact hs.reapStale hcall

end Keeping

/-! ## Runs of the store -/

theorem actsOn_leaves
    {tr : List LeaseCallStep} {s : LeaseStore} {input : TimedCall}
    (hown : ReleasesOwn tr (leaseStoreMachine.stepAt s input)) {worker run : String}
    {row : RunLease} (hacts : input.call.actsOn = some (worker, run))
    (hheld : HasHeld tr worker run) (hrow : s.table.get? run = some row)
    (hother : row.workerId ≠ worker) :
    (leaseStoreMachine.step s input).1.table.get? run = some row := by
  cases hcall : input.call with
  | acquire => simp [LeaseCall.actsOn, hcall] at hacts
  | reapStale => simp [LeaseCall.actsOn, hcall] at hacts
  | release workerId runId =>
      rw [hcall] at hacts
      obtain ⟨rfl, rfl⟩ := Prod.mk.inj (Option.some.inj hacts)
      rcases hown _ _ row hcall hrow with hsame | ⟨hnever, -⟩
      · exact absurd hsame hother
      · exact absurd hheld hnever
  | heartbeat workerId runId leaseId seq =>
      rw [hcall] at hacts
      obtain ⟨rfl, rfl⟩ := Prod.mk.inj (Option.some.inj hacts)
      rcases heartbeat_cases s hcall with
        ⟨row', hrow', -, hworker, -⟩ | ⟨message, hstep⟩
      · obtain rfl := Option.some.inj (hrow.symm.trans hrow')
        exact absurd hworker hother
      · rw [hstep]
        exact hrow

/-- In every run of the store whose releases meet no lease of another worker, one
worker at most holds a run at any moment, and a worker whose lease was reclaimed leaves
the lease of the next holder alone. -/
theorem one_holder
    (start : ℚ) (inputs : List TimedCall)
    (hown : ∀ earlier e later, leaseStoreMachine.trace (.opened start) inputs =
      earlier ++ e :: later → ReleasesOwn earlier e) :
    ∀ earlier e later, leaseStoreMachine.trace (.opened start) inputs =
      earlier ++ e :: later → Exclusive earlier e := by
  refine Machine.forall_split_of_forall_split Backed ReleasesOwn Exclusive
    ⟨fun h hmem => absurd hmem List.not_mem_nil,
      fun h hmem => absurd hmem List.not_mem_nil⟩ ?_ hown
  intro tr s input hs hguard
  have hafter := hs.step hguard
  refine ⟨hafter, fun t ht h hmem h' hmem' hrun hlive hlive' => ?_, ?_⟩
  · exact hafter.worker_eq hmem hmem' hrun ht hlive hlive'
  · intro worker run row hacts hheld hrow hother
    exact actsOn_leaves hguard hacts hheld hrow hother

def meetsOwnRow (e : LeaseCallStep) : Bool :=
  match e.input.call with
  | .release workerId runId =>
      (e.before.table.get? runId).all fun row => row.workerId = workerId
  | _ => true

theorem releasesOwn_of_meetsOwnRow
    {earlier : List LeaseCallStep} {e : LeaseCallStep} (h : meetsOwnRow e = true) :
    ReleasesOwn earlier e := by
  intro worker run row hcall hrow
  rw [meetsOwnRow, hcall] at h
  simp only [hrow, Option.all_some, decide_eq_true_eq] at h
  exact Or.inl h

def turns : List TimedCall :=
  [⟨0, .acquire "w1" "r" "a" 30⟩, ⟨10, .heartbeat "w1" "r" "a" 1⟩,
    ⟨10, .release "w1" "r"⟩, ⟨1, .acquire "w2" "r" "b" 30⟩]

theorem one_holder_turns :
    (leaseStoreMachine.trace (.opened 0) turns).length = 4 ∧
      ∀ earlier e later, leaseStoreMachine.trace (.opened 0) turns =
        earlier ++ e :: later → Exclusive earlier e := by
  have hown : ∀ e ∈ leaseStoreMachine.trace (.opened 0) turns, meetsOwnRow e = true := by
    decide +kernel
  refine ⟨rfl, one_holder 0 turns fun earlier e later heq => ?_⟩
  apply releasesOwn_of_meetsOwnRow
  apply hown
  rw [heq]
  exact List.mem_append_right _ List.mem_cons_self

def slowWorkerRun : List TimedCall :=
  [⟨0, .acquire "w1" "r" "a" 30⟩, ⟨100, .acquire "w2" "r" "b" 30⟩,
    ⟨1, .release "w1" "r"⟩]

def thirdWorker : TimedCall := ⟨1, .acquire "w3" "r" "c" 30⟩

theorem slow_release_opens_run :
    ¬ ∀ earlier e later,
      leaseStoreMachine.trace (.opened 0) (slowWorkerRun ++ [thirdWorker]) =
        earlier ++ e :: later → Exclusive earlier e := by
  intro hall
  obtain ⟨hone, -⟩ := hall _ _ [] (Machine.trace_snoc _ _ _ _)
  rw [← Machine.trace_snoc] at hone
  have htwo : ∃ h ∈ holdings (leaseStoreMachine.trace (.opened 0)
        (slowWorkerRun ++ [thirdWorker])),
      ∃ h' ∈ holdings (leaseStoreMachine.trace (.opened 0)
        (slowWorkerRun ++ [thirdWorker])), h.run = h'.run ∧
        h.Live (leaseStoreMachine.trace (.opened 0) (slowWorkerRun ++ [thirdWorker]))
          102 ∧
        h'.Live (leaseStoreMachine.trace (.opened 0) (slowWorkerRun ++ [thirdWorker]))
          102 ∧ h.worker ≠ h'.worker := by
    decide +kernel
  obtain ⟨h, hmem, h', hmem', hrun, hlive, hlive', hworkers⟩ := htwo
  exact hworkers (hone 102 (by decide +kernel) h hmem h' hmem' hrun hlive hlive')

end Hydrogenuine.Realtime
