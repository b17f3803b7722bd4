import Hydrogenuine.Ownership.Rejections

/-!
# Passing the baton

An offer and its accept are two operations on one record.  The record does not say what
was offered to whom: an accept installs whoever calls it, with whatever token, and an
offer takes the lead from the actor that makes it, since no task has a lead in state
`assigned`.  So the baton is passed in two phases exactly as far as the callers keep to
it: the accepts that are not refused answer an outstanding offer, and no lead offers its
own task.
-/

namespace Hydrogenuine.Ownership

open Support

def ownershipMachine : Machine Tables (Call × OwnershipOp) ProtocolResult where
  step tables input :=
    ((input.2.perform input.1 tables).2, (input.2.perform input.1 tables).1)

abbrev OwnershipStep := Step Tables (Call × OwnershipOp) ProtocolResult

/-! ## Offers and what becomes of them -/

section Steps

variable (e : OwnershipStep) (runId taskId : String)

def leadBefore : Option String := (e.before.getTask runId taskId).currentLead

def leadAfter : Option String := (e.after.getTask runId taskId).currentLead

def Offers (actor offeredTo tokenId : String) (ackDeadlineTs : ℚ) : Prop :=
  e.input.1.runId = runId ∧
    (∃ leaseTtlS ackDeadlineS expectedVersion rolesDelta, e.input.2 =
      .offer taskId actor offeredTo leaseTtlS ackDeadlineS expectedVersion rolesDelta) ∧
    e.output.ok = true ∧ e.output.tokenId = some tokenId ∧
    e.output.ackDeadlineTs = some ackDeadlineTs

def Declines (tokenId : String) : Prop :=
  e.input.1.runId = runId ∧ ∃ actor reason expectedVersion,
    e.input.2 = .decline taskId actor tokenId reason expectedVersion

/-- The operation is a call of `accept_ownership`. -/
def CallsAccept (actor tokenId : String) : Prop :=
  e.input.1.runId = runId ∧ ∃ leaseTtlS expectedVersion,
    e.input.2 = .accept taskId actor tokenId leaseTtlS expectedVersion

def Accepts (actor tokenId : String) : Prop :=
  CallsAccept e runId taskId actor tokenId ∧ e.output.ok = true

/-- The operation is a call of `resolve_contested`. -/
def Resolves : Prop :=
  e.input.1.runId = runId ∧ ∃ actor expectedVersion winnerActor,
    e.input.2 = .resolve taskId actor expectedVersion winnerActor

/-- The operation releases or abandons the task, or marks it contested. -/
def GivesUp : Prop :=
  e.input.1.runId = runId ∧ e.output.ok = true ∧
    ((∃ actor tokenId expectedVersion nextOffer,
      e.input.2 = .release taskId actor tokenId expectedVersion nextOffer) ∨
    (∃ actor expectedVersion reason,
      e.input.2 = .abandon taskId actor expectedVersion reason) ∨
    ∃ actor claims expectedVersion,
      e.input.2 = .contest taskId actor claims expectedVersion)

/-- The operation makes the actor the executor of the task. -/
def Installs (actor : String) : Prop :=
  actor ≠ "" ∧ (e.after.getTask runId taskId).executorId = actor ∧
    (e.before.getTask runId taskId).executorId ≠ actor

def OffersAsLead (actor : String) : Prop :=
  leadBefore e runId taskId = some actor ∧
    ∃ offeredTo tokenId ackDeadlineTs,
      Offers e runId taskId actor offeredTo tokenId ackDeadlineTs

end Steps

/-- An offer of the task with this token to this actor that is not past its deadline,
was not declined and was not accepted. -/
def Outstanding
    (earlier : List OwnershipStep) (now : ℚ)
    (runId taskId tokenId actor : String) : Prop :=
  ∃ first offer since offerer ackDeadlineTs, earlier = first ++ offer :: since ∧
    Offers offer runId taskId offerer actor tokenId ackDeadlineTs ∧
    now ≤ ackDeadlineTs ∧
    ∀ e ∈ since, ¬ Declines e runId taskId tokenId ∧
      ∀ other, ¬ Accepts e runId taskId other tokenId

/-- The operation is a call of `accept_ownership` by the actor to whom an outstanding
offer was made. -/
def AnswersOffer
    (earlier : List OwnershipStep) (e : OwnershipStep) (runId taskId actor : String) :
    Prop :=
  ∃ tokenId, CallsAccept e runId taskId actor tokenId ∧
    Outstanding earlier e.input.1.now runId taskId tokenId actor

/-- The baton stays where it is until it is passed: executors are installed by
resolutions and by accepts of outstanding offers only, and a lead that offers its task
stays the lead until its offer is accepted or the task is given up. -/
def PassesBaton (earlier : List OwnershipStep) (e : OwnershipStep) : Prop :=
  (∀ runId taskId actor, Installs e runId taskId actor →
    Resolves e runId taskId ∨ AnswersOffer earlier e runId taskId actor) ∧
  ∀ runId taskId actor first offer since, earlier ++ [e] = first ++ offer :: since →
    OffersAsLead offer runId taskId actor →
    (∀ middle step rest, since = middle ++ step :: rest →
      ¬ GivesUp step runId taskId ∧
        ∀ other, step.output.ok = true →
          ¬ AnswersOffer (first ++ offer :: middle) step runId taskId other) →
    leadAfter e runId taskId = some actor

/-- What the callers keep to: an accept that expects the stored version and would
install its caller answers an outstanding offer, and an offer that expects the stored
version is not made by the lead. -/
def KeepsToPhases (earlier : List OwnershipStep) (e : OwnershipStep) : Prop :=
  (e.before.getTask e.input.1.runId e.input.2.taskId).version =
      e.input.2.expectedVersion →
  (∀ runId taskId actor tokenId, CallsAccept e runId taskId actor tokenId →
    actor ≠ "" → (e.before.getTask runId taskId).executorId ≠ actor →
      Outstanding earlier e.input.1.now runId taskId tokenId actor) ∧
  ∀ runId taskId actor offeredTo leaseTtlS ackDeadlineS expectedVersion rolesDelta,
    e.input.1.runId = runId →
    e.input.2 =
      .offer taskId actor offeredTo leaseTtlS ackDeadlineS expectedVersion rolesDelta →
    leadBefore e runId taskId ≠ some actor

/-! ## The record after an operation -/

section Records

variable {env : Call} {tables : Tables} {op : OwnershipOp}

theorem state_insertEdges (edges : List ChainEdge) (tables : Tables) :
    ((edges.map Write.insertEdge).foldl Write.apply tables).state = tables.state := by
  induction edges generalizing tables with
  | nil => rfl
  | cons edge edges ih => exact ih _

theorem state_casWrites
    (runId taskId : String) (record : OwnershipRecord) (tables : Tables) :
    ((casWrites runId taskId record).foldl Write.apply tables).state =
      tables.state.set (runId, taskId) (record.row taskId) := by
  rw [casWrites, List.foldl_append, state_insertEdges]
  rfl

theorem getTask_casWrites
    (runId taskId : String) (record : OwnershipRecord) (tables : Tables)
    (runId' taskId' : String) :
    ((casWrites runId taskId record).foldl Write.apply tables).getTask runId' taskId' =
      if (runId', taskId') = (runId, taskId) then
        recordOf (some (record.row taskId)) taskId
      else tables.getTask runId' taskId' := by
  rw [Tables.getTask, state_casWrites, Dict.get?_set]
  split_ifs with hkey
  · rw [(Prod.mk.inj hkey).2]
  · rfl

/-- An operation leaves every record, or it expects the stored version and writes the
record of its task. -/
theorem perform_records (env : Call) (tables : Tables) (op : OwnershipOp) :
    (∀ runId taskId,
        (op.perform env tables).2.getTask runId taskId = tables.getTask runId taskId) ∧
      (op.comparesFirst = false →
        (op.perform env tables).1.ok = false ∧
          (tables.getTask env.runId op.taskId).version ≠ op.expectedVersion) ∨
    (tables.getTask env.runId op.taskId).version = op.expectedVersion ∧
      (op.perform env tables).1.ok = true ∧
      ∀ runId taskId, (op.perform env tables).2.getTask runId taskId =
        if (runId, taskId) = (env.runId, op.taskId) then
          recordOf (some ((op.written env tables).row op.taskId)) op.taskId
        else tables.getTask runId taskId := by
  have hends := perform_ends env tables op
  generalize op.perform env tables = outcome at hends
  cases hends with
  | conflict result after hop hversion hresult hafter =>
      obtain ⟨event, rfl⟩ := hafter
      exact Or.inl ⟨fun _ _ => rfl, fun _ => ⟨hresult.1, hversion⟩⟩
  | refused result hop hresult =>
      exact Or.inl ⟨fun _ _ => rfl, fun hfirst => absurd (hop.symm.trans hfirst) nofun⟩
  | declined result after hop hresult hafter =>
      obtain ⟨event, rfl⟩ := hafter
      obtain ⟨_, _, _, _, _, rfl⟩ := hop
      exact Or.inl ⟨fun _ _ => rfl, nofun⟩
  | updated result appended hversion hresult happended =>
      obtain ⟨event, rfl⟩ := happended
      exact Or.inr ⟨hversion, hresult.1, fun runId taskId => getTask_casWrites _ _ _ _ _ _⟩

theorem executorId_written (env : Call) (tables : Tables) (op : OwnershipOp) :
    (recordOf (some ((op.written env tables).row op.taskId)) op.taskId).executorId =
      (op.mutate env (tables.getTask env.runId op.taskId)).executorId := rfl

theorem executorId_mutate (env : Call) (op : OwnershipOp) (record : OwnershipRecord) :
    (op.mutate env record).executorId = record.executorId ∨
      (op.mutate env record).executorId = "" ∨
      (∃ taskId actor tokenId leaseTtlS expectedVersion,
        op = .accept taskId actor tokenId leaseTtlS expectedVersion ∧
          (op.mutate env record).executorId = actor) ∨
      ∃ taskId actor expectedVersion winnerActor,
        op = .resolve taskId actor expectedVersion winnerActor := by
  cases op with
  | accept => exact Or.inr (Or.inr (Or.inl ⟨_, _, _, _, _, rfl, rfl⟩))
  | resolve => exact Or.inr (Or.inr (Or.inr ⟨_, _, _, _, rfl⟩))
  | abandon => exact Or.inr (Or.inl rfl)
  | release taskId actor tokenId expectedVersion nextOffer =>
      simp only [OwnershipOp.mutate, releaseMut]
      split_ifs
      · exact Or.inr (Or.inl rfl)
      · exact Or.inl rfl
  | renew taskId actor tokenId newTtlS expectedVersion =>
      left
      simp only [OwnershipOp.mutate, renewMut]
      split_ifs
      · rfl
      · rfl
  | approve taskId actor checkpointId =>
      left
      simp only [OwnershipOp.mutate, reviewedMut]
      split_ifs
      · rfl
      · rfl
  | deny taskId actor checkpointId =>
      left
      simp only [OwnershipOp.mutate, reviewedMut]
      split_ifs
      · rfl
      · rfl
  | offer => exact Or.inl rfl
  | decline => exact Or.inl rfl
  | pendingReview => exact Or.inl rfl
  | contest => exact Or.inl rfl

end Records

/-! ## One operation -/

section Operation

variable {tables : Tables} {input : Call × OwnershipOp} {runId taskId actor : String}

/-- An installed executor comes from an accept that expects the stored version, or from
a resolution. -/
theorem installs_cases
    (h : Installs (ownershipMachine.stepAt tables input) runId taskId actor) :
    Resolves (ownershipMachine.stepAt tables input) runId taskId ∨
      (tables.getTask input.1.runId input.2.taskId).version = input.2.expectedVersion ∧
        ∃ tokenId,
          CallsAccept (ownershipMachine.stepAt tables input) runId taskId actor tokenId := by
  obtain ⟨env, op⟩ := input
  obtain ⟨hnamed, hafter, hbefore⟩ := h
  change ((op.perform env tables).2.getTask runId taskId).executorId = actor at hafter
  change (tables.getTask runId taskId).executorId ≠ actor at hbefore
  rcases perform_records env tables op with ⟨hsame, -⟩ | ⟨hversion, -, hwritten⟩
  · rw [hsame] at hafter
    exact absurd hafter hbefore
  · rw [hwritten] at hafter
    split_ifs at hafter with hkey
    · obtain ⟨rfl, rfl⟩ := Prod.mk.inj hkey
      rw [executorId_written] at hafter
      rcases executorId_mutate env op (tables.getTask env.runId op.taskId) with
        hsame | hempty | ⟨_, _, tokenId, _, _, rfl, hactor⟩ | ⟨_, _, _, _, rfl⟩
      · exact absurd (hsame.symm.trans hafter) hbefore
      · exact absurd (hafter.symm.trans hempty) hnamed
      · obtain rfl := hactor.symm.trans hafter
        exact Or.inr ⟨hversion, tokenId, rfl, _, _, rfl⟩
      · exact Or.inl ⟨rfl, _, _, _, rfl⟩
    · exact absurd hafter hbefore

theorem installs_of_callsAccept
    {tokenId : String}
    (hcall : CallsAccept (ownershipMachine.stepAt tables input) runId taskId actor tokenId)
    (hversion : (tables.getTask input.1.runId input.2.taskId).version =
      input.2.expectedVersion)
    (hnamed : actor ≠ "") (hother : (tables.getTask runId taskId).executorId ≠ actor) :
    Installs (ownershipMachine.stepAt tables input) runId taskId actor := by
  obtain ⟨env, op⟩ := input
  obtain ⟨rfl, leaseTtlS, expectedVersion, hop⟩ := hcall
  obtain rfl : op = _ := hop
  refine ⟨hnamed, ?_, hother⟩
  change (((OwnershipOp.accept taskId actor tokenId leaseTtlS expectedVersion).perform env
    tables).2.getTask env.runId taskId).executorId = actor
  rcases perform_records env tables
      (.accept taskId actor tokenId leaseTtlS expectedVersion) with
    ⟨-, hrefused⟩ | ⟨-, -, hwritten⟩
  · exact absurd hversion (hrefused rfl).2
  · exact (congrArg OwnershipRecord.executorId (hwritten env.runId taskId)).trans
      (congrArg OwnershipRecord.executorId (if_pos rfl))

theorem leadAfter_of_offers
    {offeredTo tokenId : String} {ackDeadlineTs : ℚ}
    (h : Offers (ownershipMachine.stepAt tables input) runId taskId actor offeredTo tokenId
      ackDeadlineTs) :
    (tables.getTask input.1.runId input.2.taskId).version = input.2.expectedVersion ∧
      leadAfter (ownershipMachine.stepAt tables input) runId taskId = none := by
  obtain ⟨env, op⟩ := input
  obtain ⟨rfl, ⟨leaseTtlS, ackDeadlineS, expectedVersion, rolesDelta, hop⟩, hok, -, -⟩ := h
  obtain rfl : op = _ := hop
  rcases perform_records env tables
      (.offer taskId actor offeredTo leaseTtlS ackDeadlineS expectedVersion rolesDelta) with
    ⟨-, hrefused⟩ | ⟨hversion, -, hwritten⟩
  · exact absurd (hok.symm.trans (hrefused rfl).1) nofun
  · refine ⟨hversion, ?_⟩
    have hrecord := (hwritten env.runId taskId).trans (if_pos rfl)
    exact (congrArg OwnershipRecord.currentLead hrecord).trans rfl

theorem offers_of_version
    {env : Call} {offeredTo : String} {leaseTtlS ackDeadlineS expectedVersion : ℤ}
    {rolesDelta : List (String × PyVal)}
    (hversion : (tables.getTask env.runId taskId).version = expectedVersion) :
    Offers (ownershipMachine.stepAt tables (env, .offer taskId actor offeredTo leaseTtlS
        ackDeadlineS expectedVersion rolesDelta))
      env.runId taskId actor offeredTo env.tokenUuid (env.now + ackDeadlineS) := by
  have hcas := @casUpdate_updated
    (tables.ledgerAppend env taskId "offer_ownership" actor
      (.ofList [("token_id", .str env.tokenUuid), ("to", .str offeredTo),
        ("lease_ttl_s", .int leaseTtlS),
        ("ack_deadline_ts", env.time (env.now + ackDeadlineS)),
        ("roles_delta", .dict rolesDelta)]) (some expectedVersion))
    ⟨env.runId, taskId, expectedVersion, offerMut, env.now⟩ hversion
  refine ⟨rfl, ⟨_, _, _, _, rfl⟩, ?_⟩
  simp only [ownershipMachine, Machine.stepAt, OwnershipOp.perform, offerOwnership,
    recordThenUpdate, hcas, and_self]

end Operation

/-! ## Runs of the protocol -/

def NoLeadOffered (tr : List OwnershipStep) (_ : Tables) : Prop :=
  ∀ e ∈ tr, ∀ runId taskId actor, ¬ OffersAsLead e runId taskId actor

/-- An operation after which no lead has offered its task passes the baton in two phases
exactly when its caller keeps to them. -/
theorem passesBaton_iff
    {tr : List OwnershipStep} {tables : Tables} (hnone : NoLeadOffered tr tables)
    (input : Call × OwnershipOp) :
    PassesBaton tr (ownershipMachine.stepAt tables input) ↔
      KeepsToPhases tr (ownershipMachine.stepAt tables input) := by
  obtain ⟨env, op⟩ := input
  constructor
  · rintro ⟨hinstalls, hlead⟩ hversion
    constructor
    · intro runId taskId actor tokenId hcall hnamed hother
      have hinstalled := installs_of_callsAccept hcall hversion hnamed hother
      obtain ⟨-, leaseTtlS, expectedVersion, hop⟩ := hcall
      rcases hinstalls runId taskId actor hinstalled with
        ⟨-, _, _, _, hresolve⟩ | ⟨token, ⟨-, _, _, haccept⟩, houtstanding⟩
      · exact absurd (hop.symm.trans hresolve) nofun
      · obtain ⟨-, -, rfl, -, -⟩ := OwnershipOp.accept.inj (hop.symm.trans haccept)
        exact houtstanding
    · rintro runId taskId actor offeredTo leaseTtlS ackDeadlineS expectedVersion rolesDelta
        rfl hop hbefore
      obtain rfl : op = _ := hop
      have hoffers := @offers_of_version tables taskId actor env offeredTo leaseTtlS
        ackDeadlineS expectedVersion rolesDelta hversion
      have hafter := hlead env.runId taskId actor tr _ [] rfl
        ⟨hbefore, _, _, _, hoffers⟩ (fun middle step rest hnil => by
          cases middle <;> cases hnil)
      rw [(leadAfter_of_offers hoffers).2] at hafter
      cases hafter
  · intro hkeeps
    constructor
    · intro runId taskId actor hinstalled
      rcases installs_cases hinstalled with hresolves | ⟨hversion, tokenId, hcall⟩
      · exact Or.inl hresolves
      · refine Or.inr ⟨tokenId, hcall, ?_⟩
        exact (hkeeps hversion).1 runId taskId actor tokenId hcall hinstalled.1
          hinstalled.2.2
    · intro runId taskId actor first offer since heq hoffers _
      exfalso
      rcases List.eq_nil_or_concat since with rfl | ⟨since, last, rfl⟩
      · obtain ⟨-, hlast⟩ := List.append_inj' heq rfl
        obtain ⟨rfl, -⟩ := List.cons.inj hlast
        obtain ⟨hbefore, offeredTo, tokenId, ackDeadlineTs, hoffer⟩ := hoffers
        have hversion := (leadAfter_of_offers hoffer).1
        obtain ⟨hrun, ⟨_, _, _, _, hop⟩, -⟩ := hoffer
        exact (hkeeps hversion).2 runId taskId actor _ _ _ _ _ hrun hop hbefore
      · rw [List.concat_eq_append, ← List.cons_append, ← List.append_assoc] at heq
        have htr := (List.append_inj' heq rfl).1
        refine hnone offer ?_ runId taskId actor hoffers
        rw [htr]
        exact List.mem_append_right _ List.mem_cons_self

/-- In every run of the protocol executors are installed by resolutions and by answers to
outstanding offers only, and leads that offer their tasks stay leads until an answer,
exactly when the accepts and offers of the run keep to the two phases. -/
theorem baton_passed_iff (tables : Tables) (inputs : List (Call × OwnershipOp)) :
    (∀ earlier e later, ownershipMachine.trace tables inputs = earlier ++ e :: later →
        PassesBaton earlier e) ↔
      ∀ earlier e later, ownershipMachine.trace tables inputs = earlier ++ e :: later →
        KeepsToPhases earlier e := by
  refine Machine.forall_split_iff NoLeadOffered KeepsToPhases PassesBaton
    (fun e he => absurd he List.not_mem_nil)
    (fun tr tables input hnone => passesBaton_iff hnone input) ?_ inputs
  intro tr tables input hnone hkeeps e he runId taskId actor hoffers
  rcases List.mem_append.mp he with he | he
  · exact hnone e he runId taskId actor hoffers
  · obtain rfl := List.mem_singleton.mp he
    obtain ⟨hbefore, offeredTo, tokenId, ackDeadlineTs, hoffer⟩ := hoffers
    have hversion := (leadAfter_of_offers hoffer).1
    obtain ⟨hrun, ⟨_, _, _, _, hop⟩, -⟩ := hoffer
    exact (hkeeps hversion).2 runId taskId actor _ _ _ _ _ hrun hop hbefore

/-! ## Versions -/

def OwnershipOp.isDecline : OwnershipOp → Bool
  | .decline .. => true
  | _ => false

theorem OwnershipOp.isDecline_iff (op : OwnershipOp) :
    op.isDecline = true ↔ ∃ taskId actor tokenId reason expectedVersion,
      op = .decline taskId actor tokenId reason expectedVersion := by
  cases op <;> simp [isDecline]

/-- The step succeeds in an operation on the task that updates records. -/
def UpdatesTask (runId taskId : String) (e : OwnershipStep) : Bool :=
  e.output.ok && !e.input.2.isDecline &&
    decide ((runId, taskId) = (e.input.1.runId, e.input.2.taskId))

theorem version_step
    (runId taskId : String) (tables : Tables) (input : Call × OwnershipOp) :
    (UpdatesTask runId taskId (ownershipMachine.stepAt tables input) = true ∧
        input.2.expectedVersion = (tables.getTask runId taskId).version ∧
        ((ownershipMachine.step tables input).1.getTask runId taskId).version =
          (tables.getTask runId taskId).version + 1) ∨
      (UpdatesTask runId taskId (ownershipMachine.stepAt tables input) = false ∧
        ((ownershipMachine.step tables input).1.getTask runId taskId).version =
          (tables.getTask runId taskId).version) := by
  obtain ⟨env, op⟩ := input
  by_cases hdecline : op.isDecline = true
  · obtain ⟨_, _, _, _, _, rfl⟩ := op.isDecline_iff.mp hdecline
    exact Or.inr ⟨by simp [UpdatesTask, Machine.stepAt, OwnershipOp.isDecline], rfl⟩
  have hends := perform_ends env tables op
  unfold UpdatesTask Machine.stepAt ownershipMachine
  dsimp only
  generalize op.perform env tables = outcome at hends
  cases hends with
  | conflict result after hop hversion hresult hafter =>
      obtain ⟨event, rfl⟩ := hafter
      exact Or.inr ⟨by simp [hresult.1], rfl⟩
  | refused result hop hresult => exact Or.inr ⟨by simp [hresult], rfl⟩
  | declined result after hop hresult hafter =>
      exact absurd (op.isDecline_iff.mpr hop) hdecline
  | updated result appended hversion hresult happended =>
      obtain ⟨event, rfl⟩ := happended
      rw [getTask_casWrites]
      by_cases hkey : (runId, taskId) = (env.runId, op.taskId)
      · obtain ⟨rfl, rfl⟩ := Prod.mk.inj hkey
        exact Or.inl ⟨by simp [hresult.1, hdecline], hversion.symm, by rw [if_pos rfl]; rfl⟩
      · exact Or.inr ⟨by simp [hkey], by rw [if_neg hkey]; rfl⟩

/-- The updates of a task expect its versions one after the other, whatever is called
between them, and the version counts them. -/
theorem updates_expect_versions
    (runId taskId : String) (tables : Tables) (inputs : List (Call × OwnershipOp)) :
    let updates := (ownershipMachine.trace tables inputs).filter (UpdatesTask runId taskId)
    let first := (tables.getTask runId taskId).version
    updates.map (fun e => e.input.2.expectedVersion) =
        (List.range updates.length).map (fun i : ℕ => first + (i : ℤ)) ∧
      ((ownershipMachine.final tables inputs).getTask runId taskId).version =
        first + updates.length := by
  induction inputs generalizing tables with
  | nil => exact ⟨rfl, (add_zero _).symm⟩
  | cons input inputs ih =>
      obtain ⟨hmap, hfinal⟩ := ih (ownershipMachine.step tables input).1
      rcases version_step runId taskId tables input with
        ⟨hupdates, hexpected, hversion⟩ | ⟨hupdates, hversion⟩
      · rw [Machine.trace, List.filter_cons_of_pos hupdates]
        dsimp only
        rw [List.map_cons, List.length_cons, hmap, List.range_succ_eq_map, List.map_cons,
          List.map_map, hversion]
        refine ⟨congrArg₂ _ ?_ ?_, ?_⟩
        · exact hexpected.trans (add_zero _).symm
        · refine List.map_congr_left fun i _ => ?_
          simp only [Function.comp_apply, Nat.cast_succ]
          omega
        · rw [Machine.final, hfinal, hversion, Nat.cast_succ]
          omega
      · rw [Machine.trace, List.filter_cons_of_neg (by simp [hupdates]), ← hversion]
        exact ⟨hmap, hfinal⟩

def carolAccepts : List (Call × OwnershipOp) :=
  [(referenceCall 0, .offer "task" "alice" "bob" 60 30 0 []),
    (referenceCall 1, .accept "task" "carol" "token" 60 1)]

theorem anyone_accepts :
    ¬ ∀ earlier e later,
      ownershipMachine.trace .empty carolAccepts = earlier ++ e :: later →
        PassesBaton earlier e := by
  intro hall
  let first := ownershipMachine.stepAt .empty
    (referenceCall 0, .offer "task" "alice" "bob" 60 30 0 [])
  let second := ownershipMachine.stepAt first.after
    (referenceCall 1, .accept "task" "carol" "token" 60 1)
  obtain ⟨hinstalls, -⟩ := hall [first] second [] rfl
  have hinstalled : Installs second "run" "task" "carol" := by
    unfold Installs
    decide +kernel
  rcases hinstalls "run" "task" "carol" hinstalled with
    ⟨-, _, _, _, hresolve⟩ | ⟨token, -, houtstanding⟩
  · cases hresolve
  · obtain ⟨before, offer, since, offerer, deadline, hsplit, ⟨-, hop, -⟩, -⟩ :=
      houtstanding
    have hmem : offer ∈ [first] := by
      rw [hsplit]
      exact List.mem_append_right _ List.mem_cons_self
    obtain rfl := List.mem_singleton.mp hmem
    obtain ⟨_, _, _, _, hop⟩ := hop
    obtain ⟨-, -, hto, -⟩ := OwnershipOp.offer.inj hop
    exact absurd hto (by decide)

end Hydrogenuine.Ownership
