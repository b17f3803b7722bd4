import Hydrogenuine.RiskBudget.Model

/-!
# Debits that run at the same time

A debit reads the balance and then emits its event, and other debits may take steps
between the two.  A budget is not overspent along the runs in which no debit of the
scope is recorded between the read and the emit of another, and in which the walk of
the ledger meets every budget event of the scope, with sums that need no rounding.
-/

namespace Hydrogenuine.RiskBudget

open Support Hydrogenuine.Core Ledger

/-! ## Steps -/

/-- How far a call is. -/
inductive DebitPhase where
  | waiting
  /-- The balance that was read, with the debits recorded for its scope then. -/
  | holding (balance : PyFloat) (seen : List PyFloat)
  | ended

inductive DebitStep where
  | read (call : ℕ)
  | emit (call : ℕ)

structure DebitState where
  files : Files
  phase : ℕ → DebitPhase

namespace DebitState

def start (files : Files) : DebitState := ⟨files, fun _ => .waiting⟩

def moveTo (s : DebitState) (call : ℕ) (phase : DebitPhase) : DebitState :=
  { s with phase := Function.update s.phase call phase }

def step (env : BudgetEnv) (calls : ℕ → DebitCall) (s : DebitState) :
    DebitStep → DebitState × Option Bool
  | .read i =>
      match s.phase i with
      | .waiting =>
          let key := getScopeKey env.host (calls i).scope
          match env.computeBalanceFromLedger s.files key with
          | .ok read =>
              (s.moveTo i (.holding read.1 (env.debits key (allEvents s.files))),
                none)
          | .error _ => (s.moveTo i .ended, none)
      | _ => (s, none)
  | .emit i =>
      match s.phase i with
      | .holding balance _ =>
          match recordDebit env s.files (calls i) balance with
          | .ok (debited, files) =>
              ({ s.moveTo i .ended with files := files }, some debited)
          | .error _ => (s.moveTo i .ended, none)
      | _ => (s, none)

end DebitState

def debitMachine (env : BudgetEnv) (calls : ℕ → DebitCall) :
    Machine DebitState DebitStep (Option Bool) where
  step s e := s.step env calls e

/-! ## What an emit records -/

section Records

variable {env : BudgetEnv} {key : String}

theorem scopeOf_unsigned
    (args : EnvelopeArgs) (host : Host) (prevHash : PyVal) (sig : String) :
    scopeOf (args.unsigned host prevHash sig) = .ok args.scope := by
  have hscope : PyVal.getItem (args.unsigned host prevHash sig) "scope" =
      .dict args.scope := rfl
  rw [scopeOf, hscope]
  cases args.scope with
  | nil => rfl
  | cons item items => rfl

theorem entryOf_debit
    (call : DebitCall) (balance : PyFloat) (prevHash : PyVal) (sig : String) :
    env.entryOf key
        ((((call.event env.round balance).args env.toLedgerEnv).unsigned env.host
          prevHash sig)) =
      .ok (if getScopeKey env.host call.scope = key ∧
          call.insufficient balance = false then some (.debited call.cost)
        else none) := by
  unfold BudgetEnv.entryOf
  rw [scopeOf_unsigned]
  have hscope : ((call.event env.round balance).args env.toLedgerEnv).scope =
      call.scope := rfl
  rw [hscope]
  by_cases hkey : getScopeKey env.host call.scope = key
  · have hsame : (getScopeKey env.host call.scope != key) = false := by
      rw [hkey]
      exact bne_self_eq_false key
    cases hinsufficient : call.insufficient balance with
    | true =>
        have haction : PyVal.getItem
            (((call.event env.round balance).args env.toLedgerEnv).unsigned
              env.host prevHash sig) "action" = .str "BUDGET_INSUFFICIENT" := by
          change PyVal.str (if call.insufficient balance then _ else _) = _
          rw [hinsufficient]
          rfl
        have hnone : ¬ (getScopeKey env.host call.scope = key ∧ true = false) :=
          nofun
        rw [if_neg hnone]
        simp only [bind, Except.bind, hsame, haction]
        rfl
    | false =>
        have haction : PyVal.getItem
            (((call.event env.round balance).args env.toLedgerEnv).unsigned
              env.host prevHash sig) "action" = .str "BUDGET_DEBITED" := by
          change PyVal.str (if call.insufficient balance then _ else _) = _
          rw [hinsufficient]
          rfl
        have hamount : env.payloadNumber
            (((call.event env.round balance).args env.toLedgerEnv).unsigned
              env.host prevHash sig) "amount" = .ok call.cost := rfl
        have hboth : getScopeKey env.host call.scope = key ∧ false = false :=
          ⟨hkey, rfl⟩
        rw [if_pos hboth]
        simp only [bind, Except.bind, hsame, haction, hamount]
        rfl
  · have hother : (getScopeKey env.host call.scope != key) = true :=
      bne_iff_ne.mpr hkey
    have hnone : ¬ (getScopeKey env.host call.scope = key ∧
        call.insufficient balance = false) := fun h => hkey h.1
    rw [if_neg hnone]
    simp only [bind, Except.bind, hother]
    rfl

variable (key) in
/-- A debit that emits its event adds it to the entries of its own scope key, and
an insufficient one adds none. -/
theorem recordDebit_entries
    {files files' : Files} {call : DebitCall} {balance : PyFloat} {debited : Bool}
    (h : recordDebit env files call balance = .ok (debited, files')) :
    debited = (!call.insufficient balance) ∧
      (env.entries key (allEvents files')).Perm
        (env.entries key (allEvents files) ++
          if getScopeKey env.host call.scope = key ∧
              call.insufficient balance = false then [.debited call.cost]
          else []) := by
  unfold recordDebit at h
  cases hemit : emit env.toLedgerEnv files (call.event env.round balance) with
  | error err =>
      rw [hemit] at h
      cases h
  | ok emitted =>
      rw [hemit] at h
      obtain ⟨rfl, rfl⟩ := Prod.mk.inj (Except.ok.inj h)
      refine ⟨rfl, ?_⟩
      obtain ⟨p, prevHash, -, -, happend⟩ := emit_ok_cases hemit
      obtain ⟨q, -, -, -, hfiles⟩ := append_built_cases happend
      obtain ⟨sig, hbuilt⟩ := buildEnvelope_eq env.host env.crypto
        ((call.event env.round balance).args env.toLedgerEnv) prevHash
      rw [hbuilt] at hfiles
      have hevents : (allEvents emitted).Perm (allEvents files ++
          [((call.event env.round balance).args env.toLedgerEnv).unsigned env.host
            prevHash sig]) := by
        rw [hfiles]
        exact flatMap_assignEntry_perm q _ files
      refine (hevents.filterMap _).trans ?_
      rw [List.filterMap_append]
      refine List.Perm.append_left _ ?_
      rw [List.filterMap_cons, entryOf_debit]
      split_ifs
      · exact List.Perm.refl _
      · exact List.Perm.refl _

end Records

/-! ## Balances -/

section Balances

variable (env : BudgetEnv) (key : String)

/-- The walk of the ledger meets every budget event of the scope key once, and what
it adds up and subtracts for the key are floats. -/
def Legible (files : Files) : Prop :=
  ∀ events, iterEventsByScope files = .ok events →
    (env.entries key events).Perm (env.entries key (allEvents files)) ∧
      PyFloat.SumsExactly env.round (env.debits key events) ∧
      ∀ balance ∈ env.initials key events, ∀ initial,
        balance.value? = some initial → PyFloat.Exact env.round
          (initial - (PyFloat.values (env.debits key events)).sum)

/-- The amounts are finite, and their sum is not above the initial balance. -/
structure Within (initial : ℚ) (amounts : List PyFloat) : Prop where
  finite : ∀ amount ∈ amounts, amount.value?.isSome = true
  sum : (PyFloat.values amounts).sum ≤ initial

/-- A budget with one initial balance that is not overspent. -/
structure Solvent (initial : ℚ) (files : Files) : Prop where
  once : (env.initials key (allEvents files)).map PyFloat.value? = [some initial]
  within : Within initial (env.debits key (allEvents files))

variable {env key}

theorem values_sum_of_perm {amounts amounts' : List PyFloat}
    (hperm : amounts.Perm amounts') :
    (PyFloat.values amounts).sum = (PyFloat.values amounts').sum :=
  (hperm.filterMap PyFloat.value?).sum_eq

theorem Within.perm {initial : ℚ} {amounts amounts' : List PyFloat}
    (h : Within initial amounts) (hperm : amounts.Perm amounts') :
    Within initial amounts' :=
  ⟨fun amount hamount => h.finite amount (hperm.mem_iff.mpr hamount),
    values_sum_of_perm hperm ▸ h.sum⟩

theorem Solvent.balance
    {initial : ℚ} {files : Files} {read : PyFloat × Tally}
    (hsolvent : Solvent env key initial files) (hlegible : Legible env key files)
    (h : env.computeBalanceFromLedger files key = .ok read) :
    read.1.value? = some
      (initial - (PyFloat.values (env.debits key (allEvents files))).sum) := by
  unfold BudgetEnv.computeBalanceFromLedger at h
  cases hevents : iterEventsByScope files with
  | error err =>
      rw [hevents] at h
      cases h
  | ok events =>
      rw [hevents] at h
      simp only [bind, Except.bind] at h
      cases htally : events.foldlM (env.tallyEvent key) ⟨.zero, .zero, .none⟩ with
      | error err =>
          rw [htally] at h
          cases h
      | ok tally =>
          rw [htally] at h
          obtain rfl := Except.ok.inj h
          obtain ⟨hentries, hsums, hdifference⟩ := hlegible events hevents
          obtain ⟨hinitial, htotal⟩ := BudgetEnv.foldlM_tallyEvent htally
          have hdebits : (env.debits key events).Perm
              (env.debits key (allEvents files)) := hentries.filterMap _
          have hinitials : (env.initials key events).Perm
              (env.initials key (allEvents files)) := hentries.filterMap _
          obtain ⟨balance, hbalance, hvalue⟩ :=
            List.map_eq_singleton_iff.mp hsolvent.once
          rw [hbalance, List.perm_singleton] at hinitials
          rw [hinitials] at hinitial
          have hwithin := hsolvent.within.perm hdebits.symm
          rw [← values_sum_of_perm hdebits]
          refine PyFloat.value?_sub ?_ ?_ (hdifference balance ?_ initial hvalue)
          · rw [hinitial]
            exact hvalue
          · rw [htotal]
            exact PyFloat.value?_foldl_add hwithin.finite hsums
          · rw [hinitials]
            exact List.mem_singleton_self balance

end Balances

/-! ## Runs -/

section Runs

variable {env : BudgetEnv} {calls : ℕ → DebitCall} {key : String} {initial : ℚ}
  {s : DebitState}

/-- The ledger is legible before and after the step, and no debit of the scope key
was recorded since the call that now emits has read the balance. -/
structure Undisturbed
    (env : BudgetEnv) (calls : ℕ → DebitCall) (key : String) (s : DebitState)
    (step : DebitStep) : Prop where
  before : Legible env key s.files
  after : Legible env key (s.step env calls step).1.files
  unchanged : ∀ i balance seen, step = .emit i →
    getScopeKey env.host (calls i).scope = key →
    s.phase i = .holding balance seen →
      (env.debits key (allEvents s.files)).Perm seen

/-- The budget is not overspent, and every balance that a call of its scope holds is
what was left of it when it was read. -/
structure Balanced
    (env : BudgetEnv) (calls : ℕ → DebitCall) (key : String) (initial : ℚ)
    (s : DebitState) : Prop where
  solvent : Solvent env key initial s.files
  held : ∀ i balance seen, s.phase i = .holding balance seen →
    getScopeKey env.host (calls i).scope = key →
      balance.value? = some (initial - (PyFloat.values seen).sum)

theorem Balanced.moveTo
    (hs : Balanced env calls key initial s) {files : Files}
    (hsolvent : Solvent env key initial files) (i : ℕ) :
    Balanced env calls key initial { s.moveTo i .ended with files := files } := by
  refine ⟨hsolvent, ?_⟩
  intro j balance seen hphase
  by_cases hj : j = i
  · subst hj
    simp [DebitState.moveTo] at hphase
  · simp only [DebitState.moveTo, Function.update_of_ne hj] at hphase
    exact hs.held j balance seen hphase

theorem Balanced.read
    (hs : Balanced env calls key initial s) (hlegible : Legible env key s.files)
    (i : ℕ) : Balanced env calls key initial (s.step env calls (.read i)).1 := by
  simp only [DebitState.step]
  split
  next =>
    split
    next read hread =>
      refine ⟨hs.solvent, ?_⟩
      intro j balance seen hphase hkey
      by_cases hj : j = i
      · subst hj
        simp only [DebitState.moveTo, Function.update_self,
          DebitPhase.holding.injEq] at hphase
        obtain ⟨rfl, rfl⟩ := hphase
        rw [hkey] at hread ⊢
        exact hs.solvent.balance hlegible hread
      · simp only [DebitState.moveTo, Function.update_of_ne hj] at hphase
        exact hs.held j balance seen hphase hkey
    next => exact hs.moveTo hs.solvent i
  next => exact hs

/-- What an emit records does not overspend the budget, if the balance it relies on
is still what is left. -/
theorem Solvent.record
    {files files' : Files} {call : DebitCall} {balance : PyFloat} {debited : Bool}
    (hsolvent : Solvent env key initial files)
    (hbalance : getScopeKey env.host call.scope = key → balance.value? = some
      (initial - (PyFloat.values (env.debits key (allEvents files))).sum))
    (hcost : call.cost.Nonneg)
    (h : recordDebit env files call balance = .ok (debited, files')) :
    Solvent env key initial files' := by
  obtain ⟨-, hentries⟩ := recordDebit_entries key h
  split_ifs at hentries with hdebits
  · obtain ⟨hkey, hsufficient⟩ := hdebits
    obtain ⟨q, hq, hle⟩ :=
      PyFloat.value?_of_not_numLt (hbalance hkey) hcost hsufficient
    constructor
    · have hinitials := hentries.filterMap BudgetEntry.initial?
      have hnone : [BudgetEntry.debited call.cost].filterMap
          BudgetEntry.initial? = [] := rfl
      rw [List.filterMap_append, hnone, List.append_nil] at hinitials
      have honce := hinitials.map PyFloat.value?
      have hbefore : ((env.entries key (allEvents files)).filterMap
          BudgetEntry.initial?).map PyFloat.value? = [some initial] :=
        hsolvent.once
      rw [hbefore, List.perm_singleton] at honce
      exact honce
    · have hnew : (env.debits key (allEvents files')).Perm
          (env.debits key (allEvents files) ++ [call.cost]) := by
        have hall := hentries.filterMap BudgetEntry.debit?
        rw [List.filterMap_append] at hall
        exact hall
      refine Within.perm ⟨?_, ?_⟩ hnew.symm
      · rintro amount hamount
        rcases List.mem_append.mp hamount with hold | hlast
        · exact hsolvent.within.finite amount hold
        · rw [List.mem_singleton.mp hlast, hq]
          rfl
      · have hsum : (PyFloat.values
            (env.debits key (allEvents files) ++ [call.cost])).sum =
              (PyFloat.values (env.debits key (allEvents files))).sum + q := by
          simp [PyFloat.values, hq]
        rw [hsum]
        exact le_sub_iff_add_le'.mp hle
  · rw [List.append_nil] at hentries
    constructor
    · have honce := (hentries.filterMap BudgetEntry.initial?).map PyFloat.value?
      have hbefore : ((env.entries key (allEvents files)).filterMap
          BudgetEntry.initial?).map PyFloat.value? = [some initial] :=
        hsolvent.once
      rw [hbefore, List.perm_singleton] at honce
      exact honce
    · exact hsolvent.within.perm (hentries.filterMap BudgetEntry.debit?).symm

theorem Balanced.emit
    (hs : Balanced env calls key initial s) (i : ℕ)
    (hcost : (calls i).cost.Nonneg)
    (hguard : Undisturbed env calls key s (.emit i)) :
    Balanced env calls key initial (s.step env calls (.emit i)).1 := by
  simp only [DebitState.step]
  split
  next balance seen hholding =>
    split
    next debited files hrecord =>
      refine hs.moveTo (hs.solvent.record ?_ hcost hrecord) i
      intro hkey
      have hheld := hs.held i balance seen hholding hkey
      have hsame := hguard.unchanged i balance seen rfl hkey hholding
      rw [← values_sum_of_perm hsame] at hheld
      exact hheld
    next => exact hs.moveTo hs.solvent i
  next => exact hs

theorem balance_of_insufficient
    (hs : Balanced env calls key initial s) {step : DebitStep}
    (hguard : Undisturbed env calls key s step)
    (hafter : Balanced env calls key initial (s.step env calls step).1)
    (houtput : (s.step env calls step).2 = some false)
    {read read' : PyFloat × Tally}
    (hread : env.computeBalanceFromLedger s.files key = .ok read)
    (hread' : env.computeBalanceFromLedger (s.step env calls step).1.files key =
      .ok read') :
    read'.1.value? = read.1.value? := by
  rw [hs.solvent.balance hguard.before hread,
    hafter.solvent.balance hguard.after hread']
  have hdebits : (env.debits key
      (allEvents (s.step env calls step).1.files)).Perm
        (env.debits key (allEvents s.files)) := by
    cases step with
    | read i =>
        simp only [DebitState.step] at houtput
        split at houtput
        · split at houtput
          · cases houtput
          · cases houtput
        · cases houtput
    | emit i =>
        simp only [DebitState.step] at houtput ⊢
        split at houtput
        next balance seen hholding =>
          split at houtput
          next debited files hrecord =>
            obtain rfl := Option.some.inj houtput
            obtain ⟨hdebited, hentries⟩ := recordDebit_entries key hrecord
            have hnone : ¬ (getScopeKey env.host (calls i).scope = key ∧
                (calls i).insufficient balance = false) := by
              rintro ⟨-, hsufficient⟩
              rw [hsufficient] at hdebited
              cases hdebited
            rw [if_neg hnone, List.append_nil] at hentries
            exact hentries.filterMap BudgetEntry.debit?
          next => cases houtput
        next => cases houtput
  rw [values_sum_of_perm hdebits]

end Runs

/-- From a ledger with one initial balance and no debits of a scope key, the debits
of the key stay within that balance and an insufficient one leaves the balance as it
was, in every interleaving in which the walk of the ledger is exact and no debit of
the key is recorded between the read and the emit of another. -/
theorem debits_within_initial
    (env : BudgetEnv) (calls : ℕ → DebitCall) (key : String) (initial : ℚ)
    (files : Files) (steps : List DebitStep)
    (hinitial : (env.initials key (allEvents files)).map PyFloat.value? =
      [some initial])
    (hnonneg : 0 ≤ initial) (hdebits : env.debits key (allEvents files) = [])
    (hcosts : ∀ i, (calls i).cost.Nonneg)
    (hguard : (debitMachine env calls).Guarded (Undisturbed env calls key)
      (.start files) steps) :
    ∀ e ∈ (debitMachine env calls).trace (.start files) steps,
      Within initial (env.debits key (allEvents e.after.files)) ∧
        (e.output = some false → ∀ read read',
          env.computeBalanceFromLedger e.before.files key = .ok read →
            env.computeBalanceFromLedger e.after.files key = .ok read' →
              read'.1.value? = read.1.value?) := by
  have hstep : ∀ s e, Balanced env calls key initial s →
      Undisturbed env calls key s e →
        Balanced env calls key initial (s.step env calls e).1 := by
    intro s e hs hguard
    cases e with
    | read i => exact hs.read hguard.before i
    | emit i => exact hs.emit i (hcosts i) hguard
  have hstart : Balanced env calls key initial (.start files) := by
    refine ⟨⟨hinitial, ?_⟩, ?_⟩
    · change Within initial (env.debits key (allEvents files))
      rw [hdebits]
      exact ⟨List.forall_mem_nil _, hnonneg⟩
    · intro i balance seen hphase
      cases hphase
  refine (Machine.invariant_of_guarded
    (fun trace s => Balanced env calls key initial s ∧ ∀ e ∈ trace,
      Within initial (env.debits key (allEvents e.after.files)) ∧
        (e.output = some false → ∀ read read',
          env.computeBalanceFromLedger e.before.files key = .ok read →
            env.computeBalanceFromLedger e.after.files key = .ok read' →
              read'.1.value? = read.1.value?))
    ⟨hstart, List.forall_mem_nil _⟩ ?_ steps hguard).2
  rintro trace s e ⟨hs, htrace⟩ he
  have hafter := hstep s e hs he
  refine ⟨hafter, ?_⟩
  rw [List.forall_mem_append, List.forall_mem_singleton]
  refine ⟨htrace, hafter.solvent.within, ?_⟩
  intro houtput read read' hread hread'
  exact balance_of_insufficient hs he hafter houtput hread hread'

/-! ### Debits in turn -/

theorem legible_of_shallow
    {env : BudgetEnv} {files : Files} (key : String)
    (hround : ∀ q, PyFloat.Exact env.round q) (hshallow : Shallow files)
    (hnodup : (files.map Prod.fst).Nodup) : Legible env key files := by
  obtain ⟨events, hwalk, hperm⟩ :=
    readFiles_walk hshallow hnodup fun _ => rfl
  intro events' hevents'
  obtain rfl := Except.ok.inj (hwalk.symm.trans hevents')
  exact ⟨hperm.filterMap _, fun _ _ _ => hround _, fun _ _ _ _ => hround _⟩

section Sequential

variable {env : BudgetEnv} {calls : ℕ → DebitCall} {key : String}
  {s : DebitState}

theorem unchanged_after_read
    {i j : ℕ} {balance : PyFloat} {seen : List PyFloat}
    (hwaiting : s.phase i = .waiting) (hj : DebitStep.emit i = .emit j)
    (hkey : getScopeKey env.host (calls j).scope = key)
    (hholding : (s.step env calls (.read i)).1.phase j = .holding balance seen) :
    (env.debits key
      (allEvents (s.step env calls (.read i)).1.files)).Perm seen := by
  obtain rfl := DebitStep.emit.inj hj
  simp only [DebitState.step, hwaiting] at hholding ⊢
  split at hholding
  · simp only [DebitState.moveTo, Function.update_self,
      DebitPhase.holding.injEq] at hholding
    rw [← hholding.2, hkey]
    exact List.Perm.refl _
  · simp only [DebitState.moveTo, Function.update_self] at hholding
    cases hholding

theorem step_phase_of_ne {i j : ℕ} (hne : j ≠ i) {e : DebitStep}
    (he : e = .read i ∨ e = .emit i) :
    (s.step env calls e).1.phase j = s.phase j := by
  rcases he with rfl | rfl
  · simp only [DebitState.step]
    split
    · split
      · exact Function.update_of_ne hne _ _
      · exact Function.update_of_ne hne _ _
    · rfl
  · simp only [DebitState.step]
    split
    · split
      · exact Function.update_of_ne hne _ _
      · exact Function.update_of_ne hne _ _
    · rfl

def inTurn (order : List ℕ) : List DebitStep :=
  order.flatMap fun i => [.read i, .emit i]

theorem guarded_inTurn
    {order : List ℕ} (hnodup : order.Nodup)
    (hwaiting : ∀ i ∈ order, s.phase i = .waiting)
    (hlegible : ∀ e ∈ (debitMachine env calls).trace s (inTurn order),
      Legible env key e.before.files ∧ Legible env key e.after.files) :
    (debitMachine env calls).Guarded (Undisturbed env calls key) s
      (inTurn order) := by
  induction order generalizing s with
  | nil => exact Machine.guarded_nil
  | cons i order ih =>
      obtain ⟨hnew, hnodup⟩ := List.nodup_cons.mp hnodup
      obtain ⟨hi, hwaiting⟩ := List.forall_mem_cons.mp hwaiting
      obtain ⟨hread, hrest⟩ := List.forall_mem_cons.mp hlegible
      obtain ⟨hemit, hrest⟩ := List.forall_mem_cons.mp hrest
      refine Machine.guarded_cons.mpr ⟨⟨hread.1, hread.2, nofun⟩, ?_⟩
      refine Machine.guarded_cons.mpr ⟨⟨hemit.1, hemit.2, ?_⟩, ?_⟩
      · intro j balance seen hj hkey hholding
        exact unchanged_after_read hi hj hkey hholding
      · refine ih hnodup (fun j hj => ?_) hrest
        have hne : j ≠ i := fun h => hnew (h ▸ hj)
        exact (step_phase_of_ne hne (.inr rfl)).trans
          ((step_phase_of_ne hne (.inl rfl)).trans (hwaiting j hj))

end Sequential

def referenceBudget : BudgetEnv where
  toLedgerEnv := referenceLedger
  round q := .finite q (toString q.num ++ ".0")
  parseFloat _ := none

def twoDebits (i : ℕ) : DebitCall where
  amount := .finite 60 "60.0"
  actionId := if i = 0 then "a" else "b"
  scope := runScope "run"
  actor := .none
  ts := "2026-03-01T10:00:01Z"
  now := "2026-03-01T10:00:01.000000Z"

def hundred : Files :=
  (initBudget referenceBudget [] (.finite 100 "100.0") (runScope "run") .none
    "2026-03-01T10:00:00Z" "2026-03-01T10:00:00.000000Z").toOption.getD []

theorem debits_within_initial_in_turn :
    (debitMachine referenceBudget twoDebits).Guarded
        (Undisturbed referenceBudget twoDebits "run/x") (.start hundred)
        (inTurn [0, 1]) ∧
      ∀ e ∈ (debitMachine referenceBudget twoDebits).trace (.start hundred)
          (inTurn [0, 1]),
        Within 100 (referenceBudget.debits "run/x" (allEvents e.after.files)) ∧
          (e.output = some false → ∀ read read',
            referenceBudget.computeBalanceFromLedger e.before.files "run/x" =
                .ok read →
              referenceBudget.computeBalanceFromLedger e.after.files "run/x" =
                  .ok read' →
                read'.1.value? = read.1.value?) := by
  have hlegible {files : Files}
      (hpaths : files.map Prod.fst = [⟨false, ["run", "x.jsonl"]⟩]) :
      Legible referenceBudget "run/x" files := by
    refine legible_of_shallow "run/x" (fun _ => rfl) ?_ ?_
    · intro file hfile
      have hpath := List.mem_map_of_mem (f := Prod.fst) hfile
      rw [hpaths, List.mem_singleton] at hpath
      exact ⟨"run", "x.jsonl", hpath, by decide, by decide +kernel⟩
    · rw [hpaths]
      exact List.nodup_singleton _
  have hpaths : ∀ e ∈ (debitMachine referenceBudget twoDebits).trace
      (.start hundred) (inTurn [0, 1]),
      e.before.files.map Prod.fst = [⟨false, ["run", "x.jsonl"]⟩] ∧
        e.after.files.map Prod.fst = [⟨false, ["run", "x.jsonl"]⟩] := by
    decide +kernel
  have hguard : (debitMachine referenceBudget twoDebits).Guarded
      (Undisturbed referenceBudget twoDebits "run/x") (.start hundred)
      (inTurn [0, 1]) :=
    guarded_inTurn (by decide) (fun _ _ => rfl)
      fun e he => ⟨hlegible (hpaths e he).1, hlegible (hpaths e he).2⟩
  have hnone : (referenceBudget.debits "run/x" (allEvents hundred)).length =
      0 := by
    decide +kernel
  have hinitial : (referenceBudget.initials "run/x"
      (allEvents hundred)).map PyFloat.value? = [some 100] := by
    decide +kernel
  have hcosts (i : ℕ) : (twoDebits i).cost.Nonneg :=
    show (0 : ℚ) ≤ 60 by decide
  exact ⟨hguard, debits_within_initial referenceBudget twoDebits "run/x" 100
    hundred (inTurn [0, 1]) hinitial (by decide)
    (List.length_eq_zero_iff.mp hnone) hcosts hguard⟩

def readTwice : List DebitStep := [.read 0, .read 1, .emit 0, .emit 1]

/-- Both calls find a balance of 100, and both debit 60. -/
theorem debits_exceed_initial :
    (referenceBudget.initials "run/x" (allEvents hundred)).map PyFloat.value? =
        [some 100] ∧
      (referenceBudget.debits "run/x" (allEvents hundred)).length = 0 ∧
      (PyFloat.values (referenceBudget.debits "run/x"
        (allEvents ((debitMachine referenceBudget twoDebits).final
          (.start hundred) readTwice).files))).sum = 120 := by
  decide +kernel

end Hydrogenuine.RiskBudget
