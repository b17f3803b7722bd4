import Hydrogenuine.Ledger.Readers
import Hydrogenuine.Support.PyFloat

/-!
# The semantic risk budget

Embedding of `hg_core/risk_budget/model.py`: a budget is what the events of the
ledger say about a scope key.  A debit computes the balance from the ledger and
then emits an event; the two are separate steps, and calls may take them in any
order.  The impact cost of an action is an input here.
-/

namespace Hydrogenuine.RiskBudget

open Support Hydrogenuine.Core Ledger

abbrev Items := List (String × PyVal)

/-- What budgets run on. -/
structure BudgetEnv extends LedgerEnv where
  /-- The float nearest to a number. -/
  round : ℚ → PyFloat
  /-- `float` of a text, `none` on `ValueError`. -/
  parseFloat : String → Option PyFloat

/-! ## Reading the ledger -/

def getScopeKey (host : Host) (scope : Items) : String :=
  host.str (orValue (PyVal.getItem scope "type") (.str "global")) ++ "/" ++
    host.str (orValue (PyVal.getItem scope "id") (.str "default"))

/-- `iter_events_by_scope`, run to its end. -/
def iterEventsByScope (files : Files) : Except PyError (List LedgerEvent) :=
  readFiles files (fun _ => .ok true) ((iterScopePaths files).map ScopeFile.path)

/-- What an event says about a budget. -/
inductive BudgetEntry where
  | initialized (balance : PyFloat)
  | debited (amount : PyFloat)

/-- The running sums of the ledger walk. -/
structure Tally where
  initial : PyFloat
  totalDebited : PyFloat
  lastId : PyVal

namespace BudgetEnv

variable (env : BudgetEnv)

/-- The error of `float` on a value that is no number. -/
def noNumber (typeName : String) : PyError :=
  .typeError ("float() argument must be a string or a real number, not '" ++
    typeName ++ "'")

/-- `float(v)`. -/
def toFloat : PyVal → Except PyError PyFloat
  | .none => .error (noNumber "NoneType")
  | .bool b => .ok (env.round (if b then 1 else 0))
  | .int n =>
      match env.round n with
      | .finite q repr => .ok (.finite q repr)
      | _ => .error .overflowError
  | .float x => .ok x
  | .str text =>
      match env.parseFloat text with
      | some x => .ok x
      | none => .error (.valueError
          ("could not convert string to float: '" ++ text ++ "'"))
  | .list _ => .error (noNumber "list")
  | .dict _ => .error (noNumber "dict")

/-- `float((ev.get("payload") or {}).get(k, 0))`. -/
def payloadNumber (event : LedgerEvent) (k : String) : Except PyError PyFloat :=
  let payload := PyVal.getItem event "payload"
  if payload.truthy then
    match payload with
    | .dict items => env.toFloat ((PyVal.item? items k).getD (.int 0))
    | _ => .error (.attributeError "get")
  else env.toFloat (.int 0)

/-- What an event says about the budget of a scope key. -/
def entryOf (key : String) (event : LedgerEvent) :
    Except PyError (Option BudgetEntry) := do
  let scope ← scopeOf event
  let action := PyVal.getItem event "action"
  if getScopeKey env.host scope != key then return none
  else if action.pyEq (.str "BUDGET_INITIALIZED") then
    return some (.initialized (← env.payloadNumber event "initial_balance"))
  else if action.pyEq (.str "BUDGET_DEBITED") then
    return some (.debited (← env.payloadNumber event "amount"))
  else return none

def tallyEvent (key : String) (tally : Tally) (event : LedgerEvent) :
    Except PyError Tally := do
  match ← env.entryOf key event with
  | none => return tally
  | some (.initialized balance) =>
      return { tally with
        initial := balance
        lastId := PyVal.getItem event "event_id" }
  | some (.debited amount) =>
      return { tally with
        totalDebited := tally.totalDebited.add env.round amount
        lastId := PyVal.getItem event "event_id" }

/-- `_compute_balance_from_ledger`: the balance, and the sums that it is the
difference of. -/
def computeBalanceFromLedger (files : Files) (key : String) :
    Except PyError (PyFloat × Tally) := do
  let events ← iterEventsByScope files
  let tally ← events.foldlM (env.tallyEvent key) ⟨.zero, .zero, .none⟩
  return (tally.initial.sub env.round tally.totalDebited, tally)

end BudgetEnv

/-! ## Initializing and debiting -/

/-- The event of `init_budget`. -/
def initCall
    (host : Host) (initialBalance : PyFloat) (scope : Items) (actor : PyVal)
    (ts now : String) : EmitCall where
  action := "BUDGET_INITIALIZED"
  objectType := "risk_budget"
  objectId := "init_" ++
    slice (host.sha256Text (getScopeKey host scope ++ ":" ++ ts)) 0 12
  payload := .dict
    [("initial_balance", .float initialBalance), ("ts", .str ts)]
  scope := some scope
  actor := actor
  now := now
  objectPath := none
  secretKeyHex := none

def initBudget
    (env : BudgetEnv) (files : Files) (initialBalance : PyFloat) (scope : Items)
    (actor : PyVal) (ts now : String) : Except PyError Files :=
  emit env.toLedgerEnv files
    (initCall env.host initialBalance scope actor ts now)

/-- What `debit_budget` is called with, and its readings of the clock. -/
structure DebitCall where
  amount : PyFloat
  /-- `compute_impact_cost` of the parameters, when there are any. -/
  impactCost : Option PyFloat := none
  actionId : String
  scope : Items
  actor : PyVal
  /-- The reading of `debit_budget`. -/
  ts : String
  /-- The reading of `emit`. -/
  now : String

namespace DebitCall

def cost (call : DebitCall) : PyFloat := call.impactCost.getD call.amount

/-- `balance < amount`. -/
def insufficient (call : DebitCall) (balance : PyFloat) : Bool :=
  PyVal.numLt balance call.cost

def event (call : DebitCall) (round : ℚ → PyFloat) (balance : PyFloat) :
    EmitCall where
  action :=
    if call.insufficient balance then "BUDGET_INSUFFICIENT" else "BUDGET_DEBITED"
  objectType := "risk_budget"
  objectId := call.actionId
  payload := .dict
    [("action_id", .str call.actionId), ("amount", .float call.cost),
      if call.insufficient balance then ("balance_before", .float balance)
      else ("balance_after", .float (balance.sub round call.cost)),
      ("ts", .str call.ts)]
  scope := some call.scope
  actor := call.actor
  now := call.now
  objectPath := none
  secretKeyHex := none

end DebitCall

/-- The emit of `debit_budget`, and whether it debited. -/
def recordDebit (env : BudgetEnv) (files : Files) (call : DebitCall)
    (balance : PyFloat) : Except PyError (Bool × Files) := do
  let files' ← emit env.toLedgerEnv files (call.event env.round balance)
  return (!call.insufficient balance, files')

def debitBudget (env : BudgetEnv) (files : Files) (call : DebitCall) :
    Except PyError (Bool × Files) := do
  let read ← env.computeBalanceFromLedger files (getScopeKey env.host call.scope)
  recordDebit env files call read.1

/-! ## What the events say -/

def allEvents (files : Files) : List LedgerEvent := files.flatMap Prod.snd

namespace BudgetEntry

def initial? : BudgetEntry → Option PyFloat
  | .initialized balance => some balance
  | .debited _ => none

def debit? : BudgetEntry → Option PyFloat
  | .initialized _ => none
  | .debited amount => some amount

end BudgetEntry

namespace BudgetEnv

variable (env : BudgetEnv)

def entries (key : String) (events : List LedgerEvent) : List BudgetEntry :=
  events.filterMap fun event =>
    match env.entryOf key event with
    | .ok entry => entry
    | .error _ => none

def initials (key : String) (events : List LedgerEvent) : List PyFloat :=
  (env.entries key events).filterMap BudgetEntry.initial?

def debits (key : String) (events : List LedgerEvent) : List PyFloat :=
  (env.entries key events).filterMap BudgetEntry.debit?

variable {env} {key : String}

theorem foldlM_tallyEvent
    {events : List LedgerEvent} {tally tally' : Tally}
    (h : events.foldlM (env.tallyEvent key) tally = .ok tally') :
    tally'.initial = (env.initials key events).getLastD tally.initial ∧
      tally'.totalDebited =
        (env.debits key events).foldl (PyFloat.add env.round)
          tally.totalDebited := by
  induction events generalizing tally with
  | nil =>
      obtain rfl := Except.ok.inj h
      exact ⟨rfl, rfl⟩
  | cons event events ih =>
      rw [List.foldlM_cons] at h
      unfold initials debits entries at ih ⊢
      rw [List.filterMap_cons]
      unfold tallyEvent at h
      cases hentry : env.entryOf key event with
      | error err =>
          rw [hentry] at h
          cases h
      | ok entry =>
          rw [hentry] at h
          cases entry with
          | none => exact ih h
          | some entry =>
              cases entry with
              | initialized balance =>
                  obtain ⟨hinitial, htotal⟩ := ih h
                  rw [hinitial, htotal]
                  simp only [List.filterMap_cons, BudgetEntry.initial?,
                    BudgetEntry.debit?, List.getLastD_cons, and_self]
              | debited amount =>
                  obtain ⟨hinitial, htotal⟩ := ih h
                  rw [hinitial, htotal]
                  simp only [List.filterMap_cons, BudgetEntry.initial?,
                    BudgetEntry.debit?, List.foldl_cons, and_self]

end BudgetEnv

end Hydrogenuine.RiskBudget
