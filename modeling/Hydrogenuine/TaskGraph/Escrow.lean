import Mathlib.Data.List.Perm.Basic
import Hydrogenuine.TaskGraph.Budgets
import Hydrogenuine.TaskGraph.Caps

/-!
# Escrow

Before an agent is dispatched an amount is locked, and one slot of the run state
remembers the lock.  It is settled when the attempt succeeds or the node fails
for good.  The next lock overwrites a slot that an earlier attempt has left
behind.  Along calls in which every attempt with a lock is the last one of its
node, every append of a settlement succeeds and the dispatcher leaves the slot
alone, what is locked is settled exactly once.
-/

namespace Hydrogenuine.TaskGraph

open Support Hydrogenuine.Core

/-! ## Entries of the ledger -/

def lockedIn (os : List Observation) : List (String × PyVal) :=
  os.filterMap fun o =>
    match o with
    | .locked nid amount => some (nid, amount)
    | _ => none

def releasedIn (os : List Observation) : List (String × PyVal) :=
  os.filterMap fun o =>
    match o with
    | .released nid amount => some (nid, amount)
    | _ => none

def slashedIn (os : List Observation) : List (String × PyVal) :=
  os.filterMap fun o =>
    match o with
    | .slashed nid amount => some (nid, amount)
    | _ => none

/-- Every entry that locks an amount has exactly one that releases or slashes it,
and the totals agree under every valuation of the amounts. -/
structure Conserved (os : List Observation) : Prop where
  once : (lockedIn os).Perm (releasedIn os ++ slashedIn os)
  total : ∀ value : PyVal → ℚ,
    ((lockedIn os).map fun entry => value entry.2).sum =
      ((releasedIn os).map fun entry => value entry.2).sum +
        ((slashedIn os).map fun entry => value entry.2).sum

/-- The call has returned with a status after which the run is over. -/
def Call.Terminal (call : Call) : Prop :=
  ∃ e r status, call.flow = .stop e (.ok r) ∧ r.status = some status ∧
    status ≠ "paused"

/-- When the last of the calls of a run ends it, what all of them have locked is
settled. -/
def EscrowConserved (calls : List Call) : Prop :=
  ∀ last, calls.getLast? = some last → last.Terminal →
    Conserved (calls.flatMap fun call => call.flow.exec.observed)

/-- The locked entries are those settled, up to some that are open. -/
def Owes (os : List Observation) (opened : List (String × PyVal)) : Prop :=
  (lockedIn os).Perm (releasedIn os ++ slashedIn os ++ opened)

def Observation.NotEscrow : Observation → Prop
  | .changed _ _ => True
  | .called _ _ => True
  | _ => False

section Entries

variable {os os' : List Observation} {opened : List (String × PyVal)}
  {entry : String × PyVal}

theorem conserved_of_owes (h : Owes os []) : Conserved os := by
  have hperm : (lockedIn os).Perm (releasedIn os ++ slashedIn os) := by
    have hopened := h
    unfold Owes at hopened
    rw [List.append_nil] at hopened
    exact hopened
  refine ⟨hperm, fun value => ?_⟩
  rw [← List.sum_append, ← List.map_append]
  exact (hperm.map _).sum_eq

theorem lockedIn_append (os os' : List Observation) :
    lockedIn (os ++ os') = lockedIn os ++ lockedIn os' :=
  List.filterMap_append

theorem releasedIn_append (os os' : List Observation) :
    releasedIn (os ++ os') = releasedIn os ++ releasedIn os' :=
  List.filterMap_append

theorem slashedIn_append (os os' : List Observation) :
    slashedIn (os ++ os') = slashedIn os ++ slashedIn os' :=
  List.filterMap_append

theorem Owes.append (h : Owes os []) (h' : Owes os' []) :
    Owes (os ++ os') [] := by
  unfold Owes at h h' ⊢
  rw [List.append_nil] at h h' ⊢
  rw [lockedIn_append, releasedIn_append, slashedIn_append]
  refine (h.append h').trans ?_
  rw [List.append_assoc, List.append_assoc]
  refine List.Perm.append_left _ ?_
  rw [← List.append_assoc, ← List.append_assoc]
  exact List.Perm.append_right _ List.perm_append_comm

theorem owes_flatMap {calls : List Call} {observed : Call → List Observation}
    (h : ∀ call ∈ calls, Owes (observed call) []) :
    Owes (calls.flatMap observed) [] := by
  induction calls with
  | nil => exact List.Perm.refl _
  | cons call calls ih =>
      rw [List.flatMap_cons]
      exact (h call List.mem_cons_self).append
        (ih fun call hcall => h call (List.mem_cons_of_mem _ hcall))

theorem entries_of_notEscrow (h : ∀ o ∈ os', o.NotEscrow) :
    lockedIn os' = [] ∧ releasedIn os' = [] ∧ slashedIn os' = [] := by
  have hnone : ∀ f : Observation → Option (String × PyVal),
      (∀ o : Observation, o.NotEscrow → f o = none) →
        os'.filterMap f = [] := fun f hf =>
    List.filterMap_eq_nil_iff.mpr fun o ho => hf o (h o ho)
  refine ⟨hnone _ fun o ho => ?_, hnone _ fun o ho => ?_,
    hnone _ fun o ho => ?_⟩
  · cases o with
    | locked => exact ho.elim
    | _ => rfl
  · cases o with
    | released => exact ho.elim
    | _ => rfl
  · cases o with
    | slashed => exact ho.elim
    | _ => rfl

theorem Owes.notEscrow (h : Owes os opened) (hmore : ∀ o ∈ os', o.NotEscrow) :
    Owes (os ++ os') opened := by
  obtain ⟨hlocked, hreleased, hslashed⟩ := entries_of_notEscrow hmore
  unfold Owes
  rw [lockedIn_append, releasedIn_append, slashedIn_append, hlocked, hreleased,
    hslashed, List.append_nil, List.append_nil, List.append_nil]
  exact h

theorem Owes.lock (h : Owes os []) (entry : String × PyVal) :
    Owes (os ++ [.locked entry.1 entry.2]) [entry] := by
  have hlocked : lockedIn [.locked entry.1 entry.2] = [entry] := rfl
  have hreleased : releasedIn [.locked entry.1 entry.2] = [] := rfl
  have hslashed : slashedIn [.locked entry.1 entry.2] = [] := rfl
  unfold Owes at h ⊢
  rw [lockedIn_append, releasedIn_append, slashedIn_append, hlocked, hreleased,
    hslashed, List.append_nil, List.append_nil]
  rw [List.append_nil] at h
  exact h.append_right [entry]

theorem Owes.release (h : Owes os [entry]) :
    Owes (os ++ [.released entry.1 entry.2]) [] := by
  have hlocked : lockedIn [.released entry.1 entry.2] = [] := rfl
  have hreleased : releasedIn [.released entry.1 entry.2] = [entry] := rfl
  have hslashed : slashedIn [.released entry.1 entry.2] = [] := rfl
  unfold Owes at h ⊢
  rw [lockedIn_append, releasedIn_append, slashedIn_append, hlocked, hreleased,
    hslashed, List.append_nil, List.append_nil, List.append_nil]
  refine h.trans ?_
  rw [List.append_assoc, List.append_assoc]
  exact List.Perm.append_left _ List.perm_append_comm

theorem Owes.slash (h : Owes os [entry]) :
    Owes (os ++ [.slashed entry.1 entry.2]) [] := by
  have hlocked : lockedIn [.slashed entry.1 entry.2] = [] := rfl
  have hreleased : releasedIn [.slashed entry.1 entry.2] = [] := rfl
  have hslashed : slashedIn [.slashed entry.1 entry.2] = [entry] := rfl
  unfold Owes at h ⊢
  rw [lockedIn_append, releasedIn_append, slashedIn_append, hlocked, hreleased,
    hslashed, List.append_nil, List.append_nil, List.append_nil]
  rw [List.append_assoc] at h
  exact h

end Entries

/-! ## The slot of the run state -/

/-- `_escrow_lock` in a state dictionary. -/
def escrowSlot (state : Items) : PyVal := PyVal.getItem state "_escrow_lock"

def lockRecord (nid : String) (amount : PyVal) : PyVal :=
  .dict [("node_id", .str nid), ("amount", amount)]

/-- Nothing is locked and everything is settled. -/
structure Free (e : Exec) : Prop where
  slot : ∀ items, escrowSlot e.runState.state ≠ .dict items
  settled : Owes e.observed []

/-- An amount is locked, and everything else is settled. -/
structure Held (e : Exec) (nid : String) (amount : PyVal) : Prop where
  slot : escrowSlot e.runState.state = lockRecord nid amount
  owed : Owes e.observed [(nid, amount)]

/-- The run goes on aside from escrow. -/
structure Aside (e e' : Exec) : Prop where
  observed : Adds Observation.NotEscrow e e'
  slot : escrowSlot e'.runState.state = escrowSlot e.runState.state
  tick : e'.tick = e.tick

section Aside

variable {e e' e'' : Exec} {nid : String} {amount : PyVal}

theorem Aside.refl : Aside e e := ⟨Adds.same rfl, rfl, rfl⟩

theorem Aside.trans (h : Aside e e') (h' : Aside e' e'') : Aside e e'' :=
  ⟨h.observed.trans h'.observed, h'.slot.trans h.slot, h'.tick.trans h.tick⟩

theorem Free.aside (h : Free e) (haside : Aside e e') : Free e' := by
  obtain ⟨more, heq, hmore⟩ := haside.observed
  constructor
  · rw [haside.slot]
    exact h.slot
  · rw [heq]
    exact h.settled.notEscrow hmore

theorem Held.aside (h : Held e nid amount) (haside : Aside e e') :
    Held e' nid amount := by
  obtain ⟨more, heq, hmore⟩ := haside.observed
  constructor
  · rw [haside.slot]
    exact h.slot
  · rw [heq]
    exact h.owed.notEscrow hmore

theorem aside_settle (id : String) (status : NodeStatus) :
    Aside e (e.settle id status) :=
  ⟨Setting.adds_settle id trivial, rfl, rfl⟩

theorem aside_fail (id : String) (error : Items) :
    Aside e (e.fail id error) :=
  ⟨Setting.adds_fail id error trivial, rfl, rfl⟩

theorem aside_withNodes (nodes : String → NodeRun) :
    Aside e (e.withNodes nodes) :=
  ⟨Setting.adds_withNodes trivial, rfl, rfl⟩

theorem aside_record (event : Event) : Aside e (e.record event) :=
  ⟨Adds.same rfl, rfl, rfl⟩

theorem aside_output (id : String) (v : PyVal) : Aside e (e.output id v) :=
  ⟨Adds.same rfl, rfl, rfl⟩

theorem aside_withItems {f : Items → Items}
    (h : escrowSlot (f e.runState.state) = escrowSlot e.runState.state) :
    Aside e (e.withItems f) :=
  ⟨Adds.same rfl, h, rfl⟩

theorem escrowSlot_setItem {k : String} (hk : "_escrow_lock" ≠ k)
    (state : Items) (v : PyVal) :
    escrowSlot (PyVal.setItem state k v) = escrowSlot state := by
  unfold escrowSlot
  rw [PyVal.getItem_setItem, if_neg hk]

end Aside

namespace Setting

variable {c : Setting} {node : Node} {rest : List String} {e : Exec}
  {amount : PyVal}

/-! ## Locking and settling -/

theorem held_locked (h : Free e) (node : Node) (amount : PyVal) :
    Held (locked e node amount) node.id amount := by
  constructor
  · have hset : escrowSlot (locked e node amount).runState.state =
        escrowSlot (PyVal.setItem e.runState.state "_escrow_lock"
          (lockRecord node.id amount)) := rfl
    rw [hset]
    unfold escrowSlot
    rw [PyVal.getItem_setItem, if_pos rfl]
  · exact h.settled.lock (node.id, amount)

theorem settleEscrowLock_free (h : Free e) (nid : String)
    (entry : String → PyVal → Observation) :
    c.settleEscrowLock e nid entry = e := by
  unfold settleEscrowLock
  split
  · rename_i items hslot
    exact absurd hslot (h.slot items)
  · rfl

theorem settleEscrowLock_held {nid : String} (h : Held e nid amount)
    (happend : c.services.settleEscrow e.tick = true)
    (entry : String → PyVal → Observation) :
    c.settleEscrowLock e nid entry =
      (e.observe (entry nid amount)).withItems fun state =>
        PyVal.setItem state "_escrow_lock" .none := by
  have hslot : PyVal.getItem e.runState.state "_escrow_lock" =
      lockRecord nid amount := h.slot
  have hnode : (PyVal.getItem
      [("node_id", .str nid), ("amount", amount)] "node_id").pyEq (.str nid) =
        true := by
    have hitem : PyVal.getItem
        [("node_id", .str nid), ("amount", amount)] "node_id" = .str nid := rfl
    rw [hitem]
    exact beq_self_eq_true nid
  unfold settleEscrowLock
  rw [hslot]
  unfold lockRecord
  dsimp only
  rw [hnode, happend, if_pos (Bool.and_self true)]
  rfl

theorem free_of_settled {o : Observation}
    (h : Owes (e.observed ++ [o]) []) :
    Free ((e.observe o).withItems fun state =>
      PyVal.setItem state "_escrow_lock" .none) := by
  constructor
  · intro items
    have hslot : escrowSlot ((e.observe o).withItems fun state =>
        PyVal.setItem state "_escrow_lock" .none).runState.state = .none := by
      have hset : escrowSlot ((e.observe o).withItems fun state =>
          PyVal.setItem state "_escrow_lock" .none).runState.state =
          escrowSlot (PyVal.setItem e.runState.state "_escrow_lock" .none) :=
        rfl
      rw [hset]
      unfold escrowSlot
      rw [PyVal.getItem_setItem, if_pos rfl]
    rw [hslot]
    nofun
  · exact h

theorem free_released {nid : String} (h : Held e nid amount)
    (happend : c.services.settleEscrow e.tick = true) :
    Free (c.settleEscrowLock e nid .released) := by
  rw [settleEscrowLock_held h happend]
  exact free_of_settled h.owed.release

theorem free_slashed {nid : String} (h : Held e nid amount)
    (happend : c.services.settleEscrow e.tick = true) :
    Free (c.settleEscrowLock e nid .slashed) := by
  rw [settleEscrowLock_held h happend]
  exact free_of_settled h.owed.slash

/-! ## The end of an attempt -/

theorem aside_stopLoop (nid : String) : Aside e (c.stopLoop e nid) := by
  unfold stopLoop
  split
  · exact Aside.refl
  · rename_i loopNode _
    split
    · have hoff : Aside e (e.setLoop loopNode.id
          { e.loop loopNode.id with active := false }) :=
        ⟨Adds.same rfl, rfl, rfl⟩
      exact hoff.trans (aside_withNodes _)
    · exact Aside.refl

theorem failureStep_aside
    (hover : node.policy.maxRetries < (e.nodes node.id).attemptCount)
    (rest : List String) :
    Aside (c.settleEscrowLock e node.id .slashed)
      (c.failureStep e node rest).exec := by
  have hsettled : Aside (c.settleEscrowLock e node.id .slashed)
      (c.failed e node) := aside_settle node.id .failed
  rcases failureStep_cases c e node rest with
    ⟨hleft, -⟩ | ⟨-, ⟨-, heq⟩ | ⟨-, heq⟩⟩
  · exact absurd hleft (not_le.mpr hover)
  · rw [heq]
    have hskip : Aside (c.failed e node)
        (c.skipPendingDependents (c.failed e node) node.id) :=
      aside_withNodes _
    exact hsettled.trans (hskip.trans ⟨Adds.same rfl, rfl, rfl⟩)
  · rw [heq]
    exact hsettled.trans (aside_stopLoop node.id)

theorem failureStep_free (h : Free e) (rest : List String) :
    Free (c.failureStep e node rest).exec := by
  by_cases hleft : (e.nodes node.id).attemptCount ≤ node.policy.maxRetries
  · unfold failureStep
    rw [if_pos hleft]
    exact h.aside (aside_settle node.id .ready)
  · have haside := failureStep_aside (c := c) (e := e) (not_le.mp hleft) rest
    rw [settleEscrowLock_free h] at haside
    exact h.aside haside

theorem failureStep_held (h : Held e node.id amount)
    (happend : c.services.settleEscrow e.tick = true)
    (hover : node.policy.maxRetries < (e.nodes node.id).attemptCount)
    (rest : List String) : Free (c.failureStep e node rest).exec :=
  (free_slashed h happend).aside (failureStep_aside hover rest)

theorem successStep_free (h : Free e) (output : Option Items)
    (rest : List String) : Free (c.successStep e node output rest).exec := by
  rcases successStep_cases c e node output rest with
    ⟨err, -, -, heq⟩ | ⟨v, heq⟩
  · rw [heq]
    exact h.aside (aside_settle node.id .done)
  · rw [heq, persistAfterNode_exec]
    have hstored : Free ((e.settle node.id .done).output node.id v) :=
      h.aside ((aside_settle node.id .done).trans (aside_output node.id v))
    rw [settleEscrowLock_free hstored]
    exact hstored

theorem successStep_held (h : Held e node.id amount)
    (happend : c.services.settleEscrow e.tick = true) (output : Option Items)
    (rest : List String) :
    Free (c.successStep e node output rest).exec ∨
      ∃ e' err, c.successStep e node output rest = .stop e' (.error err) := by
  rcases successStep_cases c e node output rest with
    ⟨err, -, -, heq⟩ | ⟨v, heq⟩
  · exact Or.inr ⟨_, err, heq⟩
  · rw [heq, persistAfterNode_exec]
    have haside : Aside e ((e.settle node.id .done).output node.id v) :=
      (aside_settle node.id .done).trans (aside_output node.id v)
    refine Or.inl (free_released (h.aside haside) ?_)
    rw [haside.tick]
    exact happend

/-! ## The way to the dispatcher -/

/-- Budget check and charge leave the slot alone. -/
structure LeavesSlot (services : Services) : Prop where
  check : ∀ policy state state' refusal,
    services.checkBeforeDispatch policy state = .ok (state', refusal) →
      escrowSlot state' = escrowSlot state
  charge : ∀ policy state output state',
    services.applyAfterDispatch policy state output = .ok state' →
      escrowSlot state' = escrowSlot state

/-- Afterwards nothing is locked, or something was and the step has raised. -/
def Settles (locks : Prop) (flow : Flow) : Prop :=
  Free flow.exec ∨ (locks ∧ ∃ e err, flow = .stop e (.error err))

theorem Settles.mono {locks locks' : Prop} {flow : Flow}
    (h : Settles locks flow) (himp : locks → locks') : Settles locks' flow :=
  h.imp_right fun ⟨hlocks, hraise⟩ => ⟨himp hlocks, hraise⟩

/-- The dispatcher's answer to a run state is a success. -/
def AnswersWell (c : Setting) (tick : ℕ) (node : Node) (attempt : ℤ)
    (inputs : Items) (r : RunState) : Prop :=
  ∃ output, (c.services.dispatch tick node attempt inputs r c.graphInputs).1 =
    .ok output ∧ notOk output = false

/-- The dispatcher leaves the slot of a run state alone. -/
def DispatchLeaves (c : Setting) (tick : ℕ) (node : Node) (attempt : ℤ)
    (inputs : Items) (r : RunState) : Prop :=
  escrowSlot (c.services.dispatch tick node attempt inputs r c.graphInputs).2 =
    escrowSlot r.state

theorem aside_called {inputs : Items}
    (h : c.DispatchLeaves e.tick node (e.nodes node.id).attemptCount inputs e.runState) :
    Aside e (c.called e node inputs) :=
  ⟨Adds.one rfl trivial, h, rfl⟩

theorem charge_free (hleaves : LeavesSlot c.services) (h : Free e)
    (output : Option Items) {k : Exec → Flow}
    (hk : ∀ state, Free (e.withItems fun _ => state) →
      Free (k (e.withItems fun _ => state)).exec) :
    Free (c.charge e output k).exec := by
  rcases charge_cases c e output k with ⟨err, heq⟩ | ⟨state, hstate, heq⟩
  · rw [heq]
    exact h
  · rw [heq]
    exact hk state
      (h.aside (aside_withItems (hleaves.charge _ _ _ _ hstate)))

theorem dispatchStep_free (hleaves : LeavesSlot c.services) (h : Free e)
    (inputs : Items) (rest : List String)
    (hdispatch : (e.nodes node.id).error = [] →
      c.DispatchLeaves e.tick node (e.nodes node.id).attemptCount inputs e.runState) :
    Free (c.dispatchStep e node inputs rest).exec := by
  rcases dispatchStep_cases c e node inputs rest with
    ⟨-, heq⟩ | ⟨herror, ⟨error, -, heq⟩ | ⟨output, -, -, heq⟩⟩
  · rw [heq]
    exact charge_free hleaves h none fun _ hfree => failureStep_free hfree rest
  · rw [heq]
    have hfailed : Free ((c.called e node inputs).fail node.id error) :=
      h.aside ((aside_called (hdispatch herror)).trans
        (aside_fail node.id error))
    exact charge_free hleaves hfailed none
      fun _ hfree => failureStep_free hfree rest
  · rw [heq]
    exact charge_free hleaves (h.aside (aside_called (hdispatch herror))) output
      fun _ hfree => successStep_free hfree output rest

theorem charged_failure_held (hleaves : LeavesSlot c.services)
    (h : Held e node.id amount)
    (happend : c.services.settleEscrow e.tick = true)
    (hover : node.policy.maxRetries < (e.nodes node.id).attemptCount)
    (rest : List String) :
    Settles True (c.charge e none fun e => c.failureStep e node rest) := by
  rcases charge_cases c e none fun e => c.failureStep e node rest with
    ⟨err, heq⟩ | ⟨state, hstate, heq⟩
  · exact Or.inr ⟨trivial, e, err, heq⟩
  · rw [heq]
    have hheld : Held (e.withItems fun _ => state) node.id amount :=
      h.aside (aside_withItems (hleaves.charge _ _ _ _ hstate))
    exact Or.inl (failureStep_held hheld happend hover rest)

theorem dispatchStep_held (hleaves : LeavesSlot c.services)
    (h : Held e node.id amount) (inputs : Items) (rest : List String)
    (happend : c.services.settleEscrow e.tick = true)
    (hdispatch : (e.nodes node.id).error = [] →
      c.DispatchLeaves e.tick node (e.nodes node.id).attemptCount inputs e.runState)
    (hlast : ((e.nodes node.id).error = [] ∧
        c.AnswersWell e.tick node (e.nodes node.id).attemptCount inputs e.runState) ∨
      node.policy.maxRetries < (e.nodes node.id).attemptCount) :
    Settles True (c.dispatchStep e node inputs rest) := by
  rcases dispatchStep_cases c e node inputs rest with
    ⟨herror, heq⟩ | ⟨herror, ⟨error, hbad, heq⟩ | ⟨output, -, -, heq⟩⟩
  · rw [heq]
    refine charged_failure_held hleaves h happend ?_ rest
    exact hlast.resolve_left fun hwell => herror hwell.1
  · rw [heq]
    have haside : Aside e ((c.called e node inputs).fail node.id error) :=
      (aside_called (hdispatch herror)).trans (aside_fail node.id error)
    have hattempts : (((c.called e node inputs).fail node.id
        error).nodes node.id).attemptCount =
          (e.nodes node.id).attemptCount :=
      congrFun (congrArg RunCore.attempts (core_fail _ node.id error)) node.id
    refine charged_failure_held hleaves (h.aside haside) ?_ ?_ rest
    · rw [haside.tick]
      exact happend
    · rw [hattempts]
      refine hlast.resolve_left ?_
      rintro ⟨-, output, hok, hgood⟩
      rw [hbad output hok] at hgood
      cases hgood
  · rw [heq]
    have haside := aside_called (hdispatch herror)
    rcases charge_cases c (c.called e node inputs) output
        fun e => c.successStep e node output rest with
      ⟨err, hcharge⟩ | ⟨state, hstate, hcharge⟩
    · exact Or.inr ⟨trivial, _, err, hcharge⟩
    · rw [hcharge]
      have hheld : Held ((c.called e node inputs).withItems fun _ => state)
          node.id amount :=
        h.aside (haside.trans
          (aside_withItems (hleaves.charge _ _ _ _ hstate)))
      rcases successStep_held hheld happend output rest with
        hfree | ⟨e', err, hraise⟩
      · exact Or.inl hfree
      · exact Or.inr ⟨trivial, e', err, hraise⟩

theorem afterGate_settles (hleaves : LeavesSlot c.services) (h : Free e)
    (node : Node) (inputs : Items) (rest : List String)
    (hdispatch : (e.nodes node.id).error = [] →
      c.DispatchLeaves e.tick node (e.nodes node.id).attemptCount inputs (c.lockEscrow e node).runState)
    (hlocked : ∀ amount, c.escrowAmount e.tick node = some amount →
      c.services.settleEscrow e.tick = true ∧
        (((e.nodes node.id).error = [] ∧
          c.AnswersWell e.tick node (e.nodes node.id).attemptCount inputs (c.lockEscrow e node).runState) ∨
        node.policy.maxRetries < (e.nodes node.id).attemptCount)) :
    Settles (∃ amount, c.escrowAmount e.tick node = some amount)
      (c.afterGate e node inputs rest) := by
  unfold afterGate
  rw [lockEscrow_eq] at hdispatch hlocked ⊢
  cases hamount : c.escrowAmount e.tick node with
  | none =>
      rw [hamount] at hdispatch
      exact Or.inl (dispatchStep_free hleaves h inputs rest hdispatch)
  | some amount =>
      rw [hamount] at hdispatch hlocked
      obtain ⟨happend, hlast⟩ := hlocked amount rfl
      have hheld := held_locked h node amount
      exact (dispatchStep_held hleaves hheld inputs rest happend hdispatch
        hlast).mono fun _ => ⟨amount, rfl⟩

/-- A node that is asked about and not refused for good gets the lock. -/
def Unrefused (c : Setting) (tick : ℕ) (state : Items) (node : Node) : Prop :=
  c.Denies tick state node → ∃ err, c.services.saveError tick 0 = some err

theorem aside_denied (result : GateResult) :
    Aside e (denied e node result) :=
  (aside_record (.gateChecked node.id false)).trans
    ((aside_fail node.id _).trans (aside_settle node.id .failed))

theorem stakesStep_settles (hleaves : LeavesSlot c.services) (h : Free e)
    (node : Node) (inputs : Items) (rest : List String)
    (hdispatch : (e.nodes node.id).error = [] →
      ¬c.Denies e.tick e.runState.state node →
      c.DispatchLeaves e.tick node (e.nodes node.id).attemptCount inputs (c.lockEscrow e node).runState)
    (hlocked : ∀ amount, c.escrowAmount e.tick node = some amount →
      c.Unrefused e.tick e.runState.state node →
      c.services.settleEscrow e.tick = true ∧
        (((e.nodes node.id).error = [] ∧
          ¬c.Denies e.tick e.runState.state node ∧
          c.AnswersWell e.tick node (e.nodes node.id).attemptCount inputs (c.lockEscrow e node).runState) ∨
        node.policy.maxRetries < (e.nodes node.id).attemptCount)) :
    Settles (c.Unrefused e.tick e.runState.state node ∧
        ∃ amount, c.escrowAmount e.tick node = some amount)
      (c.stakesStep e node inputs rest) := by
  have hgranted : ¬c.Denies e.tick e.runState.state node →
      ∀ e', Aside e e' → e'.nodes = e.nodes →
        (c.lockEscrow e' node).runState = (c.lockEscrow e node).runState →
        Settles (c.Unrefused e.tick e.runState.state node ∧
            ∃ amount, c.escrowAmount e.tick node = some amount)
          (c.afterGate e' node inputs rest) := by
    intro hnot e' haside hnodes hrun
    have hunrefused : c.Unrefused e.tick e.runState.state node :=
      fun hdenies => absurd hdenies hnot
    have hsettles := afterGate_settles (c := c) hleaves
      (h.aside haside) node inputs rest
    rw [haside.tick, hnodes, hrun] at hsettles
    refine (hsettles (fun herror => hdispatch herror hnot) ?_).mono
      fun hamount => ⟨hunrefused, hamount⟩
    intro amount hamount
    obtain ⟨happend, hlast⟩ := hlocked amount hamount hunrefused
    exact ⟨happend, hlast.imp_left fun hwell => ⟨hwell.1, hwell.2.2⟩⟩
  have hchecked : ∀ allowed, ¬c.Denies e.tick e.runState.state node →
      Settles (c.Unrefused e.tick e.runState.state node ∧
          ∃ amount, c.escrowAmount e.tick node = some amount)
        (c.afterGate (e.record (.gateChecked node.id allowed)) node inputs
          rest) := by
    intro allowed hnot
    refine hgranted hnot _ (aside_record _) rfl ?_
    rw [lockEscrow_record]
    rfl
  rcases stakesStep_cases c e node inputs rest with
    ⟨hway, heq | heq⟩ | ⟨hnot, heq⟩ | ⟨hdenies, result, heq | ⟨hsave, heq⟩⟩
  · rw [heq]
    exact hgranted (not_denies_of_gateGivesWay hway) e Aside.refl rfl rfl
  · rw [heq]
    exact hchecked false (not_denies_of_gateGivesWay hway)
  · rw [heq]
    exact hchecked true hnot
  · rw [heq]
    exact Or.inl (h.aside (aside_denied result))
  · rw [heq]
    have hunrefused : c.Unrefused e.tick e.runState.state node := fun _ => hsave
    have haside : Aside e (denied e node result) := aside_denied result
    have hattempts : ((denied e node result).nodes node.id).attemptCount =
        (e.nodes node.id).attemptCount :=
      congrFun (congrArg RunCore.attempts (core_denied result)) node.id
    have hsettles := afterGate_settles (c := c) hleaves
      (h.aside haside) node inputs rest
    rw [haside.tick, hattempts] at hsettles
    refine (hsettles (fun herror => absurd herror (error_denied result)) ?_).mono
      fun hamount => ⟨hunrefused, hamount⟩
    intro amount hamount
    obtain ⟨happend, hlast⟩ := hlocked amount hamount hunrefused
    refine ⟨happend, Or.inr (hlast.resolve_left ?_)⟩
    rintro ⟨-, hnot, -⟩
    exact hnot hdenies

theorem escrowSlot_stakesState (hleaves : LeavesSlot c.services) (e : Exec) :
    escrowSlot (c.stakesState e) = escrowSlot e.runState.state := by
  unfold stakesState
  split
  · rename_i checked hcheck
    exact hleaves.check _ _ checked.1 checked.2 hcheck
  · rfl

theorem budgetStep_settles (hleaves : LeavesSlot c.services) (h : Free e)
    (node : Node) (inputs : Items) (rest : List String)
    (hdispatch : (e.nodes node.id).error = [] → c.WithinBudget e →
      ¬c.Denies e.tick (c.stakesState e) node →
      c.DispatchLeaves e.tick node (e.nodes node.id).attemptCount inputs (c.atDispatch e node))
    (hlocked : c.WithinBudget e →
      ∀ amount, c.escrowAmount e.tick node = some amount →
      c.Unrefused e.tick (c.stakesState e) node →
      c.services.settleEscrow e.tick = true ∧
        (((e.nodes node.id).error = [] ∧
          ¬c.Denies e.tick (c.stakesState e) node ∧
          c.AnswersWell e.tick node (e.nodes node.id).attemptCount inputs (c.atDispatch e node)) ∨
        node.policy.maxRetries < (e.nodes node.id).attemptCount)) :
    Settles (c.WithinBudget e ∧ c.Unrefused e.tick (c.stakesState e) node ∧
        ∃ amount, c.escrowAmount e.tick node = some amount)
      (c.budgetStep e node inputs rest) := by
  have haside : Aside e (e.withItems fun _ => c.stakesState e) :=
    aside_withItems (escrowSlot_stakesState hleaves e)
  rcases budgetStep_cases c e node inputs rest with
    ⟨-, ⟨err, heq⟩ | ⟨err, heq⟩⟩ | ⟨hbudget, heq⟩
  · rw [heq]
    exact Or.inl h
  · rw [heq]
    refine Or.inl ?_
    rw [saveAndReturn_exec]
    have herror : Aside (e.withItems fun _ => c.stakesState e)
        (c.refused e err) :=
      ⟨Adds.same rfl, escrowSlot_setItem (by decide) _ _, rfl⟩
    exact h.aside (haside.trans herror)
  · rw [heq]
    have hsettles := stakesStep_settles hleaves (h.aside haside) node inputs
      rest
    exact (hsettles (fun herror => hdispatch herror hbudget)
      (hlocked hbudget)).mono fun hlocks => ⟨hbudget, hlocks⟩

def answer (c : Setting) (e : Exec) (node : Node) :
    Except PyError (Option Items) × Items :=
  c.services.dispatch e.tick node (e.nodes node.id).attemptCount
    (c.resolveInputs e node) (c.atDispatch e node) c.graphInputs

/-- A started node passes and its dispatch succeeds. -/
def Succeeds (c : Setting) (e : Exec) (node : Node) : Prop :=
  c.Passes e node ∧
    c.AnswersWell e.tick node (e.nodes node.id).attemptCount (c.resolveInputs e node) (c.atDispatch e node)

/-- An amount is locked for a started node: it gets to the gate, which does not
refuse it for good. -/
structure Locks (c : Setting) (e : Exec) (node : Node) : Prop where
  asked : c.Asked e node
  unrefused : c.Unrefused e.tick (c.stakesState e) node
  amount : ∃ amount, c.escrowAmount e.tick node = some amount

/-- The lock of a started node is settled: its slot is left alone by the
dispatcher, the attempt succeeds or is the last one, and the settlement can be
appended. -/
structure SettlesLock (c : Setting) (e : Exec) (node : Node) : Prop where
  slot : c.Passes e node → c.DispatchLeaves e.tick node
      (e.nodes node.id).attemptCount
    (c.resolveInputs e node) (c.atDispatch e node)
  append : c.Locks e node → c.services.settleEscrow e.tick = true
  last : c.Locks e node → c.Succeeds e node ∨
    node.policy.maxRetries < (e.nodes node.id).attemptCount

theorem bindingStep_settles (hleaves : LeavesSlot c.services) (h : Free e)
    (node : Node) (rest : List String)
    (hdispatch : (e.nodes node.id).error = [] → c.Binds e node "blocked" →
      c.Binds e node "strict" → c.WithinBudget e →
      ¬c.Denies e.tick (c.stakesState e) node →
      c.DispatchLeaves e.tick node (e.nodes node.id).attemptCount (c.resolveInputs e node)
        (c.atDispatch e node))
    (hlocked : c.Binds e node "blocked" → c.WithinBudget e →
      ∀ amount, c.escrowAmount e.tick node = some amount →
      c.Unrefused e.tick (c.stakesState e) node →
      c.services.settleEscrow e.tick = true ∧
        (((e.nodes node.id).error = [] ∧ c.Binds e node "strict" ∧
          ¬c.Denies e.tick (c.stakesState e) node ∧
          c.AnswersWell e.tick node (e.nodes node.id).attemptCount (c.resolveInputs e node)
            (c.atDispatch e node)) ∨
        node.policy.maxRetries < (e.nodes node.id).attemptCount)) :
    Settles (c.Binds e node "blocked" ∧ c.WithinBudget e ∧
        c.Unrefused e.tick (c.stakesState e) node ∧
        ∃ amount, c.escrowAmount e.tick node = some amount)
      (c.bindingStep e node rest) := by
  rcases bindingStep_cases c e node rest with
    ⟨-, heq⟩ | ⟨hbinds, hstrict, heq⟩ | ⟨hbinds, hstrict, heq⟩
  · rw [heq]
    refine Or.inl ?_
    rw [save_next_exec]
    exact h.aside ((aside_fail node.id []).trans
      (aside_settle node.id .blocked))
  · rw [heq]
    have haside : Aside e (c.unbound e node) := aside_fail node.id _
    have hattempts : ((c.unbound e node).nodes node.id).attemptCount =
        (e.nodes node.id).attemptCount :=
      congrFun (congrArg RunCore.attempts (core_fail e node.id _)) node.id
    have hsettles := budgetStep_settles hleaves (h.aside haside) node
      (c.resolveInputs e node) rest
    refine (hsettles (fun herror => absurd herror (error_unbound c e node))
      ?_).mono fun hlocks => ⟨hbinds, hlocks⟩
    intro hbudget amount hamount hunrefused
    obtain ⟨happend, hlast⟩ := hlocked hbinds hbudget amount hamount hunrefused
    refine ⟨happend, Or.inr ?_⟩
    rw [hattempts]
    refine hlast.resolve_left ?_
    rintro ⟨-, hbound, -⟩
    exact hstrict hbound
  · rw [heq]
    have hsettles := budgetStep_settles hleaves h node
      (c.resolveInputs e node) rest
    refine (hsettles (fun herror => hdispatch herror hbinds hstrict) ?_).mono
      fun hlocks => ⟨hbinds, hlocks⟩
    intro hbudget amount hamount hunrefused
    obtain ⟨happend, hlast⟩ := hlocked hbinds hbudget amount hamount hunrefused
    exact ⟨happend, hlast.imp_left fun hwell => ⟨hwell.1, hwell.2.2⟩⟩

theorem steeringStep_settles (hleaves : LeavesSlot c.services) (h : Free e)
    (rest : List String) (herror : (e.nodes node.id).error = [])
    (hguard : c.SettlesLock e node) :
    Settles (c.Locks e node) (c.steeringStep e node rest) := by
  rcases steeringStep_cases c e node rest with
    ⟨reason, hreason, heq | ⟨hsave, heq⟩⟩ | ⟨hpass, heq⟩
  · rw [heq]
    exact Or.inl (h.aside ((aside_fail node.id _).trans
      (aside_settle node.id .blocked)))
  · rw [heq]
    have haside : Aside e (steeringBlocked e node reason) :=
      (aside_fail node.id _).trans (aside_settle node.id .blocked)
    have hattempts : ((steeringBlocked e node reason).nodes
        node.id).attemptCount = (e.nodes node.id).attemptCount := by
      have hcore : (steeringBlocked e node reason).core =
          e.core.settle node.id .blocked := by
        rw [steeringBlocked, core_settle, core_fail]
      exact congrFun (congrArg RunCore.attempts hcore) node.id
    have hblocked : ((steeringBlocked e node reason).nodes
        node.id).error ≠ [] :=
      (steeringBlocked_node reason).1
    have hsettles := bindingStep_settles hleaves (h.aside haside) node rest
    refine (hsettles (fun hnone => absurd hnone hblocked) ?_).mono ?_
    · intro hbinds hbudget amount hamount hunrefused
      have hlocks : c.Locks e node :=
        ⟨⟨fun _ _ => hsave, hbinds, hbudget⟩, hunrefused, amount, hamount⟩
      refine ⟨hguard.append hlocks, Or.inr ?_⟩
      rw [hattempts]
      refine (hguard.last hlocks).resolve_left ?_
      rintro ⟨hpasses, -⟩
      exact hpasses.clean.steering reason hreason
    · rintro ⟨hbinds, hbudget, hunrefused, hamount⟩
      exact ⟨⟨fun _ _ => hsave, hbinds, hbudget⟩, hunrefused, hamount⟩
  · rw [heq]
    have hasked : c.Binds e node "blocked" → c.WithinBudget e →
        c.Asked e node := fun hbinds hbudget =>
      ⟨fun reason hreason => absurd hreason (hpass reason), hbinds, hbudget⟩
    have hsettles := bindingStep_settles hleaves h node rest
    refine (hsettles ?_ ?_).mono ?_
    · intro _ hbinds hstrict hbudget hgranted
      exact hguard.slot ⟨hasked hbinds hbudget, ⟨hpass, hstrict⟩, hgranted⟩
    · intro hbinds hbudget amount hamount hunrefused
      have hlocks : c.Locks e node :=
        ⟨hasked hbinds hbudget, hunrefused, amount, hamount⟩
      refine ⟨hguard.append hlocks, (hguard.last hlocks).imp_left ?_⟩
      rintro ⟨hpasses, hwell⟩
      exact ⟨herror, hpasses.clean.binding, hpasses.granted, hwell⟩
    · rintro ⟨hbinds, hbudget, hunrefused, hamount⟩
      exact ⟨hasked hbinds hbudget, hunrefused, hamount⟩

/-! ## Steps -/

theorem gateStep_aside (c : Setting) (e : Exec) (node : Node)
    (rest : List String) : Aside e (c.gateStep e node rest).exec := by
  have hexec : ∃ nodes out, (c.gateStep e node rest).exec =
      ((e.withNodes nodes).settle node.id .done).output node.id out :=
    ⟨_, _, persistAfterNode_exec⟩
  obtain ⟨nodes, out, heq⟩ := hexec
  rw [heq]
  exact (aside_withNodes nodes).trans
    ((aside_settle node.id .done).trans (aside_output node.id out))

theorem escrowSlot_ensureLoopItem {state state' : Items} {id : String}
    {item : PyVal} (h : ensureLoopItem state id = .ok (state', item)) :
    escrowSlot state' = escrowSlot state := by
  unfold ensureLoopItem at h
  split at h
  · obtain ⟨rfl, -⟩ := Prod.mk.inj (Except.ok.inj h)
    exact escrowSlot_setItem (by decide) _ _
  · obtain ⟨rfl, -⟩ := Prod.mk.inj (Except.ok.inj h)
    exact escrowSlot_setItem (by decide) _ _
  · cases h

theorem loopStep_free (h : Free e) (node : Node) (rest : List String) :
    Free (c.loopStep e node rest).exec := by
  rcases loopStep_exec c e node rest with
    heq | ⟨e', out, state, item, hitem, hstate, hobserved, -, heq⟩
  · rw [heq]
    exact h
  · rw [heq]
    have hfree : Free e' := by
      constructor
      · rw [hstate, escrowSlot_ensureLoopItem hitem]
        exact h.slot
      · rw [hobserved]
        exact h.settled
    exact hfree.aside
      ((aside_settle node.id .done).trans (aside_output node.id out))

theorem headStep_free (h : Free e) : Free (c.headStep e).exec := by
  have hadds : Adds Observation.NotEscrow e (c.headStep e).exec := by
    refine (headStep_adds c e).mono fun o hskips => ?_
    cases o with
    | changed => trivial
    | _ => exact hskips.elim
  have hinjected : escrowSlot (c.injected e).runState.state =
      escrowSlot e.runState.state := by
    unfold injected
    split
    · exact escrowSlot_setItem (by decide) _ _
    · rfl
  have hslot : escrowSlot (c.headStep e).exec.runState.state =
      escrowSlot e.runState.state := by
    rcases headStep_cases c e with
      ⟨code, message, status, heq, -⟩ | ⟨-, heq⟩
    · rw [heq, saveAndReturn_exec, ← hinjected]
      exact escrowSlot_setItem (by decide) _ _
    · rw [heq]
      rcases batchStep_cases c (c.injected e) with
        ⟨-, message, hbatch⟩ | ⟨-, -, hbatch⟩ | ⟨-, hbatch⟩
      · rw [hbatch, saveAndReturn_exec, ← hinjected]
        exact escrowSlot_setItem (by decide) _ _
      · rw [hbatch, idleStep_state]
        exact hinjected
      · rw [hbatch]
        exact hinjected
  obtain ⟨more, heq, hmore⟩ := hadds
  constructor
  · rw [hslot]
    exact h.slot
  · rw [heq]
    exact h.settled.notEscrow hmore

/-- The step starts a node for which an amount is locked. -/
def StepLocks (c : Setting) (s : Sched) : Prop :=
  ∃ node, c.Starts s node ∧ node.type ≠ "gate" ∧ node.type ≠ "loop" ∧
    c.Locks (startNode s.now node.id) node

/-- The lock of the node that the step starts, if any, is settled. -/
def StepSettles (c : Setting) (s : Sched) : Prop :=
  ∀ node, c.Starts s node → node.type ≠ "gate" → node.type ≠ "loop" →
    c.SettlesLock (startNode s.now node.id) node

theorem aside_startNode (id : String) : Aside e (startNode e id) := by
  refine ⟨⟨_, (observed_startNode e id).trans (List.append_assoc _ _ _), ?_⟩,
    rfl, rfl⟩
  exact List.forall_mem_append.mpr
    ⟨List.forall_mem_singleton.mpr trivial,
      List.forall_mem_singleton.mpr trivial⟩

theorem step_settles (hleaves : LeavesSlot c.services) {s : Sched}
    (h : Free s.exec) (hguard : c.StepSettles s) :
    Settles (c.StepLocks s) (c.step s) := by
  obtain ⟨queue, e⟩ := s
  have hnow : Free { e with tick := e.tick + 1 } := ⟨h.slot, h.settled⟩
  cases queue with
  | nil => exact Or.inl (headStep_free hnow)
  | cons nid rest =>
      rcases c.nodeStep_ways { e with tick := e.tick + 1 } nid rest with
        ⟨-, heq⟩ | ⟨-, heq⟩ | ⟨node, hnode, hwaits, heq⟩
      · have hstep : c.step ⟨nid :: rest, e⟩ = .stop
            { e with tick := e.tick + 1 } (.error (.keyError nid)) := heq
        rw [hstep]
        exact Or.inl hnow
      · have hstep : c.step ⟨nid :: rest, e⟩ = .next
            ⟨rest, { e with tick := e.tick + 1 }⟩ := heq
        rw [hstep]
        exact Or.inl hnow
      · obtain rfl := Dag.byId_id hnode
        have hstep : c.step ⟨node.id :: rest, e⟩ = c.processNode
            (startNode { e with tick := e.tick + 1 } node.id) node rest := heq
        have hstarts : c.Starts ⟨node.id :: rest, e⟩ node :=
          ⟨⟨rest, rfl⟩, hnode, hwaits⟩
        have hfree : Free (startNode { e with tick := e.tick + 1 } node.id) :=
          hnow.aside (aside_startNode node.id)
        have herror : ((startNode { e with tick := e.tick + 1 }
            node.id).nodes node.id).error = [] := by
          rw [startNode_node]
        rw [hstep]
        rcases c.processNode_cases
            (startNode { e with tick := e.tick + 1 } node.id) node rest with
          ⟨-, hprocess⟩ | ⟨-, hprocess⟩ | ⟨hgate, hloop, hprocess⟩
        · rw [hprocess]
          exact Or.inl (hfree.aside (gateStep_aside c _ node rest))
        · rw [hprocess]
          exact Or.inl (loopStep_free hfree node rest)
        · rw [hprocess]
          exact (steeringStep_settles hleaves hfree rest herror
            (hguard node hstarts hgate hloop)).mono
              fun hlocks => ⟨node, hstarts, hgate, hloop, hlocks⟩

end Setting

/-! ## Calls -/

theorem Budgets.enforcing_leavesSlot (floats : FloatHost)
    (services : Services) :
    Setting.LeavesSlot (Budgets.enforcing floats services) := by
  have hdefault : ∀ state, escrowSlot (Budgets.setDefaultUsed state) =
      escrowSlot state := by
    intro state
    unfold Budgets.setDefaultUsed
    split
    · rfl
    · exact escrowSlot_setItem (by decide) _ _
  constructor
  · intro policy state state' refusal hcheck
    have hcheck' : Budgets.checkBeforeDispatch floats policy state =
        .ok (state', refusal) := hcheck
    unfold Budgets.checkBeforeDispatch at hcheck'
    split at hcheck'
    · cases hcheck'
    · dsimp only at hcheck'
      cases hcost : Budgets.checkCost floats _ (Budgets.setDefaultUsed state)
          [("dispatch_attempts", .int 1)] with
      | error err =>
          rw [hcost] at hcheck'
          cases hcheck'
      | ok refusal' =>
          rw [hcost] at hcheck'
          obtain ⟨rfl, -⟩ := Prod.mk.inj (Except.ok.inj hcheck')
          exact hdefault state
  · intro policy state output state' happly
    have husage : ∀ (usage : Items) (state : Items),
        Budgets.addUsage floats state usage = .ok state' →
          escrowSlot state' = escrowSlot state := by
      intro usage
      induction usage with
      | nil =>
          intro state h
          obtain rfl := Except.ok.inj h
          rfl
      | cons entry usage ih =>
          intro state h
          unfold Budgets.addUsage at h
          split at h
          · split at h
            · cases h
            · cases h
            · rw [ih _ h]
              exact escrowSlot_setItem (by decide) _ _
          · cases h
    rw [husage _ _ happly]
    exact hdefault state

def Call.RaisesLocked (call : Call) : Prop :=
  ∃ m < call.length, ∃ s, call.setting.steps m (.next call.start) = .next s ∧
    call.setting.StepLocks s ∧
      ∃ e err, call.setting.step s = .stop e (.error err)

/-- Every step of the call settles the lock that it takes. -/
def Call.SettlesLocks (call : Call) : Prop :=
  ∀ m < call.length, ∀ s,
    call.setting.steps m (.next call.start) = .next s →
      call.setting.StepSettles s

theorem Call.settles (call : Call)
    (hleaves : Setting.LeavesSlot call.setting.services)
    (hstart : Free call.start.exec) (hsettles : call.SettlesLocks) :
    Setting.Settles call.RaisesLocked call.flow := by
  have hrun : ∀ n ≤ call.length, Setting.Settles call.RaisesLocked
      (call.setting.steps n (.next call.start)) := by
    intro n
    induction n with
    | zero => exact fun _ => Or.inl hstart
    | succ n ih =>
        intro hn
        have hlt : n < call.length := Nat.lt_of_succ_le hn
        have hbefore := ih (Nat.le_of_succ_le hn)
        rw [Setting.steps_succ]
        cases hflow : call.setting.steps n (.next call.start) with
        | stop e result =>
            rw [hflow] at hbefore
            exact hbefore
        | next s =>
            rw [hflow] at hbefore
            rcases hbefore with hfree | ⟨-, e, err, hraise⟩
            · rcases Setting.step_settles hleaves hfree
                  (hsettles n hlt s hflow) with hafter | ⟨hlocks, hraise⟩
              · exact Or.inl hafter
              · exact Or.inr ⟨⟨n, hlt, s, hflow, hlocks, hraise⟩, hraise⟩
            · cases hraise
  exact hrun call.length le_rfl

/-- When no call starts with a lock in the slot, every step settles the lock that it
takes, and no call before the last raises under a lock, escrow is conserved. -/
theorem escrow_conserved
    (floats : FloatHost) (dag : Dag) (calls : List Call)
    (hcalls : ∀ call ∈ calls, IsCall dag call)
    (hservices : ∀ call ∈ calls, ∃ services,
      call.setting.services = Budgets.enforcing floats services)
    (hstart : ∀ call ∈ calls, ∀ items,
      escrowSlot call.start.exec.runState.state ≠ .dict items)
    (hsettles : ∀ call ∈ calls, call.SettlesLocks)
    (hraises : ∀ call ∈ calls.dropLast, ¬call.RaisesLocked) :
    EscrowConserved calls := by
  have hcall : ∀ call ∈ calls,
      Setting.Settles call.RaisesLocked call.flow := by
    intro call hmem
    obtain ⟨services, hsame⟩ := hservices call hmem
    have hfresh := (hcalls call hmem).start_fresh.2.2
    refine call.settles ?_ ⟨hstart call hmem, ?_⟩ (hsettles call hmem)
    · rw [hsame]
      exact Budgets.enforcing_leavesSlot floats services
    · rw [hfresh]
      exact List.Perm.refl _
  intro last hlast hterminal
  have hfree : ∀ call ∈ calls, Free call.flow.exec := by
    intro call hmem
    rcases hcall call hmem with hfree | ⟨hlocked, e, err, hraise⟩
    · exact hfree
    · have hsplit := List.dropLast_append_getLast? last hlast
      rw [← hsplit] at hmem
      rcases List.mem_append.mp hmem with hearlier | hsame
      · exact absurd hlocked (hraises call hearlier)
      · obtain rfl := List.mem_singleton.mp hsame
        obtain ⟨e', r, status, hreturn, -⟩ := hterminal
        rw [hraise] at hreturn
        cases hreturn
  exact conserved_of_owes (owes_flatMap fun call hmem => (hfree call hmem).settled)

/-! ## An agent that is retried -/

def agentDag (retries : ℤ) : Dag where
  graphId := "g"
  nodes :=
    [{ id := "agent", type := "agent", assignedEntity := "system"
       policy := { maxRetries := retries } }]

theorem agentDag_valid : validateDag referenceHost (agentDag 1) = [] := by
  decide +kernel

def lockingServices (failing : ℕ) : Services :=
  Budgets.enforcing Budgets.exactFloats
    { quietServices with
      lockEscrow := fun _ _ => some (.int 10)
      dispatch := fun tick _ _ _ r _ =>
        if tick = failing then (.error (.valueError "timeout"), r.state)
        else (.ok (some [("ok", .bool true)]), r.state) }

/-- A call of `run` on the agent with a stakes policy in force. -/
def agentCall (retries : ℤ) (failing n : ℕ) : Call where
  setting :=
    { services := lockingServices failing
      dag := agentDag retries
      mode := .run
      graphInputs := []
      stakesPolicy := some (.dict []) }
  start := runStart (lockingServices failing) []
  length := n

theorem agentCall_isCall {retries : ℤ} (failing n : ℕ)
    (hvalid : validateDag referenceHost (agentDag retries) = []) :
    IsCall (agentDag retries) (agentCall retries failing n) := by
  have hrun : run (lockingServices failing) (agentDag retries) [] none
      (some (.dict [])) = .ok ((agentCall retries failing n).setting,
        (agentCall retries failing n).start) :=
    run_of_valid hvalid
  exact IsCall.run n hrun rfl

/-- The first of two locks is never settled. -/
theorem first_lock_lost :
    (∀ call ∈ [agentCall 1 2 5], IsCall (agentDag 1) call) ∧
      ¬EscrowConserved [agentCall 1 2 5] := by
  refine ⟨List.forall_mem_singleton.mpr (agentCall_isCall 2 5 agentDag_valid),
    fun h => ?_⟩
  have hterminal : (agentCall 1 2 5).Terminal :=
    ⟨_, _, "completed", rfl, rfl, by decide⟩
  have hconserved := h (agentCall 1 2 5) rfl hterminal
  have hlength := hconserved.once.length_eq
  exact absurd hlength (by decide +kernel)

/-- The lock of an agent that succeeds at once is released. -/
theorem lock_released : EscrowConserved [agentCall 0 0 3] := by
  have hvalid : validateDag referenceHost (agentDag 0) = [] := by
    decide +kernel
  have hempty : escrowSlot (agentCall 0 0 3).start.exec.runState.state =
      .none := rfl
  refine escrow_conserved Budgets.exactFloats (agentDag 0) [agentCall 0 0 3]
    (List.forall_mem_singleton.mpr (agentCall_isCall 0 3 hvalid))
    (List.forall_mem_singleton.mpr ⟨_, rfl⟩)
    (List.forall_mem_singleton.mpr ?_) (List.forall_mem_singleton.mpr ?_)
    (fun call hmem => absurd hmem List.not_mem_nil)
  · rw [hempty]
    exact fun _ => PyVal.noConfusion
  · intro m hm s hs node hstarts _ _
    obtain ⟨rest, hqueue⟩ := hstarts.next
    have hlt : m < 3 := hm
    obtain rfl | rfl | rfl : m = 0 ∨ m = 1 ∨ m = 2 := by omega
    · obtain rfl := Flow.next.inj hs
      cases hqueue
    · obtain rfl := Flow.next.inj hs
      obtain rfl := List.mem_singleton.mp (Dag.mem_of_byId hstarts.known)
      exact ⟨fun _ => rfl, fun _ => rfl, fun _ => Or.inr (by decide +kernel)⟩
    · obtain rfl := Flow.next.inj hs
      cases hqueue

end Hydrogenuine.TaskGraph
