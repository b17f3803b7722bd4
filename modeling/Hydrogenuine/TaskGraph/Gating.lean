import Hydrogenuine.TaskGraph.Termination

/-!
# The stakes gate before a dispatch

The gate is asked only in `run`, and an exception of the gate, or of the ledger
while a denial is written, lets the node go on to its dispatch.  Along every run
none of whose steps bypasses the gate in one of these ways, each dispatch comes
right after the gate has allowed the node.
-/

namespace Hydrogenuine.TaskGraph

open Support Hydrogenuine.Core Relation

/-- Every dispatch comes right after the gate has allowed the node. -/
def Gated (trace : List Event) : Prop :=
  ∀ before nid statuses after,
    trace = before ++ .dispatched nid statuses :: after →
      before.getLast? = some (.gateChecked nid true)

theorem gated_nil : Gated [] := by
  intro before nid statuses after heq
  cases before with
  | nil => cases heq
  | cons event before => cases heq

theorem Gated.concat {trace : List Event} {event : Event}
    (h : Gated trace)
    (hevent : ∀ nid statuses, event = .dispatched nid statuses →
      trace.getLast? = some (.gateChecked nid true)) :
    Gated (trace ++ [event]) := by
  intro before nid statuses after heq
  rcases List.eq_nil_or_concat after with rfl | ⟨after', last, rfl⟩
  · obtain ⟨rfl, hlast⟩ := List.append_inj' heq rfl
    exact hevent nid statuses (List.cons.inj hlast).1
  · rw [List.concat_eq_append, ← List.cons_append, ← List.append_assoc] at heq
    obtain ⟨htrace, -⟩ := List.append_inj' heq rfl
    exact h before nid statuses after' htrace

theorem Gated.other {trace : List Event} (h : Gated trace) (event : Event)
    (hother : ∀ nid statuses, event ≠ .dispatched nid statuses) :
    Gated (trace ++ [event]) :=
  h.concat fun nid statuses heq => absurd heq (hother nid statuses)

/-! ## Steps -/

section Moves

variable {dag : Dag} {node : Node} {ungated mayFail : Prop} {value : Bool → Prop} {k k' : RunCore}

theorem Gated.move
    (h : Gated k.trace) (hgate : ¬ungated)
    (hmove : Move dag node ungated mayFail value k k') : Gated k'.trace := by
  cases hmove with
  | skip => exact h
  | block => exact h.other _ nofun
  | fail => exact h.other _ nofun
  | retry => exact h.other _ nofun
  | complete => exact h.other _ nofun
  | check => exact h.other _ nofun
  | dispatch _ _ hallowed =>
      refine h.concat fun nid statuses heq => ?_
      obtain ⟨rfl, -⟩ := Event.dispatched.inj heq
      exact hallowed.resolve_right hgate
  | loopOff => exact (h.other (.evaluated node.id false) nofun).other _ nofun
  | loopOn =>
      have hreset : Gated (k.trace ++ [.evaluated node.id true] ++
          [.reset node.body]) :=
        (h.other (.evaluated node.id true) nofun).other _ nofun
      exact hreset.other _ nofun
  | loopStop => exact h

theorem Gated.moves
    (h : Gated k.trace) (hgate : ¬ungated)
    (hmoves : Moves dag node ungated mayFail value k k') : Gated k'.trace := by
  induction hmoves with
  | refl => exact h
  | tail _ hmove ih => exact ih.move hgate hmove

theorem Gated.advances
    (h : Gated k.trace) (hadvances : Setting.Advances dag node k k') :
    Gated k'.trace := by
  cases hadvances with
  | «over» => exact h
  | on => exact (h.other (.evaluated node.id true) nofun).other _ nofun
  | off => exact h.other _ nofun

end Moves

variable {c : Setting} {s : Sched}

theorem Gated.head {k : RunCore} {flow : Flow}
    (h : Gated k.trace) (hhead : c.HeadMove k flow) :
    Gated flow.exec.core.trace := by
  cases hhead with
  | batch _ hcore =>
      rw [Flow.exec, hcore]
      exact h
  | skipped _ hcore =>
      rw [Flow.exec, hcore]
      exact h
  | @advanced status _ _ _ _ hcore =>
      exact Gated.advances (k := { k with status := status }) h hcore
  | stopped _ hcore =>
      rw [Flow.exec, hcore]
      exact h

theorem Gated.step (hdag : Accepted c.dag)
    (h : Gated s.exec.trace)
    (hgate : ∀ node, c.Starts s node → ¬c.StepBypasses s.now node) :
    Gated (c.step s).exec.trace := by
  rcases Setting.step_cases hdag s with
    ⟨-, hhead⟩ | ⟨nid, rest, -, -, hcore⟩ | ⟨node, rest, -, -, hstarts, hmoves⟩
  · exact Gated.head (k := s.exec.core) h hhead
  · have htrace : (c.step s).exec.trace = s.exec.trace :=
      congrArg RunCore.trace hcore
    rw [htrace]
    exact h
  · have hstarted : Gated (s.exec.core.start node.id).trace :=
      Gated.other h _ nofun
    exact hstarted.moves (hgate node hstarts) hmoves

/-! ## Runs -/

/-- No step of the first `n` dispatches a node without an allowing gate: such a
node is started in `run` under a stakes policy, and the gate, asked about a node
that steering, binding and budget let pass without an error, returns, and its
denial is written to the ledger. -/
def NeverBypasses (c : Setting) (s : Sched) (n : ℕ) : Prop :=
  ∀ m < n, ∀ s', c.steps m (.next s) = .next s' →
    ∀ node, c.Starts s' node → ¬c.StepBypasses s'.now node

theorem gated_run (hdag : Accepted c.dag)
    (hs : s.exec.trace = []) {n : ℕ} (hgate : NeverBypasses c s n) :
    Gated (c.steps n (.next s)).exec.trace := by
  have hstart : Gated (Flow.next s).exec.trace := by
    rw [Flow.exec, hs]
    exact gated_nil
  exact Setting.steps_invariant (Q := fun flow => Gated flow.exec.trace)
    (fun _ h hguard => h.step hdag hguard) n hgate hstart

theorem trace_of_run
    {services : Services} {dag : Dag} {stakesPolicy : Option PyVal}
    {given : Items} {reviewed : Option Dag}
    (h : run services dag given reviewed stakesPolicy = .ok (c, s)) :
    s.exec.trace = [] := by
  rw [start_of_run h]
  rfl

theorem trace_of_resume
    {services : Services} {dag : Dag} {stakesPolicy : Option PyVal}
    {given : Option Items} {persisted : Option Persisted}
    (h : resume services dag given persisted stakesPolicy = some (c, s)) :
    s.exec.trace = [] := by
  obtain ⟨saved, -, heq⟩ := Option.map_eq_some_iff.mp h
  obtain rfl := (Prod.mk.inj heq).2
  rfl

/-- In every call none of whose steps bypasses the gate, each dispatch comes
right after the gate has allowed the node. -/
theorem dispatches_gated
    (services : Services) (dag : Dag) (stakesPolicy : Option PyVal)
    (hvalid : validateDag services.host dag = []) :
    (∀ given reviewed c s n,
      run services dag given reviewed stakesPolicy = .ok (c, s) →
        NeverBypasses c s n → Gated (c.steps n (.next s)).exec.trace) ∧
    ∀ given persisted c s n,
      resume services dag given persisted stakesPolicy = some (c, s) →
        NeverBypasses c s n → Gated (c.steps n (.next s)).exec.trace := by
  constructor
  · intro given reviewed c s n hrun hgate
    exact gated_run (accepted_of_run hrun) (trace_of_run hrun) hgate
  · intro given persisted c s n hresume hgate
    exact gated_run (accepted_of_resume hvalid hresume)
      (trace_of_resume hresume) hgate

/-! ## A denied tool -/

def toolDag : Dag where
  graphId := "g"
  nodes := [{ id := "tool", type := "tool", assignedEntity := "system" }]

def denyingServices : Services :=
  { quietServices with
    checkGate := fun _ _ _ _ _ => .ok { allowed := false, reason := "stakes" }
    emitApproval := fun _ => .error (.valueError "ledger") }

def toolSetting (services : Services) (mode : Mode) : Setting where
  services := services
  dag := toolDag
  mode := mode
  stakesPolicy := some (.dict [])

theorem toolDag_valid : validateDag referenceHost toolDag = [] := by
  decide +kernel

/-- The denied tool is dispatched, in `run` and in `resume`. -/
theorem denied_tool_dispatched :
    (∃ c s n, run denyingServices toolDag [] none (some (.dict [])) =
        .ok (c, s) ∧ ¬Gated (c.steps n (.next s)).exec.trace) ∧
    ∃ c s n, resume denyingServices toolDag none
        (some { nodeStates := fun _ => none, runState := {} })
        (some (.dict [])) = some (c, s) ∧
      ¬Gated (c.steps n (.next s)).exec.trace := by
  constructor
  · refine ⟨_, _, 2, run_of_valid toolDag_valid, fun hgated => ?_⟩
    have hlast := hgated [_, .gateChecked "tool" false] "tool" _ [_] rfl
    obtain ⟨-, hfalse⟩ := Event.gateChecked.inj (Option.some.inj hlast)
    cases hfalse
  · refine ⟨_, _, 2, rfl, fun hgated => ?_⟩
    have hlast := hgated [_] "tool" _ [_] rfl
    cases hlast

theorem quiet_neverBypasses (s : Sched) (n : ℕ) :
    NeverBypasses (toolSetting quietServices .run) s n := by
  intro m hm s' hs' node hstarts hbypass
  have hallowed : true = false := hbypass.2.2.2.2.1
  cases hallowed

/-- The tool that quiet services allow is dispatched after its gate. -/
theorem quiet_tool_gated :
    Gated ((toolSetting quietServices .run).steps 2
      (.next (runStart quietServices []))).exec.trace :=
  (dispatches_gated quietServices toolDag (some (.dict [])) toolDag_valid).1
    [] none _ _ 2 (run_of_valid toolDag_valid) (quiet_neverBypasses _ 2)

end Hydrogenuine.TaskGraph
