import Mathlib.Algebra.Ring.Nat
import Hydrogenuine.Hal.Runtime

/-!
# Safety of the arbitration runtime

Every method moves the log and the state together, by `Sourced.Emits`.  The events
say how often an arbitration starts; what a request finds and leaves in the folded
state says that it starts once for a key, and where its decision may be routed.
-/

namespace Hydrogenuine.Hal

open Support Hydrogenuine.Core Hydrogenuine.Runtime

def HalRuntime.sourced (runtime : HalRuntime) : Sourced HalRuntimeState HalEvent :=
  ⟨runtime.log.events, runtime.state⟩

def startsArbitration (event : HalEvent) : Bool :=
  event.eventType == "HAL_ARBITRATION_STARTED"

/-- The runtime moves on by events of which `n` start an arbitration. -/
def Emitted (host : Host) (n : ℕ) (s t : HalRuntime) : Prop :=
  ∃ new, Sourced.Emits (reduce host) HalEvent.seq new s.sourced t.sourced ∧
    new.countP startsArbitration = n

def Quiet (host : Host) : HalRuntime → HalRuntime → Prop := Emitted host 0

section

variable {services : HalServices} {host : Host} {s t u : HalRuntime} {n m : ℕ}

theorem emitted_of_sourced_eq (h : t.sourced = s.sourced) : Emitted host 0 s t :=
  ⟨[], h ▸ Sourced.Emits.refl _, rfl⟩

theorem Emitted.trans (h : Emitted host n s t) (h' : Emitted host m t u) :
    Emitted host (n + m) s u := by
  obtain ⟨new, hemits, hcount⟩ := h
  obtain ⟨new', hemits', hcount'⟩ := h'
  exact ⟨new ++ new', hemits.trans hemits', by
    rw [List.countP_append, hcount, hcount']⟩

instance : Std.Refl (Quiet host) := ⟨fun _ => emitted_of_sourced_eq rfl⟩

instance : IsTrans HalRuntime (Quiet host) := ⟨fun _ _ _ h h' => h.trans h'⟩

/-! ## What the events keep -/

theorem reduce_keeps_key (key : String) (state : HalRuntimeState) (event : HalEvent)
    (h : key ∈ state.processedIdempotencyKeys) :
    key ∈ (reduce host state event).processedIdempotencyKeys := by
  unfold reduce
  dsimp only
  split
  · exact Finset.mem_insert_of_mem h
  · exact h

theorem reduce_keeps_panic (state : HalRuntimeState) (event : HalEvent)
    (h : state.panic.active = true) :
    (reduce host state event).panic.active = true := by
  unfold reduce
  dsimp only
  split
  · rfl
  · exact h

theorem reduce_keeps_degraded (state : HalRuntimeState) (event : HalEvent)
    (h : state.degraded.active = true) :
    (reduce host state event).degraded.active = true := by
  unfold reduce
  dsimp only
  split
  · rfl
  · exact h

theorem Emitted.key {key : String} (h : Emitted host n s t)
    (hkey : key ∈ s.state.processedIdempotencyKeys) :
    key ∈ t.state.processedIdempotencyKeys := by
  obtain ⟨new, hemits, -⟩ := h
  exact hemits.keeps 
    (reduce_keeps_key key) hkey

theorem Emitted.panic (h : Emitted host n s t)
    (hpanic : s.state.panic.active = true) : t.state.panic.active = true := by
  obtain ⟨new, hemits, -⟩ := h
  exact hemits.keeps 
    reduce_keeps_panic hpanic

theorem Emitted.degraded (h : Emitted host n s t)
    (hdegraded : s.state.degraded.active = true) :
    t.state.degraded.active = true := by
  obtain ⟨new, hemits, -⟩ := h
  exact hemits.keeps 
    reduce_keeps_degraded hdegraded

/-! ## One event -/

theorem ends_now :
    Ends (now services) s (fun _ t => t.log = s.log ∧ t.state = s.state)
      (fun _ _ => False) := by
  unfold now
  refine ends_bind (ends_get ?_)
  refine ends_bind (ends_set ?_)
  exact ends_pure ⟨rfl, rfl⟩

theorem ends_emit (eventType requestId : String) (payload : Items) :
    Ends (emit services eventType requestId payload) s
      (fun event t => t.log = s.log ∧ t.state = s.state ∧
        event.seq = s.log.nextSeq ∧ event.eventType = eventType ∧
        event.payload = payload)
      (fun _ _ => False) := by
  unfold emit
  refine ends_bind (ends_get ?_)
  refine ends_bind (ends_mono ends_now ?_ (fun _ _ h => h))
  rintro timestamp t ⟨hlog, hstate⟩
  exact ends_pure ⟨hlog, hstate, rfl, rfl, rfl⟩

theorem ends_emitAndFold (eventType requestId : String) (payload : Items) :
    Ends (emitAndFold services eventType requestId payload) s
      (fun event t =>
        Sourced.Emits (reduce services.host) HalEvent.seq [event] s.sourced
            t.sourced ∧
          event.eventType = eventType ∧ event.payload = payload)
      (fun _ _ => False) := by
  unfold emitAndFold
  refine ends_bind (ends_mono (ends_emit eventType requestId payload) ?_
    (fun _ _ h => h))
  rintro event t ⟨hlog, hstate, hseq, htype, hpayload⟩
  refine ends_bind (ends_get ?_)
  have hnext : event.seq = t.log.seq + 1 := by
    rw [hseq, hlog, HalEventLog.nextSeq]
  refine ends_bind (ends_raising ?_ ?_)
  · intro log happend
    rw [HalEventLog.append, dif_pos hnext] at happend
    have hevents : log.events = s.log.events ++ [event] := by
      rw [← Except.ok.inj happend, ← hlog]
    refine ends_bind (ends_modify (ends_pure ⟨?_, htype, hpayload⟩))
    refine Sourced.Emits.single hevents ?_ ?_
    · rw [HalRuntime.sourced, HalRuntime.sourced, hstate]
    · rw [hseq, HalEventLog.nextSeq, s.log.seq_eq, HalRuntime.sourced]
  · intro e happend
    rw [HalEventLog.append, dif_pos hnext] at happend
    cases happend

theorem emitted_single {event : HalEvent}
    (h : Sourced.Emits (reduce host) HalEvent.seq [event] s.sourced t.sourced) :
    Emitted host (if event.eventType = "HAL_ARBITRATION_STARTED" then 1 else 0)
      s t := by
  refine ⟨[event], h, ?_⟩
  rw [List.countP_singleton, startsArbitration]
  simp only [beq_iff_eq]

theorem along_emitAndFold
    {eventType : String} (requestId : String) (payload : Items)
    (h : eventType ≠ "HAL_ARBITRATION_STARTED") :
    Along (Quiet services.host) (emitAndFold services eventType requestId payload) := by
  intro s
  refine ends_mono (ends_emitAndFold eventType requestId payload) ?_
    (fun _ _ h => h.elim)
  rintro event t ⟨hemits, htype, -⟩
  have hmoved := emitted_single hemits
  rw [htype, if_neg h] at hmoved
  exact hmoved

theorem decisionEventType_ne_started (state : HalDecisionState) :
    decisionEventType state ≠ "HAL_ARBITRATION_STARTED" := by
  unfold decisionEventType
  split
  · decide
  · decide
  · decide
  · decide

theorem along_emitRouteRequest (decision : HalDecision) (requestId : String) :
    Along (Quiet services.host) (emitRouteRequest services decision requestId) := by
  unfold emitRouteRequest
  split
  · exact along_bind (along_emitAndFold _ _ (by decide)) fun _ => along_pure _
  · exact along_bind (along_emitAndFold _ _ (by decide)) fun _ => along_pure _
  · exact along_pure _

theorem along_emitContainment (decision : HalDecision) (requestId : String) :
    Along (Quiet services.host) (emitContainment services decision requestId) := by
  unfold emitContainment
  split
  · exact along_bind (along_emitAndFold _ _ (by decide)) fun _ => along_pure _
  · exact along_pure _

theorem along_emitDecisionEvents (decision : HalDecision) (request : HalRequest) :
    Along (Quiet services.host) (emitDecisionEvents services decision request) := by
  unfold emitDecisionEvents
  refine along_bind (along_emitAndFold _ _ (decisionEventType_ne_started _)) fun _ => ?_
  refine along_bind (along_emitAndFold _ _ (by decide)) fun _ => ?_
  refine along_bind (along_emitRouteRequest decision _) fun _ => ?_
  exact along_bind (along_emitContainment decision _) fun _ => along_pure _

/-! ## A request -/

theorem ends_decided
    (safe : HalRouteTarget → Prop) {decision : HalDecision} {request : HalRequest}
    {wrap : List HalEvent → List HalEvent} (hsafe : safe decision.route.target) :
    Ends (do
        let decided ← emitDecisionEvents services decision request
        return (decision, wrap decided)) s
      (fun out t => Quiet services.host s t ∧ safe out.1.route.target)
      (fun _ t => Quiet services.host s t) := by
  refine ends_bind (ends_mono (along_emitDecisionEvents decision request s) ?_
    (fun _ _ h => h))
  intro decided t hquiet
  exact ends_pure ⟨hquiet, hsafe⟩

theorem mapResultToDecision_ne_gpp
    (result : ArbitrationResult) (request : HalRequest) :
    (mapResultToDecision result request true).2.1.target ≠ .gpp := by
  unfold mapResultToDecision
  cases result.routing with
  | accept => exact nofun
  | defer => exact nofun
  | reject => exact nofun
  | noOp => exact nofun

/-- Behind the validation one arbitration starts, and a degraded runtime does not
route to GPP. -/
theorem ends_arbitrateRequest (now : String) (request : HalRequest) :
    Ends (arbitrateRequest services now request) s
      (fun out t => Emitted services.host 1 s t ∧
        (s.state.degraded.active = true → out.1.route.target ≠ .gpp))
      (fun _ t => Emitted services.host 1 s t) := by
  unfold arbitrateRequest
  refine ends_bind (ends_mono (ends_emitAndFold _ _ _) ?_ (fun _ _ h => h.elim))
  rintro started t ⟨hemits, htype, -⟩
  have hstarted := emitted_single hemits
  rw [htype, if_pos rfl] at hstarted
  refine ends_bind (ends_get ?_)
  have hgpp : s.state.degraded.active = true →
      (mapResultToDecision (arbitrate request.arbitration) request
        t.state.degraded.active).2.1.target ≠ .gpp := by
    intro hdegraded
    rw [hstarted.degraded hdegraded]
    exact mapResultToDecision_ne_gpp _ request
  split
  rename_i decisionState route reasons hmapped
  rw [hmapped] at hgpp
  split
  · refine ends_bind (ends_mono (along_emitAndFold _ _ (by decide) t) ?_
      (fun _ _ h => hstarted.trans h))
    intro contained u hcontained
    refine ends_mono (ends_decided (fun target => target ≠ .gpp) nofun) ?_ ?_
    · rintro out v ⟨hquiet, hsafe⟩
      exact ⟨(hstarted.trans hcontained).trans hquiet, fun _ => hsafe⟩
    · intro e v hquiet
      exact (hstarted.trans hcontained).trans hquiet
  · refine ends_mono (ends_decided
      (fun target => s.state.degraded.active = true → target ≠ .gpp) hgpp) ?_ ?_
    · rintro out v ⟨hquiet, hsafe⟩
      exact ⟨hstarted.trans hquiet, hsafe⟩
    · intro e v hquiet
      exact hstarted.trans hquiet

theorem reduce_received {event : HalEvent} {items : Items} {key : String}
    (state : HalRuntimeState) (htype : event.eventType = "HAL_REQUEST_RECEIVED")
    (hpayload : event.payload = PyVal.setItem items "idempotency_key" (.str key))
    (hkey : key ≠ "") :
    key ∈ (reduce host state event).processedIdempotencyKeys := by
  have hget : host.str ((PyVal.item? event.payload "idempotency_key").getD
      (.str "")) = key := by
    rw [hpayload, PyVal.item?_setItem, if_pos rfl]
    rfl
  simp [reduce, htype, hget, hkey]

theorem validateHalRequest_panic
    {registry : Except PyError OperatorRegistry} {request : HalRequest}
    {now degradedMode : String} {reasons : List HalDecisionReason}
    (h : validateHalRequest services registry request now true degradedMode =
      .ok reasons) : reasons ≠ [] := by
  unfold validateHalRequest at h
  cases hauthority : operatorReasons registry request.identityRef with
  | error e =>
      rw [hauthority] at h
      cases h
  | ok authority =>
      rw [hauthority] at h
      cases h
      exact List.cons_ne_nil _ _

/-- What a request finds and leaves: it starts at most one arbitration, and none
for a key that was processed, and its own key is processed afterwards. -/
def Handled (host : Host) (key : String) (s t : HalRuntime) : Prop :=
  ∃ n ≤ 1, Emitted host n s t ∧
    (key ∈ s.state.processedIdempotencyKeys → n = 0) ∧
    (key ≠ "" → key ∈ t.state.processedIdempotencyKeys)

/-- A panicking runtime routes nowhere, and a degraded one not to GPP. -/
structure RouteSafe (s : HalRuntime) (target : HalRouteTarget) : Prop where
  panic : s.state.panic.active = true → target = .none
  degraded : s.state.degraded.active = true → target ≠ .gpp

theorem ends_processRequest
    (registry : Except PyError OperatorRegistry) (request : HalRequest) :
    Ends (processRequest services registry request) s
      (fun out t => Handled services.host request.idemKey s t ∧
        RouteSafe s out.1.route.target)
      (fun _ t => Handled services.host request.idemKey s t) := by
  unfold processRequest
  refine ends_bind (ends_mono ends_now ?_ (fun _ _ h => h.elim))
  rintro now t ⟨hlog, hstate⟩
  have hsame : Emitted services.host 0 s t := by
    refine emitted_of_sourced_eq ?_
    rw [HalRuntime.sourced, hlog, hstate]
    rfl
  refine ends_bind (ends_get ?_)
  split
  next hdup =>
    have hkey : request.idemKey ∈ s.state.processedIdempotencyKeys := hstate ▸ hdup
    have hhandled : ∀ u, Quiet services.host t u →
        Handled services.host request.idemKey s u := by
      intro u hquiet
      have hmoved := hsame.trans hquiet
      exact ⟨0, zero_le_one, hmoved, fun _ => rfl, fun _ => hmoved.key hkey⟩
    refine ends_mono (ends_decided (fun target => target = .none) rfl) ?_ ?_
    · rintro out u ⟨hquiet, hnone⟩
      refine ⟨hhandled u hquiet, fun _ => hnone, fun _ => ?_⟩
      rw [hnone]
      decide
    · intro e u hquiet
      exact hhandled u hquiet
  next hnew =>
    rw [hstate] at hnew
    refine ends_bind (ends_mono (ends_emitAndFold _ _ _) ?_ (fun _ _ h => h.elim))
    rintro received u ⟨hemits, htype, hpayload⟩
    have hreceived := hsame.trans (emitted_single hemits)
    rw [htype, if_neg (by decide)] at hreceived
    have hkey : request.idemKey ≠ "" →
        request.idemKey ∈ u.state.processedIdempotencyKeys := by
      intro hgiven
      have hfolded : u.state = reduce services.host t.state received := hemits.state
      rw [hfolded]
      exact reduce_received t.state htype hpayload hgiven
    have hhandled : ∀ n ≤ 1, ∀ v, Emitted services.host n u v →
        Handled services.host request.idemKey s v := by
      intro n hn v hmoved
      refine ⟨0 + n, by omega, hreceived.trans hmoved, fun h => absurd h hnew, ?_⟩
      exact fun hgiven => hmoved.key (hkey hgiven)
    have hquiet : ∀ v, Quiet services.host u v →
        Handled services.host request.idemKey s v := hhandled 0 zero_le_one
    refine ends_bind (ends_get ?_)
    refine ends_bind (ends_raising ?_ fun _ _ => hquiet u (Std.Refl.refl u))
    intro denyReasons hvalidated
    refine ends_bind (ends_mono (along_emitAndFold _ _ (by decide) u) ?_
      (fun _ v hbuilt => hquiet v hbuilt))
    intro built v hbuilt
    split
    next hdenied =>
      refine ends_mono (ends_decided (fun target => target = .none) rfl) ?_ ?_
      · rintro out w ⟨hdecided, hnone⟩
        refine ⟨hquiet w (hbuilt.trans hdecided), fun _ => hnone, fun _ => ?_⟩
        rw [hnone]
        decide
      · intro e w hdecided
        exact hquiet w (hbuilt.trans hdecided)
    next hallowed =>
      have hcalm : s.state.panic.active ≠ true := by
        intro hpanic
        rw [hreceived.panic hpanic] at hvalidated
        exact hallowed (validateHalRequest_panic hvalidated)
      have hhandled' : ∀ w, Emitted services.host 1 v w →
          Handled services.host request.idemKey s w := by
        intro w hmoved
        exact hhandled (0 + 1) (le_refl _) w (hbuilt.trans hmoved)
      refine ends_bind (ends_mono (ends_arbitrateRequest now request) ?_
        (fun _ w hmoved => hhandled' w hmoved))
      rintro ⟨decision, decided⟩ w ⟨hmoved, hgpp⟩
      refine ends_pure ⟨hhandled' w hmoved, fun hpanic => absurd hpanic hcalm, ?_⟩
      intro hdegraded
      exact hgpp ((hreceived.trans hbuilt).degraded hdegraded)

/-! ## A call -/

/-- What one call does. -/
structure Performed
    (host : Host) (op : HalOperation) (s : HalRuntime) (output : Option HalDecision)
    (t : HalRuntime) : Prop where
  emitted : ∃ n, Emitted host n s t
  handled : ∀ registry request, op = .process registry request →
    Handled host request.idemKey s t
  routed : ∀ decision, output = some decision → RouteSafe s decision.route.target
  panicked : ∀ reasonCode, op = .enterPanic reasonCode → t.state.panic.active = true
  degraded : ∀ mode, op = .enterDegraded mode → t.state.degraded.active = true

theorem Handled.emitted {key : String} (h : Handled host key s t) :
    ∃ n, Emitted host n s t := by
  obtain ⟨n, -, hmoved, -⟩ := h
  exact ⟨n, hmoved⟩

theorem performed_of_emitted {op : HalOperation}
    (hmoved : Emitted host n s t)
    (hop : ∀ registry request, op ≠ .process registry request)
    (hpanic : ∀ reasonCode, op = .enterPanic reasonCode →
      t.state.panic.active = true)
    (hdegraded : ∀ mode, op = .enterDegraded mode → t.state.degraded.active = true) :
    Performed host op s none t := by
  refine ⟨⟨n, hmoved⟩, ?_, ?_, hpanic, hdegraded⟩
  · intro registry request h
    exact absurd h (hop registry request)
  · intro _ h
    cases h

theorem along_verifyReplay : Along (Quiet services.host) (verifyReplay services) := by
  unfold verifyReplay
  refine along_bind along_get fun runtime => ?_
  split
  split
  · exact along_bind (along_emitAndFold _ _ (by decide)) fun _ => along_pure _
  · exact along_pure _

theorem ends_perform (op : HalOperation) :
    Ends (perform services op) s
      (fun output t => Performed services.host op s output t)
      (fun _ t => Performed services.host op s none t) := by
  cases op with
  | process registry request =>
      have hperformed : ∀ output t,
          Handled services.host request.idemKey s t →
          (∀ decision, output = some decision →
            RouteSafe s decision.route.target) →
          Performed services.host (.process registry request) s output t := by
        intro output t hhandled hrouted
        refine ⟨hhandled.emitted, ?_, hrouted, nofun, nofun⟩
        rintro _ _ ⟨rfl, rfl⟩
        exact hhandled
      rw [perform]
      refine ends_bind (ends_mono (ends_processRequest registry request) ?_
        (fun _ t hhandled => hperformed none t hhandled (by simp)))
      rintro ⟨decision, decided⟩ t ⟨hhandled, hsafe⟩
      refine ends_pure (hperformed _ t hhandled ?_)
      rintro _ ⟨rfl⟩
      exact hsafe
  | enterPanic reasonCode =>
      rw [perform, enterPanic]
      refine ends_bind (ends_mono (ends_emitAndFold _ _ _) ?_ (fun _ _ h => h.elim))
      rintro event t ⟨hemits, htype, -⟩
      have hpanic : t.state.panic.active = true := by
        have hfolded : t.state = reduce services.host s.state event := hemits.state
        rw [hfolded]
        simp [reduce, htype]
      refine ends_pure (performed_of_emitted (emitted_single hemits) ?_ ?_ ?_)
      · intro _ _ h
        cases h
      · exact fun _ _ => hpanic
      · intro _ h
        cases h
  | enterDegraded mode =>
      rw [perform, enterDegraded]
      refine ends_bind (ends_mono (ends_emitAndFold _ _ _) ?_ (fun _ _ h => h.elim))
      rintro event t ⟨hemits, htype, -⟩
      have hdegraded : t.state.degraded.active = true := by
        have hfolded : t.state = reduce services.host s.state event := hemits.state
        rw [hfolded]
        simp [reduce, htype]
      refine ends_pure (performed_of_emitted (emitted_single hemits) ?_ ?_ ?_)
      · intro _ _ h
        cases h
      · intro _ h
        cases h
      · exact fun _ _ => hdegraded
  | verifyReplay =>
      have hperformed : ∀ t, Quiet services.host s t →
          Performed services.host .verifyReplay s none t := by
        intro t hquiet
        refine performed_of_emitted hquiet ?_ ?_ ?_
        · intro _ _ h
          cases h
        · intro _ h
          cases h
        · intro _ h
          cases h
      rw [perform]
      refine ends_bind (ends_mono (along_verifyReplay s) ?_
        (fun _ t hquiet => hperformed t hquiet))
      intro _ t hquiet
      exact ends_pure (hperformed t hquiet)

theorem step_performed
    (services : HalServices) (s : HalRuntime) (op : HalOperation) :
    Performed services.host op s ((halMachine services).step s op).2
      ((halMachine services).step s op).1 := by
  rcases (ends_perform (s := s) op).cases with ⟨output, hout, h⟩ | ⟨e, hout, h⟩
  · rw [halMachine]
    dsimp only
    rw [hout]
    exact h
  · rw [halMachine]
    dsimp only
    rw [hout]
    exact h

end

/-! ## Runs -/

def startsOf (key : String)
    (e : Step HalRuntime HalOperation (Option HalDecision)) : ℕ :=
  match e.input with
  | .process _ request =>
      if request.idemKey = key then
        (e.after.log.events.drop e.before.log.events.length).countP startsArbitration
      else 0
  | _ => 0

/-- The safety of a run: the state is the fold of the log, the events are numbered
from one, a key starts one arbitration, a runtime routes nowhere once it panics, and
not to GPP while it is degraded. -/
structure RuntimeSafe
    (host : Host) (trace : List (Step HalRuntime HalOperation (Option HalDecision))) :
    Prop where
  folded : ∀ e ∈ trace, e.after.state = fold host e.after.log.events
  numbered : ∀ e ∈ trace, e.after.log.events.map HalEvent.seq =
    List.range' 1 e.after.log.events.length
  startsOnce : ∀ key, key ≠ "" → (trace.map (startsOf key)).sum ≤ 1
  panicked : trace.Pairwise fun e e' =>
    (∃ reasonCode, e.input = .enterPanic reasonCode) →
      ∀ decision, e'.output = some decision → decision.route.target = .none
  degraded : trace.Pairwise fun e e' =>
    (∃ mode, e.input = .enterDegraded mode) →
      ∀ decision, e'.output = some decision → decision.route.target ≠ .gpp
  whileDegraded : ∀ e ∈ trace, e.before.state.degraded.active = true →
    ∀ decision, e.output = some decision → decision.route.target ≠ .gpp

section

variable {services : HalServices} {s : HalRuntime}

theorem fresh_faithful (host : Host) :
    Sourced.Faithful (reduce host) HalEvent.seq (initialState host)
      (HalRuntime.fresh host).sourced :=
  ⟨rfl, rfl⟩

theorem trace_faithful
    (ops : List HalOperation) :
    ∀ e ∈ (halMachine services).trace (HalRuntime.fresh services.host) ops,
      Sourced.Faithful (reduce services.host) HalEvent.seq
        (initialState services.host) e.after.sourced := by
  intro e he
  refine (Machine.invariant_around
    (fun s => Sourced.Faithful (reduce services.host) HalEvent.seq
      (initialState services.host) s.sourced)
    (fresh_faithful services.host) ?_ ops e he).2
  intro s op hs
  obtain ⟨n, new, hemits, -⟩ := (step_performed services s op).emitted
  exact hemits.faithful hs

theorem startsOf_le
    (services : HalServices) (s : HalRuntime) (key : String) (op : HalOperation)
    (hkey : key ≠ "") :
    startsOf key ((halMachine services).stepAt s op) ≤ 1 ∧
      (startsOf key ((halMachine services).stepAt s op) ≠ 0 →
        key ∉ s.state.processedIdempotencyKeys ∧
          key ∈ ((halMachine services).step s op).1.state.processedIdempotencyKeys) := by
  cases op with
  | process registry request =>
      obtain ⟨n, hn, ⟨new, hemits, hcount⟩, hold, hnew⟩ :=
        (step_performed services s _).handled registry request rfl
      have hdrop : ((halMachine services).step s
          (.process registry request)).1.log.events.drop s.log.events.length = new := by
        have hevents := hemits.events
        rw [HalRuntime.sourced, HalRuntime.sourced] at hevents
        dsimp only at hevents
        rw [hevents, List.drop_left]
      rw [startsOf, Machine.stepAt]
      dsimp only
      by_cases hrequest : request.idemKey = key
      · subst hrequest
        rw [if_pos rfl, hdrop, hcount]
        refine ⟨hn, fun hstarts => ⟨fun hmem => hstarts (hold hmem), hnew hkey⟩⟩
      · rw [if_neg hrequest]
        exact ⟨zero_le_one, fun h => absurd rfl h⟩
  | _ => exact ⟨zero_le_one, fun h => absurd rfl h⟩

theorem sum_startsOf_le (key : String) (hkey : key ≠ "") (ops : List HalOperation) :
    (((halMachine services).trace s ops).map (startsOf key)).sum ≤
      if key ∈ s.state.processedIdempotencyKeys then 0 else 1 := by
  induction ops generalizing s with
  | nil => exact Nat.zero_le _
  | cons op ops ih =>
      obtain ⟨hone, hfirst⟩ := startsOf_le services s key op hkey
      obtain ⟨n, hmoved⟩ := (step_performed services s op).emitted
      have hrest := ih (s := ((halMachine services).step s op).1)
      rw [Machine.trace, List.map_cons, List.sum_cons]
      by_cases hstarts : startsOf key ((halMachine services).stepAt s op) = 0
      · rw [hstarts, zero_add]
        refine hrest.trans ?_
        by_cases hmem : key ∈ s.state.processedIdempotencyKeys
        · rw [if_pos hmem, if_pos (hmoved.key hmem)]
        · rw [if_neg hmem]
          split
          · exact zero_le_one
          · exact le_refl _
      · obtain ⟨hnot, hmem⟩ := hfirst hstarts
        rw [if_pos hmem] at hrest
        rw [if_neg hnot]
        omega

end

/-- Every run of a fresh runtime is safe. -/
theorem runtime_safe (services : HalServices) (ops : List HalOperation) :
    RuntimeSafe services.host
      ((halMachine services).trace (HalRuntime.fresh services.host) ops) := by
  have hrouted : ∀ s op decision,
      ((halMachine services).stepAt s op).output = some decision →
        RouteSafe s decision.route.target :=
    fun s op => (step_performed services s op).routed
  constructor
  · intro e he
    exact (trace_faithful ops e he).replay_eq.symm
  · intro e he
    exact (trace_faithful ops e he).seqs
  · intro key hkey
    refine (sum_startsOf_le key hkey ops).trans ?_
    split
    · exact zero_le_one
    · exact le_refl _
  · refine (@Machine.pairwise_of_barrier _ _ _ (halMachine services)
      (fun s => s.state.panic.active = true)
      (fun e => ∃ reasonCode, e.input = .enterPanic reasonCode)
      (fun e => ∃ decision, e.output = some decision ∧
        decision.route.target ≠ .none) ?_ ?_ ?_ _ ops).imp ?_
    · rintro s op ⟨reasonCode, hop⟩
      exact (step_performed services s op).panicked reasonCode hop
    · intro s op hpanic
      obtain ⟨n, hmoved⟩ := (step_performed services s op).emitted
      exact hmoved.panic hpanic
    · rintro s op hpanic ⟨decision, hout, htarget⟩
      exact htarget ((hrouted s op decision hout).panic hpanic)
    · intro e e' h hset decision hout
      by_contra htarget
      exact h hset ⟨decision, hout, htarget⟩
  · refine (@Machine.pairwise_of_barrier _ _ _ (halMachine services)
      (fun s => s.state.degraded.active = true)
      (fun e => ∃ mode, e.input = .enterDegraded mode)
      (fun e => ∃ decision, e.output = some decision ∧
        decision.route.target = .gpp) ?_ ?_ ?_ _ ops).imp ?_
    · rintro s op ⟨mode, hop⟩
      exact (step_performed services s op).degraded mode hop
    · intro s op hdegraded
      obtain ⟨n, hmoved⟩ := (step_performed services s op).emitted
      exact hmoved.degraded hdegraded
    · rintro s op hdegraded ⟨decision, hout, htarget⟩
      exact (hrouted s op decision hout).degraded hdegraded htarget
    · intro e e' h hset decision hout htarget
      exact h hset ⟨decision, hout, htarget⟩
  · intro e he hdegraded decision hout
    rw [Machine.mem_trace_eq_stepAt he] at hout
    exact (hrouted e.before e.input decision hout).degraded hdegraded

end Hydrogenuine.Hal
