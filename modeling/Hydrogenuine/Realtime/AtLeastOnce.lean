import Hydrogenuine.Realtime.Scheduler

/-!
# Handling at least once

An event that is routed to an allowed workflow should be acknowledged only once it is
served, and a failure should be retried.  The scheduler does not acknowledge a failed
event, but the coalescer has recorded its key by then, and drops and acknowledges the
redelivery.  A run handles its events at least once exactly when the coalescer takes
no event for a duplicate that was not served, or whose last attempt failed.
-/

namespace Hydrogenuine.Realtime

open Support Hydrogenuine.Core

/-! ## The property -/

/-- The event was launched, or deliberately deferred. -/
def Attempt.served (attempt : Attempt) : Prop :=
  attempt.handling = .launched ∨ attempt.handling = .deferred

/-- The event is routed to a workflow that the policy allows. -/
def HandlingWorld.allowed (world : HandlingWorld) : Prop :=
  (∃ target, world.route = .ok (some target)) ∧ world.allows = .ok true

/-- The events are the same, or have the same key. -/
def SameRequest (event event' : Event) : Prop :=
  event.eventId = event'.eventId ∨
    ∃ key, key ≠ "" ∧ event.dedupKey = some key ∧ event'.dedupKey = some key

/-- An event was served by an earlier attempt. -/
def ServedBefore (attempts : List Attempt) (event : Event) : Prop :=
  ∃ attempt ∈ attempts, SameRequest attempt.event event ∧ attempt.served

/-- An attempt for an event failed, and none since then served it. -/
def FailurePending (attempts : List Attempt) (event : Event) : Prop :=
  ∃ earlier attempt later, attempts = earlier ++ attempt :: later ∧
    SameRequest attempt.event event ∧ attempt.handling = .failed ∧
    ∀ attempt' ∈ later, SameRequest attempt'.event event → ¬ attempt'.served

/-- If the attempt is acknowledged, then an allowed event is served, or was before,
and a dropped one has no failure that is pending. -/
def Attempt.Sound (earlier : List Attempt) (attempt : Attempt) : Prop :=
  attempt.acked = true →
    (attempt.world.allowed → attempt.served ∨ ServedBefore earlier attempt.event) ∧
      (attempt.handling = .dropped → ¬ FailurePending earlier attempt.event)

/-- Every attempt is sound after the attempts before it. -/
def AtLeastOnce (attempts : List Attempt) : Prop :=
  ∀ earlier attempt later, attempts = earlier ++ attempt :: later →
    attempt.Sound earlier

/-- An event that the coalescer finds in its window was served if it is allowed, and
no failure of it is pending. -/
def DropsServed (s : Scheduler) (step : SchedulerStep) : Prop :=
  ∀ event world, step = .deliver event world →
    s.coalescer.inWindow event.dedupKey world.now = true → world.acks = true →
      (world.allowed → ServedBefore s.attempts event) ∧
        ¬ FailurePending s.attempts event

/-! ## One event -/

theorem shouldDrop_fst
    (coalescer : Coalescer) (dedupKey : Option String) (eventId : String) (now : ℚ) :
    (coalescer.shouldDrop dedupKey eventId now).1 =
      coalescer.inWindow dedupKey now := by
  cases dedupKey with
  | none => rfl
  | some key =>
      by_cases hkey : key = ""
      · simp [Coalescer.shouldDrop, Coalescer.inWindow, hkey]
      · simp [Coalescer.shouldDrop, hkey]

section

variable {launcher : DagLauncher} {runs : RunTable} {event : Event}
  {world : HandlingWorld}

theorem launchRouted_cases
    (launcher : DagLauncher) (runs : RunTable) (event : Event) (world : HandlingWorld)
    (workflowId : String) (resolvedInputs : PyVal) :
    (launchRouted launcher runs event world workflowId resolvedInputs).1 = .launched ∨
      (launchRouted launcher runs event world workflowId resolvedInputs).1 =
        .deferred ∨
      (launchRouted launcher runs event world workflowId resolvedInputs).1 =
        .failed := by
  unfold launchRouted
  split
  · dsimp only
    split
    · exact Or.inl rfl
    · exact Or.inr (Or.inr rfl)
  · split
    · exact Or.inr (Or.inl rfl)
    · dsimp only
      split
      · exact Or.inl rfl
      · exact Or.inr (Or.inr rfl)

theorem handleKept_ne_dropped :
    (handleKept launcher runs event world).1 ≠ .dropped := by
  unfold handleKept
  split
  · exact nofun
  · exact nofun
  · split
    · exact nofun
    · exact nofun
    · rcases launchRouted_cases launcher runs event world _ _ with h | h | h
      · rw [h]
        exact nofun
      · rw [h]
        exact nofun
      · rw [h]
        exact nofun

theorem handleKept_of_allowed
    (launcher : DagLauncher) (runs : RunTable) (event : Event) (h : world.allowed) :
    (handleKept launcher runs event world).1 = .launched ∨
      (handleKept launcher runs event world).1 = .deferred ∨
      (handleKept launcher runs event world).1 = .failed := by
  obtain ⟨⟨⟨workflowId, resolvedInputs⟩, hroute⟩, hallows⟩ := h
  unfold handleKept
  rw [hroute, hallows]
  exact launchRouted_cases launcher runs event world workflowId resolvedInputs

/-- The attempt that handles an event is sound exactly when the coalescer drops only
what was served. -/
theorem handle_sound_iff
    (launcher : DagLauncher) (s : Scheduler) (event : Event) (world : HandlingWorld) :
    ∃ attempt, (s.handle launcher event world).attempts = s.attempts ++ [attempt] ∧
      (attempt.Sound s.attempts ↔ DropsServed s (.deliver event world)) := by
  refine ⟨⟨event, world, (s.handling launcher event world).1, _⟩, rfl, ?_⟩
  unfold Scheduler.handling
  rw [shouldDrop_fst]
  by_cases hdrop : s.coalescer.inWindow event.dedupKey world.now = true
  · rw [if_pos hdrop]
    constructor
    · rintro hsound _ _ ⟨rfl, rfl⟩ - hacks
      obtain ⟨hserved, hpending⟩ := hsound (by rw [hacks]; rfl)
      refine ⟨fun hallowed => ?_, hpending rfl⟩
      rcases hserved hallowed with (hlaunched | hdeferred) | hbefore
      · cases hlaunched
      · cases hdeferred
      · exact hbefore
    · intro hdrops hacked
      have hacks : world.acks = true := hacked
      obtain ⟨hserved, hpending⟩ := hdrops event world rfl hdrop hacks
      exact ⟨fun hallowed => Or.inr (hserved hallowed), fun _ => hpending⟩
  · rw [if_neg hdrop]
    refine iff_of_true ?_ ?_
    · intro hacked
      refine ⟨fun hallowed => Or.inl ?_, fun h => absurd h handleKept_ne_dropped⟩
      rcases handleKept_of_allowed launcher s.runs event hallowed with
        hlaunched | hdeferred | hfailed
      · exact Or.inl hlaunched
      · exact Or.inr hdeferred
      · dsimp only at hacked
        rw [hfailed] at hacked
        cases hacked
    · rintro _ _ ⟨rfl, rfl⟩ hwindow
      exact absurd hwindow hdrop

end

/-! ## Runs -/

theorem atLeastOnce_snoc (attempts : List Attempt) (attempt : Attempt) :
    AtLeastOnce (attempts ++ [attempt]) ↔
      AtLeastOnce attempts ∧ attempt.Sound attempts := by
  constructor
  · intro h
    refine ⟨fun earlier attempt' later heq => ?_, h attempts attempt [] rfl⟩
    refine h earlier attempt' (later ++ [attempt]) ?_
    rw [heq, List.append_assoc, List.cons_append]
  · rintro ⟨hall, hlast⟩ earlier attempt' later heq
    rcases List.eq_nil_or_concat later with rfl | ⟨later, last, rfl⟩
    · obtain ⟨rfl, hlist⟩ := List.append_inj' heq rfl
      rw [← (List.cons.inj hlist).1]
      exact hlast
    · rw [List.concat_eq_append, ← List.cons_append, ← List.append_assoc] at heq
      obtain ⟨hlist, -⟩ := List.append_inj' heq rfl
      exact hall earlier attempt' later hlist

theorem AtLeastOnce.of_append {attempts rest : List Attempt}
    (h : AtLeastOnce (attempts ++ rest)) : AtLeastOnce attempts := by
  intro earlier attempt later heq
  refine h earlier attempt (later ++ rest) ?_
  rw [heq, List.append_assoc, List.cons_append]

theorem step_attempts
    (launcher : DagLauncher) (s : Scheduler) (step : SchedulerStep) :
    ∃ rest, (s.step launcher step).attempts = s.attempts ++ rest := by
  cases step with
  | approvedRuns services => exact ⟨[], (List.append_nil _).symm⟩
  | deliver event world =>
      obtain ⟨attempt, happend, -⟩ := handle_sound_iff launcher s event world
      exact ⟨[attempt], happend⟩

theorem final_attempts
    (launcher : DagLauncher) (s : Scheduler) (steps : List SchedulerStep) :
    ∃ rest, ((schedulerMachine launcher).final s steps).attempts =
      s.attempts ++ rest := by
  induction steps generalizing s with
  | nil => exact ⟨[], (List.append_nil _).symm⟩
  | cons step steps ih =>
      obtain ⟨first, hfirst⟩ := step_attempts launcher s step
      obtain ⟨rest, hrest⟩ := ih (s.step launcher step)
      exact ⟨first ++ rest, by rw [← List.append_assoc, ← hfirst]; exact hrest⟩

theorem step_atLeastOnce_iff
    (launcher : DagLauncher) {s : Scheduler} (hs : AtLeastOnce s.attempts)
    (step : SchedulerStep) :
    AtLeastOnce (s.step launcher step).attempts ↔ DropsServed s step := by
  cases step with
  | approvedRuns services => exact iff_of_true hs fun _ _ h => by cases h
  | deliver event world =>
      obtain ⟨attempt, happend, hsound⟩ := handle_sound_iff launcher s event world
      rw [Scheduler.step, happend, atLeastOnce_snoc, and_iff_right hs]
      exact hsound

theorem final_atLeastOnce_iff
    (launcher : DagLauncher) {s : Scheduler} (hs : AtLeastOnce s.attempts)
    (steps : List SchedulerStep) :
    AtLeastOnce ((schedulerMachine launcher).final s steps).attempts ↔
      (schedulerMachine launcher).Guarded DropsServed s steps := by
  induction steps generalizing s with
  | nil => exact iff_of_true hs Machine.guarded_nil
  | cons step steps ih =>
      have hstep := step_atLeastOnce_iff launcher hs step
      rw [Machine.guarded_cons]
      constructor
      · intro hfinal
        obtain ⟨rest, hrest⟩ := final_attempts launcher (s.step launcher step) steps
        have hafter : AtLeastOnce (s.step launcher step).attempts := by
          refine @AtLeastOnce.of_append _ rest ?_
          rw [← hrest]
          exact hfinal
        exact ⟨hstep.mp hafter, (ih hafter).mp hfinal⟩
      · rintro ⟨hdrops, hrest⟩
        exact (ih (hstep.mpr hdrops)).mpr hrest

theorem final_ticks
    (launcher : DagLauncher) (s : Scheduler) (ticks : List Tick) :
    ticks.foldl (Scheduler.tickOnce launcher) s =
      (schedulerMachine launcher).final s (ticks.flatMap Tick.steps) := by
  induction ticks generalizing s with
  | nil => rfl
  | cons tick ticks ih =>
      rw [List.foldl_cons, ih, List.flatMap_cons, Machine.final_append,
        Scheduler.tickOnce]

/-- A new scheduler over a table of runs handles its events at least once, over any
ticks, exactly when the coalescer drops only what was served. -/
theorem atLeastOnce_iff
    (launcher : DagLauncher) (windowS : ℚ) (runs : RunTable) (ticks : List Tick) :
    AtLeastOnce (ticks.foldl (Scheduler.tickOnce launcher)
        { coalescer := { windowS }, runs }).attempts ↔
      (schedulerMachine launcher).Guarded DropsServed
        { coalescer := { windowS }, runs } (ticks.flatMap Tick.steps) := by
  rw [final_ticks]
  refine final_atLeastOnce_iff launcher ?_ _
  intro earlier attempt later heq
  exact absurd heq.symm (List.append_ne_nil_of_right_ne_nil _ (List.cons_ne_nil _ _))

def timerEvent : Event where
  eventId := "evt-0001"
  eventType := .timer
  tenantId := "t"
  actorId := "system"
  correlationId := "c1"
  payload := [("workflow_id", .str "overseer-monitor")]
  dedupKey := some "overseer-monitor:09:00"

def timerWorld (now : ℚ) (starts : Bool) : HandlingWorld where
  now := now
  route := .ok (some ("overseer-monitor", .dict []))
  allows := .ok true
  blockedRecord := none
  swarm runs := (true, runs)
  launch := { guardReads := true, prepares := true, starts }
  runId := "run-1"
  acks := true

def failingTicks : List Tick :=
  [{ services := healthyPass "overseer-monitor"
     polled := [(timerEvent, timerWorld 0 false)] },
    { services := healthyPass "overseer-monitor"
      polled := [(timerEvent, timerWorld 1 true)] }]

def failingAttempts : List Attempt :=
  (failingTicks.foldl
    (Scheduler.tickOnce (healthyPass "overseer-monitor").launcher) {}).attempts

/-- The redelivery of the failed event is dropped and acknowledged. -/
theorem failure_acknowledged :
    failingAttempts.map (fun attempt =>
        (attempt.event.eventId, attempt.handling, attempt.acked)) =
      [("evt-0001", .failed, false), ("evt-0001", .dropped, true)] ∧
    ¬ AtLeastOnce failingAttempts := by
  have hhandled : failingAttempts.map (fun attempt =>
        (attempt.event.eventId, attempt.handling, attempt.acked)) =
      [("evt-0001", .failed, false), ("evt-0001", .dropped, true)] := by
    decide +kernel
  refine ⟨hhandled, fun hsound => ?_⟩
  obtain ⟨first, rest, hattempts, hfirst, hrest⟩ := List.map_eq_cons_iff.mp hhandled
  obtain ⟨second, rest, rfl, hsecond, hnil⟩ := List.map_eq_cons_iff.mp hrest
  rw [Prod.mk.injEq, Prod.mk.injEq] at hfirst hsecond
  obtain ⟨hid, hfailed, -⟩ := hfirst
  obtain ⟨hid', hdropped, hacked⟩ := hsecond
  obtain ⟨-, hpending⟩ := hsound [first] second rest hattempts hacked
  exact hpending hdropped ⟨[], first, [], rfl, Or.inl (hid.trans hid'.symm), hfailed,
    List.forall_mem_nil _⟩

end Hydrogenuine.Realtime
