import Hydrogenuine.Realtime.Bus

/-!
# Delivery of published events

A bus should return each published event to every group that has not acknowledged it,
whether the group never polled it, or polled it and did not acknowledge it.  Neither
bus returns an event again once a poll has handed it out, the bus in memory to no group
at all.  A trimmed stream loses events besides.  Nothing is lost in a run exactly when
no poll finds an event to hand out, and no publication trims one.
-/

namespace Hydrogenuine.Realtime

open Support Hydrogenuine.Core

/-! ## The bus in memory -/

namespace InMemoryBus

def polls (group : String) (args : String × ℤ × ℕ) (bus : InMemoryBus) :
    List ℕ × InMemoryBus :=
  let done := bus.poll group args.1 args.2.1 args.2.2
  (done.1.map Envelope.serial, done.2)

/-- Every group is still returned each publication that it has not acknowledged. -/
def Complete (bus : InMemoryBus) : Prop :=
  NothingLost polls bus.published bus.acked bus

/-- A poll finds nothing in the queue, or has no time, or asks for nothing. -/
def TakesNothing (bus : InMemoryBus) (call : MemoryCall) : Prop :=
  ∀ group consumer maxEvents rounds,
    call = .poll group consumer maxEvents rounds →
      bus.q = [] ∨ rounds = 0 ∨ maxEvents ≤ 0

section

variable (group consumer : String) (maxEvents : ℤ)

theorem pollLoop_spec (rounds : ℕ) (out : List Envelope) (bus : InMemoryBus) :
    ∃ taken, (pollLoop group consumer maxEvents rounds out bus).1 = out ++ taken ∧
      bus.q = taken ++ (pollLoop group consumer maxEvents rounds out bus).2.q ∧
      (pollLoop group consumer maxEvents rounds out bus).2.published = bus.published ∧
      (pollLoop group consumer maxEvents rounds out bus).2.acked = bus.acked := by
  induction rounds generalizing out bus with
  | zero => exact ⟨[], (List.append_nil _).symm, rfl, rfl, rfl⟩
  | succ rounds ih =>
      rw [pollLoop]
      split
      · split
        · exact ih out bus
        · rename_i env q hq
          obtain ⟨taken, hout, hrest, hpublished, hacked⟩ := ih (out ++ [env])
            { bus with
              q
              inflight :=
                bus.inflight.set (group, consumer, env.event.eventId) env }
          refine ⟨env :: taken, ?_, ?_, hpublished, hacked⟩
          · rw [hout, List.append_assoc, List.singleton_append]
          · rw [hq, List.cons_append, ← hrest]
      · exact ⟨[], (List.append_nil _).symm, rfl, rfl, rfl⟩

theorem pollLoop_all (q out : List Envelope) (bus : InMemoryBus) (hq : bus.q = q)
    (hmax : (out.length + q.length : ℤ) ≤ maxEvents) :
    (pollLoop group consumer maxEvents q.length out bus).1 = out ++ q := by
  induction q generalizing out bus with
  | nil => exact (List.append_nil _).symm
  | cons env q ih =>
      rw [List.length_cons] at hmax ⊢
      have hmore : (out.length : ℤ) < maxEvents := by omega
      rw [pollLoop, if_pos hmore, hq]
      refine (ih (out ++ [env]) _ rfl ?_).trans ?_
      · rw [List.length_append, List.length_singleton]
        omega
      · rw [List.append_assoc, List.singleton_append]

theorem pollLoop_of_stops {rounds : ℕ} {bus : InMemoryBus}
    (h : bus.q = [] ∨ rounds = 0 ∨ maxEvents ≤ 0) :
    pollLoop group consumer maxEvents rounds [] bus = ([], bus) := by
  induction rounds with
  | zero => rfl
  | succ rounds ih =>
      rw [pollLoop]
      rcases h with hq | hrounds | hmax
      · split
        · rw [hq]
          exact ih (Or.inl hq)
        · rfl
      · cases hrounds
      · rw [if_neg (by rw [List.length_nil]; omega)]

theorem exists_taken {rounds : ℕ} {bus : InMemoryBus}
    (h : ¬ (bus.q = [] ∨ rounds = 0 ∨ maxEvents ≤ 0)) :
    ∃ env ∈ bus.q, env ∈ (bus.poll group consumer maxEvents rounds).1 := by
  obtain ⟨hq, hrounds, hmax⟩ : bus.q ≠ [] ∧ rounds ≠ 0 ∧ ¬ maxEvents ≤ 0 := by
    rw [not_or, not_or] at h
    exact h
  obtain ⟨env, q, hq⟩ := List.exists_cons_of_ne_nil hq
  obtain ⟨rounds, rfl⟩ := Nat.exists_eq_succ_of_ne_zero hrounds
  refine ⟨env, by rw [hq]; exact List.mem_cons_self, ?_⟩
  rw [poll, pollLoop, if_pos (by rw [List.length_nil]; omega), hq]
  obtain ⟨taken, hout, -⟩ := pollLoop_spec group consumer maxEvents rounds [env]
    { bus with
      q, inflight := bus.inflight.set (group, consumer, env.event.eventId) env }
  refine hout.symm ▸ List.mem_append_left _ (List.mem_singleton_self _)

end

theorem delivers :
    Delivers polls (fun _ => True) fun bus _ => bus.q.map Envelope.serial where
  keeps _ _ _ _ := trivial
  poll_waiting group args bus _ := by
    obtain ⟨taken, hout, hq, -⟩ :=
      pollLoop_spec group args.1 args.2.1 args.2.2 [] bus
    have htaken : (bus.poll group args.1 args.2.1 args.2.2).1 = taken := hout
    rw [polls, htaken, ← List.map_append]
    exact congrArg _ hq
  exists_poll group bus _ := by
    refine ⟨("", bus.q.length, bus.q.length), ?_⟩
    have hall := pollLoop_all group "" bus.q.length bus.q [] bus rfl (by simp)
    exact congrArg (List.map Envelope.serial) hall

/-- Nothing was taken from the queue, and each publication has its own number. -/
structure Untouched (bus : InMemoryBus) : Prop where
  queued : bus.q.map Envelope.serial = bus.published
  numbered : bus.published = List.range bus.published.length
  inflight : bus.inflight = Dict.empty
  acked : bus.acked = []

variable {bus : InMemoryBus}

theorem Untouched.complete (h : bus.Untouched) : bus.Complete := by
  refine delivers.nothingLost_of_waiting trivial fun _ n hn => ?_
  rw [h.queued]
  exact hn

theorem Untouched.publish (h : bus.Untouched) (event : Event) :
    (bus.publish event).2.Untouched := by
  rw [InMemoryBus.publish]
  split
  · exact h
  · refine ⟨?_, ?_, h.inflight, h.acked⟩
    · rw [List.map_append, h.queued]
      rfl
    · rw [List.length_append, List.length_singleton, List.range_succ, ← h.numbered]

theorem Untouched.ack (h : bus.Untouched)
    (group consumer eventId : String) : bus.ack group consumer eventId = bus := by
  rw [InMemoryBus.ack, h.inflight]
  rfl

theorem Untouched.poll_not_complete (h : bus.Untouched)
    (group consumer : String) {maxEvents : ℤ} {rounds : ℕ}
    (hstops : ¬ (bus.q = [] ∨ rounds = 0 ∨ maxEvents ≤ 0)) :
    ¬ (bus.poll group consumer maxEvents rounds).2.Complete := by
  obtain ⟨env, henv, htaken⟩ := exists_taken group consumer maxEvents hstops
  obtain ⟨-, -, -, hpublished, hacked⟩ :=
    pollLoop_spec group consumer maxEvents rounds [] bus
  refine delivers.not_nothingLost_of_polled trivial (n := env.serial)
    (p := (consumer, maxEvents, rounds)) ?_ (List.mem_map_of_mem htaken) ?_ ?_
  · rw [h.queued, h.numbered]
    exact List.nodup_range
  · rw [poll, hpublished, ← h.queued]
    exact List.mem_map_of_mem henv
  · rw [poll, hacked, h.acked]
    exact List.not_mem_nil

theorem Untouched.step_complete_iff (h : bus.Untouched)
    (call : MemoryCall) : (bus.step call).1.Complete ↔ bus.TakesNothing call := by
  cases call with
  | publish event =>
      exact iff_of_true (h.publish event).complete (fun _ _ _ _ hcall => by cases hcall)
  | poll group consumer maxEvents rounds =>
      constructor
      · rintro hcomplete _ _ _ _ ⟨rfl, rfl, rfl, rfl⟩
        by_contra hstops
        exact h.poll_not_complete group consumer hstops hcomplete
      · intro hnothing
        have hstops := hnothing _ _ _ _ rfl
        rw [step, poll, pollLoop_of_stops group consumer maxEvents hstops]
        exact h.complete
  | ack group consumer eventId =>
      refine iff_of_true ?_ (fun _ _ _ _ hcall => by cases hcall)
      rw [step, h.ack]
      exact h.complete

theorem Untouched.step (h : bus.Untouched) {call : MemoryCall}
    (hnothing : bus.TakesNothing call) : (bus.step call).1.Untouched := by
  cases call with
  | publish event => exact h.publish event
  | poll group consumer maxEvents rounds =>
      rw [InMemoryBus.step, poll,
        pollLoop_of_stops group consumer maxEvents (hnothing _ _ _ _ rfl)]
      exact h
  | ack group consumer eventId =>
      rw [InMemoryBus.step, h.ack]
      exact h

theorem untouched_init : ({} : InMemoryBus).Untouched := ⟨rfl, rfl, rfl, rfl⟩

theorem complete_iff (calls : List MemoryCall) :
    (∀ e ∈ memoryMachine.trace {} calls, e.after.Complete) ↔
      memoryMachine.Guarded TakesNothing {} calls :=
  Machine.forall_after_iff_guarded calls
    (fun _ call _ h => h.step_complete_iff call)
    (fun _ call _ h hcomplete => h.step ((h.step_complete_iff call).mp hcomplete))
    untouched_init

end InMemoryBus

/-! ## The bus on a Redis stream -/

/-- What is new on the stream for each group, and what a publication trims, with what
the client documents: an entry gets a fresh id, a group is handed each new entry once,
and a group may exist already. -/
structure GroupView {σ : Type} (client : StreamClient σ) (stream : String) where
  new : σ → String → List Message
  trimmed : σ → Fields → Option ℤ → List String
  new_create : ∀ group s, new (client.xgroupCreate stream group s).2 = new s
  busy_group : ∀ group s text, (client.xgroupCreate stream group s).1 = some text →
    isSubstring "BUSYGROUP" text = true
  add_fresh : ∀ s fields maxLen group,
    (client.xadd stream fields maxLen s).1 ∉ (new s group).map Prod.fst
  new_add : ∀ s fields maxLen group,
    new (client.xadd stream fields maxLen s).2 group =
      (new s group ++ [((client.xadd stream fields maxLen s).1, fields)]).filter
        fun message => message.1 ∉ trimmed s fields maxLen
  read_reply : ∀ group consumer count block s, 1 ≤ count →
    ∃ raw, (client.xreadgroup stream group consumer count block s).1 = .ok raw ∧
      RedisStreamsBus.streamMessages stream raw = (new s group).take count.toNat
  new_read : ∀ group consumer count block s group', 1 ≤ count →
    new (client.xreadgroup stream group consumer count block s).2 group' =
      if group' = group then (new s group).drop count.toNat else new s group'
  read_invalid : ∀ group consumer count block s, ¬ 1 ≤ count →
    (∃ e, (client.xreadgroup stream group consumer count block s).1 = .error e) ∧
      new (client.xreadgroup stream group consumer count block s).2 = new s
  new_ack : ∀ group id s, new (client.xack stream group id s).2 = new s

namespace RedisStreamsBus

variable {σ : Type} {config : RedisConfig σ}

section

variable (config)

def polls (group : String) (args : String × ℤ × ℚ) (bus : RedisStreamsBus σ) :
    List String × RedisStreamsBus σ :=
  let done := poll config group args.1 args.2.1 args.2.2 bus
  match done.1 with
  | .error _ => ([], done.2)
  | .ok out => (out.map Prod.fst, done.2)

/-- Every group is still returned each publication that it has not acknowledged. -/
def Complete (bus : RedisStreamsBus σ) : Prop :=
  NothingLost (polls config) bus.published bus.acked bus

end

/-- A poll finds nothing new for its group, or asks for nothing, and an entry that is
added trims neither itself nor another. -/
def KeepsAll (view : GroupView config.client config.stream)
    (bus : RedisStreamsBus σ) : RedisCall → Prop
  | .publish event =>
      ∀ body, event.validate = .ok () →
        config.json.dumps (.dict event.toDict) = .ok body →
          ∀ id ∈ bus.published ++
              [(config.client.xadd config.stream [("payload", body)] config.maxLen
                bus.server).1],
            id ∉ view.trimmed bus.server [("payload", body)] config.maxLen
  | .poll group _ maxEvents _ => view.new bus.server group = [] ∨ maxEvents < 1
  | .ack _ _ _ => True

/-! ### Messages -/

def Readable (json : JsonHost) (fields : Fields) : Prop :=
  ∃ event, readMessage json fields = .ok (some event)

theorem readMessages_fst {json : JsonHost} {messages : List Message}
    (h : ∀ message ∈ messages, Readable json message.2) :
    (readMessages json messages).1.map Prod.fst = messages.map Prod.fst ∧
      (readMessages json messages).2 = none := by
  induction messages with
  | nil => exact ⟨rfl, rfl⟩
  | cons message messages ih =>
      obtain ⟨hfirst, hrest⟩ := List.forall_mem_cons.mp h
      obtain ⟨event, hevent⟩ := hfirst
      obtain ⟨hids, hnone⟩ := ih hrest
      rw [readMessages, hevent]
      exact ⟨congrArg (message.1 :: ·) hids, hnone⟩

theorem toDict_keys (event : Event) :
    event.toDict.map Prod.fst =
      ["event_id", "event_type", "tenant_id", "actor_id", "correlation_id", "payload",
        "dedup_key"] := rfl

theorem readEvent_dumps {json : JsonHost} (hjson : json.ReadsBack) {event : Event}
    {body : String} (hbody : json.dumps (.dict event.toDict) = .ok body) :
    body ≠ "" ∧ ∃ event', readEvent json body = .ok (some event') := by
  obtain ⟨hne, reread, hloads, hstr, -, hdict⟩ :=
    hjson event.toDict body (by rw [toDict_keys]; decide) hbody
  obtain ⟨payload, hpayload⟩ := hdict event.payload
  have hevent : ∃ event', json.fromDict
      (event.toDict.map fun entry => (entry.1, reread entry.2)) = .ok event' := by
    rw [Event.toDict]
    simp only [List.map_cons, List.map_nil, hstr, hpayload]
    cases event.eventType <;> exact ⟨_, rfl⟩
  obtain ⟨event', hevent⟩ := hevent
  refine ⟨hne, event', ?_⟩
  rw [readEvent, hloads]
  exact congrArg (Except.map some) hevent

theorem readable_dumps {json : JsonHost} (hjson : json.ReadsBack) {event : Event}
    {body : String} (hbody : json.dumps (.dict event.toDict) = .ok body) :
    Readable json [("payload", body)] := by
  obtain ⟨hne, event', hevent⟩ := readEvent_dumps hjson hbody
  refine ⟨event', ?_⟩
  have hlookup : [("payload", body)].lookup "payload" = some body := rfl
  rw [readMessage, hlookup]
  dsimp only
  rw [if_neg hne, hevent]

/-! ### Polls -/

section

variable (view : GroupView config.client config.stream)

/-- All that is new for the groups is readable. -/
def AllReadable (bus : RedisStreamsBus σ) : Prop :=
  ∀ group, ∀ message ∈ view.new bus.server group, Readable config.json message.2

theorem ensureConsumerGroup_spec (group : String) (server : σ) :
    (ensureConsumerGroup config group server).1 = none ∧
      view.new (ensureConsumerGroup config group server).2 = view.new server := by
  have hnew := view.new_create group server
  have hbusy := view.busy_group group server
  rw [ensureConsumerGroup]
  generalize config.client.xgroupCreate config.stream group server = created at *
  obtain ⟨_ | text, server'⟩ := created
  · exact ⟨rfl, hnew⟩
  · dsimp only
    rw [if_pos (hbusy text rfl)]
    exact ⟨rfl, hnew⟩

theorem polls_spec {bus : RedisStreamsBus σ} (hread : AllReadable view bus)
    (group : String) (args : String × ℤ × ℚ) :
    (polls config group args bus).1 =
        ((view.new bus.server group).take args.2.1.toNat).map Prod.fst ∧
      (∀ group', view.new (polls config group args bus).2.server group' =
        if group' = group then (view.new bus.server group).drop args.2.1.toNat
        else view.new bus.server group') ∧
      (polls config group args bus).2.published = bus.published ∧
      (polls config group args bus).2.acked = bus.acked ∧
      (bus.pending = Dict.empty → (polls config group args bus).1 = [] →
        (polls config group args bus).2.pending = Dict.empty) := by
  obtain ⟨consumer, maxEvents, timeoutS⟩ := args
  obtain ⟨hensured, hnew⟩ := ensureConsumerGroup_spec view group bus.server
  rw [polls, poll]
  generalize ensureConsumerGroup config group bus.server = ensured at *
  obtain ⟨failure, server⟩ := ensured
  obtain rfl : failure = none := hensured
  dsimp only at hnew ⊢
  by_cases hcount : 1 ≤ maxEvents
  · obtain ⟨raw, hraw, hmessages⟩ := view.read_reply group consumer maxEvents
      (max 1 (timeoutS * 1000).floor) server hcount
    have hafter := fun group' => view.new_read group consumer maxEvents
      (max 1 (timeoutS * 1000).floor) server group' hcount
    generalize config.client.xreadgroup config.stream group consumer maxEvents
      (max 1 (timeoutS * 1000).floor) server = reply at *
    obtain ⟨outcome, server'⟩ := reply
    obtain rfl : outcome = .ok raw := hraw
    rw [hnew] at hmessages hafter
    obtain ⟨hids, hnone⟩ := @readMessages_fst config.json
      (streamMessages config.stream raw) fun message hmessage => by
        rw [hmessages] at hmessage
        exact hread group message (List.mem_of_mem_take hmessage)
    rw [hmessages] at hids hnone
    dsimp only
    rw [hmessages, hnone]
    refine ⟨hids, hafter, rfl, rfl, fun _ htaken => ?_⟩
    dsimp only at htaken ⊢
    rw [List.map_eq_nil_iff.mp htaken]
    rfl
  · obtain ⟨⟨e, he⟩, hafter⟩ := view.read_invalid group consumer maxEvents
      (max 1 (timeoutS * 1000).floor) server hcount
    generalize config.client.xreadgroup config.stream group consumer maxEvents
      (max 1 (timeoutS * 1000).floor) server = reply at *
    obtain ⟨outcome, server'⟩ := reply
    obtain rfl : outcome = .error e := he
    have hnat : maxEvents.toNat = 0 := by omega
    dsimp only at hafter ⊢
    rw [hnat, hafter, hnew]
    refine ⟨rfl, fun group' => ?_, rfl, rfl, fun hpending _ => hpending⟩
    split
    · rename_i hgroup
      rw [hgroup, List.drop_zero]
    · rfl

theorem delivers :
    Delivers (polls config) (AllReadable view)
      fun bus group => (view.new bus.server group).map Prod.fst where
  keeps group args bus hread group' message hmessage := by
    obtain ⟨-, hafter, -⟩ := polls_spec view hread group args
    rw [hafter] at hmessage
    split at hmessage
    · exact hread group message (List.mem_of_mem_drop hmessage)
    · exact hread group' message hmessage
  poll_waiting group args bus hread := by
    obtain ⟨htaken, hafter, -⟩ := polls_spec view hread group args
    rw [htaken, hafter, if_pos rfl, ← List.map_append, List.take_append_drop]
  exists_poll group bus hread := by
    refine ⟨("", (view.new bus.server group).length, 1), ?_⟩
    obtain ⟨htaken, -⟩ := polls_spec view hread group
      ("", ((view.new bus.server group).length : ℤ), 1)
    rw [htaken]
    dsimp only
    rw [Int.toNat_natCast, List.take_length]

/-! ### Runs -/

/-- Nothing was handed out or trimmed, and the ids of the publications differ. -/
structure Untouched (bus : RedisStreamsBus σ) : Prop where
  readable : AllReadable view bus
  new_ids : ∀ group, (view.new bus.server group).map Prod.fst = bus.published
  nodup : bus.published.Nodup
  pending : bus.pending = Dict.empty
  acked : bus.acked = []

variable {view} {bus : RedisStreamsBus σ}

theorem Untouched.complete (h : Untouched view bus) : Complete config bus := by
  refine (delivers view).nothingLost_of_waiting h.readable fun group n hn => ?_
  rw [h.new_ids]
  exact hn

def added (config : RedisConfig σ) (bus : RedisStreamsBus σ) (body : String) :
    String × σ :=
  config.client.xadd config.stream [("payload", body)] config.maxLen bus.server

theorem publish_cases (event : Event) (bus : RedisStreamsBus σ) :
    ((publish config event bus).2 = bus ∧ ∀ body, event.validate = .ok () →
        config.json.dumps (.dict event.toDict) ≠ .ok body) ∨
      ∃ body, event.validate = .ok () ∧
        config.json.dumps (.dict event.toDict) = .ok body ∧
        (publish config event bus).2 =
          { bus with
            server := (added config bus body).2
            published := bus.published ++ [(added config bus body).1] } := by
  rw [publish]
  cases hvalid : event.validate with
  | error e => exact Or.inl ⟨rfl, fun _ h => by cases h⟩
  | ok _ =>
      dsimp only
      cases hbody : config.json.dumps (.dict event.toDict) with
      | error e => exact Or.inl ⟨rfl, fun _ _ h => by cases h⟩
      | ok body => exact Or.inr ⟨body, rfl, rfl, rfl⟩

section

variable (hjson : config.json.ReadsBack) (h : Untouched view bus) {event : Event}
  {body : String} (hbody : config.json.dumps (.dict event.toDict) = .ok body)

include hjson h hbody

theorem Untouched.added_readable {bus' : RedisStreamsBus σ}
    (hserver : bus'.server = (added config bus body).2) : AllReadable view bus' := by
  intro group message hmessage
  rw [hserver, added, view.new_add] at hmessage
  rcases List.mem_append.mp (List.mem_filter.mp hmessage).1 with hold | hnew
  · exact h.readable group message hold
  · rw [List.mem_singleton.mp hnew]
    exact readable_dumps hjson hbody

theorem Untouched.trimmed_not_complete {bus' : RedisStreamsBus σ}
    (hserver : bus'.server = (added config bus body).2)
    (hacked : bus'.acked = bus.acked) {id : String} (hid : id ∈ bus'.published)
    (htrimmed : id ∈ view.trimmed bus.server [("payload", body)] config.maxLen) :
    ¬ Complete config bus' := by
  intro hcomplete
  have hnotacked : ("", id) ∉ bus'.acked := by
    rw [hacked, h.acked]
    exact List.not_mem_nil
  have hwaits := ((delivers view).returns_iff (h.added_readable hjson hbody hserver)).mp
    (hcomplete "" id hid hnotacked)
  rw [hserver, added, view.new_add] at hwaits
  obtain ⟨message, hmessage, rfl⟩ := List.mem_map.mp hwaits
  exact of_decide_eq_true (List.mem_filter.mp hmessage).2 htrimmed

theorem Untouched.added
    (hkept : ∀ id ∈ bus.published ++ [(added config bus body).1],
      id ∉ view.trimmed bus.server [("payload", body)] config.maxLen) :
    Untouched view
      { bus with
        server := (added config bus body).2
        published := bus.published ++ [(added config bus body).1] } where
  readable := h.added_readable hjson hbody rfl
  new_ids group := by
    have hall := fun message (hmessage : message ∈ view.new bus.server group ++
        [((RedisStreamsBus.added config bus body).1, [("payload", body)])]) =>
      decide_eq_true (hkept message.1 (by
        rw [← h.new_ids group]
        refine List.mem_append.mpr ((List.mem_append.mp hmessage).imp ?_ ?_)
        · exact List.mem_map_of_mem
        · intro hnew
          rw [List.mem_singleton.mp hnew]
          exact List.mem_singleton_self _))
    rw [RedisStreamsBus.added] at hall ⊢
    rw [view.new_add, List.filter_eq_self.mpr hall, List.map_append, h.new_ids]
    rfl
  nodup := by
    have hfresh := view.add_fresh bus.server [("payload", body)] config.maxLen ""
    rw [h.new_ids] at hfresh
    refine List.nodup_append.mpr ⟨h.nodup, List.nodup_singleton _, ?_⟩
    rintro id hid _ hnew rfl
    rw [List.mem_singleton.mp hnew] at hid
    exact hfresh hid
  pending := h.pending
  acked := h.acked

end

theorem Untouched.poll_not_complete (h : Untouched view bus) {group : String}
    {args : String × ℤ × ℚ}
    (htakes : ¬ (view.new bus.server group = [] ∨ args.2.1 < 1)) :
    ¬ Complete config (polls config group args bus).2 := by
  obtain ⟨hnew, hmax⟩ := not_or.mp htakes
  obtain ⟨message, messages, hmessages⟩ := List.exists_cons_of_ne_nil hnew
  obtain ⟨taken, -, hpublished, hacked, -⟩ := polls_spec view h.readable group args
  obtain ⟨count, hcount⟩ : ∃ count, args.2.1.toNat = count + 1 :=
    ⟨args.2.1.toNat - 1, by omega⟩
  have hids := h.new_ids group
  rw [hmessages, List.map_cons] at hids
  refine (delivers view).not_nothingLost_of_polled h.readable (n := message.1)
    (p := args) ?_ ?_ ?_ ?_
  · rw [h.new_ids]
    exact h.nodup
  · rw [taken, hmessages, hcount, List.take_succ_cons, List.map_cons]
    exact List.mem_cons_self
  · rw [hpublished, ← hids]
    exact List.mem_cons_self
  · rw [hacked, h.acked]
    exact List.not_mem_nil

theorem Untouched.poll (h : Untouched view bus) {group : String}
    {args : String × ℤ × ℚ} (hstops : view.new bus.server group = [] ∨ args.2.1 < 1) :
    Untouched view (polls config group args bus).2 := by
  obtain ⟨taken, hafter, hpublished, hacked, hpending⟩ :=
    polls_spec view h.readable group args
  have hkept : ∀ group', view.new (polls config group args bus).2.server group' =
      view.new bus.server group' := by
    intro group'
    rw [hafter]
    split
    · rename_i hgroup
      rw [hgroup]
      rcases hstops with hnew | hmax
      · rw [hnew, List.drop_nil]
      · rw [Int.toNat_of_nonpos (by omega), List.drop_zero]
    · rfl
  have hnone : (polls config group args bus).1 = [] := by
    rw [taken]
    rcases hstops with hnew | hmax
    · rw [hnew, List.take_nil, List.map_nil]
    · rw [Int.toNat_of_nonpos (by omega), List.take_zero, List.map_nil]
  refine ⟨(delivers view).keeps group args bus h.readable, fun group' => ?_, ?_,
    hpending h.pending hnone, hacked.trans h.acked⟩
  · rw [hkept, h.new_ids, hpublished]
  · rw [hpublished]
    exact h.nodup

theorem Untouched.ack (h : Untouched view bus) (group eventId : String) :
    RedisStreamsBus.ack config group eventId bus = bus := by
  rw [RedisStreamsBus.ack, h.pending]
  rfl

theorem step_poll (bus : RedisStreamsBus σ) (group consumer : String) (maxEvents : ℤ)
    (timeoutS : ℚ) :
    (bus.step config (.poll group consumer maxEvents timeoutS)).1 =
      (polls config group (consumer, maxEvents, timeoutS) bus).2 := by
  rw [step, polls]
  dsimp only
  split <;> rfl

theorem Untouched.step_iff (hjson : config.json.ReadsBack) (h : Untouched view bus)
    (call : RedisCall) :
    (Complete config (bus.step config call).1 ↔ KeepsAll view bus call) ∧
      (KeepsAll view bus call → Untouched view (bus.step config call).1) := by
  cases call with
  | publish event =>
      rw [step]
      dsimp only
      rcases publish_cases event bus with ⟨hsame, hrefused⟩ | ⟨body, hvalid, hbody, hbus⟩
      · rw [hsame]
        refine ⟨iff_of_true h.complete fun body hvalid hbody => ?_, fun _ => h⟩
        exact absurd hbody (hrefused body hvalid)
      · rw [hbus]
        have hkeep : KeepsAll view bus (.publish event) → Untouched view _ :=
          fun hkeeps => h.added hjson hbody (hkeeps body hvalid hbody)
        refine ⟨⟨fun hcomplete body' _ hbody' id hid htrimmed => ?_,
          fun hkeeps => (hkeep hkeeps).complete⟩, hkeep⟩
        obtain rfl : body = body' := Except.ok.inj (hbody.symm.trans hbody')
        refine h.trimmed_not_complete hjson hbody ?_ ?_ ?_ htrimmed hcomplete
        · rfl
        · rfl
        · exact hid
  | poll group consumer maxEvents timeoutS =>
      rw [step_poll]
      have hkeep : KeepsAll view bus (.poll group consumer maxEvents timeoutS) →
          Untouched view (polls config group (consumer, maxEvents, timeoutS) bus).2 :=
        fun hkeeps => h.poll hkeeps
      refine ⟨⟨fun hcomplete => ?_, fun hkeeps => (hkeep hkeeps).complete⟩, hkeep⟩
      by_contra htakes
      have htakes' : ¬ (view.new bus.server group = [] ∨
        (consumer, maxEvents, timeoutS).2.1 < 1) := htakes
      exact h.poll_not_complete htakes' hcomplete
  | ack group consumer eventId =>
      rw [step, h.ack]
      exact ⟨iff_of_true h.complete trivial, fun _ => h⟩

theorem complete_iff (hjson : config.json.ReadsBack)
    (view : GroupView config.client config.stream) {server : σ}
    (hserver : ∀ group, view.new server group = []) (calls : List RedisCall) :
    (∀ e ∈ (redisMachine config).trace { server } calls, Complete config e.after) ↔
      (redisMachine config).Guarded (KeepsAll view) { server } calls := by
  have hinit : Untouched view { server } := by
    refine ⟨fun group message hmessage => ?_, fun group => ?_, List.nodup_nil, rfl, rfl⟩
    · rw [hserver] at hmessage
      cases hmessage
    · rw [hserver]
      rfl
  refine Machine.forall_after_iff_guarded calls
    (fun _ call _ h => (h.step_iff hjson call).1) (fun _ call _ h hcomplete => ?_) hinit
  exact (h.step_iff hjson call).2 ((h.step_iff hjson call).1.mp hcomplete)

end

end RedisStreamsBus

/-! ## Both buses -/

/-- From an empty queue, and from a stream with nothing new, nothing is lost at any
moment of a run exactly when no poll takes an event and no publication trims one. -/
theorem nothing_lost_iff {σ : Type} {config : RedisConfig σ}
    (hjson : config.json.ReadsBack) (view : GroupView config.client config.stream)
    {server : σ} (hserver : ∀ group, view.new server group = []) :
    (∀ calls, (∀ e ∈ memoryMachine.trace {} calls, e.after.Complete) ↔
      memoryMachine.Guarded InMemoryBus.TakesNothing {} calls) ∧
    ∀ calls, (∀ e ∈ (redisMachine config).trace { server } calls,
        RedisStreamsBus.Complete config e.after) ↔
      (redisMachine config).Guarded (RedisStreamsBus.KeepsAll view) { server } calls :=
  ⟨InMemoryBus.complete_iff, RedisStreamsBus.complete_iff hjson view hserver⟩

def entryId (n : ℕ) : String := String.ofList (List.replicate n '0')

theorem entryId_length (n : ℕ) : (entryId n).length = n := by
  rw [entryId, String.length_ofList, List.length_replicate]

/-- A server that keeps for each group what it has not been handed. -/
structure ListServer where
  added : ℕ := 0
  new : String → List Message := fun _ => []
  shorter : ∀ group, ∀ message ∈ new group, message.1.length < added := by
    intro _ _ hmessage
    cases hmessage

def streamReply (stream : String) : List Message → List (String × List Message)
  | [] => []
  | messages => [(stream, messages)]

theorem streamMessages_streamReply (stream : String) (messages : List Message) :
    RedisStreamsBus.streamMessages stream (streamReply stream messages) = messages := by
  cases messages with
  | nil => rfl
  | cons message messages =>
      rw [streamReply, RedisStreamsBus.streamMessages, List.flatMap_singleton, if_pos rfl]
      exact List.cons_ne_nil _ _

def listClient : StreamClient ListServer where
  xgroupCreate _ _ s := (some "BUSYGROUP Consumer Group name already exists", s)
  xadd _ fields _ s :=
    (entryId s.added,
      { added := s.added + 1
        new := fun group => s.new group ++ [(entryId s.added, fields)]
        shorter := by
          intro group message hmessage
          rcases List.mem_append.mp hmessage with hold | hnew
          · exact Nat.lt_succ_of_lt (s.shorter group message hold)
          · rw [List.mem_singleton.mp hnew, entryId_length]
            exact Nat.lt_succ_self _ })
  xreadgroup stream group _ count _ s :=
    if 1 ≤ count then
      (.ok (streamReply stream ((s.new group).take count.toNat)),
        { added := s.added
          new := fun group' =>
            if group' = group then (s.new group).drop count.toNat else s.new group'
          shorter := by
            intro group' message hmessage
            split at hmessage
            · exact s.shorter group message (List.mem_of_mem_drop hmessage)
            · exact s.shorter group' message hmessage })
    else (.error (.valueError "XREADGROUP count must be a positive integer"), s)
  xack _ _ _ s := (1, s)

def listView (stream : String) : GroupView listClient stream where
  new := ListServer.new
  trimmed _ _ _ := []
  new_create _ _ := rfl
  busy_group := by
    rintro _ _ _ ⟨rfl⟩
    decide +kernel
  add_fresh s fields maxLen group hmem := by
    obtain ⟨message, hmessage, hid⟩ := List.mem_map.mp hmem
    have hshorter := s.shorter group message hmessage
    rw [hid] at hshorter
    exact absurd hshorter (by rw [listClient, entryId_length]; exact Nat.lt_irrefl _)
  new_add s fields maxLen group := by
    refine (List.filter_eq_self.mpr fun message _ => ?_).symm
    exact decide_eq_true List.not_mem_nil
  read_reply group consumer count block s hcount := by
    refine ⟨streamReply stream ((s.new group).take count.toNat), ?_,
      streamMessages_streamReply stream _⟩
    rw [listClient]
    dsimp only
    rw [if_pos hcount]
  new_read group consumer count block s group' hcount := by
    rw [listClient]
    dsimp only
    rw [if_pos hcount]
  read_invalid group consumer count block s hcount := by
    rw [listClient]
    dsimp only
    rw [if_neg hcount]
    exact ⟨⟨_, rfl⟩, rfl⟩
  new_ack _ _ _ := rfl

def signalEvent : Event where
  eventId := "evt-0001"
  eventType := .agentSignal
  tenantId := "t"
  actorId := "a"
  correlationId := "c"
  payload := []

def signalText : String :=
  "\x7b\"event_id\": \"evt-0001\", \"event_type\": \"agent_signal\", " ++
    "\"tenant_id\": \"t\", \"actor_id\": \"a\", \"correlation_id\": \"c\", " ++
    "\"payload\": \x7b\x7d, \"dedup_key\": null\x7d"

def signalJson : JsonHost where
  dumps
    | .dict [("event_id", .str "evt-0001"), ("event_type", .str "agent_signal"),
        ("tenant_id", .str "t"), ("actor_id", .str "a"), ("correlation_id", .str "c"),
        ("payload", .dict []), ("dedup_key", .none)] => .ok signalText
    | _ => .error (.typeError "Object is not JSON serializable")
  loads text :=
    if text = signalText then .ok (.dict signalEvent.toDict)
    else .error .jsonDecodeError
  dictOf _ := .error (.typeError "object is not iterable")
  renderContainer _ := ""

theorem signalJson_readsBack : signalJson.ReadsBack := by
  intro entries text _ hdumps
  rw [signalJson] at hdumps
  dsimp only at hdumps
  split at hdumps
  · rename_i heq
    obtain rfl := Except.ok.inj hdumps
    obtain rfl := PyVal.dict.inj heq
    exact ⟨by decide +kernel, id, rfl, fun _ => rfl, rfl, fun items => ⟨items, rfl⟩⟩
  · cases hdumps

def signalConfig : RedisConfig ListServer where
  client := listClient
  json := signalJson

def signalView : GroupView signalConfig.client signalConfig.stream := listView _

/-- The two buses, the second over the server of lists. -/
theorem listServer_nothing_lost :
    (∀ calls, (∀ e ∈ memoryMachine.trace {} calls, e.after.Complete) ↔
      memoryMachine.Guarded InMemoryBus.TakesNothing {} calls) ∧
    ∀ calls, (∀ e ∈ (redisMachine signalConfig).trace { server := {} } calls,
        RedisStreamsBus.Complete signalConfig e.after) ↔
      (redisMachine signalConfig).Guarded (RedisStreamsBus.KeepsAll signalView)
        { server := {} } calls :=
  @nothing_lost_iff _ signalConfig signalJson_readsBack signalView {} fun _ => rfl

def polledInMemory : InMemoryBus :=
  memoryMachine.final {} [.publish signalEvent, .poll "hg-scheduler" "sched-1" 10 10]

def polledOnRedis : RedisStreamsBus ListServer :=
  (redisMachine signalConfig).final { server := {} }
    [.publish signalEvent, .poll "hg-scheduler" "sched-1" 10 1]

set_option maxRecDepth 10000 in
theorem polledOnRedis_new (group : String) :
    polledOnRedis.server.new group =
      if group = "hg-scheduler" then [] else [("", [("payload", signalText)])] := rfl

set_option maxRecDepth 10000 in
theorem polledOnRedis_readable :
    RedisStreamsBus.AllReadable signalView polledOnRedis := by
  intro group message hmessage
  have hnew : message ∈ polledOnRedis.server.new group := hmessage
  rw [polledOnRedis_new] at hnew
  split at hnew
  · cases hnew
  · rw [List.mem_singleton.mp hnew]
    exact @RedisStreamsBus.readable_dumps _ signalJson_readsBack signalEvent _ rfl

set_option maxRecDepth 10000 in
/-- The group has not acknowledged the event and is not returned it again.  In memory,
neither is a group that never polled. -/
theorem polled_event_lost :
    (polledInMemory.published = [0] ∧ polledInMemory.acked = [] ∧
      (∀ group, ¬ Returns InMemoryBus.polls polledInMemory group 0) ∧
      ¬ polledInMemory.Complete) ∧
    polledOnRedis.published = [""] ∧ polledOnRedis.acked = [] ∧
      ¬ Returns (RedisStreamsBus.polls signalConfig) polledOnRedis "hg-scheduler" "" ∧
      ¬ RedisStreamsBus.Complete signalConfig polledOnRedis := by
  have hmemory : ∀ group, ¬ Returns InMemoryBus.polls polledInMemory group 0 := by
    intro group hreturns
    have hwaits := (InMemoryBus.delivers.returns_iff trivial).mp hreturns
    cases hwaits
  have hredis :
      ¬ Returns (RedisStreamsBus.polls signalConfig) polledOnRedis "hg-scheduler" "" := by
    intro hreturns
    have hwaits := ((RedisStreamsBus.delivers signalView).returns_iff
      polledOnRedis_readable).mp hreturns
    cases hwaits
  have hpublished : polledOnRedis.published = [""] := rfl
  have hacked : polledOnRedis.acked = [] := rfl
  refine ⟨⟨rfl, rfl, hmemory, fun hcomplete => ?_⟩, hpublished, hacked, hredis,
    fun hcomplete => ?_⟩
  · exact hmemory "" (hcomplete "" 0 (List.mem_singleton_self _) List.not_mem_nil)
  · refine hredis (hcomplete "hg-scheduler" "" ?_ ?_)
    · rw [hpublished]
      exact List.mem_singleton_self _
    · rw [hacked]
      exact List.not_mem_nil

end Hydrogenuine.Realtime
