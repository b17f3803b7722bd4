import Hydrogenuine.Realtime.Event
import Hydrogenuine.Support.Delivery
import Hydrogenuine.Support.Machine

/-!
# The event buses

Embedding of `hg_realtime/bus/memory_bus.py` and `bus/redis_streams_bus.py`.  The
buses record what was published and acknowledged beside their state, for the
statements; nothing reads these records.  A publication is told apart from others by
its number, or by the id that the server gave it, since events may share an id.

The Redis client and the JSON library are parameters.  `GroupView` says of the client
that a group is handed each new entry of the stream once.
-/

namespace Hydrogenuine.Realtime

open Support Hydrogenuine.Core

/-! ## The bus in memory -/

/-- `_Envelope`, with the number of the publication. -/
structure Envelope where
  serial : ℕ
  event : Event

structure InMemoryBus where
  q : List Envelope := []
  inflight : Dict (String × String × String) Envelope := Dict.empty
  published : List ℕ := []
  acked : List (String × ℕ) := []

namespace InMemoryBus

def publish (event : Event) (bus : InMemoryBus) : Except PyError Unit × InMemoryBus :=
  match event.validate with
  | .error e => (.error e, bus)
  | .ok () =>
      (.ok (),
        { bus with
          q := bus.q ++ [⟨bus.published.length, event⟩]
          published := bus.published ++ [bus.published.length] })

/-- The rounds of the loop of `poll` that start before the deadline. -/
def pollLoop (group consumer : String) (maxEvents : ℤ) :
    ℕ → List Envelope → InMemoryBus → List Envelope × InMemoryBus
  | 0, out, bus => (out, bus)
  | rounds + 1, out, bus =>
      if out.length < maxEvents then
        match bus.q with
        | [] => pollLoop group consumer maxEvents rounds out bus
        | env :: q =>
            pollLoop group consumer maxEvents rounds (out ++ [env])
              { bus with
                q
                inflight :=
                  bus.inflight.set (group, consumer, env.event.eventId) env }
      else (out, bus)

def poll (group consumer : String) (maxEvents : ℤ) (rounds : ℕ) (bus : InMemoryBus) :
    List Envelope × InMemoryBus :=
  pollLoop group consumer maxEvents rounds [] bus

def ack (group consumer eventId : String) (bus : InMemoryBus) : InMemoryBus :=
  match bus.inflight.get? (group, consumer, eventId) with
  | none => bus
  | some env =>
      { bus with
        inflight := bus.inflight.filter fun k _ => k ≠ (group, consumer, eventId)
        acked := bus.acked ++ [(group, env.serial)] }

end InMemoryBus

/-- The calls of the bus in memory.  A poll comes with the rounds that its time is
enough for. -/
inductive MemoryCall where
  | publish (event : Event)
  | poll (group consumer : String) (maxEvents : ℤ) (rounds : ℕ)
  | ack (group consumer eventId : String)

def InMemoryBus.step (bus : InMemoryBus) :
    MemoryCall → InMemoryBus × Except PyError (List Event)
  | .publish event => ((bus.publish event).2, (bus.publish event).1.map fun _ => [])
  | .poll group consumer maxEvents rounds =>
      let done := bus.poll group consumer maxEvents rounds
      (done.2, .ok (done.1.map Envelope.event))
  | .ack group consumer eventId => (bus.ack group consumer eventId, .ok [])

def memoryMachine : Machine InMemoryBus MemoryCall (Except PyError (List Event)) where
  step := InMemoryBus.step

/-! ## Events as JSON -/

/-- `json` and the constructors of the host language that `from_dict` calls. -/
structure JsonHost where
  dumps : PyVal → Except PyError String
  loads : String → Except PyError PyVal
  /-- `dict` of a value that is not a dictionary. -/
  dictOf : PyVal → Except PyError (List (String × PyVal))
  renderContainer : PyVal → String

def EventType.value : EventType → String
  | .timer => "timer"
  | .webhook => "webhook"
  | .fileChange => "file_change"
  | .uiAction => "ui_action"
  | .agentSignal => "agent_signal"
  | .internal => "internal"

/-- `EventType(value)`. -/
def EventType.ofValue (value : String) : Except PyError EventType :=
  match [EventType.timer, .webhook, .fileChange, .uiAction, .agentSignal,
      .internal].find? (fun eventType => eventType.value = value) with
  | some eventType => .ok eventType
  | none => .error (.valueError ("'" ++ value ++ "' is not a valid EventType"))

/-- `to_dict` without the times. -/
def Event.toDict (event : Event) : List (String × PyVal) :=
  [("event_id", .str event.eventId),
    ("event_type", .str event.eventType.value),
    ("tenant_id", .str event.tenantId),
    ("actor_id", .str event.actorId),
    ("correlation_id", .str event.correlationId),
    ("payload", .dict event.payload),
    ("dedup_key", .ofOption event.dedupKey)]

namespace JsonHost

variable (json : JsonHost)

/-- `d[key]`. -/
def item (d : List (String × PyVal)) (key : String) : Except PyError PyVal :=
  match d.lookup key with
  | some value => .ok value
  | none => .error (.keyError key)

/-- `str(d[key])`. -/
def strItem (d : List (String × PyVal)) (key : String) : Except PyError String :=
  (item d key).map (PyVal.render json.renderContainer)

/-- `dict(value)`. -/
def toDict : PyVal → Except PyError (List (String × PyVal))
  | .dict items => .ok items
  | value => json.dictOf value

/-- `Event.from_dict`; a deduplication key that is no text is read as none. -/
def fromDict (d : List (String × PyVal)) : Except PyError Event := do
  let eventId ← json.strItem d "event_id"
  let typeValue ← json.strItem d "event_type"
  let eventType ← EventType.ofValue typeValue
  let tenantId ← json.strItem d "tenant_id"
  let actorId ← json.strItem d "actor_id"
  let correlationId ← json.strItem d "correlation_id"
  let payloadValue ← item d "payload"
  let payload ← json.toDict payloadValue
  let dedupKey :=
    match d.lookup "dedup_key" with
    | some (.str key) => some key
    | _ => none
  return { eventId, eventType, tenantId, actorId, correlationId, payload, dedupKey }

/-- The text of the values of distinct keys reads back as these keys, where texts and
the missing value are themselves, and a dictionary is one. -/
def ReadsBack : Prop :=
  ∀ entries text, (entries.map Prod.fst).Nodup → json.dumps (.dict entries) = .ok text →
    text ≠ "" ∧ ∃ reread : PyVal → PyVal,
      json.loads text = .ok (.dict (entries.map fun entry => (entry.1, reread entry.2)))
        ∧ (∀ s, reread (.str s) = .str s) ∧ reread .none = .none ∧
        ∀ items, ∃ items', reread (.dict items) = .dict items'

end JsonHost

/-! ## The bus on a Redis stream -/

abbrev Fields := List (String × String)

abbrev Message := String × Fields

/-- The client, over the states of the server.  Creating a group gives the text of the
exception, if there is one. -/
structure StreamClient (σ : Type) where
  xgroupCreate : (stream group : String) → σ → Option String × σ
  xadd : (stream : String) → Fields → (maxLen : Option ℤ) → σ → String × σ
  xreadgroup : (stream group consumer : String) → (count block : ℤ) → σ →
    Except PyError (List (String × List Message)) × σ
  xack : (stream group id : String) → σ → ℕ × σ

/-- The arguments of a bus. -/
structure RedisConfig (σ : Type) where
  client : StreamClient σ
  json : JsonHost
  stream : String := "hg:events"
  maxLen : Option ℤ := none

structure RedisStreamsBus (σ : Type) where
  server : σ
  pending : Dict String String := Dict.empty
  published : List String := []
  acked : List (String × String) := []

namespace RedisStreamsBus

variable {σ : Type} (config : RedisConfig σ)

/-- `_ensure_consumer_group`, with the text of the exception that it raises. -/
def ensureConsumerGroup (group : String) (server : σ) : Option String × σ :=
  match config.client.xgroupCreate config.stream group server with
  | (some text, server) =>
      if isSubstring "BUSYGROUP" text then (none, server) else (some text, server)
  | (none, server) => (none, server)

def publish (event : Event) (bus : RedisStreamsBus σ) :
    Except PyError Unit × RedisStreamsBus σ :=
  match event.validate with
  | .error e => (.error e, bus)
  | .ok () =>
      match config.json.dumps (.dict event.toDict) with
      | .error e => (.error e, bus)
      | .ok body =>
          let added := config.client.xadd config.stream [("payload", body)]
            config.maxLen bus.server
          (.ok (),
            { bus with server := added.2, published := bus.published ++ [added.1] })

def readEvent (json : JsonHost) (payloadStr : String) :
    Except PyError (Option Event) :=
  match json.loads payloadStr with
  | .error e => .error e
  | .ok (.dict d) =>
      if (d.lookup "event_id").isSome && (d.lookup "payload").isSome then
        (json.fromDict d).map some
      else .ok none
  | .ok _ => .ok none

/-- What `poll` makes of a message: an event, nothing, or an exception that it does not
catch. -/
def readMessage (json : JsonHost) (fields : Fields) : Except PyError (Option Event) :=
  match fields.lookup "payload" with
  | none => .ok none
  | some payloadStr =>
      if payloadStr = "" then .ok none
      else
        match readEvent json payloadStr with
        | .error .jsonDecodeError => .ok none
        | .error (.keyError _) => .ok none
        | .error (.typeError _) => .ok none
        | outcome => outcome

def readMessages (json : JsonHost) :
    List Message → List (String × Event) × Option PyError
  | [] => ([], none)
  | (msgId, fields) :: messages =>
      match readMessage json fields with
      | .error e => ([], some e)
      | .ok none => readMessages json messages
      | .ok (some event) =>
          let rest := readMessages json messages
          ((msgId, event) :: rest.1, rest.2)

def streamMessages (stream : String) (raw : List (String × List Message)) :
    List Message :=
  raw.flatMap fun entry => if entry.1 = stream then entry.2 else []

def poll (group consumer : String) (maxEvents : ℤ) (timeoutS : ℚ)
    (bus : RedisStreamsBus σ) :
    Except PyError (List (String × Event)) × RedisStreamsBus σ :=
  match ensureConsumerGroup config group bus.server with
  | (some text, server) => (.error (.runtimeError text), { bus with server })
  | (none, server) =>
      match config.client.xreadgroup config.stream group consumer maxEvents
          (max 1 (timeoutS * 1000).floor) server with
      | (.error e, server) => (.error e, { bus with server })
      | (.ok raw, server) =>
          let read := readMessages config.json (streamMessages config.stream raw)
          let bus' : RedisStreamsBus σ :=
            { bus with
              server
              pending := read.1.foldl
                (fun pending entry => pending.set entry.2.eventId entry.1) Dict.empty }
          match read.2 with
          | some e => (.error e, bus')
          | none => (.ok read.1, bus')

def ack (group eventId : String) (bus : RedisStreamsBus σ) : RedisStreamsBus σ :=
  match bus.pending.get? eventId with
  | none => bus
  | some redisId =>
      let done := config.client.xack config.stream group redisId bus.server
      { bus with
        server := done.2
        pending := bus.pending.filter fun k _ => k ≠ eventId
        acked := if 0 < done.1 then bus.acked ++ [(group, redisId)] else bus.acked }

end RedisStreamsBus

inductive RedisCall where
  | publish (event : Event)
  | poll (group consumer : String) (maxEvents : ℤ) (timeoutS : ℚ)
  | ack (group consumer eventId : String)

def RedisStreamsBus.step {σ : Type} (config : RedisConfig σ) (bus : RedisStreamsBus σ) :
    RedisCall → RedisStreamsBus σ × Except PyError (List Event)
  | .publish event =>
      ((publish config event bus).2, (publish config event bus).1.map fun _ => [])
  | .poll group consumer maxEvents timeoutS =>
      let done := poll config group consumer maxEvents timeoutS bus
      (done.2, done.1.map fun out => out.map Prod.snd)
  | .ack group _ eventId => (ack config group eventId bus, .ok [])

def redisMachine {σ : Type} (config : RedisConfig σ) :
    Machine (RedisStreamsBus σ) RedisCall (Except PyError (List Event)) where
  step := RedisStreamsBus.step config

end Hydrogenuine.Realtime
