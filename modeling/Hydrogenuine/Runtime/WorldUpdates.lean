import Hydrogenuine.Runtime.Bus
import Hydrogenuine.Support.Schema

/-!
# Reading events into the world state

What the branches of `apply` in `hg_runtime/world_state.py` are made of: the
values that a branch reads off an event, and the changes that it makes to the
nested dictionaries of the state.  Reading depends on the event alone; of the
changes, only one depends on what the state holds.

The reducer meets an event in two forms: as the immutable view that `emit`
returns, in which dictionaries are mapping proxies and lists are tuples, and as
the plain JSON that is read back from the log.  JSON encoding refuses a proxy, so
a state that holds one has no JSON text.
-/

namespace Hydrogenuine.Runtime

open Support Hydrogenuine.Core

/-! ## Results -/

section Results

variable {α β : Type} {x : Except PyError α} {b : β}

theorem bind_eq_ok_iff {f : α → Except PyError β} :
    (x >>= f) = .ok b ↔ ∃ a, x = .ok a ∧ f a = .ok b := by
  cases x with
  | error e => simp [bind, Except.bind]
  | ok a => simp [bind, Except.bind]

theorem map_eq_ok_iff {f : α → β} :
    x.map f = .ok b ↔ ∃ a, x = .ok a ∧ f a = b := by
  cases x with
  | error e => simp [Except.map]
  | ok a => simp [Except.map]

end Results

/-! ## Values in a state -/

/-- What is put into a state: as its JSON text reads back, whether it has a JSON
text, and whether the keys of every dictionary in it can be sorted. -/
structure Held (α : Type) where
  value : α
  encodes : Bool
  sorts : Bool

namespace Held

variable {α β : Type}

def plain (value : α) : Held α := ⟨value, true, true⟩

def map (f : α → β) (h : Held α) : Held β := ⟨f h.value, h.encodes, h.sorts⟩

/-- JSON encoding succeeds, with sorted keys and without. -/
def Sound (h : Held α) : Prop := h.encodes = true ∧ h.sorts = true

instance (h : Held α) : Decidable h.Sound := inferInstanceAs (Decidable (_ ∧ _))

@[simp] theorem plain_sound (value : α) : (plain value).Sound := ⟨rfl, rfl⟩

@[simp] theorem map_sound (f : α → β) (h : Held α) :
    (h.map f).Sound ↔ h.Sound := Iff.rfl

end Held

/-- How an event is read: from the view that `emit` returns (`live`), or from
the log. -/
structure Reader where
  host : Host
  /-- `str` of a tuple or of a mapping proxy. -/
  renderView : PyVal → String
  live : Bool

/-- What a branch reads: the event, its type, payload and id. -/
structure Incoming where
  event : Record
  type : String
  payload : PyVal
  eventId : PyVal

mutual

def hasMapping : PyVal → Bool
  | .dict _ => true
  | .list items => hasMappingList items
  | _ => false

def hasMappingList : List PyVal → Bool
  | [] => false
  | v :: vs => hasMapping v || hasMappingList vs

end

namespace Reader

variable (r : Reader)

def str (v : PyVal) : String :=
  if r.live then v.render r.renderView else r.host.str v

def hold (v : PyVal) : Held PyVal := ⟨v, !(r.live && hasMapping v), true⟩

/-- Whether a value of the event can be the key of a dictionary. -/
def hashable : PyVal → Bool
  | .dict _ => false
  | .list items => r.live && !hasMappingList items
  | _ => true

/-- An element of a sequence that `dict` turns into an entry. -/
def entryOf (element : PyVal) : Except PyError (PyVal × PyVal) := do
  let parts ← listOf element
  match parts with
  | [key, value] =>
      if r.hashable key then return (key, value)
      else throw (.typeError "unhashable type")
  | _ => throw (.valueError
      "dictionary update sequence element has not length 2")

end Reader

/-- The text of a dictionary key in JSON, unless JSON refuses the key. -/
def keyText : PyVal → Option String
  | .none => some "null"
  | .bool b => some (if b then "true" else "false")
  | .int n => some (toString n)
  | .float (.finite _ repr) => some repr
  | .float (.inf negative) => some (if negative then "-Infinity" else "Infinity")
  | .float .nan => some "NaN"
  | .str text => some text
  | _ => none

/-- `d[k] = v` for keys of any type: an equal key stays. -/
def assignKey (k v : PyVal) : List (PyVal × PyVal) → List (PyVal × PyVal)
  | [] => [(k, v)]
  | (k', v') :: rest =>
      if k'.pyEq k then (k', v) :: rest else (k', v') :: assignKey k v rest

/-- The entries as JSON reads them back: of several entries with one text for a
key, the last. -/
def readBack (entries : List (PyVal × PyVal)) : List (String × PyVal) :=
  entries.foldl (fun items entry =>
    match keyText entry.1 with
    | some key => PyVal.setItem items key entry.2
    | none => items) []

namespace Reader

variable (r : Reader)

/-- `dict(v)`. -/
def mapping (v : PyVal) : Except PyError (Held PyVal) :=
  match v with
  | .dict items =>
      .ok ⟨.dict items, !(r.live && items.any fun item => hasMapping item.2),
        true⟩
  | v => do
      let elements ← listOf v
      let pairs ← elements.mapM r.entryOf
      let entries := pairs.foldl (fun entries pair =>
        assignKey pair.1 pair.2 entries) []
      return ⟨.dict (readBack entries),
        entries.all fun entry =>
          (keyText entry.1).isSome && !(r.live && hasMapping entry.2),
        decide (entries.Pairwise fun (a b : PyVal × PyVal) => (a.1.pyLt b.1).isSome = true)⟩

/-- The integer that `int` makes of the value of an entry. -/
def countOf (item : String × PyVal) : Except PyError (String × ℤ) := do
  let n ← r.host.toInt item.2
  return (item.1, n)

/-- `{name: int(value) for name, value in v.items() if int(value) > 0}`. -/
def positive : PyVal → Except PyError (Held PyVal)
  | .dict items => do
      let counts ← items.mapM r.countOf
      return .plain (.dict ((counts.filter fun count => 0 < count.2).map
        fun count => (count.1, .int count.2)))
  | _ => .error (.attributeError "items")

end Reader

/-! ## Sources -/

/-- Where a branch takes a value from. -/
inductive Source where
  | const (v : PyVal)
  | eventId
  | eventType
  /-- `event[k]` -/
  | field (k : String)
  | payload
  /-- `v.get(k, d)` -/
  | item (v : Source) (k : String) (d : Source)
  /-- `v.get(k, d)` of a mapping, and `d` of anything else -/
  | sub (v : Source) (k : String) (d : Source)
  /-- `str(v)` -/
  | text (v : Source)
  /-- `int(v)` -/
  | number (v : Source)
  /-- `v or w` -/
  | orElse (v w : Source)
  /-- `[v, w]` -/
  | pair (v w : Source)
  /-- `list(v)` -/
  | elements (v : Source)
  /-- `dict(v)` -/
  | mapping (v : Source)
  /-- the entries of `v` with a positive integer -/
  | positive (v : Source)

namespace Source

/-- `payload.get(k, d)`. -/
def getOr (k : String) (d : PyVal) : Source := .item .payload k (.const d)

def get (k : String) : Source := .getOr k .none

/-- `str(payload.get(k, d))`. -/
def textOf (k d : String) : Source := .text (.getOr k (.str d))

def read (r : Reader) (e : Incoming) : Source → Except PyError (Held PyVal)
  | .const v => .ok (.plain v)
  | .eventId => .ok (r.hold e.eventId)
  | .eventType => .ok (.plain (.str e.type))
  | .field k => do
      let v ← Bus.field e.event k
      return r.hold v
  | .payload => .ok (r.hold e.payload)
  | .item v k d => do
      let v ← v.read r e
      match v.value with
      | .dict items =>
          match PyVal.item? items k with
          | some x => return r.hold x
          | none => d.read r e
      | _ => throw (.attributeError "get")
  | .sub v k d => do
      let v ← v.read r e
      match v.value with
      | .dict items =>
          match PyVal.item? items k with
          | some x => return r.hold x
          | none => d.read r e
      | _ => d.read r e
  | .text v => do
      let v ← v.read r e
      return .plain (.str (r.str v.value))
  | .number v => do
      let v ← v.read r e
      let n ← r.host.toInt v.value
      return .plain (.int n)
  | .orElse v w => do
      let v ← v.read r e
      if v.value.truthy then return v else w.read r e
  | .pair v w => do
      let v ← v.read r e
      let w ← w.read r e
      return ⟨.list [v.value, w.value], v.encodes && w.encodes,
        v.sorts && w.sorts⟩
  | .elements v => do
      let v ← v.read r e
      let items ← listOf v.value
      return r.hold (.list items)
  | .mapping v => do
      let v ← v.read r e
      r.mapping v.value
  | .positive v => do
      let v ← v.read r e
      r.positive v.value

def readItems (r : Reader) (e : Incoming) :
    List (String × Source) → Except PyError (Held (List (String × PyVal)))
  | [] => .ok (.plain [])
  | (k, v) :: rest => do
      let v ← v.read r e
      let rest ← readItems r e rest
      return ⟨(k, v.value) :: rest.value, v.encodes && rest.encodes,
        v.sorts && rest.sorts⟩

end Source

/-! ## Writes -/

/-- What a branch changes once the event is read. -/
inductive Write where
  /-- `s[..] = v` -/
  | set (path : List String) (v : PyVal)
  /-- `s[..] += n` -/
  | add (path : List String) (n : ℤ)
  /-- `s[..] = _push(s[..], item, cap)` -/
  | push (path : List String) (item : PyVal) (cap : ℕ)
  /-- `counts = s[..]; counts[key] = counts.get(key, 0) + 1` -/
  | count (path : List String) (key : String)
  /-- `s[..][key] = v` -/
  | enter (path : List String) (key : String) (v : PyVal)
  /-- a turn of a conversation -/
  | turn (session : String) (item eventId : PyVal)
  /-- an arousal signal of a class, if it has one -/
  | signal (signalClass : Option String) (severity : ℤ)
  /-- a readiness check that failed -/
  | failedCheck (checkId : PyVal)

/-- `_push`. -/
def pushRing (ring : List PyVal) (item : PyVal) (cap : ℕ) : List PyVal :=
  let out := ring ++ [item]
  out.drop (out.length - cap)

def conversationTurnsMax : ℕ := 16

namespace Write

def wrongType : PyError := .typeError "unsupported value in the state"

def addTurn (item eventId conversation : PyVal) : Except PyError PyVal :=
  match conversation with
  | .dict items =>
      match PyVal.item? items "turns" with
      | some (.list turns) => .ok (.dict (PyVal.setItem
          (PyVal.setItem items "turns"
            (.list (pushRing turns item conversationTurnsMax)))
          "last_event_id" eventId))
      | some _ => .error wrongType
      | none => .error (.keyError "turns")
  | _ => .error wrongType

def newConversation : PyVal :=
  .dict [("turns", .list []), ("last_event_id", .none)]

def noteDimension (host : Host) (signalClass : String) (severity : ℤ)
    (dimensions : List (String × PyVal)) :
    Except PyError (List (String × PyVal)) := do
  let noted ← host.toInt ((PyVal.item? dimensions signalClass).getD (.int 0))
  return PyVal.setItem dimensions signalClass (.int (max noted severity))

def noteClass (host : Host) (signalClass : Option String) (severity : ℤ)
    (dimensions : List (String × PyVal)) :
    Except PyError (List (String × PyVal)) :=
  match signalClass with
  | none => .ok dimensions
  | some name => noteDimension host name severity dimensions

def noteSignal (host : Host) (signalClass : Option String) (severity : ℤ)
    (arousal : PyVal) : Except PyError PyVal :=
  match arousal with
  | .dict items =>
      match (PyVal.item? items "dimensions").getD (.dict []) with
      | .dict dimensions => do
          let dimensions ← noteClass host signalClass severity dimensions
          let highest ←
            host.toInt ((PyVal.item? items "max_severity").getD (.int 0))
          return .dict
            [("max_severity", .int (max highest severity)),
              ("dimensions", .dict dimensions)]
      | _ => .error wrongType
  | _ => .error wrongType

def rewrite (host : Host) : Write → PyVal → Except PyError PyVal
  | .set _ v, _ => .ok v
  | .add _ n, .int m => .ok (.int (m + n))
  | .push _ item cap, .list ring => .ok (.list (pushRing ring item cap))
  | .count _ key, .dict counts =>
      match (PyVal.item? counts key).getD (.int 0) with
      | .int n => .ok (.dict (PyVal.setItem counts key (.int (n + 1))))
      | _ => .error wrongType
  | .enter _ key v, .dict items => .ok (.dict (PyVal.setItem items key v))
  | .turn session item eventId, .dict conversations => do
      let conversation ← addTurn item eventId
        ((PyVal.item? conversations session).getD newConversation)
      return .dict (PyVal.setItem conversations session conversation)
  | .signal signalClass severity, arousal =>
      noteSignal host signalClass severity arousal
  | .failedCheck checkId, .dict items =>
      match (PyVal.item? items "failed_readiness_checks").getD (.list []) with
      | .list failed => .ok (.dict (PyVal.setItem items
          "failed_readiness_checks" (.list (failed ++ [checkId]))))
      | _ => .ok (.dict items)
  | _, _ => .error wrongType

def path : Write → List String
  | .set path _ => path
  | .add path _ => path
  | .push path _ _ => path
  | .count path _ => path
  | .enter path _ _ => path
  | .turn _ _ _ => ["conversations"]
  | .signal _ _ => ["environment", "arousal"]
  | .failedCheck _ => ["self"]

def perform (host : Host) (s : PyVal) (w : Write) : Except PyError PyVal :=
  updateAt PyError.keyError (w.rewrite host) w.path s

end Write

/-! ## Updates -/

/-- A statement of a branch. -/
inductive Update where
  /-- `s[..][k] = v` -/
  | put (path : List String) (k : String) (v : Source)
  /-- `s[..][k] = {..}` -/
  | putRecord (path : List String) (k : String) (fields : List (String × Source))
  /-- `s[..] += n` -/
  | add (path : List String) (n : Source)
  /-- count in a group of the activity if `v` is among the words -/
  | bumpWhen (v : Source) (words : List String) (group name : String)
  /-- count in a group of the activity if `v` is `None` -/
  | bumpUnless (v : Source) (group name : String)
  /-- `s[..] = _push(s[..], {..}, cap)` -/
  | push (path : List String) (fields : List (String × Source)) (cap : ℕ)
  /-- `counts = s[..]; counts[key] = counts.get(key, 0) + 1` -/
  | count (path : List String) (key : Source)
  /-- `s[..][key] = {..}` -/
  | entry (path : List String) (key : Source) (fields : List (String × Source))
  /-- the same, if `owner` is a mapping -/
  | entryOf (owner : Source) (path : List String) (key : Source)
      (fields : List (String × Source))
  /-- a turn of the conversation of a session -/
  | converse (session : Source) (fields : List (String × Source))
  /-- an arousal signal -/
  | noteSignal
  /-- the end of a recovery cycle -/
  | noteRecovered
  /-- a readiness check, if it failed -/
  | noteFailedCheck

namespace Update

/-- `s["activity"][group][name] += 1`. -/
def bump (group name : String) : Update :=
  .add ["activity", group, name] (.const (.int 1))

def asText : PyVal → String
  | .str text => text
  | _ => ""

/-- `s["activity"][group][name] += 1`, if the condition holds. -/
def bumpIf (condition : Bool) (group name : String) : Held (Option Write) :=
  .plain (if condition then some (.add ["activity", group, name] 1) else none)

/-- `s[path][key] = {..}`. -/
def enterRecord (r : Reader) (e : Incoming) (path : List String) (key : Source)
    (fields : List (String × Source)) :
    Except PyError (Held (Option Write)) := do
  let key ← key.read r e
  let fields ← Source.readItems r e fields
  return fields.map fun items =>
    some (.enter path (asText key.value) (.dict items))

/-- The write that a statement comes down to on an event, if there is one. -/
def write (r : Reader) (e : Incoming) :
    Update → Except PyError (Held (Option Write))
  | .put path k v => do
      let v ← v.read r e
      return v.map fun v => some (.set (path ++ [k]) v)
  | .putRecord path k fields => do
      let fields ← Source.readItems r e fields
      return fields.map fun items => some (.set (path ++ [k]) (.dict items))
  | .add path n => do
      let n ← n.read r e
      match n.value with
      | .int n => return .plain (some (.add path n))
      | _ => throw Write.wrongType
  | .bumpWhen v words group name => do
      let v ← v.read r e
      return bumpIf (words.contains (asText v.value)) group name
  | .bumpUnless v group name => do
      let v ← v.read r e
      return bumpIf (v.value.pyEq .none) group name
  | .push path fields cap => do
      let fields ← Source.readItems r e fields
      return fields.map fun items => some (.push path (.dict items) cap)
  | .count path key => do
      let key ← key.read r e
      return .plain (some (.count path (asText key.value)))
  | .entry path key fields => enterRecord r e path key fields
  | .entryOf owner path key fields => do
      let owner ← owner.read r e
      match owner.value with
      | .dict _ => enterRecord r e path key fields
      | _ => return .plain none
  | .converse session fields => do
      let session ← session.read r e
      let fields ← Source.readItems r e fields
      return fields.map fun items =>
        some (.turn (asText session.value) (.dict items) e.eventId)
  | .noteSignal => do
      let signalClass ← (Source.get "class").read r e
      let severity ← (Source.number (.getOr "severity" (.int 0))).read r e
      match severity.value with
      | .int n =>
          let name := if signalClass.value.truthy
            then some (r.str signalClass.value) else none
          return .plain (some (.signal name n))
      | _ => throw Write.wrongType
  | .noteRecovered => do
      let state ← (Source.get "state").read r e
      let cycleId ← (Source.get "cycle_id").read r e
      if state.value.pyEq (.str "NORMAL") && cycleId.value.truthy then
        return cycleId.map fun v => some (.set ["self", "last_recovery_cycle"] v)
      else return .plain none
  -- A mapping proxy is no `dict`, so the check of a view is passed over.
  | .noteFailedCheck => do
      let check ← (Source.getOr "check" (.dict [])).read r e
      match check.value with
      | .dict items =>
          if !r.live && (PyVal.getItem items "status").pyEq (.str "fail") then
            return .plain (some (.failedCheck (PyVal.getItem items "check_id")))
          else return .plain none
      | _ => return .plain none

def target : Update → List String
  | .put path k _ => path ++ [k]
  | .putRecord path k _ => path ++ [k]
  | .add path _ => path
  | .bumpWhen _ _ group name => ["activity", group, name]
  | .bumpUnless _ group name => ["activity", group, name]
  | .push path _ _ => path
  | .count path _ => path
  | .entry path _ _ => path
  | .entryOf _ path _ _ => path
  | .converse _ _ => ["conversations"]
  | .noteSignal => ["environment", "arousal"]
  | .noteRecovered => ["self", "last_recovery_cycle"]
  | .noteFailedCheck => ["self"]

def perform (host : Host) (s : PyVal) : Option Write → Except PyError PyVal
  | some w => w.perform host s
  | none => .ok s

def run (r : Reader) (e : Incoming) (s : Held PyVal) (u : Update) :
    Except PyError (Held PyVal) := do
  let w ← u.write r e
  let value ← perform r.host s.value w.value
  return ⟨value, s.encodes && w.encodes, s.sorts && w.sorts⟩

end Update

end Hydrogenuine.Runtime
