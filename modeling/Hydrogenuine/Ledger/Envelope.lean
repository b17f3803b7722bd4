import Hydrogenuine.Core.Host

/-!
# Ledger envelopes

`hg_core/ledger/event_envelope.py`: the body that is hashed, the identifier that
is the hash of its canonical JSON, signing and verifying.  Keys are written in
the order of the source; the hash is taken of the canonical form, in which the
order of the keys is lost.
-/

namespace Hydrogenuine.Ledger

open Support Hydrogenuine.Core

abbrev LedgerEvent := List (String × PyVal)

/-- Signatures over a message, which is a value in canonical form. -/
structure Crypto where
  sign : PyVal → String → String
  verify : PyVal → PyVal → PyVal → Bool

def bodyForHash (event : LedgerEvent) : PyVal :=
  .dict [
    ("prev_hash", PyVal.getItem event "prev_hash"),
    ("actor", PyVal.getItem event "actor"),
    ("ts", PyVal.getItem event "ts"),
    ("scope", PyVal.getItem event "scope"),
    ("action", PyVal.getItem event "action"),
    ("object", PyVal.getItem event "object"),
    ("payload", PyVal.getItem event "payload")]

def computeEventId (host : Host) (body : PyVal) : String :=
  host.sha256Hex body.canonical

/-- What `build_envelope` is called with. -/
structure EnvelopeArgs where
  action : String
  objectType : String
  objectId : String
  payload : PyVal
  scope : List (String × PyVal)
  actor : PyVal
  ts : String
  objectPath : Option String
  secretKeyHex : Option String

namespace EnvelopeArgs

variable (args : EnvelopeArgs)

def object : PyVal :=
  .dict ([("type", .str args.objectType), ("id", .str args.objectId)] ++
    match args.objectPath with
    | some path => [("path", .str path)]
    | none => [])

/-- The body as `build_envelope` puts it together. -/
def body (prevHash : PyVal) : PyVal :=
  .dict [
    ("prev_hash", prevHash),
    ("ts", .str args.ts),
    ("scope", .dict args.scope),
    ("actor", args.actor),
    ("action", .str args.action),
    ("object", args.object),
    ("payload", args.payload)]

def unsigned (host : Host) (prevHash : PyVal) (sig : String) : LedgerEvent :=
  [("event_id", .str (computeEventId host (args.body prevHash))),
    ("prev_hash", prevHash),
    ("ts", .str args.ts),
    ("scope", .dict args.scope),
    ("actor", args.actor),
    ("action", .str args.action),
    ("object", args.object),
    ("payload", args.payload),
    ("sig", .str sig)]

end EnvelopeArgs

def buildEnvelope
    (host : Host) (crypto : Crypto) (args : EnvelopeArgs) (prevHash : PyVal) :
    LedgerEvent :=
  let envelope := args.unsigned host prevHash ""
  match args.secretKeyHex with
  | some key =>
      if key = "" then envelope
      else args.unsigned host prevHash
        (crypto.sign (bodyForHash envelope).canonical key)
  | none => envelope

def verifyEnvelope
    (host : Host) (crypto : Crypto) (event : LedgerEvent) :
    Except PyError Bool :=
  let body := bodyForHash event
  let eventId := PyVal.getItem event "event_id"
  if !(PyVal.str (computeEventId host body)).pyEq eventId then .ok false
  else
    let sig := PyVal.getItem event "sig"
    if sig.truthy then
      match (PyVal.item? event "actor").getD (.dict []) with
      | .dict actor =>
          let pubkey := PyVal.getItem actor "pubkey"
          if pubkey.truthy then
            .ok (crypto.verify body.canonical sig pubkey)
          else .ok true
      | _ => .error (.attributeError "get")
    else .ok true

/-! ## Building and hashing -/

theorem bodyForHash_unsigned
    (args : EnvelopeArgs) (host : Host) (prevHash : PyVal) (sig : String) :
    bodyForHash (args.unsigned host prevHash sig) =
      .dict [
        ("prev_hash", prevHash),
        ("actor", args.actor),
        ("ts", .str args.ts),
        ("scope", .dict args.scope),
        ("action", .str args.action),
        ("object", args.object),
        ("payload", args.payload)] :=
  rfl

theorem canonical_bodyForHash
    (args : EnvelopeArgs) (host : Host) (prevHash : PyVal) (sig : String) :
    (bodyForHash (args.unsigned host prevHash sig)).canonical =
      (args.body prevHash).canonical := by
  rw [bodyForHash_unsigned, EnvelopeArgs.body]
  refine PyVal.canonical_dict_of_perm (List.Perm.cons _ ?_) (by simp)
  exact (List.Perm.swap _ _ _).trans ((List.Perm.swap _ _ _).cons _)

theorem buildEnvelope_eq
    (host : Host) (crypto : Crypto) (args : EnvelopeArgs) (prevHash : PyVal) :
    ∃ sig, buildEnvelope host crypto args prevHash =
      args.unsigned host prevHash sig := by
  unfold buildEnvelope
  split
  · split_ifs
    · exact ⟨"", rfl⟩
    · exact ⟨_, rfl⟩
  · exact ⟨"", rfl⟩

theorem buildEnvelope_id
    (host : Host) (crypto : Crypto) (args : EnvelopeArgs) (prevHash : PyVal) :
    PyVal.getItem (buildEnvelope host crypto args prevHash) "event_id" =
      .str (computeEventId host
        (bodyForHash (buildEnvelope host crypto args prevHash))) := by
  obtain ⟨sig, hbuilt⟩ := buildEnvelope_eq host crypto args prevHash
  rw [hbuilt, computeEventId, canonical_bodyForHash]
  rfl

theorem buildEnvelope_prevHash
    (host : Host) (crypto : Crypto) (args : EnvelopeArgs) (prevHash : PyVal) :
    PyVal.getItem (buildEnvelope host crypto args prevHash) "prev_hash" =
      prevHash := by
  obtain ⟨sig, hbuilt⟩ := buildEnvelope_eq host crypto args prevHash
  rw [hbuilt]
  rfl

theorem buildEnvelope_scope
    (host : Host) (crypto : Crypto) (args : EnvelopeArgs) (prevHash : PyVal) :
    PyVal.getItem (buildEnvelope host crypto args prevHash) "scope" =
      .dict args.scope := by
  obtain ⟨sig, hbuilt⟩ := buildEnvelope_eq host crypto args prevHash
  rw [hbuilt]
  rfl

end Hydrogenuine.Ledger
