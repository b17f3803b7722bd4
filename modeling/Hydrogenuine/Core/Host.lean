import Hydrogenuine.Support.PyValue

/-!
# Host services

What the modules below take from the interpreter and its standard library:
SHA-256 over canonical JSON, ISO-8601 parsing and formatting, random
identifiers, the reading of integers and the rendering of containers.  They are fields of one structure,
so that every result holds for whatever these services return; the only law
among the fields is that `uuid4` never repeats a value.

`hg_core/governance/canonical_hash.py` and `hg_core/time` are embedded over
them.
-/

namespace Hydrogenuine.Core

open Support

/-- What is read off a parsed `datetime`: the clock fields as written, whether
an offset was given, and the instant in microseconds. -/
structure Datetime where
  hour : ℕ
  minute : ℕ
  aware : Bool
  instant : ℤ
deriving DecidableEq

/-- Exceptions the modelled code raises, with their texts. -/
inductive PyError where
  | valueError (message : String)
  | typeError (message : String)
  | keyError (key : String)
  | indexError
  | overflowError
  | leaseTransition (message : String)
  | leaseAuthority (message : String)
  | delegation (message : String)
  | bindValidation (message : String)
  | attributeError (message : String)
  | jsonDecodeError
  | contractViolation (message : String)
  | busError (message : String)
  | busWriteError (seq : ℤ)
  | osError (message : String)
  | runtimeError (message : String)
deriving DecidableEq

/-- The interpreter and standard-library services. -/
structure Host where
  /-- Hex digest of the canonical JSON encoding of a value. -/
  sha256Hex : PyVal → String
  /-- `datetime.fromisoformat`, `none` on `ValueError`. -/
  fromisoformat : String → Option Datetime
  /-- An instant as UTC text with milliseconds and `Z`, `none` on overflow. -/
  formatMillisZ : ℤ → Option String
  /-- The digits taken from the `n`-th `uuid4()` of the process. -/
  uuidHex : ℕ → String
  uuidHex_injective : Function.Injective uuidHex
  /-- `str` of a list or a dictionary. -/
  renderContainer : PyVal → String
  /-- Hex digest of the UTF-8 encoding of a text. -/
  sha256Text : String → String
  /-- `int` of a text, `none` on `ValueError`. -/
  parseInt : String → Option ℤ

namespace Host

variable (host : Host)

def canonicalHash (value : PyVal) : String := "sha256:" ++ host.sha256Hex value

def str (value : PyVal) : String := value.render host.renderContainer

/-- `str(v or text)`. -/
def strOr (value : PyVal) (text : String) : String :=
  if value.truthy then host.str value else text

/-- The error of `int` on a value that is no number. -/
def noInteger (typeName : String) : PyError :=
  .typeError ("int() argument must be a string, a bytes-like object or a real " ++
    "number, not '" ++ typeName ++ "'")

/-- `int(v)`. -/
def toInt : PyVal → Except PyError ℤ
  | .none => .error (noInteger "NoneType")
  | .bool b => .ok (if b then 1 else 0)
  | .int n => .ok n
  | .float (.finite q _) => .ok (q.num.tdiv q.den)
  | .float (.inf _) => .error .overflowError
  | .float .nan => .error (.valueError "cannot convert float NaN to integer")
  | .str text =>
      match host.parseInt text with
      | some n => .ok n
      | none => .error (.valueError
          ("invalid literal for int() with base 10: '" ++ text ++ "'"))
  | .list _ => .error (noInteger "list")
  | .dict _ => .error (noInteger "dict")

/-- `stable_id(prefix, *parts)` of the handler contract. -/
def stableId (tag : String) (parts : List String) : String :=
  tag ++ "_" ++ slice (host.sha256Text ("\x1f".intercalate parts)) 0 16

end Host

/-! ## `hg_core.time` -/

/-- `value.replace("Z", "+00:00")`. -/
def replaceZ (value : String) : String :=
  String.ofList
    (value.toList.flatMap fun c => if c = 'Z' then "+00:00".toList else [c])

/-- `parse_rfc3339_z`: `none` on malformed text and on a missing offset. -/
def parseRfc3339Z (host : Host) (value : String) : Option Datetime :=
  if value = "" then none
  else if endsWith value "Z" then host.fromisoformat (replaceZ value)
  else
    match host.fromisoformat value with
    | none => none
    | some parsed => if parsed.aware then some parsed else none

/-- `is_expired`: fail closed on unknown, refuse at `expires_at`. -/
def isExpired (host : Host) (expiresAt now : String) : Bool :=
  match parseRfc3339Z host expiresAt, parseRfc3339Z host now with
  | some expiry, some current => decide (expiry.instant ≤ current.instant)
  | _, _ => true

def staleApproval : String := "admission.refused.stale_approval"

def validateApprovalWindow
    (host : Host) (expiresAt : Option String) (now : String) : Bool × String :=
  match expiresAt with
  | none => (true, "ok")
  | some text =>
      if text = "" then (true, "ok")
      else if isExpired host text now then (false, staleApproval)
      else (true, "ok")

theorem isExpired_eq_false_iff
    (host : Host) (expiresAt now : String) :
    isExpired host expiresAt now = false ↔
      ∃ expiry current,
        parseRfc3339Z host expiresAt = some expiry ∧
          parseRfc3339Z host now = some current ∧
          current.instant < expiry.instant := by
  unfold isExpired
  cases parseRfc3339Z host expiresAt with
  | none => simp
  | some expiry =>
      cases parseRfc3339Z host now with
      | none => simp
      | some current => simp

end Hydrogenuine.Core
