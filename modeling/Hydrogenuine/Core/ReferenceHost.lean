import Hydrogenuine.Core.Host

/-!
# A reference host

Host services that can be evaluated.  Timestamps are read and written in the
form the code itself produces, `YYYY-MM-DDTHH:MM:SS` with optional milliseconds
and an optional offset, and a multiplicative digest of the canonical encoding
stands in for SHA-256: it is deterministic, has the same length, and spreads
over all of its digits.
-/

namespace Hydrogenuine.Core

open Support

/-! ## Timestamps -/

def readDigits : ℕ → List Char → Option (ℕ × List Char)
  | 0, cs => some (0, cs)
  | n + 1, c :: cs =>
      if c.isDigit then
        (readDigits n cs).map fun (value, rest) =>
          ((c.toNat - 48) * 10 ^ n + value, rest)
      else none
  | _ + 1, [] => none

def readChar (expected : Char) : List Char → Option (List Char)
  | c :: cs => if c = expected then some cs else none
  | [] => none

def daysFromCivil (year month day : ℤ) : ℤ :=
  let y := if month ≤ 2 then year - 1 else year
  let era := y / 400
  let yoe := y - era * 400
  let doy := (153 * (if 2 < month then month - 3 else month + 9) + 2) / 5 +
    day - 1
  era * 146097 + (yoe * 365 + yoe / 4 - yoe / 100 + doy) - 719468

def civilFromDays (days : ℤ) : ℤ × ℤ × ℤ :=
  let z := days + 719468
  let era := z / 146097
  let doe := z - era * 146097
  let yoe := (doe - doe / 1460 + doe / 36524 - doe / 146096) / 365
  let doy := doe - (365 * yoe + yoe / 4 - yoe / 100)
  let mp := (5 * doy + 2) / 153
  let month := if mp < 10 then mp + 3 else mp - 9
  (yoe + era * 400 + (if month ≤ 2 then 1 else 0), month,
    doy - (153 * mp + 2) / 5 + 1)

def readOffset : List Char → Option (Option ℤ)
  | [] => some none
  | sign :: cs => do
      let (hours, cs) ← readDigits 2 cs
      let cs ← readChar ':' cs
      let (minutes, cs) ← readDigits 2 cs
      guard (cs = [])
      let offset : ℤ := hours * 60 + minutes
      if sign = '+' then some (some offset)
      else if sign = '-' then some (some (-offset))
      else none

def readMillis : List Char → Option (ℕ × List Char)
  | '.' :: cs => readDigits 3 cs
  | cs => some (0, cs)

def readTimestamp (text : String) : Option Datetime := do
  let (year, cs) ← readDigits 4 text.toList
  let cs ← readChar '-' cs
  let (month, cs) ← readDigits 2 cs
  let cs ← readChar '-' cs
  let (day, cs) ← readDigits 2 cs
  let cs ← readChar 'T' cs
  let (hour, cs) ← readDigits 2 cs
  let cs ← readChar ':' cs
  let (minute, cs) ← readDigits 2 cs
  let cs ← readChar ':' cs
  let (second, cs) ← readDigits 2 cs
  let (millis, cs) ← readMillis cs
  let offset ← readOffset cs
  guard (1 ≤ month ∧ month ≤ 12 ∧ 1 ≤ day ∧ day ≤ 31 ∧ hour ≤ 23 ∧
    minute ≤ 59 ∧ second ≤ 59)
  let minutes : ℤ :=
    daysFromCivil year month day * 1440 + hour * 60 + minute - offset.getD 0
  some
    { hour := hour
      minute := minute
      aware := offset.isSome
      instant := ((minutes * 60 + second) * 1000 + millis) * 1000 }

/-- The last `width` decimal digits of a number. -/
def padded (width : ℕ) (n : ℤ) : List Char :=
  (List.range width).reverse.map fun i =>
    Nat.digitChar ((n.toNat / 10 ^ i) % 10)

def writeMillisZ (instant : ℤ) : Option String :=
  let millis := instant / 1000
  let days := millis / 86400000
  let rest := millis - days * 86400000
  let (year, month, day) := civilFromDays days
  if year < 1 ∨ 9999 < year then none
  else
    some (String.ofList
      (padded 4 year ++ '-' :: padded 2 month ++ '-' :: padded 2 day ++
        'T' :: padded 2 (rest / 3600000) ++
        ':' :: padded 2 (rest / 60000 % 60) ++
        ':' :: padded 2 (rest / 1000 % 60) ++
        '.' :: padded 3 (rest % 1000) ++ ['Z']))

/-! ## Digests -/

def utf8 (text : String) : List UInt8 := text.toByteArray.data.toList

mutual

def encode : PyVal → List UInt8
  | .none => utf8 "null"
  | .bool b => if b then utf8 "true" else utf8 "false"
  | .int n => utf8 (toString n)
  | .float (.finite _ repr) => utf8 repr
  | .float (.inf negative) =>
      if negative then utf8 "-Infinity" else utf8 "Infinity"
  | .float .nan => utf8 "NaN"
  | .str s => 34 :: (utf8 s ++ [34])
  | .list items => 91 :: encodeList items
  | .dict items => 123 :: encodeItems items

def encodeList : List PyVal → List UInt8
  | [] => [93]
  | v :: vs => encode v ++ 44 :: encodeList vs

def encodeItems : List (String × PyVal) → List UInt8
  | [] => [125]
  | (k, v) :: rest => utf8 k ++ 58 :: (encode v ++ 44 :: encodeItems rest)

end

def digestStep (h : ℕ) (b : UInt8) : ℕ :=
  ((h + b.toNat + 1) *
    0x9e3779b97f4a7c15f39cc0605cedc8341082276bf3a27251f86c6a11d0c18e95) %
    (2 ^ 256 - 189)

def digestHex (bytes : List UInt8) : String :=
  let value := bytes.foldl digestStep 7
  String.ofList
    ((List.range 64).reverse.map fun i => Nat.digitChar ((value / 16 ^ i) % 16))

def decimal (n : ℕ) : String := String.ofList (Nat.toDigits 10 n)

theorem ofDigitChars_decimal (n : ℕ) :
    Nat.ofDigitChars 10 (decimal n).toList 0 = n := by
  rw [decimal, String.toList_ofList, Nat.ofDigitChars_ten_toDigits]

theorem decimal_injective : Function.Injective decimal := by
  intro m n hmn
  rw [← ofDigitChars_decimal m, hmn, ofDigitChars_decimal]

def readInt (text : String) : Option ℤ :=
  let (sign, digits) : ℤ × List Char :=
    match (strip text).toList with
    | '-' :: cs => (-1, cs)
    | '+' :: cs => (1, cs)
    | cs => (1, cs)
  if digits = [] then none
  else (readDigits digits.length digits).map fun read => sign * read.1

def referenceHost : Host where
  sha256Hex value := digestHex (encode value)
  fromisoformat := readTimestamp
  formatMillisZ := writeMillisZ
  uuidHex := decimal
  uuidHex_injective := decimal_injective
  renderContainer value :=
    String.ofList ((encode value).map fun b => Char.ofNat b.toNat)
  sha256Text text := digestHex (utf8 text)
  parseInt := readInt

example :
    (readTimestamp "2026-03-01T23:59:45+00:00").bind
        (fun t => writeMillisZ (t.instant + 30000000)) =
      some "2026-03-02T00:00:15.000Z" := by
  decide +kernel

end Hydrogenuine.Core
