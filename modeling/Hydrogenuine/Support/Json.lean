import Hydrogenuine.Support.PyValue
import Mathlib.Data.Bool.AllAny

/-!
# JSON texts

`json.dumps` without ASCII escapes and without blanks, and `json.loads`.  The
writer escapes quotation marks, backslashes and the characters below the blank,
and nothing else.  The reader is strict: it takes the whole text and refuses
control characters in strings; the reading of the numerals with a fraction or an
exponent is a parameter.  What is written of a value without floats is read back
as that value.
-/

namespace Hydrogenuine.Support.Json

def quotation : Char := Char.ofNat 34

def backslash : Char := Char.ofNat 92

def openBrace : Char := Char.ofNat 123

def closeBrace : Char := Char.ofNat 125

/-! ## Writing -/

/-- The characters that are written as a backslash and a letter. -/
def shortEscapes : List (Char × Char) :=
  [(quotation, quotation), (backslash, backslash), ('\n', 'n'), ('\r', 'r'),
    ('\t', 't'), (Char.ofNat 8, 'b'), (Char.ofNat 12, 'f')]

/-- A character inside a string. -/
def escapeChar (c : Char) : List Char :=
  match shortEscapes.lookup c with
  | some letter => [backslash, letter]
  | none =>
      if c.toNat < 32 then
        [backslash, 'u', '0', '0', Nat.digitChar (c.toNat / 16),
          Nat.digitChar (c.toNat % 16)]
      else [c]

/-- A string with its quotation marks. -/
def writeString (s : String) : List Char :=
  quotation :: s.toList.flatMap escapeChar ++ [quotation]

/-- A float: its `repr`, or a constant. -/
def writeFloat : PyFloat → List Char
  | .finite _ repr => repr.toList
  | .inf negative => if negative then "-Infinity".toList else "Infinity".toList
  | .nan => "NaN".toList

/-- An integer in decimal. -/
def writeInt : ℤ → List Char
  | .ofNat n => Nat.toDigits 10 n
  | .negSucc n => '-' :: Nat.toDigits 10 (n + 1)

mutual

/-- `json.dumps(v, ensure_ascii=False, separators=(",", ":"))`. -/
def write : PyVal → List Char
  | .none => "null".toList
  | .bool b => if b then "true".toList else "false".toList
  | .int n => writeInt n
  | .float x => writeFloat x
  | .str s => writeString s
  | .list items => '[' :: writeElements items ++ [']']
  | .dict items => openBrace :: writeMembers items ++ [closeBrace]

def writeElements : List PyVal → List Char
  | [] => []
  | [v] => write v
  | v :: w :: vs => write v ++ ',' :: writeElements (w :: vs)

def writeMembers : List (String × PyVal) → List Char
  | [] => []
  | [(k, v)] => writeString k ++ ':' :: write v
  | (k, v) :: entry :: rest =>
      writeString k ++ ':' :: (write v ++ ',' :: writeMembers (entry :: rest))

end

/-- `json.dumps` with sorted keys. -/
def canonicalDumps (v : PyVal) : List Char := write v.canonical

/-! ## Reading -/

/-- The blanks between the tokens. -/
def isBlank (c : Char) : Bool := [' ', '\t', '\n', '\r'].contains c

def skipBlanks (cs : List Char) : List Char := cs.dropWhile isBlank

/-- What a letter after a backslash stands for. -/
def unescapes : List (Char × Char) :=
  [(quotation, quotation), (backslash, backslash), ('/', '/'),
    ('b', Char.ofNat 8), ('f', Char.ofNat 12), ('n', '\n'), ('r', '\r'),
    ('t', '\t')]

def hexValue (c : Char) : Option ℕ :=
  if c.isDigit then some (c.toNat - 48)
  else if 97 ≤ c.toNat ∧ c.toNat ≤ 102 then some (c.toNat - 87)
  else if 65 ≤ c.toNat ∧ c.toNat ≤ 70 then some (c.toNat - 55)
  else none

/-- The number that four hexadecimal digits write. -/
def hexValues (a b c d : Char) : Option ℕ := do
  return 4096 * (← hexValue a) + 256 * (← hexValue b) + 16 * (← hexValue c) +
    (← hexValue d)

/-- The second half of a surrogate pair. -/
def readLowSurrogate : List Char → Option (ℕ × List Char)
  | b :: u :: h₁ :: h₂ :: h₃ :: h₄ :: rest =>
      match hexValues h₁ h₂ h₃ h₄ with
      | some m =>
          if b = backslash ∧ u = 'u' ∧ 56320 ≤ m ∧ m < 57344 then
            some (m - 56320, rest)
          else none
      | none => none
  | _ => none

/-- The character that four hexadecimal digits name, with its second half where
there is one.  A lone surrogate is no character and cannot be read here. -/
def readUnicode : List Char → Option (Char × List Char)
  | h₁ :: h₂ :: h₃ :: h₄ :: rest =>
      match hexValues h₁ h₂ h₃ h₄ with
      | none => none
      | some n =>
          if n < 55296 ∨ 57344 ≤ n then some (Char.ofNat n, rest)
          else if n < 56320 then
            (readLowSurrogate rest).map fun read =>
              (Char.ofNat (65536 + 1024 * (n - 55296) + read.1), read.2)
          else none
  | _ => none

/-- What follows a backslash. -/
def readEscape : List Char → Option (Char × List Char)
  | [] => none
  | letter :: rest =>
      if letter = 'u' then readUnicode rest
      else (unescapes.lookup letter).map fun c => (c, rest)

/-- The rest of a string after its quotation mark, and what follows it. -/
def readString : ℕ → List Char → Option (List Char × List Char)
  | 0, _ => none
  | _ + 1, [] => none
  | fuel + 1, c :: cs =>
      if c = quotation then some ([], cs)
      else if c = backslash then
        match readEscape cs with
        | none => none
        | some (d, rest) =>
            (readString fuel rest).map fun read => (d :: read.1, read.2)
      else if c.toNat < 32 then none
      else (readString fuel cs).map fun read => (c :: read.1, read.2)

/-- The fraction of a numeral, when there is one. -/
def readFraction (cs : List Char) : List Char × List Char :=
  match cs with
  | '.' :: rest =>
      let digits := rest.takeWhile Char.isDigit
      if digits.isEmpty then ([], cs)
      else ('.' :: digits, rest.dropWhile Char.isDigit)
  | _ => ([], cs)

/-- The exponent of a numeral, when there is one. -/
def readExponent (cs : List Char) : List Char × List Char :=
  match cs with
  | e :: rest =>
      if e = 'e' ∨ e = 'E' then
        let sign := rest.takeWhile fun c => c == '-' || c == '+'
        let rest := rest.drop sign.length
        let digits := rest.takeWhile Char.isDigit
        if digits.isEmpty ∨ 1 < sign.length then ([], cs)
        else (e :: sign ++ digits, rest.dropWhile Char.isDigit)
      else ([], cs)
  | [] => ([], cs)

/-- The digits before the fraction: a zero stands alone. -/
def readDigits (cs : List Char) : List Char × List Char :=
  match cs with
  | '0' :: rest => (['0'], rest)
  | _ => (cs.takeWhile Char.isDigit, cs.dropWhile Char.isDigit)

/-- A numeral without its sign. -/
def readNumeral
    (readFloat : List Char → PyFloat) (negative : Bool) (cs : List Char) :
    Option (PyVal × List Char) :=
  let (digits, rest) := readDigits cs
  if digits.isEmpty then none
  else
    let (fraction, rest) := readFraction rest
    let (exponent, rest) := readExponent rest
    let n := Nat.ofDigitChars 10 digits 0
    if fraction.isEmpty && exponent.isEmpty then
      some (.int (if negative then -(n : ℤ) else n), rest)
    else
      let sign := if negative then ['-'] else []
      some (.float (readFloat (sign ++ digits ++ fraction ++ exponent)), rest)

/-- A numeral. -/
def readNumber
    (readFloat : List Char → PyFloat) (cs : List Char) :
    Option (PyVal × List Char) :=
  match cs with
  | '-' :: rest => readNumeral readFloat true rest
  | _ => readNumeral readFloat false cs

/-- The constants. -/
def constants : List (List Char × PyVal) :=
  [("null".toList, .none), ("true".toList, .bool true),
    ("false".toList, .bool false), ("NaN".toList, .float .nan),
    ("Infinity".toList, .float (.inf false)),
    ("-Infinity".toList, .float (.inf true))]

/-- A numeral or a constant. -/
def readAtom
    (readFloat : List Char → PyFloat) (cs : List Char) :
    Option (PyVal × List Char) :=
  match readNumber readFloat cs with
  | some read => some read
  | none =>
      (constants.find? fun constant => constant.1.isPrefixOf cs).map
        fun constant => (constant.2, cs.drop constant.1.length)

/-- `dict(pairs)`. -/
def ofPairs (pairs : List (String × PyVal)) : List (String × PyVal) :=
  pairs.foldl (fun items pair => PyVal.setItem items pair.1 pair.2) []

section Reader

variable (readFloat : List Char → PyFloat)

mutual

/-- A value, and what follows it. -/
def readValue : ℕ → List Char → Option (PyVal × List Char)
  | 0, _ => none
  | _ + 1, [] => none
  | fuel + 1, c :: cs =>
      if c = quotation then
        (readString (cs.length + 1) cs).map fun read =>
          (.str (String.ofList read.1), read.2)
      else if c = '[' then
        match skipBlanks cs with
        | [] => none
        | d :: rest =>
            if d = ']' then some (.list [], rest)
            else
              (readElements fuel (d :: rest)).map fun read =>
                (.list read.1, read.2)
      else if c = openBrace then
        match skipBlanks cs with
        | [] => none
        | d :: rest =>
            if d = closeBrace then some (.dict [], rest)
            else
              (readMembers fuel (d :: rest)).map fun read =>
                (.dict (ofPairs read.1), read.2)
      else readAtom readFloat (c :: cs)

/-- The elements of an array up to its bracket. -/
def readElements : ℕ → List Char → Option (List PyVal × List Char)
  | 0, _ => none
  | fuel + 1, cs =>
      match readValue fuel cs with
      | none => none
      | some (v, rest) =>
          match skipBlanks rest with
          | [] => none
          | d :: rest =>
              if d = ']' then some ([v], rest)
              else if d = ',' then
                (readElements fuel (skipBlanks rest)).map fun read =>
                  (v :: read.1, read.2)
              else none

/-- The members of an object up to its brace. -/
def readMembers : ℕ → List Char → Option (List (String × PyVal) × List Char)
  | 0, _ => none
  | _ + 1, [] => none
  | fuel + 1, c :: cs =>
      if c = quotation then
        match readString (cs.length + 1) cs with
        | none => none
        | some (k, rest) =>
            match skipBlanks rest with
            | [] => none
            | colon :: rest =>
                if colon = ':' then
                  match readValue fuel (skipBlanks rest) with
                  | none => none
                  | some (v, rest) =>
                      match skipBlanks rest with
                      | [] => none
                      | d :: rest =>
                          if d = closeBrace then
                            some ([(String.ofList k, v)], rest)
                          else if d = ',' then
                            (readMembers fuel (skipBlanks rest)).map fun read =>
                              ((String.ofList k, v) :: read.1, read.2)
                          else none
                else none
      else none

end

/-- `json.loads`, `none` where it raises.  Every call takes a character, so that
the length bounds their depth. -/
def loads (text : List Char) : Option PyVal :=
  if text.head? = some (Char.ofNat 65279) then none
  else
    match readValue readFloat (text.length + 1) (skipBlanks text) with
    | some (v, rest) => if (skipBlanks rest).isEmpty then some v else none
    | none => none

end Reader

/-! ## Reading strings that were written -/

variable {c : Char} {items : List (String × PyVal)} {n : ℕ}

theorem lookup_shortEscapes_eq_none :
    shortEscapes.lookup c = none ↔ c ∉ shortEscapes.map Prod.fst := by
  rw [List.lookup_eq_none_iff, List.mem_map]
  constructor
  · rintro h ⟨entry, hmem, rfl⟩
    exact absurd (beq_self_eq_true entry.1) (by simpa using h entry hmem)
  · intro h entry hmem
    rw [bne_iff_ne]
    exact fun heq => h ⟨entry, hmem, heq.symm⟩

theorem hexValue_digitChar : ∀ d < 16, hexValue (Nat.digitChar d) = some d := by
  decide

theorem hexValues_escaped (hn : n < 32) :
    hexValues '0' '0' (Nat.digitChar (n / 16)) (Nat.digitChar (n % 16)) =
      some n := by
  have hzero : hexValue '0' = some 0 := by decide
  have hhigh := hexValue_digitChar (n / 16) (by omega)
  have hlow := hexValue_digitChar (n % 16) (by omega)
  simp only [hexValues, hzero, hhigh, hlow, bind, Option.bind, pure]
  congr 1
  omega

theorem readEscape_short {c letter : Char}
    (h : shortEscapes.lookup c = some letter) (rest : List Char) :
    readEscape (letter :: rest) = some (c, rest) := by
  have htable : ∀ entry ∈ shortEscapes, entry.2 ≠ 'u' ∧
      unescapes.lookup entry.2 = some entry.1 := by
    decide
  obtain ⟨before, after, hsplit, -⟩ := List.lookup_eq_some_iff.mp h
  have hmem : (c, letter) ∈ shortEscapes :=
    hsplit ▸ List.mem_append_right _ List.mem_cons_self
  obtain ⟨hne, hlookup⟩ := htable _ hmem
  rw [readEscape, if_neg hne, hlookup]
  rfl

theorem readEscape_control (hc : c.toNat < 32) (rest : List Char) :
    readEscape ('u' :: '0' :: '0' :: Nat.digitChar (c.toNat / 16) ::
      Nat.digitChar (c.toNat % 16) :: rest) = some (c, rest) := by
  rw [readEscape, if_pos rfl, readUnicode, hexValues_escaped hc]
  dsimp only
  rw [if_pos (Or.inl (by omega)), Char.ofNat_toNat]

/-- An escaped character is read as itself. -/
theorem readString_escapeChar (fuel : ℕ) (c : Char) (rest : List Char) :
    readString (fuel + 1) (escapeChar c ++ rest) =
      (readString fuel rest).map fun read => (c :: read.1, read.2) := by
  have hescape : backslash ≠ quotation := by decide
  unfold escapeChar
  cases hlookup : shortEscapes.lookup c with
  | some letter =>
      dsimp only
      rw [List.cons_append, List.cons_append, List.nil_append, readString,
        if_neg hescape, if_pos rfl, readEscape_short hlookup]
  | none =>
      dsimp only
      split
      · next hcontrol =>
          simp only [List.cons_append, List.nil_append]
          rw [readString, if_neg hescape, if_pos rfl, readEscape_control hcontrol]
      · next hplain =>
          have hnot := lookup_shortEscapes_eq_none.mp hlookup
          have hquotation : c ≠ quotation := by
            rintro rfl
            exact hnot (by decide)
          have hbackslash : c ≠ backslash := by
            rintro rfl
            exact hnot (by decide)
          rw [List.cons_append, List.nil_append, readString, if_neg hquotation,
            if_neg hbackslash, if_neg hplain]

theorem readString_escaped
    (cs rest : List Char) {fuel : ℕ} (hfuel : cs.length < fuel) :
    readString fuel (cs.flatMap escapeChar ++ quotation :: rest) =
      some (cs, rest) := by
  induction cs generalizing fuel with
  | nil =>
      obtain ⟨fuel, rfl⟩ := Nat.exists_eq_succ_of_ne_zero (Nat.ne_of_gt hfuel)
      rw [List.flatMap_nil, List.nil_append, readString, if_pos rfl]
  | cons c cs ih =>
      rw [List.length_cons] at hfuel
      obtain ⟨fuel, rfl⟩ :=
        Nat.exists_eq_succ_of_ne_zero (Nat.ne_of_gt (Nat.zero_lt_of_lt hfuel))
      rw [List.flatMap_cons, List.append_assoc, readString_escapeChar,
        ih (Nat.lt_of_succ_lt_succ hfuel)]
      rfl

theorem length_le_flatMap_escapeChar (cs : List Char) :
    cs.length ≤ (cs.flatMap escapeChar).length := by
  induction cs with
  | nil => exact le_rfl
  | cons c cs ih =>
      have hpos : 1 ≤ (escapeChar c).length := by
        unfold escapeChar
        split
        · simp
        · split <;> simp
      rw [List.flatMap_cons, List.length_append, List.length_cons]
      omega

/-! ## Reading numerals and constants that were written -/

/-- What follows does not continue a numeral. -/
def Stops (rest : List Char) : Prop :=
  ∀ c cs, rest = c :: cs →
    c.isDigit = false ∧ c ≠ '.' ∧ c ≠ 'e' ∧ c ≠ 'E'

theorem stops_nil : Stops [] := by
  intro c cs h
  cases h

theorem stops_cons (hdigit : c.isDigit = false)
    (hc : c ≠ '.' ∧ c ≠ 'e' ∧ c ≠ 'E') (rest : List Char) :
    Stops (c :: rest) := by
  intro c' cs h
  obtain ⟨rfl, -⟩ := List.cons.inj h
  exact ⟨hdigit, hc⟩

/-- Only zero is written with a zero in front. -/
theorem head?_toDigits_ne (hn : 0 < n) :
    (Nat.toDigits 10 n).head? ≠ some '0' := by
  induction n using Nat.strongRecOn with
  | ind n ih =>
      by_cases hlt : n < 10
      · have hdigit : ∀ m < 10, 0 < m → [Nat.digitChar m].head? ≠ some '0' := by
          decide
        rw [Nat.toDigits_of_lt_base hlt]
        exact hdigit n hlt hn
      · rw [Nat.toDigits_of_base_le (by decide) (by omega),
          List.head?_append_of_ne_nil _ Nat.toDigits_ne_nil]
        exact ih (n / 10) (by omega) (by omega)

theorem isDigit_of_mem_toDigits
    (h : c ∈ Nat.toDigits 10 n) : c.isDigit = true :=
  Nat.isDigit_of_mem_toDigits (by decide) (by decide) h

section Stops

variable {rest : List Char}

theorem takeWhile_digits (hstops : Stops rest) {digits : List Char}
    (hdigits : ∀ c ∈ digits, c.isDigit = true) :
    (digits ++ rest).takeWhile Char.isDigit = digits ∧
      (digits ++ rest).dropWhile Char.isDigit = rest := by
  have hrest : rest.takeWhile Char.isDigit = [] ∧
      rest.dropWhile Char.isDigit = rest := by
    cases rest with
    | nil => exact ⟨rfl, rfl⟩
    | cons c cs =>
        have hc := (hstops c cs rfl).1
        rw [List.takeWhile_cons, List.dropWhile_cons, hc]
        exact ⟨rfl, rfl⟩
  rw [List.takeWhile_append_of_pos hdigits, List.dropWhile_append_of_pos hdigits,
    hrest.1, hrest.2, List.append_nil]
  exact ⟨rfl, rfl⟩

theorem readDigits_toDigits (hstops : Stops rest) (n : ℕ) :
    readDigits (Nat.toDigits 10 n ++ rest) = (Nat.toDigits 10 n, rest) := by
  by_cases hn : n = 0
  · subst hn
    rfl
  · have hhead := head?_toDigits_ne (Nat.pos_of_ne_zero hn)
    obtain ⟨htake, hdrop⟩ := takeWhile_digits hstops
      fun c => isDigit_of_mem_toDigits (n := n)
    unfold readDigits
    split
    · next tail heq =>
        cases hdigits : Nat.toDigits 10 n with
        | nil => exact absurd hdigits Nat.toDigits_ne_nil
        | cons d ds =>
            rw [hdigits] at heq hhead
            obtain ⟨rfl, -⟩ := List.cons.inj heq
            exact absurd rfl hhead
    · rw [htake, hdrop]

theorem readFraction_stops (hstops : Stops rest) :
    readFraction rest = ([], rest) := by
  unfold readFraction
  split
  · next tail => exact absurd rfl (hstops '.' tail rfl).2.1
  · rfl

theorem readExponent_stops (hstops : Stops rest) :
    readExponent rest = ([], rest) := by
  unfold readExponent
  split
  · next e tail =>
      obtain ⟨-, -, he, hE⟩ := hstops e tail rfl
      rw [if_neg (by simp [he, hE])]
  · rfl

variable (readFloat : List Char → PyFloat)

theorem readNumeral_toDigits (hstops : Stops rest) (negative : Bool) (n : ℕ) :
    readNumeral readFloat negative (Nat.toDigits 10 n ++ rest) =
      some (.int (if negative then -(n : ℤ) else n), rest) := by
  have hsome : (Nat.toDigits 10 n).isEmpty = false := by
    rw [List.isEmpty_eq_false_iff]
    exact Nat.toDigits_ne_nil
  simp only [readNumeral, readDigits_toDigits hstops, hsome,
    readFraction_stops hstops, readExponent_stops hstops,
    Nat.ofDigitChars_ten_toDigits, List.isEmpty_nil, Bool.and_self, if_true,
    Bool.false_eq_true, if_false]

theorem readNumber_writeInt (hstops : Stops rest) (n : ℤ) :
    readNumber readFloat (writeInt n ++ rest) = some (.int n, rest) := by
  cases n with
  | ofNat n =>
      have hnumeral := readNumeral_toDigits readFloat hstops false n
      change readNumber readFloat (Nat.toDigits 10 n ++ rest) = _
      unfold readNumber
      split
      · next tail heq =>
          cases hdigits : Nat.toDigits 10 n with
          | nil => exact absurd hdigits Nat.toDigits_ne_nil
          | cons d ds =>
              rw [hdigits] at heq
              obtain ⟨rfl, -⟩ := List.cons.inj heq
              have hdigit : ('-').isDigit = true :=
                isDigit_of_mem_toDigits (n := n)
                  (hdigits ▸ List.mem_cons_self)
              exact absurd hdigit (by decide)
      · exact hnumeral
  | negSucc n =>
      have hnumeral := readNumeral_toDigits readFloat hstops true (n + 1)
      exact hnumeral

theorem readAtom_writeInt (hstops : Stops rest) (n : ℤ) :
    readAtom readFloat (writeInt n ++ rest) = some (.int n, rest) := by
  rw [readAtom, readNumber_writeInt readFloat hstops]

end Stops

/-! ## Reading values that were written -/

mutual

/-- No float is in the value, and the keys of its dictionaries are distinct. -/
def Plain : PyVal → Prop
  | .float _ => False
  | .list items => PlainElements items
  | .dict items => (items.map Prod.fst).Nodup ∧ PlainMembers items
  | _ => True

def PlainElements : List PyVal → Prop
  | [] => True
  | v :: vs => Plain v ∧ PlainElements vs

def PlainMembers : List (String × PyVal) → Prop
  | [] => True
  | (_, v) :: rest => Plain v ∧ PlainMembers rest

end

theorem isBlank_of_isDigit (h : c.isDigit = true) :
    isBlank c = false := by
  rw [Bool.eq_false_iff]
  intro hblank
  simp only [isBlank, List.contains_cons, List.contains_nil, Bool.or_false,
    Bool.or_eq_true, beq_iff_eq] at hblank
  rcases hblank with rfl | rfl | rfl | rfl <;> cases h

theorem toNat_lt_of_isDigit (h : c.isDigit = true) :
    c.toNat < 128 := by
  simp only [Char.isDigit, Bool.and_eq_true, decide_eq_true_eq] at h
  exact Nat.lt_of_le_of_lt h.2 (by decide)

/-- The character can start a value. -/
def StartsValue (c : Char) : Prop :=
  isBlank c = false ∧ c ≠ ']' ∧ c.toNat < 128

theorem startsValue_of_isDigit (h : c.isDigit = true) :
    StartsValue c := by
  refine ⟨isBlank_of_isDigit h, ?_, toNat_lt_of_isDigit h⟩
  rintro rfl
  cases h

theorem startsValue_of_mem {c : Char}
    (h : c ∈ ['n', 't', 'f', '-', quotation, '[', openBrace]) :
    StartsValue c := by
  have hall : ∀ c ∈ ['n', 't', 'f', '-', quotation, '[', openBrace],
      isBlank c = false ∧ c ≠ ']' ∧ c.toNat < 128 :=
    List.all_iff_forall_prop.mp (by decide)
  exact hall c h

theorem exists_writeInt_eq_cons (n : ℤ) :
    ∃ c cs, writeInt n = c :: cs ∧ (c.isDigit = true ∨ c = '-') := by
  cases n with
  | ofNat n =>
      cases hn : Nat.toDigits 10 n with
      | nil => exact absurd hn Nat.toDigits_ne_nil
      | cons c cs =>
          exact ⟨c, cs, hn,
            Or.inl (isDigit_of_mem_toDigits (hn ▸ List.mem_cons_self))⟩
  | negSucc n => exact ⟨'-', _, rfl, Or.inr rfl⟩

theorem exists_write_eq_cons {v : PyVal} (hv : Plain v) :
    ∃ c cs, write v = c :: cs ∧ StartsValue c := by
  cases v with
  | none => exact ⟨'n', _, by rw [write]; rfl, startsValue_of_mem (by decide)⟩
  | bool b =>
      cases b with
      | true => exact ⟨'t', _, by rw [write]; rfl, startsValue_of_mem (by decide)⟩
      | false => exact ⟨'f', _, by rw [write]; rfl, startsValue_of_mem (by decide)⟩
  | int n =>
      obtain ⟨c, cs, hwrite, hc⟩ := exists_writeInt_eq_cons n
      refine ⟨c, cs, by rw [write, hwrite], ?_⟩
      rcases hc with hdigit | rfl
      · exact startsValue_of_isDigit hdigit
      · exact startsValue_of_mem (by decide)
  | float x => exact hv.elim
  | str s => exact ⟨quotation, _, by rw [write]; rfl, startsValue_of_mem (by decide)⟩
  | list items => exact ⟨'[', _, by rw [write]; rfl, startsValue_of_mem (by decide)⟩
  | dict items => exact ⟨openBrace, _, by rw [write]; rfl, startsValue_of_mem (by decide)⟩

theorem skipBlanks_cons (h : isBlank c = false) (cs : List Char) :
    skipBlanks (c :: cs) = c :: cs := by
  rw [skipBlanks, List.dropWhile_cons, h]
  rfl

theorem readString_writeString (s : String) (rest : List Char) :
    readString ((s.toList.flatMap escapeChar ++ quotation :: rest).length + 1)
      (s.toList.flatMap escapeChar ++ quotation :: rest) =
        some (s.toList, rest) := by
  refine readString_escaped s.toList rest ?_
  have hlength := length_le_flatMap_escapeChar s.toList
  rw [List.length_append]
  omega

theorem foldl_setItem
    (pairs : List (String × PyVal)) (items : List (String × PyVal))
    (hnodup : ((items ++ pairs).map Prod.fst).Nodup) :
    pairs.foldl (fun items pair => PyVal.setItem items pair.1 pair.2) items =
      items ++ pairs := by
  induction pairs generalizing items with
  | nil => exact (List.append_nil items).symm
  | cons pair pairs ih =>
      have hfresh : pair.1 ∉ items.map Prod.fst := by
        rw [List.map_append, List.map_cons] at hnodup
        intro hmem
        exact (List.nodup_append.mp hnodup).2.2 _ hmem _ List.mem_cons_self rfl
      have hset : PyVal.setItem items pair.1 pair.2 = items ++ [pair] :=
        assignEntry_of_not_mem hfresh
      rw [List.foldl_cons, hset, ih _ (by simpa using hnodup),
        List.append_assoc, List.singleton_append]

theorem ofPairs_of_nodup
    (hnodup : (items.map Prod.fst).Nodup) : ofPairs items = items :=
  foldl_setItem items [] hnodup

section Values

variable (readFloat : List Char → PyFloat)

theorem readValue_atom
    {c : Char} (hquotation : c ≠ quotation) (hbracket : c ≠ '[')
    (hbrace : c ≠ openBrace) (fuel : ℕ) (cs : List Char) :
    readValue readFloat (fuel + 1) (c :: cs) = readAtom readFloat (c :: cs) := by
  rw [readValue, if_neg hquotation, if_neg hbracket, if_neg hbrace]

theorem readValue_writeInt
    (n : ℤ) (fuel : ℕ) {rest : List Char} (hstops : Stops rest) :
    readValue readFloat (fuel + 1) (writeInt n ++ rest) =
      some (.int n, rest) := by
  obtain ⟨c, cs, hwrite, hc⟩ := exists_writeInt_eq_cons n
  have hother : ∀ d, d.isDigit = false → d ≠ '-' → c ≠ d := by
    rintro d hdigit hminus rfl
    rcases hc with hc | hc
    · rw [hdigit] at hc
      cases hc
    · exact hminus hc
  have hatom := readAtom_writeInt readFloat hstops n
  rw [hwrite, List.cons_append] at hatom ⊢
  rw [readValue_atom readFloat (hother _ (by decide) (by decide))
    (hother _ (by decide) (by decide)) (hother _ (by decide) (by decide)), hatom]

theorem readValue_writeString (s : String) (fuel : ℕ) (rest : List Char) :
    readValue readFloat (fuel + 1) (writeString s ++ rest) =
      some (.str s, rest) := by
  have hwrite : writeString s ++ rest =
      quotation :: (s.toList.flatMap escapeChar ++ quotation :: rest) := by
    simp [writeString]
  rw [hwrite, readValue, if_pos rfl, readString_writeString, Option.map_some,
    String.ofList_toList]

/-- The members start with a quotation mark. -/
theorem exists_writeMembers_eq_cons
    (k : String) (v : PyVal) (rest : List (String × PyVal)) :
    ∃ cs, writeMembers ((k, v) :: rest) = quotation :: cs := by
  cases rest with
  | nil => exact ⟨_, by rw [writeMembers]; rfl⟩
  | cons entry rest => exact ⟨_, by rw [writeMembers]; rfl⟩

variable {v : PyVal} {fuel : ℕ}

theorem exists_writeElements_eq_cons (hv : Plain v) (vs : List PyVal) :
    ∃ c cs, writeElements (v :: vs) = c :: cs ∧ StartsValue c := by
  obtain ⟨c, cs, hwrite, hstarts⟩ := exists_write_eq_cons hv
  cases vs with
  | nil => exact ⟨c, cs, by rw [writeElements, hwrite], hstarts⟩
  | cons w vs =>
      exact ⟨c, _, by rw [writeElements, hwrite, List.cons_append], hstarts⟩

/-- One more element, and what follows it. -/
theorem readElements_cons {cs rest : List Char} {d : Char}
    (hread : readValue readFloat fuel cs = some (v, d :: rest))
    (hblank : isBlank d = false) :
    readElements readFloat (fuel + 1) cs =
      if d = ']' then some ([v], rest)
      else if d = ',' then
        (readElements readFloat fuel (skipBlanks rest)).map fun read =>
          (v :: read.1, read.2)
      else none := by
  rw [readElements, hread]
  dsimp only
  rw [skipBlanks_cons hblank]

theorem readValue_constant
    {text : List Char} (fuel : ℕ) (rest : List Char)
    (hmem : (text, v) ∈ [("null".toList, PyVal.none),
      ("true".toList, .bool true), ("false".toList, .bool false)]) :
    readValue readFloat (fuel + 1) (text ++ rest) = some (v, rest) := by
  simp only [List.mem_cons, Prod.mk.injEq, List.not_mem_nil, or_false] at hmem
  rcases hmem with ⟨rfl, rfl⟩ | ⟨rfl, rfl⟩ | ⟨rfl, rfl⟩
  · exact readValue_atom readFloat (by decide) (by decide) (by decide) fuel _
  · exact readValue_atom readFloat (by decide) (by decide) (by decide) fuel _
  · exact readValue_atom readFloat (by decide) (by decide) (by decide) fuel _

theorem readValue_list
    {items : List PyVal} (hitems : PlainElements items) {fuel : ℕ}
    {rest : List Char}
    (hread : items ≠ [] →
      readElements readFloat fuel (writeElements items ++ ']' :: rest) =
        some (items, rest)) :
    readValue readFloat (fuel + 1) (write (.list items) ++ rest) =
      some (.list items, rest) := by
  have hwrite : write (.list items) ++ rest =
      '[' :: (writeElements items ++ ']' :: rest) := by
    simp [write]
  rw [hwrite, readValue, if_neg (by decide), if_pos rfl]
  cases items with
  | nil =>
      rw [writeElements, List.nil_append, skipBlanks_cons (by decide)]
      rfl
  | cons v vs =>
      obtain ⟨d, ds, helements, hblank, hbracket, -⟩ :=
        exists_writeElements_eq_cons hitems.1 vs
      have hsome := hread (List.cons_ne_nil v vs)
      rw [helements, List.cons_append] at hsome ⊢
      rw [skipBlanks_cons hblank]
      dsimp only
      rw [if_neg hbracket, hsome, Option.map_some]

theorem readValue_dict
    {items : List (String × PyVal)} (hnodup : (items.map Prod.fst).Nodup) {rest : List Char}
    (hread : items ≠ [] →
      readMembers readFloat fuel (writeMembers items ++ closeBrace :: rest) =
        some (items, rest)) :
    readValue readFloat (fuel + 1) (write (.dict items) ++ rest) =
      some (.dict items, rest) := by
  have hwrite : write (.dict items) ++ rest =
      openBrace :: (writeMembers items ++ closeBrace :: rest) := by
    simp [write]
  rw [hwrite, readValue, if_neg (by decide), if_neg (by decide), if_pos rfl]
  cases items with
  | nil =>
      rw [writeMembers, List.nil_append, skipBlanks_cons (by decide)]
      rfl
  | cons entry entries =>
      obtain ⟨cs, hmembers⟩ :=
        exists_writeMembers_eq_cons entry.1 entry.2 entries
      have hsome := hread (List.cons_ne_nil entry entries)
      rw [hmembers, List.cons_append] at hsome ⊢
      rw [skipBlanks_cons (by decide)]
      dsimp only
      rw [if_neg (by decide), hsome, Option.map_some, ofPairs_of_nodup hnodup]

/-- One more member, and what follows it. -/
theorem readMembers_cons
    {k : String} {cs rest : List Char} {d : Char}
    (hread : readValue readFloat fuel cs = some (v, d :: rest))
    (hcs : skipBlanks cs = cs) (hblank : isBlank d = false) :
    readMembers readFloat (fuel + 1) (writeString k ++ ':' :: cs) =
      if d = closeBrace then some ([(k, v)], rest)
      else if d = ',' then
        (readMembers readFloat fuel (skipBlanks rest)).map fun read =>
          ((k, v) :: read.1, read.2)
      else none := by
  have hwrite : writeString k ++ ':' :: cs =
      quotation :: (k.toList.flatMap escapeChar ++ quotation :: ':' :: cs) := by
    simp [writeString]
  rw [hwrite, readMembers, if_pos rfl, readString_writeString]
  dsimp only
  rw [skipBlanks_cons (by decide)]
  dsimp only
  rw [if_pos rfl, hcs, hread]
  dsimp only
  rw [skipBlanks_cons hblank, String.ofList_toList]

theorem skipBlanks_write (hv : Plain v) (rest : List Char) :
    skipBlanks (write v ++ rest) = write v ++ rest := by
  obtain ⟨c, cs, hwrite, hstarts⟩ := exists_write_eq_cons hv
  rw [hwrite, List.cons_append, skipBlanks_cons hstarts.1]

theorem skipBlanks_writeElements (hv : Plain v) (vs : List PyVal) (rest : List Char) :
    skipBlanks (writeElements (v :: vs) ++ rest) =
      writeElements (v :: vs) ++ rest := by
  obtain ⟨c, cs, hwrite, hstarts⟩ := exists_writeElements_eq_cons hv vs
  rw [hwrite, List.cons_append, skipBlanks_cons hstarts.1]

mutual

/-- A value that was written is read back, and so is what follows it. -/
theorem readValue_write
    (v : PyVal) (hv : Plain v) {fuel : ℕ} {rest : List Char}
    (hfuel : (write v).length ≤ fuel) (hstops : Stops rest) :
    readValue readFloat fuel (write v ++ rest) = some (v, rest) := by
  obtain ⟨c, cs, hwrite, -⟩ := exists_write_eq_cons hv
  obtain ⟨fuel, rfl⟩ : ∃ n, fuel = n + 1 := by
    refine Nat.exists_eq_succ_of_ne_zero ?_
    rw [hwrite, List.length_cons] at hfuel
    omega
  match v, hv, hfuel with
  | .none, _, _ =>
      rw [write]
      exact readValue_constant readFloat fuel rest List.mem_cons_self
  | .bool b, _, _ =>
      rw [write]
      refine readValue_constant readFloat fuel rest ?_
      cases b with
      | true => exact List.mem_cons_of_mem _ List.mem_cons_self
      | false =>
          exact List.mem_cons_of_mem _
            (List.mem_cons_of_mem _ List.mem_cons_self)
  | .int n, _, _ =>
      rw [write]
      exact readValue_writeInt readFloat n fuel hstops
  | .float x, hv, _ => exact hv.elim
  | .str s, _, _ =>
      rw [write]
      exact readValue_writeString readFloat s fuel rest
  | .list items, hv, hfuel =>
      refine readValue_list readFloat hv fun hne => ?_
      refine readElements_write items hv hne ?_
      rw [write, List.length_append, List.length_cons] at hfuel
      exact Nat.le_of_succ_le_succ hfuel
  | .dict items, hv, hfuel =>
      refine readValue_dict readFloat hv.1 fun hne => ?_
      refine readMembers_write items hv.2 hne ?_
      rw [write, List.length_append, List.length_cons] at hfuel
      exact Nat.le_of_succ_le_succ hfuel

/-- The elements of an array that was written are read back. -/
theorem readElements_write
    (items : List PyVal) (hitems : PlainElements items) (hne : items ≠ [])
    {fuel : ℕ} {rest : List Char}
    (hfuel : (writeElements items).length + 1 ≤ fuel) :
    readElements readFloat fuel (writeElements items ++ ']' :: rest) =
      some (items, rest) := by
  obtain ⟨fuel, rfl⟩ : ∃ n, fuel = n + 1 :=
    Nat.exists_eq_succ_of_ne_zero (by omega)
  match items, hitems, hne, hfuel with
  | [v], hitems, _, hfuel =>
      rw [writeElements] at hfuel ⊢
      have hread : readValue readFloat fuel (write v ++ ']' :: rest) =
          some (v, ']' :: rest) :=
        readValue_write v hitems.1 (Nat.le_of_succ_le_succ hfuel)
          (stops_cons (by decide) (by decide) _)
      rw [readElements_cons readFloat hread (by decide), if_pos rfl]
  | v :: w :: vs, hitems, _, hfuel =>
      rw [writeElements, List.length_append, List.length_cons] at hfuel
      rw [writeElements, List.append_assoc, List.cons_append]
      have hpos : 0 < (write v).length := by
        obtain ⟨c, cs, hwrite, -⟩ := exists_write_eq_cons hitems.1
        rw [hwrite]
        exact Nat.zero_lt_succ _
      have hread : ∀ cs, readValue readFloat fuel (write v ++ ',' :: cs) =
          some (v, ',' :: cs) := fun cs =>
        readValue_write v hitems.1 (by omega)
          (stops_cons (by decide) (by decide) cs)
      rw [readElements_cons readFloat (hread _) (by decide), if_neg (by decide),
        if_pos rfl, skipBlanks_writeElements hitems.2.1,
        readElements_write (w :: vs) hitems.2 (List.cons_ne_nil _ _) (by omega),
        Option.map_some]

/-- The members of an object that was written are read back. -/
theorem readMembers_write
    (items : List (String × PyVal)) (hitems : PlainMembers items)
    (hne : items ≠ []) {fuel : ℕ} {rest : List Char}
    (hfuel : (writeMembers items).length + 1 ≤ fuel) :
    readMembers readFloat fuel (writeMembers items ++ closeBrace :: rest) =
      some (items, rest) := by
  obtain ⟨fuel, rfl⟩ : ∃ n, fuel = n + 1 :=
    Nat.exists_eq_succ_of_ne_zero (by omega)
  match items, hitems, hne, hfuel with
  | [(k, v)], hitems, _, hfuel =>
      rw [writeMembers, List.length_append, List.length_cons] at hfuel
      rw [writeMembers, List.append_assoc, List.cons_append]
      have hread : readValue readFloat fuel (write v ++ closeBrace :: rest) =
          some (v, closeBrace :: rest) :=
        readValue_write v hitems.1 (by omega)
          (stops_cons (by decide) (by decide) _)
      rw [readMembers_cons readFloat hread (skipBlanks_write hitems.1 _)
        (by decide), if_pos rfl]
  | (k, v) :: entry :: entries, hitems, _, hfuel =>
      rw [writeMembers, List.length_append, List.length_cons,
        List.length_append, List.length_cons] at hfuel
      rw [writeMembers, List.append_assoc, List.cons_append, List.append_assoc,
        List.cons_append]
      have hread : ∀ cs, readValue readFloat fuel (write v ++ ',' :: cs) =
          some (v, ',' :: cs) := fun cs =>
        readValue_write v hitems.1 (by omega)
          (stops_cons (by decide) (by decide) cs)
      have hskip : skipBlanks (writeMembers (entry :: entries) ++
          closeBrace :: rest) =
            writeMembers (entry :: entries) ++ closeBrace :: rest := by
        obtain ⟨cs, hwrite⟩ :=
          exists_writeMembers_eq_cons entry.1 entry.2 entries
        rw [hwrite, List.cons_append, skipBlanks_cons (by decide)]
      rw [readMembers_cons readFloat (hread _) (skipBlanks_write hitems.1 _)
        (by decide), if_neg (by decide), if_pos rfl, hskip,
        readMembers_write (entry :: entries) hitems.2 (List.cons_ne_nil _ _)
          (by omega), Option.map_some]

end

/-- What is written of a value is read back as the value. -/
theorem loads_write (hv : Plain v) :
    loads readFloat (write v) = some v := by
  obtain ⟨c, cs, hwrite, hblank, -, hascii⟩ := exists_write_eq_cons hv
  have hmark : (write v).head? ≠ some (Char.ofNat 65279) := by
    rw [hwrite, List.head?_cons]
    intro heq
    rw [Option.some.inj heq] at hascii
    exact absurd hascii (by decide)
  have hread := readValue_write readFloat v hv (Nat.le_succ _) stops_nil
  rw [List.append_nil] at hread
  have hskip : skipBlanks (write v) = write v := by
    rw [hwrite, skipBlanks_cons hblank]
  rw [loads, if_neg hmark, hskip, hread]
  rfl

end Values

/-! ## The characters of a text that was written -/

mutual

/-- The texts in a value, the keys of its dictionaries included. -/
def textsOf : PyVal → List String
  | .str s => [s]
  | .list items => textsOfElements items
  | .dict items => textsOfMembers items
  | _ => []

def textsOfElements : List PyVal → List String
  | [] => []
  | v :: vs => textsOf v ++ textsOfElements vs

def textsOfMembers : List (String × PyVal) → List String
  | [] => []
  | (k, v) :: rest => k :: (textsOf v ++ textsOfMembers rest)

end

/-- The character is no control character, and outside ASCII it comes from one of
the texts. -/
def Shown (texts : List String) (c : Char) : Prop :=
  32 ≤ c.toNat ∧ (c.toNat < 128 ∨ ∃ t ∈ texts, c ∈ t.toList)

theorem Shown.mono {texts texts' : List String}
    (h : Shown texts c) (hsub : texts ⊆ texts') : Shown texts' c := by
  obtain ⟨hcontrol, hascii | ⟨t, ht, hc⟩⟩ := h
  · exact ⟨hcontrol, Or.inl hascii⟩
  · exact ⟨hcontrol, Or.inr ⟨t, hsub ht, hc⟩⟩

theorem shown_of_ascii {texts : List String}
    (h : 32 ≤ c.toNat ∧ c.toNat < 128) : Shown texts c := ⟨h.1, Or.inl h.2⟩

theorem escapeChar_of_not_ascii (hc : 128 ≤ c.toNat) :
    escapeChar c = [c] := by
  have hnone : shortEscapes.lookup c = none := by
    rw [lookup_shortEscapes_eq_none]
    intro hmem
    have hascii : ∀ d ∈ shortEscapes.map Prod.fst, d.toNat < 128 :=
      List.all_iff_forall_prop.mp (by decide)
    exact absurd (hascii c hmem) (by omega)
  rw [escapeChar, hnone]
  exact if_neg (by omega)

theorem mem_escapeChar {c d : Char} (h : d ∈ escapeChar c) :
    32 ≤ d.toNat ∧ (d.toNat < 128 ∨ d = c) := by
  unfold escapeChar at h
  cases hlookup : shortEscapes.lookup c with
  | some letter =>
      have hletters : ∀ entry ∈ shortEscapes, ∀ d ∈ [backslash, entry.2],
          32 ≤ d.toNat ∧ d.toNat < 128 := by
        simp only [← List.all_iff_forall_prop]
        decide
      obtain ⟨before, after, hsplit, -⟩ := List.lookup_eq_some_iff.mp hlookup
      have hmem : (c, letter) ∈ shortEscapes :=
        hsplit ▸ List.mem_append_right _ List.mem_cons_self
      rw [hlookup] at h
      obtain ⟨hcontrol, hascii⟩ := hletters _ hmem d h
      exact ⟨hcontrol, Or.inl hascii⟩
  | none =>
      rw [hlookup] at h
      dsimp only at h
      split at h
      · next hcontrol =>
          have hdigits : ∀ n < 32, ∀ d ∈ [backslash, 'u', '0', '0',
              Nat.digitChar (n / 16), Nat.digitChar (n % 16)],
              32 ≤ d.toNat ∧ d.toNat < 128 := by
            simp only [← List.all_iff_forall_prop]
            decide
          obtain ⟨hlow, hascii⟩ := hdigits c.toNat hcontrol d h
          exact ⟨hlow, Or.inl hascii⟩
      · next hplain =>
          rw [List.mem_singleton] at h
          subst h
          exact ⟨Nat.le_of_not_lt hplain, Or.inr rfl⟩

theorem shown_of_mem_writeString {s : String}
    (h : c ∈ writeString s) : Shown [s] c := by
  have hquotation : Shown [s] quotation := shown_of_ascii (by decide)
  rw [writeString, List.cons_append] at h
  rcases List.mem_cons.mp h with rfl | h
  · exact hquotation
  · rcases List.mem_append.mp h with h | h
    · obtain ⟨d, hd, hc⟩ := List.mem_flatMap.mp h
      obtain ⟨hcontrol, hascii | rfl⟩ := mem_escapeChar hc
      · exact ⟨hcontrol, Or.inl hascii⟩
      · exact ⟨hcontrol, Or.inr ⟨s, List.mem_singleton_self s, hd⟩⟩
    · rw [List.mem_singleton.mp h]
      exact hquotation

theorem mem_writeString {s : String} (hc : 128 ≤ c.toNat)
    (h : c ∈ s.toList) : c ∈ writeString s := by
  rw [writeString, List.cons_append]
  refine List.mem_cons_of_mem _ (List.mem_append_left _ ?_)
  refine List.mem_flatMap.mpr ⟨c, h, ?_⟩
  rw [escapeChar_of_not_ascii hc]
  exact List.mem_singleton_self c

theorem shown_of_mem_writeInt {n : ℤ} (h : c ∈ writeInt n) :
    Shown [] c := by
  have hdigit : ∀ {m : ℕ}, c ∈ Nat.toDigits 10 m → Shown [] c := by
    intro m hm
    have hc := isDigit_of_mem_toDigits hm
    refine shown_of_ascii ⟨?_, toNat_lt_of_isDigit hc⟩
    simp only [Char.isDigit, Bool.and_eq_true, decide_eq_true_eq] at hc
    exact Nat.le_trans (by decide) hc.1
  cases n with
  | ofNat m => exact hdigit h
  | negSucc m =>
      rcases List.mem_cons.mp h with rfl | h
      · exact shown_of_ascii (by decide)
      · exact hdigit h

mutual

/-- A value is written with its own characters and with ASCII. -/
theorem shown_of_mem_write {c : Char} (v : PyVal) (hv : Plain v)
    (h : c ∈ write v) : Shown (textsOf v) c := by
  have hascii : ∀ text : List Char, (∀ d ∈ text, 32 ≤ d.toNat ∧ d.toNat < 128) →
      c ∈ text → Shown (textsOf v) c :=
    fun text htext hmem => shown_of_ascii (htext c hmem)
  match v, hv, h with
  | .none, _, h =>
      rw [write] at h
      exact hascii _ (List.all_iff_forall_prop.mp (by decide)) h
  | .bool b, _, h =>
      rw [write] at h
      cases b with
      | true => exact hascii _ (List.all_iff_forall_prop.mp (by decide)) h
      | false => exact hascii _ (List.all_iff_forall_prop.mp (by decide)) h
  | .int n, _, h =>
      rw [write] at h
      exact (shown_of_mem_writeInt h).mono (List.nil_subset _)
  | .float x, hv, _ => exact hv.elim
  | .str s, _, h =>
      rw [write] at h
      exact shown_of_mem_writeString h
  | .list items, hv, h =>
      rw [write, List.cons_append] at h
      rcases List.mem_cons.mp h with rfl | h
      · exact hascii ['['] (List.all_iff_forall_prop.mp (by decide)) List.mem_cons_self
      · rcases List.mem_append.mp h with h | h
        · exact shown_of_mem_writeElements items hv h
        · exact hascii [']'] (List.all_iff_forall_prop.mp (by decide)) h
  | .dict items, hv, h =>
      rw [write, List.cons_append] at h
      rcases List.mem_cons.mp h with rfl | h
      · exact hascii [openBrace] (List.all_iff_forall_prop.mp (by decide)) List.mem_cons_self
      · rcases List.mem_append.mp h with h | h
        · exact shown_of_mem_writeMembers items hv.2 h
        · exact hascii [closeBrace] (List.all_iff_forall_prop.mp (by decide)) h

theorem shown_of_mem_writeElements {c : Char}
    (items : List PyVal) (hitems : PlainElements items)
    (h : c ∈ writeElements items) : Shown (textsOfElements items) c := by
  match items, hitems, h with
  | [], _, h =>
      rw [writeElements] at h
      cases h
  | [v], hitems, h =>
      rw [writeElements] at h
      exact (shown_of_mem_write v hitems.1 h).mono (List.subset_append_left _ _)
  | v :: w :: vs, hitems, h =>
      rw [writeElements] at h
      rcases List.mem_append.mp h with h | h
      · exact (shown_of_mem_write v hitems.1 h).mono
          (List.subset_append_left _ _)
      · rcases List.mem_cons.mp h with rfl | h
        · exact shown_of_ascii (by decide)
        · exact (shown_of_mem_writeElements (w :: vs) hitems.2 h).mono
            (List.subset_append_right _ _)

theorem shown_of_mem_writeMembers {c : Char}
    (items : List (String × PyVal)) (hitems : PlainMembers items)
    (h : c ∈ writeMembers items) : Shown (textsOfMembers items) c := by
  have hkey : ∀ (k : String) (texts : List String), c ∈ writeString k →
      Shown (k :: texts) c := fun k texts hk =>
    (shown_of_mem_writeString hk).mono
      (List.cons_subset_cons k (List.nil_subset texts))
  match items, hitems, h with
  | [], _, h =>
      rw [writeMembers] at h
      cases h
  | [(k, v)], hitems, h =>
      rw [writeMembers] at h
      rcases List.mem_append.mp h with h | h
      · exact hkey k _ h
      · rcases List.mem_cons.mp h with rfl | h
        · exact shown_of_ascii (by decide)
        · exact (shown_of_mem_write v hitems.1 h).mono
            (List.subset_cons_of_subset k (List.subset_append_left _ _))
  | (k, v) :: entry :: rest, hitems, h =>
      rw [writeMembers] at h
      rcases List.mem_append.mp h with h | h
      · exact hkey k _ h
      · rcases List.mem_cons.mp h with rfl | h
        · exact shown_of_ascii (by decide)
        · rcases List.mem_append.mp h with h | h
          · exact (shown_of_mem_write v hitems.1 h).mono
              (List.subset_cons_of_subset k (List.subset_append_left _ _))
          · rcases List.mem_cons.mp h with rfl | h
            · exact shown_of_ascii (by decide)
            · exact (shown_of_mem_writeMembers (entry :: rest) hitems.2 h).mono
                (List.subset_cons_of_subset k (List.subset_append_right _ _))

end

mutual

/-- The characters outside ASCII are written as they are. -/
theorem mem_write {c : Char} (hc : 128 ≤ c.toNat) (v : PyVal)
    (h : ∃ t ∈ textsOf v, c ∈ t.toList) : c ∈ write v := by
  match v, h with
  | .none, h => simp [textsOf] at h
  | .bool b, h => simp [textsOf] at h
  | .int n, h => simp [textsOf] at h
  | .float x, h => simp [textsOf] at h
  | .str s, h =>
      obtain ⟨t, ht, hmem⟩ := h
      rw [textsOf, List.mem_singleton] at ht
      rw [write]
      exact mem_writeString hc (ht ▸ hmem)
  | .list items, h =>
      rw [write, List.cons_append]
      exact List.mem_cons_of_mem _
        (List.mem_append_left _ (mem_writeElements hc items h))
  | .dict items, h =>
      rw [write, List.cons_append]
      exact List.mem_cons_of_mem _
        (List.mem_append_left _ (mem_writeMembers hc items h))

theorem mem_writeElements {c : Char} (hc : 128 ≤ c.toNat)
    (items : List PyVal) (h : ∃ t ∈ textsOfElements items, c ∈ t.toList) :
    c ∈ writeElements items := by
  match items, h with
  | [], h => simp [textsOfElements] at h
  | [v], h =>
      obtain ⟨t, ht, hmem⟩ := h
      rw [textsOfElements, textsOfElements, List.append_nil] at ht
      rw [writeElements]
      exact mem_write hc v ⟨t, ht, hmem⟩
  | v :: w :: vs, h =>
      obtain ⟨t, ht, hmem⟩ := h
      rw [textsOfElements] at ht
      rw [writeElements]
      rcases List.mem_append.mp ht with ht | ht
      · exact List.mem_append_left _ (mem_write hc v ⟨t, ht, hmem⟩)
      · exact List.mem_append_right _ (List.mem_cons_of_mem _
          (mem_writeElements hc (w :: vs) ⟨t, ht, hmem⟩))

theorem mem_writeMembers {c : Char} (hc : 128 ≤ c.toNat)
    (items : List (String × PyVal))
    (h : ∃ t ∈ textsOfMembers items, c ∈ t.toList) : c ∈ writeMembers items := by
  match items, h with
  | [], h => simp [textsOfMembers] at h
  | [(k, v)], h =>
      obtain ⟨t, ht, hmem⟩ := h
      rw [textsOfMembers, textsOfMembers, List.append_nil] at ht
      rw [writeMembers]
      rcases List.mem_cons.mp ht with rfl | ht
      · exact List.mem_append_left _ (mem_writeString hc hmem)
      · exact List.mem_append_right _
          (List.mem_cons_of_mem _ (mem_write hc v ⟨t, ht, hmem⟩))
  | (k, v) :: entry :: rest, h =>
      obtain ⟨t, ht, hmem⟩ := h
      rw [textsOfMembers] at ht
      rw [writeMembers]
      rcases List.mem_cons.mp ht with rfl | ht
      · exact List.mem_append_left _ (mem_writeString hc hmem)
      · refine List.mem_append_right _ (List.mem_cons_of_mem _ ?_)
        rcases List.mem_append.mp ht with ht | ht
        · exact List.mem_append_left _ (mem_write hc v ⟨t, ht, hmem⟩)
        · exact List.mem_append_right _ (List.mem_cons_of_mem _
            (mem_writeMembers hc (entry :: rest) ⟨t, ht, hmem⟩))

end

/-! ## Dictionaries of settled values -/

/-- An assigned entry is new, or an old one under another key. -/
theorem mem_assignEntry {k k' : String} {v v' : PyVal} (hnodup : (items.map Prod.fst).Nodup) :
    (k', v') ∈ assignEntry k v items ↔
      (k' = k ∧ v' = v) ∨ ((k', v') ∈ items ∧ k' ≠ k) := by
  rw [mem_iff_lookupEntry (assignEntry_keys_nodup hnodup),
    lookupEntry_assignEntry, mem_iff_lookupEntry hnodup]
  by_cases hk : k' = k
  · rw [if_pos hk, Option.some.injEq]
    simp [hk, eq_comm]
  · rw [if_neg hk]
    simp [hk]

theorem mem_textsOfMembers {t : String} :
    t ∈ textsOfMembers items ↔
      ∃ entry ∈ items, t = entry.1 ∨ t ∈ textsOf entry.2 := by
  induction items with
  | nil => simp [textsOfMembers]
  | cons entry rest ih =>
      obtain ⟨k, v⟩ := entry
      rw [textsOfMembers, List.mem_cons, List.mem_append, ih]
      simp only [List.exists_mem_cons_iff, or_assoc]

theorem plainMembers_iff :
    PlainMembers items ↔ ∀ entry ∈ items, Plain entry.2 := by
  induction items with
  | nil => simp [PlainMembers]
  | cons entry rest ih =>
      obtain ⟨k, v⟩ := entry
      rw [PlainMembers, ih, List.forall_mem_cons]

/-- The keys are distinct, and the values are their own canonical form. -/
structure Settled (items : List (String × PyVal)) : Prop where
  nodup : (items.map Prod.fst).Nodup
  plain : ∀ entry ∈ items, Plain entry.2
  canonical : ∀ entry ∈ items, entry.2.canonical = entry.2

/-- The items in the order of their keys. -/
def sortedItems (items : List (String × PyVal)) : List (String × PyVal) :=
  items.insertionSort fun a b => a.1 ≤ b.1

theorem sortedItems_perm (items : List (String × PyVal)) :
    (sortedItems items).Perm items :=
  List.perm_insertionSort (fun a b : String × PyVal => a.1 ≤ b.1) items

section Settled

variable {items : List (String × PyVal)}

theorem Settled.setItem {k : String} {v : PyVal} (h : Settled items)
    (hplain : Plain v) (hcanonical : v.canonical = v) :
    Settled (PyVal.setItem items k v) where
  nodup := assignEntry_keys_nodup h.nodup
  plain := by
    rintro ⟨k', v'⟩ hmem
    rcases (mem_assignEntry h.nodup).mp hmem with ⟨-, rfl⟩ | ⟨hmem, -⟩
    · exact hplain
    · exact h.plain _ hmem
  canonical := by
    rintro ⟨k', v'⟩ hmem
    rcases (mem_assignEntry h.nodup).mp hmem with ⟨-, rfl⟩ | ⟨hmem, -⟩
    · exact hcanonical
    · exact h.canonical _ hmem

theorem Settled.canonical_dict (h : Settled items) :
    (PyVal.dict items).canonical = .dict (sortedItems items) := by
  have hitems : PyVal.canonicalItems items = items := by
    rw [PyVal.canonicalItems_eq_map]
    refine (List.map_congr_left fun entry hmem => ?_).trans (List.map_id items)
    rw [h.canonical entry hmem]
    rfl
  rw [PyVal.canonical, hitems]
  rfl

theorem Settled.plain_canonical (h : Settled items) :
    Plain (.dict (sortedItems items)) := by
  constructor
  · exact ((sortedItems_perm items).map Prod.fst).nodup_iff.mpr h.nodup
  · rw [plainMembers_iff]
    exact fun entry hmem =>
      h.plain entry ((sortedItems_perm items).mem_iff.mp hmem)

theorem Settled.item?_sortedItems (h : Settled items) (k : String) :
    PyVal.item? (sortedItems items) k = PyVal.item? items k := by
  have hnodup : ((sortedItems items).map Prod.fst).Nodup :=
    ((sortedItems_perm items).map Prod.fst).nodup_iff.mpr h.nodup
  rw [PyVal.item?_eq_lookupEntry, PyVal.item?_eq_lookupEntry]
  refine Option.ext fun v => ?_
  rw [← mem_iff_lookupEntry hnodup, ← mem_iff_lookupEntry h.nodup,
    (sortedItems_perm items).mem_iff]

/-- The line of a dictionary is read back with its keys in order. -/
theorem Settled.loads_canonicalDumps (h : Settled items)
    (readFloat : List Char → PyFloat) :
    loads readFloat (canonicalDumps (.dict items)) =
      some (.dict (sortedItems items)) := by
  rw [canonicalDumps, h.canonical_dict]
  exact loads_write readFloat h.plain_canonical

theorem Settled.mem_canonicalDumps (h : Settled items) {c : Char}
    (hmem : c ∈ canonicalDumps (.dict items)) :
    Shown (textsOf (.dict items)) c := by
  rw [canonicalDumps, h.canonical_dict] at hmem
  refine (shown_of_mem_write _ h.plain_canonical hmem).mono ?_
  intro t ht
  rw [textsOf, mem_textsOfMembers] at ht ⊢
  obtain ⟨entry, hentry, ht⟩ := ht
  exact ⟨entry, (sortedItems_perm items).mem_iff.mp hentry, ht⟩

theorem Settled.mem_canonicalDumps_of_mem (h : Settled items) {c : Char}
    (hc : 128 ≤ c.toNat) (hmem : ∃ t ∈ textsOf (.dict items), c ∈ t.toList) :
    c ∈ canonicalDumps (.dict items) := by
  rw [canonicalDumps, h.canonical_dict]
  refine mem_write hc _ ?_
  obtain ⟨t, ht, hct⟩ := hmem
  rw [textsOf, mem_textsOfMembers] at ht
  obtain ⟨entry, hentry, ht⟩ := ht
  refine ⟨t, ?_, hct⟩
  rw [textsOf, mem_textsOfMembers]
  exact ⟨entry, (sortedItems_perm items).mem_iff.mpr hentry, ht⟩

end Settled

end Hydrogenuine.Support.Json
