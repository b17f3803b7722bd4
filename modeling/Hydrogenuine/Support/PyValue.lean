import Mathlib.Algebra.Order.Ring.Rat
import Mathlib.Data.List.Infix
import Mathlib.Data.List.Sort
import Hydrogenuine.Support.Dict

/-!
# Values of a dynamically typed host language

The JSON-shaped values that untyped record fields range over, with the host
language's truthiness, equality, ordering and containment.  Ordering two values
of unrelated types is an error and is modelled by `none`.

A finite float carries its exact value together with the text its `repr` shows,
so that rendering a value needs no decimal conversion.  Rendering a container is
left to a parameter: the quoting rules of nested strings depend on a Unicode
table.
-/

namespace Hydrogenuine.Support

/-! ## Text -/

def startsWith (s p : String) : Bool := p.toList.isPrefixOf s.toList

def endsWith (s p : String) : Bool := p.toList.isSuffixOf s.toList

/-- `p in s` for two strings. -/
def isSubstring (p s : String) : Bool := s.toList.tails.any p.toList.isPrefixOf

/-- `s[lo:hi]`. -/
def slice (s : String) (lo hi : ℕ) : String :=
  String.ofList ((s.toList.take hi).drop lo)

def isSpace (c : Char) : Bool :=
  let n := c.toNat
  (9 ≤ n && n ≤ 13) || (28 ≤ n && n ≤ 32) || n == 133 || n == 160 ||
    n == 5760 || (8192 ≤ n && n ≤ 8202) || n == 8232 || n == 8233 ||
    n == 8239 || n == 8287 || n == 12288

def strip (s : String) : String :=
  String.ofList
    (((s.toList.dropWhile isSpace).reverse.dropWhile isSpace).reverse)

/-- `s.lower()` for ASCII letters. -/
def lower (s : String) : String := String.ofList (s.toList.map Char.toLower)

/-- `s or d` for an optional text: both `None` and `""` give way. -/
def orText : Option String → String → String
  | some s, d => if s = "" then d else s
  | none, d => d

/-- `bool(s)` for an optional text. -/
def isText : Option String → Bool
  | some s => s != ""
  | none => false

theorem startsWith_iff (s p : String) :
    startsWith s p = true ↔ p.toList <+: s.toList := by
  rw [startsWith, List.isPrefixOf_iff_prefix]

theorem startsWith_append (p s : String) : startsWith (p ++ s) p = true := by
  rw [startsWith_iff, String.toList_append]
  exact List.prefix_append _ _

/-- A text whose beginning disagrees with `p` does not start with `p`. -/
theorem startsWith_append_eq_false
    {a p : String} (s : String)
    (hpa : a.toList.isPrefixOf p.toList = false)
    (hap : p.toList.isPrefixOf a.toList = false) :
    startsWith (a ++ s) p = false := by
  rw [Bool.eq_false_iff] at hpa hap ⊢
  intro hstarts
  rw [startsWith_iff, String.toList_append] at hstarts
  rcases List.prefix_or_prefix_of_prefix hstarts (List.prefix_append _ _) with
    hstem | hstem
  · exact hap (List.isPrefixOf_iff_prefix.mpr hstem)
  · exact hpa (List.isPrefixOf_iff_prefix.mpr hstem)

/-! ## Values -/

/-- A binary float: finite with its rendered text, infinite, or not a number. -/
inductive PyFloat where
  | finite (value : ℚ) (repr : String)
  | inf (negative : Bool)
  | nan

/-- The values an untyped field may hold. -/
inductive PyVal where
  | none
  | bool (b : Bool)
  | int (n : ℤ)
  | float (x : PyFloat)
  | str (s : String)
  | list (items : List PyVal)
  | dict (items : List (String × PyVal))

instance : Inhabited PyVal := ⟨.none⟩

namespace PyVal

/-- `bool(v)`. -/
def truthy : PyVal → Bool
  | .none => false
  | .bool b => b
  | .int n => n != 0
  | .float (.finite q _) => q != 0
  | .float _ => true
  | .str s => s != ""
  | .list items => !items.isEmpty
  | .dict items => !items.isEmpty

/-- `str(v)`, given how containers are rendered. -/
def render (renderContainer : PyVal → String) : PyVal → String
  | .none => "None"
  | .bool b => if b then "True" else "False"
  | .int n => toString n
  | .float (.finite _ repr) => repr
  | .float (.inf negative) => if negative then "-inf" else "inf"
  | .float .nan => "nan"
  | .str s => s
  | .list items => renderContainer (.list items)
  | .dict items => renderContainer (.dict items)

/-- The numeric reading of a value: booleans count as `0` and `1`. -/
def num? : PyVal → Option PyFloat
  | .bool b => some (.finite (if b then 1 else 0) "")
  | .int n => some (.finite n "")
  | .float x => some x
  | _ => Option.none

/-- Numeric `==`. -/
def numEq : PyFloat → PyFloat → Bool
  | .finite p _, .finite q _ => p == q
  | .inf a, .inf b => a == b
  | _, _ => false

/-- Numeric `<`. -/
def numLt : PyFloat → PyFloat → Bool
  | .finite p _, .finite q _ => decide (p < q)
  | .finite _ _, .inf negative => !negative
  | .inf negative, .finite _ _ => negative
  | .inf a, .inf b => a && !b
  | _, _ => false

mutual

/-- `v == w`. -/
def pyEq : PyVal → PyVal → Bool
  | .none, .none => true
  | .str a, .str b => a == b
  | .list xs, .list ys => pyEqList xs ys
  | .dict xs, .dict ys => xs.length == ys.length && pyEqItems xs ys
  | v, w =>
      match v.num?, w.num? with
      | some a, some b => numEq a b
      | _, _ => false

/-- Elementwise `==` of two lists. -/
def pyEqList : List PyVal → List PyVal → Bool
  | [], [] => true
  | v :: vs, w :: ws => v.pyEq w && pyEqList vs ws
  | _, _ => false

/-- Every item of the first dictionary has an equal item in the second. -/
def pyEqItems : List (String × PyVal) → List (String × PyVal) → Bool
  | [], _ => true
  | (k, v) :: rest, ys =>
      (match ys.lookup k with
        | some w => v.pyEq w
        | Option.none => false) && pyEqItems rest ys

end

mutual

/-- `v < w`; `none` when the two types are not ordered. -/
def pyLt : PyVal → PyVal → Option Bool
  | .str a, .str b => some (decide (a < b))
  | .list xs, .list ys => pyLtList xs ys
  | v, w =>
      match v.num?, w.num? with
      | some a, some b => some (numLt a b)
      | _, _ => Option.none

/-- Lexicographic `<`: the first differing position decides. -/
def pyLtList : List PyVal → List PyVal → Option Bool
  | [], [] => some false
  | [], _ :: _ => some true
  | _ :: _, [] => some false
  | v :: vs, w :: ws => if v.pyEq w then pyLtList vs ws else v.pyLt w

end

/-- `v <= w`; `none` when the two types are not ordered. -/
def pyLe (v w : PyVal) : Option Bool :=
  (v.pyLt w).map fun lt => lt || v.pyEq w

/-- `v in w`; `none` when `w` is not a container of such values. -/
def pyIn (v : PyVal) : PyVal → Option Bool
  | .str s =>
      match v with
      | .str p => some (isSubstring p s)
      | _ => Option.none
  | .list items => some (items.any fun item => v.pyEq item)
  | .dict items =>
      match v with
      | .str k => some ((items.lookup k).isSome)
      | .list _ => Option.none
      | .dict _ => Option.none
      | _ => some false
  | _ => Option.none

theorem pyEq_none_iff (v : PyVal) : v.pyEq .none = true ↔ v = .none := by
  cases v <;> simp [pyEq, num?]

theorem pyEq_str_iff (v : PyVal) (s : String) :
    v.pyEq (.str s) = true ↔ v = .str s := by
  cases v <;> simp [pyEq, num?]

/-- `d.get(k)` on the items of a dictionary value. -/
def item? (items : List (String × PyVal)) (k : String) : Option PyVal :=
  items.lookup k

/-- `d.get(k)` with `None` for a missing key. -/
def getItem (items : List (String × PyVal)) (k : String) : PyVal :=
  (item? items k).getD .none

/-- `d[k] = v` on the items of a dictionary value. -/
def setItem
    (items : List (String × PyVal)) (k : String) (v : PyVal) :
    List (String × PyVal) :=
  assignEntry k v items

theorem item?_eq_lookupEntry (items : List (String × PyVal)) (k : String) :
    item? items k = lookupEntry k items := by
  unfold item?
  induction items with
  | nil => rfl
  | cons entry rest ih =>
      obtain ⟨k', v⟩ := entry
      by_cases h : k' = k
      · simp [lookupEntry, h]
      · simp [lookupEntry, List.lookup_cons, beq_false_of_ne (Ne.symm h), h, ih]

theorem item?_setItem
    (items : List (String × PyVal)) (k k' : String) (v : PyVal) :
    item? (setItem items k v) k' = if k' = k then some v else item? items k' := by
  simp only [item?_eq_lookupEntry, setItem, lookupEntry_assignEntry]

theorem getItem_setItem
    (items : List (String × PyVal)) (k k' : String) (v : PyVal) :
    getItem (setItem items k v) k' = if k' = k then v else getItem items k' := by
  unfold getItem
  rw [item?_setItem]
  split_ifs
  · rfl
  · rfl

/-- An optional text field as a value. -/
def ofOption : Option String → PyVal
  | some s => .str s
  | Option.none => .none

/-- A tuple or list of texts as a value. -/
def ofStrings (items : List String) : PyVal := .list (items.map .str)

/-! ### Canonical form -/

mutual

/-- The value as canonical JSON writes it: the items of every dictionary in the
order of their keys. -/
def canonical : PyVal → PyVal
  | .list items => .list (canonicalList items)
  | .dict items =>
      .dict ((canonicalItems items).insertionSort fun a b => a.1 ≤ b.1)
  | v => v

def canonicalList : List PyVal → List PyVal
  | [] => []
  | v :: vs => v.canonical :: canonicalList vs

def canonicalItems : List (String × PyVal) → List (String × PyVal)
  | [] => []
  | (k, v) :: rest => (k, v.canonical) :: canonicalItems rest

end

theorem canonicalItems_eq_map (items : List (String × PyVal)) :
    canonicalItems items =
      items.map fun entry => (entry.1, entry.2.canonical) := by
  induction items with
  | nil => simp [canonicalItems]
  | cons entry rest ih =>
      obtain ⟨k, v⟩ := entry
      rw [canonicalItems, ih, List.map_cons]

/-- The order of the keys is lost in the canonical form. -/
theorem canonical_dict_of_perm
    {items items' : List (String × PyVal)} (hperm : items.Perm items')
    (hnodup : (items.map Prod.fst).Nodup) :
    (PyVal.dict items).canonical = (PyVal.dict items').canonical := by
  have hcanonical : (canonicalItems items).Perm (canonicalItems items') := by
    rw [canonicalItems_eq_map, canonicalItems_eq_map]
    exact hperm.map _
  have hkeys : ((canonicalItems items).map Prod.fst).Nodup := by
    rw [canonicalItems_eq_map, List.map_map]
    exact hnodup
  have hsort (items : List (String × PyVal)) :=
    List.perm_insertionSort (fun a b : String × PyVal => a.1 ≤ b.1) items
  rw [canonical, canonical, PyVal.dict.injEq]
  refine List.Perm.eq_of_pairwise ?_
    (List.pairwise_insertionSort (fun a b : String × PyVal => a.1 ≤ b.1) _)
    (List.pairwise_insertionSort (fun a b : String × PyVal => a.1 ≤ b.1) _)
    (((hsort _).trans hcanonical).trans (hsort _).symm)
  intro a b ha hb hab hba
  have ha' := (hsort _).mem_iff.mp ha
  have hb' := hcanonical.mem_iff.mpr ((hsort _).mem_iff.mp hb)
  exact List.inj_on_of_nodup_map hkeys ha' hb' (String.le_antisymm hab hba)

/-- Dictionaries with the same canonical form have the same canonical items. -/
theorem mem_canonicalItems_iff
    {items items' : List (String × PyVal)}
    (h : (PyVal.dict items).canonical = (PyVal.dict items').canonical)
    (entry : String × PyVal) :
    entry ∈ canonicalItems items ↔ entry ∈ canonicalItems items' := by
  rw [canonical, canonical, PyVal.dict.injEq] at h
  have hsorted (items : List (String × PyVal)) :
      entry ∈ items.insertionSort (fun a b => a.1 ≤ b.1) ↔ entry ∈ items :=
    (List.perm_insertionSort (fun a b => a.1 ≤ b.1) items).mem_iff
  rw [← hsorted (canonicalItems items), h, hsorted]

mutual

/-- The canonical form is its own. -/
theorem canonical_canonical : ∀ value : PyVal, value.canonical.canonical = value.canonical
  | .list items => by rw [canonical, canonical, canonicalList_canonicalList items]
  | .dict items => by
      have hself : canonicalItems ((canonicalItems items).insertionSort fun a b => a.1 ≤ b.1) =
          (canonicalItems items).insertionSort fun a b => a.1 ≤ b.1 := by
        refine (canonicalItems_eq_map _).trans ?_
        refine (List.map_congr_left fun entry hmem => ?_).trans (List.map_id _)
        rw [canonical_of_mem items entry ((List.mem_insertionSort _).mp hmem)]
        rfl
      rw [canonical, canonical, hself,
        (List.pairwise_insertionSort (fun a b : String × PyVal => a.1 ≤ b.1) _).insertionSort_eq]
  | .none | .bool _ | .int _ | .float _ | .str _ => rfl

theorem canonicalList_canonicalList : ∀ values,
    canonicalList (canonicalList values) = canonicalList values
  | [] => rfl
  | value :: rest => by
      rw [canonicalList, canonicalList, canonical_canonical value,
        canonicalList_canonicalList rest]

theorem canonical_of_mem : ∀ items, ∀ entry ∈ canonicalItems items,
    entry.2.canonical = entry.2
  | (key, value) :: rest, entry, h => by
      rw [canonicalItems] at h
      rcases List.mem_cons.mp h with rfl | h
      · exact canonical_canonical value
      · exact canonical_of_mem rest entry h

end

end PyVal

end Hydrogenuine.Support
