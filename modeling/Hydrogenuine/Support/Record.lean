import Hydrogenuine.Support.PyValue

/-!
# Records as dictionaries

A record is written as a dictionary field by field, where a field may be left out, and
read back with a default for what is missing.  `item?_items_cons` evaluates a lookup in
what was written; the laws of the readers say that a field is read back as it was, in
each of the ways in which it may have been written.
-/

namespace Hydrogenuine.Support.Record

/-- The items of the fields that are present. -/
def items : List (String × Option PyVal) → List (String × PyVal)
  | [] => []
  | (_, none) :: rest => items rest
  | (k, some v) :: rest => (k, v) :: items rest

/-- A field that is left out under a condition. -/
def leftOutIf (condition : Bool) (v : PyVal) : Option PyVal :=
  if condition then none else some v

@[simp] theorem item?_items_nil (k : String) : PyVal.item? (items []) k = none := rfl

@[simp] theorem item?_items_cons
    (k k' : String) (v : Option PyVal) (rest : List (String × Option PyVal)) :
    PyVal.item? (items ((k', v) :: rest)) k =
      if k' = k then v.or (PyVal.item? (items rest) k)
      else PyVal.item? (items rest) k := by
  simp only [PyVal.item?_eq_lookupEntry]
  cases v with
  | none =>
      rw [items, Option.none_or, ite_self]
  | some v =>
      rw [items, lookupEntry, Option.some_or]

/-! ## Readers -/

section

variable {ε α : Type} (read : PyVal → Except ε α)

/-- `d.get(k, default)`, read as a value of a type. -/
def readOr (default : α) : Option PyVal → Except ε α
  | none => .ok default
  | some v => read v

/-- `d.get(k)`, read as a value of a type or `None`. -/
def readOptional : Option PyVal → Except ε (Option α)
  | none => .ok none
  | some .none => .ok none
  | some v => (read v).map some

variable {read} {x default : α} {v : PyVal}

theorem readOr_some : readOr read default (some v) = read v := rfl

/-- A field that is left out only where it has the default. -/
theorem readOr_leftOutIf {condition : Bool} (h : read v = .ok x)
    (hdefault : condition = true → x = default) :
    readOr read default (leftOutIf condition v) = .ok x := by
  cases condition with
  | true => rw [leftOutIf, if_pos rfl, readOr, hdefault rfl]
  | false => exact h

theorem readOptional_map (write : α → PyVal) (hread : ∀ x, read (write x) = .ok x)
    (hwrite : ∀ x, write x ≠ .none) (x : Option α) :
    readOptional read (x.map write) = .ok x := by
  cases x with
  | none => rfl
  | some x =>
      have hsome : ∀ v, v ≠ PyVal.none → readOptional read (some v) =
          (read v).map some := by
        intro v hv
        cases v with
        | none => exact absurd rfl hv
        | _ => rfl
      rw [Option.map_some, hsome _ (hwrite x), hread]
      rfl

end

end Hydrogenuine.Support.Record
