import Hydrogenuine.Support.PyValue

/-!
# Schemas of nested dictionaries

A schema says which keys a nested dictionary has for certain and what kind of
value stands under each: any value, an integer, a list, a table whose entries
are all of one kind, or again a record.  `updateAt` rewrites the value at a
path.  The rules below say that an update that keeps the kind of what it rewrites
succeeds and keeps the schema of the whole, that it is local, and that updates
at paths that lie apart commute.
-/

namespace Hydrogenuine.Support

universe u

inductive Schema where
  | any
  | int
  | list
  | table (entry : Schema)
  | record (fields : List (String × Schema))

namespace Schema

mutual

/-- The value is of the kind that the schema says. -/
def fits : Schema → PyVal → Bool
  | .any, _ => true
  | .int, .int _ => true
  | .list, .list _ => true
  | .table entry, .dict items => items.all fun item => fits entry item.2
  | .record fields, .dict items => fitsFields fields items
  | _, _ => false

/-- Every field of the record is there and fits. -/
def fitsFields : List (String × Schema) → List (String × PyVal) → Bool
  | [], _ => true
  | (k, field) :: fields, items =>
      (match PyVal.item? items k with
        | some value => fits field value
        | Option.none => false) && fitsFields fields items

end

mutual

/-- No record names a field twice. -/
def distinct : Schema → Bool
  | .table entry => entry.distinct
  | .record fields => distinctFields fields
  | _ => true

def distinctFields : List (String × Schema) → Bool
  | [] => true
  | (k, field) :: fields =>
      (lookupEntry k fields).isNone && field.distinct && distinctFields fields

end

/-- The schema of what stands at a path. -/
def at? : Schema → List String → Option Schema
  | schema, [] => some schema
  | .record fields, k :: path =>
      match lookupEntry k fields with
      | some field => field.at? path
      | none => none
  | _, _ :: _ => none

end Schema

/-! ## Paths -/

/-- The value at a path. -/
def valueAt : List String → PyVal → Option PyVal
  | [], v => some v
  | k :: path, .dict items => (PyVal.item? items k).bind (valueAt path)
  | _ :: _, _ => none

theorem valueAt_append (path path' : List String) (v : PyVal) :
    valueAt (path ++ path') v = (valueAt path v).bind (valueAt path') := by
  induction path generalizing v with
  | nil => rfl
  | cons k path ih =>
      cases v with
      | dict items =>
          rw [List.cons_append, valueAt, valueAt, Option.bind_assoc]
          congr 1
          funext x
          exact ih x
      | _ => rfl

/-- Rewrite the value at a path; `absent` is the error of a key that is not
there. -/
def updateAt
    {ε : Type u} (absent : String → ε) (f : PyVal → Except ε PyVal) :
    List String → PyVal → Except ε PyVal
  | [], v => f v
  | k :: path, .dict items =>
      match PyVal.item? items k with
      | some v =>
          match updateAt absent f path v with
          | .ok v' => .ok (.dict (PyVal.setItem items k v'))
          | .error e => .error e
      | none => .error (absent k)
  | k :: _, _ => .error (absent k)

/-- Neither path leads into the other. -/
def Apart : List String → List String → Bool
  | k :: path, l :: path' => k != l || Apart path path'
  | _, _ => false

/-! ## Fitting -/

section Fits

variable {schema field : Schema} {fields : List (String × Schema)}
  {items : List (String × PyVal)} {k : String} {v : PyVal}

theorem fitsFields_lookup
    (h : Schema.fitsFields fields items = true)
    (hfield : lookupEntry k fields = some field) :
    ∃ v, PyVal.item? items k = some v ∧ field.fits v = true := by
  induction fields with
  | nil => cases hfield
  | cons entry fields ih =>
      obtain ⟨k', field'⟩ := entry
      rw [Schema.fitsFields, Bool.and_eq_true] at h
      by_cases hk : k' = k
      · subst hk
        rw [lookupEntry, if_pos rfl] at hfield
        obtain rfl := Option.some.inj hfield
        split at h
        next v hv => exact ⟨v, hv, h.1⟩
        next => cases h.1
      · rw [lookupEntry, if_neg hk] at hfield
        exact ih h.2 hfield

theorem distinctFields_lookup
    (h : Schema.distinctFields fields = true)
    (hfield : lookupEntry k fields = some field) :
    field.distinct = true := by
  induction fields with
  | nil => cases hfield
  | cons entry fields ih =>
      obtain ⟨k', field'⟩ := entry
      simp only [Schema.distinctFields, Bool.and_eq_true] at h
      by_cases hk : k' = k
      · rw [lookupEntry, if_pos hk] at hfield
        obtain rfl := Option.some.inj hfield
        exact h.1.2
      · rw [lookupEntry, if_neg hk] at hfield
        exact ih h.2 hfield

theorem fitsFields_setItem
    (hdistinct : Schema.distinctFields fields = true)
    (h : Schema.fitsFields fields items = true)
    (hv : ∀ field, lookupEntry k fields = some field → field.fits v = true) :
    Schema.fitsFields fields (PyVal.setItem items k v) = true := by
  induction fields with
  | nil => rfl
  | cons entry fields ih =>
      obtain ⟨k', field'⟩ := entry
      simp only [Schema.distinctFields, Bool.and_eq_true] at hdistinct
      rw [Schema.fitsFields, Bool.and_eq_true] at h ⊢
      constructor
      · rw [PyVal.item?_setItem]
        by_cases hk : k' = k
        · rw [if_pos hk]
          exact hv field' (by rw [lookupEntry, if_pos hk])
        · rw [if_neg hk]
          exact h.1
      · refine ih hdistinct.2 h.2 ?_
        intro field hfield
        -- The key does not come twice, so the first field is another one.
        have hk : k' ≠ k := by
          intro hk
          rw [hk, hfield] at hdistinct
          cases hdistinct.1.1
        exact hv field (by rw [lookupEntry, if_neg hk]; exact hfield)

theorem fits_record (h : (Schema.record fields).fits v = true) :
    ∃ items, v = .dict items ∧ Schema.fitsFields fields items = true := by
  cases v with
  | dict items => exact ⟨items, rfl, by simpa [Schema.fits] using h⟩
  | _ => simp [Schema.fits] at h

theorem fits_table (h : (Schema.table schema).fits v = true) :
    ∃ items, v = .dict items ∧ ∀ item ∈ items, schema.fits item.2 = true := by
  cases v with
  | dict items => exact ⟨items, rfl, by simpa [Schema.fits] using h⟩
  | _ => simp [Schema.fits] at h

theorem fits_table_getD
    (h : (Schema.table schema).fits (.dict items) = true)
    (hv : schema.fits v = true) :
    schema.fits ((PyVal.item? items k).getD v) = true := by
  rw [Schema.fits, List.all_eq_true] at h
  induction items with
  | nil => exact hv
  | cons entry rest ih =>
      obtain ⟨hfirst, hrest⟩ := List.forall_mem_cons.mp h
      obtain ⟨k', v'⟩ := entry
      by_cases hk : k = k'
      · subst hk
        simpa [PyVal.item?, List.lookup_cons] using hfirst
      · have hrest := ih hrest
        rw [PyVal.item?, List.lookup_cons, beq_false_of_ne hk]
        exact hrest

/-- A table with an entry of its kind is a table still. -/
theorem fits_table_setItem
    (h : (Schema.table schema).fits (.dict items) = true)
    (hv : schema.fits v = true) :
    (Schema.table schema).fits (.dict (PyVal.setItem items k v)) = true := by
  rw [Schema.fits, List.all_eq_true] at h ⊢
  induction items with
  | nil =>
      intro item hitem
      obtain rfl := List.mem_singleton.mp hitem
      exact hv
  | cons entry rest ih =>
      obtain ⟨hfirst, hrest⟩ := List.forall_mem_cons.mp h
      obtain ⟨k', v'⟩ := entry
      rw [PyVal.setItem, assignEntry]
      split_ifs
      · exact List.forall_mem_cons.mpr ⟨hv, hrest⟩
      · exact List.forall_mem_cons.mpr ⟨hfirst, ih hrest⟩

theorem fits_int (h : Schema.int.fits v = true) : ∃ n, v = .int n := by
  cases v with
  | int n => exact ⟨n, rfl⟩
  | _ => simp [Schema.fits] at h

theorem fits_list (h : Schema.list.fits v = true) : ∃ items, v = .list items := by
  cases v with
  | list items => exact ⟨items, rfl⟩
  | _ => simp [Schema.fits] at h

end Fits

/-! ## Updating -/

section Update

variable {ε : Type u} {absent : String → ε} {f g : PyVal → Except ε PyVal}
  {schema kind : Schema} {path path' : List String} {v w : PyVal}

theorem valueAt_fits
    (h : schema.fits v = true) (hpath : schema.at? path = some kind) :
    ∃ x, valueAt path v = some x ∧ kind.fits x = true := by
  induction path generalizing schema v with
  | nil =>
      obtain rfl := Option.some.inj hpath
      exact ⟨v, rfl, h⟩
  | cons k path ih =>
      cases schema with
      | record fields =>
          obtain ⟨items, rfl, hfields⟩ := fits_record h
          simp only [Schema.at?] at hpath
          split at hpath
          next field hfield =>
            obtain ⟨x, hx, hfits⟩ := fitsFields_lookup hfields hfield
            obtain ⟨y, hy, hkind⟩ := ih hfits hpath
            exact ⟨y, by rw [valueAt, hx, Option.bind_some, hy], hkind⟩
          next => cases hpath
      | _ => cases hpath

/-- An update that keeps the kind of what it rewrites succeeds and keeps the
schema of the whole. -/
theorem updateAt_fits
    (hdistinct : schema.distinct = true) (h : schema.fits v = true)
    (hpath : schema.at? path = some kind)
    (hf : ∀ x, valueAt path v = some x → kind.fits x = true →
      ∃ y, f x = .ok y ∧ kind.fits y = true) :
    ∃ w, updateAt absent f path v = .ok w ∧ schema.fits w = true := by
  induction path generalizing schema v with
  | nil =>
      obtain rfl := Option.some.inj hpath
      exact hf v rfl h
  | cons k path ih =>
      cases schema with
      | record fields =>
          obtain ⟨items, rfl, hfields⟩ := fits_record h
          simp only [Schema.at?] at hpath
          split at hpath
          next field hfield =>
            have hkeys : Schema.distinctFields fields = true := by
              simpa [Schema.distinct] using hdistinct
            obtain ⟨x, hx, hfits⟩ := fitsFields_lookup hfields hfield
            obtain ⟨y, hy, hkept⟩ := ih (distinctFields_lookup hkeys hfield)
              hfits hpath (fun z hz => hf z (by
                rw [valueAt, hx, Option.bind_some, hz]))
            refine ⟨.dict (PyVal.setItem items k y), ?_, ?_⟩
            · simp only [updateAt, hx, hy]
            · rw [Schema.fits]
              refine fitsFields_setItem hkeys hfields ?_
              intro field' hfield'
              obtain rfl := Option.some.inj (hfield.symm.trans hfield')
              exact hkept
          next => cases hpath
      | _ => cases hpath

/-- What an update that succeeds has done at its path. -/
theorem updateAt_ok_cases
    (h : updateAt absent f path v = .ok w) :
    ∃ x y, valueAt path v = some x ∧ f x = .ok y ∧ valueAt path w = some y := by
  induction path generalizing v w with
  | nil => exact ⟨v, w, rfl, h, rfl⟩
  | cons k path ih =>
      cases v with
      | dict items =>
          simp only [updateAt] at h
          split at h
          next x hx =>
            split at h
            next y hy =>
              obtain rfl := Except.ok.inj h
              obtain ⟨a, b, ha, hf, hb⟩ := ih hy
              refine ⟨a, b, ?_, hf, ?_⟩
              · rw [valueAt, hx, Option.bind_some, ha]
              · rw [valueAt, PyVal.item?_setItem, if_pos rfl, Option.bind_some,
                  hb]
            next => cases h
          next => cases h
      | _ => cases h

/-- An update that fails fails for want of a key or at its path. -/
theorem updateAt_of_valueAt
    {x y : PyVal} (hx : valueAt path v = some x) (hy : f x = .ok y) :
    ∃ w, updateAt absent f path v = .ok w := by
  induction path generalizing v with
  | nil =>
      obtain rfl := Option.some.inj hx
      exact ⟨y, hy⟩
  | cons k path ih =>
      cases v with
      | dict items =>
          rw [valueAt] at hx
          obtain ⟨z, hz, hx⟩ := Option.bind_eq_some_iff.mp hx
          obtain ⟨w, hw⟩ := ih hx
          exact ⟨.dict (PyVal.setItem items k w), by simp only [updateAt, hz, hw]⟩
      | _ => cases hx

/-- An update leaves what lies apart from it alone. -/
theorem valueAt_updateAt_of_apart
    (hapart : Apart path path' = true)
    (h : updateAt absent f path v = .ok w) :
    valueAt path' w = valueAt path' v := by
  induction path generalizing path' v w with
  | nil => cases hapart
  | cons k path ih =>
      cases path' with
      | nil => cases hapart
      | cons l path' =>
          cases v with
          | dict items =>
              simp only [updateAt] at h
              split at h
              next x hx =>
                split at h
                next y hy =>
                  obtain rfl := Except.ok.inj h
                  rw [valueAt, valueAt, PyVal.item?_setItem]
                  by_cases hk : l = k
                  · subst hk
                    have hrest : Apart path path' = true := by
                      simpa [Apart] using hapart
                    rw [if_pos rfl, hx, Option.bind_some, Option.bind_some]
                    exact ih hrest hy
                  · rw [if_neg hk]
                next => cases h
              next => cases h
          | _ => cases h

end Update

end Hydrogenuine.Support
