import Hydrogenuine.Support.PyValue

/-!
# Objects and references

Lists and dictionaries of the host language are objects, which values refer to by
address.  Two places that hold one address share the object, and a change made through
one of them shows in the other.  `Shows` relates a value to the tree that is read off it,
`Leads` says which objects a value leads to.  Changing an object that a value does not
lead to changes nothing of what the value shows.
-/

namespace Hydrogenuine.Support

/-- A value: a scalar, or a reference to an object. -/
inductive Datum where
  | none
  | bool (b : Bool)
  | int (n : ℤ)
  | float (x : PyFloat)
  | str (s : String)
  | ref (address : ℕ)

namespace Datum

/-- `v is None`. -/
def isNone : Datum → Bool
  | none => true
  | _ => false

/-- The integer that a value is, with booleans as `0` and `1`. -/
def integer? : Datum → Option ℤ
  | bool b => some (if b then 1 else 0)
  | int n => some n
  | _ => Option.none

end Datum

/-- A list or a dictionary. -/
inductive HeapObject where
  | list (items : List Datum)
  | dict (items : List (String × Datum))

/-- The objects, by address. -/
abbrev Heap : Type := List HeapObject

namespace HeapObject

/-- The values that an object holds. -/
def children : HeapObject → List Datum
  | .list items => items
  | .dict items => items.map Prod.snd

/-- The tree that an object stands for, given how its values are read. -/
def view (read : Datum → Option PyVal) : HeapObject → Option PyVal
  | .list items => (items.mapM read).map .list
  | .dict items =>
      (items.mapM fun entry => (read entry.2).map fun v => (entry.1, v)).map .dict

end HeapObject

namespace Heap

/-- The items of a dictionary. -/
def dict? (h : Heap) : Datum → Option (List (String × Datum))
  | .ref a =>
      match h[a]? with
      | some (.dict items) => some items
      | _ => none
  | _ => none

/-- The items of a list. -/
def list? (h : Heap) : Datum → Option (List Datum)
  | .ref a =>
      match h[a]? with
      | some (.list items) => some items
      | _ => none
  | _ => none

/-- `bool(v)`. -/
def truthy (h : Heap) : Datum → Bool
  | .none => false
  | .bool b => b
  | .int n => n != 0
  | .float x => (PyVal.float x).truthy
  | .str s => s != ""
  | .ref a =>
      match h[a]? with
      | some object => !object.children.isEmpty
      | none => false

/-- The tree that a value stands for, down to a depth. -/
def view (h : Heap) : ℕ → Datum → Option PyVal
  | _, .none => some .none
  | _, .bool b => some (.bool b)
  | _, .int n => some (.int n)
  | _, .float x => some (.float x)
  | _, .str s => some (.str s)
  | 0, .ref _ => none
  | depth + 1, .ref a => h[a]?.bind (HeapObject.view (view h depth))

/-- The tree that a value stands for, `none` if it contains itself. -/
def value (h : Heap) (d : Datum) : Option PyVal := h.view h.length d

/-- A tree is read off a value. -/
def Shows (h : Heap) (d : Datum) (v : PyVal) : Prop := ∃ depth, h.view depth d = some v

/-- A value leads to an object. -/
inductive Leads (h : Heap) : Datum → ℕ → Prop
  | here (a : ℕ) : Leads h (.ref a) a
  | child {a b : ℕ} {object : HeapObject} {d : Datum} (hobject : h[a]? = some object)
      (hd : d ∈ object.children) (hlead : Leads h d b) : Leads h (.ref a) b

mutual

/-- Build a tree out of new objects. -/
def alloc : PyVal → Heap → Heap × Datum
  | .none, h => (h, .none)
  | .bool b, h => (h, .bool b)
  | .int n, h => (h, .int n)
  | .float x, h => (h, .float x)
  | .str s, h => (h, .str s)
  | .list items, h =>
      let (h, ds) := allocList items h
      (h ++ [.list ds], .ref h.length)
  | .dict items, h =>
      let (h, entries) := allocItems items h
      (h ++ [.dict entries], .ref h.length)

def allocList : List PyVal → Heap → Heap × List Datum
  | [], h => (h, [])
  | v :: vs, h =>
      let (h, d) := alloc v h
      let (h, ds) := allocList vs h
      (h, d :: ds)

def allocItems : List (String × PyVal) → Heap → Heap × List (String × Datum)
  | [], h => (h, [])
  | (k, v) :: rest, h =>
      let (h, d) := alloc v h
      let (h, entries) := allocItems rest h
      (h, (k, d) :: entries)

end

end Heap

/-! ## Reading trees -/

section

theorem mapM_congr_of_mem {α β : Type} {f g : α → Option β} {xs : List α}
    (hxs : ∀ x ∈ xs, f x = g x) : xs.mapM f = xs.mapM g := by
  induction xs with
  | nil => rfl
  | cons x rest ih =>
      rw [List.mapM_cons, List.mapM_cons, hxs x List.mem_cons_self,
        ih fun y hy => hxs y (List.mem_cons_of_mem _ hy)]

theorem mapM_eq_some_iff {α β : Type} {f : α → Option β} {xs : List α} {ys : List β} :
    xs.mapM f = some ys ↔ List.Forall₂ (fun x y => f x = some y) xs ys := by
  induction xs generalizing ys with
  | nil =>
      rw [List.mapM_nil, List.forall₂_nil_left_iff]
      exact ⟨fun h => (Option.some.inj h).symm, fun h => congrArg some h.symm⟩
  | cons x rest ih =>
      rw [List.mapM_cons, List.forall₂_cons_left_iff]
      constructor
      · intro h
        obtain ⟨y, hy, hrest⟩ := Option.bind_eq_some_iff.mp h
        obtain ⟨ys', hys, hcons⟩ := Option.bind_eq_some_iff.mp hrest
        exact ⟨y, ys', hy, ih.mp hys, (Option.some.inj hcons).symm⟩
      · rintro ⟨y, ys', hy, hys, rfl⟩
        exact Option.bind_eq_some_iff.mpr
          ⟨y, hy, Option.bind_eq_some_iff.mpr ⟨ys', ih.mpr hys, rfl⟩⟩

theorem exists_of_mapM_eq_some {α β : Type} {f : α → Option β} {xs : List α} {ys : List β}
    (h : xs.mapM f = some ys) {x : α} (hx : x ∈ xs) : ∃ y, f x = some y := by
  have hall := mapM_eq_some_iff.mp h
  clear h
  induction hall with
  | nil => cases hx
  | @cons first y rest ys hfirst _ ih =>
      rcases List.mem_cons.mp hx with rfl | hrest
      · exact ⟨y, hfirst⟩
      · exact ih hrest

theorem exists_mapM_eq_some {α β : Type} {f : α → Option β} {xs : List α}
    (h : ∀ x ∈ xs, ∃ y, f x = some y) : ∃ ys, xs.mapM f = some ys := by
  induction xs with
  | nil => exact ⟨[], rfl⟩
  | cons x rest ih =>
      obtain ⟨y, hy⟩ := h x List.mem_cons_self
      obtain ⟨ys, hys⟩ := ih fun x hx => h x (List.mem_cons_of_mem _ hx)
      exact ⟨y :: ys, mapM_eq_some_iff.mpr (.cons hy (mapM_eq_some_iff.mp hys))⟩

variable {object : HeapObject}

theorem HeapObject.view_congr {f g : Datum → Option PyVal}
    (hfg : ∀ d ∈ object.children, f d = g d) : object.view f = object.view g := by
  cases object with
  | list items => exact congrArg (Option.map _) (mapM_congr_of_mem hfg)
  | dict items =>
      refine congrArg (Option.map _) (mapM_congr_of_mem fun entry hentry => ?_)
      rw [hfg entry.2 (List.mem_map_of_mem hentry)]

theorem HeapObject.view_mono {f g : Datum → Option PyVal}
    {v : PyVal} (hfg : ∀ d w, f d = some w → g d = some w) (hv : object.view f = some v) :
    object.view g = some v := by
  cases object with
  | list items =>
      obtain ⟨vs, hvs, rfl⟩ := Option.map_eq_some_iff.mp hv
      refine Option.map_eq_some_iff.mpr ⟨vs, ?_, rfl⟩
      exact mapM_eq_some_iff.mpr ((mapM_eq_some_iff.mp hvs).imp hfg)
  | dict items =>
      obtain ⟨vs, hvs, rfl⟩ := Option.map_eq_some_iff.mp hv
      refine Option.map_eq_some_iff.mpr ⟨vs, ?_, rfl⟩
      refine mapM_eq_some_iff.mpr ((mapM_eq_some_iff.mp hvs).imp fun entry w hw => ?_)
      obtain ⟨w, hread, rfl⟩ := Option.map_eq_some_iff.mp hw
      exact Option.map_eq_some_iff.mpr ⟨w, hfg _ _ hread, rfl⟩

theorem HeapObject.exists_of_view {f : Datum → Option PyVal}
    {v : PyVal} (hv : object.view f = some v) {d : Datum} (hd : d ∈ object.children) :
    ∃ w, f d = some w := by
  cases object with
  | list items =>
      obtain ⟨vs, hvs, -⟩ := Option.map_eq_some_iff.mp hv
      exact exists_of_mapM_eq_some hvs hd
  | dict items =>
      obtain ⟨vs, hvs, -⟩ := Option.map_eq_some_iff.mp hv
      obtain ⟨entry, hentry, rfl⟩ := List.mem_map.mp hd
      obtain ⟨w, hw⟩ := exists_of_mapM_eq_some hvs hentry
      obtain ⟨w, hw, -⟩ := Option.map_eq_some_iff.mp hw
      exact ⟨w, hw⟩

theorem HeapObject.exists_view {f : Datum → Option PyVal}
    (h : ∀ d ∈ object.children, ∃ w, f d = some w) : ∃ v, object.view f = some v := by
  cases object with
  | list items =>
      obtain ⟨vs, hvs⟩ := exists_mapM_eq_some h
      exact ⟨.list vs, Option.map_eq_some_iff.mpr ⟨vs, hvs, rfl⟩⟩
  | dict items =>
      have hentries : ∀ entry ∈ items,
          ∃ w, (f entry.2).map (fun v => (entry.1, v)) = some w := by
        intro entry hentry
        obtain ⟨w, hw⟩ := h entry.2 (List.mem_map_of_mem hentry)
        exact ⟨(entry.1, w), Option.map_eq_some_iff.mpr ⟨w, hw, rfl⟩⟩
      obtain ⟨vs, hvs⟩ := exists_mapM_eq_some hentries
      exact ⟨.dict vs, Option.map_eq_some_iff.mpr ⟨vs, hvs, rfl⟩⟩

end

namespace Heap

section

variable {h h' : Heap} {d : Datum} {v : PyVal}

/-- What is read off a value depends only on the objects that it leads to. -/
theorem view_congr (hsame : ∀ a, h.Leads d a → h'[a]? = h[a]?) (depth : ℕ) :
    h'.view depth d = h.view depth d := by
  induction depth generalizing d with
  | zero => cases d <;> rfl
  | succ depth ih =>
      cases d with
      | ref a =>
          rw [view, view, hsame a (.here a)]
          cases hobject : h[a]? with
          | none => rfl
          | some object =>
              exact HeapObject.view_congr fun d hd =>
                ih fun b hb => hsame b (.child hobject hd hb)
      | _ => rfl

theorem view_succ {depth : ℕ} (hv : h.view depth d = some v) :
    h.view (depth + 1) d = some v := by
  induction depth generalizing d v with
  | zero =>
      cases d with
      | ref a => cases hv
      | _ => exact hv
  | succ depth ih =>
      cases d with
      | ref a =>
          rw [view] at hv ⊢
          obtain ⟨object, hobject, hview⟩ := Option.bind_eq_some_iff.mp hv
          rw [hobject, Option.bind_some]
          exact HeapObject.view_mono (fun _ _ hd => ih hd) hview
      | _ => exact hv

theorem view_mono {depth depth' : ℕ} (hle : depth ≤ depth')
    (hv : h.view depth d = some v) : h.view depth' d = some v := by
  induction hle with
  | refl => exact hv
  | step _ ih => exact view_succ ih

/-- What a readable value leads to is readable, to the same depth. -/
theorem exists_view_of_leads {depth a : ℕ} (hv : h.view depth d = some v)
    (hlead : h.Leads d a) : ∃ w, h.view depth (.ref a) = some w := by
  induction hlead generalizing depth v with
  | here a => exact ⟨v, hv⟩
  | @child a b object d hobject hd hlead ih =>
      cases depth with
      | zero => cases hv
      | succ depth =>
          rw [view, hobject, Option.bind_some] at hv
          obtain ⟨w, hw⟩ := HeapObject.exists_of_view hv hd
          obtain ⟨w', hw'⟩ := ih hw
          exact ⟨w', view_succ hw'⟩

/-- The objects that a shown value leads to are there. -/
theorem Shows.exists_of_leads {a : ℕ} (hv : h.Shows d v) (hlead : h.Leads d a) :
    ∃ object, h[a]? = some object := by
  obtain ⟨depth, hdepth⟩ := hv
  obtain ⟨w, hw⟩ := exists_view_of_leads hdepth hlead
  cases depth with
  | zero => cases hw
  | succ depth =>
      obtain ⟨object, hobject, -⟩ := Option.bind_eq_some_iff.mp hw
      exact ⟨object, hobject⟩

/-- A shown value does not contain itself. -/
theorem Shows.not_leads_back {a : ℕ} {object : HeapObject} (hv : h.Shows (.ref a) v)
    (hobject : h[a]? = some object) (hd : d ∈ object.children) : ¬ h.Leads d a := by
  intro hlead
  obtain ⟨depth, hdepth⟩ := hv
  induction depth generalizing v with
  | zero => cases hdepth
  | succ depth ih =>
      rw [view, hobject, Option.bind_some] at hdepth
      obtain ⟨w, hw⟩ := HeapObject.exists_of_view hdepth hd
      obtain ⟨w', hw'⟩ := exists_view_of_leads hw hlead
      exact ih hw'

/-- A value leads to the same objects where they are the same. -/
theorem Leads.of_same {a : ℕ} (hlead : h'.Leads d a)
    (hsame : ∀ a, h.Leads d a → h'[a]? = h[a]?) : h.Leads d a := by
  induction hlead with
  | here a => exact .here a
  | @child a b object d hobject hd _ ih =>
      have hthere : h[a]? = some object := (hsame a (.here a)).symm.trans hobject
      exact .child hthere hd (ih fun b hb => hsame b (.child hthere hd hb))

/-- A value shows the same where the objects that it leads to are the same. -/
theorem Shows.of_same (hv : h.Shows d v) (hsame : ∀ a, h.Leads d a → h'[a]? = h[a]?) :
    h'.Shows d v := by
  obtain ⟨depth, hdepth⟩ := hv
  exact ⟨depth, (view_congr hsame depth).trans hdepth⟩

/-- New objects change nothing. -/
theorem Shows.append (hv : h.Shows d v) (more : Heap) : (h ++ more).Shows d v := by
  refine hv.of_same fun a hlead => ?_
  obtain ⟨object, hobject⟩ := hv.exists_of_leads hlead
  rw [List.getElem?_append_left (List.getElem?_eq_some_iff.mp hobject).1]

/-! ### Dictionaries -/

/-- The items of a dictionary, entry by entry. -/
def ShowsItems (h : Heap) : List (String × Datum) → List (String × PyVal) → Prop :=
  List.Forall₂ fun entry w => entry.1 = w.1 ∧ h.Shows entry.2 w.2

variable {a : ℕ} {items : List (String × Datum)} {vs : List (String × PyVal)}

theorem shows_dict_iff (hobject : h[a]? = some (.dict items)) :
    h.Shows (.ref a) (.dict vs) ↔ h.ShowsItems items vs := by
  constructor
  · rintro ⟨depth, hdepth⟩
    cases depth with
    | zero => cases hdepth
    | succ depth =>
        rw [view, hobject, Option.bind_some] at hdepth
        obtain ⟨ws, hws, hdict⟩ := Option.map_eq_some_iff.mp hdepth
        obtain rfl := PyVal.dict.inj hdict
        refine (mapM_eq_some_iff.mp hws).imp fun entry w hw => ?_
        obtain ⟨v, hv, rfl⟩ := Option.map_eq_some_iff.mp hw
        exact ⟨rfl, depth, hv⟩
  · intro hitems
    obtain ⟨depth, hdepth⟩ : ∃ depth, List.Forall₂ (fun (entry : String × Datum) w =>
        ((h.view depth entry.2).map fun v => (entry.1, v)) = some w) items vs := by
      clear hobject
      induction hitems with
      | nil => exact ⟨0, .nil⟩
      | @cons entry w rest ws hentry _ ih =>
          obtain ⟨hkey, first, hfirst⟩ := hentry
          obtain ⟨others, hothers⟩ := ih
          refine ⟨max first others, .cons ?_ (hothers.imp fun other v hother => ?_)⟩
          · rw [view_mono (le_max_left first others) hfirst, hkey]
            rfl
          · obtain ⟨v', hv', rfl⟩ := Option.map_eq_some_iff.mp hother
            rw [view_mono (le_max_right first others) hv']
            rfl
    refine ⟨depth + 1, ?_⟩
    rw [view, hobject, Option.bind_some]
    exact Option.map_eq_some_iff.mpr ⟨vs, mapM_eq_some_iff.mpr hdepth, rfl⟩

variable {ds : List Datum} {k : String}

theorem ShowsItems.lookupEntry_eq_none (hitems : h.ShowsItems items vs)
    (hk : lookupEntry k items = none) : PyVal.item? vs k = none := by
  rw [PyVal.item?_eq_lookupEntry]
  induction hitems with
  | nil => rfl
  | @cons entry w rest ws hentry _ ih =>
      rw [lookupEntry] at hk ⊢
      rw [← hentry.1]
      split_ifs at hk ⊢
      · exact ih hk

theorem ShowsItems.lookupEntry_eq_some (hitems : h.ShowsItems items vs)
    (hk : lookupEntry k items = some d) :
    ∃ v, PyVal.item? vs k = some v ∧ h.Shows d v := by
  rw [PyVal.item?_eq_lookupEntry]
  induction hitems with
  | nil => cases hk
  | @cons entry w rest ws hentry _ ih =>
      rw [lookupEntry] at hk ⊢
      rw [← hentry.1]
      split_ifs at hk ⊢
      · obtain rfl := Option.some.inj hk
        exact ⟨w.2, rfl, hentry.2⟩
      · exact ih hk

theorem ShowsItems.assignEntry (hitems : h.ShowsItems items vs)
    (hd : h.Shows d v) :
    h.ShowsItems (Support.assignEntry k d items) (PyVal.setItem vs k v) := by
  induction hitems with
  | nil => exact .cons ⟨rfl, hd⟩ .nil
  | @cons entry w rest ws hentry hrest ih =>
      obtain ⟨key, d'⟩ := entry
      obtain ⟨key', w⟩ := w
      obtain ⟨rfl, hshows⟩ := hentry
      rw [PyVal.setItem, Support.assignEntry, Support.assignEntry]
      split_ifs
      · exact .cons ⟨rfl, hd⟩ hrest
      · exact .cons ⟨rfl, hshows⟩ ih

/-! ### New objects -/

mutual

theorem prefix_alloc (v : PyVal) (h : Heap) : h <+: (alloc v h).1 := by
  cases v with
  | list items =>
      exact (prefix_allocList items h).trans (List.prefix_append _ _)
  | dict items =>
      exact (prefix_allocItems items h).trans (List.prefix_append _ _)
  | _ => exact List.prefix_rfl

theorem prefix_allocList (vs : List PyVal) (h : Heap) : h <+: (allocList vs h).1 := by
  cases vs with
  | nil => exact List.prefix_rfl
  | cons v vs => exact (prefix_alloc v h).trans (prefix_allocList vs _)

theorem prefix_allocItems (items : List (String × PyVal)) (h : Heap) :
    h <+: (allocItems items h).1 := by
  cases items with
  | nil => exact List.prefix_rfl
  | cons entry rest =>
      obtain ⟨k, v⟩ := entry
      exact (prefix_alloc v h).trans (prefix_allocItems rest _)

end

theorem Shows.extend (hv : h.Shows d v) (hinitial : h <+: h') : h'.Shows d v := by
  obtain ⟨more, rfl⟩ := hinitial
  exact hv.append more

theorem ShowsItems.extend (hitems : h.ShowsItems items vs) (hinitial : h <+: h') :
    h'.ShowsItems items vs :=
  hitems.imp fun _ _ hentry => ⟨hentry.1, hentry.2.extend hinitial⟩

/-- The items of a list, one by one. -/
theorem shows_list_of_forall {ws : List PyVal}
    (hobject : h[a]? = some (.list ds)) (hds : List.Forall₂ h.Shows ds ws) :
    h.Shows (.ref a) (.list ws) := by
  obtain ⟨depth, hdepth⟩ :
      ∃ depth, List.Forall₂ (fun d w => h.view depth d = some w) ds ws := by
    clear hobject
    induction hds with
    | nil => exact ⟨0, .nil⟩
    | @cons d w ds ws hd _ ih =>
        obtain ⟨first, hfirst⟩ := hd
        obtain ⟨others, hothers⟩ := ih
        refine ⟨max first others, .cons (view_mono (le_max_left _ _) hfirst) ?_⟩
        exact hothers.imp fun _ _ hother => view_mono (le_max_right _ _) hother
  refine ⟨depth + 1, ?_⟩
  rw [view, hobject, Option.bind_some]
  exact Option.map_eq_some_iff.mpr ⟨ws, mapM_eq_some_iff.mpr hdepth, rfl⟩

mutual

/-- A tree is read off the objects that it is built out of. -/
theorem shows_alloc (v : PyVal) (h : Heap) : (alloc v h).1.Shows (alloc v h).2 v := by
  cases v with
  | list items =>
      refine shows_list_of_forall List.getElem?_concat_length ?_
      exact (forall_allocList items h).imp fun _ _ hd => hd.append _
  | dict items =>
      refine (shows_dict_iff List.getElem?_concat_length).mpr ?_
      exact (showsItems_allocItems items h).imp fun _ _ hd => ⟨hd.1, hd.2.append _⟩
  | _ => exact ⟨0, rfl⟩

theorem forall_allocList (vs : List PyVal) (h : Heap) :
    List.Forall₂ (allocList vs h).1.Shows (allocList vs h).2 vs := by
  cases vs with
  | nil => exact .nil
  | cons v vs =>
      exact .cons ((shows_alloc v h).extend (prefix_allocList vs _))
        (forall_allocList vs _)

theorem showsItems_allocItems (items : List (String × PyVal)) (h : Heap) :
    (allocItems items h).1.ShowsItems (allocItems items h).2 items := by
  cases items with
  | nil => exact .nil
  | cons entry rest =>
      obtain ⟨k, v⟩ := entry
      exact .cons ⟨rfl, (shows_alloc v h).extend (prefix_allocItems rest _)⟩
        (showsItems_allocItems rest _)

end

/-! ### Readable values -/

/-- A value stands for a tree. -/
def Readable (h : Heap) (d : Datum) : Prop := ∃ v, h.Shows d v

/-- Readable values can be read to one depth. -/
theorem exists_depth (hds : ∀ d ∈ ds, h.Readable d) :
    ∃ depth, ∀ d ∈ ds, ∃ v, h.view depth d = some v := by
  induction ds with
  | nil => exact ⟨0, fun _ hd => absurd hd List.not_mem_nil⟩
  | cons d ds ih =>
      obtain ⟨⟨v, first, hfirst⟩, hrest⟩ := List.forall_mem_cons.mp hds
      obtain ⟨others, hothers⟩ := ih hrest
      refine ⟨max first others, List.forall_mem_cons.mpr
        ⟨⟨v, view_mono (le_max_left _ _) hfirst⟩, fun d hd => ?_⟩⟩
      obtain ⟨w, hw⟩ := hothers d hd
      exact ⟨w, view_mono (le_max_right _ _) hw⟩

theorem readable_ref_iff {object : HeapObject} (hobject : h[a]? = some object) :
    h.Readable (.ref a) ↔ ∀ d ∈ object.children, h.Readable d := by
  constructor
  · rintro ⟨v, depth, hdepth⟩ d hd
    cases depth with
    | zero => cases hdepth
    | succ depth =>
        rw [view, hobject, Option.bind_some] at hdepth
        obtain ⟨w, hw⟩ := HeapObject.exists_of_view hdepth hd
        exact ⟨w, depth, hw⟩
  · intro hchildren
    obtain ⟨depth, hdepth⟩ := exists_depth hchildren
    obtain ⟨v, hv⟩ := HeapObject.exists_view hdepth
    refine ⟨v, depth + 1, ?_⟩
    rw [view, hobject, Option.bind_some]
    exact hv

theorem Readable.extend (hd : h.Readable d) (hinitial : h <+: h') : h'.Readable d := by
  obtain ⟨v, hv⟩ := hd
  exact ⟨v, hv.extend hinitial⟩

theorem ShowsItems.readable (hitems : h.ShowsItems items vs) :
    ∀ entry ∈ items, h.Readable entry.2 := by
  intro entry hentry
  induction hitems with
  | nil => cases hentry
  | @cons first w rest ws hfirst _ ih =>
      rcases List.mem_cons.mp hentry with rfl | hrest
      · exact ⟨w.2, hfirst.2⟩
      · exact ih hrest

theorem exists_showsItems (hitems : ∀ entry ∈ items, h.Readable entry.2) :
    ∃ vs, h.ShowsItems items vs := by
  induction items with
  | nil => exact ⟨[], .nil⟩
  | cons entry rest ih =>
      obtain ⟨⟨v, hv⟩, hrest⟩ := List.forall_mem_cons.mp hitems
      obtain ⟨vs, hvs⟩ := ih hrest
      exact ⟨(entry.1, v) :: vs, .cons ⟨rfl, hv⟩ hvs⟩

theorem readable_scalar (h : Heap) (hd : ∀ a, d ≠ .ref a) : h.Readable d := by
  cases d with
  | ref a => exact absurd rfl (hd a)
  | _ => exact ⟨_, 0, rfl⟩

theorem readable_of_lookupEntry (hitems : ∀ entry ∈ items, h.Readable entry.2)
    (hk : lookupEntry k items = some d) : h.Readable d :=
  hitems (k, d) (mem_of_lookupEntry hk)

theorem dict?_ref_eq_some_iff :
    h.dict? (.ref a) = some items ↔ h[a]? = some (.dict items) := by
  unfold dict?
  dsimp only
  constructor
  · intro hdict
    split at hdict
    · next hobject =>
        obtain rfl := Option.some.inj hdict
        exact hobject
    · cases hdict
  · intro hobject
    rw [hobject]

theorem list?_ref_eq_some_iff :
    h.list? (.ref a) = some ds ↔ h[a]? = some (.list ds) := by
  unfold list?
  dsimp only
  constructor
  · intro hlist
    split at hlist
    · next hobject =>
        obtain rfl := Option.some.inj hlist
        exact hobject
    · cases hlist
  · intro hobject
    rw [hobject]

theorem Readable.of_dict? (hd : h.Readable d) (hdict : h.dict? d = some items) :
    ∀ entry ∈ items, h.Readable entry.2 := by
  intro entry hentry
  cases d with
  | ref a =>
      have hobject := dict?_ref_eq_some_iff.mp hdict
      exact (readable_ref_iff hobject).mp hd entry.2 (List.mem_map_of_mem hentry)
  | _ => cases hdict

/-- Where a list is left with some of its items, readable values stay readable. -/
theorem Readable.set_list {ds ds' : List Datum} (hd : h.Readable d)
    (hobject : h[a]? = some (.list ds)) (hds : ∀ d ∈ ds', d ∈ ds) :
    Readable (h.set a (.list ds')) d := by
  obtain ⟨v, depth, hdepth⟩ := hd
  suffices hview : ∃ w, view (h.set a (.list ds')) depth d = some w by
    obtain ⟨w, hw⟩ := hview
    exact ⟨w, depth, hw⟩
  induction depth generalizing d v with
  | zero =>
      cases d with
      | ref b => cases hdepth
      | _ => exact ⟨v, hdepth⟩
  | succ depth ih =>
      cases d with
      | ref b =>
          rw [view] at hdepth ⊢
          obtain ⟨object, hb, hview⟩ := Option.bind_eq_some_iff.mp hdepth
          have hchild (d : Datum) (hd : d ∈ object.children) :
              ∃ w, view (h.set a (.list ds')) depth d = some w := by
            obtain ⟨w, hw⟩ := HeapObject.exists_of_view hview hd
            exact ih w hw
          by_cases hab : a = b
          · subst hab
            obtain rfl := Option.some.inj (hobject.symm.trans hb)
            rw [List.getElem?_set_self (List.getElem?_eq_some_iff.mp hobject).1,
              Option.bind_some]
            exact HeapObject.exists_view fun d hd => hchild d (hds d hd)
          · rw [List.getElem?_set_ne hab, hb, Option.bind_some]
            exact HeapObject.exists_view hchild
      | _ => exact ⟨v, hdepth⟩

end

end Heap

end Hydrogenuine.Support
