import Hydrogenuine.Support.Heap

/-!
# Assigning inside dictionaries

A path of keys leads from a dictionary to one inside it.  `assignPath` assigns a value at
the end of a path, in place, and makes the dictionaries that are not there yet.  It changes
one object, the last dictionary that is there (`pathTarget`).  Where that object is reached
over the path only, the dictionary at the start shows the assignment on trees
(`assignPath_shows`), and whatever does not lead to it shows what it showed before.
-/

namespace Hydrogenuine.Support

/-- Why a path cannot be followed: the value under which a key is looked up, or under
which the last key is assigned, is no dictionary. -/
inductive PathError where
  | segment (key : String)
  | parent (key : String)
deriving DecidableEq

namespace PyVal

/-- Assign at the end of a path. -/
def assignPath : List String → String → PyVal → List (String × PyVal) →
    Option (List (String × PyVal))
  | [], last, w, vs => some (setItem vs last w)
  | key :: rest, last, w, vs =>
      match item? vs key with
      | Option.none =>
          (assignPath rest last w []).map fun inner => setItem vs key (.dict inner)
      | some (.dict items) =>
          (assignPath rest last w items).map fun inner => setItem vs key (.dict inner)
      | some _ => Option.none

end PyVal

/-- The value in a copy of the objects that comes `n` addresses later. -/
def Datum.shift (n : ℕ) : Datum → Datum
  | .ref a => .ref (a + n)
  | d => d

/-- An object with other values in it. -/
def HeapObject.map (f : Datum → Datum) : HeapObject → HeapObject
  | .list items => .list (items.map f)
  | .dict items => .dict (items.map fun entry => (entry.1, f entry.2))

namespace Heap

/-- A dictionary with its address. -/
def dictAt? (h : Heap) : Datum → Option (ℕ × List (String × Datum))
  | .ref a =>
      match h[a]? with
      | some (.dict items) => some (a, items)
      | _ => none
  | _ => none

/-- Assign at the end of a path, in place. -/
def assignPath : List String → String → Datum → Heap → Datum → Except PathError Heap
  | [], last, value, h, d =>
      match h.dictAt? d with
      | some (a, items) => .ok (h.set a (.dict (assignEntry last value items)))
      | none => .error (.parent last)
  | key :: rest, last, value, h, d =>
      match h.dictAt? d with
      | some (a, items) =>
          match lookupEntry key items with
          | some d' => assignPath rest last value h d'
          | none =>
              assignPath rest last value
                (h.set a (.dict (assignEntry key (.ref h.length) items)) ++ [.dict []])
                (.ref h.length)
      | none => .error (.segment key)

/-- The last dictionary on a path that is there, if no other value is on the path. -/
def pathTarget (h : Heap) : List String → Datum → Option ℕ
  | [], d => (h.dictAt? d).map Prod.fst
  | key :: rest, d =>
      (h.dictAt? d).bind fun (a, items) =>
        match lookupEntry key items with
        | some d' => pathTarget h rest d'
        | none => some a

/-- Along a path, no value beside the path leads to the object. -/
def OnlyOver (h : Heap) (target : ℕ) : List String → Datum → Prop
  | [], _ => True
  | key :: rest, d =>
      ∀ a items, h.dictAt? d = some (a, items) →
        ∀ d', lookupEntry key items = some d' →
          (∀ entry ∈ items.eraseP fun entry => entry.1 == key, ¬ h.Leads entry.2 target) ∧
            OnlyOver h target rest d'

/-- The objects, and a copy of them. -/
def doubled (h : Heap) : Heap := h ++ h.map (HeapObject.map (Datum.shift h.length))

/-- A copy of a dictionary with all that it leads to; objects that are shared in it are
shared in the copy. -/
def deepcopy (h : Heap) (items : List (String × Datum)) : Heap × Datum :=
  (h.doubled ++ [.dict (items.map fun entry => (entry.1, entry.2.shift h.length))],
    .ref (h.length + h.length))

section

variable {h h' : Heap} {d value : Datum} {v w : PyVal} {a : ℕ} {key last : String}
  {rest keys : List String} {items : List (String × Datum)} {vs : List (String × PyVal)}

/-! ## Paths -/

theorem dictAt?_eq_some_iff :
    h.dictAt? d = some (a, items) ↔ d = .ref a ∧ h[a]? = some (.dict items) := by
  unfold dictAt?
  constructor
  · intro hd
    split at hd
    · split at hd
      · next hobject =>
          obtain ⟨rfl, rfl⟩ := Prod.mk.inj (Option.some.inj hd)
          exact ⟨rfl, hobject⟩
      · cases hd
    · cases hd
  · rintro ⟨rfl, hobject⟩
    dsimp only
    rw [hobject]

theorem dictAt?_ref (hobject : h[a]? = some (.dict items)) :
    h.dictAt? (.ref a) = some (a, items) :=
  dictAt?_eq_some_iff.mpr ⟨rfl, hobject⟩

/-- A value that shows a dictionary is one. -/
theorem Shows.dictAt? (hd : h.Shows d (.dict vs)) :
    ∃ a items, h.dictAt? d = some (a, items) ∧ h.ShowsItems items vs := by
  obtain ⟨depth, hdepth⟩ := id hd
  cases d with
  | ref a =>
      cases depth with
      | zero => cases hdepth
      | succ depth =>
          rw [view] at hdepth
          obtain ⟨object, hobject, hview⟩ := Option.bind_eq_some_iff.mp hdepth
          cases object with
          | list items =>
              obtain ⟨ws, -, hlist⟩ := Option.map_eq_some_iff.mp hview
              cases hlist
          | dict items =>
              exact ⟨a, items, dictAt?_ref hobject, (shows_dict_iff hobject).mp hd⟩
  | _ =>
      rw [view] at hdepth
      cases hdepth

/-- A value that is a dictionary shows one. -/
theorem Shows.eq_dict (hd : h.Shows d v) (hdict : h.dictAt? d = some (a, items)) :
    ∃ vs, v = .dict vs := by
  obtain ⟨rfl, hobject⟩ := dictAt?_eq_some_iff.mp hdict
  obtain ⟨depth, hdepth⟩ := hd
  cases depth with
  | zero => cases hdepth
  | succ depth =>
      rw [view, hobject, Option.bind_some] at hdepth
      obtain ⟨vs, -, rfl⟩ := Option.map_eq_some_iff.mp hdepth
      exact ⟨vs, rfl⟩

theorem pathTarget_nil (hobject : h[a]? = some (.dict items)) :
    h.pathTarget [] (.ref a) = some a := by
  rw [pathTarget, dictAt?_ref hobject]
  rfl

theorem pathTarget_of_some (hobject : h[a]? = some (.dict items))
    (hkey : lookupEntry key items = some d) :
    h.pathTarget (key :: rest) (.ref a) = h.pathTarget rest d := by
  rw [pathTarget, dictAt?_ref hobject, Option.bind_some]
  dsimp only
  rw [hkey]

theorem pathTarget_of_none (hobject : h[a]? = some (.dict items))
    (hkey : lookupEntry key items = none) :
    h.pathTarget (key :: rest) (.ref a) = some a := by
  rw [pathTarget, dictAt?_ref hobject, Option.bind_some]
  dsimp only
  rw [hkey]

theorem assignPath_nil (hobject : h[a]? = some (.dict items)) :
    assignPath [] last value h (.ref a) =
      .ok (h.set a (.dict (assignEntry last value items))) := by
  rw [assignPath, dictAt?_ref hobject]

theorem assignPath_of_some (hobject : h[a]? = some (.dict items))
    (hkey : lookupEntry key items = some d) :
    assignPath (key :: rest) last value h (.ref a) = assignPath rest last value h d := by
  rw [assignPath, dictAt?_ref hobject]
  dsimp only
  rw [hkey]

theorem assignPath_of_none (hobject : h[a]? = some (.dict items))
    (hkey : lookupEntry key items = none) :
    assignPath (key :: rest) last value h (.ref a) =
      assignPath rest last value
        (h.set a (.dict (assignEntry key (.ref h.length) items)) ++ [.dict []])
        (.ref h.length) := by
  rw [assignPath, dictAt?_ref hobject]
  dsimp only
  rw [hkey]

/-- The object that a path ends in is reached from its start. -/
theorem leads_pathTarget (htarget : h.pathTarget keys d = some a) : h.Leads d a := by
  induction keys generalizing d with
  | nil =>
      obtain ⟨⟨b, items⟩, hdict, rfl⟩ := Option.map_eq_some_iff.mp htarget
      obtain ⟨rfl, -⟩ := dictAt?_eq_some_iff.mp hdict
      exact .here b
  | cons key rest ih =>
      obtain ⟨⟨b, items⟩, hdict, hnext⟩ := Option.bind_eq_some_iff.mp htarget
      obtain ⟨rfl, hobject⟩ := dictAt?_eq_some_iff.mp hdict
      dsimp only at hnext
      cases hkey : lookupEntry key items with
      | none =>
          rw [hkey] at hnext
          obtain rfl := Option.some.inj hnext
          exact .here b
      | some d' =>
          rw [hkey] at hnext
          have hmem : d' ∈ (HeapObject.dict items).children :=
            List.mem_map_of_mem (mem_of_lookupEntry hkey)
          exact .child hobject hmem (ih hnext)

theorem dictAt?_of_pathTarget (htarget : h.pathTarget keys d = some a) :
    ∃ b items, h.dictAt? d = some (b, items) := by
  cases keys with
  | nil =>
      obtain ⟨⟨b, items⟩, hdict, -⟩ := Option.map_eq_some_iff.mp htarget
      exact ⟨b, items, hdict⟩
  | cons key rest =>
      obtain ⟨⟨b, items⟩, hdict, -⟩ := Option.bind_eq_some_iff.mp htarget
      exact ⟨b, items, hdict⟩

/-! ### A new dictionary -/

theorem pathTarget_of_empty (keys : List String) (hobject : h[a]? = some (.dict [])) :
    h.pathTarget keys (.ref a) = some a := by
  cases keys with
  | nil => exact pathTarget_nil hobject
  | cons key rest => exact pathTarget_of_none hobject rfl

theorem onlyOver_of_empty (keys : List String) (hobject : h[a]? = some (.dict []))
    (target : ℕ) : h.OnlyOver target keys (.ref a) := by
  cases keys with
  | nil => trivial
  | cons key rest =>
      intro b items hdict d' hkey
      rw [dictAt?_ref hobject] at hdict
      obtain ⟨rfl, rfl⟩ := Prod.mk.inj (Option.some.inj hdict)
      cases hkey

/-! ## What an assignment changes -/

theorem Shows.lt_of_leads (hv : h.Shows d v) (hlead : h.Leads d a) : a < h.length := by
  obtain ⟨object, hobject⟩ := hv.exists_of_leads hlead
  exact (List.getElem?_eq_some_iff.mp hobject).1

/-- Where one object is changed, a value that does not lead to it shows the same. -/
theorem Shows.of_frame (hv : h.Shows d v) (hframe : ∀ b < h.length, b ≠ a → h'[b]? = h[b]?)
    (hfree : ¬ h.Leads d a) : h'.Shows d v := by
  refine hv.of_same fun b hlead => hframe b (hv.lt_of_leads hlead) ?_
  rintro rfl
  exact hfree hlead

theorem ShowsItems.of_frame (hitems : h.ShowsItems items vs)
    (hframe : ∀ b < h.length, b ≠ a → h'[b]? = h[b]?)
    (hfree : ∀ entry ∈ items, ¬ h.Leads entry.2 a) : h'.ShowsItems items vs := by
  induction hitems with
  | nil => exact .nil
  | @cons entry w rest ws hentry _ ih =>
      obtain ⟨hfirst, hrest⟩ := List.forall_mem_cons.mp hfree
      exact .cons ⟨hentry.1, hentry.2.of_frame hframe hfirst⟩ (ih hrest)

/-- Where the value under one key is changed, and the other values show the same. -/
theorem ShowsItems.setItem (hitems : h.ShowsItems items vs)
    (hkey : lookupEntry key items = some d)
    (hothers : ∀ entry ∈ items.eraseP (fun entry => entry.1 == key),
      ∀ v, h.Shows entry.2 v → h'.Shows entry.2 v)
    (hd : h'.Shows d w) : h'.ShowsItems items (PyVal.setItem vs key w) := by
  induction hitems with
  | nil => cases hkey
  | @cons entry u rest us hentry hrest ih =>
      obtain ⟨key', d'⟩ := entry
      obtain ⟨key'', u⟩ := u
      obtain ⟨rfl, hshows⟩ := hentry
      rw [lookupEntry] at hkey
      rw [PyVal.setItem, Support.assignEntry]
      by_cases hfirst : key' = key
      · rw [if_pos hfirst] at hkey ⊢
        obtain rfl := Option.some.inj hkey
        have hpos : ((key', d').1 == key) = true := beq_iff_eq.mpr hfirst
        rw [List.eraseP_cons, hpos, cond_true] at hothers
        refine .cons ⟨hfirst, hd⟩ ?_
        clear ih
        induction hrest with
        | nil => exact .nil
        | @cons entry u rest us hentry _ ih =>
            obtain ⟨hsame, hmore⟩ := List.forall_mem_cons.mp hothers
            exact .cons ⟨hentry.1, hsame _ hentry.2⟩ (ih hmore)
      · rw [if_neg hfirst] at hkey ⊢
        have hneg : ((key', d').1 == key) = false := beq_eq_false_iff_ne.mpr hfirst
        rw [List.eraseP_cons, hneg, cond_false] at hothers
        obtain ⟨hsame, hmore⟩ := List.forall_mem_cons.mp hothers
        exact .cons ⟨rfl, hsame _ hshows⟩ (ih hkey hmore)

/-- Making a new dictionary under a key of another one changes that one. -/
theorem frame_newDict (object : HeapObject) :
    ∀ b < h.length, b ≠ a → (h.set a object ++ [.dict []])[b]? = h[b]? := by
  intro b hb hne
  rw [List.getElem?_append_left (by rw [List.length_set]; exact hb),
    List.getElem?_set_ne (Ne.symm hne)]

theorem getElem?_newDict (object : HeapObject) :
    (h.set a object ++ [HeapObject.dict []])[h.length]? = some (.dict []) := by
  have hlast := @List.getElem?_concat_length _ (h.set a object) (HeapObject.dict [])
  rw [List.length_set] at hlast
  exact hlast

/-- An assignment changes the object that the path ends in, and makes new ones. -/
theorem assignPath_frame (hassign : assignPath keys last value h d = .ok h') :
    ∃ a, h.pathTarget keys d = some a ∧ h.length ≤ h'.length ∧
      ∀ b < h.length, b ≠ a → h'[b]? = h[b]? := by
  induction keys generalizing h d with
  | nil =>
      rw [assignPath] at hassign
      split at hassign
      · next a items hdict =>
          obtain ⟨rfl, hobject⟩ := dictAt?_eq_some_iff.mp hdict
          obtain rfl := Except.ok.inj hassign
          refine ⟨a, pathTarget_nil hobject, by rw [List.length_set], fun b _ hne => ?_⟩
          exact List.getElem?_set_ne (Ne.symm hne)
      · cases hassign
  | cons key rest ih =>
      cases hdict : h.dictAt? d with
      | none =>
          rw [assignPath, hdict] at hassign
          cases hassign
      | some entry =>
          obtain ⟨a, items⟩ := entry
          obtain ⟨rfl, hobject⟩ := dictAt?_eq_some_iff.mp hdict
          cases hkey : lookupEntry key items with
          | some d' =>
              rw [assignPath_of_some hobject hkey] at hassign
              rw [pathTarget_of_some hobject hkey]
              exact ih hassign
          | none =>
              rw [assignPath_of_none hobject hkey] at hassign
              obtain ⟨b, hb, hlength, hframe⟩ := ih hassign
              rw [pathTarget_of_empty rest (getElem?_newDict _)] at hb
              obtain rfl := Option.some.inj hb
              rw [List.length_append, List.length_set] at hlength hframe
              refine ⟨a, pathTarget_of_none hobject hkey, by omega, fun b hb hne => ?_⟩
              rw [hframe b (by omega) (Nat.ne_of_lt hb), frame_newDict _ b hb hne]

/-- Where the object that the path ends in is reached over the path only, and the new
value does not lead to it, an assignment shows as one on trees. -/
theorem assignPath_shows (hd : h.Shows d (.dict vs)) (hvalue : h.Shows value w)
    (htarget : h.pathTarget keys d = some a) (honly : h.OnlyOver a keys d)
    (hfree : ¬ h.Leads value a) :
    ∃ h' vs', assignPath keys last value h d = .ok h' ∧
      PyVal.assignPath keys last w vs = some vs' ∧ h'.Shows d (.dict vs') := by
  induction keys generalizing h d vs a with
  | nil =>
      obtain ⟨b, items, hdict, hitems⟩ := hd.dictAt?
      obtain ⟨rfl, hobject⟩ := dictAt?_eq_some_iff.mp hdict
      rw [pathTarget_nil hobject] at htarget
      obtain rfl := Option.some.inj htarget
      refine ⟨_, _, assignPath_nil hobject, rfl, ?_⟩
      have hframe : ∀ c < h.length, c ≠ b →
          (h.set b (.dict (assignEntry last value items)))[c]? = h[c]? :=
        fun c _ hne => List.getElem?_set_ne (Ne.symm hne)
      have hothers : ∀ entry ∈ items, ¬ h.Leads entry.2 b := fun entry hentry =>
        hd.not_leads_back hobject (List.mem_map_of_mem hentry)
      refine (shows_dict_iff ?_).mpr
        ((hitems.of_frame hframe hothers).assignEntry (hvalue.of_frame hframe hfree))
      exact List.getElem?_set_self (List.getElem?_eq_some_iff.mp hobject).1
  | cons key rest ih =>
      obtain ⟨b, items, hdict, hitems⟩ := hd.dictAt?
      obtain ⟨rfl, hobject⟩ := dictAt?_eq_some_iff.mp hdict
      cases hkey : lookupEntry key items with
      | none =>
          rw [pathTarget_of_none hobject hkey] at htarget
          obtain rfl := Option.some.inj htarget
          rw [assignPath_of_none hobject hkey]
          -- The rest of the path goes through new dictionaries.
          obtain ⟨more, hmore⟩ : ∃ more : Heap,
              h.set b (.dict (assignEntry key (.ref h.length) items)) ++ [.dict []] = more :=
            ⟨_, rfl⟩
          rw [hmore]
          have hnew : more[h.length]? = some (.dict []) := by
            rw [← hmore]
            exact getElem?_newDict _
          have hframe : ∀ c < h.length, c ≠ b → more[c]? = h[c]? := by
            rw [← hmore]
            exact frame_newDict _
          have hfresh : ¬ more.Leads value h.length := by
            intro hlead
            refine Nat.lt_irrefl _ (hvalue.lt_of_leads (hlead.of_same fun c hc => ?_))
            refine hframe c (hvalue.lt_of_leads hc) ?_
            rintro rfl
            exact hfree hc
          obtain ⟨h', inner, hassign, htree, hinner⟩ :=
            ih ((shows_dict_iff hnew).mpr .nil) (hvalue.of_frame hframe hfree)
              (pathTarget_of_empty rest hnew) (onlyOver_of_empty rest hnew _) hfresh
          refine ⟨h', PyVal.setItem vs key (.dict inner), hassign, ?_, ?_⟩
          · rw [PyVal.assignPath, hitems.lookupEntry_eq_none hkey]
            dsimp only
            rw [htree]
            rfl
          · obtain ⟨c, hc, -, hrest⟩ := assignPath_frame hassign
            rw [pathTarget_of_empty rest hnew] at hc
            obtain rfl := Option.some.inj hc
            have hlength : more.length = h.length + 1 := by
              rw [← hmore, List.length_append, List.length_set]
              rfl
            have hb : b < h.length := (List.getElem?_eq_some_iff.mp hobject).1
            have hboth : ∀ c < h.length, c ≠ b → h'[c]? = h[c]? := by
              intro c hc hne
              rw [hrest c (by omega) (Nat.ne_of_lt hc), hframe c hc hne]
            have hothers : ∀ entry ∈ items, ¬ h.Leads entry.2 b := fun entry hentry =>
              hd.not_leads_back hobject (List.mem_map_of_mem hentry)
            refine (shows_dict_iff ?_).mpr
              ((hitems.of_frame hboth hothers).assignEntry hinner)
            rw [hrest b (by omega) (Nat.ne_of_lt hb), ← hmore,
              List.getElem?_append_left (by rw [List.length_set]; exact hb),
              List.getElem?_set_self hb]
      | some d' =>
          rw [pathTarget_of_some hobject hkey] at htarget
          rw [assignPath_of_some hobject hkey]
          obtain ⟨hothers, hrest⟩ := honly b items hdict d' hkey
          obtain ⟨v, hitem, hv⟩ := hitems.lookupEntry_eq_some hkey
          obtain ⟨c, inner, hinner⟩ := dictAt?_of_pathTarget htarget
          obtain ⟨us, rfl⟩ := hv.eq_dict hinner
          obtain ⟨h', us', hassign, htree, hshows⟩ := ih hv hvalue htarget hrest hfree
          refine ⟨h', PyVal.setItem vs key (.dict us'), hassign, ?_, ?_⟩
          · rw [PyVal.assignPath, hitem]
            dsimp only
            rw [htree]
            rfl
          · obtain ⟨c, hc, -, hframe⟩ := assignPath_frame hassign
            rw [htarget] at hc
            obtain rfl := Option.some.inj hc
            have hmem : d' ∈ (HeapObject.dict items).children :=
              List.mem_map_of_mem (mem_of_lookupEntry hkey)
            have hne : b ≠ a := by
              rintro rfl
              exact hd.not_leads_back hobject hmem (leads_pathTarget htarget)
            refine (shows_dict_iff ?_).mpr (hitems.setItem hkey ?_ hshows)
            · rw [hframe b (List.getElem?_eq_some_iff.mp hobject).1 hne, hobject]
            · intro entry hentry v hentryShows
              exact hentryShows.of_frame hframe (hothers entry hentry)

/-! ## Copies -/

theorem prefix_doubled (h : Heap) : h <+: h.doubled := List.prefix_append _ _

theorem getElem?_doubled (h : Heap) (a : ℕ) :
    h.doubled[a + h.length]? = h[a]?.map (HeapObject.map (Datum.shift h.length)) := by
  rw [doubled, List.getElem?_append_right (Nat.le_add_left _ _), Nat.add_sub_cancel,
    List.getElem?_map]

/-- What is read off a copy. -/
theorem view_doubled (h : Heap) (depth : ℕ) (d : Datum) :
    h.doubled.view depth (d.shift h.length) = h.view depth d := by
  induction depth generalizing d with
  | zero => cases d <;> rfl
  | succ depth ih =>
      cases d with
      | ref a =>
          rw [Datum.shift, view, view, getElem?_doubled]
          cases h[a]? with
          | none => rfl
          | some object =>
              cases object with
              | list items =>
                  refine congrArg (Option.map PyVal.list) ?_
                  rw [List.mapM_map]
                  exact mapM_congr_of_mem fun d _ => ih d
              | dict items =>
                  refine congrArg (Option.map PyVal.dict) ?_
                  rw [List.mapM_map]
                  refine mapM_congr_of_mem fun entry _ => ?_
                  exact congrArg (Option.map _) (ih entry.2)
      | _ => rfl

/-- A copy of a dictionary shows what the dictionary shows. -/
theorem shows_deepcopy (hitems : h.ShowsItems items vs) :
    (h.deepcopy items).1.Shows (h.deepcopy items).2 (.dict vs) := by
  have hlast : (h.deepcopy items).1[h.length + h.length]? =
      some (.dict (items.map fun entry => (entry.1, entry.2.shift h.length))) := by
    have hlength : h.doubled.length = h.length + h.length := by
      rw [doubled, List.length_append, List.length_map]
    rw [deepcopy, ← hlength]
    exact List.getElem?_concat_length
  refine (shows_dict_iff hlast).mpr ?_
  refine List.forall₂_map_left_iff.mpr (hitems.imp fun entry w hentry => ⟨hentry.1, ?_⟩)
  obtain ⟨depth, hdepth⟩ := hentry.2
  exact Shows.append ⟨depth, (view_doubled h depth entry.2).trans hdepth⟩ _

theorem prefix_deepcopy (h : Heap) (items : List (String × Datum)) :
    h <+: (h.deepcopy items).1 :=
  (prefix_doubled h).trans (List.prefix_append _ _)

end

end Heap

end Hydrogenuine.Support
