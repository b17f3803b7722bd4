import Hydrogenuine.Runtime.WorldInvariant

/-!
# The two forms of an event

The reducer sees a live event as `immutable_event` of `hg_runtime/bus.py` made it,
with mapping proxies and tuples, and an event of the log as plain JSON.  The form
shows where a branch lets a container of the event through as it is, turns it into
a text, makes it a key or tests it for `dict`.  A statement that does none of this
on an event is indifferent to the form, and writes the same.
-/

namespace Hydrogenuine.Runtime

open Support Hydrogenuine.Core

/-! ## What depends on the form -/

def isContainer : PyVal → Bool
  | .list _ => true
  | .dict _ => true
  | _ => false

/-- What `dict` takes the keys and values of the value from is no container. -/
def PlainEntries (v : PyVal) : Prop :=
  ∀ elements, listOf v = .ok elements → ∀ element ∈ elements,
    ∀ parts, listOf element = .ok parts → ∀ part ∈ parts, isContainer part = false

section Conditions

variable (host : Host) (renderView : PyVal → String)

/-- Reading `immutable_event(e)`. -/
def viewReader : Reader := ⟨host, renderView, true⟩

/-- Reading `e` itself. -/
def plainReader : Reader := ⟨host, renderView, false⟩

/-- `str` is the same of the value and of its view. -/
def SameText (v : PyVal) : Prop :=
  (viewReader host renderView).str v = (plainReader host renderView).str v

variable (e : Incoming)

namespace Source

/-- The value that a source reads off the plain event satisfies `P`. -/
def Reads (v : Source) (P : PyVal → Prop) : Prop :=
  ∀ held, v.read (plainReader host renderView) e = .ok held → P held.value

/-- The source reads the same value off both forms of the event: no container is
turned into a text on the way, unless both forms have one text, and none becomes
a key. -/
def Alike : Source → Prop
  | .const _ => True
  | .eventId => True
  | .eventType => True
  | .field _ => True
  | .payload => True
  | .item v _ d => v.Alike ∧ d.Alike
  | .sub v _ d => v.Alike ∧ d.Alike
  | .text v => v.Alike ∧ v.Reads host renderView e (SameText host renderView)
  | .number v => v.Alike
  | .orElse v w => v.Alike ∧ w.Alike
  | .pair v w => v.Alike ∧ w.Alike
  | .elements v => v.Alike
  | .mapping v => v.Alike ∧
      v.Reads host renderView e fun x =>
        (∀ items, x ≠ .dict items) → PlainEntries x
  | .positive v => v.Alike

/-- What the source hands on is, moreover, no container of the event and has none
as an element or entry. -/
def Flat : Source → Prop
  | .const _ => True
  | .pair v w => v.Flat ∧ w.Flat
  | .elements v => v.Alike host renderView e ∧ v.Reads host renderView e fun x =>
      ∀ elements, listOf x = .ok elements →
        ∀ element ∈ elements, isContainer element = false
  | .mapping v => (Source.mapping v).Alike host renderView e ∧
      v.Reads host renderView e fun x =>
        ∀ items, x = .dict items → ∀ item ∈ items, isContainer item.2 = false
  | .positive v => v.Alike host renderView e
  | v => v.Alike host renderView e ∧
      v.Reads host renderView e fun x => isContainer x = false

end Source

end Conditions

section Reading

variable {host : Host} {renderView : PyVal → String} {e : Incoming} {v : Source}

variable {x : PyVal} {r : Reader}

theorem hasMapping_of_not_isContainer (h : isContainer x = false) :
    hasMapping x = false := by
  cases x <;> first | rfl | cases h

theorem map_value_eq_cases {α : Type} {x y : Except PyError (Held α)}
    (h : x.map Held.value = y.map Held.value) :
    (∃ error, x = .error error ∧ y = .error error) ∨
      ∃ held held', x = .ok held ∧ y = .ok held' ∧ held.value = held'.value := by
  cases x with
  | error error =>
      cases y with
      | error error' =>
          have herror : error = error' := Except.error.inj h
          exact Or.inl ⟨error, rfl, by rw [herror]⟩
      | ok held' => cases h
  | ok held =>
      cases y with
      | error error' => cases h
      | ok held' => exact Or.inr ⟨held, held', rfl, rfl, Except.ok.inj h⟩

theorem map_value_bind_congr
    {α β : Type} {x y : Except PyError (Held α)}
    {f g : Held α → Except PyError (Held β)}
    (h : x.map Held.value = y.map Held.value)
    (hfg : ∀ held held', y = .ok held' → held.value = held'.value →
      (f held).map Held.value = (g held').map Held.value) :
    (x >>= f).map Held.value = (y >>= g).map Held.value := by
  rcases map_value_eq_cases h with
    ⟨error, rfl, rfl⟩ | ⟨held, held', rfl, rfl, hvalue⟩
  · rfl
  · exact hfg held held' rfl hvalue

/-! ### `dict` of a value -/

theorem hashable_eq (h : isContainer x = false) :
    (viewReader host renderView).hashable x =
      (plainReader host renderView).hashable x := by
  cases x <;> first | rfl | cases h

theorem entryOf_eq {element : PyVal}
    (h : ∀ parts, listOf element = .ok parts →
      ∀ part ∈ parts, isContainer part = false) :
    (viewReader host renderView).entryOf element =
      (plainReader host renderView).entryOf element := by
  unfold Reader.entryOf
  cases hparts : listOf element with
  | error error => rfl
  | ok parts =>
      match parts with
      | [] => rfl
      | [_] => rfl
      | [key, value] =>
          simp only [bind, Except.bind,
            hashable_eq (h _ hparts key List.mem_cons_self)]
      | _ :: _ :: _ :: _ => rfl

theorem entryOf_part {element : PyVal} {entry : PyVal × PyVal}
    (h : r.entryOf element = .ok entry) :
    ∃ parts, listOf element = .ok parts ∧ entry.2 ∈ parts := by
  unfold Reader.entryOf at h
  rw [bind_eq_ok_iff] at h
  obtain ⟨parts, hparts, hentry⟩ := h
  split at hentry
  · split_ifs at hentry
    obtain rfl := Except.ok.inj hentry
    exact ⟨_, hparts, List.mem_cons_of_mem _ List.mem_cons_self⟩
  · cases hentry

theorem mapM_entryOf {elements : List PyVal}
    (h : ∀ element ∈ elements, ∀ parts, listOf element = .ok parts →
      ∀ part ∈ parts, isContainer part = false) :
    elements.mapM (viewReader host renderView).entryOf =
        elements.mapM (plainReader host renderView).entryOf ∧
      ∀ pairs, elements.mapM (plainReader host renderView).entryOf = .ok pairs →
        ∀ pair ∈ pairs, hasMapping pair.2 = false := by
  induction elements with
  | nil =>
      refine ⟨rfl, fun pairs hpairs => ?_⟩
      obtain rfl := Except.ok.inj hpairs
      exact List.forall_mem_nil _
  | cons element elements ih =>
      obtain ⟨hfirst, hrest⟩ := List.forall_mem_cons.mp h
      obtain ⟨heq, hpairs⟩ := ih hrest
      refine ⟨?_, fun pairs hall => ?_⟩
      · rw [List.mapM_cons, List.mapM_cons, entryOf_eq hfirst, heq]
      · rw [List.mapM_cons, bind_eq_ok_iff] at hall
        obtain ⟨pair, hpair, hall⟩ := hall
        rw [bind_eq_ok_iff] at hall
        obtain ⟨rest, hrest', hall⟩ := hall
        obtain rfl := Except.ok.inj hall
        obtain ⟨parts, hparts, hmem⟩ := entryOf_part hpair
        exact List.forall_mem_cons.mpr
          ⟨hasMapping_of_not_isContainer (hfirst parts hparts _ hmem),
            hpairs rest hrest'⟩

theorem forall_mem_assignKey {P : PyVal → Prop} {k v : PyVal}
    {entries : List (PyVal × PyVal)} (hv : P v) (h : ∀ entry ∈ entries, P entry.2) :
    ∀ entry ∈ assignKey k v entries, P entry.2 := by
  induction entries with
  | nil => exact List.forall_mem_singleton.mpr hv
  | cons entry entries ih =>
      obtain ⟨hfirst, hrest⟩ := List.forall_mem_cons.mp h
      unfold assignKey
      split_ifs
      · exact List.forall_mem_cons.mpr ⟨hv, hrest⟩
      · exact List.forall_mem_cons.mpr ⟨hfirst, ih hrest⟩

theorem forall_mem_foldl_assignKey {P : PyVal → Prop}
    {pairs entries : List (PyVal × PyVal)} (hpairs : ∀ pair ∈ pairs, P pair.2)
    (h : ∀ entry ∈ entries, P entry.2) :
    ∀ entry ∈ pairs.foldl (fun entries pair =>
      assignKey pair.1 pair.2 entries) entries, P entry.2 := by
  induction pairs generalizing entries with
  | nil => exact h
  | cons pair pairs ih =>
      obtain ⟨hfirst, hrest⟩ := List.forall_mem_cons.mp hpairs
      exact ih hrest (forall_mem_assignKey hfirst h)

theorem mapping_eq_of_plainEntries
    (hx : ∀ items, x ≠ .dict items) (h : PlainEntries x) :
    (viewReader host renderView).mapping x =
      (plainReader host renderView).mapping x := by
  unfold Reader.mapping
  split
  · exact absurd rfl (hx _)
  · cases helements : listOf x with
    | error error => rfl
    | ok elements =>
        obtain ⟨heq, hpairs⟩ := @mapM_entryOf host renderView _ (h elements helements)
        simp only [bind, Except.bind, heq]
        cases hmap : elements.mapM (plainReader host renderView).entryOf with
        | error error => rfl
        | ok pairs =>
            have hentries := @forall_mem_foldl_assignKey
              (fun v => hasMapping v = false) pairs [] (hpairs pairs hmap)
              (List.forall_mem_nil _)
            simp only [pure, Except.pure, Except.ok.injEq, Held.mk.injEq,
              true_and, and_true]
            rw [Bool.eq_iff_iff, List.all_eq_true, List.all_eq_true]
            refine forall₂_congr fun entry hentry => ?_
            rw [hentries entry hentry, Bool.and_false, Bool.and_false]

/-- Alike sources read the same value. -/
theorem Source.Alike.read_value (h : v.Alike host renderView e) :
    (v.read (viewReader host renderView) e).map Held.value =
      (v.read (plainReader host renderView) e).map Held.value := by
  induction v with
  | const x => rfl
  | eventId => rfl
  | eventType => rfl
  | payload => rfl
  | field k =>
      simp only [Source.read]
      cases Bus.field e.event k <;> rfl
  | item v k d ihv ihd =>
      refine map_value_bind_congr (ihv h.1) fun held held' _ hvalue => ?_
      rw [hvalue]
      cases held'.value with
      | dict items =>
          dsimp only
          cases PyVal.item? items k with
          | none => exact ihd h.2
          | some x => rfl
      | _ => rfl
  | sub v k d ihv ihd =>
      refine map_value_bind_congr (ihv h.1) fun held held' _ hvalue => ?_
      rw [hvalue]
      cases held'.value with
      | dict items =>
          dsimp only
          cases PyVal.item? items k with
          | none => exact ihd h.2
          | some x => rfl
      | _ => exact ihd h.2
  | text v ihv =>
      refine map_value_bind_congr (ihv h.1) fun held held' hplain hvalue => ?_
      have htext : SameText host renderView held'.value := h.2 held' hplain
      rw [hvalue, htext]
  | number v ihv =>
      refine map_value_bind_congr (ihv h) fun held held' _ hvalue => ?_
      rw [hvalue]
      rfl
  | orElse v w ihv ihw =>
      refine map_value_bind_congr (ihv h.1) fun held held' _ hvalue => ?_
      rw [hvalue]
      split_ifs
      · exact congrArg Except.ok hvalue
      · exact ihw h.2
  | pair v w ihv ihw =>
      refine map_value_bind_congr (ihv h.1) fun held held' _ hvalue => ?_
      refine map_value_bind_congr (ihw h.2) fun held₂ held₂' _ hvalue' => ?_
      simp only [pure, Except.pure, Except.map, hvalue, hvalue']
  | elements v ihv =>
      refine map_value_bind_congr (ihv h) fun held held' _ hvalue => ?_
      rw [hvalue]
      cases listOf held'.value <;> rfl
  | mapping v ihv =>
      refine map_value_bind_congr (ihv h.1) fun held held' hplain hvalue => ?_
      rw [hvalue]
      by_cases hdict : ∃ items, held'.value = .dict items
      · obtain ⟨items, hitems⟩ := hdict
        rw [hitems]
        rfl
      · rw [not_exists] at hdict
        rw [mapping_eq_of_plainEntries hdict (h.2 held' hplain hdict)]
  | positive v ihv =>
      refine map_value_bind_congr (ihv h) fun held held' _ hvalue => ?_
      rw [hvalue]
      rfl

theorem hold_of_not_isContainer
    (h : isContainer x = false) : r.hold x = .plain x := by
  simp [Reader.hold, hasMapping_of_not_isContainer h, Held.plain]

/-- A reading that is no container has a JSON text. -/
theorem Source.read_of_not_isContainer {held : Held PyVal}
    (h : v.read r e = .ok held) (hflat : isContainer held.value = false) :
    held = .plain held.value := by
  induction v generalizing held with
  | const x =>
      obtain rfl := Except.ok.inj h
      rfl
  | eventId =>
      obtain rfl := Except.ok.inj h
      exact hold_of_not_isContainer hflat
  | eventType =>
      obtain rfl := Except.ok.inj h
      rfl
  | field k =>
      obtain ⟨x, -, hx⟩ := bind_eq_ok_iff.mp h
      obtain rfl := Except.ok.inj hx
      exact hold_of_not_isContainer hflat
  | payload =>
      obtain rfl := Except.ok.inj h
      exact hold_of_not_isContainer hflat
  | item v k d ihv ihd =>
      obtain ⟨owner, -, hread⟩ := bind_eq_ok_iff.mp h
      cases howner : owner.value with
      | dict items =>
          rw [howner] at hread
          dsimp only at hread
          cases hitem : PyVal.item? items k with
          | none =>
              rw [hitem] at hread
              exact ihd hread hflat
          | some x =>
              rw [hitem] at hread
              obtain rfl := Except.ok.inj hread
              exact hold_of_not_isContainer hflat
      | _ =>
          rw [howner] at hread
          cases hread
  | sub v k d ihv ihd =>
      obtain ⟨owner, -, hread⟩ := bind_eq_ok_iff.mp h
      cases howner : owner.value with
      | dict items =>
          rw [howner] at hread
          dsimp only at hread
          cases hitem : PyVal.item? items k with
          | none =>
              rw [hitem] at hread
              exact ihd hread hflat
          | some x =>
              rw [hitem] at hread
              obtain rfl := Except.ok.inj hread
              exact hold_of_not_isContainer hflat
      | _ =>
          rw [howner] at hread
          exact ihd hread hflat
  | text v =>
      obtain ⟨x, -, hx⟩ := bind_eq_ok_iff.mp h
      obtain rfl := Except.ok.inj hx
      rfl
  | number v =>
      obtain ⟨x, -, hx⟩ := bind_eq_ok_iff.mp h
      obtain ⟨n, -, hn⟩ := bind_eq_ok_iff.mp hx
      obtain rfl := Except.ok.inj hn
      rfl
  | orElse v w ihv ihw =>
      obtain ⟨x, hx, hread⟩ := bind_eq_ok_iff.mp h
      split_ifs at hread
      · obtain rfl := Except.ok.inj hread
        exact ihv hx hflat
      · exact ihw hread hflat
  | pair v w =>
      obtain ⟨x, -, hx⟩ := bind_eq_ok_iff.mp h
      obtain ⟨y, -, hy⟩ := bind_eq_ok_iff.mp hx
      obtain rfl := Except.ok.inj hy
      cases hflat
  | elements v =>
      obtain ⟨x, -, hx⟩ := bind_eq_ok_iff.mp h
      obtain ⟨items, -, hitems⟩ := bind_eq_ok_iff.mp hx
      obtain rfl := Except.ok.inj hitems
      cases hflat
  | mapping v =>
      obtain ⟨x, -, hx⟩ := bind_eq_ok_iff.mp h
      obtain ⟨items, hitems⟩ := mapping_value hx
      rw [hitems] at hflat
      cases hflat
  | positive v =>
      obtain ⟨x, -, hx⟩ := bind_eq_ok_iff.mp h
      obtain ⟨items, hitems⟩ := positive_value hx
      rw [hitems] at hflat
      cases hflat

theorem Source.Alike.read_eq (h : v.Alike host renderView e)
    (hflat : v.Reads host renderView e fun x => isContainer x = false) :
    v.read (viewReader host renderView) e =
      v.read (plainReader host renderView) e := by
  rcases map_value_eq_cases h.read_value with
    ⟨error, hview, hplain⟩ | ⟨held, held', hview, hplain, hvalue⟩
  · rw [hview, hplain]
  · have hnone : isContainer held'.value = false := hflat held' hplain
    have hheld := Source.read_of_not_isContainer hview (by rwa [hvalue])
    have hheld' := Source.read_of_not_isContainer hplain hnone
    rw [hview, hplain, hheld, hheld', hvalue]

theorem hasMappingList_of_forall {items : List PyVal}
    (h : ∀ item ∈ items, isContainer item = false) :
    hasMappingList items = false := by
  induction items with
  | nil => rfl
  | cons item items ih =>
      obtain ⟨hfirst, hrest⟩ := List.forall_mem_cons.mp h
      rw [hasMappingList, hasMapping_of_not_isContainer hfirst, ih hrest]
      rfl

theorem mapping_dict_eq {items : List (String × PyVal)}
    (h : ∀ item ∈ items, isContainer item.2 = false) :
    (viewReader host renderView).mapping (.dict items) =
      (plainReader host renderView).mapping (.dict items) := by
  have hnone : (items.any fun item => hasMapping item.2) = false := by
    rw [List.any_eq_false]
    intro item hitem
    rw [hasMapping_of_not_isContainer (h item hitem)]
    exact Bool.false_ne_true
  simp [Reader.mapping, hnone]

theorem bind_eq_of_value {α β : Type} {x y : Except PyError (Held α)}
    {f : Held α → Except PyError β} {g : Held α → Except PyError β}
    (h : x.map Held.value = y.map Held.value)
    (hfg : ∀ held held', x = .ok held → y = .ok held' →
      held.value = held'.value → f held = g held') : (x >>= f) = (y >>= g) := by
  rcases map_value_eq_cases h with
    ⟨error, rfl, rfl⟩ | ⟨held, held', rfl, rfl, hvalue⟩
  · rfl
  · exact hfg held held' rfl rfl hvalue

theorem Source.Flat.read_eq (h : v.Flat host renderView e) :
    v.read (viewReader host renderView) e =
      v.read (plainReader host renderView) e := by
  induction v with
  | const x => rfl
  | pair v w ihv ihw => simp only [Source.read, ihv h.1, ihw h.2]
  | elements v =>
      refine bind_eq_of_value h.1.read_value fun held held' _ hplain hvalue => ?_
      rw [hvalue]
      cases helements : listOf held'.value with
      | error error => rfl
      | ok items =>
          have hnone := hasMappingList_of_forall (h.2 held' hplain items helements)
          simp [bind, Except.bind, pure, Except.pure, Reader.hold, hasMapping, hnone]
  | mapping v =>
      refine bind_eq_of_value h.1.1.read_value fun held held' _ hplain hvalue => ?_
      rw [hvalue]
      by_cases hdict : ∃ items, held'.value = .dict items
      · obtain ⟨items, hitems⟩ := hdict
        rw [hitems]
        exact mapping_dict_eq (h.2 held' hplain items hitems)
      · rw [not_exists] at hdict
        exact mapping_eq_of_plainEntries hdict (h.1.2 held' hplain hdict)
  | positive v =>
      have halike : v.Alike host renderView e := h
      refine bind_eq_of_value halike.read_value fun held held' _ _ hvalue => ?_
      rw [hvalue]
      rfl
  | eventId => exact h.1.read_eq h.2
  | eventType => exact h.1.read_eq h.2
  | field k => exact h.1.read_eq h.2
  | payload => exact h.1.read_eq h.2
  | item v k d => exact h.1.read_eq h.2
  | sub v k d => exact h.1.read_eq h.2
  | text v => exact h.1.read_eq h.2
  | number v => exact h.1.read_eq h.2
  | orElse v w => exact h.1.read_eq h.2

end Reading

/-! ### The statements of a branch -/

section Statements

variable (host : Host) (renderView : PyVal → String) (e : Incoming)

/-- What a statement makes of an event does not depend on the form of the event:
what it stores holds no container of the event, what it compares or uses as a key
is read as the same text, and no check of a failed readiness is told by its being
a `dict`. -/
def Update.Indifferent : Update → Prop
  | .put _ _ v => v.Flat host renderView e
  | .putRecord _ _ fields => ∀ f ∈ fields, f.2.Flat host renderView e
  | .add _ n => n.Alike host renderView e
  | .bumpWhen (.text v) words _ _ => v.Alike host renderView e ∧
      v.Reads host renderView e fun x =>
        words.contains ((viewReader host renderView).str x) =
          words.contains ((plainReader host renderView).str x)
  | .bumpWhen v _ _ _ => v.Alike host renderView e
  | .bumpUnless v _ _ => v.Alike host renderView e
  | .push _ fields _ => ∀ f ∈ fields, f.2.Flat host renderView e
  | .count _ key => key.Alike host renderView e
  | .entry _ key fields => key.Alike host renderView e ∧
      ∀ f ∈ fields, f.2.Flat host renderView e
  | .entryOf owner _ key fields => owner.Alike host renderView e ∧
      owner.Reads host renderView e fun x => ∀ items, x = .dict items →
        key.Alike host renderView e ∧ ∀ f ∈ fields, f.2.Flat host renderView e
  | .converse session fields => session.Alike host renderView e ∧
      ∀ f ∈ fields, f.2.Flat host renderView e
  | .noteSignal => (Source.get "class").Reads host renderView e fun x =>
      x.truthy = true → SameText host renderView x
  | .noteRecovered => (Source.get "state").Reads host renderView e fun x =>
      x.pyEq (.str "NORMAL") = true →
        (Source.get "cycle_id").Reads host renderView e fun y =>
          y.truthy = true → isContainer y = false
  | .noteFailedCheck => (Source.getOr "check" (.dict [])).Reads host renderView e
      fun x => ∀ items, x = .dict items →
        (PyVal.getItem items "status").pyEq (.str "fail") = false

end Statements

section Writing

variable {host : Host} {renderView : PyVal → String} {e : Incoming}

theorem readItems_eq {fields : List (String × Source)}
    (h : ∀ f ∈ fields, f.2.Flat host renderView e) :
    Source.readItems (viewReader host renderView) e fields =
      Source.readItems (plainReader host renderView) e fields := by
  induction fields with
  | nil => rfl
  | cons f fields ih =>
      obtain ⟨hfirst, hrest⟩ := List.forall_mem_cons.mp h
      simp only [Source.readItems, hfirst.read_eq, ih hrest]

theorem enterRecord_eq {path : List String} {key : Source}
    {fields : List (String × Source)} (hkey : key.Alike host renderView e)
    (hfields : ∀ f ∈ fields, f.2.Flat host renderView e) :
    Update.enterRecord (viewReader host renderView) e path key fields =
      Update.enterRecord (plainReader host renderView) e path key fields := by
  refine bind_eq_of_value hkey.read_value fun held held' _ _ hvalue => ?_
  rw [readItems_eq hfields, hvalue]

theorem alike_get (k : String) : (Source.get k).Alike host renderView e :=
  ⟨trivial, trivial⟩

theorem read_text_bind {α : Type} (r : Reader) (v : Source)
    (f : Held PyVal → Except PyError α) :
    ((Source.text v).read r e >>= f) =
      v.read r e >>= fun held => f (.plain (.str (r.str held.value))) := by
  simp only [Source.read]
  cases v.read r e <;> rfl

theorem bumpWhen_eq {v : Source} {words : List String} {group name : String}
    (h : v.Alike host renderView e) :
    (Update.bumpWhen v words group name).write (viewReader host renderView) e =
      (Update.bumpWhen v words group name).write (plainReader host renderView) e := by
  refine bind_eq_of_value h.read_value fun held held' _ _ hvalue => ?_
  rw [hvalue]

/-- An indifferent statement comes down to the same write. -/
theorem Update.Indifferent.write_eq {u : Update}
    (h : u.Indifferent host renderView e) :
    u.write (viewReader host renderView) e =
      u.write (plainReader host renderView) e := by
  cases u with
  | put path k v => simp only [Update.write, Source.Flat.read_eq h]
  | putRecord path k fields => simp only [Update.write, readItems_eq h]
  | add path n =>
      refine bind_eq_of_value (Source.Alike.read_value h)
        fun held held' _ _ hvalue => ?_
      rw [hvalue]
  | bumpWhen v words group name =>
      cases v with
      | text v =>
          simp only [Update.write, read_text_bind]
          refine bind_eq_of_value h.1.read_value fun held held' _ hplain hvalue => ?_
          have hwords := h.2 held' hplain
          dsimp only [Update.asText, Held.plain]
          rw [hvalue, hwords]
      | _ => exact bumpWhen_eq h
  | bumpUnless v group name =>
      refine bind_eq_of_value (Source.Alike.read_value h)
        fun held held' _ _ hvalue => ?_
      rw [hvalue]
  | push path fields cap => simp only [Update.write, readItems_eq h]
  | count path key =>
      refine bind_eq_of_value (Source.Alike.read_value h)
        fun held held' _ _ hvalue => ?_
      rw [hvalue]
  | entry path key fields => exact enterRecord_eq h.1 h.2
  | entryOf owner path key fields =>
      refine bind_eq_of_value h.1.read_value fun held held' _ hplain hvalue => ?_
      rw [hvalue]
      cases howner : held'.value with
      | dict items =>
          obtain ⟨hkey, hfields⟩ := h.2 held' hplain items howner
          exact enterRecord_eq hkey hfields
      | _ => rfl
  | converse session fields =>
      refine bind_eq_of_value h.1.read_value fun held held' _ _ hvalue => ?_
      rw [readItems_eq h.2, hvalue]
  | noteSignal =>
      refine bind_eq_of_value (alike_get "class").read_value
        fun held held' _ hplain hvalue => ?_
      have hseverity : (Source.number (.getOr "severity" (.int 0))).Alike
          host renderView e := ⟨trivial, trivial⟩
      refine bind_eq_of_value hseverity.read_value fun n n' _ _ hn => ?_
      rw [hvalue, hn]
      cases n'.value with
      | int severity =>
          by_cases hclass : held'.value.truthy = true
          · have htext : SameText host renderView held'.value :=
              h held' hplain hclass
            rw [if_pos hclass, if_pos hclass, htext]
          · rw [if_neg hclass, if_neg hclass]
      | _ => rfl
  | noteRecovered =>
      refine bind_eq_of_value (alike_get "state").read_value
        fun state state' _ hstate hvalue => ?_
      refine bind_eq_of_value (alike_get "cycle_id").read_value
        fun cycleId cycleId' hview hplain hid => ?_
      rw [hvalue, hid]
      by_cases hnoted : (state'.value.pyEq (.str "NORMAL") &&
          cycleId'.value.truthy) = true
      · obtain ⟨hnormal, htruthy⟩ := Bool.and_eq_true_iff.mp hnoted
        have hflat : isContainer cycleId'.value = false :=
          h state' hstate hnormal cycleId' hplain htruthy
        rw [if_pos hnoted, if_pos hnoted,
          Source.read_of_not_isContainer hview (by rwa [hid]),
          Source.read_of_not_isContainer hplain hflat, hid]
      · rw [if_neg hnoted, if_neg hnoted]
  | noteFailedCheck =>
      have hcheck : (Source.getOr "check" (.dict [])).Alike host renderView e :=
        ⟨trivial, trivial⟩
      refine bind_eq_of_value hcheck.read_value fun held held' _ hplain hvalue => ?_
      rw [hvalue]
      cases hitems : held'.value with
      | dict items =>
          have hpassed := h held' hplain items hitems
          simp only [hpassed, Bool.and_false, Bool.false_eq_true, if_false]
      | _ => rfl

/-- An event whose branch is indifferent to its form. -/
def Indifferent (host : Host) (renderView : PyVal → String) (event : Envelope) :
    Prop :=
  ∀ u ∈ branch event.type, u.Indifferent host renderView event.incoming

theorem closing_indifferent (event : Envelope) :
    ∀ u ∈ World.closing, u.Indifferent host renderView event.incoming := by
  refine List.forall_mem_cons.mpr ⟨⟨trivial, ?_⟩, List.forall_mem_singleton.mpr trivial⟩
  intro held hread
  simp only [Source.read, Envelope.incoming, field_seq, bind, Except.bind, pure,
    Except.pure] at hread
  obtain rfl := Except.ok.inj hread
  rfl

theorem foldlM_run_eq {us : List Update} {s : Held PyVal}
    (h : ∀ u ∈ us, u.Indifferent host renderView e) :
    us.foldlM (Update.run (viewReader host renderView) e) s =
      us.foldlM (Update.run (plainReader host renderView) e) s := by
  induction us generalizing s with
  | nil => rfl
  | cons u us ih =>
      obtain ⟨hfirst, hrest⟩ := List.forall_mem_cons.mp h
      have hrun : u.run (viewReader host renderView) e s =
          u.run (plainReader host renderView) e s := by
        simp only [Update.run, hfirst.write_eq]
        rfl
      rw [List.foldlM_cons, List.foldlM_cons, hrun]
      exact bind_congr fun t => ih hrest

theorem Indifferent.apply_eq {event : Envelope}
    (h : Indifferent host renderView event) (s : World) :
    World.apply (viewReader host renderView) s event.record =
      World.apply (plainReader host renderView) s event.record := by
  cases hs : s.encodes with
  | false => rw [apply_of_not_encodes _ _ hs, apply_of_not_encodes _ _ hs]
  | true =>
      rw [apply_record _ _ hs, apply_record _ _ hs]
      refine foldlM_run_eq fun u hu => ?_
      rcases List.mem_append.mp hu with hu | hu
      · exact h u hu
      · exact closing_indifferent event u hu

end Writing

end Hydrogenuine.Runtime
