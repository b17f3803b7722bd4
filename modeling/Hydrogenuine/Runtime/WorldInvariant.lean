import Hydrogenuine.Runtime.BusLog
import Hydrogenuine.Runtime.WorldState

/-!
# What the reducer keeps

Every state that the reducer reaches fits the schema of the initial one.  In such
a state the branches find what they index, so whether an event is reduced is
settled by what its branch reads off it and, for an arousal signal, by what the
state has noted under the class of the signal.
-/

namespace Hydrogenuine.Runtime

open Support Hydrogenuine.Core

/-! ## The schema -/

def entrySchema (name : String) : Schema :=
  if name = "conversations" then .record [("turns", .list)]
  else if name ∈ ["counts_by_status", "refusal_counts_by_reason",
      "refused_by_reason", "unhandled_types"] then .int
  else .any

mutual

def schemaOf (name : String) : PyVal → Schema
  | .int _ => .int
  | .list _ => .list
  | .dict [] => .table (entrySchema name)
  | .dict (item :: items) => .record (schemaOfItems (item :: items))
  | _ => .any

def schemaOfItems : List (String × PyVal) → List (String × Schema)
  | [] => []
  | (k, v) :: rest => (k, schemaOf k v) :: schemaOfItems rest

end

def worldSchema : Schema := schemaOf "" initialState

theorem worldSchema_distinct : worldSchema.distinct = true := by decide +kernel

theorem initialState_fits : worldSchema.fits initialState = true := by
  decide +kernel

def arousalSchema : List (String × Schema) :=
  [("max_severity", .int), ("dimensions", .table .any)]

theorem worldSchema_arousal :
    worldSchema.at? ["environment", "arousal"] = some (.record arousalSchema) :=
  rfl

def selfSchema : List (String × Schema) := schemaOfItems initialSelf

theorem worldSchema_self :
    worldSchema.at? ["self"] = some (.record selfSchema) :=
  rfl

theorem worldSchema_conversations :
    worldSchema.at? ["conversations"] =
      some (.table (.record [("turns", .list)])) :=
  rfl

/-! ## Writes that fit -/

namespace Write

/-- What stands at the place of the write is of the kind that it needs. -/
def Fits : Write → Prop
  | .set path v => ∃ kind, worldSchema.at? path = some kind ∧ kind.fits v = true
  | .add path _ => worldSchema.at? path = some .int
  | .push path _ _ => worldSchema.at? path = some .list
  | .count path _ => worldSchema.at? path = some (.table .int)
  | .enter path _ _ => worldSchema.at? path = some (.table .any)
  | .turn _ _ _ => True
  | .signal _ _ => True
  | .failedCheck _ => True

def notedAt (s : PyVal) (name : String) : PyVal :=
  match valueAt ["environment", "arousal", "dimensions"] s with
  | some (.dict dimensions) => (PyVal.item? dimensions name).getD (.int 0)
  | _ => .int 0

/-- The severity noted under the class of a signal is an integer, or can be
converted into one. -/
def Lands (host : Host) (s : PyVal) : Write → Prop
  | .signal (some name) _ => ∃ n, host.toInt (notedAt s name) = .ok n
  | _ => True

end Write

theorem Write.Fits.at? {w : Write} (h : w.Fits) :
    ∃ kind, worldSchema.at? w.path = some kind := by
  cases w with
  | set path v =>
      obtain ⟨kind, hkind, -⟩ := h
      exact ⟨kind, hkind⟩
  | turn _ _ _ => exact ⟨_, worldSchema_conversations⟩
  | signal _ _ => exact ⟨_, worldSchema_arousal⟩
  | failedCheck _ => exact ⟨_, worldSchema_self⟩
  | _ => exact ⟨_, h⟩

/-! ## Keeping the kind -/

section Kinds

variable {host : Host} {kind : Schema} {w : Write} {x y s t : PyVal}

theorem addTurn_fits
    (item eventId : PyVal) {conversation : PyVal}
    (h : (Schema.record [("turns", .list)]).fits conversation = true) :
    ∃ y, Write.addTurn item eventId conversation = .ok y ∧
      (Schema.record [("turns", .list)]).fits y = true := by
  obtain ⟨items, rfl, hfields⟩ := fits_record h
  have hfield : lookupEntry "turns" [("turns", Schema.list)] = some .list := rfl
  obtain ⟨v, hv, hturns⟩ := fitsFields_lookup hfields hfield
  obtain ⟨turns, rfl⟩ := fits_list hturns
  simp only [Write.addTurn, hv]
  refine ⟨_, rfl, ?_⟩
  rw [Schema.fits]
  refine fitsFields_setItem rfl (fitsFields_setItem rfl hfields ?_) ?_
  · intro field hfield
    obtain rfl : Schema.list = field := by simpa [lookupEntry] using hfield
    rfl
  · intro field hfield
    simp [lookupEntry] at hfield

theorem arousal_cases (h : (Schema.record arousalSchema).fits x = true) :
    ∃ items dimensions highest, x = .dict items ∧
      PyVal.item? items "dimensions" = some (.dict dimensions) ∧
      PyVal.item? items "max_severity" = some (.int highest) := by
  obtain ⟨items, rfl, hfields⟩ := fits_record h
  have hfield : lookupEntry "max_severity" arousalSchema = some .int := rfl
  have hfield' : lookupEntry "dimensions" arousalSchema =
      some (.table .any) := rfl
  obtain ⟨v, hv, hmax⟩ := fitsFields_lookup hfields hfield
  obtain ⟨v', hv', hdimensions⟩ := fitsFields_lookup hfields hfield'
  obtain ⟨highest, rfl⟩ := fits_int hmax
  obtain ⟨dimensions, rfl, -⟩ := fits_table hdimensions
  exact ⟨items, dimensions, highest, rfl, hv', hv⟩

theorem arousal_fits (highest : ℤ) (dimensions : List (String × PyVal)) :
    (Schema.record arousalSchema).fits
      (.dict [("max_severity", .int highest),
        ("dimensions", .dict dimensions)]) = true := by
  simp [Schema.fits, Schema.fitsFields, arousalSchema, PyVal.item?, List.lookup_cons]

theorem noteSignal_eq
    {signalClass : Option String} {severity : ℤ}
    {items dimensions : List (String × PyVal)} {highest : ℤ}
    (hdimensions : PyVal.item? items "dimensions" = some (.dict dimensions))
    (hmax : PyVal.item? items "max_severity" = some (.int highest)) :
    Write.noteSignal host signalClass severity (.dict items) =
      (Write.noteClass host signalClass severity dimensions).map
        fun dimensions => .dict
          [("max_severity", .int (max highest severity)),
            ("dimensions", .dict dimensions)] := by
  unfold Write.noteSignal
  simp only [hdimensions, hmax, Option.getD_some, Host.toInt, bind, Except.bind,
    Except.map, pure, Except.pure]

/-- What a write that fits makes of a value of the kind at its place is of that
kind again. -/
theorem Write.rewrite_fits
    (hfits : w.Fits) (hkind : worldSchema.at? w.path = some kind)
    (hx : kind.fits x = true) (h : w.rewrite host x = .ok y) :
    kind.fits y = true := by
  cases w with
  | set path v =>
      obtain ⟨kind', hkind', hv⟩ := hfits
      obtain rfl := Option.some.inj (hkind'.symm.trans hkind)
      obtain rfl := Except.ok.inj h
      exact hv
  | add path n =>
      obtain rfl := Option.some.inj (hfits.symm.trans hkind)
      obtain ⟨m, rfl⟩ := fits_int hx
      obtain rfl := Except.ok.inj h
      rfl
  | push path item cap =>
      obtain rfl := Option.some.inj (hfits.symm.trans hkind)
      obtain ⟨ring, rfl⟩ := fits_list hx
      obtain rfl := Except.ok.inj h
      rfl
  | count path key =>
      obtain rfl := Option.some.inj (hfits.symm.trans hkind)
      obtain ⟨counts, rfl, -⟩ := fits_table hx
      simp only [Write.rewrite] at h
      split at h
      · obtain rfl := Except.ok.inj h
        exact fits_table_setItem hx rfl
      · cases h
  | enter path key v =>
      obtain rfl := Option.some.inj (hfits.symm.trans hkind)
      obtain ⟨items, rfl, -⟩ := fits_table hx
      obtain rfl := Except.ok.inj h
      exact fits_table_setItem hx (by simp [Schema.fits])
  | turn session item eventId =>
      obtain rfl := Option.some.inj (worldSchema_conversations.symm.trans hkind)
      obtain ⟨conversations, rfl, -⟩ := fits_table hx
      obtain ⟨conversation, hturn, hfit⟩ := addTurn_fits item eventId
        (fits_table_getD (k := session) hx
          (v := Write.newConversation) (by decide))
      simp only [Write.rewrite, hturn] at h
      obtain rfl := Except.ok.inj h
      exact fits_table_setItem hx hfit
  | signal signalClass severity =>
      obtain rfl := Option.some.inj (worldSchema_arousal.symm.trans hkind)
      obtain ⟨items, dimensions, highest, rfl, hdimensions, hmax⟩ :=
        arousal_cases hx
      rw [Write.rewrite, noteSignal_eq hdimensions hmax] at h
      obtain ⟨dimensions', -, rfl⟩ := map_eq_ok_iff.mp h
      exact arousal_fits _ _
  | failedCheck checkId =>
      obtain rfl := Option.some.inj (worldSchema_self.symm.trans hkind)
      obtain ⟨items, rfl, hitems⟩ := fits_record hx
      simp only [Write.rewrite] at h
      split at h
      · obtain rfl := Except.ok.inj h
        have hdistinct : Schema.distinctFields selfSchema = true := by decide
        rw [Schema.fits]
        refine fitsFields_setItem hdistinct hitems fun field hfield => ?_
        have hnone : lookupEntry "failed_readiness_checks" selfSchema = none := by
          decide
        rw [hnone] at hfield
        cases hfield
      · obtain rfl := Except.ok.inj h
        exact hx

/-- A write that fits succeeds on a value of the kind at its place, unless it is
a signal whose class has a severity that is no integer. -/
theorem Write.rewrite_ok_iff
    (hfits : w.Fits) (hkind : worldSchema.at? w.path = some kind)
    (hx : kind.fits x = true) (hs : valueAt w.path s = some x) :
    (∃ y, w.rewrite host x = .ok y) ↔ w.Lands host s := by
  cases w with
  | set path v => exact iff_of_true ⟨_, rfl⟩ trivial
  | add path n =>
      obtain rfl := Option.some.inj (hfits.symm.trans hkind)
      obtain ⟨m, rfl⟩ := fits_int hx
      exact iff_of_true ⟨_, rfl⟩ trivial
  | push path item cap =>
      obtain rfl := Option.some.inj (hfits.symm.trans hkind)
      obtain ⟨ring, rfl⟩ := fits_list hx
      exact iff_of_true ⟨_, rfl⟩ trivial
  | count path key =>
      obtain rfl := Option.some.inj (hfits.symm.trans hkind)
      obtain ⟨counts, rfl, -⟩ := fits_table hx
      obtain ⟨n, hn⟩ := fits_int (fits_table_getD (k := key) hx
        (v := .int 0) rfl)
      refine iff_of_true ⟨.dict (PyVal.setItem counts key (.int (n + 1))), ?_⟩
        trivial
      simp only [Write.rewrite, hn]
  | enter path key v =>
      obtain rfl := Option.some.inj (hfits.symm.trans hkind)
      obtain ⟨items, rfl, -⟩ := fits_table hx
      exact iff_of_true ⟨_, rfl⟩ trivial
  | turn session item eventId =>
      obtain rfl := Option.some.inj (worldSchema_conversations.symm.trans hkind)
      obtain ⟨conversations, rfl, -⟩ := fits_table hx
      obtain ⟨conversation, hturn, -⟩ := addTurn_fits item eventId
        (fits_table_getD (k := session) hx
          (v := Write.newConversation) (by decide))
      refine iff_of_true ⟨.dict (PyVal.setItem conversations session
        conversation), ?_⟩ trivial
      simp only [Write.rewrite, hturn, bind, Except.bind, pure, Except.pure]
  | signal signalClass severity =>
      obtain rfl := Option.some.inj (worldSchema_arousal.symm.trans hkind)
      obtain ⟨items, dimensions, highest, rfl, hdimensions, hmax⟩ :=
        arousal_cases hx
      rw [Write.rewrite, noteSignal_eq hdimensions hmax]
      cases signalClass with
      | none => exact iff_of_true ⟨_, rfl⟩ trivial
      | some name =>
          have hnoted : Write.notedAt s name =
              (PyVal.item? dimensions name).getD (.int 0) := by
            have harousal : valueAt ["environment", "arousal"] s =
                some (.dict items) := hs
            have hat : valueAt ["environment", "arousal", "dimensions"] s =
                some (.dict dimensions) := by
              refine (valueAt_append ["environment", "arousal"] ["dimensions"]
                s).trans ?_
              rw [harousal, Option.bind_some, valueAt, hdimensions]
              rfl
            rw [Write.notedAt, hat]
          rw [Write.Lands, hnoted]
          simp only [map_eq_ok_iff, Write.noteClass, Write.noteDimension,
            bind_eq_ok_iff]
          constructor
          · rintro ⟨-, -, ⟨n, hn, -⟩, -⟩
            exact ⟨n, hn⟩
          · rintro ⟨n, hn⟩
            exact ⟨_, _, ⟨n, hn, rfl⟩, rfl⟩
  | failedCheck checkId =>
      obtain rfl := Option.some.inj (worldSchema_self.symm.trans hkind)
      obtain ⟨items, rfl, -⟩ := fits_record hx
      refine iff_of_true ?_ trivial
      simp only [Write.rewrite]
      split
      · exact ⟨_, rfl⟩
      · exact ⟨_, rfl⟩

theorem Write.perform_fits
    (hfits : w.Fits) (hs : worldSchema.fits s = true)
    (h : w.perform host s = .ok t) : worldSchema.fits t = true := by
  obtain ⟨kind, hkind⟩ := hfits.at?
  obtain ⟨x, y, hx, hy, -⟩ := updateAt_ok_cases h
  have hupdate : ∃ t', w.perform host s = .ok t' ∧
      worldSchema.fits t' = true := by
    refine updateAt_fits worldSchema_distinct hs hkind fun x' hx' hfit => ?_
    obtain rfl := Option.some.inj (hx.symm.trans hx')
    exact ⟨y, hy, Write.rewrite_fits hfits hkind hfit hy⟩
  obtain ⟨t', ht', hfit⟩ := hupdate
  obtain rfl := Except.ok.inj (h.symm.trans ht')
  exact hfit

theorem Write.perform_ok_iff
    (hfits : w.Fits) (hs : worldSchema.fits s = true) :
    (∃ t, w.perform host s = .ok t) ↔ w.Lands host s := by
  obtain ⟨kind, hkind⟩ := hfits.at?
  obtain ⟨x, hx, hfit⟩ := valueAt_fits hs hkind
  rw [← Write.rewrite_ok_iff hfits hkind hfit hx]
  constructor
  · rintro ⟨t, ht⟩
    obtain ⟨x', y, hx', hy, -⟩ := updateAt_ok_cases ht
    obtain rfl := Option.some.inj (hx.symm.trans hx')
    exact ⟨y, hy⟩
  · rintro ⟨y, hy⟩
    exact updateAt_of_valueAt hx hy

end Kinds

/-! ## Updates that fit -/

def Source.gives : Source → Schema → Bool
  | _, .any => true
  | .number _, .int => true
  | .const (.int _), .int => true
  | .mapping _, .table .any => true
  | .positive _, .table .any => true
  | _, _ => false

def fieldsGiven (fields : List (String × Schema))
    (sources : List (String × Source)) : Bool :=
  fields.all fun field =>
    (lookupEntry field.1 sources).any fun source => source.gives field.2

def sameKind : Schema → Schema → Bool
  | .any, .any => true
  | .int, .int => true
  | .list, .list => true
  | .table .int, .table .int => true
  | .table .any, .table .any => true
  | _, _ => false

def kindAt (path : List String) (kind : Schema) : Bool :=
  (worldSchema.at? path).any (sameKind kind)

def Update.fits : Update → Bool
  | .put path k _ => kindAt (path ++ [k]) .any
  | .putRecord path k sources =>
      match worldSchema.at? (path ++ [k]) with
      | some (.record fields) => fieldsGiven fields sources
      | _ => false
  | .add path _ => kindAt path .int
  | .bumpWhen _ _ group name => kindAt ["activity", group, name] .int
  | .bumpUnless _ group name => kindAt ["activity", group, name] .int
  | .push path _ _ => kindAt path .list
  | .count path _ => kindAt path (.table .int)
  | .entry path _ _ => kindAt path (.table .any)
  | .entryOf _ path _ _ => kindAt path (.table .any)
  | .converse _ _ => true
  | .noteSignal => true
  | .noteRecovered => kindAt ["self", "last_recovery_cycle"] .any
  | .noteFailedCheck => true

theorem sameKind_eq {kind kind' : Schema} (h : sameKind kind kind' = true) :
    kind = kind' := by
  unfold sameKind at h
  split at h
  all_goals first
    | rfl
    | cases h

theorem at?_of_kindAt {path : List String} {kind : Schema}
    (h : kindAt path kind = true) : worldSchema.at? path = some kind := by
  obtain ⟨kind', hkind', hsame⟩ := (Option.any_eq_true _ _).mp h
  rw [hkind', sameKind_eq hsame]

theorem branches_fit :
    (branches.all fun entry => entry.2.all Update.fits) = true := by
  decide +kernel

theorem closing_fits : (World.closing.all Update.fits) = true := by
  decide +kernel

theorem branch_cases (type : String) :
    (type, branch type) ∈ branches ∨ branch type = [] ∨
      branch type = [.count ["meta", "unhandled_types"] .eventType] := by
  unfold branch
  cases hlookup : branches.lookup type with
  | none =>
      dsimp only
      split_ifs
      · exact Or.inr (Or.inl rfl)
      · exact Or.inr (Or.inr rfl)
  | some updates =>
      obtain ⟨before, after, hbranches, -⟩ := List.lookup_eq_some_iff.mp hlookup
      rw [hbranches]
      exact Or.inl (List.mem_append_right _ List.mem_cons_self)

theorem forall_branch
    {P : List Update → Prop} (htable : ∀ entry ∈ branches, P entry.2)
    (hnil : P [])
    (hcount : P [.count ["meta", "unhandled_types"] .eventType])
    (type : String) : P (branch type) := by
  rcases branch_cases type with htype | hempty | hcounted
  · exact htable _ htype
  · rw [hempty]
    exact hnil
  · rw [hcounted]
    exact hcount

def statements (type : String) : List Update := branch type ++ World.closing

theorem statements_fit (type : String) :
    ∀ u ∈ statements type, u.fits = true := by
  have hbranch : ∀ u ∈ branch type, u.fits = true :=
    forall_branch (P := fun us => ∀ u ∈ us, u.fits = true)
      (fun entry hentry => List.all_eq_true.mp
        (List.all_eq_true.mp branches_fit entry hentry))
      (List.forall_mem_nil _) (List.forall_mem_singleton.mpr (by decide +kernel))
      type
  intro u hu
  rcases List.mem_append.mp hu with hu | hu
  · exact hbranch u hu
  · exact List.all_eq_true.mp closing_fits u hu

section Reading

variable {r : Reader} {e : Incoming} {v : Source} {held : Held PyVal}

theorem mapping_value {x : PyVal} (h : r.mapping x = .ok held) :
    ∃ items, held.value = .dict items := by
  unfold Reader.mapping at h
  split at h
  · obtain rfl := Except.ok.inj h
    exact ⟨_, rfl⟩
  · simp only [bind_eq_ok_iff] at h
    obtain ⟨elements, -, pairs, -, hheld⟩ := h
    obtain rfl := Except.ok.inj hheld
    exact ⟨_, rfl⟩

theorem positive_value {x : PyVal} (h : r.positive x = .ok held) :
    ∃ items, held.value = .dict items := by
  cases x with
  | dict items =>
      simp only [Reader.positive, bind_eq_ok_iff] at h
      obtain ⟨counts, -, hheld⟩ := h
      obtain rfl := Except.ok.inj hheld
      exact ⟨_, rfl⟩
  | _ => cases h

theorem Source.gives_fits
    {kind : Schema} (h : v.gives kind = true) (hread : v.read r e = .ok held) :
    kind.fits held.value = true := by
  unfold Source.gives at h
  split at h
  · simp [Schema.fits]
  · simp only [Source.read, bind_eq_ok_iff] at hread
    obtain ⟨x, -, n, -, hn⟩ := hread
    obtain rfl := Except.ok.inj hn
    rfl
  · obtain rfl := Except.ok.inj hread
    rfl
  · simp only [Source.read, bind_eq_ok_iff] at hread
    obtain ⟨x, -, hmapping⟩ := hread
    obtain ⟨items, hitems⟩ := mapping_value hmapping
    rw [hitems]
    simp [Schema.fits]
  · simp only [Source.read, bind_eq_ok_iff] at hread
    obtain ⟨x, -, hpositive⟩ := hread
    obtain ⟨items, hitems⟩ := positive_value hpositive
    rw [hitems]
    simp [Schema.fits]
  · cases h

theorem item?_readItems
    {sources : List (String × Source)} {fields : Held (List (String × PyVal))}
    {k : String} (h : Source.readItems r e sources = .ok fields)
    (hsource : lookupEntry k sources = some v) :
    ∃ x, v.read r e = .ok x ∧ PyVal.item? fields.value k = some x.value := by
  induction sources generalizing fields with
  | nil => cases hsource
  | cons entry rest ih =>
      obtain ⟨k', source⟩ := entry
      simp only [Source.readItems, bind_eq_ok_iff] at h
      obtain ⟨x, hx, others, hothers, hfields⟩ := h
      obtain rfl := Except.ok.inj hfields
      unfold lookupEntry at hsource
      split_ifs at hsource with hk
      · obtain rfl := Option.some.inj hsource
        exact ⟨x, hx, by simp [PyVal.item?, hk]⟩
      · obtain ⟨y, hy, hitem⟩ := ih hothers hsource
        refine ⟨y, hy, ?_⟩
        rw [PyVal.item?, List.lookup_cons, beq_false_of_ne (Ne.symm hk)]
        exact hitem

theorem readItems_fits
    {kinds : List (String × Schema)} {sources : List (String × Source)}
    {fields : Held (List (String × PyVal))}
    (hgiven : fieldsGiven kinds sources = true)
    (h : Source.readItems r e sources = .ok fields) :
    Schema.fitsFields kinds fields.value = true := by
  induction kinds with
  | nil => rfl
  | cons entry kinds ih =>
      obtain ⟨k, kind⟩ := entry
      rw [fieldsGiven, List.all_cons, Bool.and_eq_true,
        Option.any_eq_true] at hgiven
      obtain ⟨⟨source, hsource, hgives⟩, hrest⟩ := hgiven
      obtain ⟨x, hx, hitem⟩ := item?_readItems h hsource
      rw [Schema.fitsFields, hitem, Bool.and_eq_true]
      exact ⟨Source.gives_fits hgives hx, ih hrest⟩

section Write

variable {u : Update} {w : Write}

theorem bumpIf_value {condition : Bool} {group name : String}
    (h : (Update.bumpIf condition group name).value = some w) :
    w = .add ["activity", group, name] 1 := by
  unfold Update.bumpIf at h
  cases condition with
  | true => exact (Option.some.inj h).symm
  | false => cases h

theorem enterRecord_value
    {path : List String} {key : Source} {fields : List (String × Source)}
    {h : Held (Option Write)}
    (henter : Update.enterRecord r e path key fields = .ok h)
    (hw : h.value = some w) : ∃ k v, w = .enter path k v := by
  simp only [Update.enterRecord, bind_eq_ok_iff] at henter
  obtain ⟨x, -, items, -, hitems⟩ := henter
  obtain rfl := Except.ok.inj hitems
  exact ⟨_, _, (Option.some.inj hw).symm⟩

def Update.isSignal : Update → Bool
  | .noteSignal => true
  | _ => false

def Write.isSignal : Write → Bool
  | .signal _ _ => true
  | _ => false

/-- A statement writes at its target, and if it fits, so does what it writes. -/
theorem Update.write_spec
    {h : Held (Option Write)} (hwrite : u.write r e = .ok h)
    (hw : h.value = some w) :
    w.path = u.target ∧ w.isSignal = u.isSignal ∧ (u.fits = true → w.Fits) := by
  cases u with
  | put path k v =>
      simp only [Update.write, bind_eq_ok_iff] at hwrite
      obtain ⟨x, -, hx⟩ := hwrite
      obtain rfl := Except.ok.inj hx
      obtain rfl := Option.some.inj hw
      exact ⟨rfl, rfl, fun hfits =>
        ⟨.any, at?_of_kindAt hfits, by simp [Schema.fits]⟩⟩
  | putRecord path k sources =>
      simp only [Update.write, bind_eq_ok_iff] at hwrite
      obtain ⟨fields, hfields, hx⟩ := hwrite
      obtain rfl := Except.ok.inj hx
      obtain rfl := Option.some.inj hw
      refine ⟨rfl, rfl, fun hfits => ?_⟩
      simp only [Update.fits] at hfits
      split at hfits
      next kinds hkinds =>
        exact ⟨_, hkinds, by rw [Schema.fits]; exact readItems_fits hfits hfields⟩
      next => cases hfits
  | add path n =>
      simp only [Update.write, bind_eq_ok_iff] at hwrite
      obtain ⟨x, -, hx⟩ := hwrite
      split at hx
      · obtain rfl := Except.ok.inj hx
        obtain rfl := Option.some.inj hw
        exact ⟨rfl, rfl, at?_of_kindAt⟩
      · cases hx
  | bumpWhen v words group name =>
      simp only [Update.write, bind_eq_ok_iff] at hwrite
      obtain ⟨x, -, hx⟩ := hwrite
      obtain rfl := Except.ok.inj hx
      obtain rfl := bumpIf_value hw
      exact ⟨rfl, rfl, at?_of_kindAt⟩
  | bumpUnless v group name =>
      simp only [Update.write, bind_eq_ok_iff] at hwrite
      obtain ⟨x, -, hx⟩ := hwrite
      obtain rfl := Except.ok.inj hx
      obtain rfl := bumpIf_value hw
      exact ⟨rfl, rfl, at?_of_kindAt⟩
  | push path sources cap =>
      simp only [Update.write, bind_eq_ok_iff] at hwrite
      obtain ⟨fields, -, hx⟩ := hwrite
      obtain rfl := Except.ok.inj hx
      obtain rfl := Option.some.inj hw
      exact ⟨rfl, rfl, at?_of_kindAt⟩
  | count path key =>
      simp only [Update.write, bind_eq_ok_iff] at hwrite
      obtain ⟨x, -, hx⟩ := hwrite
      obtain rfl := Except.ok.inj hx
      obtain rfl := Option.some.inj hw
      exact ⟨rfl, rfl, at?_of_kindAt⟩
  | entry path key sources =>
      obtain ⟨k, v, rfl⟩ := enterRecord_value hwrite hw
      exact ⟨rfl, rfl, at?_of_kindAt⟩
  | entryOf owner path key sources =>
      simp only [Update.write, bind_eq_ok_iff] at hwrite
      obtain ⟨x, -, hx⟩ := hwrite
      split at hx
      · obtain ⟨k, v, rfl⟩ := enterRecord_value hx hw
        exact ⟨rfl, rfl, at?_of_kindAt⟩
      · obtain rfl := Except.ok.inj hx
        cases hw
  | converse session sources =>
      simp only [Update.write, bind_eq_ok_iff] at hwrite
      obtain ⟨x, -, fields, -, hx⟩ := hwrite
      obtain rfl := Except.ok.inj hx
      obtain rfl := Option.some.inj hw
      exact ⟨rfl, rfl, fun _ => trivial⟩
  | noteSignal =>
      simp only [Update.write, bind_eq_ok_iff] at hwrite
      obtain ⟨x, -, n, -, hx⟩ := hwrite
      split at hx
      · obtain rfl := Except.ok.inj hx
        obtain rfl := Option.some.inj hw
        exact ⟨rfl, rfl, fun _ => trivial⟩
      · cases hx
  | noteRecovered =>
      simp only [Update.write, bind_eq_ok_iff] at hwrite
      obtain ⟨x, -, cycleId, -, hx⟩ := hwrite
      split_ifs at hx
      · obtain rfl := Except.ok.inj hx
        obtain rfl := Option.some.inj hw
        exact ⟨rfl, rfl, fun hfits =>
          ⟨.any, at?_of_kindAt hfits, by simp [Schema.fits]⟩⟩
      · obtain rfl := Except.ok.inj hx
        cases hw
  | noteFailedCheck =>
      simp only [Update.write, bind_eq_ok_iff] at hwrite
      obtain ⟨x, -, hx⟩ := hwrite
      split at hx
      · split_ifs at hx
        · obtain rfl := Except.ok.inj hx
          obtain rfl := Option.some.inj hw
          exact ⟨rfl, rfl, fun _ => trivial⟩
        · obtain rfl := Except.ok.inj hx
          cases hw
      · obtain rfl := Except.ok.inj hx
        cases hw

end Write

end Reading

/-! ## Running statements -/

section Running

variable {r : Reader} {e : Incoming} {u : Update} {s t : Held PyVal}

/-- What the statement reads can be read and has a JSON text, and a signal finds
an integer. -/
def Update.Digests (r : Reader) (e : Incoming) (s : PyVal) (u : Update) : Prop :=
  ∃ h, u.write r e = .ok h ∧ h.Sound ∧
    ∀ w, h.value = some w → w.Lands r.host s

theorem Update.run_ok_cases (h : u.run r e s = .ok t) :
    ∃ w, u.write r e = .ok w ∧
      Update.perform r.host s.value w.value = .ok t.value ∧
      (t.Sound ↔ s.Sound ∧ w.Sound) := by
  simp only [Update.run, bind_eq_ok_iff] at h
  obtain ⟨w, hw, value, hvalue, ht⟩ := h
  obtain rfl := Except.ok.inj ht
  refine ⟨w, hw, hvalue, ?_⟩
  simp only [Held.Sound, Bool.and_eq_true]
  exact and_and_and_comm

theorem Update.run_fits
    (hu : u.fits = true) (hs : worldSchema.fits s.value = true)
    (h : u.run r e s = .ok t) : worldSchema.fits t.value = true := by
  obtain ⟨w, hw, hperform, -⟩ := Update.run_ok_cases h
  cases hvalue : w.value with
  | none =>
      rw [hvalue] at hperform
      rw [← Except.ok.inj hperform]
      exact hs
  | some write =>
      rw [hvalue] at hperform
      exact Write.perform_fits ((Update.write_spec hw hvalue).2.2 hu) hs hperform

theorem Update.run_frame
    {path : List String} (hapart : Apart u.target path = true)
    (h : u.run r e s = .ok t) : valueAt path t.value = valueAt path s.value := by
  obtain ⟨w, hw, hperform, -⟩ := Update.run_ok_cases h
  cases hvalue : w.value with
  | none =>
      rw [hvalue] at hperform
      rw [← Except.ok.inj hperform]
  | some write =>
      rw [hvalue] at hperform
      rw [← (Update.write_spec hw hvalue).1] at hapart
      exact valueAt_updateAt_of_apart hapart hperform

theorem Update.run_sound_iff
    (hu : u.fits = true) (hs : worldSchema.fits s.value = true) :
    (∃ t, u.run r e s = .ok t ∧ t.Sound) ↔
      s.Sound ∧ u.Digests r e s.value := by
  constructor
  · rintro ⟨t, hrun, ht⟩
    obtain ⟨w, hw, hperform, hsound⟩ := Update.run_ok_cases hrun
    obtain ⟨hs', hw'⟩ := hsound.mp ht
    refine ⟨hs', w, hw, hw', fun write hvalue => ?_⟩
    rw [hvalue] at hperform
    exact (Write.perform_ok_iff ((Update.write_spec hw hvalue).2.2 hu) hs).mp
      ⟨_, hperform⟩
  · rintro ⟨hs', w, hw, hw', hlands⟩
    obtain ⟨value, hperform⟩ : ∃ value,
        Update.perform r.host s.value w.value = .ok value := by
      cases hvalue : w.value with
      | none => exact ⟨_, rfl⟩
      | some write =>
          exact (Write.perform_ok_iff ((Update.write_spec hw hvalue).2.2 hu)
            hs).mpr (hlands write hvalue)
    have hrun : u.run r e s =
        .ok ⟨value, s.encodes && w.encodes, s.sorts && w.sorts⟩ := by
      simp only [Update.run, hw, hperform, bind, Except.bind, pure, Except.pure]
    obtain ⟨w', hwrite, -, hsound⟩ := Update.run_ok_cases hrun
    obtain rfl := Except.ok.inj (hw.symm.trans hwrite)
    exact ⟨_, hrun, hsound.mpr ⟨hs', hw'⟩⟩

def notedPath : List String := ["environment", "arousal", "dimensions"]

def signalsFirst : List Update → Bool
  | [] => true
  | u :: us =>
      (Apart u.target notedPath || us.all fun v => !v.isSignal) &&
        signalsFirst us

theorem Update.digests_congr
    {s t : PyVal} (h : u.isSignal = true → valueAt notedPath t = valueAt notedPath s) :
    u.Digests r e t ↔ u.Digests r e s := by
  have hlands (w : Write) (held : Held (Option Write))
      (hw : u.write r e = .ok held) (hvalue : held.value = some w) :
      w.Lands r.host t ↔ w.Lands r.host s := by
    have hsignal := (Update.write_spec hw hvalue).2.1
    cases w with
    | signal name severity =>
        cases name with
        | none => exact Iff.rfl
        | some name =>
            have hnoted : Write.notedAt t name = Write.notedAt s name := by
              unfold Write.notedAt
              rw [show valueAt ["environment", "arousal", "dimensions"] t =
                valueAt ["environment", "arousal", "dimensions"] s from
                h hsignal.symm]
            rw [Write.Lands, Write.Lands, hnoted]
    | _ => exact Iff.rfl
  constructor
  · rintro ⟨held, hw, hsound, hall⟩
    exact ⟨held, hw, hsound, fun w hvalue =>
      (hlands w held hw hvalue).mp (hall w hvalue)⟩
  · rintro ⟨held, hw, hsound, hall⟩
    exact ⟨held, hw, hsound, fun w hvalue =>
      (hlands w held hw hvalue).mpr (hall w hvalue)⟩

/-- Statements that fit run through exactly if each of them digests the event in
the state before the first. -/
theorem foldlM_run_sound_iff
    {us : List Update} (hfits : ∀ u ∈ us, u.fits = true)
    (hfirst : signalsFirst us = true) (hs : worldSchema.fits s.value = true) :
    (∃ t, us.foldlM (Update.run r e) s = .ok t ∧ t.Sound) ↔
      s.Sound ∧ ∀ u ∈ us, u.Digests r e s.value := by
  induction us generalizing s with
  | nil =>
      constructor
      · rintro ⟨t, ht, hsound⟩
        obtain rfl := Except.ok.inj ht
        exact ⟨hsound, List.forall_mem_nil _⟩
      · rintro ⟨hsound, -⟩
        exact ⟨s, rfl, hsound⟩
  | cons u us ih =>
      obtain ⟨hu, hfits⟩ := List.forall_mem_cons.mp hfits
      simp only [signalsFirst, Bool.and_eq_true, Bool.or_eq_true] at hfirst
      have hstep {t : Held PyVal} (hrun : u.run r e s = .ok t) :
          (∀ v ∈ us, v.Digests r e t.value) ↔
            ∀ v ∈ us, v.Digests r e s.value := by
        refine forall₂_congr fun v hv => Update.digests_congr fun hsignal => ?_
        rcases hfirst.1 with hapart | hnone
        · exact Update.run_frame hapart hrun
        · have hquiet := List.all_eq_true.mp hnone v hv
          rw [hsignal] at hquiet
          cases hquiet
      have hone := @Update.run_sound_iff r e u s hu hs
      simp only [List.foldlM_cons, bind_eq_ok_iff, List.forall_mem_cons]
      constructor
      · rintro ⟨t', ⟨t, hrun, hrest⟩, hsound⟩
        obtain ⟨ht, hdigests⟩ := (ih hfits hfirst.2
          (Update.run_fits hu hs hrun)).mp ⟨t', hrest, hsound⟩
        obtain ⟨hs', hdigest⟩ := hone.mp ⟨t, hrun, ht⟩
        exact ⟨hs', hdigest, (hstep hrun).mp hdigests⟩
      · rintro ⟨hs', hdigest, hdigests⟩
        obtain ⟨t, hrun, ht⟩ := hone.mpr ⟨hs', hdigest⟩
        obtain ⟨t', hrest, hsound⟩ := (ih hfits hfirst.2
          (Update.run_fits hu hs hrun)).mpr ⟨ht, (hstep hrun).mpr hdigests⟩
        exact ⟨t', ⟨t, hrun, hrest⟩, hsound⟩

theorem foldlM_run_fits
    {us : List Update} (hfits : ∀ u ∈ us, u.fits = true)
    (hs : worldSchema.fits s.value = true)
    (h : us.foldlM (Update.run r e) s = .ok t) :
    worldSchema.fits t.value = true := by
  induction us generalizing s with
  | nil =>
      obtain rfl := Except.ok.inj h
      exact hs
  | cons u us ih =>
      obtain ⟨hu, hfits⟩ := List.forall_mem_cons.mp hfits
      rw [List.foldlM_cons, bind_eq_ok_iff] at h
      obtain ⟨s', hrun, hrest⟩ := h
      exact ih hfits (Update.run_fits hu hs hrun) hrest

end Running

/-! ## Reducing events -/

def Envelope.incoming (event : Envelope) : Incoming where
  event := event.record
  type := event.type
  payload := .dict event.payload
  eventId := .str event.eventId

theorem incoming_record (event : Envelope) :
    World.incoming event.record = .ok event.incoming := by
  simp [World.incoming, Bus.field, Bus.subscript, Envelope.record, Envelope.body,
    PyVal.item?, List.lookup_cons, bind, Except.bind, pure, Except.pure,
    Envelope.incoming]

theorem apply_record (r : Reader) {s : World} (event : Envelope)
    (hs : s.encodes = true) :
    World.apply r s event.record =
      (statements event.type).foldlM (Update.run r event.incoming)
        (.plain s.value) := by
  rw [World.apply, hs, incoming_record]
  rfl

theorem apply_of_not_encodes (r : Reader) {s : World} (event : Record)
    (hs : s.encodes = false) :
    World.apply r s event =
      .error (.typeError "object is not JSON serializable") := by
  rw [World.apply, hs]
  rfl

/-- The states that the reducer reaches by events, read in either form. -/
inductive World.Reached (host : Host) (renderView : PyVal → String) :
    World → Prop
  | initial : World.Reached host renderView initialWorld
  | apply {s t : World} (live : Bool) (event : Envelope) :
      World.Reached host renderView s →
      World.apply ⟨host, renderView, live⟩ s event.record = .ok t →
      World.Reached host renderView t

theorem World.Reached.fits
    {host : Host} {renderView : PyVal → String} {s : World}
    (h : World.Reached host renderView s) : worldSchema.fits s.value = true := by
  induction h with
  | initial => exact initialState_fits
  | @apply s t live event _ happly ih =>
      cases hs : s.encodes with
      | true =>
          rw [apply_record _ event hs] at happly
          exact foldlM_run_fits (s := .plain s.value)
            (statements_fit event.type) ih happly
      | false =>
          rw [apply_of_not_encodes _ _ hs] at happly
          cases happly

theorem statements_signalsFirst (type : String) :
    signalsFirst (statements type) = true := by
  refine forall_branch
    (P := fun us => signalsFirst (us ++ World.closing) = true) ?_ ?_ ?_ type
  · have hall : (branches.all fun entry =>
        signalsFirst (entry.2 ++ World.closing)) = true := by
      decide +kernel
    exact List.all_eq_true.mp hall
  · decide +kernel
  · decide +kernel

theorem closing_digests (r : Reader) (event : Envelope) (s : PyVal) :
    ∀ u ∈ World.closing, u.Digests r event.incoming s := by
  refine List.forall_mem_cons.mpr ⟨?_, List.forall_mem_singleton.mpr ?_⟩
  · have hseq : Source.read r event.incoming (.field "seq") =
        .ok (r.hold (.int event.seq)) := by
      simp only [Source.read, Envelope.incoming, field_seq, bind, Except.bind,
        pure, Except.pure]
    refine ⟨(r.hold (.int event.seq)).map fun v =>
      some (.set ["meta", "last_seq"] v), ?_, ?_, ?_⟩
    · simp only [Update.write, hseq, bind, Except.bind, pure, Except.pure,
        List.cons_append, List.nil_append]
    · rw [Held.map_sound]
      exact ⟨by simp [Reader.hold, hasMapping], rfl⟩
    · rintro _ ⟨⟩
      trivial
  · refine ⟨.plain (some (.add ["meta", "events_applied"] 1)), rfl,
      Held.plain_sound _, ?_⟩
    rintro _ ⟨⟩
    trivial

/-- The state has a JSON text, and every statement of the event's branch digests
what it reads. -/
structure Digestible (r : Reader) (s : World) (event : Envelope) : Prop where
  encodes : s.encodes = true
  digests : ∀ u ∈ branch event.type, u.Digests r event.incoming s.value

/-- From every state that the reducer reaches, an event leads to a state with a
JSON text exactly if the conversions that its branch makes succeed, nothing that
it stores holds a view, and the state itself has a text. -/
theorem apply_sound_iff
    (r : Reader) (s : World) (hs : World.Reached r.host r.renderView s)
    (event : Envelope) :
    (∃ t, World.apply r s event.record = .ok t ∧ t.Sound) ↔
      Digestible r s event := by
  cases hencodes : s.encodes with
  | false =>
      rw [apply_of_not_encodes r _ hencodes]
      refine iff_of_false ?_ fun h => ?_
      · rintro ⟨t, ⟨⟩, -⟩
      · rw [h.encodes] at hencodes
        cases hencodes
  | true =>
      rw [apply_record r event hencodes]
      refine (foldlM_run_sound_iff (s := .plain s.value)
        (statements_fit event.type) (statements_signalsFirst event.type)
        hs.fits).trans ?_
      constructor
      · rintro ⟨-, hall⟩
        exact ⟨hencodes, fun u hu => hall u (List.mem_append_left _ hu)⟩
      · rintro ⟨-, hbranch⟩
        refine ⟨Held.plain_sound _, fun u hu => ?_⟩
        rcases List.mem_append.mp hu with hu | hu
        · exact hbranch u hu
        · exact closing_digests r event s.value u hu

/-! ### Events on the reference host -/

def referenceReader (live : Bool) : Reader :=
  ⟨referenceHost, referenceHost.renderContainer, live⟩

def firstEvent (type : String) (payload : List (String × PyVal)) : Envelope :=
  Envelope.sealed referenceHost
    { seq := 0
      timestamp := "2026-03-01T10:00:00.000000Z"
      type := type
      payload := payload
      source := "test"
      causalParents := []
      severity := .none
      prevHash := genesisHash
      eventHash := ""
      eventId := "" }

theorem branch_decision :
    branch "DECISION_EVENT" = [.bump "decisions" "allowed"] := rfl

theorem decision_digested :
    ∃ t, World.apply (referenceReader true) initialWorld
      (firstEvent "DECISION_EVENT" []).record = .ok t ∧ t.Sound := by
  refine (apply_sound_iff (referenceReader true) initialWorld .initial
    (firstEvent "DECISION_EVENT" [])).mpr ⟨rfl, ?_⟩
  rw [show (firstEvent "DECISION_EVENT" []).type = "DECISION_EVENT" from rfl,
    branch_decision]
  refine List.forall_mem_singleton.mpr ⟨_, rfl, Held.plain_sound _, ?_⟩
  rintro _ ⟨⟩
  trivial

/-- The bus accepts a signal whose severity is no number, and the reducer fails
on it. -/
theorem signal_not_reduced :
    Bus.Emitted (referenceBus fun _ => "2026-03-01T10:00:00.000000Z") .fresh
        (.str "AEP_SIGNAL_EMITTED") (.dict [("severity", .str "high")]) "test"
        (.list []) .none
        (firstEvent "AEP_SIGNAL_EMITTED" [("severity", .str "high")]) ∧
      ∀ live, ¬ ∃ t, World.apply (referenceReader live) initialWorld
        (firstEvent "AEP_SIGNAL_EMITTED" [("severity", .str "high")]).record =
          .ok t ∧ t.Sound := by
  constructor
  · exact
      { valid := rfl
        parents := rfl
        source_eq := rfl
        severity_eq := rfl
        seq_eq := rfl
        prev_eq := rfl
        timestamp_eq := rfl
        sealed_eq := rfl }
  · rintro live ⟨t, happly, -⟩
    have hfails : ∀ live, (World.apply (referenceReader live) initialWorld
        (firstEvent "AEP_SIGNAL_EMITTED"
          [("severity", .str "high")]).record).toBool = false := by
      decide +kernel
    have hfail := hfails live
    rw [happly] at hfail
    cases hfail

end Hydrogenuine.Runtime
