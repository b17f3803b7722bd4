import Hydrogenuine.Ledger.Chain

/-!
# The ledger's readers

What the readers find of the events that were appended.  The writer turns the
fields of a scope into a path; the readers walk the directories again, and
`verify_chain` looks for the file of a scope without its tenant.
-/

namespace Hydrogenuine.Ledger

open Support Hydrogenuine.Core

/-! ## Names -/

/-- A name that stands for itself in a path. -/
structure PlainName (text : String) : Prop where
  no_slash : '/' ∉ text.toList
  ne_empty : text ≠ ""
  ne_dot : text ≠ "."

theorem foldr_splitStep {cs : List Char} (h : '/' ∉ cs) :
    cs.foldr splitStep [[]] = [cs] := by
  induction cs with
  | nil => rfl
  | cons c cs ih =>
      rw [List.mem_cons, not_or] at h
      rw [List.foldr_cons, ih h.2, splitStep, if_neg (Ne.symm h.1)]

theorem segmentsOf_eq_self {text : String} (h : '/' ∉ text.toList) :
    segmentsOf text = [text] := by
  rw [segmentsOf, foldr_splitStep h, List.map_singleton, String.ofList_toList]

theorem join_plainName {base : LedgerPath} {text : String} (h : PlainName text) :
    base.join text = { base with parts := base.parts ++ [text] } := by
  have hrelative : startsWith text "/" = false := by
    rw [Bool.eq_false_iff]
    intro hstarts
    rw [startsWith_iff] at hstarts
    have hmem : '/' ∈ text.toList :=
      hstarts.subset (by decide)
    exact h.no_slash hmem
  unfold LedgerPath.join
  rw [segmentsOf_eq_self h.no_slash, hrelative]
  simp [h.ne_empty, h.ne_dot]

theorem plainName_ledger {scopeId : String} (h : '/' ∉ scopeId.toList) :
    PlainName (scopeId ++ ".jsonl") := by
  have hchars : (scopeId ++ ".jsonl").toList =
      scopeId.toList ++ ['.', 'j', 's', 'o', 'n', 'l'] := by
    rw [String.toList_append]
    rfl
  have hlength : 6 ≤ (scopeId ++ ".jsonl").toList.length := by
    rw [hchars, List.length_append]
    exact Nat.le_add_left _ _
  constructor
  · rw [hchars]
    simpa using h
  · intro hempty
    rw [hempty] at hlength
    simp at hlength
  · intro hdot
    rw [hdot] at hlength
    simp at hlength

/-! ## Scopes -/

def ownText (scope : List (String × PyVal)) (k default : String) :
    Option String :=
  let value := PyVal.getItem scope k
  if value.truthy then
    match value with
    | .str text => some text
    | _ => none
  else some default

/-- The type and the id of an event's own scope, its tenant and its
environment. -/
structure OwnScope (event : LedgerEvent) where
  scope : List (String × PyVal)
  scopeType : String
  scopeId : String
  scope_eq : scopeOf event = .ok scope
  type_eq : ownText scope "type" "global" = some scopeType
  id_eq : ownText scope "id" "default" = some scopeId

namespace OwnScope

variable {event : LedgerEvent} (own : OwnScope event)

def tenantId : PyVal := PyVal.getItem own.scope "tenant_id"

def environment : PyVal := PyVal.getItem own.scope "environment"

/-- The event is in a place that all readers look at: its scope has no tenant,
its type and id are names without blanks around them, and the id is not that of
a lock. -/
structure Placed : Prop where
  shared : (own.tenantId.truthy && own.environment.truthy) = false
  type_stripped : strip own.scopeType = own.scopeType
  id_stripped : strip own.scopeId = own.scopeId
  type_plain : PlainName own.scopeType
  type_below : own.scopeType ≠ ".."
  id_no_slash : '/' ∉ own.scopeId.toList
  id_ne_empty : own.scopeId ≠ ""
  id_no_lock : isSubstring ".lock" (own.scopeId ++ ".jsonl") = false

def path : LedgerPath := ⟨false, [own.scopeType, own.scopeId ++ ".jsonl"]⟩

end OwnScope

/-- What the readers find of the appended events. -/
structure AllRead (env : LedgerEnv) (files : Files)
    (appended : List LedgerEvent) : Prop where
  unfiltered : ∃ events,
    iterateEvents env.host files ⟨none, none, .none, .none, none, none⟩ =
      .ok events ∧ events.Perm appended
  filtered : ∀ event ∈ appended, ∃ own : OwnScope event, ∃ events,
    iterateEvents env.host files
      ⟨some own.scopeType, some own.scopeId, own.tenantId, own.environment,
        none, none⟩ = .ok events ∧ event ∈ events
  checked : ∀ event ∈ appended, ∃ own : OwnScope event, ∃ checked,
    filesToCheck env.host files (some (own.scopeType, own.scopeId)) =
      .ok checked ∧
    ∃ file ∈ checked, ∃ events,
      readFile files file.path = .ok events ∧ event ∈ events

/-! ## Placing -/

section Placed

variable {event : LedgerEvent} {own : OwnScope event}

theorem scopeText_of_ownText
    {scope : List (String × PyVal)} {k default text : String}
    (h : ownText scope k default = some text) (hstrip : strip text = text)
    (hne : text ≠ "") :
    scopeText scope k default = .ok text := by
  unfold ownText at h
  unfold scopeText
  dsimp only at h ⊢
  split_ifs at h ⊢ with htruthy
  · cases hvalue : PyVal.getItem scope k with
    | str found =>
        rw [hvalue] at h
        obtain rfl := Option.some.inj h
        simp only [hstrip, if_neg hne]
    | _ =>
        rw [hvalue] at h
        cases h
  · rw [Option.some.inj h]

theorem getScopeLedgerPath_of_shared
    (host : Host) {scopeType scopeId : String} {tenantId environment : PyVal}
    (hshared : (tenantId.truthy && environment.truthy) = false)
    (htype : PlainName scopeType) (hid : '/' ∉ scopeId.toList) :
    getScopeLedgerPath host (.str scopeType) (.str scopeId) tenantId
        environment =
      .ok ⟨false, [scopeType, scopeId ++ ".jsonl"]⟩ := by
  have hstr : host.str (.str scopeId) = scopeId := rfl
  simp only [getScopeLedgerPath, hshared, Bool.false_eq_true, if_false,
    joinValue, bind, Except.bind, pure, Except.pure, hstr]
  rw [join_plainName htype, join_plainName (plainName_ledger hid)]
  rfl

theorem writePath_of_placed (host : Host) (h : own.Placed) :
    writePath host own.scope = .ok own.path := by
  have htype := scopeText_of_ownText own.type_eq h.type_stripped
    h.type_plain.ne_empty
  have hid := scopeText_of_ownText own.id_eq h.id_stripped h.id_ne_empty
  simp only [writePath, htype, hid, bind, Except.bind]
  exact getScopeLedgerPath_of_shared host h.shared h.type_plain h.id_no_slash

end Placed

/-! ## Walking -/

/-- A directory of type with a ledger in it. -/
structure ScopeLedger (path : LedgerPath) (scopeType name : String) : Prop where
  path_eq : path = ⟨false, [scopeType, name]⟩
  ledger : endsWith name ".jsonl" = true
  no_lock : isSubstring ".lock" name = false

/-- Every file is the ledger of a scope without a tenant. -/
def Shallow (files : Files) : Prop :=
  ∀ file ∈ files, ∃ scopeType name, ScopeLedger file.1 scopeType name

section Walk

variable {files : Files}

theorem mem_sortedNames {names : List String} {name : String} :
    name ∈ sortedNames names ↔ name ∈ names := by
  unfold sortedNames
  rw [List.mem_insertionSort, List.mem_dedup]

theorem sortedNames_nodup (names : List String) : (sortedNames names).Nodup :=
  (List.perm_insertionSort _ _).nodup_iff.mpr (List.nodup_dedup names)

theorem mem_entriesIn_root (h : Shallow files) {entry : String × Bool} :
    entry ∈ entriesIn files [] ↔
      ∃ name, (⟨false, [entry.1, name]⟩ : LedgerPath) ∈ files.map Prod.fst ∧
        entry.2 = true := by
  unfold entriesIn
  rw [List.mem_filterMap]
  constructor
  · rintro ⟨file, hfile, hmap⟩
    obtain ⟨scopeType, name, hledger⟩ := h file hfile
    rw [hledger.path_eq] at hmap
    obtain rfl := Option.some.inj hmap
    exact ⟨name, List.mem_map.mpr ⟨file, hfile, hledger.path_eq⟩, rfl⟩
  · rintro ⟨name, hname, hdir⟩
    obtain ⟨file, hfile, hpath⟩ := List.mem_map.mp hname
    refine ⟨file, hfile, ?_⟩
    rw [hpath]
    obtain ⟨top, directory⟩ := entry
    obtain rfl : directory = true := hdir
    rfl

theorem mem_entriesIn_top
    (h : Shallow files) {top : String} {entry : String × Bool} :
    entry ∈ entriesIn files [top] ↔
      (⟨false, [top, entry.1]⟩ : LedgerPath) ∈ files.map Prod.fst ∧
        entry.2 = false := by
  unfold entriesIn
  rw [List.mem_filterMap]
  constructor
  · rintro ⟨file, hfile, hmap⟩
    obtain ⟨scopeType, name, hledger⟩ := h file hfile
    rw [hledger.path_eq] at hmap
    by_cases htop : top = scopeType
    · subst htop
      simp at hmap
      subst hmap
      exact ⟨List.mem_map.mpr ⟨file, hfile, hledger.path_eq⟩, rfl⟩
    · simp [List.isPrefixOf, htop] at hmap
  · rintro ⟨hname, hdir⟩
    obtain ⟨file, hfile, hpath⟩ := List.mem_map.mp hname
    refine ⟨file, hfile, ?_⟩
    rw [hpath]
    obtain ⟨name, directory⟩ := entry
    obtain rfl : directory = false := hdir
    simp

theorem directoriesIn_top (h : Shallow files) (top : String) :
    directoriesIn files [top] = [] := by
  rw [List.eq_nil_iff_forall_not_mem]
  intro name hname
  rw [directoriesIn, mem_sortedNames] at hname
  obtain ⟨entry, hentry, -⟩ := List.mem_map.mp hname
  obtain ⟨hentry, hdir⟩ := List.mem_filter.mp hentry
  have hfile := ((mem_entriesIn_top h).mp hentry).2
  rw [hfile] at hdir
  cases hdir

theorem mem_directoriesIn_root (h : Shallow files) {top : String} :
    top ∈ directoriesIn files [] ↔
      ∃ name, (⟨false, [top, name]⟩ : LedgerPath) ∈ files.map Prod.fst := by
  rw [directoriesIn, mem_sortedNames]
  constructor
  · intro htop
    obtain ⟨entry, hentry, rfl⟩ := List.mem_map.mp htop
    obtain ⟨name, hname, -⟩ :=
      (mem_entriesIn_root h).mp (List.mem_filter.mp hentry).1
    exact ⟨name, hname⟩
  · rintro ⟨name, hname⟩
    refine List.mem_map.mpr ⟨(top, true), List.mem_filter.mpr ⟨?_, rfl⟩, rfl⟩
    exact (mem_entriesIn_root h).mpr ⟨name, hname, rfl⟩

theorem mem_ledgersIn_top (h : Shallow files) {top name : String} :
    name ∈ ledgersIn files [top] ↔
      (⟨false, [top, name]⟩ : LedgerPath) ∈ files.map Prod.fst := by
  rw [ledgersIn, mem_sortedNames, List.mem_filter]
  constructor
  · rintro ⟨hname, -⟩
    obtain ⟨entry, hentry, rfl⟩ := List.mem_map.mp hname
    exact ((mem_entriesIn_top h).mp hentry).1
  · intro hname
    refine ⟨List.mem_map.mpr ⟨(name, false), ?_, rfl⟩, ?_⟩
    · exact (mem_entriesIn_top h).mpr ⟨hname, rfl⟩
    · obtain ⟨file, hfile, hpath⟩ := List.mem_map.mp hname
      obtain ⟨scopeType, name', hledger⟩ := h file hfile
      have heq := hpath.symm.trans hledger.path_eq
      simp only [LedgerPath.mk.injEq, List.cons.injEq, true_and,
        and_true] at heq
      rw [heq.2, hledger.ledger, hledger.no_lock]
      rfl

theorem iterScopePaths_perm
    (h : Shallow files) (hnodup : (files.map Prod.fst).Nodup) :
    ((iterScopePaths files).map ScopeFile.path).Perm (files.map Prod.fst) := by
  have hpaths : (iterScopePaths files).map ScopeFile.path =
      (directoriesIn files []).flatMap fun top =>
        (ledgersIn files [top]).map fun name => ⟨false, [top, name]⟩ := by
    unfold iterScopePaths
    rw [List.map_flatMap]
    apply List.flatMap_congr
    intro top _
    dsimp only
    rw [directoriesIn_top h top]
    simp only [List.isEmpty_nil, Bool.not_true, Bool.false_and,
      Bool.false_eq_true, if_false, scopeFilesIn, List.map_map]
    rfl
  rw [hpaths, List.perm_ext_iff_of_nodup ?_ hnodup]
  · intro path
    rw [List.mem_flatMap]
    constructor
    · rintro ⟨top, -, hpath⟩
      obtain ⟨name, hname, rfl⟩ := List.mem_map.mp hpath
      exact (mem_ledgersIn_top h).mp hname
    · intro hpath
      obtain ⟨file, hfile, hfst⟩ := List.mem_map.mp hpath
      obtain ⟨top, name, hledger⟩ := h file hfile
      have hmem : (⟨false, [top, name]⟩ : LedgerPath) ∈ files.map Prod.fst := by
        rw [← hledger.path_eq]
        exact List.mem_map_of_mem hfile
      refine ⟨top, (mem_directoriesIn_root h).mpr ⟨name, hmem⟩, ?_⟩
      rw [← hfst, hledger.path_eq]
      exact List.mem_map_of_mem ((mem_ledgersIn_top h).mpr hmem)
  · rw [List.nodup_flatMap]
    constructor
    · intro top _
      refine (sortedNames_nodup _).map ?_
      intro name name' heq
      simpa using heq
    · refine (sortedNames_nodup _).imp ?_
      intro top top' hne path hpath hpath'
      obtain ⟨name, -, rfl⟩ := List.mem_map.mp hpath
      obtain ⟨name', -, heq⟩ := List.mem_map.mp hpath'
      simp only [LedgerPath.mk.injEq, List.cons.injEq] at heq
      exact hne heq.2.1.symm

end Walk

/-! ## Reading -/

section Reading

variable {files : Files}

def contentAt (files : Files) (path : LedgerPath) : List LedgerEvent :=
  (lookupEntry path files).getD []

variable {test : LedgerEvent → Except PyError Bool}

theorem filterEvents_all (events : List LedgerEvent)
    (htest : ∀ event, test event = .ok true) :
    filterEvents test events = .ok events := by
  induction events with
  | nil => rfl
  | cons event events ih =>
      simp only [filterEvents, htest, ih, bind, Except.bind]
      rfl

theorem readFiles_all {paths : List LedgerPath}
    (htest : ∀ event, test event = .ok true)
    (hpaths : ∀ path ∈ paths, path ∈ files.map Prod.fst) :
    readFiles files test paths = .ok (paths.flatMap (contentAt files)) := by
  induction paths with
  | nil => rfl
  | cons path paths ih =>
      rw [List.forall_mem_cons] at hpaths
      have hsome : lookupEntry path files ≠ none := by
        rw [Ne, lookupEntry_eq_none_iff, not_not]
        exact hpaths.1
      obtain ⟨events, hevents⟩ := Option.ne_none_iff_exists'.mp hsome
      have hread : readFile files path = .ok events := by
        rw [readFile, hevents]
      have hcontent : contentAt files path = events := by
        rw [contentAt, hevents]
        rfl
      simp only [readFiles, hread, filterEvents_all events htest, ih hpaths.2,
        bind, Except.bind]
      rw [List.flatMap_cons, hcontent]
      rfl

theorem flatMap_contentAt (hnodup : (files.map Prod.fst).Nodup) :
    (files.map Prod.fst).flatMap (contentAt files) = files.flatMap Prod.snd := by
  rw [List.flatMap_map]
  apply List.flatMap_congr
  intro file hfile
  have hlookup := (mem_iff_lookupEntry hnodup).mp hfile
  rw [contentAt, hlookup]
  rfl

theorem readFiles_walk (hshallow : Shallow files)
    (hnodup : (files.map Prod.fst).Nodup)
    (htest : ∀ event, test event = .ok true) :
    ∃ events, readFiles files test
        ((iterScopePaths files).map ScopeFile.path) = .ok events ∧
      events.Perm (files.flatMap Prod.snd) := by
  have hperm := iterScopePaths_perm hshallow hnodup
  refine ⟨_, readFiles_all htest fun path hpath => hperm.mem_iff.mp hpath, ?_⟩
  rw [← flatMap_contentAt hnodup]
  exact hperm.flatMap_right (contentAt files)

theorem flatMap_assignEntry_perm
    (path : LedgerPath) (event : LedgerEvent) (files : Files) :
    ((assignEntry path (contentAt files path ++ [event]) files).flatMap
        Prod.snd).Perm (files.flatMap Prod.snd ++ [event]) := by
  induction files with
  | nil => simp [assignEntry, contentAt, lookupEntry]
  | cons file files ih =>
      obtain ⟨other, events⟩ := file
      by_cases hpath : other = path
      · subst hpath
        simp only [assignEntry, contentAt, lookupEntry, if_true,
          List.flatMap_cons, Option.getD_some, List.append_assoc]
        exact List.perm_append_comm.append_left events
      · have hcontent : contentAt ((other, events) :: files) path =
            contentAt files path := by
          simp [contentAt, lookupEntry, hpath]
        rw [hcontent, assignEntry, if_neg hpath, List.flatMap_cons,
          List.flatMap_cons, List.append_assoc]
        exact ih.append_left events

end Reading

/-! ## Runs of appends -/

/-- The files, with the events that were accepted so far. -/
structure AppendState where
  files : Files
  appended : List LedgerEvent

def appendMachine (env : LedgerEnv) : Machine AppendState LedgerEvent Unit where
  step s event :=
    match appendEvent env s.files event with
    | .ok files => (⟨files, s.appended ++ [event]⟩, ())
    | .error _ => (s, ())

structure ReadInv (s : AppendState) : Prop where
  shallow : Shallow s.files
  distinct : (s.files.map Prod.fst).Nodup
  kept : s.appended.Perm (s.files.flatMap Prod.snd)
  placed : ∀ event ∈ s.appended, ∃ own : OwnScope event,
    own.Placed ∧ event ∈ contentAt s.files own.path

theorem endsWith_append (text ending : String) :
    endsWith (text ++ ending) ending = true := by
  rw [endsWith, List.isSuffixOf_iff_suffix, String.toList_append]
  exact List.suffix_append _ _

theorem readInv_append
    {env : LedgerEnv} {s : AppendState} {event : LedgerEvent} {files : Files}
    (hinv : ReadInv s) (own : OwnScope event) (hplaced : own.Placed)
    (h : appendEvent env s.files event = .ok files) :
    ReadInv ⟨files, s.appended ++ [event]⟩ := by
  obtain ⟨-, scope, q, hscope, hq, -, rfl⟩ := appendEvent_ok_cases h
  obtain rfl := Except.ok.inj (own.scope_eq.symm.trans hscope)
  obtain rfl := Except.ok.inj
    ((writePath_of_placed env.host hplaced).symm.trans hq)
  have hcontent (path : LedgerPath) :
      contentAt (assignEntry own.path
        (contentAt s.files own.path ++ [event]) s.files) path =
        if path = own.path then contentAt s.files own.path ++ [event]
        else contentAt s.files path := by
    rw [contentAt, lookupEntry_assignEntry]
    split_ifs
    · rfl
    · rfl
  constructor
  · intro file hfile
    have hkey : file.1 ∈ (assignEntry own.path
        (contentAt s.files own.path ++ [event]) s.files).map Prod.fst :=
      List.mem_map_of_mem hfile
    rw [assignEntry_keys] at hkey
    have hcases : file.1 ∈ s.files.map Prod.fst ∨ file.1 = own.path := by
      split_ifs at hkey
      · exact .inl hkey
      · simpa using hkey
    rcases hcases with hold | hnew
    · obtain ⟨old, hmem, heq⟩ := List.mem_map.mp hold
      rw [← heq]
      exact hinv.shallow old hmem
    · exact ⟨own.scopeType, own.scopeId ++ ".jsonl", hnew,
        endsWith_append _ _, hplaced.id_no_lock⟩
  · exact assignEntry_keys_nodup hinv.distinct
  · refine (hinv.kept.append_right [event]).trans ?_
    exact (flatMap_assignEntry_perm own.path event s.files).symm
  · intro e he
    change ∃ own' : OwnScope e, own'.Placed ∧ e ∈ contentAt
      (assignEntry own.path (contentAt s.files own.path ++ [event]) s.files)
        own'.path
    rcases List.mem_append.mp he with he | he
    · obtain ⟨own', hplaced', hmem⟩ := hinv.placed e he
      refine ⟨own', hplaced', ?_⟩
      rw [hcontent]
      split_ifs with hpath
      · rw [hpath] at hmem
        exact List.mem_append_left _ hmem
      · exact hmem
    · obtain rfl := List.mem_singleton.mp he
      refine ⟨own, hplaced, ?_⟩
      rw [hcontent, if_pos rfl]
      exact List.mem_append_right _ (List.mem_singleton_self _)

theorem allRead_of_inv
    {env : LedgerEnv} {s : AppendState} (hinv : ReadInv s) :
    AllRead env s.files s.appended := by
  have hfile {event : LedgerEvent} {own : OwnScope event}
      (hmem : event ∈ contentAt s.files own.path) :
      ∃ events, lookupEntry own.path s.files = some events ∧
        event ∈ events := by
    unfold contentAt at hmem
    cases hlookup : lookupEntry own.path s.files with
    | none =>
        rw [hlookup] at hmem
        cases hmem
    | some events =>
        rw [hlookup] at hmem
        exact ⟨events, rfl, hmem⟩
  constructor
  · obtain ⟨events, hread, hperm⟩ :=
      readFiles_walk hinv.shallow hinv.distinct fun event => rfl
    exact ⟨events, hread, hperm.trans hinv.kept.symm⟩
  · intro event hevent
    obtain ⟨own, hplaced, hmem⟩ := hinv.placed event hevent
    obtain ⟨events, hlookup, hin⟩ := hfile hmem
    refine ⟨own, events, ?_, hin⟩
    have hpath : getScopeLedgerPath env.host (.str own.scopeType)
        (.str own.scopeId) own.tenantId own.environment = .ok own.path :=
      getScopeLedgerPath_of_shared env.host hplaced.shared hplaced.type_plain
        hplaced.id_no_slash
    have hexists : pathExists s.files own.path = true := by
      simp [pathExists, hlookup]
    have hscopes : (s.files.any fun file => !file.1.absolute) = true := by
      have hkey : own.path ∈ s.files.map Prod.fst := by
        by_contra hnone
        rw [(lookupEntry_eq_none_iff _ _).mpr hnone] at hlookup
        cases hlookup
      obtain ⟨file, hfile, heq⟩ := List.mem_map.mp hkey
      refine List.any_eq_true.mpr ⟨file, hfile, ?_⟩
      rw [heq]
      rfl
    simp only [iterateEvents, hpath, hscopes, hexists, bind, Except.bind,
      Bool.and_self, if_true, readFile, hlookup]
    exact filterEvents_all events fun event => rfl
  · intro event hevent
    obtain ⟨own, hplaced, hmem⟩ := hinv.placed event hevent
    obtain ⟨events, hlookup, hin⟩ := hfile hmem
    have hpath : getScopeLedgerPath env.host (.str own.scopeType)
        (.str own.scopeId) .none .none = .ok own.path :=
      getScopeLedgerPath_of_shared env.host rfl hplaced.type_plain
        hplaced.id_no_slash
    have hexists : pathExists s.files own.path = true := by
      simp [pathExists, hlookup]
    refine ⟨own, [⟨own.scopeType, own.scopeId, own.path⟩], ?_, _,
      List.mem_cons_self, events, ?_, hin⟩
    · simp only [filesToCheck, hpath, bind, Except.bind, hexists, if_true]
      rfl
    · rw [readFile, hlookup]

/-- In every sequence of appends of events whose scopes name a place that all
readers look at, each event is found by the unfiltered iteration exactly as
often as it was appended, by the iteration over its scope, and by the
verification of its scope. -/
theorem appended_all_read
    (env : LedgerEnv) (events : List LedgerEvent)
    (hplaced : ∀ event ∈ events, ∃ own : OwnScope event, own.Placed) :
    AllRead env ((appendMachine env).final ⟨[], []⟩ events).files
      ((appendMachine env).final ⟨[], []⟩ events).appended := by
  have hguard : (appendMachine env).Guarded
      (fun _ event => ∃ own : OwnScope event, own.Placed) ⟨[], []⟩ events :=
    fun e he => hplaced e.input (Machine.input_mem_of_mem_trace he)
  apply allRead_of_inv
  refine Machine.invariant_of_guarded (fun _ s => ReadInv s) ?_ ?_ events hguard
  · exact ⟨List.forall_mem_nil _, List.nodup_nil, List.Perm.refl _,
      List.forall_mem_nil _⟩
  · rintro _ s event hinv ⟨own, hown⟩
    simp only [appendMachine]
    split
    next files hfiles => exact readInv_append hinv own hown hfiles
    next => exact hinv

def noteEvent (scope : List (String × PyVal)) : LedgerEvent :=
  buildEnvelope referenceHost referenceCrypto
    ((noteIn scope "a").args referenceLedger) .none

theorem appended_all_read_run :
    (∀ event ∈ [noteEvent (runScope "run")],
        ∃ own : OwnScope event, own.Placed) ∧
      AllRead referenceLedger
        ((appendMachine referenceLedger).final ⟨[], []⟩
          [noteEvent (runScope "run")]).files
        ((appendMachine referenceLedger).final ⟨[], []⟩
          [noteEvent (runScope "run")]).appended := by
  have hplaced : ∀ event ∈ [noteEvent (runScope "run")],
      ∃ own : OwnScope event, own.Placed := by
    rw [List.forall_mem_singleton]
    refine ⟨⟨runScope "run", "run", "x", rfl, rfl, rfl⟩, ?_⟩
    exact
      { shared := rfl
        type_stripped := by decide +kernel
        id_stripped := by decide +kernel
        type_plain := ⟨by decide, by decide, by decide⟩
        type_below := by decide
        id_no_slash := by decide
        id_ne_empty := by decide
        id_no_lock := by decide +kernel }
  exact ⟨hplaced, appended_all_read referenceLedger
    [noteEvent (runScope "run")] hplaced⟩

def qaScope : List (String × PyVal) :=
  [("type", .str "run"), ("id", .str "x"), ("tenant_id", .str "acme"),
    ("environment", .str "qa")]

/-- The event is accepted, but the unfiltered iteration does not find it. -/
theorem appended_not_read_qa :
    ¬ AllRead referenceLedger
      ((appendMachine referenceLedger).final ⟨[], []⟩ [noteEvent qaScope]).files
      ((appendMachine referenceLedger).final ⟨[], []⟩
        [noteEvent qaScope]).appended := by
  intro h
  obtain ⟨events, hread, hperm⟩ := h.unfiltered
  have hnone : (iterateEvents referenceHost
      ((appendMachine referenceLedger).final ⟨[], []⟩ [noteEvent qaScope]).files
        ⟨none, none, .none, .none, none, none⟩).toOption.map List.length =
          some 0 := by
    decide +kernel
  have hone : ((appendMachine referenceLedger).final ⟨[], []⟩
      [noteEvent qaScope]).appended.length = 1 := by
    decide +kernel
  have hread' : iterateEvents referenceHost
      ((appendMachine referenceLedger).final ⟨[], []⟩ [noteEvent qaScope]).files
        ⟨none, none, .none, .none, none, none⟩ = .ok events :=
    hread
  rw [hread'] at hnone
  have hlength : events.length = 0 := Option.some.inj hnone
  have hperm_length := hperm.length_eq
  omega

end Hydrogenuine.Ledger
