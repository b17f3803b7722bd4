import Hydrogenuine.Ledger.Writer
import Hydrogenuine.Support.HashChain
import Hydrogenuine.Support.Machine
import Hydrogenuine.Core.ReferenceHost
import Mathlib.Data.List.Dedup

/-!
# Ledger chains

What `verify_chain` accepts is a hash chain of sealed envelopes.  From this
follow the tamper evidence of a scope's ledger and, over whole sequences of
`emit`, when the ledger that is written verifies.
-/

namespace Hydrogenuine.Ledger

open Support Hydrogenuine.Core

/-! ## What verification accepts -/

def eventLink (event : LedgerEvent) : PyVal := PyVal.getItem event "prev_hash"

def eventHash (event : LedgerEvent) : PyVal := PyVal.getItem event "event_id"

/-- The identifier is the hash of the body, and the signature is valid. -/
structure EventSealed (env : LedgerEnv) (event : LedgerEvent) : Prop where
  hash_eq : eventHash event =
    .str (computeEventId env.host (bodyForHash event))
  verified : verifyEnvelope env.host env.crypto event = .ok true

abbrev LedgerChain (env : LedgerEnv) (start : PyVal) :
    List LedgerEvent → Prop :=
  Chained eventLink eventHash (EventSealed env) start

/-- What a link may point to: nothing, or an identifier. -/
def IsTip (value : PyVal) : Prop := value = .none ∨ ∃ text, value = .str text

theorem pyEq_iff_of_isTip {value tip : PyVal} (htip : IsTip tip) :
    value.pyEq tip = true ↔ value = tip := by
  rcases htip with rfl | ⟨text, rfl⟩
  · exact PyVal.pyEq_none_iff value
  · exact PyVal.pyEq_str_iff value text

theorem str_pyEq_iff (text : String) (value : PyVal) :
    (PyVal.str text).pyEq value = true ↔ value = .str text := by
  cases value with
  | str other =>
      rw [PyVal.pyEq, beq_iff_eq, PyVal.str.injEq]
      exact eq_comm
  | _ => simp [PyVal.pyEq, PyVal.num?]

@[simp] theorem addIf_ok (report : Report) (condition : Bool) (issue : Issue) :
    (report.addIf condition issue).ok = (report.ok && !condition) := by
  unfold Report.addIf Report.add
  cases condition <;> simp

theorem checkEvent_ok_iff
    {env : LedgerEnv} {scope : String × String} {prevHash : PyVal}
    {report : Report} {event : LedgerEvent} (htip : IsTip prevHash) :
    (∃ r, checkEvent env scope prevHash report event = .ok r ∧ r.ok = true) ↔
      report.ok = true ∧ eventLink event = prevHash ∧
        EventSealed env event := by
  unfold checkEvent
  cases hverified : verifyEnvelope env.host env.crypto event with
  | error e =>
      have hnone : ¬ EventSealed env event := fun h => by
        cases hverified.symm.trans h.verified
      simp [bind, Except.bind, hnone]
  | ok verified =>
      have hsealed : EventSealed env event ↔
          (PyVal.str (computeEventId env.host (bodyForHash event))).pyEq
            (PyVal.getItem event "event_id") = true ∧ verified = true := by
        rw [str_pyEq_iff]
        constructor
        · intro h
          exact ⟨h.hash_eq, Except.ok.inj (hverified.symm.trans h.verified)⟩
        · rintro ⟨hhash, rfl⟩
          exact ⟨hhash, hverified⟩
      rw [hsealed, ← pyEq_iff_of_isTip htip, eventLink]
      simp only [bind, Except.bind, pure, Except.pure, Except.ok.injEq,
        exists_eq_left', addIf_ok, Bool.not_not, Bool.and_eq_true]
      tauto

variable {env : LedgerEnv} {files files' : Files} {events : List LedgerEvent}
  {scope : String × String} {prevHash : PyVal} {call : EmitCall}

theorem checkEvents_not_ok
    {report r : Report} (hreport : report.ok ≠ true)
    (hr : checkEvents env scope prevHash report events = .ok r) :
    r.ok ≠ true := by
  induction events generalizing prevHash report with
  | nil =>
      obtain rfl := Except.ok.inj hr
      exact hreport
  | cons event events ih =>
      simp only [checkEvents, bind, Except.bind] at hr
      split at hr
      · cases hr
      next s hs =>
        refine ih ?_ hr
        unfold checkEvent at hs
        simp only [bind, Except.bind, pure, Except.pure] at hs
        split at hs
        · cases hs
        · obtain rfl := Except.ok.inj hs
          simp [hreport]

theorem checkEvents_ok_iff
    {env : LedgerEnv} {scope : String × String} {prevHash : PyVal}
    {report : Report} {events : List LedgerEvent} (htip : IsTip prevHash) :
    (∃ r, checkEvents env scope prevHash report events = .ok r ∧
        r.ok = true) ↔
      report.ok = true ∧ LedgerChain env prevHash events := by
  induction events generalizing prevHash report with
  | nil => simp [checkEvents, Chained]
  | cons event events ih =>
      have hfirst := @checkEvent_ok_iff env scope prevHash report event htip
      simp only [checkEvents, Chained]
      cases hcheck : checkEvent env scope prevHash report event with
      | error e =>
          have hnone : ¬ (report.ok = true ∧ eventLink event = prevHash ∧
              EventSealed env event) := by
            rw [← hfirst, hcheck]
            simp
          simp only [bind, Except.bind, reduceCtorEq, false_and, exists_false,
            false_iff]
          tauto
      | ok r =>
          rw [hcheck] at hfirst
          simp only [Except.ok.injEq, exists_eq_left'] at hfirst
          simp only [bind, Except.bind]
          constructor
          · rintro ⟨r', hr', hok⟩
            have hr : r.ok = true := by
              by_contra hbad
              exact checkEvents_not_ok hbad hr' hok
            obtain ⟨hreport, hlink, hsealed⟩ := hfirst.mp hr
            have htip' : IsTip (eventHash event) := .inr ⟨_, hsealed.hash_eq⟩
            obtain ⟨-, hrest⟩ := (ih htip').mp ⟨r', hr', hok⟩
            exact ⟨hreport, hlink, hsealed, hrest⟩
          · rintro ⟨hreport, hlink, hsealed, hrest⟩
            have hr := hfirst.mpr ⟨hreport, hlink, hsealed⟩
            have htip' : IsTip (eventHash event) := .inr ⟨_, hsealed.hash_eq⟩
            exact (ih htip').mpr ⟨hr, hrest⟩

theorem checkFiles_ok_iff {files : Files} {report : Report}
    {checked : List ScopeFile} :
    (∃ r, checkFiles env files report checked = .ok r ∧ r.ok = true) ↔
      report.ok = true ∧ ∀ file ∈ checked, ∃ events,
        readFile files file.path = .ok events ∧
          LedgerChain env .none events := by
  induction checked generalizing report with
  | nil => simp [checkFiles]
  | cons file rest ih =>
      rw [List.forall_mem_cons, checkFiles]
      cases hread : readFile files file.path with
      | error e => simp [bind, Except.bind]
      | ok events =>
          have hfile := @checkEvents_ok_iff env (file.scopeType, file.scopeId)
            .none report events (.inl rfl)
          simp only [bind, Except.bind, Except.ok.injEq, exists_eq_left']
          cases hcheck : checkEvents env (file.scopeType, file.scopeId) .none
              report events with
          | error e =>
              rw [hcheck] at hfile
              simp only [reduceCtorEq, false_and, exists_false,
                false_iff] at hfile ⊢
              tauto
          | ok r =>
              rw [hcheck] at hfile
              simp only [Except.ok.injEq, exists_eq_left'] at hfile
              dsimp only
              rw [ih, hfile, and_assoc]

/-! ## Tamper evidence -/

def scopePath (scope : String × String) : LedgerPath :=
  (scopesDir.join scope.1).join (scope.2 ++ ".jsonl")

/-- The events that `verify_chain` checks for a scope. -/
def scopeEvents (files : Files) (scope : String × String) :
    List LedgerEvent :=
  (lookupEntry (scopePath scope) files).getD []

theorem verifyChain_scope
    (env : LedgerEnv) (files : Files) (scope : String × String) :
    verifyChain env files (some scope) =
      checkFiles env files .empty
        (if pathExists files (scopePath scope) then
          [⟨scope.1, scope.2, scopePath scope⟩] else []) :=
  rfl

/-- The scope's ledger is accepted, with this report. -/
def Accepts
    (env : LedgerEnv) (files : Files) (scope : String × String)
    (report : Report) : Prop :=
  verifyChain env files (some scope) = .ok report ∧ report.ok = true

/-- The hash does not confuse the bodies of two ledgers. -/
def CollisionFree (host : Host) (events events' : List LedgerEvent) : Prop :=
  ∀ e ∈ events, ∀ e' ∈ events',
    computeEventId host (bodyForHash e) = computeEventId host (bodyForHash e') →
      (bodyForHash e).canonical = (bodyForHash e').canonical

theorem checkEvents_lastEventId
    {report r : Report}
    (hr : checkEvents env scope prevHash report events = .ok r) :
    r.lastEventId = endHash eventHash report.lastEventId events := by
  induction events generalizing prevHash report with
  | nil =>
      obtain rfl := Except.ok.inj hr
      rfl
  | cons event events ih =>
      simp only [checkEvents, bind, Except.bind] at hr
      split at hr
      · cases hr
      next s hs =>
        rw [ih hr, endHash]
        unfold checkEvent at hs
        simp only [bind, Except.bind, pure, Except.pure] at hs
        split at hs
        · cases hs
        · obtain rfl := Except.ok.inj hs
          rfl

theorem chain_of_accepts {files : Files}
    {report : Report} (h : Accepts env files scope report) :
    LedgerChain env .none (scopeEvents files scope) ∧
      report.lastEventId =
        endHash eventHash .none (scopeEvents files scope) := by
  obtain ⟨hverify, hok⟩ := h
  rw [verifyChain_scope] at hverify
  unfold scopeEvents
  by_cases hexists : pathExists files (scopePath scope) = true
  · rw [if_pos hexists] at hverify
    obtain ⟨-, hfiles⟩ := checkFiles_ok_iff.mp ⟨report, hverify, hok⟩
    obtain ⟨events, hread, hchain⟩ := hfiles _ List.mem_cons_self
    have hevents :
        (lookupEntry (scopePath scope) files).getD [] = events := by
      unfold readFile at hread
      split at hread
      next found hfound =>
        obtain rfl := Except.ok.inj hread
        rw [hfound]
        rfl
      · cases hread
    rw [hevents]
    refine ⟨hchain, ?_⟩
    simp only [checkFiles, bind, Except.bind] at hverify
    rw [hread] at hverify
    dsimp only at hverify
    split at hverify
    · cases hverify
    next r hr =>
      obtain rfl := Except.ok.inj hverify
      exact checkEvents_lastEventId hr
  · rw [if_neg hexists] at hverify
    obtain rfl := Except.ok.inj hverify
    have hnone : lookupEntry (scopePath scope) files = none := by
      cases hlookup : lookupEntry (scopePath scope) files with
      | none => rfl
      | some events => simp [pathExists, hlookup] at hexists
    rw [hnone]
    exact ⟨trivial, rfl⟩

def canonicalLink (event : LedgerEvent) : PyVal := (eventLink event).canonical

theorem canonicalLink_eq_of_body
    {event event' : LedgerEvent}
    (h : (bodyForHash event).canonical = (bodyForHash event').canonical) :
    canonicalLink event = canonicalLink event' := by
  have hmem : ("prev_hash", canonicalLink event) ∈
      PyVal.canonicalItems [
        ("prev_hash", PyVal.getItem event "prev_hash"),
        ("actor", PyVal.getItem event "actor"),
        ("ts", PyVal.getItem event "ts"),
        ("scope", PyVal.getItem event "scope"),
        ("action", PyVal.getItem event "action"),
        ("object", PyVal.getItem event "object"),
        ("payload", PyVal.getItem event "payload")] := by
    simp [PyVal.canonicalItems, canonicalLink, eventLink]
  have hmem' := (PyVal.mem_canonicalItems_iff h _).mp hmem
  simpa [PyVal.canonicalItems, canonicalLink, eventLink] using hmem'

theorem chained_canonicalLink {start : PyVal}
    (htip : IsTip start) (h : LedgerChain env start events) :
    Chained canonicalLink eventHash (EventSealed env) start events := by
  induction events generalizing start with
  | nil => trivial
  | cons event events ih =>
      obtain ⟨hlink, hsealed, hrest⟩ := h
      refine ⟨?_, hsealed, ih (.inr ⟨_, hsealed.hash_eq⟩) hrest⟩
      rw [canonicalLink, hlink]
      rcases htip with rfl | ⟨text, rfl⟩
      · simp [PyVal.canonical]
      · simp [PyVal.canonical]

/-- If the hash does not confuse their bodies, two accepted scope ledgers with
the same last identifier hold the same sequence of hashed bodies. -/
theorem ledger_tamper_evident
    (env : LedgerEnv) (files files' : Files) (scope scope' : String × String)
    (report report' : Report)
    (hfree : CollisionFree env.host (scopeEvents files scope)
      (scopeEvents files' scope'))
    (haccepts : Accepts env files scope report)
    (haccepts' : Accepts env files' scope' report')
    (hlast : report.lastEventId = report'.lastEventId) :
    (scopeEvents files scope).map
        (fun event => (bodyForHash event).canonical) =
      (scopeEvents files' scope').map
        (fun event => (bodyForHash event).canonical) := by
  obtain ⟨hchain, hend⟩ := chain_of_accepts haccepts
  obtain ⟨hchain', hend'⟩ := chain_of_accepts haccepts'
  have hsame : ∀ e ∈ scopeEvents files scope,
      ∀ e' ∈ scopeEvents files' scope', EventSealed env e →
      EventSealed env e' → eventHash e = eventHash e' →
      (bodyForHash e).canonical = (bodyForHash e').canonical ∧
        canonicalLink e = canonicalLink e' := by
    intro e he e' he' hsealed hsealed' hhash
    rw [hsealed.hash_eq, hsealed'.hash_eq, PyVal.str.injEq] at hhash
    have hbody := hfree e he e' he' hhash
    exact ⟨hbody, canonicalLink_eq_of_body hbody⟩
  have hgenesis : ∀ e, EventSealed env e → eventHash e ≠ .none := by
    intro e hsealed hnone
    rw [hsealed.hash_eq] at hnone
    cases hnone
  have hend_eq := hend.symm.trans (hlast.trans hend')
  have hforall := forall₂_of_endHash_eq hsame hgenesis
    (chained_canonicalLink (.inl rfl) hchain)
    (chained_canonicalLink (.inl rfl) hchain') hend_eq
  rw [← List.forall₂_eq_eq_eq, List.forall₂_map_left_iff,
    List.forall₂_map_right_iff]
  exact hforall

/-! ## Sequences of emits -/

/-- No directory on the way to a file has the name of a ledger. -/
def LedgerPath.Plain (path : LedgerPath) : Prop :=
  ∀ part ∈ path.parts.dropLast, endsWith part ".jsonl" = false

structure LedgerInv (env : LedgerEnv) (files : Files) : Prop where
  chains : ∀ path events, lookupEntry path files = some events →
    LedgerChain env .none events
  plain : ∀ file ∈ files, file.1.Plain

theorem lastId_eq_endHash (events : List LedgerEvent) :
    lastId events = endHash eventHash .none events := by
  rcases List.eq_nil_or_concat events with rfl | ⟨init, event, rfl⟩
  · rfl
  · rw [List.concat_eq_append, endHash_concat, lastId,
      List.getLast?_append_cons]
    rfl

theorem appendEvent_ok_cases {event : LedgerEvent}
    (h : appendEvent env files event = .ok files') :
    verifyEnvelope env.host env.crypto event = .ok true ∧
      ∃ scope q, scopeOf event = .ok scope ∧
        writePath env.host scope = .ok q ∧ canAppend env files q = true ∧
        files' = assignEntry q ((lookupEntry q files).getD [] ++ [event])
          files := by
  simp only [appendEvent, bind, Except.bind] at h
  cases hverified : verifyEnvelope env.host env.crypto event with
  | error e =>
      rw [hverified] at h
      cases h
  | ok verified =>
      simp only [hverified] at h
      cases verified with
      | false => cases h
      | true =>
          cases hscope : scopeOf event with
          | error e =>
              rw [hscope] at h
              cases h
          | ok scope =>
              simp only [hscope, Bool.not_true, Bool.false_eq_true,
                if_false] at h
              cases hq : writePath env.host scope with
              | error e =>
                  rw [hq] at h
                  cases h
              | ok q =>
                  simp only [hq, appendLine] at h
                  split at h
                  next hopens =>
                    exact ⟨rfl, scope, q, rfl, hq, hopens,
                      (Except.ok.inj h).symm⟩
                  · cases h

theorem append_built_cases {args : EnvelopeArgs}
    (h : appendEvent env files
      (buildEnvelope env.host env.crypto args prevHash) = .ok files') :
    ∃ q, writePath env.host args.scope = .ok q ∧
      canAppend env files q = true ∧
      EventSealed env (buildEnvelope env.host env.crypto args prevHash) ∧
      files' = assignEntry q
        ((lookupEntry q files).getD [] ++
          [buildEnvelope env.host env.crypto args prevHash]) files := by
  have hid := buildEnvelope_id env.host env.crypto args prevHash
  have hscope := buildEnvelope_scope env.host env.crypto args prevHash
  generalize buildEnvelope env.host env.crypto args prevHash = event
    at h hid hscope ⊢
  obtain ⟨hverified, scope, q, hscopeOf, hq, hopens, hfiles⟩ :=
    appendEvent_ok_cases h
  have hscope_eq : scope = args.scope := by
    rw [scopeOf, hscope] at hscopeOf
    cases hitems : args.scope with
    | nil =>
        rw [hitems] at hscopeOf
        exact (Except.ok.inj hscopeOf).symm
    | cons item items =>
        rw [hitems] at hscopeOf
        exact (Except.ok.inj hscopeOf).symm
  rw [hscope_eq] at hq
  exact ⟨q, hq, hopens, ⟨hid, hverified⟩, hfiles⟩

/-- An envelope that links to the end of the file that it is appended to keeps
the chains. -/
theorem ledgerInv_append {args : EnvelopeArgs} (hinv : LedgerInv env files)
    (htip : ∀ q, writePath env.host args.scope = .ok q →
      prevHash = lastId ((lookupEntry q files).getD []) ∧ q.Plain)
    (h : appendEvent env files
      (buildEnvelope env.host env.crypto args prevHash) = .ok files') :
    LedgerInv env files' := by
  obtain ⟨q, hq, -, hsealed, rfl⟩ := append_built_cases h
  obtain ⟨hprev, hplain⟩ := htip q hq
  constructor
  · intro path events hevents
    rw [lookupEntry_assignEntry] at hevents
    split_ifs at hevents with hpath
    · obtain rfl := Option.some.inj hevents
      refine chained_concat.mpr ⟨?_, ?_, hsealed⟩
      · cases hold : lookupEntry q files with
        | none => trivial
        | some old => exact hinv.chains q old hold
      · rw [← lastId_eq_endHash, ← hprev]
        exact buildEnvelope_prevHash _ _ _ _
    · exact hinv.chains path events hevents
  · intro file hfile
    have hkey : file.1 ∈ (assignEntry q ((lookupEntry q files).getD [] ++
        [buildEnvelope env.host env.crypto args prevHash])
        files).map Prod.fst :=
      List.mem_map_of_mem hfile
    rw [assignEntry_keys] at hkey
    have hcases : file.1 ∈ files.map Prod.fst ∨ file.1 = q := by
      split_ifs at hkey
      · exact .inl hkey
      · simpa using hkey
    rcases hcases with hold | hnew
    · obtain ⟨old, hmem, heq⟩ := List.mem_map.mp hold
      rw [← heq]
      exact hinv.plain old hmem
    · rw [hnew]
      exact hplain

theorem emit_ok_cases
    (h : emit env files call = .ok files') :
    ∃ p prevHash,
      lookupPath env.host (call.scopeIn env) = .ok p ∧
      getLastHash files p = .ok prevHash ∧
      appendEvent env files
        (buildEnvelope env.host env.crypto (call.args env) prevHash) =
          .ok files' := by
  simp only [emit] at h
  split at h
  · cases h
  · cases hp : lookupPath env.host (call.scopeIn env) with
    | error e =>
        rw [hp] at h
        cases h
    | ok p =>
        simp only [hp, bind, Except.bind] at h
        cases hprev : getLastHash files p with
        | error e =>
            rw [hprev] at h
            cases h
        | ok prevHash =>
            rw [hprev] at h
            exact ⟨p, prevHash, rfl, hprev, h⟩

/-- The call finds the end of the file that it appends to, and no directory on
the way to that file has the name of a ledger. -/
def Traced (env : LedgerEnv) (files : Files) (call : EmitCall) : Prop :=
  ∀ p q, lookupPath env.host (call.scopeIn env) = .ok p →
    writePath env.host (call.scopeIn env) = .ok q →
      getLastHash files p = getLastHash files q ∧ q.Plain

theorem getLastHash_of_canAppend {files : Files} {path : LedgerPath}
    (h : canAppend env files path = true) :
    getLastHash files path = .ok (lastId ((lookupEntry path files).getD [])) := by
  have hdir : isDirectory files path = false := by
    simp only [canAppend, Bool.and_eq_true, Bool.not_eq_true'] at h
    exact h.1.2
  unfold getLastHash pathExists readFile
  cases hlookup : lookupEntry path files with
  | none => simp [hdir, lastId]
  | some events => simp [bind, Except.bind, pure, Except.pure]

theorem ledgerInv_emit
    (hinv : LedgerInv env files) (htraced : Traced env files call)
    (h : emit env files call = .ok files') :
    LedgerInv env files' := by
  obtain ⟨p, prevHash, hp, hprev, happend⟩ := emit_ok_cases h
  obtain ⟨q₀, hq₀, hopens, -, -⟩ := append_built_cases happend
  refine ledgerInv_append hinv ?_ happend
  intro q hq
  obtain ⟨hsame, hplain⟩ := htraced p q hp hq
  obtain rfl := Except.ok.inj (hq₀.symm.trans hq)
  rw [hprev, getLastHash_of_canAppend hopens] at hsame
  exact ⟨Except.ok.inj hsame, hplain⟩

theorem lookupEntry_isSome_of_mem_entriesIn
    {files : Files} {directory : List String} {entry : String × Bool}
    (hplain : ∀ file ∈ files, file.1.Plain)
    (hentry : entry ∈ entriesIn files directory)
    (hname : endsWith entry.1 ".jsonl" = true) :
    (lookupEntry (⟨false, directory ++ [entry.1]⟩ : LedgerPath) files).isSome =
      true := by
  obtain ⟨file, hfile, hmap⟩ := List.mem_filterMap.mp hentry
  split_ifs at hmap with hoff
  simp only [Bool.or_eq_true, Bool.not_eq_true', not_or,
    Bool.not_eq_true] at hoff
  obtain ⟨hrelative, hunder⟩ := hoff
  obtain ⟨rest, hparts⟩ : directory <+: file.1.parts := by
    rw [← List.isPrefixOf_iff_prefix]
    simpa using hunder
  rw [← hparts, List.drop_left] at hmap
  have hpath (h : rest = [entry.1]) :
      file.1 = ⟨false, directory ++ [entry.1]⟩ := by
    rw [← h, hparts, ← hrelative]
  rw [Option.isSome_iff_ne_none, Ne, lookupEntry_eq_none_iff, not_not]
  cases rest with
  | nil => cases hmap
  | cons name rest =>
      cases rest with
      | nil =>
          obtain rfl := Option.some.inj hmap
          rw [← hpath rfl]
          exact List.mem_map_of_mem hfile
      | cons next rest =>
          -- A directory, and none has such a name.
          obtain rfl := Option.some.inj hmap
          have hmem : name ∈ file.1.parts.dropLast := by
            rw [← hparts]
            simp [List.dropLast_append_of_ne_nil]
          have hnot := hplain file hfile name hmem
          rw [hnot] at hname
          cases hname

theorem readable_of_mem_scopeFilesIn
    {files : Files} {scopeType : String} {directory : List String}
    {file : ScopeFile} (hplain : ∀ file ∈ files, file.1.Plain)
    (hfile : file ∈ scopeFilesIn files scopeType directory) :
    (lookupEntry file.path files).isSome = true := by
  obtain ⟨name, hname, rfl⟩ := List.mem_map.mp hfile
  unfold ledgersIn sortedNames at hname
  rw [List.mem_insertionSort, List.mem_dedup, List.mem_filter,
    Bool.and_eq_true] at hname
  obtain ⟨hentry, hends, -⟩ := hname
  obtain ⟨entry, hmem, rfl⟩ := List.mem_map.mp hentry
  exact lookupEntry_isSome_of_mem_entriesIn hplain hmem hends

theorem readable_of_mem_iterScopePaths
    {files : Files} {file : ScopeFile} (hplain : ∀ file ∈ files, file.1.Plain)
    (hfile : file ∈ iterScopePaths files) :
    (lookupEntry file.path files).isSome = true := by
  obtain ⟨top, -, hfile⟩ := List.mem_flatMap.mp hfile
  dsimp only at hfile
  split_ifs at hfile
  · obtain ⟨environment, -, hfile⟩ := List.mem_flatMap.mp hfile
    obtain ⟨scopeType, -, hfile⟩ := List.mem_flatMap.mp hfile
    exact readable_of_mem_scopeFilesIn hplain hfile
  · exact readable_of_mem_scopeFilesIn hplain hfile

/-- The ledger is accepted, and so is every single file of it. -/
def LedgerAccepted (env : LedgerEnv) (files : Files) : Prop :=
  (∃ report, verifyChain env files none = .ok report ∧ report.ok = true) ∧
    ∀ path events scope, lookupEntry path files = some events →
      ∃ report, checkEvents env scope .none .empty events = .ok report ∧
        report.ok = true

theorem ledgerAccepted_of_inv {files : Files} (hinv : LedgerInv env files) :
    LedgerAccepted env files := by
  constructor
  · refine checkFiles_ok_iff.mpr ⟨rfl, ?_⟩
    intro file hfile
    have hsome := readable_of_mem_iterScopePaths hinv.plain hfile
    obtain ⟨events, hevents⟩ := Option.isSome_iff_exists.mp hsome
    exact ⟨events, by rw [readFile, hevents], hinv.chains _ _ hevents⟩
  · intro path events scope hevents
    exact (checkEvents_ok_iff (.inl rfl)).mpr
      ⟨rfl, hinv.chains path events hevents⟩

/-- `emit` as a step on the files; a call that raises leaves them as they
are. -/
def emitMachine (env : LedgerEnv) : Machine Files EmitCall Unit where
  step files call :=
    match emit env files call with
    | .ok files' => (files', ())
    | .error _ => (files, ())

def referenceCrypto : Crypto where
  sign message key := digestHex (encode message) ++ key
  verify message sig pubkey :=
    match pubkey with
    | .str key => sig.pyEq (.str (digestHex (encode message) ++ key))
    | _ => false

def referenceLedger : LedgerEnv where
  host := referenceHost
  crypto := referenceCrypto
  prod := false
  currentScope := []
  creatable := fun _ => true

def noteIn (scope : List (String × PyVal)) (text : String) : EmitCall where
  action := "NOTE"
  objectType := "note"
  objectId := text
  payload := .dict [("text", .str text)]
  scope := some scope
  actor := .none
  now := "2026-03-01T10:00:00.000000Z"
  objectPath := none
  secretKeyHex := none

theorem traced_of_path_eq {path : LedgerPath}
    (hlookup : lookupPath env.host (call.scopeIn env) = .ok path)
    (hwrite : writePath env.host (call.scopeIn env) = .ok path)
    (hplain : path.Plain) (files : Files) :
    Traced env files call := by
  intro p q hp hq
  obtain rfl := Except.ok.inj (hlookup.symm.trans hp)
  obtain rfl := Except.ok.inj (hwrite.symm.trans hq)
  exact ⟨rfl, hplain⟩

def runScope (scopeType : String) : List (String × PyVal) :=
  [("type", .str scopeType), ("id", .str "x")]

def notesIn (scopeType : String) : List EmitCall :=
  [noteIn (runScope scopeType) "a", noteIn (runScope scopeType) "b"]

def notedFiles : Files :=
  (emitMachine referenceLedger).final [] (notesIn "run")

theorem ledger_tamper_evident_run :
    ∃ report, Accepts referenceLedger notedFiles ("run", "x") report ∧
      report.checked = 2 ∧
      (scopeEvents notedFiles ("run", "x")).map
          (fun event => (bodyForHash event).canonical) =
        (scopeEvents notedFiles ("run", "x")).map
          (fun event => (bodyForHash event).canonical) := by
  have hchecked : (verifyChain referenceLedger notedFiles
      (some ("run", "x"))).toOption.map
        (fun report => (report.ok, report.checked)) = some (true, 2) := by
    decide +kernel
  cases hverify : verifyChain referenceLedger notedFiles (some ("run", "x")) with
  | error e =>
      rw [hverify] at hchecked
      cases hchecked
  | ok report =>
      rw [hverify] at hchecked
      obtain ⟨hok, htwo⟩ := Prod.mk.inj (Option.some.inj hchecked)
      have haccepts : Accepts referenceLedger notedFiles ("run", "x") report :=
        ⟨hverify, hok⟩
      have hfree : CollisionFree referenceLedger.host
          (scopeEvents notedFiles ("run", "x"))
          (scopeEvents notedFiles ("run", "x")) := by
        have hids : ((scopeEvents notedFiles ("run", "x")).map fun event =>
            computeEventId referenceHost (bodyForHash event)).Nodup := by
          decide +kernel
        intro e he e' he' hid
        rw [List.inj_on_of_nodup_map hids he he' hid]
      exact ⟨report, haccepts, htwo, ledger_tamper_evident referenceLedger
        notedFiles notedFiles ("run", "x") ("run", "x") report report hfree
        haccepts haccepts rfl⟩

end Hydrogenuine.Ledger
