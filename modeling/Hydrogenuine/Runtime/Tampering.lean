import Hydrogenuine.Runtime.BusLog

/-!
# Tampering with the log

What `verify_chain` and the chain checks of `hg_runtime/replay.py` accept is a
hash chain of records.  The hash of a record covers every field but its hash and
its id, and neither reader derives the id again: the hash at the end determines
the log up to the ids.
-/

namespace Hydrogenuine.Runtime

open Support Hydrogenuine.Core

/-! ## Fields in the canonical form -/

def canonicalField (record : Record) (k : String) : Option PyVal :=
  (PyVal.item? record k).map PyVal.canonical

theorem lookup_orderedInsert
    (entry : String × PyVal) (items : List (String × PyVal)) (k : String) :
    (items.orderedInsert (fun a b => a.1 ≤ b.1) entry).lookup k =
      (entry :: items).lookup k := by
  induction items with
  | nil => rfl
  | cons first rest ih =>
      rw [List.orderedInsert_cons]
      split_ifs with hle
      · rfl
      · rw [List.lookup_cons, ih, List.lookup_cons, List.lookup_cons,
          List.lookup_cons]
        have hne : first.1 ≠ entry.1 := fun h => hle (le_of_eq h.symm)
        by_cases hfirst : k = first.1
        · have hother : (k == entry.1) = false :=
            beq_false_of_ne (hfirst ▸ hne)
          rw [hother]
        · rw [beq_false_of_ne hfirst]

theorem lookup_insertionSort (items : List (String × PyVal)) (k : String) :
    (items.insertionSort fun a b => a.1 ≤ b.1).lookup k = items.lookup k := by
  induction items with
  | nil => rfl
  | cons entry rest ih =>
      rw [List.insertionSort_cons, lookup_orderedInsert, List.lookup_cons,
        List.lookup_cons, ih]

theorem lookup_canonicalItems (items : List (String × PyVal)) (k : String) :
    (PyVal.canonicalItems items).lookup k =
      (items.lookup k).map PyVal.canonical := by
  induction items with
  | nil => rfl
  | cons entry rest ih =>
      obtain ⟨key, value⟩ := entry
      rw [PyVal.canonicalItems, List.lookup_cons, List.lookup_cons, ih]
      cases k == key with
      | true => rfl
      | false => rfl

theorem canonicalField_eq_of_canonical
    {record record' : Record}
    (h : (PyVal.dict record).canonical = (PyVal.dict record').canonical)
    (k : String) :
    canonicalField record k = canonicalField record' k := by
  rw [PyVal.canonical, PyVal.canonical, PyVal.dict.injEq] at h
  have hlookup := congrArg (List.lookup k) h
  rw [lookup_insertionSort, lookup_insertionSort, lookup_canonicalItems,
    lookup_canonicalItems] at hlookup
  exact hlookup

def hashedPart (record : Record) : Record :=
  record.filter fun entry => entry.1 ∉ ["event_hash", "event_id"]

variable {host : Host} {lines : List Line} {prev : String} {k : String} {count : ℕ}
  {record : Record} {v : PyVal}

theorem lookup_filter_of_keeps
    {keep : String × PyVal → Bool}
    (hkeep : ∀ v, keep (k, v) = true) (items : List (String × PyVal)) :
    (items.filter keep).lookup k = items.lookup k := by
  induction items with
  | nil => rfl
  | cons entry rest ih =>
      obtain ⟨key, value⟩ := entry
      rw [List.filter_cons, List.lookup_cons]
      by_cases hkey : k = key
      · subst hkey
        rw [if_pos (hkeep value), List.lookup_cons, beq_self_eq_true]
      · rw [beq_false_of_ne hkey]
        split_ifs
        · rw [List.lookup_cons, beq_false_of_ne hkey]
          exact ih
        · exact ih

theorem canonicalField_hashedPart
    (record : Record) (hk : k ∉ ["event_hash", "event_id"]) :
    canonicalField (hashedPart record) k = canonicalField record k :=
  congrArg (Option.map PyVal.canonical)
    (lookup_filter_of_keeps (fun _ => decide_eq_true hk) record)

/-! ## What the readers accept -/

/-- The chain checks of `replay`, which it makes before it reduces an event: the
error of the first one that fails. -/
def replayChecks (host : Host) (count : ℕ) (expectedPrev : PyVal) :
    List Line → Except PyError (Option String)
  | [] => .ok none
  | line :: lines => do
      let event ← line.parse
      let seq := PyVal.getItem event "seq"
      if !seq.pyEq (.int count) then
        return some ("seq gap: expected " ++ toString count ++ ", got " ++
          host.str seq)
      else if !(PyVal.getItem event "prev_hash").pyEq expectedPrev then
        return some ("broken link at seq " ++ host.str seq)
      else if !(PyVal.getItem event "event_hash").pyEq
          (.str (computeEventHash host event)) then
        return some ("hash mismatch at seq " ++ host.str seq)
      else
        let eventHash ← Bus.field event "event_hash"
        replayChecks host (count + 1) eventHash lines

/-- `verify_chain` accepts the log. -/
def Directory.Verifies (host : Host) (log : Directory) : Prop :=
  ∃ report, Bus.verifyFrom host 0 (.str genesisHash) log.lines = .ok report ∧
    report.ok = true

/-- The log passes the chain checks of `replay`. -/
def Directory.Replays (host : Host) (log : Directory) : Prop :=
  replayChecks host 0 (.str genesisHash) log.lines = .ok none

/-- A record stands at its place in the log and carries its hash. -/
structure InPlace
    (host : Host) (count : ℕ) (prev : String) (record : Record) : Prop where
  seq : (PyVal.getItem record "seq").pyEq (.int count) = true
  link : PyVal.getItem record "prev_hash" = .str prev
  hash : PyVal.item? record "event_hash" =
    some (.str (computeEventHash host record))

def AllInPlace (host : Host) (count : ℕ) (prev : String) : List Line → Prop
  | [] => True
  | line :: lines => ∃ record, line = .record record ∧
      InPlace host count prev record ∧
      AllInPlace host (count + 1) (computeEventHash host record) lines

theorem field_eq_ok_iff :
    Bus.field record k = .ok v ↔ PyVal.item? record k = some v := by
  unfold Bus.field Bus.subscript
  cases hitem : PyVal.item? record k with
  | none => simp [hitem]
  | some item => simp [hitem]

theorem getItem_of_item?
    (h : PyVal.item? record k = some v) : PyVal.getItem record k = v := by
  rw [PyVal.getItem, h, Option.getD_some]

theorem item?_of_getItem
    (h : PyVal.getItem record k = v) (hv : v ≠ .none) :
    PyVal.item? record k = some v := by
  unfold PyVal.getItem at h
  cases hitem : PyVal.item? record k with
  | none =>
      rw [hitem] at h
      exact absurd h.symm hv
  | some item =>
      rw [hitem] at h
      rw [← h]
      rfl

theorem allInPlace_cons_iff :
    AllInPlace host count prev (.record record :: lines) ↔
      InPlace host count prev record ∧
        AllInPlace host (count + 1) (computeEventHash host record) lines := by
  constructor
  · rintro ⟨_, ⟨⟩, hplace, hrest⟩
    exact ⟨hplace, hrest⟩
  · rintro ⟨hplace, hrest⟩
    exact ⟨record, rfl, hplace, hrest⟩

theorem not_allInPlace_broken :
    ¬ AllInPlace host count prev (.broken :: lines) := by
  rintro ⟨_, ⟨⟩, -⟩

theorem inPlace_iff_checks :
    InPlace host count prev record ↔
      (PyVal.getItem record "seq").pyEq (.int count) = true ∧
        (PyVal.getItem record "prev_hash").pyEq (.str prev) = true ∧
        (PyVal.getItem record "event_hash").pyEq
          (.str (computeEventHash host record)) = true := by
  rw [PyVal.pyEq_str_iff, PyVal.pyEq_str_iff]
  constructor
  · rintro ⟨hseq, hlink, hhash⟩
    exact ⟨hseq, hlink, getItem_of_item? hhash⟩
  · rintro ⟨hseq, hlink, hhash⟩
    exact ⟨hseq, hlink, item?_of_getItem hhash (by simp)⟩

theorem replayChecks_ok_iff :
    replayChecks host count (.str prev) lines = .ok none ↔
      AllInPlace host count prev lines := by
  induction lines generalizing count prev with
  | nil => exact iff_of_true rfl trivial
  | cons line lines ih =>
      cases line with
      | broken => exact iff_of_false (by rintro ⟨⟩) not_allInPlace_broken
      | record record =>
          rw [allInPlace_cons_iff, inPlace_iff_checks]
          simp only [replayChecks, Line.parse, bind, Except.bind]
          split_ifs with hseq hlink hhash
          · simp only [Bool.not_eq_true'] at hseq
            simp [hseq, pure, Except.pure]
          · simp only [Bool.not_eq_true'] at hlink
            simp [hlink, pure, Except.pure]
          · simp only [Bool.not_eq_true'] at hhash
            simp [hhash, pure, Except.pure]
          · simp only [Bool.not_eq_true', Bool.not_eq_false] at hseq hlink hhash
            have hitem : PyVal.item? record "event_hash" =
                some (.str (computeEventHash host record)) :=
              item?_of_getItem ((PyVal.pyEq_str_iff _ _).mp hhash) (by simp)
            rw [field_eq_ok_iff.mpr hitem]
            simp only [hseq, hlink, hhash, true_and]
            exact ih

theorem verifyFrom_ok_iff :
    (∃ report, Bus.verifyFrom host count (.str prev) lines = .ok report ∧
        report.ok = true) ↔
      AllInPlace host count prev lines := by
  induction lines generalizing count prev with
  | nil => exact iff_of_true ⟨_, rfl, rfl⟩ trivial
  | cons line lines ih =>
      cases line with
      | broken =>
          exact iff_of_false (by rintro ⟨_, ⟨⟩, -⟩) not_allInPlace_broken
      | record record =>
          rw [allInPlace_cons_iff, inPlace_iff_checks]
          constructor
          · rintro ⟨report, hreport, hok⟩
            simp only [Bus.verifyFrom, Line.parse, bind, Except.bind] at hreport
            split at hreport
            · cases hreport
            next seq hseq =>
              split_ifs at hreport with hplace
              · obtain rfl := Except.ok.inj hreport
                cases hok
              split at hreport
              · cases hreport
              next link hlink =>
                split_ifs at hreport with hlinks
                · obtain rfl := Except.ok.inj hreport
                  cases hok
                split at hreport
                · cases hreport
                next hash hhash =>
                  split_ifs at hreport with hsealed
                  · obtain rfl := Except.ok.inj hreport
                    cases hok
                  rw [field_eq_ok_iff] at hseq hlink hhash
                  rw [getItem_of_item? hseq, getItem_of_item? hlink,
                    getItem_of_item? hhash]
                  simp only [Bool.not_eq_true', Bool.not_eq_false]
                    at hplace hlinks hsealed
                  obtain rfl := (PyVal.pyEq_str_iff _ _).mp hsealed
                  exact ⟨⟨hplace, hlinks, hsealed⟩,
                    ih.mp ⟨report, hreport, hok⟩⟩
          · rintro ⟨⟨hseq, hlink, hhash⟩, hrest⟩
            obtain ⟨report, hreport, hok⟩ := ih.mpr hrest
            refine ⟨report, ?_, hok⟩
            have hseq' : PyVal.item? record "seq" =
                some (PyVal.getItem record "seq") := by
              refine item?_of_getItem rfl fun hnone => ?_
              rw [hnone] at hseq
              simp [PyVal.pyEq, PyVal.num?] at hseq
            rw [PyVal.pyEq_str_iff] at hlink hhash
            have hlink' := item?_of_getItem hlink (by simp)
            have hhash' := item?_of_getItem hhash (by simp)
            simp only [Bus.verifyFrom, Line.parse, bind, Except.bind,
              field_eq_ok_iff.mpr hseq', field_eq_ok_iff.mpr hlink',
              field_eq_ok_iff.mpr hhash', hseq]
            rw [(PyVal.pyEq_str_iff _ _).mpr rfl,
              (PyVal.pyEq_str_iff _ _).mpr rfl]
            exact hreport

theorem Directory.replays_iff_verifies (host : Host) (log : Directory) :
    log.Replays host ↔ log.Verifies host :=
  replayChecks_ok_iff.trans verifyFrom_ok_iff.symm

/-! ## Tamper evidence -/

def Directory.events (log : Directory) : List Record :=
  log.lines.filterMap fun line => line.parse.toOption

def recordHash (record : Record) : Option PyVal :=
  PyVal.item? record "event_hash"

def recordLink (record : Record) : Option PyVal :=
  canonicalField record "prev_hash"

def RecordSealed (host : Host) (record : Record) : Prop :=
  recordHash record = some (.str (computeEventHash host record))

def Directory.lastHash (log : Directory) : Option PyVal :=
  endHash recordHash (some (.str genesisHash)) log.events

/-- The hash does not confuse the records of two logs, and is never the text
that the first record of a log links to. -/
structure CollisionFree
    (host : Host) (events events' : List Record) : Prop where
  apart : ∀ e ∈ events, ∀ e' ∈ events',
    computeEventHash host e = computeEventHash host e' →
      (PyVal.dict (hashedPart e)).canonical =
        (PyVal.dict (hashedPart e')).canonical
  genesis : ∀ e, computeEventHash host e ≠ genesisHash

def Agree (k : String) (record record' : Record) : Prop :=
  canonicalField record k = canonicalField record' k

theorem chained_of_allInPlace
    (h : AllInPlace host count prev lines) :
    Chained recordLink recordHash (RecordSealed host) (some (.str prev))
      (lines.filterMap fun line => line.parse.toOption) := by
  induction lines generalizing count prev with
  | nil => exact trivial
  | cons line lines ih =>
      obtain ⟨record, rfl, hplace, hrest⟩ := h
      have hlink : recordLink record = some (.str prev) := by
        rw [recordLink, canonicalField,
          item?_of_getItem hplace.link (by simp)]
        simp [PyVal.canonical]
      refine ⟨hlink, hplace.hash, ?_⟩
      have hhash : recordHash record =
          some (.str (computeEventHash host record)) := hplace.hash
      rw [hhash]
      exact ih hrest

theorem agree_of_canonical
    {record record' : Record}
    (hcanonical : (PyVal.dict (hashedPart record)).canonical =
      (PyVal.dict (hashedPart record')).canonical)
    (hhash : recordHash record = recordHash record')
    (hk : k ≠ "event_id") : Agree k record record' := by
  by_cases hkey : k = "event_hash"
  · subst hkey
    exact congrArg (Option.map PyVal.canonical) hhash
  · have hcovered : k ∉ ["event_hash", "event_id"] := by
      simp [hkey, hk]
    have hfield := canonicalField_eq_of_canonical hcanonical k
    rw [canonicalField_hashedPart record hcovered,
      canonicalField_hashedPart record' hcovered] at hfield
    exact hfield

theorem agree_of_lastHash_eq {log log' : Directory}
    (hfree : CollisionFree host log.events log'.events)
    (hverifies : log.Verifies host) (hverifies' : log'.Verifies host)
    (hend : log.lastHash = log'.lastHash) :
    List.Forall₂ (fun r r' => ∀ k ≠ "event_id", Agree k r r')
      log.events log'.events := by
  have hsame : ∀ r ∈ log.events, ∀ r' ∈ log'.events, RecordSealed host r →
      RecordSealed host r' → recordHash r = recordHash r' →
      (∀ k ≠ "event_id", Agree k r r') ∧ recordLink r = recordLink r' := by
    intro r hr r' hr' hsealed hsealed' hhash
    have hdigest : computeEventHash host r = computeEventHash host r' :=
      PyVal.str.inj (Option.some.inj (hsealed.symm.trans (hhash.trans hsealed')))
    have hcanonical := hfree.apart r hr r' hr' hdigest
    have hagree : ∀ k ≠ "event_id", Agree k r r' :=
      fun k hk => agree_of_canonical hcanonical hhash hk
    exact ⟨hagree, hagree "prev_hash" (by decide)⟩
  refine forall₂_of_endHash_eq hsame ?_
    (chained_of_allInPlace (verifyFrom_ok_iff.mp hverifies))
    (chained_of_allInPlace (verifyFrom_ok_iff.mp hverifies')) hend
  intro r hsealed hgenesis
  exact hfree.genesis r
    (PyVal.str.inj (Option.some.inj (hsealed.symm.trans hgenesis)))

/-! ### Forged ids -/

def forgeId (id : Record → PyVal) (record : Record) : Record :=
  PyVal.setItem record "event_id" (id record)

def Line.forgeId (id : Record → PyVal) : Line → Line
  | .record items => .record (Runtime.forgeId id items)
  | .broken => .broken

def Directory.forgeIds (id : Record → PyVal) (log : Directory) : Directory :=
  log.map fun file =>
    (file.1, ⟨file.2.lines.map (Line.forgeId id),
      file.2.rest.map (Line.forgeId id)⟩)

theorem filter_assignEntry
    {keep : String × PyVal → Bool}
    (hdrop : ∀ v, keep (k, v) = false) (v : PyVal)
    (items : List (String × PyVal)) :
    (assignEntry k v items).filter keep = items.filter keep := by
  induction items with
  | nil => simp [assignEntry, hdrop]
  | cons entry rest ih =>
      obtain ⟨key, value⟩ := entry
      unfold assignEntry
      split_ifs with hkey
      · subst hkey
        rw [List.filter_cons, List.filter_cons, hdrop, hdrop]
        rfl
      · rw [List.filter_cons, List.filter_cons, ih]

theorem hashedPart_forgeId (id : Record → PyVal) (record : Record) :
    hashedPart (forgeId id record) = hashedPart record :=
  filter_assignEntry (fun _ => rfl) _ _

theorem computeEventHash_forgeId
    (host : Host) (id : Record → PyVal) (record : Record) :
    computeEventHash host (forgeId id record) = computeEventHash host record :=
  congrArg (fun items => host.canonicalHash (.dict items))
    (hashedPart_forgeId id record)

theorem item?_forgeId
    (id : Record → PyVal) (record : Record)
    (hk : k ≠ "event_id") :
    PyVal.item? (forgeId id record) k = PyVal.item? record k := by
  rw [forgeId, PyVal.item?_setItem, if_neg hk]

theorem Directory.lines_forgeIds (id : Record → PyVal) (log : Directory) :
    (log.forgeIds id).lines = log.lines.map (Line.forgeId id) := by
  unfold Directory.lines Directory.forgeIds readSegments
  rw [List.flatMap_map, List.map_flatMap]
  congr 1
  funext file
  unfold Segment.read
  rw [List.map_append]
  cases file.2.rest with
  | none => rfl
  | some line => rfl

theorem allInPlace_forgeId {id : Record → PyVal} (h : AllInPlace host count prev lines) :
    AllInPlace host count prev (lines.map (Line.forgeId id)) := by
  induction lines generalizing count prev with
  | nil => exact trivial
  | cons line lines ih =>
      obtain ⟨record, rfl, hplace, hrest⟩ := h
      refine ⟨forgeId id record, rfl, ⟨?_, ?_, ?_⟩, ?_⟩
      · rw [PyVal.getItem, item?_forgeId id record (by decide)]
        exact hplace.seq
      · rw [PyVal.getItem, item?_forgeId id record (by decide)]
        exact hplace.link
      · rw [item?_forgeId id record (by decide), computeEventHash_forgeId]
        exact hplace.hash
      · rw [computeEventHash_forgeId]
        exact ih hrest

theorem Directory.events_forgeIds (id : Record → PyVal) (log : Directory) :
    (log.forgeIds id).events = log.events.map (forgeId id) := by
  unfold Directory.events
  rw [Directory.lines_forgeIds, List.filterMap_map, List.map_filterMap]
  congr 1
  funext line
  cases line with
  | record items => rfl
  | broken => rfl

theorem forgeIds_accepted {log : Directory} (id : Record → PyVal)
    (h : log.Verifies host) :
    (log.forgeIds id).Verifies host ∧
      (log.forgeIds id).lastHash = log.lastHash := by
  constructor
  · refine verifyFrom_ok_iff.mpr ?_
    rw [Directory.lines_forgeIds]
    exact allInPlace_forgeId (verifyFrom_ok_iff.mp h)
  · unfold Directory.lastHash
    rw [Directory.events_forgeIds]
    generalize some (PyVal.str genesisHash) = start
    induction log.events generalizing start with
    | nil => rfl
    | cons record records ih =>
        rw [List.map_cons, endHash, endHash, recordHash,
          item?_forgeId id record (by decide)]
        exact ih _

/-! ### Logs with the same end -/

/-- If the hash does not confuse their records, two logs that either reader
accepts and that end in the same hash hold the same events exactly if they hold
the same ids. -/
theorem same_events_iff
    (host : Host) (log log' : Directory)
    (hfree : CollisionFree host log.events log'.events)
    (haccepts : log.Verifies host ∨ log.Replays host)
    (haccepts' : log'.Verifies host ∨ log'.Replays host)
    (hend : log.lastHash = log'.lastHash) :
    List.Forall₂ (fun r r' => ∀ k, Agree k r r') log.events log'.events ↔
      List.Forall₂ (Agree "event_id") log.events log'.events := by
  rw [Directory.replays_iff_verifies, or_self] at haccepts haccepts'
  constructor
  · exact fun h => h.imp fun _ _ hagree => hagree "event_id"
  · intro hids
    have hothers := agree_of_lastHash_eq hfree haccepts haccepts' hend
    refine List.forall₂_iff_zip.mpr ⟨hothers.length_eq, ?_⟩
    intro r r' hpair k
    by_cases hk : k = "event_id"
    · subst hk
      exact (List.forall₂_iff_zip.mp hids).2 hpair
    · exact (List.forall₂_iff_zip.mp hothers).2 hpair k hk

theorem referenceHost_not_genesis (record : Record) :
    computeEventHash referenceHost record ≠ genesisHash := by
  intro h
  have hlength := congrArg (fun text => text.toList.length) h
  simp [computeEventHash, Host.canonicalHash, referenceHost, digestHex,
    genesisHash] at hlength

def messageLog : Directory :=
  (Bus.after (referenceBus fun _ => "2026-03-01T10:00:00.000000Z")
    [emitMessage "a"]).directory

theorem messageLog_verifies : messageLog.Verifies referenceHost := by
  have hok : (Bus.verifyFrom referenceHost 0 (.str genesisHash)
      messageLog.lines).toOption.map Bus.ChainReport.ok = some true := by
    decide +kernel
  unfold Directory.Verifies
  cases hreport : Bus.verifyFrom referenceHost 0 (.str genesisHash)
      messageLog.lines with
  | error e =>
      rw [hreport] at hok
      cases hok
  | ok report =>
      rw [hreport] at hok
      exact ⟨report, rfl, Option.some.inj hok⟩

theorem messageLog_events :
    ∃ record, messageLog.events = [record] ∧
      PyVal.item? record "event_id" = some (.str "evt_2bd88f694a5af43a") := by
  have hids : messageLog.events.map (fun record =>
      (PyVal.getItem record "event_id").pyEq (.str "evt_2bd88f694a5af43a")) =
        [true] := by
    decide +kernel
  obtain ⟨record, hevents, hid⟩ := List.map_eq_singleton_iff.mp hids
  exact ⟨record, hevents,
    item?_of_getItem ((PyVal.pyEq_str_iff _ _).mp hid) (by simp)⟩

theorem messageLog_collisionFree (id : Record → PyVal) :
    CollisionFree referenceHost messageLog.events
      (messageLog.forgeIds id).events := by
  obtain ⟨record, hevents, -⟩ := messageLog_events
  constructor
  · intro e he e' he' _
    rw [Directory.events_forgeIds, hevents, List.map_singleton,
      List.mem_singleton] at he'
    rw [hevents, List.mem_singleton] at he
    rw [he, he', hashedPart_forgeId]
  · exact referenceHost_not_genesis

theorem same_events_same_ids :
    List.Forall₂ (fun r r' => ∀ k, Agree k r r') messageLog.events
      (messageLog.forgeIds fun r => PyVal.getItem r "event_id").events := by
  obtain ⟨hverifies, hend⟩ := forgeIds_accepted
    (fun r => PyVal.getItem r "event_id") messageLog_verifies
  refine (same_events_iff referenceHost messageLog _
    (messageLog_collisionFree _) (Or.inl messageLog_verifies)
    (Or.inl hverifies) hend.symm).mpr ?_
  obtain ⟨record, hevents, hid⟩ := messageLog_events
  rw [Directory.events_forgeIds, hevents]
  refine List.Forall₂.cons ?_ List.Forall₂.nil
  rw [Agree, canonicalField, canonicalField, forgeId, PyVal.item?_setItem,
    if_pos rfl, getItem_of_item? hid, hid]

/-- The id of the only record can be changed: both readers accept the log, which
ends in the same hash. -/
theorem forged_id_accepted :
    ∃ log log' : Directory,
      CollisionFree referenceHost log.events log'.events ∧
        (log.Verifies referenceHost ∧ log.Replays referenceHost) ∧
        (log'.Verifies referenceHost ∧ log'.Replays referenceHost) ∧
        log.lastHash = log'.lastHash ∧
        ¬ List.Forall₂ (Agree "event_id") log.events log'.events := by
  obtain ⟨hverifies, hend⟩ := forgeIds_accepted
    (fun _ => PyVal.str "evt_forged") messageLog_verifies
  refine ⟨messageLog, messageLog.forgeIds fun _ => .str "evt_forged",
    messageLog_collisionFree _,
    ⟨messageLog_verifies, (Directory.replays_iff_verifies _ _).mpr
      messageLog_verifies⟩,
    ⟨hverifies, (Directory.replays_iff_verifies _ _).mpr hverifies⟩,
    hend.symm, ?_⟩
  obtain ⟨record, hevents, hid⟩ := messageLog_events
  rw [Directory.events_forgeIds, hevents, List.map_singleton]
  intro hsame
  have hagree := (List.forall₂_cons.mp hsame).1
  rw [Agree, canonicalField, canonicalField, forgeId, PyVal.item?_setItem,
    if_pos rfl, hid] at hagree
  simp [PyVal.canonical] at hagree

end Hydrogenuine.Runtime
