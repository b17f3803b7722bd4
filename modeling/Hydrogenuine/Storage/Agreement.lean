import Hydrogenuine.Storage.AppendLog
import Hydrogenuine.Support.HashChain
import Hydrogenuine.Core.ReferenceHost

/-!
# Agreement of the append logs

The two backends should hold the same entries, append once for each event id, and
agree on whether stored entries were modified.  The table looks for the id in the
stored payloads, where nothing puts it, and its verification reads the numbers only.
The backends agree exactly when an id is stored in the file when and only when a
stored payload names it, and a modification breaks the numbering, or leaves the first
entries as they are but for the last of them, whose hash is recomputed.
-/

namespace Hydrogenuine.Storage

open Support Hydrogenuine.Core

/-! ## The property -/

def LogEntry.content (entry : LogEntry) : ℤ × String × Payload :=
  (entry.seq, entry.eventType, entry.payload)

def Row.content (row : Row) : ℤ × String × Payload :=
  (row.seq, row.eventType, row.payload)

/-- Both logs hold the same sequence of numbers, types and payloads. -/
def Logs.SameEntries (logs : Logs) : Prop :=
  logs.file.map LogEntry.content =
    (PostgresAppendLog.read logs.table).map Row.content

/-- The append is not refused for its payload and has the event id. -/
def AppendCall.Appends (call : AppendCall) (id : String) : Prop :=
  requireNonAuthority call.payload = .ok () ∧ call.eventId = some id

/-- Once an id was appended, an append with this id changes neither log. -/
def Idempotent {ο : Type} (trace : List (Step Logs AppendCall ο)) : Prop :=
  ∀ id, trace.Pairwise fun e e' => e.input.Appends id → e'.input.Appends id →
    e'.after = e'.before

/-- Both verifications give the same verdict. -/
def Logs.SameVerdict (host : Host) (logs : Logs) : Prop :=
  AppendLogSubstrate.verifyAppendOnly host logs.file =
    PostgresAppendLog.verifyAppendOnly logs.table

/-! ## The condition -/

/-- An entry of the file has the id of the append. -/
def Logs.InFile (logs : Logs) (call : AppendCall) : Prop :=
  ∃ id, call.eventId = some id ∧ ∃ entry ∈ logs.file, entry.eventId = some id

/-- A payload of the table names the id of the append. -/
def Logs.InTable (pg : Postgres) (logs : Logs) (call : AppendCall) : Prop :=
  ∃ id, call.eventId = some id ∧
    ∃ row ∈ logs.table, pg.text row.payload "event_id" = some id

/-- The database takes the id as a parameter, and the row as the next one. -/
def Logs.Takes (pg : Postgres) (logs : Logs) (call : AppendCall) : Prop :=
  (∀ id, call.eventId = some id → pg.readsText id = true) ∧
    pg.accepts (logs.table.length + 1) call.eventType call.payload = true

/-- The id of an append is stored in the file exactly when a payload of the table names
it, or the database takes no such row. -/
def DedupAlike (pg : Postgres) (logs : Logs) (call : AppendCall) : Prop :=
  requireNonAuthority call.payload = .ok () →
    (logs.InFile call ↔ logs.InTable pg call ∨ ¬ logs.Takes pg call)

/-- The numbers are those of a whole log, in some order. -/
def Numbered (seqs : List ℤ) : Prop :=
  seqs.Perm ((List.range seqs.length).map fun i : ℕ => (i : ℤ) + 1)

/-- The same contents, up to the order of keys, and the same hash. -/
def SameEntry (entry entry' : LogEntry) : Prop :=
  (PyVal.dict entry.body).canonical = (PyVal.dict entry'.body).canonical ∧
    entry.hash = entry'.hash

/-- The first entries are left as they are but for the last of them, which has its
number, its link, and the hash of its contents. -/
def OnlyEndChanged (host : Host) (entries left : List LogEntry) : Prop :=
  left = [] ∨ ∃ init last rest init' last',
    entries = init ++ last :: rest ∧ left = init' ++ [last'] ∧
      List.Forall₂ SameEntry init init' ∧ last'.seq = last.seq ∧
      last'.previousHash = last.previousHash ∧ last'.hash = last'.expected host

def CollisionFree (host : Host) (entries left : List LogEntry) : Prop :=
  ∀ entry ∈ entries, ∀ entry' ∈ left,
    entry.expected host = entry'.expected host →
      (PyVal.dict entry.body).canonical = (PyVal.dict entry'.body).canonical

/-! ## Verification -/

/-- The hash of an entry as what the next one links to. -/
def LogEntry.tip (entry : LogEntry) : Option String := some entry.hash

def FileChain (host : Host) : Option String → List LogEntry → Prop :=
  Chained LogEntry.previousHash LogEntry.tip fun entry =>
    entry.hash = entry.expected host

def CountsFrom : ℤ → List ℤ → Prop
  | _, [] => True
  | index, seq :: seqs => seq = index ∧ CountsFrom (index + 1) seqs

theorem countsFrom_iff (index : ℤ) (seqs : List ℤ) :
    CountsFrom index seqs ↔
      seqs = (List.range seqs.length).map fun i : ℕ => (i : ℤ) + index := by
  induction seqs generalizing index with
  | nil => exact iff_of_true trivial rfl
  | cons seq seqs ih =>
      have hshift : (fun i : ℕ => ((i + 1 : ℕ) : ℤ) + index) =
          fun i : ℕ => (i : ℤ) + (index + 1) := by
        funext i
        rw [Nat.cast_add, Nat.cast_one]
        omega
      rw [CountsFrom, ih, List.length_cons, List.range_succ_eq_map, List.map_cons,
        List.map_map, List.cons.injEq, Nat.cast_zero, zero_add]
      exact and_congr_right fun _ => by rw [← hshift]; rfl

theorem verifyFrom_file_iff (host : Host) (index : ℤ) (previousHash : Option String)
    (entries : List LogEntry) :
    AppendLogSubstrate.verifyFrom host index previousHash entries = true ↔
      CountsFrom index (entries.map LogEntry.seq) ∧
        FileChain host previousHash entries := by
  induction entries generalizing index previousHash with
  | nil => exact iff_of_true rfl ⟨trivial, trivial⟩
  | cons entry entries ih =>
      rw [AppendLogSubstrate.verifyFrom, List.map_cons, CountsFrom, FileChain, Chained]
      split
      · rename_i hbad
        refine iff_of_false Bool.false_ne_true ?_
        rintro ⟨⟨hseq, -⟩, hlink, hsealed, -⟩
        rcases hbad with h | h | h
        · exact h hseq
        · exact h hlink
        · exact h hsealed
      · rename_i hgood
        rw [not_or, not_or, not_not, not_not, not_not] at hgood
        obtain ⟨hseq, hlink, hsealed⟩ := hgood
        rw [ih, FileChain, and_iff_right hseq, and_iff_right hlink,
          and_iff_right hsealed]
        rfl

theorem verifyFrom_table_iff (index : ℤ) (rows : List Row) :
    PostgresAppendLog.verifyFrom index rows = true ↔
      CountsFrom index (rows.map Row.seq) := by
  induction rows generalizing index with
  | nil => exact iff_of_true rfl trivial
  | cons row rows ih =>
      rw [PostgresAppendLog.verifyFrom, List.map_cons, CountsFrom]
      split
      · rename_i hbad
        exact iff_of_false Bool.false_ne_true fun h => hbad h.1
      · rename_i hgood
        rw [ih, and_iff_right (not_not.mp hgood)]

instance : Std.Total fun a b : Row => a.seq ≤ b.seq :=
  ⟨fun a b => le_total a.seq b.seq⟩

instance : IsTrans Row fun a b => a.seq ≤ b.seq :=
  ⟨fun _ _ _ hab hbc => le_trans hab hbc⟩

theorem pairwise_upTo (n : ℕ) :
    ((List.range n).map fun i : ℕ => (i : ℤ) + 1).Pairwise (· ≤ ·) := by
  rw [List.pairwise_map]
  refine List.pairwise_lt_range.imp fun hlt => ?_
  omega

theorem verifyAppendOnly_table_iff (rows : List Row) :
    PostgresAppendLog.verifyAppendOnly rows = true ↔ Numbered (rows.map Row.seq) := by
  have hperm : ((PostgresAppendLog.read rows).map Row.seq).Perm (rows.map Row.seq) :=
    (List.perm_insertionSort _ rows).map Row.seq
  have hsorted : ((PostgresAppendLog.read rows).map Row.seq).Pairwise (· ≤ ·) := by
    rw [List.pairwise_map]
    exact List.pairwise_insertionSort (fun a b : Row => a.seq ≤ b.seq) rows
  rw [PostgresAppendLog.verifyAppendOnly, verifyFrom_table_iff, countsFrom_iff, Numbered,
    hperm.length_eq]
  constructor
  · intro heq
    rw [heq] at hperm
    exact hperm.symm
  · intro hnumbered
    exact List.Perm.eq_of_pairwise (fun _ _ _ _ => le_antisymm) hsorted
      (pairwise_upTo _) (hperm.trans hnumbered)

variable {entries : List LogEntry} {rows : List Row}

theorem read_of_counts (h : CountsFrom 1 (rows.map Row.seq)) :
    PostgresAppendLog.read rows = rows := by
  refine List.Pairwise.insertionSort_eq ?_
  have hpairwise := pairwise_upTo (rows.map Row.seq).length
  rw [← (countsFrom_iff 1 _).mp h, List.pairwise_map] at hpairwise
  exact hpairwise

/-! ## Modified logs -/

theorem canonical_ofOption (text : Option String) :
    (PyVal.ofOption text).canonical = .ofOption text := by
  cases text <;> simp [PyVal.ofOption, PyVal.canonical]

theorem ofOption_injective : Function.Injective PyVal.ofOption := by
  rintro (_ | a) (_ | b) h <;> simp_all [PyVal.ofOption]

theorem fields_eq_of_canonical {entry entry' : LogEntry}
    (h : (PyVal.dict entry.body).canonical = (PyVal.dict entry'.body).canonical) :
    entry.seq = entry'.seq ∧ entry.previousHash = entry'.previousHash := by
  have hseq := (PyVal.mem_canonicalItems_iff h ("seq", .int entry.seq)).mp (by
    rw [PyVal.canonicalItems_eq_map]
    simp [LogEntry.body, PyVal.canonical])
  have hlink := (PyVal.mem_canonicalItems_iff h
    ("previous_hash", .ofOption entry.previousHash)).mp (by
      rw [PyVal.canonicalItems_eq_map]
      simp [LogEntry.body, canonical_ofOption])
  rw [PyVal.canonicalItems_eq_map] at hseq hlink
  constructor
  · simpa [LogEntry.body, authorityFields, PyVal.canonical] using hseq
  · refine ofOption_injective ?_
    simpa [LogEntry.body, authorityFields, canonical_ofOption] using hlink

theorem expected_eq_of_canonical (host : Host) {entry entry' : LogEntry}
    (h : (PyVal.dict entry.body).canonical = (PyVal.dict entry'.body).canonical) :
    entry.expected host = entry'.expected host := by
  rw [LogEntry.expected, LogEntry.expected, stableHash, stableHash, h]

theorem countsFrom_append {index : ℤ} {seqs : List ℤ} {seq : ℤ} {rest : List ℤ}
    (h : CountsFrom index (seqs ++ seq :: rest)) :
    CountsFrom index seqs ∧ seq = index + seqs.length := by
  induction seqs generalizing index with
  | nil => exact ⟨trivial, h.1.trans (by rw [List.length_nil]; omega)⟩
  | cons first seqs ih =>
      obtain ⟨hfirst, hrest⟩ := h
      obtain ⟨hcounts, hseq⟩ := ih hrest
      refine ⟨⟨hfirst, hcounts⟩, ?_⟩
      rw [hseq, List.length_cons]
      omega

theorem countsFrom_concat {index : ℤ} {seqs : List ℤ} {seq : ℤ}
    (h : CountsFrom index seqs) (hseq : seq = index + seqs.length) :
    CountsFrom index (seqs ++ [seq]) := by
  induction seqs generalizing index with
  | nil =>
      rw [List.length_nil] at hseq
      exact ⟨by omega, trivial⟩
  | cons first seqs ih =>
      obtain ⟨hfirst, hrest⟩ := h
      refine ⟨hfirst, ih hrest ?_⟩
      rw [List.length_cons] at hseq
      omega

theorem FileChain.of_same {host : Host} {start : Option String}
    {entries entries' : List LogEntry} (hsame : List.Forall₂ SameEntry entries entries')
    (h : FileChain host start entries) :
    FileChain host start entries' ∧
      endHash LogEntry.tip start entries' = endHash LogEntry.tip start entries ∧
      entries'.map LogEntry.seq = entries.map LogEntry.seq := by
  induction hsame generalizing start with
  | nil => exact ⟨trivial, rfl, rfl⟩
  | @cons entry entry' entries entries' hfirst _ ih =>
      obtain ⟨hcanonical, hhash⟩ := hfirst
      obtain ⟨hseq, hprevious⟩ := fields_eq_of_canonical hcanonical
      obtain ⟨hlink, hsealed, hrest⟩ := h
      obtain ⟨hchain, hend, hseqs⟩ := ih hrest
      have htip : entry'.tip = entry.tip := congrArg some hhash.symm
      refine ⟨⟨hprevious.symm.trans hlink, ?_, ?_⟩, ?_, ?_⟩
      · exact hhash.symm.trans
          (hsealed.trans (expected_eq_of_canonical host hcanonical))
      · rw [htip]
        exact hchain
      · rw [endHash, endHash, htip, hend]
      · rw [List.map_cons, List.map_cons, hseq, hseqs]

/-- What the verification of a file accepts after a modification that leaves the links
as they were. -/
theorem verify_left_iff {host : Host} {entries left : List LogEntry}
    (hchain : FileChain host none entries)
    (hcounts : CountsFrom 1 (entries.map LogEntry.seq))
    (hfree : CollisionFree host entries left)
    (hlinks : ∀ entry ∈ left, ∃ entry₀ ∈ entries,
      entry.previousHash = entry₀.previousHash) :
    AppendLogSubstrate.verifyAppendOnly host left = true ↔
      OnlyEndChanged host entries left := by
  rw [AppendLogSubstrate.verifyAppendOnly, verifyFrom_file_iff]
  constructor
  · rintro ⟨hcounts', hchain'⟩
    rcases List.eq_nil_or_concat left with rfl | ⟨init', last', rfl⟩
    · exact Or.inl rfl
    · rw [List.concat_eq_append] at hcounts' hchain' hfree hlinks ⊢
      obtain ⟨last, hlast, hprevious⟩ :=
        hlinks last' (List.mem_append_right _ (List.mem_singleton_self _))
      obtain ⟨init, rest, rfl⟩ := List.append_of_mem hlast
      rw [List.append_cons] at hchain
      obtain ⟨hinit, hlink, -⟩ := chained_concat.mp hchain.of_append
      obtain ⟨hinit', hlink', hsealed'⟩ := chained_concat.mp hchain'
      have hsame : List.Forall₂ SameEntry init init' := by
        refine forall₂_of_endHash_eq ?_ ?_ hinit hinit' ?_
        · intro entry hentry entry' hentry' hsealed hsealed' htip
          have hhash : entry.hash = entry'.hash := Option.some.inj htip
          have hcanonical := hfree entry (List.mem_append_left _ hentry) entry'
            (List.mem_append_left _ hentry')
            (hsealed.symm.trans (hhash.trans hsealed'))
          exact ⟨⟨hcanonical, hhash⟩, (fields_eq_of_canonical hcanonical).2⟩
        · intro entry _ h
          cases h
        · rw [← hlink, ← hlink', hprevious]
      refine Or.inr ⟨init, last, rest, init', last', rfl, rfl, hsame, ?_, hprevious,
        hsealed'⟩
      rw [List.map_append, List.map_cons] at hcounts hcounts'
      rw [(countsFrom_append hcounts).2, (countsFrom_append hcounts').2,
        List.length_map, List.length_map, hsame.length_eq]
  · rintro (rfl | ⟨init, last, rest, init', last', rfl, rfl, hsame, hseq, hprevious,
      hsealed'⟩)
    · exact ⟨trivial, trivial⟩
    · rw [List.append_cons] at hchain
      obtain ⟨hinit, hlink, -⟩ := chained_concat.mp hchain.of_append
      obtain ⟨hinit', hend, hseqs⟩ := FileChain.of_same hsame hinit
      rw [List.map_append, List.map_cons] at hcounts
      obtain ⟨hcounts, hlast⟩ := countsFrom_append hcounts
      constructor
      · rw [List.map_append, hseqs]
        exact countsFrom_concat hcounts (hseq.trans hlast)
      · refine chained_concat.mpr ⟨hinit', ?_, hsealed'⟩
        rw [hprevious, hlink, hend]

theorem editAll_links {edits : List Edit} :
    ∀ entry ∈ editAll LogEntry.edit entries edits, ∃ entry₀ ∈ entries,
      entry.previousHash = entry₀.previousHash := by
  induction entries generalizing edits with
  | nil =>
      intro entry hentry
      rw [editAll] at hentry
      cases hentry
  | cons first entries ih =>
      intro entry hentry
      cases edits with
      | nil => exact ⟨entry, hentry, rfl⟩
      | cons edit edits =>
          rw [editAll, List.mem_append] at hentry
          rcases hentry with hfirst | hrest
          · refine ⟨first, List.mem_cons_self, ?_⟩
            cases edit with
            | remove => cases hfirst
            | rewrite seq eventType payload hash =>
                rw [List.mem_singleton.mp hfirst]
          · obtain ⟨entry₀, hentry₀, hlink⟩ := ih entry hrest
            exact ⟨entry₀, List.mem_cons_of_mem _ hentry₀, hlink⟩

theorem seqs_eq_of_contents
    (h : entries.map LogEntry.content = rows.map Row.content) :
    entries.map LogEntry.seq = rows.map Row.seq := by
  have hfst := congrArg (List.map Prod.fst) h
  rw [List.map_map, List.map_map] at hfst
  exact hfst

theorem editAll_seqs
    (h : entries.map LogEntry.content = rows.map Row.content) (edits : List Edit) :
    (editAll LogEntry.edit entries edits).map LogEntry.seq =
      (editAll Row.edit rows edits).map Row.seq := by
  induction entries generalizing rows edits with
  | nil =>
      obtain rfl := List.map_eq_nil_iff.mp h.symm
      rfl
  | cons entry entries ih =>
      obtain ⟨row, rows, rfl, hfirst, hrest⟩ := List.map_eq_cons_iff.mp h.symm
      cases edits with
      | nil => exact seqs_eq_of_contents h
      | cons edit edits =>
          rw [editAll, editAll, List.map_append, List.map_append, ih hrest.symm]
          cases edit with
          | remove => rfl
          | rewrite seq eventType payload hash =>
              have hseq : row.seq = entry.seq := congrArg Prod.fst hfirst
              refine congrArg (· ++ _) ?_
              rw [LogEntry.edit, Row.edit, hseq]
              rfl

/-! ## One append -/

/-- The file is a numbered hash chain, and the table holds the same entries in the same
order. -/
structure Logs.Aligned (host : Host) (logs : Logs) : Prop where
  chain : FileChain host none logs.file
  counts : CountsFrom 1 (logs.file.map LogEntry.seq)
  same : logs.file.map LogEntry.content = logs.table.map Row.content

theorem existing_file_iff (logs : Logs) (call : AppendCall) :
    AppendLogSubstrate.existing logs.file call.eventId = none ↔ ¬ logs.InFile call := by
  rw [AppendLogSubstrate.existing, Logs.InFile]
  cases call.eventId with
  | none => exact iff_of_true rfl (by rintro ⟨_, h, -⟩; cases h)
  | some id => simp

theorem existing_table_cases (pg : Postgres) (logs : Logs) (call : AppendCall) :
    ((∃ e, PostgresAppendLog.existing pg logs.table call.eventId = .error e) ∧
        ¬ logs.Takes pg call) ∨
      ((∃ row, PostgresAppendLog.existing pg logs.table call.eventId = .ok (some row)) ∧
        logs.InTable pg call) ∨
      (PostgresAppendLog.existing pg logs.table call.eventId = .ok none ∧
        ¬ logs.InTable pg call ∧ ∀ id, call.eventId = some id → pg.readsText id = true) := by
  rw [Logs.Takes, Logs.InTable]
  cases call.eventId with
  | none =>
      refine Or.inr (Or.inr ⟨rfl, ?_, ?_⟩)
      · rintro ⟨_, h, -⟩
        cases h
      · intro _ h
        cases h
  | some id =>
      rw [PostgresAppendLog.existing]
      by_cases hreads : pg.readsText id = true
      · rw [if_pos hreads]
        cases hfind : logs.table.find?
            fun row => pg.text row.payload "event_id" = some id with
        | none =>
            refine Or.inr (Or.inr ⟨rfl, ?_, ?_⟩)
            · rintro ⟨_, ⟨⟩, row, hrow, htext⟩
              have hnone := List.find?_eq_none.mp hfind row hrow
              exact hnone (decide_eq_true htext)
            · rintro _ ⟨⟩
              exact hreads
        | some row =>
            have htext : pg.text row.payload "event_id" = some id := by
              simpa using List.find?_some hfind
            exact Or.inr (Or.inl ⟨⟨row, rfl⟩, id, rfl, row,
              List.mem_of_find?_eq_some hfind, htext⟩)
      · rw [if_neg hreads]
        exact Or.inl ⟨⟨_, rfl⟩, fun h => hreads (h.1 id rfl)⟩

theorem next_seq (h : CountsFrom 1 (rows.map Row.seq)) :
    ((PostgresAppendLog.read rows).getLast?.map fun row => row.seq + 1).getD 1 =
      (rows.length : ℤ) + 1 := by
  rw [read_of_counts h]
  rcases List.eq_nil_or_concat' rows with rfl | ⟨init, last, rfl⟩
  · rfl
  · have hcounts : CountsFrom 1 (init.map Row.seq ++ last.seq :: []) := by
      rw [← List.map_singleton, ← List.map_append]
      exact h
    rw [List.getLast?_concat, Option.map_some, Option.getD_some,
      (countsFrom_append hcounts).2, List.length_map, List.length_append,
      List.length_singleton]
    omega

theorem endHash_tip (entries : List LogEntry) :
    endHash LogEntry.tip none entries = entries.getLast?.map LogEntry.hash := by
  rcases List.eq_nil_or_concat entries with rfl | ⟨init, last, rfl⟩
  · rfl
  · rw [List.concat_eq_append, endHash_concat, List.getLast?_concat]
    rfl

section

variable {host : Host} {pg : Postgres} {logs : Logs} {call : AppendCall}

theorem append_file_cases (hallowed : requireNonAuthority call.payload = .ok ()) :
    (logs.InFile call ∧ (AppendLogSubstrate.append host call logs.file).2 = logs.file) ∨
      (¬ logs.InFile call ∧ (AppendLogSubstrate.append host call logs.file).2 =
        logs.file ++ [newEntry host call (logs.file.length + 1)
          (logs.file.getLast?.map LogEntry.hash)]) := by
  have hiff := existing_file_iff logs call
  rw [AppendLogSubstrate.append, hallowed]
  dsimp only
  cases hexisting : AppendLogSubstrate.existing logs.file call.eventId with
  | some entry =>
      refine Or.inl ⟨?_, rfl⟩
      by_contra hnot
      rw [hiff.mpr hnot] at hexisting
      cases hexisting
  | none => exact Or.inr ⟨hiff.mp hexisting, rfl⟩

theorem append_table_cases (hallowed : requireNonAuthority call.payload = .ok ())
    (hcounts : CountsFrom 1 (logs.table.map Row.seq)) :
    ((logs.InTable pg call ∨ ¬ logs.Takes pg call) ∧
        (PostgresAppendLog.append host pg call logs.table).2 = logs.table) ∨
      (¬ (logs.InTable pg call ∨ ¬ logs.Takes pg call) ∧
        ∃ hash, (PostgresAppendLog.append host pg call logs.table).2 =
          logs.table ++
            [⟨logs.table.length + 1, call.eventType, call.payload, hash⟩]) := by
  rw [PostgresAppendLog.append, hallowed]
  dsimp only
  rcases existing_table_cases pg logs call with
    ⟨⟨e, he⟩, htakes⟩ | ⟨⟨row, hrow⟩, hin⟩ | ⟨hnone, hin, hreads⟩
  · rw [he]
    exact Or.inl ⟨Or.inr htakes, rfl⟩
  · rw [hrow]
    exact Or.inl ⟨Or.inl hin, rfl⟩
  · rw [hnone]
    dsimp only
    rw [next_seq hcounts]
    by_cases haccepts :
        pg.accepts (logs.table.length + 1) call.eventType call.payload = true
    · rw [if_pos haccepts]
      refine Or.inr ⟨?_, _, rfl⟩
      rintro (h | h)
      · exact hin h
      · exact h ⟨hreads, haccepts⟩
    · rw [if_neg haccepts]
      exact Or.inl ⟨Or.inr fun h => haccepts h.2, rfl⟩

theorem Logs.Aligned.table_counts (h : logs.Aligned host) :
    CountsFrom 1 (logs.table.map Row.seq) := by
  rw [← seqs_eq_of_contents h.same]
  exact h.counts

theorem Logs.Aligned.length_eq (h : logs.Aligned host) :
    logs.file.length = logs.table.length := by
  have hlength := congrArg List.length h.same
  rw [List.length_map, List.length_map] at hlength
  exact hlength

theorem Logs.Aligned.sameEntries (h : logs.Aligned host) : logs.SameEntries := by
  rw [Logs.SameEntries, read_of_counts h.table_counts]
  exact h.same

theorem Logs.SameEntries.length_eq (h : logs.SameEntries) :
    logs.file.length = logs.table.length := by
  have hlength := congrArg List.length h
  rw [List.length_map, List.length_map, PostgresAppendLog.read,
    List.length_insertionSort] at hlength
  exact hlength

theorem Logs.Aligned.extend (h : logs.Aligned host) (hash : String) :
    Logs.Aligned host
      ⟨logs.file ++ [newEntry host call (logs.file.length + 1)
          (logs.file.getLast?.map LogEntry.hash)],
        logs.table ++ [⟨logs.table.length + 1, call.eventType, call.payload, hash⟩]⟩ where
  chain := chained_concat.mpr ⟨h.chain, (endHash_tip logs.file).symm, rfl⟩
  counts := by
    rw [List.map_append]
    refine countsFrom_concat h.counts ?_
    rw [List.length_map]
    exact Int.add_comm _ _
  same := by
    rw [List.map_append, List.map_append, h.same, ← h.length_eq]
    rfl

/-- An append keeps aligned logs the same exactly when they tell duplicates alike, and
then it keeps them aligned. -/
theorem Logs.Aligned.append_iff (h : logs.Aligned host) (pg : Postgres)
    (call : AppendCall) :
    ((logs.append host pg call).1.SameEntries ↔ DedupAlike pg logs call) ∧
      (DedupAlike pg logs call → (logs.append host pg call).1.Aligned host) := by
  cases hallowed : requireNonAuthority call.payload with
  | error e =>
      have hsame : (logs.append host pg call).1 = logs := by
        rw [Logs.append, AppendLogSubstrate.append, PostgresAppendLog.append, hallowed]
      rw [hsame]
      refine ⟨iff_of_true h.sameEntries fun hok => ?_, fun _ => h⟩
      rw [hallowed] at hok
      cases hok
  | ok _ =>
      have hdedup : DedupAlike pg logs call ↔
          (logs.InFile call ↔ logs.InTable pg call ∨ ¬ logs.Takes pg call) :=
        ⟨fun hdedup => hdedup hallowed, fun hdedup _ => hdedup⟩
      have hlength := h.length_eq
      rw [Logs.append, hdedup]
      dsimp only
      rcases @append_file_cases host logs call hallowed with
        ⟨hfile, hentries⟩ | ⟨hfile, hentries⟩ <;>
      rcases @append_table_cases host pg logs call hallowed h.table_counts with
        ⟨htable, hrows⟩ | ⟨htable, hash, hrows⟩
      · rw [hentries, hrows]
        exact ⟨iff_of_true h.sameEntries (iff_of_true hfile htable), fun _ => h⟩
      · rw [hentries, hrows]
        have hnot : ¬ (logs.InFile call ↔
            logs.InTable pg call ∨ ¬ logs.Takes pg call) :=
          fun hiff => htable (hiff.mp hfile)
        refine ⟨iff_of_false (fun hsame => ?_) hnot, fun hiff => absurd hiff hnot⟩
        have hlengths := hsame.length_eq
        dsimp only at hlengths
        rw [List.length_append, List.length_singleton] at hlengths
        omega
      · rw [hentries, hrows]
        have hnot : ¬ (logs.InFile call ↔
            logs.InTable pg call ∨ ¬ logs.Takes pg call) :=
          fun hiff => hfile (hiff.mpr htable)
        refine ⟨iff_of_false (fun hsame => ?_) hnot, fun hiff => absurd hiff hnot⟩
        have hlengths := hsame.length_eq
        dsimp only at hlengths
        rw [List.length_append, List.length_singleton] at hlengths
        omega
      · rw [hentries, hrows]
        exact ⟨iff_of_true (h.extend hash).sameEntries (iff_of_false hfile htable),
          fun _ => h.extend hash⟩

/-! ## Runs -/

def Logs.HasId (logs : Logs) (id : String) : Prop :=
  ∃ entry ∈ logs.file, entry.eventId = some id

variable {calls : List AppendCall} {id : String}

theorem Logs.HasId.append (h : logs.HasId id) :
    (logs.append host pg call).1.HasId id := by
  obtain ⟨entry, hentry, hid⟩ := h
  rw [Logs.append]
  dsimp only
  cases hallowed : requireNonAuthority call.payload with
  | error e =>
      rw [AppendLogSubstrate.append, hallowed]
      exact ⟨entry, hentry, hid⟩
  | ok _ =>
      rcases @append_file_cases host logs call hallowed with ⟨-, hfile⟩ | ⟨-, hfile⟩
      · rw [hfile]
        exact ⟨entry, hentry, hid⟩
      · rw [hfile]
        exact ⟨entry, List.mem_append_left _ hentry, hid⟩

theorem AppendCall.Appends.hasId (h : call.Appends id) :
    (logs.append host pg call).1.HasId id := by
  obtain ⟨hallowed, hid⟩ := h
  rw [Logs.append]
  dsimp only
  rcases @append_file_cases host logs call hallowed with
    ⟨⟨id', hid', hin⟩, hfile⟩ | ⟨-, hfile⟩
  · rw [hfile]
    obtain rfl := Option.some.inj (hid.symm.trans hid')
    exact hin
  · rw [hfile]
    exact ⟨_, List.mem_append_right _ (List.mem_singleton_self _), hid⟩

theorem Logs.Aligned.append_of_hasId (h : logs.Aligned host)
    (hdedup : DedupAlike pg logs call) (hid : logs.HasId id)
    (happends : call.Appends id) : (logs.append host pg call).1 = logs := by
  obtain ⟨hallowed, hcall⟩ := happends
  have hfile : logs.InFile call := ⟨id, hcall, hid⟩
  have htable := (hdedup hallowed).mp hfile
  rw [Logs.append]
  dsimp only
  rcases @append_file_cases host logs call hallowed with ⟨-, hentries⟩ | ⟨hnot, -⟩
  · rcases @append_table_cases host pg logs call hallowed h.table_counts with
      ⟨-, hrows⟩ | ⟨hnot, -⟩
    · rw [hentries, hrows]
    · exact absurd htable hnot
  · exact absurd hfile hnot

theorem unchanged_of_hasId {logs : Logs}
    (h : logs.Aligned host)
    (hguard : (logsMachine host pg).Guarded (DedupAlike pg) logs calls)
    (hid : logs.HasId id) :
    ∀ e ∈ (logsMachine host pg).trace logs calls, e.input.Appends id →
      e.after = e.before := by
  induction calls generalizing logs with
  | nil =>
      intro e he
      cases he
  | cons call calls ih =>
      obtain ⟨hdedup, hrest⟩ := Machine.guarded_cons.mp hguard
      intro e he
      rcases List.mem_cons.mp he with rfl | he
      · exact h.append_of_hasId hdedup hid
      · exact ih ((h.append_iff pg call).2 hdedup) hrest hid.append e he

theorem idempotent_of_guarded {logs : Logs}
    (h : logs.Aligned host)
    (hguard : (logsMachine host pg).Guarded (DedupAlike pg) logs calls) :
    Idempotent ((logsMachine host pg).trace logs calls) := by
  intro id
  induction calls generalizing logs with
  | nil => exact List.Pairwise.nil
  | cons call calls ih =>
      obtain ⟨hdedup, hrest⟩ := Machine.guarded_cons.mp hguard
      have hafter := (h.append_iff pg call).2 hdedup
      refine List.Pairwise.cons ?_ (ih hafter hrest)
      intro e he happends
      exact unchanged_of_hasId hafter hrest happends.hasId e he

theorem final_aligned {logs : Logs} (h : logs.Aligned host)
    (hguard : (logsMachine host pg).Guarded (DedupAlike pg) logs calls) :
    ((logsMachine host pg).final logs calls).Aligned host := by
  induction calls generalizing logs with
  | nil => exact h
  | cons call calls ih =>
      obtain ⟨hdedup, hrest⟩ := Machine.guarded_cons.mp hguard
      exact ih ((h.append_iff pg call).2 hdedup) hrest

/-- After a modification of aligned logs, the verdicts are the same exactly when the
numbering is broken or only the end was changed. -/
theorem Logs.Aligned.sameVerdict_iff (h : logs.Aligned host) {edits : List Edit}
    (hfree : CollisionFree host logs.file (logs.modify edits).file) :
    (logs.modify edits).SameVerdict host ↔
      (¬ Numbered ((logs.modify edits).file.map LogEntry.seq) ∨
        OnlyEndChanged host logs.file (logs.modify edits).file) := by
  have hfile := verify_left_iff h.chain h.counts hfree editAll_links
  have htable := verifyAppendOnly_table_iff (logs.modify edits).table
  have hseqs := editAll_seqs h.same edits
  rw [← hfile, Logs.SameVerdict]
  rw [Logs.modify] at htable ⊢
  dsimp only at htable ⊢
  rw [hseqs, ← htable]
  have hnumbered : AppendLogSubstrate.verifyAppendOnly host
      (editAll LogEntry.edit logs.file edits) = true →
        PostgresAppendLog.verifyAppendOnly (editAll Row.edit logs.table edits) = true := by
    intro hverified
    obtain ⟨hcounts, -⟩ := (verifyFrom_file_iff host 1 none _).mp hverified
    rw [htable, ← hseqs, Numbered, ← (countsFrom_iff 1 _).mp hcounts]
  have hverdicts : ∀ f t : Bool, (f = true → t = true) →
      (f = t ↔ (¬ t = true ∨ f = true)) := by decide
  exact hverdicts _ _ hnumbered

end

theorem aligned_init (host : Host) : ({} : Logs).Aligned host :=
  ⟨trivial, trivial, rfl⟩

/-- Over a run of appends from empty logs and a modification, the logs hold the same
entries, append once for each id and give the same verdict exactly when they tell
duplicates alike, and the modification breaks the numbering or changes only the end. -/
theorem backends_agree_iff (host : Host) (pg : Postgres) (calls : List AppendCall)
    (edits : List Edit)
    (hfree : CollisionFree host ((logsMachine host pg).final {} calls).file
      (((logsMachine host pg).final {} calls).modify edits).file) :
    ((∀ e ∈ (logsMachine host pg).trace {} calls, e.after.SameEntries) ∧
      Idempotent ((logsMachine host pg).trace {} calls) ∧
      (((logsMachine host pg).final {} calls).modify edits).SameVerdict host) ↔
    ((logsMachine host pg).Guarded (DedupAlike pg) {} calls ∧
      (¬ Numbered ((((logsMachine host pg).final {} calls).modify edits).file.map
          LogEntry.seq) ∨
        OnlyEndChanged host ((logsMachine host pg).final {} calls).file
          (((logsMachine host pg).final {} calls).modify edits).file)) := by
  have hinit := aligned_init host
  have hruns : (∀ e ∈ (logsMachine host pg).trace {} calls, e.after.SameEntries) ↔
      (logsMachine host pg).Guarded (DedupAlike pg) {} calls :=
    Machine.forall_after_iff_guarded calls
      (fun _ call _ h => (h.append_iff pg call).1)
      (fun _ call _ h hsame => (h.append_iff pg call).2 ((h.append_iff pg call).1.mp hsame))
      hinit
  constructor
  · rintro ⟨hsame, -, hverdict⟩
    have hguard := hruns.mp hsame
    exact ⟨hguard, ((final_aligned hinit hguard).sameVerdict_iff hfree).mp hverdict⟩
  · rintro ⟨hguard, hedits⟩
    exact ⟨hruns.mpr hguard, idempotent_of_guarded hinit hguard,
      ((final_aligned hinit hguard).sameVerdict_iff hfree).mpr hedits⟩

def openPostgres : Postgres where
  jsonText _ := ""
  readsText _ := true
  accepts _ _ _ := true
  refusal := .valueError ""

def dedupCall : AppendCall where
  eventType := "EVENT"
  payload := [("value", .str "dedup")]
  eventId := some "dedup-001"
  now := "2026-01-01T00:00:00Z"

/-- One event, and no modification. -/
theorem one_event_agrees :
    ((∀ e ∈ (logsMachine referenceHost openPostgres).trace {} [dedupCall],
        e.after.SameEntries) ∧
      Idempotent ((logsMachine referenceHost openPostgres).trace {} [dedupCall]) ∧
      (((logsMachine referenceHost openPostgres).final {} [dedupCall]).modify
        []).SameVerdict referenceHost) ↔
    ((logsMachine referenceHost openPostgres).Guarded (DedupAlike openPostgres) {}
        [dedupCall] ∧
      (¬ Numbered ((((logsMachine referenceHost openPostgres).final {}
          [dedupCall]).modify []).file.map LogEntry.seq) ∨
        OnlyEndChanged referenceHost
          ((logsMachine referenceHost openPostgres).final {} [dedupCall]).file
          (((logsMachine referenceHost openPostgres).final {} [dedupCall]).modify
            []).file)) :=
  backends_agree_iff referenceHost openPostgres [dedupCall] [] (by
    intro entry hentry entry' hentry' _
    rw [List.mem_singleton.mp hentry, List.mem_singleton.mp hentry'])

def appendedTwice : Logs :=
  (logsMachine referenceHost openPostgres).final {} [dedupCall, dedupCall]

def overwritten : Logs :=
  ((logsMachine referenceHost openPostgres).final {} [dedupCall]).modify
    [.rewrite none none (some [("value", .str "other")]) none]

/-- The second append adds a row, and only the file shows that a payload was
overwritten. -/
theorem appended_twice :
    (appendedTwice.file.length = 1 ∧ appendedTwice.table.length = 2) ∧
      ¬ appendedTwice.SameEntries ∧
      AppendLogSubstrate.verifyAppendOnly referenceHost overwritten.file = false ∧
      PostgresAppendLog.verifyAppendOnly overwritten.table = true := by
  have hlengths : appendedTwice.file.length = 1 ∧ appendedTwice.table.length = 2 := by
    decide +kernel
  refine ⟨hlengths, fun hsame => ?_, by decide +kernel, by decide +kernel⟩
  have hlength := hsame.length_eq
  rw [hlengths.1, hlengths.2] at hlength
  cases hlength

/-! ## The file over a run -/

def fileMachine (host : Host) :
    Machine (List LogEntry) AppendCall (Except PyError Payload) where
  step entries call := (AppendLogSubstrate.append host call entries).swap

section

variable {host : Host} {call : AppendCall} {entries : List LogEntry} {entry : LogEntry}
  {id : String}

theorem append_file_forms :
    (AppendLogSubstrate.append host call entries).2 = entries ∨
      (AppendLogSubstrate.append host call entries).2 =
        entries ++ [newEntry host call (entries.length + 1)
          (entries.getLast?.map LogEntry.hash)] := by
  cases hallowed : requireNonAuthority call.payload with
  | error e =>
      rw [AppendLogSubstrate.append, hallowed]
      exact Or.inl rfl
  | ok _ =>
      exact (@append_file_cases host ⟨entries, []⟩ call hallowed).imp And.right And.right

theorem verify_append (h : AppendLogSubstrate.verifyAppendOnly host entries = true) :
    AppendLogSubstrate.verifyAppendOnly host
      (AppendLogSubstrate.append host call entries).2 = true := by
  rcases @append_file_forms host call entries with hfile | hfile
  · rw [hfile, h]
  · obtain ⟨hcounts, hchain⟩ := (verifyFrom_file_iff host 1 none entries).mp h
    rw [hfile]
    refine (verifyFrom_file_iff host 1 none _).mpr ⟨?_, ?_⟩
    · rw [List.map_append]
      refine countsFrom_concat hcounts ?_
      rw [List.length_map]
      exact Int.add_comm _ _
    · exact chained_concat.mpr ⟨hchain, (endHash_tip entries).symm, rfl⟩

/-- What is filed under an id stays. -/
theorem existing_append
    (h : AppendLogSubstrate.existing entries (some id) = some entry) :
    AppendLogSubstrate.existing (AppendLogSubstrate.append host call entries).2 (some id) =
      some entry := by
  rcases @append_file_forms host call entries with hfile | hfile
  · rw [hfile, h]
  · rw [AppendLogSubstrate.existing, Option.bind_some] at h ⊢
    rw [hfile, List.find?_append, h, Option.some_or]

theorem append_of_existing (happends : call.Appends id)
    (h : AppendLogSubstrate.existing entries (some id) = some entry) :
    AppendLogSubstrate.append host call entries = (.ok entry.toDict, entries) := by
  obtain ⟨hallowed, hid⟩ := happends
  rw [AppendLogSubstrate.append, hallowed, hid, h]

/-- An append answers with what is filed under its id afterwards. -/
theorem append_answers (happends : call.Appends id) :
    ∃ entry, (AppendLogSubstrate.append host call entries).1 = .ok entry.toDict ∧
      AppendLogSubstrate.existing (AppendLogSubstrate.append host call entries).2 (some id) =
        some entry := by
  cases hexisting : AppendLogSubstrate.existing entries (some id) with
  | some entry =>
      rw [append_of_existing happends hexisting]
      exact ⟨entry, rfl, hexisting⟩
  | none =>
      obtain ⟨hallowed, hid⟩ := happends
      rw [AppendLogSubstrate.append, hallowed, hid, hexisting]
      refine ⟨_, rfl, ?_⟩
      rw [AppendLogSubstrate.existing, Option.bind_some] at hexisting ⊢
      rw [List.find?_append, hexisting, Option.none_or, List.find?_singleton]
      exact if_pos (decide_eq_true hid)

theorem answered_of_existing (calls : List AppendCall)
    (h : AppendLogSubstrate.existing entries (some id) = some entry) :
    ∀ e ∈ (fileMachine host).trace entries calls, e.input.Appends id →
      e.output = .ok entry.toDict ∧ e.after = e.before := by
  induction calls generalizing entries with
  | nil =>
      intro e he
      cases he
  | cons call calls ih =>
      intro e he happends
      rcases List.mem_cons.mp he with rfl | he
      · have hanswer := @append_of_existing host call _ _ _ happends h
        exact ⟨congrArg Prod.fst hanswer, congrArg Prod.snd hanswer⟩
      · exact ih (existing_append h) e he happends

theorem retries_pairwise (calls : List AppendCall) (entries : List LogEntry) :
    ((fileMachine host).trace entries calls).Pairwise fun e e' =>
      e.input.Appends id → e'.input.Appends id →
        e'.output = e.output ∧ e'.after = e'.before := by
  induction calls generalizing entries with
  | nil => exact List.Pairwise.nil
  | cons call calls ih =>
      refine List.Pairwise.cons (fun e he hfirst happends => ?_) (ih _)
      obtain ⟨entry, hanswer, hfiled⟩ := @append_answers host call entries id hfirst
      obtain ⟨houtput, hsame⟩ := answered_of_existing calls hfiled e he happends
      exact ⟨houtput.trans hanswer.symm, hsame⟩

end

/-- Over every run of appends the file verifies and only grows, and an append with an id
that was appended before leaves it and answers as the first one did. -/
theorem file_run_keeps_entries (host : Host) (calls : List AppendCall) :
    (∀ e ∈ (fileMachine host).trace [] calls,
      AppendLogSubstrate.verifyAppendOnly host e.after = true ∧ e.before <+: e.after) ∧
    ∀ id, ((fileMachine host).trace [] calls).Pairwise fun e e' =>
      e.input.Appends id → e'.input.Appends id →
        e'.output = e.output ∧ e'.after = e'.before := by
  refine ⟨fun e he => ?_, fun id => retries_pairwise calls []⟩
  have hverified := Machine.invariant_around
    (fun entries => AppendLogSubstrate.verifyAppendOnly host entries = true) rfl
    (fun _ _ h => verify_append h) calls e he
  refine ⟨hverified.2, ?_⟩
  rw [Machine.mem_trace_eq_stepAt he]
  change e.before <+: (AppendLogSubstrate.append host e.input e.before).2
  rcases @append_file_forms host e.input e.before with hfile | hfile
  · rw [hfile]
  · rw [hfile]
    exact List.prefix_append _ _

end Hydrogenuine.Storage
