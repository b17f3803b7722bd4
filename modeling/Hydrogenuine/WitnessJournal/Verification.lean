import Hydrogenuine.Core.ReferenceHost
import Hydrogenuine.Support.Machine
import Hydrogenuine.WitnessJournal.AnchorWriter

/-!
# Appends that keep the journal verifiable

A live append numbers and links its event by the local chain file, which dry runs
advance and failed live appends do not, while the verification goes by the event files.
Along the runs in which every event that is written continues the event files of the
repository, the repository verifies after every append.
-/

namespace Hydrogenuine.WitnessJournal

open Support Hydrogenuine.Core

/-! ## Events -/

/-- What the verification reads of the payload of an event. -/
structure Built (host : Host) (bundle : Bundle) (payload : Items) : Prop where
  sequence : PyVal.item? payload "event_sequence" = some (.int bundle.eventSequence)
  previous : previousHash payload = .ofOption bundle.previousJournalEventSha256
  stored : storedHash payload = .str bundle.journalEventSha256
  hash : hashJournalEvent host (unsigned payload) = bundle.journalEventSha256

section Events

variable {host : Host} {env : WriterEnv} {call : Call} {b bundle : Bundle}
  {payload : Items} {sequence : ℤ} {prevHash prevCommit : Option String}

theorem filter_body (b : Bundle) (keys : List String)
    (h : ∀ key ∈ keys, key ∉ b.body.map Prod.fst) :
    b.body.filter (fun entry => !keys.contains entry.1) = b.body := by
  rw [List.filter_eq_self]
  intro entry hentry
  rw [Bool.not_eq_true']
  by_contra hmem
  rw [Bool.not_eq_false, List.contains_iff_mem] at hmem
  exact h entry.1 hmem (List.mem_map_of_mem hentry)

theorem toDict_false (hcommit : b.githubCommitSha = none) : b.toDict false = b.body := by
  unfold Bundle.toDict
  rw [hcommit]
  simp

def hashEntry (b : Bundle) : Items :=
  if b.journalEventSha256 ≠ "" then
    [("journal_event_sha256", .str b.journalEventSha256)]
  else []

theorem toDict_true (hcommit : b.githubCommitSha = none) :
    b.toDict true = b.body ++ hashEntry b := by
  unfold Bundle.toDict hashEntry
  rw [hcommit]
  simp

theorem filter_hashEntry (b : Bundle) (keys : List String) :
    (hashEntry b).filter (fun entry => !keys.contains entry.1) =
      if keys.contains "journal_event_sha256" then [] else hashEntry b := by
  unfold hashEntry
  split_ifs <;> simp_all

theorem built_payload
    (hcommit : b.githubCommitSha = none)
    (hhash : b.journalEventSha256 = hashJournalEvent host b.body)
    (signatures : List PyVal) :
    Built host b
      (b.toDict true ++ signatures.map fun v => ("journal_signature", v)) := by
  have hlookup (key : String) : PyVal.item?
      (b.body ++ hashEntry b ++ signatures.map fun v => ("journal_signature", v)) key =
        (b.body.lookup key).or (((hashEntry b).lookup key).or
          ((signatures.map fun v => ("journal_signature", v)).lookup key)) := by
    unfold PyVal.item?
    rw [List.lookup_append, List.lookup_append, Option.or_assoc]
  rw [toDict_true hcommit]
  refine ⟨?_, ?_, ?_, ?_⟩
  · rw [hlookup]
    rfl
  · unfold previousHash PyVal.getItem
    rw [hlookup]
    rfl
  · unfold storedHash
    rw [hlookup]
    have hbody : b.body.lookup "journal_event_sha256" = none := by
      simp [Bundle.body, List.lookup_cons]
    rw [hbody, Option.none_or]
    by_cases hempty : b.journalEventSha256 = ""
    · have hentry : hashEntry b = [] := by simp [hashEntry, hempty]
      have hsign : (signatures.map fun v => ("journal_signature", v)).lookup
          "journal_event_sha256" = none := by
        rw [List.lookup_eq_none_iff]
        simp
      rw [hentry, hsign, hempty]
      rfl
    · have hentry : hashEntry b =
          [("journal_event_sha256", .str b.journalEventSha256)] := by
        simp [hashEntry, hempty]
      rw [hentry]
      simp
  · have hunsigned : unsigned (b.body ++ hashEntry b ++
        signatures.map fun v => ("journal_signature", v)) =
          b.body ++ hashEntry b := by
      have hsigned : (signatures.map fun v => ("journal_signature", v)).filter
          (fun entry =>
            ! ["journal_signature", "anchor_signature"].contains entry.1) = [] := by
        rw [List.filter_eq_nil_iff]
        simp
      have hbody := filter_body b ["journal_signature", "anchor_signature"]
        (by simp [Bundle.body])
      unfold unsigned
      rw [List.filter_append, List.filter_append, hbody, filter_hashEntry, hsigned,
        List.append_nil]
      rfl
    have hbody := filter_body b ["journal_event_sha256", "github_commit_sha"]
      (by simp [Bundle.body])
    rw [hunsigned, hhash]
    unfold hashJournalEvent
    rw [List.filter_append, hbody, filter_hashEntry]
    simp

theorem built_of_build
    (h : buildEventBundle env call sequence prevHash prevCommit =
      .ok (bundle, payload)) :
    Built env.host bundle payload ∧
      bundle = (draftBundle env call sequence prevHash prevCommit).hashed env.host := by
  unfold buildEventBundle at h
  simp only [bind, Except.bind] at h
  split at h
  · cases h
  · cases hsigning : call.signing with
    | error e =>
        rw [hsigning] at h
        cases h
    | ok signature =>
        rw [hsigning] at h
        obtain ⟨rfl, rfl⟩ := Prod.mk.inj (Except.ok.inj h)
        have hdraft : (draftBundle env call sequence prevHash prevCommit).githubCommitSha =
            none := rfl
        refine ⟨built_payload rfl ?_ _, rfl⟩
        exact congrArg (hashJournalEvent env.host) (toDict_false hdraft)

end Events

/-! ## Writing an event -/

def Repo.others (repo : Repo) (name : String) : List (String × Items) :=
  repo.listing.filter fun file => file.1 ≠ name

/-- An event continues the other event files of the repository: it has the next number,
of at most six digits, and links to the last of them. -/
structure Continues
    (repo : Repo) (eventClass : EventClass) (sequence : ℤ) (prevHash : Option String) :
    Prop where
  numbered : sequence = (repo.others (eventFilename sequence eventClass)).length
  bounded : sequence < 10 ^ 6
  linked : repo.others (eventFilename sequence eventClass) ≠ [] →
    .ofOption prevHash = lastHash (repo.others (eventFilename sequence eventClass))

section Writing

variable {host : Host} {repo : Repo} {bundle : Bundle} {payload : Items}
  {prevHash : Option String}

theorem pairwise_of_numbered
    {files : List (String × Items)} (h : Numbered files) (hbound : files.length ≤ 10 ^ 6) :
    files.Pairwise fun a b => a.1 < b.1 := by
  rw [List.pairwise_iff_getElem]
  intro i j hi hj hij
  obtain ⟨⟨c, hname⟩, -⟩ := h i _ (List.getElem?_eq_getElem hi)
  obtain ⟨⟨c', hname'⟩, -⟩ := h j _ (List.getElem?_eq_getElem hj)
  rw [hname, hname']
  exact eventFilename_lt (hj.trans_le hbound) hij c c'

theorem insertionSort_eq_of_perm
    {files files' : List (String × Items)} (hperm : files.Perm files')
    (hsorted : files'.Pairwise fun a b => a.1 < b.1) :
    files.insertionSort (fun a b => a.1 ≤ b.1) = files' := by
  have hnodup : (files'.map Prod.fst).Nodup :=
    List.pairwise_map.mpr (hsorted.imp fun h => h.ne)
  have hsort := List.perm_insertionSort (fun a b : String × Items => a.1 ≤ b.1) files
  refine List.Perm.eq_of_pairwise ?_ (List.pairwise_insertionSort _ _)
    (hsorted.imp fun h => h.le) (hsort.trans hperm)
  intro a b ha hb hab hba
  have ha' := (hsort.trans hperm).mem_iff.mp ha
  exact List.inj_on_of_nodup_map hnodup ha' hb (String.le_antisymm hab hba)

/-- The other files of a sound repository that an event continues are numbered and
linked as well: at most the last file is missing. -/
theorem Sound.others
    (h : Sound host repo)
    (hcontinues : Continues repo bundle.eventClass bundle.eventSequence prevHash) :
    Numbered (repo.others (eventFilename bundle.eventSequence bundle.eventClass)) ∧
      LinkedEvents host
        (repo.others (eventFilename bundle.eventSequence bundle.eventClass)) := by
  have hsorted := pairwise_of_numbered h.numbered h.bounded
  have hseq := hcontinues.numbered
  have hbound := hcontinues.bounded
  generalize hname : eventFilename bundle.eventSequence bundle.eventClass = name
    at hseq ⊢
  by_cases hmem : ∃ file ∈ repo.listing, file.1 = name
  · obtain ⟨file, hfile, hsame⟩ := hmem
    obtain ⟨before, after, hsplit⟩ := List.append_of_mem hfile
    have hothers : repo.others name = before ++ after := by
      rw [hsplit, List.pairwise_append, List.pairwise_cons] at hsorted
      obtain ⟨-, ⟨hafter, -⟩, hbefore⟩ := hsorted
      have hkeep : before.filter (fun f => f.1 ≠ name) = before :=
        List.filter_eq_self.mpr fun f hf => by
          have hlt := hbefore f hf file List.mem_cons_self
          rw [hsame] at hlt
          simpa using hlt.ne
      have hkeep' : after.filter (fun f => f.1 ≠ name) = after :=
        List.filter_eq_self.mpr fun f hf => by
          have hlt := hafter f hf
          rw [hsame] at hlt
          simpa using hlt.ne'
      unfold Repo.others
      rw [hsplit, List.filter_append, List.filter_cons, hkeep, hkeep']
      simp [hsame]
    have hat : repo.listing[before.length]? = some file := by
      rw [hsplit]
      simp
    obtain ⟨⟨c, hnumber⟩, -⟩ := h.numbered _ _ hat
    have hlast : after = [] := by
      have hindex : before.length < 10 ^ 6 :=
        (List.getElem?_eq_some_iff.mp hat).1.trans_le h.bounded
      rw [hothers] at hseq
      rw [hseq] at hbound hname
      have hcount : (before ++ after).length < 10 ^ 6 := by exact_mod_cast hbound
      have hlength := eventFilename_inj hcount hindex
        (hname.trans (hsame.symm.trans hnumber))
      rw [List.length_append] at hlength
      exact List.eq_nil_of_length_eq_zero (by omega)
    subst hlast
    rw [hothers, List.append_nil]
    have hnumbered := h.numbered
    have hlinked := h.linked
    rw [hsplit] at hnumbered hlinked
    exact ⟨(numbered_concat_iff.mp hnumbered).1, (linkedEvents_concat_iff.mp hlinked).1⟩
  · have hothers : repo.others name = repo.listing :=
      List.filter_eq_self.mpr fun f hf => by
        simpa using fun hsame => hmem ⟨f, hf, hsame⟩
    rw [hothers]
    exact ⟨h.numbered, h.linked⟩

theorem Sound.write
    (h : Sound host repo) (hbuilt : Built host bundle payload)
    (hcontinues : Continues repo bundle.eventClass bundle.eventSequence
      bundle.previousJournalEventSha256) :
    Sound host (repo.writeJournalFiles bundle payload) := by
  obtain ⟨hnumbered, hlinked⟩ := h.others hcontinues
  have hseq := hcontinues.numbered
  have hprevious := hcontinues.linked
  have hbound := hcontinues.bounded
  have hfilename : ∃ c, eventFilename bundle.eventSequence bundle.eventClass =
      eventFilename bundle.eventSequence c := ⟨_, rfl⟩
  have hlisting : (repo.writeJournalFiles bundle payload).listing =
      (repo.events.getD [] |> writeFile (eventFilename bundle.eventSequence
        bundle.eventClass) payload).insertionSort fun a b => a.1 ≤ b.1 := rfl
  generalize hname : eventFilename bundle.eventSequence bundle.eventClass = name
    at hseq hprevious hnumbered hlinked hlisting hfilename
  have hcount : (repo.others name).length < 10 ^ 6 := by
    rw [hseq] at hbound
    exact_mod_cast hbound
  have hnumbered' : Numbered (repo.others name ++ [(name, payload)]) := by
    refine numbered_concat_iff.mpr ⟨hnumbered, ?_, ?_⟩
    · rw [← hseq]
      exact hfilename
    · rw [← hseq]
      exact hbuilt.sequence
  have hsealed : SealedEvent host (name, payload) := by
    unfold SealedEvent
    rw [hbuilt.stored, hbuilt.hash]
  have hlinked' : LinkedEvents host (repo.others name ++ [(name, payload)]) := by
    refine linkedEvents_concat_iff.mpr ⟨hlinked, hsealed, fun hnonempty => ?_⟩
    rw [hbuilt.previous]
    exact hprevious hnonempty
  have hlength : (repo.others name ++ [(name, payload)]).length ≤ 10 ^ 6 := by
    rw [List.length_append, List.length_singleton]
    exact hcount
  have hperm : ((repo.events.getD []) |> writeFile name payload).Perm
      (repo.others name ++ [(name, payload)]) :=
    ((List.perm_insertionSort _ _).symm.filter _).append_right _
  rw [insertionSort_eq_of_perm hperm (pairwise_of_numbered hnumbered' hlength)]
    at hlisting
  refine ⟨?_, ?_, ?_, ?_, ?_, ?_⟩
  · rw [hlisting]
    exact hnumbered'
  · rw [hlisting]
    exact hlinked'
  · rw [hlisting]
    exact hlength
  · rw [hlisting, List.length_append, List.length_singleton, Nat.cast_add, ← hseq]
    rfl
  · rw [hlisting, List.length_append, List.length_singleton, Nat.cast_add, ← hseq]
    exact (Int.add_sub_cancel _ _).symm
  · intro _
    rw [hlisting, lastHash, endHash_concat, hbuilt.stored]
    rfl

end Writing

end Hydrogenuine.WitnessJournal
