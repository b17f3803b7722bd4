import Hydrogenuine.Support.HashChain
import Hydrogenuine.WitnessJournal.Schema

/-!
# Verification of the journal

Embedding of `external_witness_journal/hash_chain.py`.  The verification walks over the
event files in the order of their names and compares each with the one before it, and
the last one with the chain file.
-/

namespace Hydrogenuine.WitnessJournal

open Support Hydrogenuine.Core

/-! ## Hashes -/

/-- `hash_journal_event`, of a dictionary. -/
def hashJournalEvent (host : Host) (data : Items) : String :=
  host.sha256Hex (PyVal.dict (data.filter fun entry =>
    ! ["journal_event_sha256", "github_commit_sha"].contains entry.1)).canonical

def unsigned (data : Items) : Items :=
  data.filter fun entry => ! ["journal_signature", "anchor_signature"].contains entry.1

/-- `data.get("journal_event_sha256", "")`. -/
def storedHash (data : Items) : PyVal :=
  (PyVal.item? data "journal_event_sha256").getD (.str "")

/-- `data.get("previous_journal_event_sha256")`. -/
def previousHash (data : Items) : PyVal :=
  PyVal.getItem data "previous_journal_event_sha256"

/-! ## `verify_chain` -/

/-- `WitnessJournalVerification`. -/
structure Verification where
  ok : Bool
  eventCount : ℕ
  latestSequence : ℤ
  latestEventSha256 : PyVal
  failures : List String

/-- What the loop carries from file to file. -/
structure Walk where
  failures : List String := []
  prevHash : PyVal := .none
  prevSeq : ℤ := -1
  latestHash : PyVal := .none

def Walk.visit (host : Host) (walk : Walk) (file : String × Items) :
    Except PyError Walk := do
  let data := file.2
  let seq ← host.toInt ((PyVal.item? data "event_sequence").getD (.int (-1)))
  let stored := storedHash data
  let gap :=
    if seq ≠ walk.prevSeq + 1 then
      ["RED_EWJ_HASH_CHAIN_BROKEN: sequence gap at " ++ file.1 ++ " seq=" ++
        toString seq ++ " expected=" ++ toString (walk.prevSeq + 1)]
    else []
  let mismatch :=
    if stored.pyEq (.str (hashJournalEvent host (unsigned data))) then []
    else ["RED_EWJ_HASH_CHAIN_BROKEN: hash mismatch " ++ file.1]
  let broken :=
    if walk.prevHash.truthy && !(previousHash data).pyEq walk.prevHash then
      ["RED_EWJ_HASH_CHAIN_BROKEN: previous hash link broken at " ++ file.1]
    else []
  return {
    failures := walk.failures ++ gap ++ mismatch ++ broken
    prevHash := stored
    prevSeq := seq
    latestHash := stored }

def verifyChain (host : Host) (repo : Repo) : Except PyError Verification :=
  let chain := repo.readChain
  match repo.events with
  | none =>
      let failures :=
        if chain.eventCount > 0 then
          ["RED_EWJ_HASH_CHAIN_BROKEN: chain claims events but events dir missing"]
        else []
      .ok ⟨failures.isEmpty, 0, -1, .none, failures⟩
  | some _ => do
      let eventFiles := repo.listing
      let counted :=
        if chain.eventCount ≠ eventFiles.length then
          ["RED_EWJ_HASH_CHAIN_BROKEN: event_count mismatch chain=" ++
            toString chain.eventCount ++ " files=" ++ toString eventFiles.length]
        else []
      let walk ← eventFiles.foldlM (Walk.visit host) { failures := counted }
      let sequence :=
        if chain.latestEventSequence ≠ walk.prevSeq && !eventFiles.isEmpty then
          ["RED_EWJ_HASH_CHAIN_BROKEN: chain latest sequence mismatch"]
        else []
      let latest :=
        match chain.latestEventSha256 with
        | some sha =>
            if sha ≠ "" && walk.latestHash.truthy && !walk.latestHash.pyEq (.str sha) then
              ["RED_EWJ_HISTORY_REWRITE: latest hash does not match newest event file"]
            else []
        | none => []
      let failures := walk.failures ++ sequence ++ latest
      return ⟨failures.isEmpty, eventFiles.length, walk.prevSeq, walk.latestHash,
        failures⟩

/-! ## Journals that verify -/

/-- The files are named and numbered in order. -/
def Numbered (files : List (String × Items)) : Prop :=
  ∀ (k : ℕ) (file : String × Items), files[k]? = some file →
    (∃ eventClass, file.1 = eventFilename k eventClass) ∧
      PyVal.item? file.2 "event_sequence" = some (.int k)

/-- The hash that an event carries is the hash of its contents. -/
def SealedEvent (host : Host) (file : String × Items) : Prop :=
  storedHash file.2 = .str (hashJournalEvent host (unsigned file.2))

/-- Every event links to the one before it, and the first one to anything. -/
def LinkedEvents (host : Host) (files : List (String × Items)) : Prop :=
  ∃ start, Chained (fun file => previousHash file.2) (fun file => storedHash file.2)
    (SealedEvent host) start files

def lastHash (files : List (String × Items)) : PyVal :=
  endHash (fun file => storedHash file.2) .none files

section Files

variable {host : Host} {files : List (String × Items)} {file : String × Items}

theorem numbered_concat_iff :
    Numbered (files ++ [file]) ↔
      Numbered files ∧ (∃ eventClass, file.1 = eventFilename files.length eventClass) ∧
        PyVal.item? file.2 "event_sequence" = some (.int files.length) := by
  constructor
  · intro h
    refine ⟨fun k other hk => h k other ?_, h files.length file ?_⟩
    · rw [List.getElem?_append_left (List.getElem?_eq_some_iff.mp hk).1]
      exact hk
    · exact List.getElem?_concat_length
  · rintro ⟨h, hfile⟩ k other hk
    rcases lt_or_ge k files.length with hlt | hge
    · rw [List.getElem?_append_left hlt] at hk
      exact h k other hk
    · rw [List.getElem?_append_right hge] at hk
      obtain ⟨hlength, hsame⟩ := List.getElem?_eq_some_iff.mp hk
      have hk' : k = files.length := by
        rw [List.length_singleton] at hlength
        omega
      subst hk'
      rw [← hsame]
      simpa using hfile

theorem linkedEvents_concat_iff :
    LinkedEvents host (files ++ [file]) ↔
      LinkedEvents host files ∧ SealedEvent host file ∧
        (files ≠ [] → previousHash file.2 = lastHash files) := by
  unfold LinkedEvents
  simp only [chained_concat]
  by_cases hempty : files = []
  · subst hempty
    constructor
    · rintro ⟨start, -, -, hsealed⟩
      exact ⟨⟨start, trivial⟩, hsealed, fun h => absurd rfl h⟩
    · rintro ⟨-, hsealed, -⟩
      exact ⟨previousHash file.2, trivial, rfl, hsealed⟩
  · have hlast (start : PyVal) :
        endHash (fun file => storedHash file.2) start files = lastHash files :=
      endHash_eq_of_ne_nil hempty start .none
    simp only [hlast]
    constructor
    · rintro ⟨start, hchained, hlink, hsealed⟩
      exact ⟨⟨start, hchained⟩, hsealed, fun _ => hlink⟩
    · rintro ⟨⟨start, hchained⟩, hsealed, hlink⟩
      exact ⟨start, hchained, hlink hempty, hsealed⟩

theorem lastHash_pyEq_self (hlinked : LinkedEvents host files) :
    (lastHash files).pyEq (lastHash files) = true := by
  rcases List.eq_nil_or_concat files with rfl | ⟨init, file, rfl⟩
  · rfl
  · rw [List.concat_eq_append] at hlinked ⊢
    obtain ⟨-, hsealed, -⟩ := linkedEvents_concat_iff.mp hlinked
    rw [lastHash, endHash_concat, hsealed, PyVal.pyEq_str_iff]

theorem visit_next
    (walk : Walk) (hseq : PyVal.item? file.2 "event_sequence" =
      some (.int (walk.prevSeq + 1)))
    (hsealed : SealedEvent host file)
    (hlink : walk.prevHash.truthy = true →
      (previousHash file.2).pyEq walk.prevHash = true) :
    walk.visit host file =
      .ok { failures := walk.failures
            prevHash := storedHash file.2
            prevSeq := walk.prevSeq + 1
            latestHash := storedHash file.2 } := by
  have hmatch : (storedHash file.2).pyEq
      (.str (hashJournalEvent host (unsigned file.2))) = true := by
    rw [hsealed, PyVal.pyEq_str_iff]
  have hbroken : (walk.prevHash.truthy &&
      !(previousHash file.2).pyEq walk.prevHash) = false := by
    cases htruthy : walk.prevHash.truthy with
    | false => rfl
    | true => rw [hlink htruthy, Bool.not_true, Bool.and_false]
  unfold Walk.visit
  simp only [hseq, Option.getD_some, Host.toInt, bind, Except.bind, pure, Except.pure,
    ne_eq, not_true_eq_false, if_false, hmatch, hbroken, if_true, List.append_nil,
    Bool.false_eq_true]

theorem walk_linked
    (hnumbered : Numbered files) (hlinked : LinkedEvents host files) :
    files.foldlM (Walk.visit host) {} =
      .ok { prevHash := lastHash files
            prevSeq := files.length - 1
            latestHash := lastHash files } := by
  induction files using List.reverseRecOn with
  | nil => rfl
  | append_singleton files file ih =>
      obtain ⟨hfiles, -, hseq⟩ := numbered_concat_iff.mp hnumbered
      obtain ⟨hchain, hsealed, hlink⟩ := linkedEvents_concat_iff.mp hlinked
      have hlast : lastHash (files ++ [file]) = storedHash file.2 :=
        endHash_concat _ _ _
      have hnext := visit_next
        ⟨[], lastHash files, files.length - 1, lastHash files⟩
        (by simpa using hseq) hsealed ?_
      · rw [List.foldlM_append, ih hfiles hchain, hlast]
        simp only [bind, Except.bind, List.foldlM_cons, List.foldlM_nil]
        rw [hnext]
        simp [pure, Except.pure]
      · intro htruthy
        by_cases hempty : files = []
        · subst hempty
          cases htruthy
        · rw [hlink hempty]
          exact lastHash_pyEq_self hchain

end Files

/-! ## Repositories that verify -/

/-- The event files are numbered and linked, and the chain file speaks of the last
one. -/
structure Sound (host : Host) (repo : Repo) : Prop where
  numbered : Numbered repo.listing
  linked : LinkedEvents host repo.listing
  bounded : repo.listing.length ≤ 10 ^ 6
  count : repo.readChain.eventCount = repo.listing.length
  sequence : repo.readChain.latestEventSequence = repo.listing.length - 1
  latest : repo.listing ≠ [] →
    .ofOption repo.readChain.latestEventSha256 = lastHash repo.listing

theorem verifyChain_of_sound {host : Host} {repo : Repo} (h : Sound host repo) :
    ∃ verification, verifyChain host repo = .ok verification ∧
      verification.ok = true := by
  cases hevents : repo.events with
  | none =>
      have hnone : repo.listing = [] := by
        rw [Repo.listing, hevents]
        rfl
      have hcount : ¬ repo.readChain.eventCount > 0 := by
        rw [h.count, hnone]
        exact lt_irrefl _
      refine ⟨⟨true, 0, -1, .none, []⟩, ?_, rfl⟩
      unfold verifyChain
      rw [hevents]
      simp only [if_neg hcount]
      rfl
  | some events =>
      refine ⟨⟨true, repo.listing.length, repo.listing.length - 1,
        lastHash repo.listing, []⟩, ?_, rfl⟩
      unfold verifyChain
      rw [hevents]
      simp only [h.count, h.sequence, ne_eq, not_true_eq_false, if_false]
      rw [walk_linked h.numbered h.linked]
      have hlatest : ∀ sha, repo.readChain.latestEventSha256 = some sha →
          (lastHash repo.listing).truthy = true →
            (lastHash repo.listing).pyEq (.str sha) = true := by
        intro sha hsha htruthy
        by_cases hempty : repo.listing = []
        · rw [hempty] at htruthy
          cases htruthy
        · have hlast := h.latest hempty
          rw [hsha] at hlast
          rw [PyVal.pyEq_str_iff, ← hlast]
          rfl
      cases hsha : repo.readChain.latestEventSha256 with
      | none => simp [bind, Except.bind, pure, Except.pure]
      | some sha =>
          cases htruthy : (lastHash repo.listing).truthy with
          | false => simp [bind, Except.bind, pure, Except.pure, htruthy]
          | true =>
              simp [bind, Except.bind, pure, Except.pure, htruthy,
                hlatest sha hsha htruthy]

end Hydrogenuine.WitnessJournal
