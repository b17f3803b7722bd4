import Hydrogenuine.Core.ReferenceHost
import Hydrogenuine.WitnessJournal.Schema

/-!
# The state history of a run

Embedding of `hg_core/task_graph/state_history.py`: the files of the history directory,
by name.  The states of a run are written as JSON, and are read back as they were.
-/

namespace Hydrogenuine.TaskGraph

open Support WitnessJournal

/-! ## The directory -/

/-- `json.dumps(run_state, indent=2)` and `json.loads` on the states of runs, and
`json.dumps` of an index entry. -/
structure StateJson (State : Type) where
  dumps : State → String
  loads : String → Option State
  loads_dumps : ∀ state, loads (dumps state) = some state
  dumpsEntry : List (String × PyVal) → String

abbrev HistoryFiles := Dict String String

/-- `f"state_{seq:06d}.json"`. -/
def stateName (seq : ℤ) : String :=
  String.ofList ("state_".toList ++ (sixDigits seq ++ ".json".toList))

def stateLatest : String := "state_latest.json"

/-- The name matches `state_*.json`. -/
def isStateName (name : String) : Bool :=
  startsWith name "state_" && endsWith name ".json" && decide (11 ≤ name.length)

/-- `hd.glob("state_*.json")`. -/
def HistoryFiles.stateNames (files : HistoryFiles) : List String :=
  (files.entries.map Prod.fst).filter isStateName

/-- `stem.split("_")[-1]` of a name that ends in `.json`. -/
def lastPart (name : String) : String :=
  String.ofList
    (((name.toList.take (name.length - 5)).reverse.takeWhile (· ≠ '_')).reverse)

def nextSeq (files : HistoryFiles) : ℤ :=
  let names := files.stateNames.insertionSort (· ≤ ·)
  match names.getLast? with
  | none => 1
  | some last =>
      match Hydrogenuine.Core.readInt (lastPart last) with
      | some seq => seq + 1
      | none => names.length + 1

/-! ## Writing and loading -/

structure SnapshotCall (State : Type) where
  runState : State
  reason : String
  nodeId : Option String
  eventIdx : Option ℤ
  time : PyFloat

structure IndexEntry where
  seq : ℤ
  ts : PyFloat
  reason : String
  statePath : String
  eventIdx : Option ℤ
  nodeId : Option String

def IndexEntry.toDict (entry : IndexEntry) : List (String × PyVal) :=
  [("seq", .int entry.seq), ("ts", .float entry.ts), ("reason", .str entry.reason),
    ("state_path", .str entry.statePath)] ++
    entry.eventIdx.toList.map (fun eventIdx => ("event_idx", .int eventIdx)) ++
    entry.nodeId.toList.map fun nodeId => ("node_id", .str nodeId)

section History

variable {State : Type} (json : StateJson State)

def writeSnapshot (files : HistoryFiles) (call : SnapshotCall State) :
    IndexEntry × HistoryFiles :=
  let seq := nextSeq files
  let name := stateName seq
  let files := files.set name (json.dumps call.runState)
  let entry : IndexEntry :=
    { seq := seq
      ts := call.time
      reason := call.reason
      statePath := "state_history/" ++ name
      eventIdx := call.eventIdx
      nodeId := call.nodeId }
  let files := files.set "index.jsonl"
    ((files.get? "index.jsonl").getD "" ++ json.dumpsEntry entry.toDict ++ "\n")
  (entry, files.set stateLatest (json.dumps call.runState))

def loadSnapshot (files : HistoryFiles) (seq : ℤ) : Option State :=
  (files.get? (stateName seq)).bind json.loads

def writeSnapshots (calls : List (SnapshotCall State)) : List IndexEntry × HistoryFiles :=
  calls.foldl
    (fun history call =>
      let (entry, files) := writeSnapshot json history.2 call
      (history.1 ++ [entry], files))
    ([], .empty)

variable {json}

/-! ## Names -/

theorem toList_stateName (n : ℕ) :
    (stateName n).toList = "state_".toList ++ (padded 6 n ++ ".json".toList) :=
  String.toList_ofList

theorem stateName_inj {m n : ℕ} (h : stateName m = stateName n) : m = n := by
  have hlists := congrArg String.toList h
  rw [toList_stateName, toList_stateName] at hlists
  have hdigits := List.append_cancel_right (List.append_cancel_left hlists)
  rw [← ofDigitChars_padded 6 m, hdigits, ofDigitChars_padded]

theorem six_le_length_padded (n : ℕ) : 6 ≤ (padded 6 n).length := by
  rw [padded, List.length_leftpad]
  exact le_max_left _ _

theorem stateName_lt_stateLatest (n : ℕ) : stateName n < stateLatest := by
  rw [String.lt_iff_toList_lt, toList_stateName]
  change _ < "state_".toList ++ "latest.json".toList
  refine List.append_left_lt ?_
  cases hdigits : padded 6 n with
  | nil =>
      have hlength := six_le_length_padded n
      rw [hdigits] at hlength
      cases hlength
  | cons digit digits =>
      obtain ⟨-, hdigit⟩ := digit_bounds
        (isDigit_of_mem_padded (hdigits ▸ List.mem_cons_self : digit ∈ padded 6 n))
      have h0 : '0'.toNat = 48 := rfl
      have hl : 'l'.toNat = 108 := rfl
      have hless : digit.toNat < 'l'.toNat := by omega
      exact List.cons_lt_cons_iff.mpr (Or.inl hless)

theorem isStateName_stateName (n : ℕ) : isStateName (stateName n) = true := by
  have hprefix : startsWith (stateName n) "state_" = true := by
    rw [startsWith, toList_stateName, List.isPrefixOf_iff_prefix]
    exact List.prefix_append _ _
  have hsuffix : endsWith (stateName n) ".json" = true := by
    rw [endsWith, toList_stateName, List.isSuffixOf_iff_suffix, ← List.append_assoc]
    exact List.suffix_append _ _
  have hlength : 11 ≤ (stateName n).length := by
    rw [← String.length_toList, toList_stateName, List.length_append, List.length_append]
    have hdigits := six_le_length_padded n
    have hends : "state_".toList.length = 6 ∧ ".json".toList.length = 5 := ⟨rfl, rfl⟩
    omega
  rw [isStateName, hprefix, hsuffix, decide_eq_true hlength]
  rfl

theorem stateNames_set (files : HistoryFiles) (name text : String) :
    HistoryFiles.stateNames (files.set name text) =
      if isStateName name ∧ name ∉ files.stateNames then files.stateNames ++ [name]
      else files.stateNames := by
  have hkeys : (files.set name text).entries.map Prod.fst = _ :=
    assignEntry_keys name text files.entries
  rw [HistoryFiles.stateNames, HistoryFiles.stateNames, hkeys]
  cases hname : isStateName name with
  | false => split_ifs <;> simp_all [List.filter_append]
  | true => split_ifs <;> simp_all [List.filter_append]

theorem getLast?_insertionSort {names : List String} {last : String} (hmem : last ∈ names)
    (hlast : ∀ name ∈ names, name ≤ last) :
    (names.insertionSort (· ≤ ·)).getLast? = some last := by
  have hin : last ∈ names.insertionSort (· ≤ ·) := (List.mem_insertionSort _).mpr hmem
  have hsorted := List.pairwise_insertionSort (· ≤ ·) names
  obtain ⟨front, back, hsplit⟩ :=
    (List.eq_nil_or_concat' _).resolve_left (List.ne_nil_of_mem hin)
  have hback : back ≤ last := by
    refine hlast back ((List.mem_insertionSort (· ≤ ·)).mp ?_)
    rw [hsplit]
    exact List.mem_append_right _ List.mem_cons_self
  rw [hsplit] at hin hsorted ⊢
  rw [List.getLast?_concat]
  rcases List.mem_append.mp hin with hfront | hlast'
  · have hle := (List.pairwise_append.mp hsorted).2.2 last hfront back List.mem_cons_self
    rw [hback.antisymm hle]
  · rw [List.mem_singleton.mp hlast']

/-! ## What is written -/

/-- The number that the call after `k` others writes under. -/
def seqAt : ℕ → ℕ
  | 0 => 1
  | k + 1 => k + 3

def namesAfter : ℕ → List String
  | 0 => []
  | k + 1 => stateName (seqAt 0) :: stateLatest ::
      (List.range k).map fun i => stateName (seqAt (i + 1))

theorem seqAt_injective : Function.Injective seqAt := by
  intro i j h
  cases i with
  | zero =>
      cases j with
      | zero => rfl
      | succ j => cases h
  | succ i =>
      cases j with
      | zero => cases h
      | succ j => exact congrArg Nat.succ (Nat.add_right_cancel h)

variable {files : HistoryFiles} {k : ℕ}

theorem mem_namesAfter {name : String} (h : name ∈ namesAfter k) :
    name = stateLatest ∨ ∃ i < k, name = stateName (seqAt i) := by
  cases k with
  | zero => cases h
  | succ k =>
      simp only [namesAfter, List.mem_cons, List.mem_map, List.mem_range] at h
      rcases h with rfl | rfl | ⟨i, hi, rfl⟩
      · exact Or.inr ⟨0, k.succ_pos, rfl⟩
      · exact Or.inl rfl
      · exact Or.inr ⟨i + 1, Nat.succ_lt_succ hi, rfl⟩

theorem nextSeq_eq (h : files.stateNames = namesAfter k) :
    nextSeq files = seqAt k := by
  unfold nextSeq
  rw [h]
  cases k with
  | zero => rfl
  | succ k =>
      have hlast : ((namesAfter (k + 1)).insertionSort (· ≤ ·)).getLast? =
          some stateLatest := by
        refine getLast?_insertionSort (List.mem_cons_of_mem _ List.mem_cons_self) ?_
        intro name hname
        rcases mem_namesAfter hname with rfl | ⟨i, -, rfl⟩
        · exact le_rfl
        · exact (stateName_lt_stateLatest (seqAt i)).le
      have hnone : Hydrogenuine.Core.readInt (lastPart stateLatest) = none := by decide +kernel
      have hlength : (namesAfter (k + 1)).length = k + 2 := by simp [namesAfter]
      simp only [hlast, hnone, List.length_insertionSort, hlength]
      rfl

theorem writeSnapshot_seq (files : HistoryFiles) (call : SnapshotCall State) :
    (writeSnapshot json files call).1.seq = nextSeq files := rfl

theorem stateNames_writeSnapshot
    (h : files.stateNames = namesAfter k) (call : SnapshotCall State) :
    (writeSnapshot json files call).2.stateNames = namesAfter (k + 1) := by
  have hfresh : stateName (seqAt k) ∉ namesAfter k := by
    intro hin
    rcases mem_namesAfter hin with hlatest | ⟨i, hi, hsame⟩
    · exact (stateName_lt_stateLatest (seqAt k)).ne hlatest
    · exact hi.ne' (seqAt_injective (stateName_inj hsame))
  have hindex : isStateName "index.jsonl" = false := by decide
  have hlatest : isStateName stateLatest = true := by decide
  simp only [writeSnapshot, nextSeq_eq h, stateNames_set, h, isStateName_stateName, hindex,
    hlatest, hfresh, not_false_eq_true, and_self, true_and, if_true, Bool.false_eq_true,
    false_and, if_false, List.mem_append, List.mem_singleton,
    (stateName_lt_stateLatest (seqAt k)).ne', or_false]
  cases k with
  | zero => rfl
  | succ k => simp [namesAfter, List.range_succ]

theorem writeSnapshots_concat (calls : List (SnapshotCall State)) (call : SnapshotCall State) :
    writeSnapshots json (calls ++ [call]) =
      let history := writeSnapshots json calls
      let after := writeSnapshot json history.2 call
      (history.1 ++ [after.1], after.2) := by
  rw [writeSnapshots, List.foldl_concat]
  rfl

theorem loadSnapshot_writeSnapshot
    (h : files.stateNames = namesAfter k) (call : SnapshotCall State) (n : ℕ) :
    loadSnapshot json (writeSnapshot json files call).2 n =
      if n = seqAt k then some call.runState else loadSnapshot json files n := by
  have hindex : stateName n ≠ "index.jsonl" := by
    intro hname
    have hstate := isStateName_stateName n
    rw [hname] at hstate
    exact absurd hstate (by decide)
  simp only [loadSnapshot, writeSnapshot, nextSeq_eq h]
  rw [Dict.get?_set_of_ne _ _ (stateName_lt_stateLatest n).ne,
    Dict.get?_set_of_ne _ _ hindex, Dict.get?_set]
  by_cases hseq : n = seqAt k
  · rw [hseq, if_pos rfl, if_pos rfl, Option.bind_some, json.loads_dumps]
  · rw [if_neg (fun hname => hseq (stateName_inj hname)), if_neg hseq]

/-- The entry is that of one of the first `k` calls, and its number loads the state. -/
def Loads (json : StateJson State) (files : HistoryFiles) (k : ℕ) (call : SnapshotCall State)
    (entry : IndexEntry) : Prop :=
  ∃ i < k, entry.seq = seqAt i ∧ loadSnapshot json files (seqAt i) = some call.runState

theorem writeSnapshots_spec (json : StateJson State) (calls : List (SnapshotCall State)) :
    (writeSnapshots json calls).2.stateNames = namesAfter calls.length ∧
      (writeSnapshots json calls).1.map IndexEntry.seq =
        (List.range calls.length).map (fun i => (seqAt i : ℤ)) ∧
      List.Forall₂ (Loads json (writeSnapshots json calls).2 calls.length) calls
        (writeSnapshots json calls).1 := by
  induction calls using List.reverseRecOn with
  | nil => exact ⟨rfl, rfl, .nil⟩
  | append_singleton calls call ih =>
      rw [writeSnapshots_concat, List.length_append, List.length_singleton]
      generalize writeSnapshots json calls = history at ih
      obtain ⟨hnames, hseqs, hloads⟩ := ih
      have hseq : (writeSnapshot json history.2 call).1.seq = seqAt calls.length :=
        (writeSnapshot_seq history.2 call).trans (nextSeq_eq hnames)
      refine ⟨stateNames_writeSnapshot hnames call, ?_, ?_⟩
      · rw [List.map_append, hseqs, List.map_singleton, hseq, List.range_succ, List.map_append,
          List.map_singleton]
      · refine List.rel_append (hloads.imp ?_) (.cons ⟨_, Nat.lt_succ_self _, hseq, ?_⟩ .nil)
        · rintro earlier entry ⟨i, hi, hentry, hload⟩
          refine ⟨i, hi.trans (Nat.lt_succ_self _), hentry, ?_⟩
          rw [loadSnapshot_writeSnapshot hnames, if_neg (fun h => hi.ne (seqAt_injective h)),
            hload]
        · rw [loadSnapshot_writeSnapshot hnames, if_pos rfl]

end History

end Hydrogenuine.TaskGraph
