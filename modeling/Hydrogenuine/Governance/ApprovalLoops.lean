import Hydrogenuine.Ledger.Writer

/-!
# Closed approval loops

Embedding of `hg_core/governance/independence.py`: the approval graph that is read
from the ledger, and the check of a requester and an approver against it.

The graph keeps one proposer and one approver for each action, the last ones that
the ledger names.  A loop of two identities is therefore found as long as no other
proposal and no other approval of its actions follows.
-/

namespace Hydrogenuine.Governance

open Support Hydrogenuine.Core Ledger

/-! ## Keys of dictionaries and sets -/

/-- What a value is as a key. -/
inductive HashKey where
  | null
  | number (q : ℚ)
  | infinite (negative : Bool)
  | text (s : String)
deriving DecidableEq

def unhashable (typeName : String) : PyError :=
  .typeError ("unhashable type: '" ++ typeName ++ "'")

/-- The key that a value is.  Nothing is ever found again under NaN, which is not
equal to itself. -/
def hashKey : PyVal → Except PyError (Option HashKey)
  | .none => .ok (some .null)
  | .bool b => .ok (some (.number (if b then 1 else 0)))
  | .int n => .ok (some (.number n))
  | .float (.finite q _) => .ok (some (.number q))
  | .float (.inf negative) => .ok (some (.infinite negative))
  | .float .nan => .ok none
  | .str s => .ok (some (.text s))
  | .list _ => .error (unhashable "list")
  | .dict _ => .error (unhashable "dict")

theorem hashKey_eq_text_iff {v : PyVal} {s : String} :
    hashKey v = .ok (some (.text s)) ↔ v = .str s := by
  cases v with
  | float x => cases x <;> simp [hashKey]
  | _ => simp [hashKey]

/-! ## The approval graph -/

/-- What an event tells of an action. -/
inductive Note where
  | proposed (action : HashKey) (agent : PyVal)
  | approved (action : HashKey) (agent : PyVal)

def Note.proposal? : Note → Option (HashKey × PyVal)
  | .proposed action agent => some (action, agent)
  | .approved _ _ => none

def Note.approval? : Note → Option (HashKey × PyVal)
  | .proposed _ _ => none
  | .approved action agent => some (action, agent)

/-- `ev.get(k) or {}`, as something that has a `get`. -/
def itemsOr (event : LedgerEvent) (k : String) :
    Except PyError (List (String × PyVal)) :=
  let value := PyVal.getItem event k
  if value.truthy then
    match value with
    | .dict items => .ok items
    | _ => .error (.attributeError "get")
  else .ok []

def noteOf (event : LedgerEvent) : Except PyError (Option Note) := do
  let payload ← itemsOr event "payload"
  let actor ← itemsOr event "actor"
  let aid := PyVal.getItem payload "action_id"
  let agentId := PyVal.getItem actor "agent_id"
  let agent := if agentId.truthy then agentId else .str ""
  let action := PyVal.getItem event "action"
  if action.pyEq (.str "ACTION_PROPOSED") && aid.truthy then
    return (← hashKey aid).map fun k => .proposed k agent
  else if action.pyEq (.str "ACTION_APPROVAL_GRANTED") && aid.truthy &&
      agent.truthy then
    return (← hashKey aid).map fun k => .approved k agent
  else return none

def eventNotes : List LedgerEvent → Except PyError (List Note)
  | [] => .ok []
  | event :: rest => do
      let note ← noteOf event
      let notes ← eventNotes rest
      return note.toList ++ notes

/-- The events of `iter_events_by_scope`, read one after the other. -/
def iterNotes (files : Files) : List ScopeFile → Except PyError (List Note)
  | [] => .ok []
  | file :: rest => do
      let events ← readFile files file.path
      let notes ← eventNotes events
      let more ← iterNotes files rest
      return notes ++ more

/-- The proposer and the approver of each action. -/
structure ApprovalGraph where
  proposer : Dict HashKey PyVal := .empty
  approver : Dict HashKey PyVal := .empty

def ApprovalGraph.record (graph : ApprovalGraph) : Note → ApprovalGraph
  | .proposed action agent =>
      { graph with proposer := graph.proposer.set action agent }
  | .approved action agent =>
      { graph with approver := graph.approver.set action agent }

def approvalGraph (files : Files) : Except PyError ApprovalGraph := do
  let notes ← iterNotes files (iterScopePaths files)
  return notes.foldl ApprovalGraph.record {}

/-! ## The check -/

abbrev ApprovedFor := Dict HashKey (List HashKey)

/-- One action of `approver.items()`. -/
def ApprovalGraph.addEdge
    (graph : ApprovalGraph) (edges : ApprovedFor) (entry : HashKey × PyVal) :
    Except PyError ApprovedFor := do
  let prop := (graph.proposer.get? entry.1).getD .none
  if prop.truthy then
    let app ← hashKey entry.2
    let prop ← hashKey prop
    match app with
    | some app =>
        return edges.set app ((edges.get? app).getD [] ++ prop.toList)
    | none => return edges
  else return edges

def ApprovalGraph.addEdges (graph : ApprovalGraph) (edges : ApprovedFor) :
    List (HashKey × PyVal) → Except PyError ApprovedFor
  | [] => .ok edges
  | entry :: rest => do
      let edges ← graph.addEdge edges entry
      graph.addEdges edges rest

def ApprovalGraph.approvedFor (graph : ApprovalGraph) :
    Except PyError ApprovedFor :=
  graph.addEdges .empty graph.approver.entries

/-- `proposer_id in approved_for.get(approver_id, set())`. -/
def hasApprovedFor (edges : ApprovedFor) (approverId proposerId : String) : Bool :=
  ((edges.get? (.text approverId)).getD []).contains (.text proposerId)

def checkClosedLoop (files : Files) (requesterId approverId : String) :
    Except PyError Bool :=
  if requesterId = "" ∨ approverId = "" ∨ requesterId = approverId then .ok true
  else do
    let graph ← approvalGraph files
    let edges ← graph.approvedFor
    return hasApprovedFor edges approverId requesterId &&
      hasApprovedFor edges requesterId approverId

/-! ## What the ledger tells -/

/-- The events of the scope files in the order in which they are read. -/
def eventsIn (files : Files) : List LedgerEvent :=
  (iterScopePaths files).flatMap fun file =>
    (lookupEntry file.path files).getD []

def told (event : LedgerEvent) : Option Note :=
  match noteOf event with
  | .ok note => note
  | .error _ => none

def notesIn (files : Files) : List Note := (eventsIn files).filterMap told

def proposals (notes : List Note) : List (HashKey × PyVal) :=
  notes.filterMap Note.proposal?

def approvals (notes : List Note) : List (HashKey × PyVal) :=
  notes.filterMap Note.approval?

/-- The ledger can be read: each name of a ledger is a file, the payload and the
actor of each event are objects, and the id of each action can be a key. -/
structure Readable (files : Files) : Prop where
  opened : ∀ file ∈ iterScopePaths files,
    ∃ events, lookupEntry file.path files = some events
  noted : ∀ event ∈ eventsIn files, ∃ note, noteOf event = .ok note

/-- Each of the two approved an action that the other one proposed. -/
def ClosedLoop (notes : List Note) (a b : String) : Prop :=
  (∃ x, .proposed x (.str a) ∈ notes ∧ .approved x (.str b) ∈ notes) ∧
    ∃ y, .proposed y (.str b) ∈ notes ∧ .approved y (.str a) ∈ notes

/-- The last proposal of some action is by the one, and its last approval by the
other. -/
def Stands (notes : List Note) (proposer approver : String) : Prop :=
  ∃ x, Dict.LastIn (proposals notes) x (.str proposer) ∧
    Dict.LastIn (approvals notes) x (.str approver)

def IdentitiesHashable (notes : List Note) : Prop :=
  ∀ x prop app, Dict.LastIn (proposals notes) x prop →
    Dict.LastIn (approvals notes) x app → prop.truthy = true →
      (∃ k, hashKey app = .ok k) ∧ ∃ k, hashKey prop = .ok k

theorem eventNotes_ok_iff {events : List LedgerEvent} {notes : List Note} :
    eventNotes events = .ok notes ↔
      (∀ event ∈ events, ∃ note, noteOf event = .ok note) ∧
        notes = events.filterMap told := by
  induction events generalizing notes with
  | nil => simp [eventNotes, eq_comm]
  | cons event rest ih =>
      rw [eventNotes, List.forall_mem_cons]
      cases hnote : noteOf event with
      | error err =>
          constructor
          · intro h
            cases h
          · rintro ⟨⟨⟨note, h⟩, -⟩, -⟩
            cases h
      | ok note =>
          have hrest : (event :: rest).filterMap told =
              note.toList ++ rest.filterMap told := by
            rw [List.filterMap_cons, told, hnote]
            cases note with
            | none => rfl
            | some note => rfl
          rw [hrest]
          cases hnotes : eventNotes rest with
          | error err =>
              constructor
              · intro h
                cases h
              · rintro ⟨⟨-, hall⟩, -⟩
                rw [ih.mpr ⟨hall, rfl⟩] at hnotes
                cases hnotes
          | ok more =>
              obtain ⟨hall, rfl⟩ := ih.mp hnotes
              constructor
              · intro h
                exact ⟨⟨⟨note, rfl⟩, hall⟩, (Except.ok.inj h).symm⟩
              · rintro ⟨-, rfl⟩
                rfl

variable {files : Files}

theorem readFile_ok_iff {path : LedgerPath}
    {events : List LedgerEvent} :
    readFile files path = .ok events ↔ lookupEntry path files = some events := by
  unfold readFile
  cases lookupEntry path files with
  | none => simp
  | some found => simp

theorem iterNotes_ok_iff {paths : List ScopeFile}
    {notes : List Note} :
    iterNotes files paths = .ok notes ↔
      (∀ file ∈ paths, ∃ events, lookupEntry file.path files = some events) ∧
      (∀ event ∈ paths.flatMap fun file =>
        (lookupEntry file.path files).getD [], ∃ note, noteOf event = .ok note) ∧
      notes = (paths.flatMap fun file =>
        (lookupEntry file.path files).getD []).filterMap told := by
  induction paths generalizing notes with
  | nil => simp [iterNotes, eq_comm]
  | cons file rest ih =>
      rw [iterNotes, List.forall_mem_cons, List.flatMap_cons,
        List.forall_mem_append, List.filterMap_append]
      cases hread : lookupEntry file.path files with
      | none =>
          have herror : readFile files file.path =
              .error (.osError "is a directory") := by
            rw [readFile, hread]
          rw [herror]
          constructor
          · intro h
            cases h
          · rintro ⟨⟨⟨events, h⟩, -⟩, -⟩
            cases h
      | some events =>
          rw [readFile_ok_iff.mpr hread, Option.getD_some]
          cases hnotes : eventNotes events with
          | error err =>
              constructor
              · intro h
                simp [bind, Except.bind, hnotes] at h
              · rintro ⟨-, ⟨hevents, -⟩, -⟩
                rw [eventNotes_ok_iff.mpr ⟨hevents, rfl⟩] at hnotes
                cases hnotes
          | ok first =>
              obtain ⟨hevents, rfl⟩ := eventNotes_ok_iff.mp hnotes
              cases hmore : iterNotes files rest with
              | error err =>
                  constructor
                  · intro h
                    simp [bind, Except.bind, hnotes] at h
                  · rintro ⟨⟨-, hopened⟩, ⟨-, hnoted⟩, -⟩
                    rw [ih.mpr ⟨hopened, hnoted, rfl⟩] at hmore
                    cases hmore
              | ok more =>
                  obtain ⟨hopened, hnoted, rfl⟩ := ih.mp hmore
                  constructor
                  · intro h
                    simp only [bind, Except.bind, hnotes, pure, Except.pure,
                      Except.ok.injEq] at h
                    exact ⟨⟨⟨events, rfl⟩, hopened⟩, ⟨hevents, hnoted⟩, h.symm⟩
                  · rintro ⟨-, -, rfl⟩
                    simp only [bind, Except.bind, hnotes, pure, Except.pure]

/-! ## The graph -/

theorem foldl_record (notes : List Note) (graph : ApprovalGraph) :
    (notes.foldl ApprovalGraph.record graph).proposer =
        (proposals notes).foldl (fun d entry => d.set entry.1 entry.2)
          graph.proposer ∧
      (notes.foldl ApprovalGraph.record graph).approver =
        (approvals notes).foldl (fun d entry => d.set entry.1 entry.2)
          graph.approver := by
  induction notes generalizing graph with
  | nil => exact ⟨rfl, rfl⟩
  | cons note notes ih =>
      cases note with
      | proposed action agent => exact ih _
      | approved action agent => exact ih _

theorem get?_record (notes : List Note) (x : HashKey) (agent : PyVal) :
    ((notes.foldl ApprovalGraph.record {}).proposer.get? x = some agent ↔
        Dict.LastIn (proposals notes) x agent) ∧
      ((notes.foldl ApprovalGraph.record {}).approver.get? x = some agent ↔
        Dict.LastIn (approvals notes) x agent) := by
  obtain ⟨hproposer, happrover⟩ := foldl_record notes {}
  rw [hproposer, happrover]
  exact ⟨Dict.get?_ofList_iff _ x agent, Dict.get?_ofList_iff _ x agent⟩

theorem approvalGraph_ok_iff {graph : ApprovalGraph} :
    approvalGraph files = .ok graph ↔
      Readable files ∧ graph = (notesIn files).foldl ApprovalGraph.record {} := by
  unfold approvalGraph
  cases hnotes : iterNotes files (iterScopePaths files) with
  | error err =>
      constructor
      · intro h
        cases h
      · rintro ⟨⟨hopened, hnoted⟩, -⟩
        rw [iterNotes_ok_iff.mpr ⟨hopened, hnoted, rfl⟩] at hnotes
        cases hnotes
  | ok notes =>
      obtain ⟨hopened, hnoted, rfl⟩ := iterNotes_ok_iff.mp hnotes
      constructor
      · intro h
        exact ⟨⟨hopened, hnoted⟩, (Except.ok.inj h).symm⟩
      · rintro ⟨-, rfl⟩
        rfl

/-! ## The edges -/

/-- An edge of the graph: an action that the one proposed and the other approved. -/
def ApprovalGraph.Edge (graph : ApprovalGraph) (approver proposer : String) :
    Prop :=
  ∃ x, graph.approver.get? x = some (.str approver) ∧
    graph.proposer.get? x = some (.str proposer)

section Edges

variable {graph : ApprovalGraph}

/-- The identities of an entry can be keys, or its action has no proposer. -/
def ApprovalGraph.EntryHashable (graph : ApprovalGraph)
    (entry : HashKey × PyVal) : Prop :=
  ∀ prop, graph.proposer.get? entry.1 = some prop → prop.truthy = true →
    (∃ k, hashKey entry.2 = .ok k) ∧ ∃ k, hashKey prop = .ok k

/-- The entry is an approval by the one of what the other proposed. -/
def ApprovalGraph.Links (graph : ApprovalGraph) (entry : HashKey × PyVal)
    (approver proposer : String) : Prop :=
  entry.2 = .str approver ∧ graph.proposer.get? entry.1 = some (.str proposer)

def withEdge (edges : ApprovedFor) (app prop : Option HashKey) : ApprovedFor :=
  match app with
  | some app => edges.set app ((edges.get? app).getD [] ++ prop.toList)
  | none => edges

variable {edges edges' : ApprovedFor} {entry : HashKey × PyVal} {a p : String}

/-- What one entry does: nothing without a proposer, and otherwise one more edge if
both identities can be keys. -/
theorem addEdge_ok_iff :
    graph.addEdge edges entry = .ok edges' ↔
      (((graph.proposer.get? entry.1).getD .none).truthy = false ∧
        edges = edges') ∨
      ∃ prop app k, graph.proposer.get? entry.1 = some prop ∧
        prop.truthy = true ∧ hashKey entry.2 = .ok app ∧
        hashKey prop = .ok k ∧ withEdge edges app k = edges' := by
  unfold ApprovalGraph.addEdge
  cases hprop : graph.proposer.get? entry.1 with
  | none =>
      rw [Option.getD_none, if_neg (by decide)]
      simp [pure, Except.pure, PyVal.truthy]
  | some prop =>
      rw [Option.getD_some]
      by_cases htruthy : prop.truthy = true
      · rw [if_pos htruthy]
        cases happ : hashKey entry.2 with
        | error err => simp [bind, Except.bind, htruthy]
        | ok app =>
            cases hk : hashKey prop with
            | error err => simp [bind, Except.bind, htruthy, hk]
            | ok k =>
                cases app with
                | none =>
                    simp [bind, Except.bind, pure, Except.pure, htruthy, hk,
                      withEdge]
                | some app =>
                    simp [bind, Except.bind, pure, Except.pure, htruthy, hk,
                      withEdge]
      · rw [if_neg htruthy]
        simp [pure, Except.pure, htruthy]

theorem exists_addEdge_iff (edges : ApprovedFor) :
    (∃ edges', graph.addEdge edges entry = .ok edges') ↔
      graph.EntryHashable entry := by
  constructor
  · rintro ⟨edges', hadd⟩ prop hprop htruthy
    rcases addEdge_ok_iff.mp hadd with
      ⟨hfalsy, -⟩ | ⟨prop', app, k, hprop', -, happ, hk, -⟩
    · rw [hprop, Option.getD_some, htruthy] at hfalsy
      cases hfalsy
    · obtain rfl := Option.some.inj (hprop.symm.trans hprop')
      exact ⟨⟨app, happ⟩, k, hk⟩
  · intro hentry
    cases hprop : graph.proposer.get? entry.1 with
    | none =>
        exact ⟨edges, addEdge_ok_iff.mpr (Or.inl ⟨by rw [hprop]; rfl, rfl⟩)⟩
    | some prop =>
        by_cases htruthy : prop.truthy = true
        · obtain ⟨⟨app, happ⟩, k, hk⟩ := hentry prop hprop htruthy
          exact ⟨_, addEdge_ok_iff.mpr
            (Or.inr ⟨prop, app, k, hprop, htruthy, happ, hk, rfl⟩)⟩
        · rw [Bool.not_eq_true] at htruthy
          exact ⟨edges, addEdge_ok_iff.mpr
            (Or.inl ⟨by rw [hprop]; exact htruthy, rfl⟩)⟩

theorem hasApprovedFor_withEdge
    (edges : ApprovedFor) (app prop : Option HashKey) (a p : String) :
    hasApprovedFor (withEdge edges app prop) a p = true ↔
      hasApprovedFor edges a p = true ∨
        (app = some (.text a) ∧ prop = some (.text p)) := by
  cases app with
  | none => simp [withEdge]
  | some app =>
      unfold hasApprovedFor
      rw [withEdge, Dict.get?_set]
      by_cases happ : HashKey.text a = app
      · subst happ
        cases prop with
        | none => simp
        | some prop => simp [eq_comm (a := prop)]
      · simp [happ, Ne.symm happ]

theorem hasApprovedFor_addEdge (hadd : graph.addEdge edges entry = .ok edges') (hp : p ≠ "") :
    hasApprovedFor edges' a p = true ↔
      hasApprovedFor edges a p = true ∨ graph.Links entry a p := by
  have htext : (PyVal.str p).truthy = true := bne_iff_ne.mpr hp
  rcases addEdge_ok_iff.mp hadd with
    ⟨hfalsy, rfl⟩ | ⟨prop, app, k, hprop, -, happ, hk, rfl⟩
  · refine (or_iff_left ?_).symm
    rintro ⟨-, hproposer⟩
    rw [hproposer, Option.getD_some, htext] at hfalsy
    cases hfalsy
  · rw [hasApprovedFor_withEdge]
    refine or_congr_right (and_congr ?_ ?_)
    · rw [← hashKey_eq_text_iff, happ, Except.ok.injEq]
    · rw [hprop, Option.some.injEq, ← hashKey_eq_text_iff, hk, Except.ok.injEq]

theorem exists_addEdges_iff {entries : List (HashKey × PyVal)}
    {edges : ApprovedFor} :
    (∃ edges', graph.addEdges edges entries = .ok edges') ↔
      ∀ entry ∈ entries, graph.EntryHashable entry := by
  induction entries generalizing edges with
  | nil => simp [ApprovalGraph.addEdges]
  | cons entry rest ih =>
      rw [ApprovalGraph.addEdges, List.forall_mem_cons,
        ← exists_addEdge_iff edges]
      cases hadd : graph.addEdge edges entry with
      | error err => simp [bind, Except.bind]
      | ok edges' => simpa [bind, Except.bind] using ih

theorem hasApprovedFor_addEdges {entries : List (HashKey × PyVal)}
    (hadd : graph.addEdges edges entries = .ok edges') (hp : p ≠ "") :
    hasApprovedFor edges' a p = true ↔
      hasApprovedFor edges a p = true ∨ ∃ entry ∈ entries, graph.Links entry a p := by
  induction entries generalizing edges with
  | nil =>
      obtain rfl := Except.ok.inj hadd
      simp
  | cons entry rest ih =>
      rw [ApprovalGraph.addEdges] at hadd
      cases hfirst : graph.addEdge edges entry with
      | error err =>
          rw [hfirst] at hadd
          cases hadd
      | ok next =>
          rw [hfirst] at hadd
          rw [ih hadd, hasApprovedFor_addEdge hfirst hp, List.exists_mem_cons_iff,
            or_assoc]

theorem hasApprovedFor_iff_edge {edges : ApprovedFor}
    (hedges : graph.approvedFor = .ok edges) (hp : p ≠ "") :
    hasApprovedFor edges a p = true ↔ graph.Edge a p := by
  rw [hasApprovedFor_addEdges hedges hp]
  constructor
  · rintro (hnone | ⟨⟨x, app⟩, hmem, rfl, hproposer⟩)
    · cases hnone
    · exact ⟨x, (Dict.mem_entries_iff _).mp hmem, hproposer⟩
  · rintro ⟨x, happrover, hproposer⟩
    exact Or.inr ⟨(x, .str a), (Dict.mem_entries_iff _).mpr happrover, rfl,
      hproposer⟩

end Edges

/-! ## Loops that are found -/

section Loops

variable {files : Files}

theorem edge_iff_stands (notes : List Note) (a p : String) :
    (notes.foldl ApprovalGraph.record {}).Edge a p ↔ Stands notes p a := by
  constructor
  · rintro ⟨x, happrover, hproposer⟩
    exact ⟨x, (get?_record notes x _).1.mp hproposer,
      (get?_record notes x _).2.mp happrover⟩
  · rintro ⟨x, hproposer, happrover⟩
    exact ⟨x, (get?_record notes x _).2.mpr happrover,
      (get?_record notes x _).1.mpr hproposer⟩

theorem exists_approvedFor_iff (notes : List Note) :
    (∃ edges, (notes.foldl ApprovalGraph.record {}).approvedFor = .ok edges) ↔
      IdentitiesHashable notes := by
  rw [ApprovalGraph.approvedFor, exists_addEdges_iff]
  constructor
  · intro hall x prop app hprop happ htruthy
    exact hall (x, app)
      ((Dict.mem_entries_iff _).mpr ((get?_record notes x app).2.mpr happ)) prop
      ((get?_record notes x prop).1.mpr hprop) htruthy
  · rintro hall ⟨x, app⟩ hmem prop hprop htruthy
    exact hall x prop app ((get?_record notes x prop).1.mp hprop)
      ((get?_record notes x app).2.mp ((Dict.mem_entries_iff _).mp hmem)) htruthy

/-- The check of two identities: it answers when the ledger can be read and the
identities can be keys, and it finds the loop that the last proposals and approvals
make. -/
theorem checkClosedLoop_iff {a b : String} (ha : a ≠ "") (hb : b ≠ "")
    (hab : a ≠ b) :
    checkClosedLoop files a b = .ok true ↔
      Readable files ∧ IdentitiesHashable (notesIn files) ∧
        Stands (notesIn files) a b ∧ Stands (notesIn files) b a := by
  unfold checkClosedLoop
  rw [if_neg (by simp [ha, hb, hab])]
  constructor
  · intro hcheck
    cases hgraph : approvalGraph files with
    | error err =>
        rw [hgraph] at hcheck
        cases hcheck
    | ok graph =>
        obtain ⟨hreadable, rfl⟩ := approvalGraph_ok_iff.mp hgraph
        rw [hgraph] at hcheck
        cases hedges : ((notesIn files).foldl ApprovalGraph.record
            {}).approvedFor with
        | error err => simp [bind, Except.bind, hedges] at hcheck
        | ok edges =>
            simp only [bind, Except.bind, hedges, pure, Except.pure,
              Except.ok.injEq, Bool.and_eq_true] at hcheck
            rw [hasApprovedFor_iff_edge hedges ha, hasApprovedFor_iff_edge hedges hb,
              edge_iff_stands, edge_iff_stands] at hcheck
            exact ⟨hreadable, (exists_approvedFor_iff _).mp ⟨edges, hedges⟩,
              hcheck⟩
  · rintro ⟨hreadable, hhashable, hstands⟩
    obtain ⟨edges, hedges⟩ := (exists_approvedFor_iff _).mpr hhashable
    rw [approvalGraph_ok_iff.mpr ⟨hreadable, rfl⟩]
    simp only [bind, Except.bind, hedges, pure, Except.pure, Except.ok.injEq,
      Bool.and_eq_true]
    rw [hasApprovedFor_iff_edge hedges ha, hasApprovedFor_iff_edge hedges hb,
      edge_iff_stands, edge_iff_stands]
    exact hstands

/-- A closed loop is found if and only if one of the identities is empty, or the
ledger can be read and the loop also stands in the last proposals and approvals. -/
theorem closedLoop_found_iff (files : Files) (requester approver : String) :
    ((requester = approver ∨ ClosedLoop (notesIn files) requester approver) →
        checkClosedLoop files requester approver = .ok true) ↔
      requester = approver ∨ requester = "" ∨ approver = "" ∨
        (ClosedLoop (notesIn files) requester approver →
          Readable files ∧ IdentitiesHashable (notesIn files) ∧
            Stands (notesIn files) requester approver ∧
            Stands (notesIn files) approver requester) := by
  by_cases hsame : requester = "" ∨ approver = "" ∨ requester = approver
  · have hfound : checkClosedLoop files requester approver = .ok true :=
      if_pos hsame
    simp only [hfound, implies_true, true_iff]
    tauto
  · obtain ⟨hrequester, happrover, hne⟩ :
        requester ≠ "" ∧ approver ≠ "" ∧ requester ≠ approver := by
      tauto
    rw [checkClosedLoop_iff hrequester happrover hne]
    simp only [hrequester, happrover, hne, false_or]

end Loops

def actionEvent (action actionId agentId : String) : LedgerEvent :=
  [("action", .str action), ("payload", .dict [("action_id", .str actionId)]),
    ("actor", .dict [("agent_id", .str agentId)])]

def scopeLedger (events : List LedgerEvent) : Files :=
  [(⟨false, ["global", "default.jsonl"]⟩, events)]

def ringEvents : List LedgerEvent :=
  [actionEvent "ACTION_PROPOSED" "c1" "x",
    actionEvent "ACTION_APPROVAL_GRANTED" "c1" "y",
    actionEvent "ACTION_PROPOSED" "c2" "y",
    actionEvent "ACTION_APPROVAL_GRANTED" "c2" "x"]

def reviewedLedger : Files :=
  scopeLedger (ringEvents ++ [actionEvent "ACTION_APPROVAL_GRANTED" "c1" "z"])

theorem notesIn_reviewedLedger :
    notesIn reviewedLedger =
      [.proposed (.text "c1") (.str "x"), .approved (.text "c1") (.str "y"),
        .proposed (.text "c2") (.str "y"), .approved (.text "c2") (.str "x"),
        .approved (.text "c1") (.str "z")] := by
  rfl

/-- A loop is found until another reviewer approves one of its actions. -/
theorem review_hides_loop :
    checkClosedLoop (scopeLedger ringEvents) "x" "y" = .ok true ∧
      ¬∀ files requester approver,
        requester = approver ∨
            ClosedLoop (notesIn files) requester approver →
          checkClosedLoop files requester approver = .ok true := by
  constructor
  · rfl
  · intro hclaim
    have hloop : ClosedLoop (notesIn reviewedLedger) "x" "y" := by
      rw [notesIn_reviewedLedger]
      exact ⟨⟨.text "c1", by simp⟩, .text "c2", by simp⟩
    have hfound := hclaim reviewedLedger "x" "y" (Or.inr hloop)
    have hmissed : checkClosedLoop reviewedLedger "x" "y" = .ok false := rfl
    rw [hmissed] at hfound
    cases hfound

end Hydrogenuine.Governance
