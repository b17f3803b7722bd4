import Hydrogenuine.Core.Host

/-!
# The handler contract

Embedding of what handlers use of `hg_runtime/contract.py`: they receive events
and return drafts, and only the loop turns drafts into events by giving each an
id.  Reading a draft payload back is reading the dictionary it was built from,
so payloads are kept as dictionaries.
-/

namespace Hydrogenuine.Runtime

open Support Hydrogenuine.Core

/-- What `draft` returns. -/
structure Draft where
  type : String
  payload : List (String × PyVal)
  causalParents : List String
  severity : Option ℤ := none

/-- An event on the bus, as far as handlers read it. -/
structure Event where
  eventId : String
  type : String
  payload : List (String × PyVal)
  causalParents : List String
  severity : Option ℤ

def Draft.emitted (draft : Draft) (eventId : String) : Event where
  eventId := eventId
  type := draft.type
  payload := draft.payload
  causalParents := draft.causalParents
  severity := draft.severity

/-- `_emit_drafts`: the bus gives out one id after the other. -/
def emitDrafts (eventIds : ℕ → String) : ℕ → List Draft → List Event
  | _, [] => []
  | n, draft :: drafts =>
      draft.emitted (eventIds n) :: emitDrafts eventIds (n + 1) drafts

/-- The dictionary that `dict(d.get(k, {}))` copies.  Only a dictionary can
stand there. -/
def copyItems
    (items : List (String × PyVal)) (k : String) :
    Except PyError (List (String × PyVal)) :=
  match PyVal.item? items k with
  | none => .ok []
  | some (.dict copied) => .ok copied
  | some _ => .error (.typeError (k ++ " is not a mapping"))

theorem mem_emitDrafts
    {eventIds : ℕ → String} {n : ℕ} {drafts : List Draft} {event : Event}
    (h : event ∈ emitDrafts eventIds n drafts) :
    ∃ draft ∈ drafts, ∃ id, event = draft.emitted id := by
  induction drafts generalizing n with
  | nil => cases h
  | cons draft drafts ih =>
      rcases List.mem_cons.mp h with rfl | hrest
      · exact ⟨draft, List.mem_cons_self, _, rfl⟩
      · obtain ⟨draft', hdraft', id, rfl⟩ := ih hrest
        exact ⟨draft', List.mem_cons_of_mem _ hdraft', id, rfl⟩

end Hydrogenuine.Runtime
