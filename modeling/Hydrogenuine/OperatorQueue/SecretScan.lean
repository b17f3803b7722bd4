import Hydrogenuine.Support.PyValue

/-!
# The scan for secret fields

Embedding of `scan_forbidden` and `field_key_is_forbidden` of `hg_runtime/exciton`.
The scan looks at the keys of a payload, at every depth, and never at its texts.
Whether it finds anything does not depend on the path that it reports.
-/

namespace Hydrogenuine.OperatorQueue

open Support

def forbiddenFields : List String :=
  ["token", "api_key", "apikey", "secret", "password", "passwd", "private_key",
    "privatekey", "ssh_key", "ssh_private", "signing_key", "signing_private",
    "anchor_seed", "anchor_private", "cookie", "session_token", "raw_memory",
    "raw_session", "raw_cookie", "chain_of_thought", "cot", "wav_bytes",
    "raw_audio", "credentials", "bearer"]

def safeFieldKeys : List String :=
  ["token_count", "tokens_per_second", "prompt_token_count",
    "completion_token_count", "hidden_cot_disabled"]

def fieldKeyIsForbidden (key : String) : Bool :=
  !(safeFieldKeys.contains (lower key)) &&
    forbiddenFields.any fun fragment => isSubstring fragment (lower key)

mutual

def scanForbidden (path : String) : PyVal → List String
  | .dict items => scanItems path items
  | .list values => scanList path 0 values
  | _ => []

def scanItems (path : String) : List (String × PyVal) → List String
  | [] => []
  | (k, v) :: rest =>
      (if fieldKeyIsForbidden k then [path ++ "/" ++ k] else []) ++
        scanForbidden (path ++ "/" ++ k) v ++ scanItems path rest

def scanList (path : String) (i : ℕ) : List PyVal → List String
  | [] => []
  | v :: rest =>
      scanForbidden (path ++ "[" ++ toString i ++ "]") v ++
        scanList path (i + 1) rest

end

def Clean (v : PyVal) : Prop := scanForbidden "" v = []

instance (v : PyVal) : Decidable (Clean v) :=
  decidable_of_iff ((scanForbidden "" v).isEmpty = true) List.isEmpty_iff

mutual

theorem scanForbidden_eq_nil_of {path : String} (path' : String) :
    ∀ v, scanForbidden path v = [] → scanForbidden path' v = []
  | .dict items, h => by
      rw [scanForbidden] at h ⊢
      exact scanItems_eq_nil_of path' items h
  | .list values, h => by
      rw [scanForbidden] at h ⊢
      exact scanList_eq_nil_of path' 0 0 values h
  | .none, _ | .bool _, _ | .int _, _ | .float _, _ | .str _, _ => by
      rw [scanForbidden] <;> nofun

theorem scanItems_eq_nil_of {path : String} (path' : String) :
    ∀ items, scanItems path items = [] → scanItems path' items = []
  | [], _ => by rw [scanItems]
  | (k, v) :: rest, h => by
      rw [scanItems, List.append_eq_nil_iff, List.append_eq_nil_iff] at h ⊢
      obtain ⟨⟨hkey, hvalue⟩, hrest⟩ := h
      refine ⟨⟨?_, scanForbidden_eq_nil_of _ v hvalue⟩,
        scanItems_eq_nil_of path' rest hrest⟩
      split_ifs at hkey ⊢
      rfl

theorem scanList_eq_nil_of {path : String} (path' : String) (i j : ℕ) :
    ∀ values, scanList path i values = [] → scanList path' j values = []
  | [], _ => by rw [scanList]
  | v :: rest, h => by
      rw [scanList, List.append_eq_nil_iff] at h ⊢
      exact ⟨scanForbidden_eq_nil_of _ v h.1,
        scanList_eq_nil_of path' (i + 1) (j + 1) rest h.2⟩

end

theorem clean_iff (path : String) (v : PyVal) :
    scanForbidden path v = [] ↔ Clean v :=
  ⟨scanForbidden_eq_nil_of "" v, scanForbidden_eq_nil_of path v⟩

theorem clean_dict_iff {items : List (String × PyVal)} :
    Clean (.dict items) ↔
      ∀ entry ∈ items, fieldKeyIsForbidden entry.1 = false ∧ Clean entry.2 := by
  unfold Clean
  rw [scanForbidden]
  induction items with
  | nil => simp [scanItems]
  | cons entry rest ih =>
      obtain ⟨k, v⟩ := entry
      rw [scanItems, List.append_eq_nil_iff, List.append_eq_nil_iff, ih,
        List.forall_mem_cons, clean_iff]
      unfold Clean
      cases fieldKeyIsForbidden k with
      | true => simp
      | false => simp

theorem scanList_eq_nil_iff {path : String} {i : ℕ} {values : List PyVal} :
    scanList path i values = [] ↔ ∀ v ∈ values, Clean v := by
  induction values generalizing i with
  | nil => simp [scanList]
  | cons v rest ih =>
      rw [scanList, List.append_eq_nil_iff, ih, clean_iff, List.forall_mem_cons]

theorem clean_list_iff {values : List PyVal} :
    Clean (.list values) ↔ ∀ v ∈ values, Clean v := by
  unfold Clean
  rw [scanForbidden]
  exact scanList_eq_nil_iff

@[simp] theorem clean_none : Clean .none := by
  unfold Clean
  rw [scanForbidden] <;> nofun

@[simp] theorem clean_bool (b : Bool) : Clean (.bool b) := by
  unfold Clean
  rw [scanForbidden] <;> nofun

@[simp] theorem clean_str (s : String) : Clean (.str s) := by
  unfold Clean
  rw [scanForbidden] <;> nofun

end Hydrogenuine.OperatorQueue
