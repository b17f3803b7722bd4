import Mathlib.Data.List.Induction
import Mathlib.Data.List.Nodup

/-!
# Insertion-ordered dictionaries

A finite map that keeps the order in which its keys were first inserted.
Assigning to a key that is already present replaces the value in place; a new
key goes to the end.  Distinctness of the keys is a field of the structure, so
that lookup and membership among the values agree on every dictionary that can
be built.
-/

namespace Hydrogenuine.Support

variable {κ : Type*} {α : Type*} [DecidableEq κ]

/-! ## Association lists -/

/-- The value of the first entry stored under `k`. -/
def lookupEntry (k : κ) : List (κ × α) → Option α
  | [] => none
  | (k', v) :: rest => if k' = k then some v else lookupEntry k rest

/-- Replace the value under `k` in place, or append a new entry. -/
def assignEntry (k : κ) (v : α) : List (κ × α) → List (κ × α)
  | [] => [(k, v)]
  | (k', v') :: rest =>
      if k' = k then (k, v) :: rest else (k', v') :: assignEntry k v rest

theorem lookupEntry_assignEntry
    (k k' : κ) (v : α) (entries : List (κ × α)) :
    lookupEntry k' (assignEntry k v entries) =
      if k' = k then some v else lookupEntry k' entries := by
  induction entries with
  | nil =>
      by_cases h : k' = k
      · simp [assignEntry, lookupEntry, h]
      · simp [assignEntry, lookupEntry, h, Ne.symm h]
  | cons entry rest ih =>
      obtain ⟨k₀, v₀⟩ := entry
      by_cases h₀ : k₀ = k
      · subst h₀
        by_cases h : k' = k₀
        · simp [assignEntry, lookupEntry, h]
        · simp [assignEntry, lookupEntry, h, Ne.symm h]
      · by_cases h₁ : k₀ = k'
        · subst h₁
          simp [assignEntry, lookupEntry, h₀]
        · simp [assignEntry, lookupEntry, h₀, h₁, ih]

theorem lookupEntry_eq_none_iff
    (k : κ) (entries : List (κ × α)) :
    lookupEntry k entries = none ↔ k ∉ entries.map Prod.fst := by
  induction entries with
  | nil => simp [lookupEntry]
  | cons entry rest ih =>
      obtain ⟨k₀, v₀⟩ := entry
      by_cases h : k₀ = k
      · simp [lookupEntry, h]
      · simp [lookupEntry, h, Ne.symm h, ih]

variable {entries : List (κ × α)} {k : κ} {v : α}

/-- Assignment keeps the keys of a present entry and appends a missing one. -/
theorem mem_of_lookupEntry (h : lookupEntry k entries = some v) :
    (k, v) ∈ entries := by
  induction entries with
  | nil => cases h
  | cons entry rest ih =>
      rw [lookupEntry] at h
      split_ifs at h with hk
      · obtain rfl := Option.some.inj h
        rw [← hk]
        exact List.mem_cons_self
      · exact List.mem_cons_of_mem _ (ih h)

theorem assignEntry_keys
    (k : κ) (v : α) (entries : List (κ × α)) :
    (assignEntry k v entries).map Prod.fst =
      if k ∈ entries.map Prod.fst then entries.map Prod.fst
      else entries.map Prod.fst ++ [k] := by
  induction entries with
  | nil => simp [assignEntry]
  | cons entry rest ih =>
      obtain ⟨k₀, v₀⟩ := entry
      by_cases h : k₀ = k
      · simp [assignEntry, h]
      · by_cases hmem : k ∈ rest.map Prod.fst
        · simp only [assignEntry, if_neg h, List.map_cons, ih, if_pos hmem]
          rw [if_pos (List.mem_cons_of_mem _ hmem)]
        · have hcons : k ∉ k₀ :: rest.map Prod.fst := by
            simpa [Ne.symm h] using hmem
          simp only [assignEntry, if_neg h, List.map_cons, ih, if_neg hmem]
          rw [if_neg hcons, List.cons_append]

theorem assignEntry_keys_nodup
    (hnodup : (entries.map Prod.fst).Nodup) :
    ((assignEntry k v entries).map Prod.fst).Nodup := by
  rw [assignEntry_keys]
  split
  · exact hnodup
  next hmem =>
    refine hnodup.append (List.nodup_singleton k) ?_
    intro x hx hxk
    rw [List.mem_singleton] at hxk
    exact hmem (hxk ▸ hx)

theorem assignEntry_of_not_mem
    (hk : k ∉ entries.map Prod.fst) :
    assignEntry k v entries = entries ++ [(k, v)] := by
  induction entries with
  | nil => rfl
  | cons entry rest ih =>
      obtain ⟨k₀, v₀⟩ := entry
      rw [List.map_cons, List.mem_cons, not_or] at hk
      rw [assignEntry, if_neg (Ne.symm hk.1), ih hk.2, List.cons_append]

theorem mem_iff_lookupEntry
    (hnodup : (entries.map Prod.fst).Nodup) :
    (k, v) ∈ entries ↔ lookupEntry k entries = some v := by
  induction entries with
  | nil => simp [lookupEntry]
  | cons entry rest ih =>
      obtain ⟨k₀, v₀⟩ := entry
      rw [List.map_cons, List.nodup_cons] at hnodup
      by_cases h : k₀ = k
      · subst h
        have hrest : (k₀, v) ∉ rest := by
          intro hmem
          exact hnodup.1 (List.mem_map.mpr ⟨_, hmem, rfl⟩)
        simp [lookupEntry, hrest, eq_comm]
      · simp [lookupEntry, h, Ne.symm h, ih hnodup.2]

/-! ## Dictionaries -/

/-- An insertion-ordered finite map with distinct keys. -/
structure Dict (κ : Type*) (α : Type*) where
  entries : List (κ × α)
  nodupKeys : (entries.map Prod.fst).Nodup

namespace Dict

/-- The dictionary without entries. -/
def empty : Dict κ α := ⟨[], List.nodup_nil⟩

/-- `d.get(k)`. -/
def get? (d : Dict κ α) (k : κ) : Option α := lookupEntry k d.entries

/-- `d[k] = v`. -/
def set (d : Dict κ α) (k : κ) (v : α) : Dict κ α :=
  ⟨assignEntry k v d.entries, assignEntry_keys_nodup d.nodupKeys⟩

/-- `list(d.values())`, in insertion order. -/
def values (d : Dict κ α) : List α := d.entries.map Prod.snd

/-- `k in d`. -/
def contains (d : Dict κ α) (k : κ) : Bool := (d.get? k).isSome

/-- The entries whose key and value pass a test, in the same order. -/
def filter (d : Dict κ α) (keep : κ → α → Bool) : Dict κ α :=
  ⟨d.entries.filter fun entry => keep entry.1 entry.2,
    d.nodupKeys.sublist (List.filter_sublist.map Prod.fst)⟩

/-- Build a dictionary by assigning the entries of a list in turn. -/
def ofList (entries : List (κ × α)) : Dict κ α :=
  entries.foldl (fun d entry => d.set entry.1 entry.2) empty

@[simp] theorem get?_empty (k : κ) : (empty : Dict κ α).get? k = none := rfl

theorem get?_set (d : Dict κ α) (k k' : κ) (v : α) :
    (d.set k v).get? k' = if k' = k then some v else d.get? k' :=
  lookupEntry_assignEntry k k' v d.entries

@[simp] theorem get?_set_self (d : Dict κ α) (k : κ) (v : α) :
    (d.set k v).get? k = some v := by
  simp [get?_set]

theorem get?_set_of_ne
    (d : Dict κ α) {k k' : κ} (v : α) (hne : k' ≠ k) :
    (d.set k v).get? k' = d.get? k' := by
  simp [get?_set, hne]

theorem contains_set (d : Dict κ α) (k k' : κ) (v : α) :
    (d.set k v).contains k' = (decide (k' = k) || d.contains k') := by
  by_cases h : k' = k
  · simp [contains, h]
  · simp [contains, get?_set, h]

theorem contains_eq_true_iff (d : Dict κ α) (k : κ) :
    d.contains k = true ↔ ∃ v, d.get? k = some v := by
  rw [contains, Option.isSome_iff_exists]

theorem mem_entries_iff (d : Dict κ α) {k : κ} {v : α} :
    (k, v) ∈ d.entries ↔ d.get? k = some v :=
  mem_iff_lookupEntry d.nodupKeys

theorem mem_values_iff (d : Dict κ α) {v : α} :
    v ∈ d.values ↔ ∃ k, d.get? k = some v := by
  simp [values, ← mem_entries_iff]

theorem get?_filter (d : Dict κ α) (keep : κ → α → Bool) (k : κ) :
    (d.filter keep).get? k = (d.get? k).filter (keep k) := by
  apply Option.ext
  intro v
  rw [← mem_entries_iff, Option.filter_eq_some_iff, ← mem_entries_iff]
  simp [filter]

/-- Assigning a new key and dropping it again changes nothing. -/
theorem entries_filter_set
    (d : Dict κ α) {k : κ} (v : α) (hk : d.get? k = none) :
    ((d.set k v).filter fun k' _ => decide (k' ≠ k)).entries = d.entries := by
  have hfresh : k ∉ d.entries.map Prod.fst :=
    (lookupEntry_eq_none_iff k d.entries).mp hk
  have hkeep : d.entries.filter (fun entry => decide (entry.1 ≠ k)) =
      d.entries := by
    rw [List.filter_eq_self]
    intro entry hentry
    simp only [ne_eq, decide_eq_true_eq]
    rintro rfl
    exact hfresh (List.mem_map_of_mem hentry)
  simp only [filter, set]
  rw [assignEntry_of_not_mem hfresh, List.filter_append, hkeep]
  simp

theorem get?_foldl_set
    {entries : List (κ × α)} (hnodup : (entries.map Prod.fst).Nodup)
    (d : Dict κ α) (k : κ) :
    (entries.foldl (fun d entry => d.set entry.1 entry.2) d).get? k =
      (lookupEntry k entries).or (d.get? k) := by
  induction entries generalizing d with
  | nil => rfl
  | cons entry rest ih =>
      obtain ⟨k₀, v₀⟩ := entry
      rw [List.map_cons, List.nodup_cons] at hnodup
      rw [List.foldl_cons, ih hnodup.2, get?_set, lookupEntry]
      by_cases h : k₀ = k
      · subst h
        rw [if_pos rfl, if_pos rfl,
          (lookupEntry_eq_none_iff k₀ rest).mpr hnodup.1]
        rfl
      · rw [if_neg h, if_neg (Ne.symm h)]

/-- A dictionary that is built from entries with distinct keys holds just
these. -/
theorem get?_ofList
    {entries : List (κ × α)} (hnodup : (entries.map Prod.fst).Nodup) (k : κ) :
    (ofList entries).get? k = lookupEntry k entries := by
  rw [ofList, get?_foldl_set hnodup, get?_empty, Option.or_none]

/-- The last entry of the key has this value. -/
def LastIn (entries : List (κ × α)) (k : κ) (v : α) : Prop :=
  ∃ before after, entries = before ++ (k, v) :: after ∧
    k ∉ after.map Prod.fst

omit [DecidableEq κ] in
theorem lastIn_concat (entries : List (κ × α)) (entry : κ × α) (k : κ) (v : α) :
    LastIn (entries ++ [entry]) k v ↔
      entry = (k, v) ∨ (entry.1 ≠ k ∧ LastIn entries k v) := by
  constructor
  · rintro ⟨before, after, hsplit, hafter⟩
    rcases List.eq_nil_or_concat' after with rfl | ⟨after, last, rfl⟩
    · exact Or.inl (List.singleton_inj.mp (List.append_inj_right' hsplit rfl))
    · have hsplit : entries ++ [entry] =
          (before ++ (k, v) :: after) ++ [last] := by
        rw [hsplit, List.append_assoc, List.cons_append]
      obtain ⟨hentries, hlast⟩ := List.append_inj' hsplit rfl
      rw [List.singleton_inj.mp hlast]
      rw [List.map_append, List.mem_append, not_or] at hafter
      refine Or.inr ⟨?_, before, after, hentries, hafter.1⟩
      rintro rfl
      exact hafter.2 List.mem_cons_self
  · rintro (rfl | ⟨hne, before, after, rfl, hafter⟩)
    · exact ⟨entries, [], rfl, List.not_mem_nil⟩
    · refine ⟨before, after ++ [entry], ?_, ?_⟩
      · rw [List.append_assoc, List.cons_append]
      · rw [List.map_append, List.mem_append, not_or]
        exact ⟨hafter, by simpa using Ne.symm hne⟩

/-- A dictionary holds the last value that was assigned to each key. -/
theorem get?_ofList_iff (entries : List (κ × α)) (k : κ) (v : α) :
    (ofList entries).get? k = some v ↔ LastIn entries k v := by
  induction entries using List.reverseRecOn with
  | nil =>
      rw [ofList, List.foldl_nil, get?_empty]
      constructor
      · intro h
        cases h
      · rintro ⟨before, after, hsplit, -⟩
        exact absurd hsplit.symm (by simp)
  | append_singleton entries entry ih =>
      have hfold : ofList (entries ++ [entry]) =
          (ofList entries).set entry.1 entry.2 := by
        rw [ofList, List.foldl_append]
        rfl
      rw [hfold, get?_set, lastIn_concat, ← ih]
      by_cases hk : k = entry.1
      · subst hk
        obtain ⟨k, v'⟩ := entry
        simp
      · rw [if_neg hk]
        constructor
        · exact fun h => Or.inr ⟨Ne.symm hk, h⟩
        · rintro (rfl | ⟨-, h⟩)
          · exact absurd rfl hk
          · exact h

end Dict

end Hydrogenuine.Support
