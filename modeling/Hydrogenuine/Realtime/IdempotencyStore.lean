import Mathlib.Algebra.Order.Ring.Rat
import Mathlib.Tactic.NormNum
import Hydrogenuine.Support.Json

/-!
# Stores for the results of tool calls

Embedding of the in-memory and the SQLite store of
`hg_realtime/integrations/idempotency_store.py`.  Times are exact, and the database is a
file with the one table.
-/

namespace Hydrogenuine.Realtime

open Support

/-! ## Values and calls -/

/-- `json.dumps` and `json.loads`: what is written of a JSON value is read back as that
value. -/
structure JsonText where
  dumps : PyVal → String
  loads : String → Option PyVal
  isJson : PyVal → Prop
  loads_dumps : ∀ v, isJson v → loads (dumps v) = some v

/-- A result, which is a dictionary of JSON values. -/
structure CachedResult (json : JsonText) where
  items : List (String × PyVal)
  isJson : json.isJson (.dict items)

def CachedResult.value {json : JsonText} (result : CachedResult json) : PyVal :=
  .dict result.items

/-- A call on a store, and what it reads off the clock. -/
inductive StoreCall (json : JsonText) where
  | get (idempotencyKey : String) (now : ℚ)
  | set (idempotencyKey : String) (result : CachedResult json) (ttlSeconds : Option ℤ)
      (now : ℚ)

variable {json : JsonText} (defaultTtlS : ℤ)

/-- `time.time() + ttl`. -/
def expiresAt (ttlSeconds : Option ℤ) (now : ℚ) : ℚ :=
  now + (ttlSeconds.getD defaultTtlS : ℤ)

/-! ## The stores -/

/-- `_store`: values and the times at which they expire. -/
structure InMemoryIdempotencyStore where
  store : Dict String (PyVal × ℚ)

namespace InMemoryIdempotencyStore

def new : InMemoryIdempotencyStore := ⟨.empty⟩

def get (s : InMemoryIdempotencyStore) (idempotencyKey : String) (now : ℚ) :
    Option PyVal × InMemoryIdempotencyStore :=
  match s.store.get? idempotencyKey with
  | none => (none, s)
  | some (value, expires) =>
      if expires < now then (none, ⟨s.store.filter fun key _ => key ≠ idempotencyKey⟩)
      else (some value, s)

/-- A call; what a `get` returns is `get`'s own. -/
def call (s : InMemoryIdempotencyStore) : StoreCall json → InMemoryIdempotencyStore
  | .get idempotencyKey now => (s.get idempotencyKey now).2
  | .set idempotencyKey result ttlSeconds now =>
      ⟨s.store.set idempotencyKey (result.value, expiresAt defaultTtlS ttlSeconds now)⟩

def after (calls : List (StoreCall json)) : InMemoryIdempotencyStore :=
  calls.foldl (call defaultTtlS) new

end InMemoryIdempotencyStore

/-- The rows of the table: texts and the times at which they expire. -/
structure SqliteIdempotencyStore where
  rows : Dict String (String × ℚ)

namespace SqliteIdempotencyStore

def new : SqliteIdempotencyStore := ⟨.empty⟩

def get (json : JsonText) (s : SqliteIdempotencyStore) (idempotencyKey : String)
    (now : ℚ) : Option PyVal :=
  match s.rows.get? idempotencyKey with
  | none => none
  | some (text, expires) => if now < expires then json.loads text else none

/-- A call; a `get` changes nothing. -/
def call (s : SqliteIdempotencyStore) : StoreCall json → SqliteIdempotencyStore
  | .get _ _ => s
  | .set idempotencyKey result ttlSeconds now =>
      ⟨s.rows.set idempotencyKey
        (json.dumps result.value, expiresAt defaultTtlS ttlSeconds now)⟩

def after (calls : List (StoreCall json)) : SqliteIdempotencyStore :=
  calls.foldl (call defaultTtlS) new

end SqliteIdempotencyStore

/-- Both stores return the same for every `get` of a sequence of calls. -/
def Interchangeable (calls : List (StoreCall json)) : Prop :=
  ∀ before idempotencyKey now rest, calls = before ++ .get idempotencyKey now :: rest →
    ((InMemoryIdempotencyStore.after defaultTtlS before).get idempotencyKey now).1 =
      (SqliteIdempotencyStore.after defaultTtlS before).get json idempotencyKey now

/-! ## The last write of a key -/

def StoreCall.Sets (key : String) : StoreCall json → Prop
  | .get _ _ => False
  | .set key' _ _ _ => key' = key

/-- The last of the calls that set the key set this result, to expire at this time, and
these calls came after it. -/
def LastSet
    (calls : List (StoreCall json)) (key : String) (result : CachedResult json)
    (expires : ℚ) (since : List (StoreCall json)) : Prop :=
  ∃ first ttlSeconds now, calls = first ++ .set key result ttlSeconds now :: since ∧
    expires = expiresAt defaultTtlS ttlSeconds now ∧ ∀ call ∈ since, ¬ call.Sets key

/-- A `get` of the key came after the time. -/
def MissedSince (key : String) (expires : ℚ) (since : List (StoreCall json)) : Prop :=
  ∃ now, .get key now ∈ since ∧ expires < now

/-- No `get` comes at the very time at which its key expires, unless the key was found
expired before, and then none comes before that time. -/
def AvoidsExpiry (calls : List (StoreCall json)) : Prop :=
  ∀ before key now rest, calls = before ++ .get key now :: rest →
    ∀ result expires since, LastSet defaultTtlS before key result expires since →
      (MissedSince key expires since → expires ≤ now) ∧
        (¬ MissedSince key expires since → now ≠ expires)

theorem concat_eq_append_cons_iff {α : Type*} {xs first since : List α} {c d : α} :
    xs ++ [c] = first ++ d :: since ↔
      since = [] ∧ d = c ∧ first = xs ∨
        ∃ since', since = since' ++ [c] ∧ xs = first ++ d :: since' := by
  constructor
  · intro heq
    rcases List.eq_nil_or_concat since with rfl | ⟨since', e, rfl⟩
    · obtain ⟨rfl, rfl⟩ := List.append_singleton_inj.mp heq
      exact Or.inl ⟨rfl, rfl, rfl⟩
    · rw [List.concat_eq_append, ← List.cons_append, ← List.append_assoc] at heq
      obtain ⟨rfl, rfl⟩ := List.append_singleton_inj.mp heq
      exact Or.inr ⟨since', List.concat_eq_append, rfl⟩
  · rintro (⟨rfl, rfl, rfl⟩ | ⟨since', rfl, rfl⟩)
    · rfl
    · rw [List.append_assoc, List.cons_append]

section LastSet

variable {defaultTtlS} {calls since since' : List (StoreCall json)} {c : StoreCall json}
  {key : String} {result result' : CachedResult json} {expires expires' now : ℚ}
  {ttlSeconds : Option ℤ}

theorem lastSet_concat_of_not_sets (hsets : ¬ c.Sets key) :
    LastSet defaultTtlS (calls ++ [c]) key result expires since ↔
      ∃ since', since = since' ++ [c] ∧
        LastSet defaultTtlS calls key result expires since' := by
  constructor
  · rintro ⟨first, ttlSeconds, now, hcalls, hexpires, hkeeps⟩
    rcases concat_eq_append_cons_iff.mp hcalls with ⟨-, rfl, -⟩ | ⟨since', rfl, rfl⟩
    · exact absurd rfl hsets
    · exact ⟨since', rfl, first, ttlSeconds, now, rfl, hexpires,
        fun d hd => hkeeps d (List.mem_append_left _ hd)⟩
  · rintro ⟨since', rfl, first, ttlSeconds, now, rfl, hexpires, hkeeps⟩
    refine ⟨first, ttlSeconds, now, concat_eq_append_cons_iff.mpr
      (Or.inr ⟨since', rfl, rfl⟩), hexpires, fun d hd => ?_⟩
    rcases List.mem_append.mp hd with hd | hd
    · exact hkeeps d hd
    · rwa [List.mem_singleton.mp hd]

theorem lastSet_concat_set :
    LastSet defaultTtlS (calls ++ [.set key result ttlSeconds now]) key result' expires
        since ↔
      result' = result ∧ expires = expiresAt defaultTtlS ttlSeconds now ∧ since = [] := by
  constructor
  · rintro ⟨first, ttlSeconds', now', hcalls, rfl, hkeeps⟩
    rcases concat_eq_append_cons_iff.mp hcalls with ⟨rfl, hlast, -⟩ | ⟨since', rfl, -⟩
    · cases hlast
      exact ⟨rfl, rfl, rfl⟩
    · exact absurd (show key = key from rfl)
        (hkeeps _ (List.mem_append_right _ List.mem_cons_self))
  · rintro ⟨rfl, rfl, rfl⟩
    exact ⟨calls, ttlSeconds, now, rfl, rfl, nofun⟩

theorem LastSet.unique
    (h : LastSet defaultTtlS calls key result expires since)
    (h' : LastSet defaultTtlS calls key result' expires' since') :
    result = result' ∧ expires = expires' ∧ since = since' := by
  induction calls using List.reverseRecOn generalizing since since' with
  | nil =>
      obtain ⟨first, _, _, hcalls, -⟩ := h
      exact absurd hcalls (by simp)
  | append_singleton calls c ih =>
      by_cases hsets : c.Sets key
      · cases c with
        | get _ _ => exact hsets.elim
        | set key' result₀ ttlSeconds now =>
            obtain rfl : key' = key := hsets
            obtain ⟨rfl, rfl, rfl⟩ := lastSet_concat_set.mp h
            obtain ⟨rfl, rfl, rfl⟩ := lastSet_concat_set.mp h'
            exact ⟨rfl, rfl, rfl⟩
      · obtain ⟨since₀, rfl, hlast⟩ := (lastSet_concat_of_not_sets hsets).mp h
        obtain ⟨since₀', rfl, hlast'⟩ := (lastSet_concat_of_not_sets hsets).mp h'
        obtain ⟨hresult, hexpires, rfl⟩ := ih hlast hlast'
        exact ⟨hresult, hexpires, rfl⟩

theorem not_missedSince_nil :
    ¬ MissedSince key expires ([] : List (StoreCall json)) := by
  rintro ⟨_, hmem, -⟩
  cases hmem

theorem missedSince_concat_iff :
    MissedSince key expires (since ++ [c]) ↔
      MissedSince key expires since ∨ ∃ now, c = .get key now ∧ expires < now := by
  constructor
  · rintro ⟨now, hmem, hlate⟩
    rcases List.mem_append.mp hmem with hmem | hmem
    · exact Or.inl ⟨now, hmem, hlate⟩
    · exact Or.inr ⟨now, (List.mem_singleton.mp hmem).symm, hlate⟩
  · rintro (⟨now, hmem, hlate⟩ | ⟨now, rfl, hlate⟩)
    · exact ⟨now, List.mem_append_left _ hmem, hlate⟩
    · exact ⟨now, List.mem_append_right _ List.mem_cons_self, hlate⟩

end LastSet

/-! ## What the stores hold -/

section Held

variable {defaultTtlS} {calls : List (StoreCall json)} {key : String}

theorem rows_after_iff {row : String × ℚ} :
    (SqliteIdempotencyStore.after defaultTtlS calls).rows.get? key = some row ↔
      ∃ result expires since, LastSet defaultTtlS calls key result expires since ∧
        row = (json.dumps result.value, expires) := by
  induction calls using List.reverseRecOn with
  | nil =>
      refine iff_of_false nofun ?_
      rintro ⟨result, expires, since, ⟨first, _, _, hcalls, -⟩, -⟩
      exact absurd hcalls (by simp)
  | append_singleton calls c ih =>
      rw [SqliteIdempotencyStore.after, List.foldl_concat, ← SqliteIdempotencyStore.after]
      by_cases hsets : c.Sets key
      · cases c with
        | get _ _ => exact hsets.elim
        | set key' result ttlSeconds now =>
            obtain rfl : key' = key := hsets
            simp only [SqliteIdempotencyStore.call, Dict.get?_set_self, Option.some.injEq,
              lastSet_concat_set]
            constructor
            · rintro rfl
              exact ⟨_, _, _, ⟨rfl, rfl, rfl⟩, rfl⟩
            · rintro ⟨_, _, _, ⟨rfl, rfl, rfl⟩, rfl⟩
              rfl
      · have hrow : ((SqliteIdempotencyStore.after defaultTtlS calls).call defaultTtlS
            c).rows.get? key =
              (SqliteIdempotencyStore.after defaultTtlS calls).rows.get? key := by
          cases c with
          | get _ _ => rfl
          | set key' result ttlSeconds now =>
              exact Dict.get?_set_of_ne _ _ (Ne.symm hsets)
        rw [hrow, ih]
        simp only [lastSet_concat_of_not_sets hsets]
        constructor
        · rintro ⟨result, expires, since, hlast, rfl⟩
          exact ⟨result, expires, _, ⟨since, rfl, hlast⟩, rfl⟩
        · rintro ⟨result, expires, _, ⟨since, rfl, hlast⟩, rfl⟩
          exact ⟨result, expires, since, hlast, rfl⟩

variable {entry : PyVal × ℚ}

theorem store_get_iff (s : InMemoryIdempotencyStore) (key' : String) (now : ℚ) :
    (s.get key' now).2.store.get? key = some entry ↔
      s.store.get? key = some entry ∧ ¬ (key' = key ∧ entry.2 < now) := by
  unfold InMemoryIdempotencyStore.get
  cases hfound : s.store.get? key' with
  | none =>
      refine ⟨fun h => ⟨h, ?_⟩, And.left⟩
      rintro ⟨rfl, -⟩
      rw [hfound] at h
      cases h
  | some found =>
      obtain ⟨value, expires⟩ := found
      dsimp only
      split_ifs with hexpired
      · rw [Dict.get?_filter, Option.filter_eq_some_iff, decide_eq_true_iff]
        refine and_congr_right fun h => ⟨fun hne hold => hne hold.1.symm, fun hkept => ?_⟩
        rintro rfl
        obtain rfl : (value, expires) = entry := Option.some.inj (hfound.symm.trans h)
        exact hkept ⟨rfl, hexpired⟩
      · refine ⟨fun h => ⟨h, ?_⟩, And.left⟩
        rintro ⟨rfl, hlate⟩
        obtain rfl : (value, expires) = entry := Option.some.inj (hfound.symm.trans h)
        exact hexpired hlate

theorem store_call_iff (s : InMemoryIdempotencyStore) {c : StoreCall json}
    (hsets : ¬ c.Sets key) :
    (s.call defaultTtlS c).store.get? key = some entry ↔
      s.store.get? key = some entry ∧ ¬ ∃ now, c = .get key now ∧ entry.2 < now := by
  cases c with
  | get key' now =>
      rw [InMemoryIdempotencyStore.call, store_get_iff]
      refine and_congr_right fun _ => not_congr ⟨?_, ?_⟩
      · rintro ⟨rfl, hlate⟩
        exact ⟨now, rfl, hlate⟩
      · rintro ⟨_, hcall, hlate⟩
        cases hcall
        exact ⟨rfl, hlate⟩
  | set key' result ttlSeconds now =>
      rw [InMemoryIdempotencyStore.call, Dict.get?_set_of_ne _ _ (Ne.symm hsets)]
      exact ⟨fun h => ⟨h, nofun⟩, And.left⟩

theorem store_after_iff :
    (InMemoryIdempotencyStore.after defaultTtlS calls).store.get? key = some entry ↔
      ∃ result expires since, LastSet defaultTtlS calls key result expires since ∧
        ¬ MissedSince key expires since ∧ entry = (result.value, expires) := by
  induction calls using List.reverseRecOn with
  | nil =>
      refine iff_of_false nofun ?_
      rintro ⟨result, expires, since, ⟨first, _, _, hcalls, -⟩, -⟩
      exact absurd hcalls (by simp)
  | append_singleton calls c ih =>
      rw [InMemoryIdempotencyStore.after, List.foldl_concat,
        ← InMemoryIdempotencyStore.after]
      by_cases hsets : c.Sets key
      · cases c with
        | get _ _ => exact hsets.elim
        | set key' result ttlSeconds now =>
            obtain rfl : key' = key := hsets
            simp only [InMemoryIdempotencyStore.call, Dict.get?_set_self,
              Option.some.injEq, lastSet_concat_set]
            constructor
            · rintro rfl
              exact ⟨_, _, _, ⟨rfl, rfl, rfl⟩, not_missedSince_nil, rfl⟩
            · rintro ⟨_, _, _, ⟨rfl, rfl, rfl⟩, -, rfl⟩
              rfl
      · simp only [store_call_iff _ hsets, ih, lastSet_concat_of_not_sets hsets]
        constructor
        · rintro ⟨⟨result, expires, since, hlast, hkept, rfl⟩, hfound⟩
          refine ⟨result, expires, _, ⟨since, rfl, hlast⟩, ?_, rfl⟩
          rw [missedSince_concat_iff]
          exact not_or.mpr ⟨hkept, hfound⟩
        · rintro ⟨result, expires, _, ⟨since, rfl, hlast⟩, hmissed, rfl⟩
          rw [missedSince_concat_iff, not_or] at hmissed
          exact ⟨⟨result, expires, since, hlast, hmissed.1, rfl⟩, hmissed.2⟩

end Held

/-! ## What the stores return -/

section Returned

variable {defaultTtlS} {calls : List (StoreCall json)} {key : String} {now : ℚ} {v : PyVal}

theorem sqlite_get_iff :
    (SqliteIdempotencyStore.after defaultTtlS calls).get json key now = some v ↔
      ∃ result expires since, LastSet defaultTtlS calls key result expires since ∧
        now < expires ∧ v = result.value := by
  rw [SqliteIdempotencyStore.get]
  constructor
  · intro h
    cases hrow : (SqliteIdempotencyStore.after defaultTtlS calls).rows.get? key with
    | none =>
        rw [hrow] at h
        cases h
    | some row =>
        obtain ⟨result, expires, since, hlast, rfl⟩ := rows_after_iff.mp hrow
        simp only [hrow, json.loads_dumps _ result.isJson, CachedResult.value,
          Option.ite_none_right_eq_some, Option.some.injEq] at h
        exact ⟨result, expires, since, hlast, h.1, h.2.symm⟩
  · rintro ⟨result, expires, since, hlast, hearly, rfl⟩
    rw [rows_after_iff.mpr ⟨result, expires, since, hlast, rfl⟩]
    dsimp only
    rw [if_pos hearly]
    exact json.loads_dumps _ result.isJson

theorem inMemory_get_iff :
    ((InMemoryIdempotencyStore.after defaultTtlS calls).get key now).1 = some v ↔
      ∃ result expires since, LastSet defaultTtlS calls key result expires since ∧
        ¬ MissedSince key expires since ∧ now ≤ expires ∧ v = result.value := by
  rw [InMemoryIdempotencyStore.get]
  constructor
  · intro h
    cases hentry : (InMemoryIdempotencyStore.after defaultTtlS calls).store.get? key with
    | none =>
        rw [hentry] at h
        cases h
    | some entry =>
        obtain ⟨result, expires, since, hlast, hkept, rfl⟩ := store_after_iff.mp hentry
        simp only [hentry] at h
        split_ifs at h with hexpired
        exact ⟨result, expires, since, hlast, hkept, not_lt.mp hexpired,
          (Option.some.inj h).symm⟩
  · rintro ⟨result, expires, since, hlast, hkept, hearly, rfl⟩
    rw [store_after_iff.mpr ⟨result, expires, since, hlast, hkept, rfl⟩]
    dsimp only
    rw [if_neg (not_lt.mpr hearly)]

end Returned

/-- The stores are interchangeable on the sequences of calls that avoid the moments of
expiry, and on no others. -/
theorem interchangeable_iff (calls : List (StoreCall json)) :
    Interchangeable defaultTtlS calls ↔ AvoidsExpiry defaultTtlS calls := by
  refine forall₅_congr fun before key now rest _ => ?_
  constructor
  · intro hsame result expires since hlast
    have hboth : (∃ v, ((InMemoryIdempotencyStore.after defaultTtlS before).get key
        now).1 = some v) ↔ now < expires := by
      simp only [hsame, sqlite_get_iff]
      constructor
      · rintro ⟨_, _, _, _, hlast', hearly, -⟩
        rwa [(hlast.unique hlast').2.1]
      · exact fun hearly => ⟨_, result, expires, since, hlast, hearly, rfl⟩
    have hmemory : (∃ v, ((InMemoryIdempotencyStore.after defaultTtlS before).get key
        now).1 = some v) ↔ ¬ MissedSince key expires since ∧ now ≤ expires := by
      simp only [inMemory_get_iff]
      constructor
      · rintro ⟨_, _, _, _, hlast', hkept, hearly, -⟩
        obtain ⟨-, rfl, rfl⟩ := hlast.unique hlast'
        exact ⟨hkept, hearly⟩
      · exact fun h => ⟨_, result, expires, since, hlast, h.1, h.2, rfl⟩
    rw [hmemory] at hboth
    refine ⟨fun hmissed => not_lt.mp fun hearly => (hboth.mpr hearly).1 hmissed,
      fun hkept heq => ?_⟩
    exact absurd (hboth.mp ⟨hkept, heq.le⟩) (heq ▸ lt_irrefl _)
  · intro havoids
    refine Option.ext fun v => ?_
    rw [inMemory_get_iff, sqlite_get_iff]
    refine exists₃_congr fun result expires since => and_congr_right fun hlast => ?_
    obtain ⟨hmissed, hkept⟩ := havoids result expires since hlast
    rw [← and_assoc]
    refine and_congr_left fun _ => ⟨fun h => lt_of_le_of_ne h.2 (hkept h.1),
      fun hearly => ⟨fun h => absurd (hmissed h) (not_le.mpr hearly), hearly.le⟩⟩

def plainJson : JsonText where
  dumps v := String.ofList (Json.write v)
  loads text := Json.loads (fun _ => .nan) text.toList
  isJson := Json.Plain
  loads_dumps v hv := by
    rw [String.toList_ofList]
    exact Json.loads_write _ hv

def okResult : CachedResult plainJson where
  items := [("status", .str "ok")]
  isJson := ⟨List.nodup_singleton _, trivial, trivial⟩

/-- At the moment of expiry the result is still there in memory only. -/
theorem not_interchangeable_at_expiry :
    ¬ Interchangeable 86400
      [.set "call-1" okResult (some 60) 1000, .get "call-1" 1060] := by
  intro hsame
  have hget := hsame [.set "call-1" okResult (some 60) 1000] "call-1" 1060 [] rfl
  have hlast : LastSet 86400 [.set "call-1" okResult (some 60) 1000] "call-1" okResult
      1060 [] := ⟨[], some 60, 1000, rfl, by norm_num [expiresAt], nofun⟩
  rw [inMemory_get_iff.mpr
    ⟨okResult, 1060, [], hlast, not_missedSince_nil, le_refl _, rfl⟩] at hget
  obtain ⟨_, _, _, hlast', hearly, -⟩ := sqlite_get_iff.mp hget.symm
  rw [← (hlast.unique hlast').2.1] at hearly
  exact lt_irrefl _ hearly

end Hydrogenuine.Realtime
