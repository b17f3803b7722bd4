import Hydrogenuine.OperatorQueue.Policy

/-!
# Redaction of payloads

Embedding of `hg_core/security/redaction.py` and of `hg_core/secrets/redact.py`: sensitive
keys are found first by `redact_json`, then by `_deep_redact_dict`, which also redacts the
texts.  The latter does not enter a list that stands in a list.
-/

namespace Hydrogenuine.Secrets

open Support
open OperatorQueue (replaceText)

/-! ## Texts -/

/-- The compiled patterns: those of `redaction.py`, then `_EXTRA_PATTERNS`. -/
inductive Pattern where
  | bearer
  | apiKeyLike
  | genericSecret
  | skKey
  | bearerToken
  | assignment
  | awsSecret
  | privateKey

def redacted : String := "[REDACTED]"

/-- `pattern.subn("[REDACTED]", text)`, `str.lower`, and the values of
`all_canary_values()`, which are no empty texts. -/
structure TextServices where
  subn : Pattern → String → String × ℕ
  lower : String → String
  canaries : List String

variable (services : TextServices)

/-- `redact_text` of `redaction.py`. -/
def baseRedactText (text : String) : String :=
  if text = "" then text
  else
    [Pattern.bearer, .apiKeyLike, .genericSecret].foldl
      (fun out pattern => (services.subn pattern out).1) text

def redactText (text : String) : String × Bool :=
  if text = "" then (text, false)
  else
    let out := baseRedactText services text
    let (out, applied) :=
      [Pattern.skKey, .bearerToken, .assignment, .awsSecret, .privateKey].foldl
        (fun (state : String × Bool) pattern =>
          let (text, count) := services.subn pattern state.1
          if count = 0 then state else (text, true))
        (out, decide (out ≠ text))
    services.canaries.foldl
      (fun state marker =>
        if isSubstring marker state.1 then (replaceText state.1 marker redacted, true)
        else state)
      (out, applied)

/-! ## Keys -/

def sensitiveKeys : List String :=
  ["content", "payload", "note", "resolution_note", "summary", "summary_text", "key_facts",
    "conflicts", "message", "inputs", "outputs", "tool_payload", "tool_result", "secret",
    "api_key", "password", "token", "authorization"]

def sensitiveKeyFragments : List String :=
  ["secret", "token", "password", "credential", "api_key", "apikey", "authorization"]

def hasSensitiveFragment (key : String) : Bool :=
  sensitiveKeyFragments.any fun fragment => isSubstring fragment (services.lower key)

/-! ## Payloads -/

section Values

variable (keys : List String) (allowlist : Option (List String))

mutual

/-- `redact_json` once the keys are found. -/
def redactValue : PyVal → PyVal
  | .dict items => .dict (redactItems items)
  | .list values => .list (redactList values)
  | value => value

def redactItems : List (String × PyVal) → List (String × PyVal)
  | [] => []
  | (key, value) :: rest =>
      (key,
        if allowlist.any (fun allowed => allowed.contains key) then redactValue value
        else if keys.contains key then .str redacted
        else redactValue value) :: redactItems rest

def redactList : List PyVal → List PyVal
  | [] => []
  | value :: rest => redactValue value :: redactList rest

end

end Values

def redactJson (payload : PyVal) (sensitive allowlist denylist : Option (List String)) :
    PyVal :=
  let keys := (sensitive.filter fun keys => !keys.isEmpty).getD sensitiveKeys
  redactValue (keys ++ denylist.getD []) allowlist payload

mutual

def deepRedactDict : List (String × PyVal) → List (String × PyVal)
  | [] => []
  | (key, value) :: rest =>
      (key,
        if hasSensitiveFragment services key then .str redacted
        else deepRedactValue value) :: deepRedactDict rest

def deepRedactValue : PyVal → PyVal
  | .str text => .str (redactText services text).1
  | .dict items => .dict (deepRedactDict items)
  | .list values => .list (deepRedactItems values)
  | value => value

def deepRedactItems : List PyVal → List PyVal
  | [] => []
  | .dict items :: rest => .dict (deepRedactDict items) :: deepRedactItems rest
  | .str text :: rest => .str (redactText services text).1 :: deepRedactItems rest
  | value :: rest => value :: deepRedactItems rest

end

def redactPayload (payload : PyVal) : PyVal :=
  match redactJson payload (some sensitiveKeys) none none with
  | .dict items => .dict (deepRedactDict services items)
  | .str text => .str (redactText services text).1
  | value => value

/-! ## Every leaf -/

mutual

/-- The payload with every value of a sensitive key replaced and every other text
redacted. -/
def redactAll : PyVal → PyVal
  | .str text => .str (redactText services text).1
  | .dict items => .dict (redactAllItems items)
  | .list values => .list (redactAllList values)
  | value => value

def redactAllItems : List (String × PyVal) → List (String × PyVal)
  | [] => []
  | (key, value) :: rest =>
      (key,
        if hasSensitiveFragment services key then .str redacted
        else if sensitiveKeys.contains key then .str (redactText services redacted).1
        else redactAll value) :: redactAllItems rest

def redactAllList : List PyVal → List PyVal
  | [] => []
  | value :: rest => redactAll value :: redactAllList rest

end

mutual

def leaves : PyVal → List String
  | .str text => [text]
  | .dict items => leavesOfItems items
  | .list values => leavesOfList values
  | _ => []

def leavesOfItems : List (String × PyVal) → List String
  | [] => []
  | (_, value) :: rest => leaves value ++ leavesOfItems rest

def leavesOfList : List PyVal → List String
  | [] => []
  | value :: rest => leaves value ++ leavesOfList rest

end

/-- Every leaf is redacted, and nothing that `redact_text` and the placeholder are free of
is left. -/
def RedactsEveryLeaf (payload : PyVal) : Prop :=
  redactPayload services payload = redactAll services payload ∧
    ∀ secret : String → Prop, ¬ secret redacted →
      (∀ text, ¬ secret (redactText services text).1) →
        ∀ leaf ∈ leaves (redactPayload services payload), ¬ secret leaf

mutual

/-- But for the exact sensitive keys, there is nothing to redact. -/
def Clear : PyVal → Prop
  | .str text => (redactText services text).1 = text
  | .dict items => ClearItems items
  | .list values => ClearList values
  | _ => True

def ClearItems : List (String × PyVal) → Prop
  | [] => True
  | (key, value) :: rest =>
      (if sensitiveKeys.contains key then
          hasSensitiveFragment services key = true ∨ (redactText services redacted).1 = redacted
        else if hasSensitiveFragment services key then value = .str redacted
        else Clear value) ∧ ClearItems rest

def ClearList : List PyVal → Prop
  | [] => True
  | value :: rest => Clear value ∧ ClearList rest

end

mutual

/-- There is nothing to redact in a list that stands in a list. -/
def Reached : PyVal → Prop
  | .dict items => ReachedItems items
  | .list values => ReachedList values
  | _ => True

def ReachedItems : List (String × PyVal) → Prop
  | [] => True
  | (key, value) :: rest =>
      (sensitiveKeys.contains key = true ∨ hasSensitiveFragment services key = true ∨
        Reached value) ∧ ReachedItems rest

def ReachedList : List PyVal → Prop
  | [] => True
  | .dict items :: rest => ReachedItems items ∧ ReachedList rest
  | .list values :: rest => ClearList services values ∧ ReachedList rest
  | _ :: rest => ReachedList rest

end

/-- There is nothing to redact in a list that stands in a list or is the payload. -/
def Covered : PyVal → Prop
  | .list values => ClearList services values
  | payload => Reached services payload

variable {services}

theorem redactValue_eq_str_iff {keys : List String} {allowlist : Option (List String)}
    {text : String} (value : PyVal) :
    redactValue keys allowlist value = .str text ↔ value = .str text := by
  cases value <;> simp [redactValue]

mutual

theorem redactValue_eq_redactAll_iff : ∀ value,
    redactValue sensitiveKeys none value = redactAll services value ↔ Clear services value
  | .dict items => by
      rw [redactValue, redactAll, Clear, PyVal.dict.injEq, redactItems_eq_redactAll_iff items]
  | .list values => by
      rw [redactValue, redactAll, Clear, PyVal.list.injEq, redactList_eq_redactAll_iff values]
  | .str text => by
      rw [redactAll, Clear, redactValue_eq_str_iff, PyVal.str.injEq, eq_comm]
  | .none | .bool _ | .int _ | .float _ => by
      simp [redactValue, redactAll, Clear]

theorem redactItems_eq_redactAll_iff : ∀ items,
    redactItems sensitiveKeys none items = redactAllItems services items ↔
      ClearItems services items
  | [] => by simp [redactItems, redactAllItems, ClearItems]
  | (key, value) :: rest => by
      rw [redactItems, redactAllItems, ClearItems, List.cons.injEq, Prod.mk.injEq,
        redactItems_eq_redactAll_iff rest]
      refine and_congr_left' ?_
      cases hasSensitiveFragment services key with
      | true =>
          cases sensitiveKeys.contains key with
          | true => simp
          | false => simpa using redactValue_eq_str_iff value
      | false =>
          cases sensitiveKeys.contains key with
          | true => simp [eq_comm]
          | false => simpa using redactValue_eq_redactAll_iff value

theorem redactList_eq_redactAll_iff : ∀ values,
    redactList sensitiveKeys none values = redactAllList services values ↔
      ClearList services values
  | [] => by simp [redactList, redactAllList, ClearList]
  | value :: rest => by
      rw [redactList, redactAllList, ClearList, List.cons.injEq,
        redactValue_eq_redactAll_iff value, redactList_eq_redactAll_iff rest]

end

mutual

theorem deepRedactValue_eq_redactAll_iff : ∀ value,
    deepRedactValue services (redactValue sensitiveKeys none value) =
      redactAll services value ↔ Reached services value
  | .dict items => by
      rw [redactValue, deepRedactValue, redactAll, Reached, PyVal.dict.injEq,
        deepRedactDict_eq_redactAll_iff items]
  | .list values => by
      rw [redactValue, deepRedactValue, redactAll, Reached, PyVal.list.injEq,
        deepRedactItems_eq_redactAll_iff values]
  | .str _ | .none | .bool _ | .int _ | .float _ => by
      simp [redactValue, deepRedactValue, redactAll, Reached]

theorem deepRedactDict_eq_redactAll_iff : ∀ items,
    deepRedactDict services (redactItems sensitiveKeys none items) =
      redactAllItems services items ↔ ReachedItems services items
  | [] => by simp [redactItems, deepRedactDict, redactAllItems, ReachedItems]
  | (key, value) :: rest => by
      rw [redactItems, deepRedactDict, redactAllItems, ReachedItems, List.cons.injEq,
        Prod.mk.injEq, deepRedactDict_eq_redactAll_iff rest]
      refine and_congr_left' ?_
      cases hasSensitiveFragment services key with
      | true => simp
      | false =>
          cases sensitiveKeys.contains key with
          | true => simp [deepRedactValue]
          | false => simpa using deepRedactValue_eq_redactAll_iff value

theorem deepRedactItems_eq_redactAll_iff : ∀ values,
    deepRedactItems services (redactList sensitiveKeys none values) =
      redactAllList services values ↔ ReachedList services values
  | [] => by simp [redactList, deepRedactItems, redactAllList, ReachedList]
  | .dict items :: rest => by
      rw [redactList, redactValue, deepRedactItems, redactAllList, redactAll, ReachedList,
        List.cons.injEq, PyVal.dict.injEq, deepRedactDict_eq_redactAll_iff items,
        deepRedactItems_eq_redactAll_iff rest]
  | .list values :: rest => by
      rw [redactList, redactValue, deepRedactItems, redactAllList, redactAll, ReachedList,
        List.cons.injEq, PyVal.list.injEq, redactList_eq_redactAll_iff values,
        deepRedactItems_eq_redactAll_iff rest]
      all_goals nofun
  | .str _ :: rest | .none :: rest | .bool _ :: rest | .int _ :: rest | .float _ :: rest => by
      simp [redactList, redactValue, deepRedactItems, redactAllList, redactAll, ReachedList,
        deepRedactItems_eq_redactAll_iff rest]

end

mutual

theorem leaves_redactAll {leaf : String} : ∀ value, leaf ∈ leaves (redactAll services value) →
    leaf = redacted ∨ ∃ text, leaf = (redactText services text).1
  | .dict items, h => leaves_redactAllItems items (by simpa only [redactAll, leaves] using h)
  | .list values, h => leaves_redactAllList values (by simpa only [redactAll, leaves] using h)
  | .str text, h => by
      rw [redactAll, leaves, List.mem_singleton] at h
      exact Or.inr ⟨text, h⟩
  | .none, h | .bool _, h | .int _, h | .float _, h => by
      simp [redactAll, leaves] at h

theorem leaves_redactAllItems {leaf : String} : ∀ items,
    leaf ∈ leavesOfItems (redactAllItems services items) →
      leaf = redacted ∨ ∃ text, leaf = (redactText services text).1
  | [], h => by cases h
  | (key, value) :: rest, h => by
      rw [redactAllItems, leavesOfItems, List.mem_append] at h
      rcases h with h | h
      · split_ifs at h
        · exact Or.inl (List.mem_singleton.mp h)
        · exact Or.inr ⟨redacted, List.mem_singleton.mp h⟩
        · exact leaves_redactAll value h
      · exact leaves_redactAllItems rest h

theorem leaves_redactAllList {leaf : String} : ∀ values,
    leaf ∈ leavesOfList (redactAllList services values) →
      leaf = redacted ∨ ∃ text, leaf = (redactText services text).1
  | [], h => by cases h
  | value :: rest, h => by
      rw [redactAllList, leavesOfList, List.mem_append] at h
      rcases h with h | h
      · exact leaves_redactAll value h
      · exact leaves_redactAllList rest h

end

theorem redactPayload_eq_redactAll_iff (payload : PyVal) :
    redactPayload services payload = redactAll services payload ↔
      Covered services payload := by
  rw [redactPayload, redactJson]
  change (match redactValue sensitiveKeys none payload with
    | .dict items => PyVal.dict (deepRedactDict services items)
    | .str text => .str (redactText services text).1
    | value => value) = _ ↔ _
  cases payload with
  | dict items =>
      rw [redactValue, redactAll, Covered, Reached, PyVal.dict.injEq,
        deepRedactDict_eq_redactAll_iff items]
      nofun
  | list values =>
      rw [redactValue, redactAll, Covered, PyVal.list.injEq, redactList_eq_redactAll_iff values]
  | str | none | bool | int | float =>
      simp [redactValue, redactAll, Covered, Reached]

/-- Every leaf is redacted exactly if no list that stands in a list or is the payload holds
anything to redact. -/
theorem redactsEveryLeaf_iff (services : TextServices) (payload : PyVal) :
    RedactsEveryLeaf services payload ↔ Covered services payload := by
  rw [← redactPayload_eq_redactAll_iff, RedactsEveryLeaf, and_iff_left_iff_imp]
  intro hall secret hplaceholder htext leaf hleaf
  rw [hall] at hleaf
  rcases leaves_redactAll payload hleaf with rfl | ⟨text, rfl⟩
  · exact hplaceholder
  · exact htext text

def canaryMarkers : List String :=
  ["HG-CANARY-SEC-EVENT-9f3a2b", "HG-CANARY-SEC-RECEIPT-7c1d4e", "HG-CANARY-SEC-TER-5e8f0a",
    "HG-CANARY-SEC-CRASH-3b2c1d", "HG-CANARY-SEC-BUNDLE-1a9e8f", "HG-CANARY-SEC-PLT-4d7c2b",
    "HG-CANARY-SEC-CONFIG-6f1e0d"]

def plainTexts : TextServices where
  subn _ text := (text, 0)
  lower := lower
  canaries := canaryMarkers

def rows : PyVal := .dict [("rows", .list [.list [.str "HG-CANARY-SEC-EVENT-9f3a2b"]])]

theorem marker_in_row_left :
    redactText plainTexts "HG-CANARY-SEC-EVENT-9f3a2b" = (redacted, true) ∧
      leaves (redactPayload plainTexts rows) = ["HG-CANARY-SEC-EVENT-9f3a2b"] ∧
      ¬ RedactsEveryLeaf plainTexts rows := by
  have hleaves : leaves (redactPayload plainTexts rows) = ["HG-CANARY-SEC-EVENT-9f3a2b"] := by
    decide +kernel
  refine ⟨by decide +kernel, hleaves, ?_⟩
  rintro ⟨hall, -⟩
  rw [hall] at hleaves
  revert hleaves
  decide +kernel

end Hydrogenuine.Secrets
