import Hydrogenuine.Core.ReferenceHost
import Hydrogenuine.Oea.BoundedExecutor
import Hydrogenuine.Support.Json
import Hydrogenuine.Support.Lines

/-!
# The receipt ledger as a file

Embedding of `hg_oea/receipts.py` on the text of the file.  A receipt is one line
of canonical JSON that is chained to the line before by its hash.  The reader of
the file breaks it into lines with `splitlines`, which knows three separators that
the canonical JSON leaves in its strings, and `verify_chain` hashes a record
without the `receipt_hash` that it carries, while `append` hashes the payload with
the `receipt_hash` that the receipt came with.

The ledger is consistent with itself if and only if no text of a receipt has such
a separator, no receipt comes with a `receipt_hash` and the first one comes
without a `previous_receipt_hash`.
-/

namespace Hydrogenuine.Oea

open Support Support.Json Support.Lines
open Hydrogenuine.Core Hydrogenuine.Runtime

/-! ## The ledger -/

namespace ReceiptLedger

/-- `payload.pop(k)`, what it leaves. -/
def popItem (items : Items) (k : String) : Items :=
  items.filter fun entry => entry.1 != k

/-- The result of `verify_chain`. -/
inductive ChainVerdict where
  | accepted (count : ℕ)
  | refused (error : String)
deriving DecidableEq

section Ledger

variable (host : Host) (readFloat : List Char → PyFloat)

/-- `f"sha256:{hashlib.sha256(canonical_dumps(payload)).hexdigest()}"`. -/
def payloadHash (payload : Items) : String :=
  "sha256:" ++ host.sha256Text (String.ofList (canonicalDumps (.dict payload)))

/-- `json.loads(line)`. -/
def readRecord (line : List Char) : Except PyError PyVal :=
  match loads readFloat line with
  | some record => .ok record
  | none => .error .jsonDecodeError

def lastHash (file : List Char) : Except PyError (Option String) :=
  match (filledLines file).getLast? with
  | none => .ok none
  | some last =>
      match readRecord readFloat last with
      | .error err => .error err
      | .ok (.dict record) =>
          .ok (some (host.str
            ((PyVal.item? record "receipt_hash").getD (.str ""))))
      | .ok _ => .error (.attributeError "get")

def hashedPayload (previous : Option String) (receipt : EffectReceipt) : Items :=
  if isText previous then
    PyVal.setItem receipt.toPayload "previous_receipt_hash" (.ofOption previous)
  else receipt.toPayload

def entry (previous : Option String) (receipt : EffectReceipt) : Items :=
  let payload := hashedPayload previous receipt
  PyVal.setItem payload "receipt_hash" (.str (payloadHash host payload))

/-- `append`: the receipt with its hashes, and the file. -/
def append (file : List Char) (receipt : EffectReceipt) :
    Except PyError (EffectReceipt × List Char) :=
  match lastHash host readFloat file with
  | .error err => .error err
  | .ok previous =>
      let receiptHash := payloadHash host (hashedPayload previous receipt)
      let line := canonicalDumps (.dict (entry host previous receipt)) ++ ['\n']
      .ok ({ receipt with receiptHash, previousReceiptHash := previous },
        file ++ line)

def appendAll (file : List Char) :
    List EffectReceipt → Except PyError (List Char)
  | [] => .ok file
  | receipt :: rest =>
      match append host readFloat file receipt with
      | .error err => .error err
      | .ok (_, file) => appendAll file rest

/-- The loop of `verify_chain`: the error that it finds.  Every line that `append`
writes is an object; `dict(record)` of other values is not followed. -/
def verifyLines :
    ℕ → Option String → List (List Char) → Except PyError (Option String)
  | _, _, [] => .ok none
  | index, previous, line :: rest =>
      match readRecord readFloat line with
      | .error err => .error err
      | .ok (.dict record) =>
          let linked :=
            (PyVal.getItem record "previous_receipt_hash").pyEq
              (.ofOption previous)
          if previous.isSome && !linked then
            .ok (some ("chain_break_at_" ++ toString index))
          else
            let payload := popItem record "receipt_hash"
            let storedHash :=
              (PyVal.item? record "receipt_hash").getD (.str "")
            if !(PyVal.getItem payload "previous_receipt_hash").pyEq
                (.ofOption previous) then
              .ok (some ("prev_mismatch_at_" ++ toString index))
            else if !storedHash.pyEq (.str (payloadHash host payload)) then
              .ok (some ("hash_mismatch_at_" ++ toString index))
            else verifyLines (index + 1) (some (payloadHash host payload)) rest
      | .ok _ =>
          if previous.isSome then .error (.attributeError "get")
          else .error (.typeError "dict")

def verifyChain (file : List Char) : Except PyError ChainVerdict :=
  match verifyLines host readFloat 0 none (filledLines file) with
  | .error err => .error err
  | .ok (some error) => .ok (.refused error)
  | .ok none => .ok (.accepted (filledLines file).length)

/-- The receipts can be appended to an empty ledger one after the other, the file
reads back as exactly as many records, and `verify_chain` accepts it. -/
def SelfConsistent (receipts : List EffectReceipt) : Prop :=
  ∃ (file : List Char) (records : List PyVal),
    appendAll host readFloat [] receipts = .ok file ∧
      (filledLines file).map (loads readFloat) = records.map some ∧
      records.length = receipts.length ∧
      verifyChain host readFloat file = .ok (.accepted receipts.length)

end Ledger

/-! ## Lines of payloads -/

/-- The characters that canonical JSON leaves in a string and `splitlines` takes
for the end of a line. -/
def separators : List Char := [Char.ofNat 133, Char.ofNat 8232, Char.ofNat 8233]

def OneLine (t : String) : Prop := ∀ c ∈ t.toList, c ∉ separators

instance (t : String) : Decidable (OneLine t) :=
  List.decidableBAll (fun c => c ∉ separators) t.toList

/-- The key and the texts of the value have no separator. -/
def Unbroken (item : String × PyVal) : Prop :=
  OneLine item.1 ∧ ∀ t ∈ textsOf item.2, OneLine t

theorem isBreak_iff_mem_separators {c : Char} (hc : 32 ≤ c.toNat) :
    isBreak c = true ↔ c ∈ separators := by
  have heq : ∀ n, (Char.ofNat n).toNat = n →
      (c = Char.ofNat n ↔ c.toNat = n) := by
    intro n hn
    constructor
    · rintro rfl
      exact hn
    · rintro rfl
      exact (Char.ofNat_toNat c).symm
  simp only [separators, List.mem_cons, List.not_mem_nil, or_false,
    heq 133 (by decide), heq 8232 (by decide), heq 8233 (by decide), isBreak,
    Bool.or_eq_true, Bool.and_eq_true, decide_eq_true_eq, beq_iff_eq]
  omega

theorem separators_not_ascii : ∀ c ∈ separators, 128 ≤ c.toNat :=
  List.all_iff_forall_prop.mp (by decide)

variable {items : Items} {k : String}

theorem isBreak_canonicalDumps_iff (h : Settled items) :
    (∀ c ∈ canonicalDumps (.dict items), isBreak c = false) ↔
      ∀ item ∈ items, Unbroken item := by
  constructor
  · intro hline item hitem
    have htexts : ∀ t, (t = item.1 ∨ t ∈ textsOf item.2) → OneLine t := by
      intro t ht c hc hsep
      have hascii := separators_not_ascii c hsep
      have hmem := h.mem_canonicalDumps_of_mem hascii
        ⟨t, mem_textsOfMembers.mpr ⟨item, hitem, ht⟩, hc⟩
      have hbreak := (isBreak_iff_mem_separators (by omega)).mpr hsep
      rw [hline c hmem] at hbreak
      cases hbreak
    exact ⟨htexts _ (Or.inl rfl), fun t ht => htexts t (Or.inr ht)⟩
  · intro hitems c hc
    rw [Bool.eq_false_iff]
    intro hbreak
    obtain ⟨hcontrol, hshown⟩ := h.mem_canonicalDumps hc
    have hsep := (isBreak_iff_mem_separators hcontrol).mp hbreak
    have hascii := separators_not_ascii c hsep
    obtain hlow | ⟨t, ht, hct⟩ := hshown
    · omega
    · obtain ⟨item, hitem, ht⟩ := mem_textsOfMembers.mp ht
      obtain ⟨hkey, hvalue⟩ := hitems item hitem
      rcases ht with rfl | ht
      · exact hkey c hct hsep
      · exact hvalue t ht c hct hsep

theorem exists_canonicalDumps_eq (items : Items) :
    ∃ middle, canonicalDumps (.dict items) =
      openBrace :: (middle ++ [closeBrace]) := by
  rw [canonicalDumps, PyVal.canonical, write]
  exact ⟨_, rfl⟩

theorem filledLines_line (h : Settled items)
    (hitems : ∀ item ∈ items, Unbroken item) :
    filledLines (canonicalDumps (.dict items) ++ ['\n']) =
      [canonicalDumps (.dict items)] := by
  refine filledLines_newline ?_ ((isBreak_canonicalDumps_iff h).mpr hitems)
  obtain ⟨middle, hline⟩ := exists_canonicalDumps_eq items
  rw [hline, isFilled, List.any_cons]
  rfl

theorem two_le_filledLines_line (h : Settled items)
    (hitems : ¬∀ item ∈ items, Unbroken item) :
    2 ≤ (filledLines (canonicalDumps (.dict items) ++ ['\n'])).length := by
  rw [← isBreak_canonicalDumps_iff h] at hitems
  push Not at hitems
  obtain ⟨c, hmem, hbreak⟩ := hitems
  rw [ne_eq, Bool.not_eq_false] at hbreak
  obtain ⟨hcontrol, -⟩ := h.mem_canonicalDumps hmem
  have hreturn : c ≠ '\r' := by
    rintro rfl
    exact absurd hcontrol (by decide)
  obtain ⟨middle, hline⟩ := exists_canonicalDumps_eq items
  rw [hline] at hmem ⊢
  have hmiddle : c ∈ middle := by
    rcases List.mem_cons.mp hmem with rfl | hmem
    · exact absurd hbreak (by decide)
    · rcases List.mem_append.mp hmem with hmem | hmem
      · exact hmem
      · rw [List.mem_singleton.mp hmem] at hbreak
        exact absurd hbreak (by decide)
  obtain ⟨a, b, rfl⟩ := List.append_of_mem hmiddle
  have hsplit : openBrace :: (a ++ c :: b ++ [closeBrace]) ++ ['\n'] =
      (openBrace :: a) ++ c :: (b ++ [closeBrace] ++ ['\n']) := by
    simp
  rw [hsplit]
  exact two_le_filledLines (d := openBrace) (e := closeBrace) hbreak hreturn
    List.mem_cons_self (by decide) (by simp) (by decide)

theorem filledLines_line_pos (items : Items) :
    0 < (filledLines (canonicalDumps (.dict items) ++ ['\n'])).length := by
  obtain ⟨middle, hline⟩ := exists_canonicalDumps_eq items
  rw [hline]
  exact filledLines_pos (c := openBrace) (by simp) (by decide)

/-! ## The payload of a receipt -/

def receiptTexts (receipt : EffectReceipt) : List String :=
  [receipt.receiptId, receipt.bindingId, receipt.capabilityId,
    receipt.authorityRef, receipt.ueakCommitRef, receipt.inputHash,
    receipt.resultStatus, receipt.outputHash] ++
  receipt.touchedResources ++
  [receipt.startedAt, receipt.completedAt, receipt.compensationStatus,
    receipt.executorMode] ++
  receipt.errorClass.toList ++ receipt.errorMessageRedacted.toList ++
  [receipt.permitId, receipt.handoffId, receipt.sinkType, receipt.dispatchMode]

def hashKeys : List String := ["receipt_hash", "previous_receipt_hash"]

def payloadKeys : List String :=
  ["receipt_id", "binding_id", "capability_id", "authority_ref",
    "ueak_commit_ref", "input_hash", "result_status", "output_hash",
    "touched_resources", "started_at", "completed_at", "retry_count",
    "compensation_status", "executor_mode", "error_class",
    "error_message_redacted", "receipt_hash", "previous_receipt_hash",
    "permit_id", "handoff_id", "sink_type", "dispatch_mode",
    "external_effect_performed"]

theorem forall_mem_optionItem {value : Option PyVal}
    {p : String × PyVal → Prop} :
    (∀ item ∈ optionItem k value, p item) ↔ ∀ v, value = some v → p (k, v) := by
  cases value with
  | none => simp [optionItem]
  | some v => simp [optionItem]

theorem forall_mem_textItem {k text : String} {p : String × PyVal → Prop} :
    (∀ item ∈ textItem k text, p item) ↔ (text ≠ "" → p (k, .str text)) := by
  by_cases htext : text = ""
  · simp [textItem, htext]
  · simp [textItem, htext]

theorem keys_optionItem (k : String) (value : Option PyVal) :
    ((optionItem k value).map Prod.fst).Sublist [k] := by
  cases value with
  | none => exact List.nil_sublist _
  | some v => exact List.Sublist.refl _

theorem keys_textItem (k text : String) :
    ((textItem k text).map Prod.fst).Sublist [k] := by
  unfold textItem
  split
  · exact List.nil_sublist _
  · exact List.Sublist.refl _

theorem keys_toPayload (receipt : EffectReceipt) :
    (receipt.toPayload.map Prod.fst).Sublist payloadKeys := by
  simp only [EffectReceipt.toPayload, List.map_append]
  exact ((((((((((List.Sublist.refl _).append (keys_optionItem _ _)).append
    (keys_optionItem _ _)).append (keys_textItem _ _)).append
    (keys_textItem _ _)).append (keys_textItem _ _)).append
    (keys_textItem _ _)).append (keys_textItem _ _)).append
    (keys_textItem _ _)).append (keys_optionItem _ _))

theorem plain_textList (texts : List String) : Plain (textList texts) := by
  have hitems : ∀ texts : List String, PlainElements (texts.map PyVal.str) := by
    intro texts
    induction texts with
    | nil => trivial
    | cons t texts ih => exact ⟨trivial, ih⟩
  exact hitems texts

theorem canonical_textList (texts : List String) :
    (textList texts).canonical = textList texts := by
  have hitems : ∀ texts : List String,
      PyVal.canonicalList (texts.map PyVal.str) = texts.map PyVal.str := by
    intro texts
    induction texts with
    | nil => rfl
    | cons t texts ih =>
        rw [List.map_cons, PyVal.canonicalList, ih, PyVal.canonical]
        exact fun _ h => by cases h
        exact fun _ h => by cases h
  rw [textList, PyVal.canonical, hitems]

theorem mem_textsOf_textList {texts : List String} {t : String} :
    t ∈ textsOf (textList texts) ↔ t ∈ texts := by
  have hitems : ∀ texts : List String,
      textsOfElements (texts.map PyVal.str) = texts := by
    intro texts
    induction texts with
    | nil => rfl
    | cons t texts ih =>
        rw [List.map_cons, textsOfElements, ih, textsOf]
        rfl
  rw [textList, textsOf, hitems]

def PayloadValue (v : PyVal) : Prop :=
  (∃ s, v = .str s) ∨ (∃ n, v = .int n) ∨ (∃ b, v = .bool b) ∨
    ∃ texts, v = textList texts

theorem payloadValue_of_mem {receipt : EffectReceipt} :
    ∀ item ∈ receipt.toPayload, PayloadValue item.2 := by
  have hstr : ∀ s, PayloadValue (.str s) := fun s => Or.inl ⟨s, rfl⟩
  have hint : ∀ n, PayloadValue (.int n) := fun n => Or.inr (Or.inl ⟨n, rfl⟩)
  have hbool : ∀ b, PayloadValue (.bool b) :=
    fun b => Or.inr (Or.inr (Or.inl ⟨b, rfl⟩))
  have htexts : ∀ texts, PayloadValue (textList texts) :=
    fun texts => Or.inr (Or.inr (Or.inr ⟨texts, rfl⟩))
  simp only [EffectReceipt.toPayload, List.forall_mem_append,
    List.forall_mem_cons, forall_mem_optionItem, forall_mem_textItem,
    Option.map_eq_some_iff, forall_exists_index, and_imp,
    forall_apply_eq_imp_iff₂, hstr, hint, hbool, htexts]
  simp

theorem settled_toPayload (receipt : EffectReceipt) :
    Settled receipt.toPayload where
  nodup := List.Nodup.sublist (keys_toPayload receipt) (by decide)
  plain := by
    intro item hmem
    obtain ⟨s, hv⟩ | ⟨n, hv⟩ | ⟨b, hv⟩ | ⟨texts, hv⟩ :=
      payloadValue_of_mem item hmem
    · rw [hv]
      trivial
    · rw [hv]
      trivial
    · rw [hv]
      trivial
    · rw [hv]
      exact plain_textList texts
  canonical := by
    intro item hmem
    obtain ⟨s, hv⟩ | ⟨n, hv⟩ | ⟨b, hv⟩ | ⟨texts, hv⟩ :=
      payloadValue_of_mem item hmem
    · rw [hv, PyVal.canonical] <;> simp
    · rw [hv, PyVal.canonical] <;> simp
    · rw [hv, PyVal.canonical] <;> simp
    · rw [hv, canonical_textList]

theorem unbroken_str_iff (hk : OneLine k) (s : String) :
    Unbroken (k, .str s) ↔ OneLine s := by
  simp [Unbroken, textsOf, hk]

theorem unbroken_textList_iff (hk : OneLine k)
    (texts : List String) :
    Unbroken (k, textList texts) ↔ ∀ t ∈ texts, OneLine t := by
  simp [Unbroken, mem_textsOf_textList, hk]

theorem oneLine_of_ne_empty_iff {t : String} :
    (t ≠ "" → OneLine t) ↔ OneLine t := by
  constructor
  · intro h
    by_cases ht : t = ""
    · rw [ht]
      decide
    · exact h ht
  · exact fun h _ => h

theorem forall_mem_toList_iff {value : Option String}
    {p : String → Prop} : (∀ t ∈ value.toList, p t) ↔ ∀ t, value = some t → p t := by
  cases value with
  | none => simp
  | some t => simp

theorem unbroken_toPayload_iff (receipt : EffectReceipt) :
    (∀ item ∈ receipt.toPayload, item.1 ∉ hashKeys → Unbroken item) ↔
      ∀ t ∈ receiptTexts receipt, OneLine t := by
  have hstr : ∀ k ∈ payloadKeys, ∀ s, Unbroken (k, .str s) ↔ OneLine s :=
    fun k hk => unbroken_str_iff ((by decide : ∀ k ∈ payloadKeys, OneLine k) k hk)
  have htexts : ∀ k ∈ payloadKeys, ∀ texts,
      Unbroken (k, textList texts) ↔ ∀ t ∈ texts, OneLine t :=
    fun k hk =>
      unbroken_textList_iff ((by decide : ∀ k ∈ payloadKeys, OneLine k) k hk)
  have hint : ∀ n, Unbroken ("retry_count", .int n) := by
    intro n
    have hkey : OneLine "retry_count" := by decide
    exact ⟨hkey, by simp [textsOf]⟩
  have hbool : ∀ b, Unbroken ("external_effect_performed", .bool b) := by
    intro b
    have hkey : OneLine "external_effect_performed" := by decide
    exact ⟨hkey, by simp [textsOf]⟩
  simp only [payloadKeys, List.forall_mem_cons] at hstr htexts
  simp only [EffectReceipt.toPayload, receiptTexts, hashKeys,
    List.forall_mem_append, List.forall_mem_cons, forall_mem_optionItem,
    forall_mem_textItem, forall_mem_toList_iff, Option.map_eq_some_iff,
    forall_exists_index, and_imp, forall_apply_eq_imp_iff₂, hstr, htexts, hint,
    hbool]
  simp [oneLine_of_ne_empty_iff, and_assoc]

/-! ## The entry of a receipt -/

section Entries

variable (host : Host)

def HexDigests : Prop :=
  ∀ text, ∀ c ∈ (host.sha256Text text).toList, c.toNat < 128

variable {host}

theorem oneLine_payloadHash (hhex : HexDigests host) (payload : Items) :
    OneLine (payloadHash host payload) := by
  intro c hc hsep
  have hascii := separators_not_ascii c hsep
  rw [payloadHash, String.toList_append] at hc
  rcases List.mem_append.mp hc with hc | hc
  · have htag : ∀ c ∈ "sha256:".toList, c.toNat < 128 :=
      List.all_iff_forall_prop.mp (by decide)
    have hlow := htag c hc
    omega
  · have hlow := hhex _ c hc
    omega

theorem isText_payloadHash (payload : Items) :
    isText (some (payloadHash host payload)) = true := by
  have hne : payloadHash host payload ≠ "" := by
    intro hempty
    have hlength := congrArg (fun s => s.toList.length) hempty
    rw [payloadHash] at hlength
    simp at hlength
  exact bne_iff_ne.mpr hne

theorem settled_hashedPayload (previous : Option String)
    (receipt : EffectReceipt) : Settled (hashedPayload previous receipt) := by
  unfold hashedPayload
  split
  · next htext =>
      cases previous with
      | none => cases htext
      | some text =>
          exact (settled_toPayload receipt).setItem trivial
            (by simp [PyVal.ofOption, PyVal.canonical])
  · exact settled_toPayload receipt

theorem settled_entry (previous : Option String) (receipt : EffectReceipt) :
    Settled (entry host previous receipt) :=
  (settled_hashedPayload previous receipt).setItem trivial
    (by simp [PyVal.canonical])

/-- The hash that the entry before leaves has no separator, or there is none and
the receipt comes without one. -/
def Chained (previous : Option String) (receipt : EffectReceipt) : Prop :=
  if isText previous then OneLine (previous.getD "")
  else OneLine (receipt.previousReceiptHash.getD "")

theorem mem_optionItem {k : String} {value : Option PyVal}
    {item : String × PyVal} :
    item ∈ optionItem k value ↔ item.1 = k ∧ value = some item.2 := by
  obtain ⟨k', v⟩ := item
  cases value with
  | none => simp [optionItem]
  | some w => simp [optionItem, eq_comm]

theorem mem_textItem {k text : String} {item : String × PyVal} :
    item ∈ textItem k text ↔ item.1 = k ∧ text ≠ "" ∧ item.2 = .str text := by
  obtain ⟨k', v⟩ := item
  by_cases htext : text = ""
  · simp [textItem, htext]
  · simp [textItem, htext]

variable {v : PyVal}

theorem previous_mem_toPayload_iff {receipt : EffectReceipt} :
    ("previous_receipt_hash", v) ∈ receipt.toPayload ↔
      receipt.previousReceiptHash.getD "" ≠ "" ∧
        v = .str (receipt.previousReceiptHash.getD "") := by
  simp [EffectReceipt.toPayload, mem_optionItem, mem_textItem]

theorem hash_mem_toPayload_iff {receipt : EffectReceipt} :
    ("receipt_hash", v) ∈ receipt.toPayload ↔
      receipt.receiptHash ≠ "" ∧ v = .str receipt.receiptHash := by
  simp [EffectReceipt.toPayload, mem_optionItem, mem_textItem]

theorem forall_mem_setItem {items : Items} (h : Settled items) {k : String} {p : String × PyVal → Prop} :
    (∀ item ∈ PyVal.setItem items k v, p item) ↔
      p (k, v) ∧ ∀ item ∈ items, item.1 ≠ k → p item := by
  constructor
  · intro hall
    refine ⟨hall _ ((mem_assignEntry h.nodup).mpr (Or.inl ⟨rfl, rfl⟩)), ?_⟩
    rintro ⟨k', v'⟩ hmem hne
    exact hall _ ((mem_assignEntry h.nodup).mpr (Or.inr ⟨hmem, hne⟩))
  · rintro ⟨hnew, hold⟩ ⟨k', v'⟩ hmem
    rcases (mem_assignEntry h.nodup).mp hmem with ⟨rfl, rfl⟩ | ⟨hmem, hne⟩
    · exact hnew
    · exact hold _ hmem hne

theorem unbroken_hashedPayload_iff
    (previous : Option String) (receipt : EffectReceipt) :
    (∀ item ∈ hashedPayload previous receipt, item.1 ≠ "receipt_hash" →
        Unbroken item) ↔
      Chained previous receipt ∧ ∀ t ∈ receiptTexts receipt, OneLine t := by
  have hkey : OneLine "previous_receipt_hash" := by decide
  have hkeys : "previous_receipt_hash" ≠ "receipt_hash" := by decide
  have hmem : ∀ item : String × PyVal,
      item.1 ∉ hashKeys ↔
        item.1 ≠ "previous_receipt_hash" ∧ item.1 ≠ "receipt_hash" := by
    intro item
    simp [hashKeys, and_comm]
  unfold hashedPayload Chained
  rw [← unbroken_toPayload_iff]
  split
  · next htext =>
      cases previous with
      | none => cases htext
      | some text =>
          rw [forall_mem_setItem (settled_toPayload receipt), PyVal.ofOption,
            unbroken_str_iff hkey]
          simp [hmem]
  · constructor
    · intro hall
      constructor
      · by_cases hempty : receipt.previousReceiptHash.getD "" = ""
        · rw [hempty]
          decide
        · have hprevious := hall _ (previous_mem_toPayload_iff.mpr ⟨hempty, rfl⟩)
            hkeys
          exact (unbroken_str_iff hkey _).mp hprevious
      · exact fun item hitem hnot => hall item hitem ((hmem item).mp hnot).2
    · rintro ⟨hprevious, hall⟩ ⟨k, v⟩ hitem hne
      by_cases hk : k = "previous_receipt_hash"
      · subst hk
        obtain ⟨-, rfl⟩ := previous_mem_toPayload_iff.mp hitem
        exact (unbroken_str_iff hkey _).mpr hprevious
      · exact hall _ hitem ((hmem (k, v)).mpr ⟨hk, hne⟩)

theorem unbroken_entry_iff (hhex : HexDigests host)
    (previous : Option String) (receipt : EffectReceipt) :
    (∀ item ∈ entry host previous receipt, Unbroken item) ↔
      Chained previous receipt ∧ ∀ t ∈ receiptTexts receipt, OneLine t := by
  have hkey : OneLine "receipt_hash" := by decide
  rw [entry, forall_mem_setItem (settled_hashedPayload previous receipt),
    unbroken_hashedPayload_iff, unbroken_str_iff hkey]
  exact and_iff_right (oneLine_payloadHash hhex _)

end Entries

/-! ## Reading a line back -/

theorem popItem_setItem (items : Items) (k : String) (v : PyVal) :
    popItem (PyVal.setItem items k v) k = popItem items k := by
  unfold popItem PyVal.setItem
  induction items with
  | nil => simp [assignEntry]
  | cons item rest ih =>
      by_cases hk : item.1 = k
      · simp [assignEntry, hk]
      · simp [assignEntry, hk, ih]

theorem popItem_of_forall
    (h : ∀ item ∈ items, item.1 ≠ k) : popItem items k = items :=
  List.filter_eq_self.mpr fun item hmem => bne_iff_ne.mpr (h item hmem)

theorem getItem_popItem_of_ne (hnodup : (items.map Prod.fst).Nodup)
    {k k' : String} (hne : k' ≠ k) :
    PyVal.getItem (popItem items k) k' = PyVal.getItem items k' := by
  have hsub : (popItem items k).Sublist items := List.filter_sublist
  unfold PyVal.getItem
  congr 1
  rw [PyVal.item?_eq_lookupEntry, PyVal.item?_eq_lookupEntry]
  refine Option.ext fun v => ?_
  rw [← mem_iff_lookupEntry (hnodup.sublist (hsub.map Prod.fst)),
    ← mem_iff_lookupEntry hnodup, popItem, List.mem_filter]
  exact and_iff_left (bne_iff_ne.mpr hne)

section Reading

variable {host : Host} {readFloat : List Char → PyFloat}

theorem payloadHash_of_perm {items items' : Items} (hperm : items.Perm items')
    (hnodup : (items.map Prod.fst).Nodup) :
    payloadHash host items = payloadHash host items' := by
  rw [payloadHash, payloadHash, canonicalDumps, canonicalDumps,
    PyVal.canonical_dict_of_perm hperm hnodup]

theorem readRecord_line {items : Items} (h : Settled items) :
    readRecord readFloat (canonicalDumps (.dict items)) =
      .ok (.dict (sortedItems items)) := by
  rw [readRecord, h.loads_canonicalDumps]

theorem item?_entry (previous : Option String) (receipt : EffectReceipt) :
    PyVal.item? (entry host previous receipt) "receipt_hash" =
      some (.str (payloadHash host (hashedPayload previous receipt))) := by
  rw [entry, PyVal.item?_setItem, if_pos rfl]

theorem getItem_entry_previous
    (previous : Option String) (receipt : EffectReceipt) :
    PyVal.getItem (entry host previous receipt) "previous_receipt_hash" =
      if isText previous then .ofOption previous
      else PyVal.getItem receipt.toPayload "previous_receipt_hash" := by
  rw [entry, PyVal.getItem_setItem, if_neg (by decide), hashedPayload]
  split
  · rw [PyVal.getItem_setItem, if_pos rfl]
  · rfl

theorem getItem_toPayload_previous (receipt : EffectReceipt) :
    PyVal.getItem receipt.toPayload "previous_receipt_hash" = .none ↔
      isText receipt.previousReceiptHash = false := by
  have hlookup : ∀ v, PyVal.item? receipt.toPayload "previous_receipt_hash" =
      some v ↔ receipt.previousReceiptHash.getD "" ≠ "" ∧
        v = .str (receipt.previousReceiptHash.getD "") := by
    intro v
    rw [PyVal.item?_eq_lookupEntry,
      ← mem_iff_lookupEntry (settled_toPayload receipt).nodup,
      previous_mem_toPayload_iff]
  have htext : isText receipt.previousReceiptHash = false ↔
      receipt.previousReceiptHash.getD "" = "" := by
    cases receipt.previousReceiptHash with
    | none => simp [isText]
    | some text => simp [isText]
  rw [htext, PyVal.getItem]
  cases hitem : PyVal.item? receipt.toPayload "previous_receipt_hash" with
  | none =>
      by_cases hempty : receipt.previousReceiptHash.getD "" = ""
      · simp [hempty]
      · rw [(hlookup _).mpr ⟨hempty, rfl⟩] at hitem
        cases hitem
  | some v =>
      obtain ⟨hne, rfl⟩ := (hlookup v).mp hitem
      simp [hne]

variable (host) in
theorem linked_entry_iff
    {previous : Option String} (hprevious : previous = none ∨ isText previous = true)
    (receipt : EffectReceipt) :
    (PyVal.getItem (entry host previous receipt) "previous_receipt_hash").pyEq
        (.ofOption previous) = true ↔
      (previous = none → isText receipt.previousReceiptHash = false) := by
  rw [getItem_entry_previous]
  rcases hprevious with rfl | htext
  · rw [if_neg (by decide), PyVal.ofOption, PyVal.pyEq_none_iff,
      getItem_toPayload_previous]
    exact (true_imp_iff).symm.trans (by simp)
  · cases previous with
    | none => cases htext
    | some text =>
        rw [if_pos htext, PyVal.ofOption, PyVal.pyEq_str_iff]
        simp

theorem payloadHash_popItem_entry
    (previous : Option String) (receipt : EffectReceipt) :
    payloadHash host (popItem (sortedItems (entry host previous receipt))
        "receipt_hash") =
      payloadHash host (popItem (hashedPayload previous receipt)
        "receipt_hash") := by
  have hsettled : Settled (entry host previous receipt) :=
    settled_entry previous receipt
  have hperm := sortedItems_perm (entry host previous receipt)
  rw [← popItem_setItem (hashedPayload previous receipt) "receipt_hash"
    (.str (payloadHash host (hashedPayload previous receipt)))]
  refine payloadHash_of_perm (hperm.filter _) ?_
  have hnodup := (hperm.map Prod.fst).nodup_iff.mpr hsettled.nodup
  exact hnodup.sublist (List.filter_sublist.map Prod.fst)

/-- A record is accepted after the entry before it when it shows its hash, and
when the hash that it came with does not change its own. -/
theorem verifyLines_entry
    {previous : Option String} (hprevious : previous = none ∨ isText previous = true)
    (receipt : EffectReceipt) (index : ℕ) (rest : List (List Char)) :
    verifyLines host readFloat index previous
        (canonicalDumps (.dict (entry host previous receipt)) :: rest) =
          .ok none ↔
      (previous = none → isText receipt.previousReceiptHash = false) ∧
        payloadHash host (popItem (hashedPayload previous receipt)
          "receipt_hash") = payloadHash host (hashedPayload previous receipt) ∧
        verifyLines host readFloat (index + 1)
          (some (payloadHash host (hashedPayload previous receipt))) rest =
            .ok none := by
  have hsettled : Settled (entry host previous receipt) :=
    settled_entry previous receipt
  have hsorted : ((sortedItems (entry host previous receipt)).map Prod.fst).Nodup :=
    ((sortedItems_perm _).map Prod.fst).nodup_iff.mpr hsettled.nodup
  have hrecord : PyVal.getItem (sortedItems (entry host previous receipt))
      "previous_receipt_hash" =
        PyVal.getItem (entry host previous receipt) "previous_receipt_hash" := by
    rw [PyVal.getItem, hsettled.item?_sortedItems, ← PyVal.getItem]
  have hpopped : PyVal.getItem (popItem (sortedItems
      (entry host previous receipt)) "receipt_hash") "previous_receipt_hash" =
        PyVal.getItem (entry host previous receipt) "previous_receipt_hash" := by
    rw [getItem_popItem_of_ne hsorted (by decide), hrecord]
  have hstored : (PyVal.item? (sortedItems (entry host previous receipt))
      "receipt_hash").getD (.str "") =
        .str (payloadHash host (hashedPayload previous receipt)) := by
    rw [hsettled.item?_sortedItems, item?_entry]
    rfl
  rw [verifyLines, readRecord_line hsettled]
  dsimp only
  rw [hrecord, hpopped, hstored, payloadHash_popItem_entry,
    ← linked_entry_iff host hprevious receipt]
  cases (PyVal.getItem (entry host previous receipt)
    "previous_receipt_hash").pyEq (.ofOption previous) with
  | false =>
      constructor
      · intro h
        cases previous with
        | none => simp at h
        | some text => simp at h
      · rintro ⟨h, -⟩
        cases h
  | true =>
      by_cases hhash : payloadHash host (popItem (hashedPayload previous receipt)
          "receipt_hash") = payloadHash host (hashedPayload previous receipt)
      · have heq : (PyVal.str (payloadHash host
            (hashedPayload previous receipt))).pyEq (.str (payloadHash host
              (hashedPayload previous receipt))) = true :=
          (PyVal.pyEq_str_iff _ _).mpr rfl
        simp [hhash, heq]
      · have hne : (PyVal.str (payloadHash host
            (hashedPayload previous receipt))).pyEq (.str (payloadHash host
              (popItem (hashedPayload previous receipt) "receipt_hash"))) =
                false := by
          rw [Bool.eq_false_iff, ne_eq, PyVal.pyEq_str_iff, PyVal.str.injEq]
          exact fun heq => hhash heq.symm
        simp [hhash, hne]

end Reading

/-! ## Runs of appends -/

section Runs

variable (host : Host) (readFloat : List Char → PyFloat)

def entries : Option String → List EffectReceipt → List Items
  | _, [] => []
  | previous, receipt :: rest =>
      entry host previous receipt ::
        entries (some (payloadHash host (hashedPayload previous receipt))) rest

/-- A receipt that comes with a hash of its own has another digest with it than
without it. -/
def CollisionFree : Option String → List EffectReceipt → Prop
  | _, [] => True
  | previous, receipt :: rest =>
      (receipt.receiptHash ≠ "" →
        payloadHash host (popItem (hashedPayload previous receipt)
          "receipt_hash") ≠
            payloadHash host (hashedPayload previous receipt)) ∧
      CollisionFree (some (payloadHash host (hashedPayload previous receipt)))
        rest

/-- The texts of the receipts have no separator, and neither has a hash of an
entry before that the first of them comes with. -/
def OneLiners (previous : Option String) (receipts : List EffectReceipt) : Prop :=
  (∀ receipt ∈ receipts.head?, Chained previous receipt) ∧
    ∀ receipt ∈ receipts, ∀ t ∈ receiptTexts receipt, OneLine t

variable {host readFloat}

variable {receipts : List EffectReceipt} {previous : Option String} {file : List Char}

theorem popItem_hashedPayload_of_fresh
    {receipt : EffectReceipt} (hfresh : receipt.receiptHash = "") :
    popItem (hashedPayload previous receipt) "receipt_hash" =
      hashedPayload previous receipt := by
  refine popItem_of_forall ?_
  have hpayload : ∀ item ∈ receipt.toPayload, item.1 ≠ "receipt_hash" := by
    rintro ⟨k, v⟩ hmem rfl
    exact (hash_mem_toPayload_iff.mp hmem).1 hfresh
  unfold hashedPayload
  split
  · rw [forall_mem_setItem (settled_toPayload receipt)]
    have hkeys : "previous_receipt_hash" ≠ "receipt_hash" := by decide
    exact ⟨hkeys, fun item hmem _ => hpayload item hmem⟩
  · exact hpayload

/-- The records of receipts are accepted when no receipt comes with a hash of its
own and the first record of the ledger with no hash of another. -/
theorem verifyLines_entries (hprevious : previous = none ∨ isText previous = true) (hfree : CollisionFree host previous receipts)
    (index : ℕ) :
    verifyLines host readFloat index previous
        ((entries host previous receipts).map fun items =>
          canonicalDumps (.dict items)) = .ok none ↔
      (∀ receipt ∈ receipts, receipt.receiptHash = "") ∧
        (previous = none → ∀ receipt ∈ receipts.head?,
          isText receipt.previousReceiptHash = false) := by
  induction receipts generalizing previous index with
  | nil => simp [entries, verifyLines]
  | cons receipt rest ih =>
      obtain ⟨hhash, hrest⟩ := hfree
      have hnext : some (payloadHash host (hashedPayload previous receipt)) = none ∨
          isText (some (payloadHash host (hashedPayload previous receipt))) =
            true := Or.inr (isText_payloadHash _)
      have hown : payloadHash host (popItem (hashedPayload previous receipt)
          "receipt_hash") = payloadHash host (hashedPayload previous receipt) ↔
            receipt.receiptHash = "" := by
        constructor
        · exact fun heq => by_contra fun hne => hhash hne heq
        · exact fun hfresh => by rw [popItem_hashedPayload_of_fresh hfresh]
      rw [entries, List.map_cons, verifyLines_entry hprevious, hown,
        ih hnext hrest]
      simp only [reduceCtorEq, false_imp_iff, and_true, List.forall_mem_cons,
        List.head?_cons, Option.mem_def, Option.some.injEq, forall_eq']
      tauto

theorem oneLiners_iff (hhex : HexDigests host)
    (previous : Option String) (receipts : List EffectReceipt) :
    (∀ items ∈ entries host previous receipts, ∀ item ∈ items, Unbroken item) ↔
      OneLiners previous receipts := by
  induction receipts generalizing previous with
  | nil => simp [entries, OneLiners]
  | cons receipt rest ih =>
      have hchained : ∀ next, Chained
          (some (payloadHash host (hashedPayload previous receipt))) next := by
        intro next
        rw [Chained, if_pos (isText_payloadHash _)]
        exact oneLine_payloadHash hhex _
      rw [entries, List.forall_mem_cons, unbroken_entry_iff hhex, ih]
      unfold OneLiners
      simp only [hchained, implies_true, true_and, List.forall_mem_cons,
        List.head?_cons, Option.mem_def, Option.some.injEq, forall_eq', and_assoc]

/-! ### The file -/

theorem lastHash_append (hended : Ended file) {receipt : EffectReceipt}
    (hline : filledLines (canonicalDumps (.dict (entry host previous receipt)) ++
      ['\n']) = [canonicalDumps (.dict (entry host previous receipt))]) :
    lastHash host readFloat (file ++
        (canonicalDumps (.dict (entry host previous receipt)) ++ ['\n'])) =
      .ok (some (payloadHash host (hashedPayload previous receipt))) := by
  have hsettled : Settled (entry host previous receipt) :=
    settled_entry previous receipt
  rw [lastHash, filledLines_append hended, hline, List.getLast?_concat]
  dsimp only
  rw [readRecord_line hsettled]
  dsimp only
  rw [hsettled.item?_sortedItems, item?_entry]
  rfl

theorem ended_append (file : List Char) (items : Items) :
    Ended (file ++ (canonicalDumps (.dict items) ++ ['\n'])) :=
  Ended.append file ⟨_, rfl⟩

theorem appendAll_of_unbroken (hended : Ended file)
    (hlast : lastHash host readFloat file = .ok previous)
    (hunbroken : ∀ items ∈ entries host previous receipts, ∀ item ∈ items,
      Unbroken item) :
    ∃ file', appendAll host readFloat file receipts = .ok file' ∧
      filledLines file' = filledLines file ++
        (entries host previous receipts).map fun items =>
          canonicalDumps (.dict items) := by
  induction receipts generalizing file previous with
  | nil => exact ⟨file, rfl, (List.append_nil _).symm⟩
  | cons receipt rest ih =>
      rw [entries, List.forall_mem_cons] at hunbroken
      have hline := filledLines_line (settled_entry previous receipt) hunbroken.1
      obtain ⟨file', hrun, hlines⟩ := ih (ended_append file _)
        (lastHash_append hended hline) hunbroken.2
      refine ⟨file', ?_, ?_⟩
      · rw [appendAll, append, hlast]
        exact hrun
      · rw [hlines, filledLines_append hended, hline, entries, List.map_cons,
          List.append_assoc, List.singleton_append]

theorem le_filledLines_appendAll
    {file file' : List Char} (hended : Ended file)
    (hrun : appendAll host readFloat file receipts = .ok file') :
    (filledLines file).length + receipts.length ≤ (filledLines file').length := by
  induction receipts generalizing file with
  | nil =>
      rw [appendAll, Except.ok.injEq] at hrun
      rw [hrun]
      exact le_rfl
  | cons receipt rest ih =>
      rw [appendAll, append] at hrun
      cases hlast : lastHash host readFloat file with
      | error err =>
          rw [hlast] at hrun
          cases hrun
      | ok previous =>
          rw [hlast] at hrun
          have hrest := ih (ended_append file _) hrun
          have hpos := filledLines_line_pos (entry host previous receipt)
          rw [filledLines_append hended, List.length_append] at hrest
          rw [List.length_cons]
          omega

theorem unbroken_of_appendAll
    {file file' : List Char} (hended : Ended file)
    (hlast : lastHash host readFloat file = .ok previous)
    (hrun : appendAll host readFloat file receipts = .ok file')
    (hcount : (filledLines file').length =
      (filledLines file).length + receipts.length) :
    ∀ items ∈ entries host previous receipts, ∀ item ∈ items, Unbroken item := by
  induction receipts generalizing file previous with
  | nil =>
      intro items hitems
      cases hitems
  | cons receipt rest ih =>
      rw [appendAll, append, hlast] at hrun
      have hnext := ended_append file (entry host previous receipt)
      have hrest := le_filledLines_appendAll hnext hrun
      have hsettled : Settled (entry host previous receipt) :=
        settled_entry previous receipt
      rw [filledLines_append hended, List.length_append] at hrest
      rw [List.length_cons] at hcount
      have hfirst : ∀ item ∈ entry host previous receipt, Unbroken item := by
        by_contra hbroken
        have htwo := two_le_filledLines_line hsettled hbroken
        omega
      have hline := filledLines_line hsettled hfirst
      rw [entries, List.forall_mem_cons]
      refine ⟨hfirst, ih hnext (lastHash_append hended hline) hrun ?_⟩
      rw [filledLines_append hended, List.length_append, hline,
        List.length_singleton]
      omega

theorem length_entries (previous : Option String) (receipts : List EffectReceipt) :
    (entries host previous receipts).length = receipts.length := by
  induction receipts generalizing previous with
  | nil => rfl
  | cons receipt rest ih =>
      rw [entries, List.length_cons, ih, List.length_cons]

theorem settled_of_mem_entries :
    ∀ items ∈ entries host previous receipts, Settled items := by
  induction receipts generalizing previous with
  | nil =>
      intro items hitems
      cases hitems
  | cons receipt rest ih =>
      rw [entries, List.forall_mem_cons]
      exact ⟨settled_entry previous receipt, ih⟩

theorem verifyChain_accepted_iff {count : ℕ} :
    verifyChain host readFloat file = .ok (.accepted count) ↔
      verifyLines host readFloat 0 none (filledLines file) = .ok none ∧
        (filledLines file).length = count := by
  unfold verifyChain
  split
  · next herror => simp [herror]
  · next herror => simp [herror]
  · next hnone => simp [hnone]

theorem oneLiners_of_fresh
    (hfirst : ∀ receipt ∈ receipts.head?,
      isText receipt.previousReceiptHash = false)
    (htexts : ∀ receipt ∈ receipts, ∀ t ∈ receiptTexts receipt, OneLine t) :
    OneLiners none receipts := by
  refine ⟨fun receipt hreceipt => ?_, htexts⟩
  have hempty : receipt.previousReceiptHash.getD "" = "" := by
    have htext := hfirst receipt hreceipt
    cases hprevious : receipt.previousReceiptHash with
    | none => rfl
    | some text =>
        rw [hprevious] at htext
        simpa [isText] using htext
  rw [Chained, if_neg (by decide), hempty]
  decide

/-- The ledger is consistent with itself if and only if no text of a receipt has a
separator, no receipt comes with a hash of its own, and the first receipt comes
with no hash of another. -/
theorem selfConsistent_iff
    (hhex : HexDigests host) (receipts : List EffectReceipt)
    (hfree : CollisionFree host none receipts) :
    SelfConsistent host readFloat receipts ↔
      (∀ receipt ∈ receipts, receipt.receiptHash = "" ∧
        ∀ t ∈ receiptTexts receipt, OneLine t) ∧
      ∀ receipt ∈ receipts.head?,
        isText receipt.previousReceiptHash = false := by
  have hended : Ended [] := Or.inl rfl
  have hlast : lastHash host readFloat [] = .ok none := rfl
  have hverify : ∀ file, filledLines file =
      (entries host none receipts).map (fun items =>
        canonicalDumps (.dict items)) →
      (verifyLines host readFloat 0 none (filledLines file) = .ok none ↔
        (∀ receipt ∈ receipts, receipt.receiptHash = "") ∧
          ∀ receipt ∈ receipts.head?,
            isText receipt.previousReceiptHash = false) := by
    intro file hlines
    rw [hlines, verifyLines_entries (Or.inl rfl) hfree]
    simp
  constructor
  · rintro ⟨file, records, hrun, hread, hrecords, haccepted⟩
    obtain ⟨hlinked, -⟩ := verifyChain_accepted_iff.mp haccepted
    have hcount : (filledLines file).length = receipts.length := by
      have hlengths := congrArg List.length hread
      rw [List.length_map, List.length_map] at hlengths
      rw [hlengths, hrecords]
    have hunbroken := unbroken_of_appendAll hended hlast hrun
      (hcount.trans (Nat.zero_add _).symm)
    obtain ⟨file', hrun', hlines⟩ :=
      appendAll_of_unbroken hended hlast hunbroken
    obtain rfl : file' = file := Except.ok.inj (hrun'.symm.trans hrun)
    obtain ⟨hfresh, hfirst⟩ := (hverify file' hlines).mp hlinked
    have htexts := ((oneLiners_iff hhex none receipts).mp hunbroken).2
    exact ⟨fun receipt hmem => ⟨hfresh receipt hmem, htexts receipt hmem⟩,
      hfirst⟩
  · rintro ⟨hreceipts, hfirst⟩
    have hunbroken := (oneLiners_iff hhex none receipts).mpr
      (oneLiners_of_fresh hfirst fun receipt hmem => (hreceipts receipt hmem).2)
    obtain ⟨file, hrun, hlines⟩ := appendAll_of_unbroken hended hlast hunbroken
    have hlines : filledLines file = (entries host none receipts).map fun items =>
        canonicalDumps (.dict items) := hlines
    have hcount : (filledLines file).length = receipts.length := by
      rw [hlines, List.length_map, length_entries]
    refine ⟨file, (entries host none receipts).map fun items =>
      .dict (sortedItems items), hrun, ?_, ?_, ?_⟩
    · rw [hlines, List.map_map, List.map_map]
      exact List.map_congr_left fun items hitems =>
        (settled_of_mem_entries items hitems).loads_canonicalDumps readFloat
    · rw [List.length_map, length_entries]
    · exact verifyChain_accepted_iff.mpr ⟨(hverify file hlines).mpr
        ⟨fun receipt hmem => (hreceipts receipt hmem).1, hfirst⟩, hcount⟩

/-! ### The executor's list of receipts -/

theorem entries_eq_stored (s : ExecutorServices)
    (hdigest : ∀ v, s.host.sha256Hex v =
      s.host.sha256Text (String.ofList (canonicalDumps v)))
    (receipts : List EffectReceipt) (before : List Items) :
    receipts.foldl (fun stored receipt =>
        stored ++ [(s.stored stored receipt).2]) before =
      before ++ entries s.host (s.lastHash before) receipts := by
  induction receipts generalizing before with
  | nil => exact (List.append_nil before).symm
  | cons receipt rest ih =>
      have hentry : (s.stored before receipt).2 =
          entry s.host (s.lastHash before) receipt := by
        rw [entry, payloadHash, ← hdigest]
        rfl
      have hlast : s.lastHash (before ++
          [entry s.host (s.lastHash before) receipt]) =
            some (payloadHash s.host
              (hashedPayload (s.lastHash before) receipt)) := by
        rw [ExecutorServices.lastHash, List.getLast?_concat, Option.map_some,
          item?_entry]
        rfl
      rw [List.foldl_cons, hentry, ih, hlast, entries, List.append_assoc,
        List.singleton_append]

end Runs

/-! ## Concrete ledgers -/

theorem referenceHost_hexDigests : HexDigests referenceHost := by
  intro text c hc
  have hdigit : ∀ n < 16, (Nat.digitChar n).toNat < 128 := by decide
  have hdigest : c ∈ (digestHex (utf8 text)).toList := hc
  rw [digestHex, String.toList_ofList] at hdigest
  obtain ⟨i, -, rfl⟩ := List.mem_map.mp hdigest
  exact hdigit _ (Nat.mod_lt _ (by decide))

def reportReceipt : EffectReceipt where
  receiptId := "oea_receipt_1"
  bindingId := "oea_binding_1"
  capabilityId := "local_report_file.write"
  authorityRef := "authority_1"
  ueakCommitRef := "ueak_1"
  inputHash := "sha256:input"
  resultStatus := "executed"
  outputHash := "sha256:output"
  touchedResources := ["report.md"]
  startedAt := "2026-03-01T00:00:00Z"
  completedAt := "2026-03-01T00:00:00Z"

def separatedReceipt : EffectReceipt :=
  { reportReceipt with
    resultStatus := "failed"
    errorMessageRedacted :=
      some (String.ofList ['a', Char.ofNat 8232, 'b']) }

def carriedReceipt : EffectReceipt :=
  { reportReceipt with receiptHash := "sha256:stored" }

theorem carriedReceipt_collisionFree :
    CollisionFree referenceHost none [carriedReceipt] := by
  refine ⟨fun _ => ?_, trivial⟩
  decide +kernel

/-- Two fresh receipts make a ledger that is consistent, and a receipt that was
stored before does not. -/
theorem fresh_receipts_consistent :
    SelfConsistent referenceHost (fun _ => .nan)
        [reportReceipt, { reportReceipt with previousReceiptHash := "old" }] ∧
      ¬SelfConsistent referenceHost (fun _ => .nan) [carriedReceipt] := by
  constructor
  · refine (selfConsistent_iff referenceHost_hexDigests _ ?_).mpr ?_
    · exact ⟨fun hne => absurd rfl hne, fun hne => absurd rfl hne, trivial⟩
    · decide
  · intro hconsistent
    have hcondition := (selfConsistent_iff referenceHost_hexDigests _
      carriedReceipt_collisionFree).mp hconsistent
    revert hcondition
    decide

/-- A line separator in a text makes two lines of a receipt. -/
theorem separated_receipt_inconsistent :
    ¬SelfConsistent referenceHost (fun _ => .nan) [separatedReceipt] := by
  rintro ⟨file, records, hrun, hread, hrecords, -⟩
  have hcount : (filledLines file).length = 0 + [separatedReceipt].length := by
    have hlengths := congrArg List.length hread
    rw [List.length_map, List.length_map, hrecords] at hlengths
    rw [hlengths, Nat.zero_add]
  have hunbroken := unbroken_of_appendAll (Or.inl rfl) rfl hrun hcount
  have htexts := ((oneLiners_iff referenceHost_hexDigests none _).mp hunbroken).2
  revert htexts
  decide

end ReceiptLedger

end Hydrogenuine.Oea
