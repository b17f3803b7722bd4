import Hydrogenuine.Social.Publishing

/-!
# Items and posts under writes

What a write of the queue keeps, if it goes by the queue that is there: the items have
identifiers of their own, nothing is posted twice, and what has been posted is marked by
the process that has posted it.
-/

namespace Hydrogenuine.Social

open Support Hydrogenuine.Core

/-! ## What a write leaves -/

section Writes

variable {k : Knows} {old new : List Item}

theorem exists_of_mem_forall₂ {R : Item → Item → Prop} (h : List.Forall₂ R old new) :
    ∀ item ∈ new, ∃ item' ∈ old, R item' item := by
  induction h with
  | nil => exact fun _ h => by cases h
  | cons hR _ ih =>
      intro item hitem
      rcases List.mem_cons.mp hitem with rfl | hrest
      · exact ⟨_, List.mem_cons_self, hR⟩
      · obtain ⟨item', hmem, hR'⟩ := ih item hrest
        exact ⟨item', List.mem_cons_of_mem _ hmem, hR'⟩

theorem ids_of_forall₂ (h : List.Forall₂ (ItemChange k) old new) :
    new.map Item.queueItemId = old.map Item.queueItemId := by
  induction h with
  | nil => rfl
  | cons hchange _ ih => rw [List.map_cons, List.map_cons, hchange.1, ih]

theorem ItemsChange.origin (h : ItemsChange k old new) {item : Item} (hitem : item ∈ new) :
    (∃ item' ∈ old, ItemChange k item' item) ∨
      ∃ digits ∈ k.drawn, item.queueItemId = "sri-" ++ digits ∧ item.status = .queued := by
  obtain ⟨changed, added, rfl, hchanged, hadded⟩ := h.changes
  rcases List.mem_append.mp hitem with hmem | hmem
  · exact Or.inl (exists_of_mem_forall₂ hchanged item hmem)
  · rcases hadded with rfl | ⟨item', digits, rfl, hdrawn, hid, hstatus⟩
    · cases hmem
    · obtain rfl := List.mem_singleton.mp hmem
      exact Or.inr ⟨digits, hdrawn, hid, hstatus⟩

theorem ItemsChange.ids (h : ItemsChange k old new) :
    new.map Item.queueItemId = old.map Item.queueItemId ∨
      ∃ digits ∈ k.drawn,
        new.map Item.queueItemId = old.map Item.queueItemId ++ ["sri-" ++ digits] := by
  obtain ⟨changed, added, rfl, hchanged, hadded⟩ := h.changes
  rw [List.map_append, ids_of_forall₂ hchanged]
  rcases hadded with rfl | ⟨item, digits, rfl, hdrawn, hid, -⟩
  · exact Or.inl (List.append_nil _)
  · exact Or.inr ⟨digits, hdrawn, by rw [List.map_singleton, hid]⟩

end Writes

/-! ## Identifiers -/

/-- The items have identifiers of their own, which have been drawn, and what a process
has drawn since its last write is nobody else's. -/
structure Identified
    (host : Host) (items : List Item) (draws : ℕ) (drawn : ℕ → List String) : Prop where
  distinct : (items.map Item.queueItemId).Nodup
  issued : ∀ item ∈ items, ∃ n < draws, item.queueItemId = "sri-" ++ host.uuidHex n
  fresh : ∀ i, ∀ digits ∈ drawn i, (∃ n < draws, digits = host.uuidHex n) ∧
    "sri-" ++ digits ∉ items.map Item.queueItemId
  apart : ∀ i j digits, digits ∈ drawn i → digits ∈ drawn j → i = j

section Identified

variable {host : Host} {items new : List Item} {draws : ℕ} {drawn : ℕ → List String}
  {k : Knows} {i : ℕ}

theorem Identified.draw (h : Identified host items draws drawn) (i : ℕ) :
    Identified host items (draws + 1)
      (Function.update drawn i (host.uuidHex draws :: drawn i)) := by
  have hnew (j : ℕ) : host.uuidHex draws ∉ drawn j := fun hmem => by
    obtain ⟨⟨n, hn, hdigits⟩, -⟩ := h.fresh j _ hmem
    exact hn.ne (host.uuidHex_injective hdigits).symm
  have hfresh : "sri-" ++ host.uuidHex draws ∉ items.map Item.queueItemId := fun hmem => by
    obtain ⟨item, hitem, hid⟩ := List.mem_map.mp hmem
    obtain ⟨n, hn, hid'⟩ := h.issued item hitem
    have hdigits := String.append_right_inj _ |>.mp (hid'.symm.trans hid)
    exact hn.ne (host.uuidHex_injective hdigits)
  have hcases (j : ℕ) (digits : String)
      (hmem : digits ∈ Function.update drawn i (host.uuidHex draws :: drawn i) j) :
      (j = i ∧ digits = host.uuidHex draws) ∨ digits ∈ drawn j := by
    by_cases hj : j = i
    · subst hj
      rw [Function.update_self] at hmem
      exact (List.mem_cons.mp hmem).imp (fun hd => ⟨rfl, hd⟩) id
    · rw [Function.update_of_ne hj] at hmem
      exact Or.inr hmem
  refine ⟨h.distinct, ?_, ?_, ?_⟩
  · intro item hitem
    obtain ⟨n, hn, hid⟩ := h.issued item hitem
    exact ⟨n, Nat.lt_succ_of_lt hn, hid⟩
  · intro j digits hmem
    rcases hcases j digits hmem with ⟨-, rfl⟩ | hold
    · exact ⟨⟨draws, Nat.lt_succ_self _, rfl⟩, hfresh⟩
    · obtain ⟨⟨n, hn, hdigits⟩, hnot⟩ := h.fresh j digits hold
      exact ⟨⟨n, Nat.lt_succ_of_lt hn, hdigits⟩, hnot⟩
  · intro j j' digits hmem hmem'
    rcases hcases j digits hmem with ⟨rfl, rfl⟩ | hold
    · rcases hcases j' _ hmem' with ⟨rfl, -⟩ | hold'
      · rfl
      · exact absurd hold' (hnew j')
    · rcases hcases j' digits hmem' with ⟨rfl, rfl⟩ | hold'
      · exact absurd hold (hnew j)
      · exact h.apart j j' digits hold hold'

theorem Identified.write
    (h : Identified host items draws drawn) (hchange : ItemsChange k items new)
    (hdrawn : k.drawn = drawn i) :
    Identified host new draws (Function.update drawn i []) := by
  have hmem (j : ℕ) (digits : String) (hmem : digits ∈ Function.update drawn i [] j) :
      j ≠ i ∧ digits ∈ drawn j := by
    by_cases hj : j = i
    · subst hj
      rw [Function.update_self] at hmem
      cases hmem
    · rw [Function.update_of_ne hj] at hmem
      exact ⟨hj, hmem⟩
  refine ⟨?_, ?_, ?_, ?_⟩
  · rcases hchange.ids with hids | ⟨digits, hdigits, hids⟩
    · rw [hids]
      exact h.distinct
    · rw [hids]
      rw [hdrawn] at hdigits
      exact List.nodup_append.mpr ⟨h.distinct, List.nodup_singleton _, by
        intro id hid id' hid' hsame
        rw [List.mem_singleton.mp hid'] at hsame
        exact (h.fresh i digits hdigits).2 (hsame ▸ hid)⟩
  · intro item hitem
    rcases hchange.origin hitem with ⟨item', hitem', hid, -⟩ | ⟨digits, hdigits, hid, -⟩
    · rw [hid]
      exact h.issued item' hitem'
    · rw [hdrawn] at hdigits
      obtain ⟨⟨n, hn, rfl⟩, -⟩ := h.fresh i digits hdigits
      exact ⟨n, hn, hid⟩
  · intro j digits hdigits
    obtain ⟨hj, hold⟩ := hmem j digits hdigits
    obtain ⟨hissued, hnot⟩ := h.fresh j digits hold
    refine ⟨hissued, ?_⟩
    rcases hchange.ids with hids | ⟨digits', hdigits', hids⟩
    · rw [hids]
      exact hnot
    · rw [hids, List.mem_append, not_or, List.mem_singleton]
      refine ⟨hnot, fun hsame => ?_⟩
      obtain rfl := String.append_right_inj _ |>.mp hsame
      rw [hdrawn] at hdigits'
      exact hj (h.apart j i _ hold hdigits')
  · intro j j' digits hdigits hdigits'
    exact h.apart j j' digits (hmem j digits hdigits).2 (hmem j' digits hdigits').2

end Identified

/-! ## Posts -/

/-- Nothing has been posted twice; what a process has posted and not marked is approved,
and nobody else's; what nobody has left to mark is published. -/
structure Posted (items : List Item) (posts : List String) (owes : ℕ → Option String) :
    Prop where
  once : posts.Nodup
  known : ∀ id ∈ posts, id ∈ items.map Item.queueItemId
  settled : ∀ id ∈ posts, (∀ i, owes i ≠ some id) →
    ∀ item ∈ items, item.queueItemId = id → item.status = .published
  owed : ∀ i id, owes i = some id → id ∈ posts ∧
    ∀ item ∈ items, item.queueItemId = id → item.status = .approved
  owner : ∀ i j id, owes i = some id → owes j = some id → i = j

section Posted

variable {host : Host} {items new : List Item} {posts : List String}
  {owes : ℕ → Option String} {draws : ℕ} {drawn : ℕ → List String} {k : Knows} {i : ℕ}

variable {item : Item}

theorem Posted.post
    (h : Posted items posts owes) (hnodup : (items.map Item.queueItemId).Nodup) (hitem : item ∈ items) (hstatus : item.status = .approved)
    (hfree : ∀ j, owes j ≠ some item.queueItemId) (hnone : owes i = none) :
    Posted items (posts ++ [item.queueItemId])
      (Function.update owes i (some item.queueItemId)) := by
  have hunposted : item.queueItemId ∉ posts := fun hmem => by
    have hpublished := h.settled _ hmem hfree item hitem rfl
    rw [hstatus] at hpublished
    cases hpublished
  have howes (j : ℕ) (id : String)
      (h' : Function.update owes i (some item.queueItemId) j = some id) :
      (j = i ∧ id = item.queueItemId) ∨ (j ≠ i ∧ owes j = some id) := by
    by_cases hj : j = i
    · subst hj
      rw [Function.update_self] at h'
      exact Or.inl ⟨rfl, (Option.some.inj h').symm⟩
    · rw [Function.update_of_ne hj] at h'
      exact Or.inr ⟨hj, h'⟩
  refine ⟨?_, ?_, ?_, ?_, ?_⟩
  · refine List.nodup_append.mpr ⟨h.once, List.nodup_singleton _, ?_⟩
    intro id hid id' hid' hsame
    rw [List.mem_singleton.mp hid'] at hsame
    exact hunposted (hsame ▸ hid)
  · intro id hid
    rcases List.mem_append.mp hid with hold | hnew
    · exact h.known id hold
    · rw [List.mem_singleton.mp hnew]
      exact List.mem_map_of_mem hitem
  · intro id hid hnobody
    rcases List.mem_append.mp hid with hold | hnew
    · refine h.settled id hold fun j hj => ?_
      by_cases hji : j = i
      · subst hji
        rw [hnone] at hj
        cases hj
      · exact hnobody j (by rwa [Function.update_of_ne hji])
    · refine absurd ?_ (hnobody i)
      rw [Function.update_self, List.mem_singleton.mp hnew]
  · intro j id hj
    rcases howes j id hj with ⟨-, rfl⟩ | ⟨-, hold⟩
    · refine ⟨List.mem_append_right _ (List.mem_singleton_self _), fun item' hitem' hid => ?_⟩
      rw [List.inj_on_of_nodup_map hnodup hitem' hitem hid]
      exact hstatus
    · exact ⟨List.mem_append_left _ (h.owed j id hold).1, (h.owed j id hold).2⟩
  · intro j j' id hj hj'
    rcases howes j id hj with ⟨rfl, rfl⟩ | ⟨hji, hold⟩
    · rcases howes j' _ hj' with ⟨rfl, -⟩ | ⟨-, hold'⟩
      · rfl
      · exact absurd hold' (hfree j')
    · rcases howes j' id hj' with ⟨rfl, rfl⟩ | ⟨-, hold'⟩
      · exact absurd hold (hfree j)
      · exact h.owner j j' id hold hold'

theorem ItemsChange.status
    (hchange : ItemsChange k items new) (hids : Identified host items draws drawn)
    (hdrawn : k.drawn = drawn i) (hitem : item ∈ new)
    (hold : item.queueItemId ∈ items.map Item.queueItemId) :
    ∃ item' ∈ items, item'.queueItemId = item.queueItemId ∧
      (item.status = item'.status ∨
        item'.status = .queued ∧ (item.status = .approved ∨ item.status = .denied) ∨
        k.owes = some item.queueItemId ∧ item.status = .published) := by
  rcases hchange.origin hitem with ⟨item', hitem', hid, hstatus⟩ | ⟨digits, hdigits, hid, -⟩
  · exact ⟨item', hitem', hid.symm, hid ▸ hstatus⟩
  · rw [hdrawn] at hdigits
    exact absurd (hid ▸ hold) (hids.fresh i digits hdigits).2

theorem Posted.write
    (h : Posted items posts owes) (hchange : ItemsChange k items new)
    (hids : Identified host items draws drawn) (hdrawn : k.drawn = drawn i)
    (hk : k.owes = owes i) :
    Posted new posts (Function.update owes i none) := by
  have howes (j : ℕ) (id : String) (h' : Function.update owes i none j = some id) :
      j ≠ i ∧ owes j = some id := by
    by_cases hj : j = i
    · subst hj
      rw [Function.update_self] at h'
      cases h'
    · rw [Function.update_of_ne hj] at h'
      exact ⟨hj, h'⟩
  refine ⟨h.once, ?_, ?_, ?_, ?_⟩
  · intro id hid
    rcases hchange.ids with hsame | ⟨digits, -, hsame⟩
    · rw [hsame]
      exact h.known id hid
    · rw [hsame]
      exact List.mem_append_left _ (h.known id hid)
  · intro id hid hnobody item hitem hsame
    subst hsame
    by_cases hmine : owes i = some item.queueItemId
    · exact hchange.marks item hitem (hk.trans hmine)
    · have hfree (j : ℕ) : owes j ≠ some item.queueItemId := fun hj => by
        by_cases hji : j = i
        · exact hmine (hji ▸ hj)
        · exact hnobody j (by rwa [Function.update_of_ne hji])
      obtain ⟨item', hitem', hid', hstatus⟩ :=
        hchange.status hids hdrawn hitem (h.known _ hid)
      have hpublished := h.settled _ hid hfree item' hitem' hid'
      rcases hstatus with hsame | ⟨hqueued, -⟩ | ⟨hmine', -⟩
      · exact hsame.trans hpublished
      · rw [hpublished] at hqueued
        cases hqueued
      · exact absurd (hk ▸ hmine') hmine
  · intro j id hj
    obtain ⟨hji, hold⟩ := howes j id hj
    obtain ⟨hposted, happroved⟩ := h.owed j id hold
    refine ⟨hposted, fun item hitem hsame => ?_⟩
    subst hsame
    obtain ⟨item', hitem', hid', hstatus⟩ :=
      hchange.status hids hdrawn hitem (h.known _ hposted)
    have happroved' := happroved item' hitem' hid'
    rcases hstatus with hsame | ⟨hqueued, -⟩ | ⟨hmine, -⟩
    · exact hsame.trans happroved'
    · rw [happroved'] at hqueued
      cases hqueued
    · exact absurd (h.owner j i _ hold (hk ▸ hmine)) hji
  · intro j j' id hj hj'
    exact h.owner j j' id (howes j id hj).2 (howes j' id hj').2

theorem Posted.publishes
    (h : Posted items posts owes) (hchange : ItemsChange k items new)
    (hk : k.owes = owes i) (hitem : item ∈ new)
    (hpublished : item.status = .published) :
    ∃ item' ∈ items, item'.queueItemId = item.queueItemId ∧
      (item'.status = .published ∨ item'.status = .approved) := by
  rcases hchange.origin hitem with ⟨item', hitem', hid, hstatus⟩ | ⟨-, -, -, hqueued⟩
  · refine ⟨item', hitem', hid.symm, ?_⟩
    rcases hstatus with hsame | ⟨-, happroved | hdenied⟩ | ⟨hmine, -⟩
    · exact Or.inl (hsame.symm.trans hpublished)
    · rw [hpublished] at happroved
      cases happroved
    · rw [hpublished] at hdenied
      cases hdenied
    · exact Or.inr ((h.owed i _ (hk ▸ hmine)).2 item' hitem' rfl)
  · rw [hpublished] at hqueued
    cases hqueued

theorem Posted.denied
    (h : Posted items posts owes) (hchange : ItemsChange k items new)
    (hids : Identified host items draws drawn) (hdrawn : k.drawn = drawn i)
    (hk : k.owes = owes i) (hitem : item ∈ new) {id : String}
    (hid : item.queueItemId = id) (hknown : id ∈ items.map Item.queueItemId)
    (hdenied : ∀ item ∈ items, item.queueItemId = id → item.status = .denied) :
    item.status = .denied := by
  subst hid
  obtain ⟨item', hitem', hid', hstatus⟩ := hchange.status hids hdrawn hitem hknown
  have hdenied' := hdenied item' hitem' hid'
  rcases hstatus with hsame | ⟨hqueued, -⟩ | ⟨hmine, -⟩
  · exact hsame.trans hdenied'
  · rw [hdenied'] at hqueued
    cases hqueued
  · have happroved := (h.owed i _ (hk ▸ hmine)).2 item' hitem' hid'
    rw [hdenied'] at happroved
    cases happroved

end Posted

end Hydrogenuine.Social
