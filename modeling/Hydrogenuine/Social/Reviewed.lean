import Hydrogenuine.Core.ReferenceHost
import Hydrogenuine.Social.Posts

/-!
# Publishing reviewed items once

The operations write back the queue that they have loaded, and picking an item does not
claim it.  Along the interleavings in which no write overwrites what its process has not
seen, an item is only posted while it is approved and nobody else has posted it, and no
pause falls into a pick, every item is published at most once, and only after review.
-/

namespace Hydrogenuine.Social

open Support Hydrogenuine.Core

/-! ## One access -/

abbrev ReviewProcess := Process Access Answer PyError Result Knows

def drawnOf (w : Run) (i : ℕ) : List String :=
  ((w.procs i).map fun p => p.knows.drawn).getD []

def owesOf (w : Run) (i : ℕ) : Option String := (w.procs i).bind fun p => p.knows.owes

def Access.publishes : Access → Bool
  | .publish _ _ => true
  | _ => false

/-- The process is a publisher that has looked at the control file, and has not picked an
item yet. -/
def Picking (p : ReviewProcess) : Prop :=
  p.knows.op.publishes = true ∧ p.knows.control.isSome ∧ p.knows.tried = false ∧
    ∃ a, p.rest.next? = some a ∧ a.publishes = false

/-- A write finds the queue that its process has loaded last; an item is only posted
where the file has it as approved and nobody has posted it and not marked it; no pause
is written while somebody is picking. -/
def Careful (w : Run) : PoolInput Operation → Prop
  | .start _ _ => True
  | .run i => ∀ p, w.procs i = some p →
      match p.rest.next? with
      | some (.writeQueue _) => p.knows.queue = some w.shared.queue
      | some (.publish id true) =>
          (∃ item ∈ w.shared.queue.items, item.queueItemId = id ∧
            item.status = .approved) ∧ ∀ j, owesOf w j ≠ some id
      | some (.saveControl _) =>
          p.knows.op.pauses = true → ∀ j q, w.procs j = some q → ¬ Picking q
      | _ => True

/-- What holds between two accesses. -/
structure Orderly (env : ReviewEnv) (w : Run) : Prop where
  allowed : ∀ i p, w.procs i = some p → Allowed p.knows p.rest fun _ _ => True
  identified : Identified env.host w.shared.queue.items w.shared.draws (drawnOf w)
  posted : Posted w.shared.queue.items w.shared.posts (owesOf w)
  picks : ∀ i p, w.procs i = some p → Picking p → ∀ control, p.knows.control = some control →
    ¬ Paused control → ¬ Paused w.shared.control

section OneAccess

variable {env : ReviewEnv} {w : Run} {i : ℕ} {k : Knows} {a : Access}
  {next : Answer a → ReviewProgram Result} {r : Answer a} {files : Files}

theorem drawnOf_update (p : ReviewProcess) :
    drawnOf ⟨files, Function.update w.procs i (some p)⟩ =
      Function.update (drawnOf w) i p.knows.drawn := by
  funext j
  unfold drawnOf
  by_cases hj : j = i
  · subst hj
    simp
  · simp [hj]

theorem owesOf_update (p : ReviewProcess) :
    owesOf ⟨files, Function.update w.procs i (some p)⟩ =
      Function.update (owesOf w) i p.knows.owes := by
  funext j
  unfold owesOf
  by_cases hj : j = i
  · subst hj
    simp
  · simp [hj]

theorem drawnOf_eq {p : ReviewProcess} (hp : w.procs i = some p) :
    drawnOf w i = p.knows.drawn := by
  unfold drawnOf
  rw [hp]
  rfl

theorem owesOf_eq {p : ReviewProcess} (hp : w.procs i = some p) :
    owesOf w i = p.knows.owes := by
  unfold owesOf
  rw [hp]
  rfl

/-- The control file that a process has seen while it was picking is the one that is
there, or it has seen it before. -/
theorem picking_before
    (hpublishes : k.op.publishes = true)
    (huntried : (learns k a (perform env.host w.shared a).2).tried = false) {control : Items}
    (hcontrol : (learns k a (perform env.host w.shared a).2).control = some control) :
    control = w.shared.control ∨
      (Picking ⟨k, .access a next⟩ ∧ k.control = some control) := by
  have hpicking (huntried : k.tried = false) (hquiet : a.publishes = false)
      (hsome : k.control = some control) : Picking ⟨k, .access a next⟩ :=
    ⟨hpublishes, hsome ▸ rfl, huntried, a, rfl, hquiet⟩
  cases a with
  | loadControl =>
      have hread : k.control.or (some w.shared.control) = some control := hcontrol
      cases hsome : k.control with
      | none =>
          rw [hsome] at hread
          exact Or.inl (Option.some.inj hread).symm
      | some first =>
          rw [hsome] at hread
          obtain rfl := Option.some.inj hread
          exact Or.inr ⟨hpicking huntried rfl hsome, rfl⟩
  | saveControl _ => exact Or.inr ⟨hpicking huntried rfl hcontrol, hcontrol⟩
  | loadQueue => exact Or.inr ⟨hpicking huntried rfl hcontrol, hcontrol⟩
  | writeQueue _ => exact Or.inr ⟨hpicking huntried rfl hcontrol, hcontrol⟩
  | draw => exact Or.inr ⟨hpicking huntried rfl hcontrol, hcontrol⟩
  | publish _ _ => cases huntried

theorem Orderly.access
    (h : Orderly env w) (hp : w.procs i = some ⟨k, .access a next⟩)
    (hids : Identified env.host files.queue.items files.draws
      (Function.update (drawnOf w) i (learns k a r).drawn))
    (hposted : Posted files.queue.items files.posts
      (Function.update (owesOf w) i (learns k a r).owes))
    (hpicks : ∀ j q, Function.update w.procs i
        (some (Process.resume learns k a next r)) j = some q → Picking q →
      ∀ control, q.knows.control = some control → ¬ Paused control →
        ¬ Paused files.control) :
    Orderly env ⟨files, Function.update w.procs i
      (some (Process.resume learns k a next r))⟩ where
  allowed := fun j q hq => by
    change Function.update w.procs i _ j = some q at hq
    by_cases hj : j = i
    · subst hj
      rw [Function.update_self] at hq
      obtain rfl := Option.some.inj hq
      exact (h.allowed j _ hp).2 r
    · rw [Function.update_of_ne hj] at hq
      exact h.allowed j q hq
  identified := by
    rw [drawnOf_update]
    exact hids
  posted := by
    rw [owesOf_update]
    exact hposted
  picks := hpicks

theorem learns_op : (learns k a r).op = k.op := by
  cases a <;> rfl

theorem Orderly.picks_access
    (h : Orderly env w) (hp : w.procs i = some ⟨k, .access a next⟩)
    (hcontrol : files.control = w.shared.control) (j : ℕ) (q : ReviewProcess)
    (hq : Function.update w.procs i (some (Process.resume learns k a next
      (perform env.host w.shared a).2)) j = some q) (hpicking : Picking q)
    (control : Items) (hseen : q.knows.control = some control) (hopen : ¬ Paused control) :
    ¬ Paused files.control := by
  rw [hcontrol]
  by_cases hj : j = i
  · subst hj
    rw [Function.update_self] at hq
    obtain rfl := Option.some.inj hq
    obtain ⟨hpublishes, -, huntried, -⟩ := hpicking
    have hop : k.op.publishes = true := by rwa [Process.resume, learns_op] at hpublishes
    rcases picking_before hop huntried hseen with rfl | ⟨hbefore, hsame⟩
    · exact hopen
    · exact h.picks j _ hp hbefore control hsame hopen
  · rw [Function.update_of_ne hj] at hq
    exact h.picks j q hq hpicking control hseen hopen

/-- An access that leaves the queue, the posts and what the process has drawn and posted
as they are. -/
theorem Orderly.access_quiet
    (h : Orderly env w) (hp : w.procs i = some ⟨k, .access a next⟩)
    (hqueue : files.queue = w.shared.queue) (hdraws : files.draws = w.shared.draws)
    (hposts : files.posts = w.shared.posts) (hdrawn : (learns k a r).drawn = k.drawn)
    (howes : (learns k a r).owes = k.owes)
    (hpicks : ∀ j q, Function.update w.procs i
        (some (Process.resume learns k a next r)) j = some q → Picking q →
      ∀ control, q.knows.control = some control → ¬ Paused control →
        ¬ Paused files.control) :
    Orderly env ⟨files, Function.update w.procs i
      (some (Process.resume learns k a next r))⟩ := by
  refine h.access hp ?_ ?_ hpicks
  · have hsame : (learns k a r).drawn = drawnOf w i := hdrawn.trans (drawnOf_eq hp).symm
    rw [hsame, Function.update_eq_self, hqueue, hdraws]
    exact h.identified
  · have hsame : (learns k a r).owes = owesOf w i := howes.trans (owesOf_eq hp).symm
    rw [hsame, Function.update_eq_self, hqueue, hposts]
    exact h.posted

/-- An access of an orderly run, taken with care. -/
theorem Orderly.run
    (h : Orderly env w) (hp : w.procs i = some ⟨k, .access a next⟩)
    (hcareful : Careful w (.run i)) :
    Orderly env ⟨(perform env.host w.shared a).1, Function.update w.procs i
      (some (Process.resume learns k a next (perform env.host w.shared a).2))⟩ := by
  have hallowed := (h.allowed i _ hp).1
  have hguard := hcareful _ hp
  cases a with
  | loadControl => exact h.access_quiet hp rfl rfl rfl rfl rfl (h.picks_access hp rfl)
  | loadQueue => exact h.access_quiet hp rfl rfl rfl rfl rfl (h.picks_access hp rfl)
  | saveControl control =>
      refine h.access_quiet hp rfl rfl rfl rfl rfl ?_
      intro j q hq hpicking
      rcases hallowed with ⟨hpauses, hpaused⟩ | ⟨-, hopen⟩
      · refine absurd hpicking ?_
        by_cases hj : j = i
        · subst hj
          rw [Function.update_self] at hq
          obtain rfl := Option.some.inj hq
          intro hpicking
          have hpublishes : k.op.publishes = true := hpicking.1
          revert hpauses hpublishes
          cases k.op <;> simp [Operation.pauses, Operation.publishes]
        · rw [Function.update_of_ne hj] at hq
          exact hguard hpauses j q hq
      · intro _ _ _
        exact hopen
  | writeQueue queue =>
      obtain ⟨old, hloaded, hchange⟩ := hallowed
      have hsame : old = w.shared.queue :=
        Option.some.inj (hloaded.symm.trans hguard)
      subst hsame
      have hchange' := hchange h.identified.distinct
      refine h.access hp ?_ ?_ (h.picks_access hp rfl)
      · exact h.identified.write hchange' (drawnOf_eq hp).symm
      · have hpaid : k.wrote.owes = none := by
          unfold Knows.wrote Knows.owes
          cases k.posted <;> rfl
        have hwritten := h.posted.write hchange' h.identified (drawnOf_eq hp).symm
          (owesOf_eq hp).symm
        exact hpaid ▸ hwritten
  | draw =>
      refine h.access hp ?_ ?_ (h.picks_access hp rfl)
      · have hdrew := h.identified.draw i
        rw [drawnOf_eq hp] at hdrew
        exact hdrew
      · have hsame : (k.drew (env.host.uuidHex w.shared.draws)).owes = owesOf w i :=
          (owesOf_eq hp).symm
        have hposted := h.posted
        rw [← Function.update_eq_self i (owesOf w), ← hsame] at hposted
        exact hposted
  | publish id accepted =>
      obtain ⟨-, hplain, -⟩ := hallowed
      cases accepted with
      | false =>
          exact h.access_quiet hp rfl rfl (List.append_nil _) rfl rfl
            (h.picks_access hp rfl)
      | true =>
          obtain ⟨⟨item, hitem, rfl, hstatus⟩, hfree⟩ := hguard
          refine h.access hp ?_ ?_ (h.picks_access hp rfl)
          · have hids := h.identified
            rw [← Function.update_eq_self i (drawnOf w), drawnOf_eq hp] at hids
            exact hids
          · have howes : (learns k (.publish item.queueItemId true) ()).owes =
                some item.queueItemId := by
              simpa [learns, Knows.owes] using hplain.unmarked
            have hposted := h.posted.post h.identified.distinct hitem hstatus hfree
              ((owesOf_eq hp).trans hplain.owes)
            exact howes ▸ hposted

theorem Orderly.start (h : Orderly env w) (hfree : w.procs i = none) (op : Operation) :
    Orderly env ⟨w.shared, Function.update w.procs i (some ⟨{ op }, op.program env⟩)⟩ where
  allowed := fun j q hq => by
    change Function.update w.procs i _ j = some q at hq
    by_cases hj : j = i
    · subst hj
      rw [Function.update_self] at hq
      obtain rfl := Option.some.inj hq
      exact allowed_program op
    · rw [Function.update_of_ne hj] at hq
      exact h.allowed j q hq
  identified := by
    have hnone : drawnOf w i = [] := by rw [drawnOf, hfree]; rfl
    rw [drawnOf_update]
    change Identified _ _ _ (Function.update (drawnOf w) i [])
    rw [← hnone, Function.update_eq_self]
    exact h.identified
  posted := by
    have hnone : owesOf w i = none := by rw [owesOf, hfree]; rfl
    rw [owesOf_update]
    change Posted _ _ (Function.update (owesOf w) i none)
    rw [← hnone, Function.update_eq_self]
    exact h.posted
  picks := fun j q hq hpicking => by
    change Function.update w.procs i _ j = some q at hq
    by_cases hj : j = i
    · subst hj
      rw [Function.update_self] at hq
      obtain rfl := Option.some.inj hq
      cases hpicking.2.1
    · rw [Function.update_of_ne hj] at hq
      exact h.picks j q hq hpicking

end OneAccess

/-! ## Runs -/

def Access.savesControl : Access → Bool
  | .saveControl _ => true
  | _ => false

def controlWriter (e : ReviewStep) : Option Operation :=
  match e.input, e.output with
  | .run i, some a =>
      if a.savesControl then (e.before.procs i).map fun p => p.knows.op else none
  | _, _ => none

def Pauses (e : ReviewStep) : Prop := ∃ op, controlWriter e = some op ∧ op.pauses = true

def Resumes (e : ReviewStep) : Prop := ∃ op, controlWriter e = some op ∧ op.resumes = true

/-- A publisher has picked an item: it posts it next. -/
def Picks (e : ReviewStep) : Prop :=
  ∃ i p a, e.input = .run i ∧ e.after.procs i = some p ∧ p.rest.next? = some a ∧
    a.publishes = true

/-- Publishing is reviewed and happens once. -/
structure Reviewed (tr : List ReviewStep) : Prop where
  /-- No item is published twice. -/
  once : ∀ e ∈ tr, e.after.shared.posts.Nodup
  /-- An item becomes published only if it was approved. -/
  approved : ∀ e ∈ tr, ∀ item ∈ e.after.shared.queue.items, item.status = .published →
    ∃ item' ∈ e.before.shared.queue.items, item'.queueItemId = item.queueItemId ∧
      (item'.status = .published ∨ item'.status = .approved)
  /-- A denied item never becomes published. -/
  denied : tr.Pairwise fun e e' => ∀ item ∈ e.after.shared.queue.items,
    item.status = .denied → ∀ item' ∈ e'.after.shared.queue.items,
      item'.queueItemId = item.queueItemId → item'.status ≠ .published
  /-- No item is picked between a pause and the next resume. -/
  unpicked : ∀ earlier e₁ mid e₂ later, tr = earlier ++ e₁ :: (mid ++ e₂ :: later) →
    Pauses e₁ → (∀ e ∈ mid, ¬ Resumes e) → ¬ Picks e₂

theorem pairwise_of_forall_split {ε : Type} {R : ε → ε → Prop} {tr : List ε}
    (h : ∀ earlier e later, tr = earlier ++ e :: later → ∀ e' ∈ earlier, R e' e) :
    tr.Pairwise R := by
  induction tr using List.reverseRecOn with
  | nil => exact List.Pairwise.nil
  | append_singleton tr last ih =>
      refine List.pairwise_append.mpr ⟨ih ?_, List.pairwise_singleton _ _, ?_⟩
      · intro earlier e later hsplit
        refine h earlier e (later ++ [last]) ?_
        rw [hsplit, List.append_assoc, List.cons_append]
      · intro e' he' e he
        rw [List.mem_singleton.mp he]
        exact h tr last [] rfl e' he'

section Runs

variable {env : ReviewEnv} {w : Run} {input : PoolInput Operation}

theorem reviewStep_cases (input : PoolInput Operation) :
    (∃ i op, input = .start i op ∧ w.procs i = none ∧
      (reviewMachine env).step w input = (⟨w.shared, Function.update w.procs i
        (some ⟨{ op }, op.program env⟩)⟩, none)) ∨
    (∃ i k a next, input = .run i ∧ w.procs i = some ⟨k, .access a next⟩ ∧
      (reviewMachine env).step w input =
        (⟨(perform env.host w.shared a).1, Function.update w.procs i
          (some (Process.resume learns k a next (perform env.host w.shared a).2))⟩,
            some a)) ∨
    (reviewMachine env).step w input = (w, none) :=
  poolStep_cases input

theorem Orderly.step (h : Orderly env w) (hcareful : Careful w input) :
    Orderly env ((reviewMachine env).step w input).1 := by
  rcases @reviewStep_cases env w input with
    ⟨i, op, rfl, hfree, hstep⟩ | ⟨i, k, a, next, rfl, hp, hstep⟩ | hstep
  · rw [hstep]
    exact h.start hfree op
  · rw [hstep]
    exact h.run hp hcareful
  · rw [hstep]
    exact h

theorem Orderly.step_items (h : Orderly env w) (hcareful : Careful w input) :
    ((reviewMachine env).step w input).1.shared.queue.items = w.shared.queue.items ∨
      ∃ i k, k.drawn = drawnOf w i ∧ k.owes = owesOf w i ∧
        ItemsChange k w.shared.queue.items
          ((reviewMachine env).step w input).1.shared.queue.items := by
  rcases @reviewStep_cases env w input with
    ⟨i, op, rfl, hfree, hstep⟩ | ⟨i, k, a, next, rfl, hp, hstep⟩ | hstep
  · rw [hstep]
    exact Or.inl rfl
  · rw [hstep]
    cases a with
    | writeQueue queue =>
        obtain ⟨old, hloaded, hchange⟩ := (h.allowed i _ hp).1
        have hsame : old = w.shared.queue :=
          Option.some.inj (hloaded.symm.trans (hcareful _ hp))
        subst hsame
        exact Or.inr ⟨i, k, (drawnOf_eq hp).symm, (owesOf_eq hp).symm,
          hchange h.identified.distinct⟩
    | loadControl => exact Or.inl rfl
    | saveControl _ => exact Or.inl rfl
    | loadQueue => exact Or.inl rfl
    | draw => exact Or.inl rfl
    | publish _ _ => exact Or.inl rfl
  · rw [hstep]
    exact Or.inl rfl

theorem Orderly.step_approved (h : Orderly env w) (hcareful : Careful w input)
    {item : Item} (hitem : item ∈ ((reviewMachine env).step w input).1.shared.queue.items)
    (hpublished : item.status = .published) :
    ∃ item' ∈ w.shared.queue.items, item'.queueItemId = item.queueItemId ∧
      (item'.status = .published ∨ item'.status = .approved) := by
  rcases h.step_items hcareful with hsame | ⟨i, k, -, howes, hchange⟩
  · exact ⟨item, hsame ▸ hitem, rfl, Or.inl hpublished⟩
  · exact h.posted.publishes hchange howes hitem hpublished

def Denied (items : List Item) (id : String) : Prop :=
  id ∈ items.map Item.queueItemId ∧
    ∀ item ∈ items, item.queueItemId = id → item.status = .denied

theorem Orderly.step_denied (h : Orderly env w) (hcareful : Careful w input) {id : String}
    (hdenied : Denied w.shared.queue.items id) :
    Denied ((reviewMachine env).step w input).1.shared.queue.items id := by
  rcases h.step_items hcareful with hsame | ⟨i, k, hdrawn, howes, hchange⟩
  · rw [hsame]
    exact hdenied
  · refine ⟨?_, fun item hitem hid => ?_⟩
    · rcases hchange.ids with hids | ⟨digits, -, hids⟩
      · rw [hids]
        exact hdenied.1
      · rw [hids]
        exact List.mem_append_left _ hdenied.1
    · exact h.posted.denied hchange h.identified hdrawn howes hitem hid hdenied.1 hdenied.2

theorem Orderly.denied_of_mem (h : Orderly env w) {item : Item}
    (hitem : item ∈ w.shared.queue.items) (hstatus : item.status = .denied) :
    Denied w.shared.queue.items item.queueItemId := by
  refine ⟨List.mem_map_of_mem hitem, fun item' hitem' hid => ?_⟩
  rw [List.inj_on_of_nodup_map h.identified.distinct hitem' hitem hid]
  exact hstatus

theorem Orderly.step_picks (h : Orderly env w) (hcareful : Careful w input)
    (hpicks : Picks ((reviewMachine env).stepAt w input)) : ¬ Paused w.shared.control := by
  obtain ⟨i, ⟨k', rest⟩, a', hinput, hp', hnext, hpublish⟩ := hpicks
  change input = .run i at hinput
  change ((reviewMachine env).step w input).1.procs i = some ⟨k', rest⟩ at hp'
  subst hinput
  have hafter := (h.step hcareful).allowed i _ hp'
  cases rest with
  | done _ => cases hnext
  | raised _ => cases hnext
  | access b next' =>
      obtain rfl := Option.some.inj hnext
      rcases @reviewStep_cases env w (.run i) with
        ⟨_, _, hstart, -⟩ | ⟨j, k, a, next, hj, hp, hstep⟩ | hstep
      · cases hstart
      · obtain rfl := PoolInput.run.inj hj
        rw [hstep] at hp'
        change Function.update w.procs i _ i = _ at hp'
        rw [Function.update_self] at hp'
        obtain ⟨hknows, -⟩ := Process.mk.inj (Option.some.inj hp')
        cases b with
        | publish id accepted =>
            obtain ⟨hop, hplain, control, hcontrol, hopen⟩ := hafter.1
            rw [← hknows] at hop hcontrol
            have huntried : (learns k a (perform env.host w.shared a).2).tried = false :=
              hknows ▸ hplain.untried
            rw [learns_op] at hop
            rcases picking_before hop huntried hcontrol with rfl | ⟨hbefore, hsame⟩
            · exact hopen
            · exact h.picks i _ hp hbefore control hsame hopen
        | loadControl => cases hpublish
        | saveControl _ => cases hpublish
        | loadQueue => cases hpublish
        | writeQueue _ => cases hpublish
        | draw => cases hpublish
      · -- a process that is about to post makes its access
        rw [hstep] at hp'
        have hrun : ((reviewMachine env).step w (.run i)).2 = some b :=
          congrArg Prod.snd (poolStep_run hp')
        rw [hstep] at hrun
        cases hrun

theorem controlWriter_stepAt {i : ℕ} {k : Knows} {a : Access}
    {next : Answer a → ReviewProgram Result} (hp : w.procs i = some ⟨k, .access a next⟩)
    (hout : ((reviewMachine env).step w (.run i)).2 = some a) :
    controlWriter ((reviewMachine env).stepAt w (.run i)) =
      if a.savesControl then some k.op else none := by
  have houtput : ((reviewMachine env).stepAt w (.run i)).output = some a := hout
  have hinput : ((reviewMachine env).stepAt w (.run i)).input = .run i := rfl
  have hbefore : ((reviewMachine env).stepAt w (.run i)).before = w := rfl
  unfold controlWriter
  rw [houtput, hinput, hbefore]
  change (if a.savesControl = true then Option.map _ (w.procs i) else none) = _
  rw [hp]
  rfl

theorem controlWriter_eq_none (hout : ((reviewMachine env).step w input).2 = none) :
    controlWriter ((reviewMachine env).stepAt w input) = none := by
  have houtput : ((reviewMachine env).stepAt w input).output = none := hout
  unfold controlWriter
  rw [houtput]
  split
  next h => cases h
  next => rfl

theorem Orderly.step_control (h : Orderly env w) :
    (((reviewMachine env).step w input).1.shared.control = w.shared.control ∧
        ¬ Pauses ((reviewMachine env).stepAt w input)) ∨
      Paused ((reviewMachine env).step w input).1.shared.control ∨
      Resumes ((reviewMachine env).stepAt w input) := by
  rcases @reviewStep_cases env w input with
    ⟨i, op, rfl, hfree, hstep⟩ | ⟨i, k, a, next, rfl, hp, hstep⟩ | hstep
  · refine Or.inl ⟨by rw [hstep], ?_⟩
    rintro ⟨op, hwriter, -⟩
    rw [controlWriter_eq_none (by rw [hstep])] at hwriter
    cases hwriter
  · have hwriter := controlWriter_stepAt hp (by rw [hstep])
    have hquiet (hnone : controlWriter ((reviewMachine env).stepAt w (.run i)) = none) :
        ¬ Pauses ((reviewMachine env).stepAt w (.run i)) := by
      rintro ⟨op, hop, -⟩
      rw [hnone] at hop
      cases hop
    cases a with
    | saveControl control =>
        rcases (h.allowed i _ hp).1 with ⟨-, hpaused⟩ | ⟨hresumes, -⟩
        · refine Or.inr (Or.inl ?_)
          rw [hstep]
          exact hpaused
        · exact Or.inr (Or.inr ⟨k.op, hwriter, hresumes⟩)
    | loadControl => exact Or.inl ⟨by rw [hstep]; rfl, hquiet hwriter⟩
    | loadQueue => exact Or.inl ⟨by rw [hstep]; rfl, hquiet hwriter⟩
    | writeQueue _ => exact Or.inl ⟨by rw [hstep]; rfl, hquiet hwriter⟩
    | draw => exact Or.inl ⟨by rw [hstep]; rfl, hquiet hwriter⟩
    | publish _ _ => exact Or.inl ⟨by rw [hstep]; rfl, hquiet hwriter⟩
  · refine Or.inl ⟨by rw [hstep], ?_⟩
    rintro ⟨op, hwriter, -⟩
    rw [controlWriter_eq_none (by rw [hstep])] at hwriter
    cases hwriter

def newRun (control : Items) : Run := ⟨{ control }, fun _ => none⟩

theorem orderly_newRun (control : Items) : Orderly env (newRun control) where
  allowed := fun _ _ h => by cases h
  identified := ⟨List.nodup_nil, nofun, nofun, nofun⟩
  posted := ⟨List.nodup_nil, nofun, nofun, nofun, nofun⟩
  picks := fun _ _ h => by cases h

/-- What the steps so far say about the state. -/
structure Remembers (env : ReviewEnv) (tr : List ReviewStep) (w : Run) : Prop where
  orderly : Orderly env w
  denied : ∀ e ∈ tr, ∀ item ∈ e.after.shared.queue.items, item.status = .denied →
    Denied w.shared.queue.items item.queueItemId
  paused : ∀ earlier e₁ mid, tr = earlier ++ e₁ :: mid → Pauses e₁ →
    (∀ e ∈ mid, ¬ Resumes e) → Paused w.shared.control

theorem Remembers.step {tr : List ReviewStep}
    (h : Remembers env tr w) (hcareful : Careful w input) :
    Remembers env (tr ++ [(reviewMachine env).stepAt w input])
      ((reviewMachine env).step w input).1 := by
  have horderly := h.orderly.step hcareful
  refine ⟨horderly, ?_, ?_⟩
  · intro e he item hitem hstatus
    rcases List.mem_append.mp he with hold | hlast
    · exact h.orderly.step_denied hcareful (h.denied e hold item hitem hstatus)
    · rw [List.mem_singleton.mp hlast] at hitem
      exact horderly.denied_of_mem hitem hstatus
  · intro earlier e₁ mid hsplit hpauses hnone
    rcases List.eq_nil_or_concat mid with rfl | ⟨mid, last, rfl⟩
    · obtain ⟨-, hlast⟩ := List.append_inj' hsplit rfl
      rw [← (List.cons.inj hlast).1] at hpauses
      rcases @Orderly.step_control env w input h.orderly with
        ⟨-, hnot⟩ | hpaused | ⟨op', hwriter', hresumes⟩
      · exact absurd hpauses hnot
      · exact hpaused
      · obtain ⟨op, hwriter, hpause⟩ := hpauses
        obtain rfl := Option.some.inj (hwriter.symm.trans hwriter')
        cases op <;> simp_all [Operation.pauses, Operation.resumes]
    · rw [List.concat_eq_append, ← List.cons_append, ← List.append_assoc] at hsplit
      obtain ⟨htr, hlast⟩ := List.append_inj' hsplit rfl
      obtain rfl := (List.cons.inj hlast).1
      rw [List.concat_eq_append] at hnone
      have hbefore := h.paused earlier e₁ mid htr hpauses fun e he =>
        hnone e (List.mem_append_left _ he)
      rcases @Orderly.step_control env w input h.orderly with
        ⟨hsame, -⟩ | hpaused | hresumes
      · rw [hsame]
        exact hbefore
      · exact hpaused
      · exact absurd hresumes (hnone _ (List.mem_append_right _ (List.mem_singleton_self _)))

/-! ### Checking a run -/

/-- `Careful`, for a pool in which only the first `n` numbers are taken. -/
def checkCareful (n : ℕ) (w : Run) : PoolInput Operation → Bool
  | .start i _ => decide (i < n)
  | .run i =>
      match w.procs i with
      | none => true
      | some p =>
          match p.rest.next? with
          | some (.writeQueue _) => decide (p.knows.queue = some w.shared.queue)
          | some (.publish id true) =>
              (w.shared.queue.items.any fun item =>
                decide (item.queueItemId = id ∧ item.status = .approved)) &&
                (List.range n).all fun j => decide (owesOf w j ≠ some id)
          | some (.saveControl _) =>
              !p.knows.op.pauses || (List.range n).all fun j =>
                match w.procs j with
                | none => true
                | some q => !q.knows.op.publishes || q.knows.control.isNone || q.knows.tried ||
                    match q.rest.next? with
                    | none => true
                    | some a => a.publishes
          | _ => true

def checkRun (env : ReviewEnv) (n : ℕ) : Run → List (PoolInput Operation) → Bool
  | _, [] => true
  | w, input :: inputs =>
      checkCareful n w input && checkRun env n ((reviewMachine env).step w input).1 inputs

theorem careful_of_check {n : ℕ} (hfree : ∀ j, n ≤ j → w.procs j = none)
    (h : checkCareful n w input = true) : Careful w input := by
  have hin {j : ℕ} {q : ReviewProcess} (hq : w.procs j = some q) : j ∈ List.range n := by
    rw [List.mem_range]
    by_contra hj
    rw [hfree j (not_lt.mp hj)] at hq
    cases hq
  cases input with
  | start i op => exact trivial
  | run i =>
      intro p hp
      unfold checkCareful at h
      simp only [hp] at h
      split
      next queue hnext =>
        simp only [hnext, decide_eq_true_eq] at h
        exact h
      next id hnext =>
        simp only [hnext, Bool.and_eq_true, List.any_eq_true, List.all_eq_true,
          decide_eq_true_eq] at h
        refine ⟨h.1, fun j => ?_⟩
        cases hj : w.procs j with
        | none =>
            unfold owesOf
            rw [hj]
            exact nofun
        | some q => exact h.2 j (hin hj)
      next control hnext =>
        simp only [hnext, Bool.or_eq_true, Bool.not_eq_true', List.all_eq_true] at h
        intro hpauses j q hq hpicking
        obtain ⟨hpublishes, hseen, huntried, a, ha, hquiet⟩ := hpicking
        rcases h with hnot | hall
        · rw [hpauses] at hnot
          cases hnot
        · have hq' := hall j (hin hq)
          simp [hq, hpublishes, huntried, ha, hquiet, Option.isNone_iff_eq_none] at hq'
          rw [hq'] at hseen
          cases hseen
      next => trivial

theorem guarded_of_checkRun {n : ℕ} {inputs : List (PoolInput Operation)}
    (hfree : ∀ j, n ≤ j → w.procs j = none) (h : checkRun env n w inputs = true) :
    (reviewMachine env).Guarded Careful w inputs := by
  induction inputs generalizing w with
  | nil => exact Machine.guarded_nil
  | cons input inputs ih =>
      obtain ⟨hfirst, hrest⟩ := Bool.and_eq_true _ _ ▸ h
      refine Machine.guarded_cons.mpr ⟨careful_of_check hfree hfirst, ih ?_ hrest⟩
      intro j hj
      rcases @reviewStep_cases env w input with
        ⟨i, op, rfl, -, hstep⟩ | ⟨i, k, a, next, rfl, hp, hstep⟩ | hstep
      · have hi : i < n := of_decide_eq_true hfirst
        rw [hstep]
        exact (Function.update_of_ne (hi.trans_le hj).ne' _ _).trans (hfree j hj)
      · have hi : j ≠ i := fun hsame => by
          rw [← hsame, hfree j hj] at hp
          cases hp
        rw [hstep]
        exact (Function.update_of_ne hi _ _).trans (hfree j hj)
      · rw [hstep]
        exact hfree j hj

/-! ### A run directory -/

def plainReview : ReviewEnv := ⟨referenceHost, fun _ => none, none⟩

def openControl : Items :=
  [("approved_only_mode", .bool true), ("allow_live_social_publish", .bool true)]

def approvedFirst : List (PoolInput Operation) :=
  .start 0 (.enqueueFromDraft { draftId := "d-1" } false) :: List.replicate 6 (.run 0) ++
    .start 1 (.approveItem ("sri-" ++ referenceHost.uuidHex 0) "operator" false) ::
      List.replicate 5 (.run 1)

/-- Along every careful run publishing is reviewed and happens once. -/
theorem publishing_reviewed
    (env : ReviewEnv) (control : Items) (inputs : List (PoolInput Operation))
    (hguard : (reviewMachine env).Guarded Careful (newRun control) inputs) :
    Reviewed ((reviewMachine env).trace (newRun control) inputs) := by
  have hinit : Remembers env [] (newRun control) :=
    ⟨orderly_newRun control, fun _ he => absurd he List.not_mem_nil,
      fun _ _ _ h => absurd h.symm (List.append_ne_nil_of_right_ne_nil _ (List.cons_ne_nil _ _))⟩
  have hgood := Machine.forall_split_of_guarded (Remembers env)
    (fun earlier e => e.after.shared.posts.Nodup ∧
      (∀ item ∈ e.after.shared.queue.items, item.status = .published →
        ∃ item' ∈ e.before.shared.queue.items, item'.queueItemId = item.queueItemId ∧
          (item'.status = .published ∨ item'.status = .approved)) ∧
      (∀ e' ∈ earlier, ∀ item ∈ e'.after.shared.queue.items, item.status = .denied →
        Denied e.after.shared.queue.items item.queueItemId) ∧
      ∀ before e₁ mid, earlier = before ++ e₁ :: mid → Pauses e₁ →
        (∀ e ∈ mid, ¬ Resumes e) → ¬ Picks e) hinit
    (fun tr w input hw hcareful => by
      have hnext := hw.step hcareful
      refine ⟨hnext, hnext.orderly.posted.once, ?_, ?_, ?_⟩
      · intro item hitem hpublished
        exact hw.orderly.step_approved hcareful hitem hpublished
      · intro e he item hitem hstatus
        exact hw.orderly.step_denied hcareful (hw.denied e he item hitem hstatus)
      · intro before e₁ mid hsplit hpauses hnone hpicks
        exact hw.orderly.step_picks hcareful hpicks
          (hw.paused before e₁ mid hsplit hpauses hnone)) hguard
  refine ⟨?_, ?_, ?_, ?_⟩
  · intro e he
    obtain ⟨earlier, later, hsplit⟩ := List.append_of_mem he
    exact (hgood earlier e later hsplit).1
  · intro e he
    obtain ⟨earlier, later, hsplit⟩ := List.append_of_mem he
    exact (hgood earlier e later hsplit).2.1
  · refine pairwise_of_forall_split fun earlier e later hsplit e' he' => ?_
    intro item hitem hstatus item' hitem' hid
    have hdenied := (hgood earlier e later hsplit).2.2.1 e' he' item hitem hstatus
    rw [hdenied.2 item' hitem' hid]
    exact nofun
  · intro earlier e₁ mid e₂ later hsplit hpauses hnone
    have hsplit' : (reviewMachine env).trace (newRun control) inputs =
        (earlier ++ e₁ :: mid) ++ e₂ :: later := by
      rw [hsplit, List.append_assoc, List.cons_append]
    exact (hgood _ e₂ later hsplit').2.2.2 earlier e₁ mid rfl hpauses hnone

/-- An item that is queued, approved, posted and marked, and a publisher that comes
later. -/
theorem publishing_reviewed_once :
    Reviewed ((reviewMachine plainReview).trace (newRun openControl)
      (approvedFirst ++ .start 2 (.publishNext true "r-1") :: List.replicate 9 (.run 2) ++
        .start 3 (.publishNext true "r-2") :: List.replicate 6 (.run 3))) :=
  publishing_reviewed plainReview openControl _ (guarded_of_checkRun
    (n := 4) (fun _ _ => rfl) (by decide +kernel))

/-- Two publishers that pick the item before either has marked it. -/
theorem twoPublishers_not_reviewed :
    ¬ Reviewed ((reviewMachine plainReview).trace (newRun openControl)
      (approvedFirst ++ .start 2 (.publishNext true "r-1") ::
        .start 3 (.publishNext true "r-2") :: List.replicate 5 (.run 2) ++
          List.replicate 5 (.run 3) ++ [.run 2, .run 3])) := by
  intro h
  have htwice : (((reviewMachine plainReview).trace (newRun openControl)
      (approvedFirst ++ .start 2 (.publishNext true "r-1") ::
        .start 3 (.publishNext true "r-2") :: List.replicate 5 (.run 2) ++
          List.replicate 5 (.run 3) ++ [.run 2, .run 3])).all
            fun e => decide e.after.shared.posts.Nodup) = false := by
    decide +kernel
  exact Bool.false_ne_true (htwice.symm.trans
    (List.all_eq_true.mpr fun e he => decide_eq_true (h.once e he)))

end Runs

end Hydrogenuine.Social
