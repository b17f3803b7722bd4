import Hydrogenuine.Ownership.Transaction

/-!
# At most one update of a version

The version is read by a `SELECT`, which opens no transaction, and the lock is taken by
the first write.  Between the two another update may commit, and then the writes replace
a record that was never compared.

`Sound` says how far each update has come and what that means for the tables.  As long
as every commit finds the version that its update has read, the versions that updates
have succeeded with lie below the ones that are stored, and so no two updates succeed
with one version; and at the first commit that finds another version a second one does.
-/

namespace Hydrogenuine.Ownership

open Support

/-! ## Alone -/

def CasOutcome.ofExcept : Except String OwnershipRecord → CasOutcome
  | .ok record => .updated record
  | .error error => .refused error

section Alone

variable {db : Database} {conn : ℕ}

theorem alone_runWrites
    {outcome : CasOutcome} (ws : List Write) {pending : Tables}
    (hwriter : db.writer = some (conn, pending)) :
    (runWrites conn (.access (.commit conn) fun _ => .done outcome) ws).alone
        Database.perform db =
      ({ db with committed := ws.foldl Write.apply pending, writer := none },
        .ok outcome) := by
  induction ws generalizing db pending with
  | nil =>
      rw [runWrites, Program.alone_access _ (perform_commit_held hwriter), Program.alone,
        List.foldl_nil]
  | cons w ws ih =>
      rw [runWrites]
      exact (Program.alone_access _ (perform_write_held hwriter)).trans (ih rfl)

theorem alone_program (u : CasUpdate) (hidle : db.writer = none) :
    u.program.alone Database.perform db =
      (⟨(db.committed.casUpdate u).2, none, db.connections + 1⟩,
        .ok (.ofExcept (db.committed.casUpdate u).1)) := by
  have hfree : ∀ pending, { db with connections := db.connections + 1 }.writer ≠
      some (db.connections, pending) := by
    intro pending heq
    rw [hidle] at heq
    cases heq
  have hselect : { db with connections := db.connections + 1 }.perform
      (.selectState db.connections u.runId u.taskId) =
        ({ db with connections := db.connections + 1 },
          db.committed.state.get? (u.runId, u.taskId)) := by
    rw [Database.perform, view_free hfree]
    rfl
  refine (Program.alone_access _ rfl).trans
    ((Program.alone_access _ hselect).trans ?_)
  rw [CasUpdate.afterSelect, Tables.casUpdate, Tables.getTask]
  dsimp only
  split_ifs with hversion
  · rw [Program.alone_access _ (perform_end_free hfree).1, Program.alone, hidle]
    rfl
  · have hidle' : { db with connections := db.connections + 1 }.writer = none := hidle
    rw [casWrites, List.cons_append, runWrites]
    exact (Program.alone_access _ (perform_write_free hidle')).trans
      (alone_runWrites _ rfl)

end Alone

/-! ## What the statements of an update are -/

/-- The write leaves the version of every object. -/
def Write.KeepsVersions (w : Write) : Prop :=
  ∀ tables runId taskId,
    ((w.apply tables).getTask runId taskId).version =
      (tables.getTask runId taskId).version

/-- The statements that an update makes when it has come so far. -/
def Progress.Allows (k : Progress) : Statement → Prop
  | .connect => k.conn = none ∧ k.stage = .begun
  | .selectState conn runId taskId =>
      k.conn = some conn ∧ k.stage = .begun ∧ runId = k.update.runId ∧
        taskId = k.update.taskId
  | .write conn w =>
      k.conn = some conn ∧
        ((k.stage = .matched ∧ ∃ row, row.version = k.update.expectedVersion + 1 ∧
          w = .replaceState k.update.runId k.update.taskId row) ∨
        (k.stage = .writing ∧ w.KeepsVersions))
  | .commit conn => k.conn = some conn ∧ (k.stage = .writing ∨ k.stage = .failed)
  | .rollback conn => k.conn = some conn ∧ k.stage = .failed

/-- An update succeeds when it has committed its writes, and only then. -/
def Concludes (k : Progress) (outcome : CasOutcome) : Prop :=
  (∃ record, outcome = .updated record) ↔ k.stage = .committed

theorem keepsVersions_casWrites
    (runId taskId : String) (record : OwnershipRecord) :
    ∀ w ∈ (casWrites runId taskId record).tail, w.KeepsVersions := by
  intro w hw
  simp only [casWrites, List.cons_append, List.nil_append, List.tail_cons, List.mem_cons,
    List.mem_map] at hw
  rcases hw with rfl | rfl | ⟨edge, -, rfl⟩
  · exact fun _ _ _ => rfl
  · exact fun _ _ _ => rfl
  · exact fun _ _ _ => rfl

/-- The statements of a program are those that the update makes. -/
abbrev SafeUpdate (k : Progress) (p : CasProgram) : Prop :=
  p.Safe Progress.Allows Progress.learns k Concludes

theorem safe_locked
    {k : Progress} {conn : ℕ} (hconn : k.conn = some conn) (hstage : k.stage = .failed) :
    SafeUpdate k (.access (.rollback conn) fun _ =>
      .done (.raised "database is locked")) := by
  refine ⟨⟨hconn, hstage⟩, fun _ => iff_of_false ?_ ?_⟩
  · rintro ⟨record, heq⟩
    cases heq
  · exact nofun

theorem safe_runWrites
    {k : Progress} {conn : ℕ} (hconn : k.conn = some conn) (hstage : k.stage = .writing)
    (record : OwnershipRecord) {ws : List Write} (hws : ∀ w ∈ ws, w.KeepsVersions) :
    SafeUpdate k
      (runWrites conn (.access (.commit conn) fun _ => .done (.updated record)) ws) := by
  induction ws generalizing k with
  | nil =>
      refine ⟨⟨hconn, Or.inl hstage⟩, fun _ => iff_of_true ⟨record, rfl⟩ ?_⟩
      simp only [Progress.learns, if_pos hstage]
  | cons w ws ih =>
      obtain ⟨hw, hrest⟩ := List.forall_mem_cons.mp hws
      refine ⟨⟨hconn, Or.inr ⟨hstage, hw⟩⟩, fun locked => ?_⟩
      cases locked with
      | true => exact safe_locked hconn rfl
      | false => exact @ih { k with stage := .writing } hconn rfl hrest

theorem safe_afterSelect
    {k : Progress} {conn : ℕ} (hconn : k.conn = some conn)
    (row : Option OwnershipRecord) :
    SafeUpdate (k.learns (.selectState conn k.update.runId k.update.taskId) row)
      (k.update.afterSelect conn row) := by
  by_cases hversion : (recordOf row k.update.taskId).version = k.update.expectedVersion
  · simp only [CasUpdate.afterSelect, Progress.learns, hversion, ne_eq, not_true_eq_false,
      if_false, if_true]
    refine ⟨⟨hconn, Or.inl ⟨rfl, _, ?_, rfl⟩⟩, fun locked => ?_⟩
    · change (recordOf row k.update.taskId).version + 1 = _
      rw [hversion]
    · cases locked with
      | true => exact safe_locked hconn rfl
      | false =>
          exact @safe_runWrites { k with stage := .writing } conn hconn rfl _ _
            (keepsVersions_casWrites _ _ _)
  · simp only [CasUpdate.afterSelect, Progress.learns, hversion, ne_eq, not_false_eq_true,
      if_true, if_false]
    refine ⟨⟨hconn, Or.inr rfl⟩, fun _ => iff_of_false ?_ ?_⟩
    · rintro ⟨record, heq⟩
      cases heq
    · simp [Progress.learns]

theorem safe_program (u : CasUpdate) : SafeUpdate { update := u } u.program :=
  ⟨⟨rfl, rfl⟩, fun conn => ⟨⟨rfl, rfl, rfl, rfl⟩, fun row =>
    @safe_afterSelect ⟨u, some conn, .begun⟩ conn rfl row⟩⟩

theorem learns_update (k : Progress) (s : Statement) (answer : s.Answer) :
    (k.learns s answer).update = k.update := by
  cases s <;> rfl

/-! ## Where an update stands in the database -/

abbrev Running := Process Statement Statement.Answer Empty CasOutcome Progress

def Succeeded (p : Running) : Prop := ∃ record, p.rest = .done (.updated record)

/-- What the progress of an update says about the database. -/
structure Placed (db : Database) (p : Running) : Prop where
  safe : SafeUpdate p.knows p.rest
  opened : ∀ conn, p.knows.conn = some conn → conn < db.connections
  lock : p.knows.stage = .writing ↔
    ∃ conn pending, p.knows.conn = some conn ∧ db.writer = some (conn, pending)
  draft : ∀ conn pending, p.knows.conn = some conn → db.writer = some (conn, pending) →
    ∀ runId taskId, (pending.getTask runId taskId).version =
      if (runId, taskId) = (p.knows.update.runId, p.knows.update.taskId) then
        p.knows.update.expectedVersion + 1
      else (db.committed.getTask runId taskId).version
  past : p.knows.stage = .committed →
    p.knows.update.expectedVersion < p.knows.update.storedVersion db.committed

theorem succeeded_iff {p : Running} (hsafe : SafeUpdate p.knows p.rest) :
    Succeeded p ↔ p.knows.stage = .committed := by
  obtain ⟨k, rest⟩ := p
  constructor
  · rintro ⟨record, rfl⟩
    exact hsafe.mp ⟨record, rfl⟩
  · intro hstage
    change k.stage = .committed at hstage
    cases rest with
    | done outcome =>
        obtain ⟨record, rfl⟩ := hsafe.mpr hstage
        exact ⟨record, rfl⟩
    | raised error => exact error.elim
    | access s next =>
        exfalso
        have hallowed : k.Allows s := hsafe.1
        cases s <;> simp [Progress.Allows, hstage] at hallowed

/-- A statement of one connection, as the others see it. -/
structure Spares (conn : ℕ) (db db' : Database) : Prop where
  connections : db.connections ≤ db'.connections
  writer : ∀ other pending, other ≠ conn →
    (db'.writer = some (other, pending) ↔ db.writer = some (other, pending))
  committed : ∀ other pending, other ≠ conn → db.writer = some (other, pending) →
    db'.committed = db.committed
  grows : ∀ runId taskId, (db.committed.getTask runId taskId).version ≤
    (db'.committed.getTask runId taskId).version

theorem Placed.spared
    {db db' : Database} {p : Running} (h : Placed db p) {conn : ℕ}
    (hspares : Spares conn db db') (hne : p.knows.conn ≠ some conn) : Placed db' p where
  safe := h.safe
  opened other hother := (h.opened other hother).trans_le hspares.connections
  lock := by
    rw [h.lock]
    refine exists_congr fun other => exists_congr fun pending => and_congr_right ?_
    rintro hother
    have hdiff : other ≠ conn := fun heq => hne (heq ▸ hother)
    exact (hspares.writer other pending hdiff).symm
  draft other pending hother hwriter := by
    have hdiff : other ≠ conn := fun heq => hne (heq ▸ hother)
    have hbefore := (hspares.writer other pending hdiff).mp hwriter
    rw [hspares.committed other pending hdiff hbefore]
    exact h.draft other pending hother hbefore
  past hstage := (h.past hstage).trans_le (hspares.grows _ _)

/-! ## All updates on a database -/

/-- The two updates are of one object and expect one version. -/
def CasUpdate.SameVersion (u v : CasUpdate) : Prop :=
  u.runId = v.runId ∧ u.taskId = v.taskId ∧ u.expectedVersion = v.expectedVersion

/-- Of the updates of one object that expect one version at most one has reported
success. -/
def AtMostOne (w : Updates) : Prop :=
  ∀ i j p q, w.procs i = some p → w.procs j = some q → Succeeded p → Succeeded q →
    p.knows.update.SameVersion q.knows.update → i = j

/-- If the input is the commit of an update that holds the lock, then the version that
is stored is still the one that the update expects, and so the one it has selected. -/
def CommitsOnSelected (w : Updates) : PoolInput CasUpdate → Prop
  | .start _ _ => True
  | .run i => ∀ k conn next pending, w.procs i = some ⟨k, .access (.commit conn) next⟩ →
      w.shared.writer = some (conn, pending) →
        k.update.storedVersion w.shared.committed = k.update.expectedVersion

/-- What holds of the updates as long as each commit is on what was selected. -/
structure Sound (w : Updates) : Prop where
  placed : ∀ i p, w.procs i = some p → Placed w.shared p
  apart : ∀ i j p q conn, w.procs i = some p → w.procs j = some q →
    p.knows.conn = some conn → q.knows.conn = some conn → i = j
  selected : ∀ i p, w.procs i = some p →
    (p.knows.stage = .matched ∨ p.knows.stage = .writing) →
      p.knows.update.storedVersion w.shared.committed = p.knows.update.expectedVersion ∨
        ∃ j q, w.procs j = some q ∧ q.knows.stage = .committed ∧
          q.knows.update.SameVersion p.knows.update
  holder : ∀ conn pending, w.shared.writer = some (conn, pending) →
    conn < w.shared.connections
  one : AtMostOne w

section Steps

variable {w : Updates} {i : ℕ} {db : Database} {p : Running}

theorem procs_update {j : ℕ} {q : Running}
    (h : Function.update w.procs i (some p) j = some q) :
    j = i ∧ q = p ∨ j ≠ i ∧ w.procs j = some q := by
  by_cases hij : j = i
  · subst hij
    rw [Function.update_self] at h
    exact Or.inl ⟨rfl, (Option.some.inj h).symm⟩
  · rw [Function.update_of_ne hij] at h
    exact Or.inr ⟨hij, h⟩

variable {s : Statement}

theorem Sound.not_committed
    (hs : Sound w) {k : Progress} {next : s.Answer → CasProgram}
    (hp : w.procs i = some ⟨k, .access s next⟩) : k.stage ≠ .committed := by
  intro hstage
  obtain ⟨record, hdone⟩ := (succeeded_iff (hs.placed i _ hp).safe).mpr hstage
  cases hdone

theorem Sound.set
    (hs : Sound w) (hold : ∀ p₀, w.procs i = some p₀ → p₀.knows.stage ≠ .committed)
    (hplaced : Placed db p)
    (hothers : ∀ j q, j ≠ i → w.procs j = some q → Placed db q)
    (hapart : ∀ j q conn, j ≠ i → w.procs j = some q → p.knows.conn = some conn →
      q.knows.conn ≠ some conn)
    (hsame : db.committed = w.shared.committed) (hstage : p.knows.stage ≠ .committed)
    (hselected : (p.knows.stage = .matched ∨ p.knows.stage = .writing) →
      p.knows.update.storedVersion w.shared.committed = p.knows.update.expectedVersion ∨
        ∃ j q, w.procs j = some q ∧ q.knows.stage = .committed ∧
          q.knows.update.SameVersion p.knows.update)
    (hholder : ∀ conn pending, db.writer = some (conn, pending) →
      conn < db.connections) :
    Sound ⟨db, Function.update w.procs i (some p)⟩ where
  placed j q hq := by
    rcases procs_update hq with ⟨-, rfl⟩ | ⟨hne, hq⟩
    · exact hplaced
    · exact hothers j q hne hq
  apart j l q r conn hq hr hconn hconn' := by
    rcases procs_update hq with ⟨rfl, rfl⟩ | ⟨hne, hq₀⟩
    · rcases procs_update hr with ⟨rfl, -⟩ | ⟨hne', hr₀⟩
      · rfl
      · exact absurd hconn' (hapart l r conn hne' hr₀ hconn)
    · rcases procs_update hr with ⟨rfl, rfl⟩ | ⟨hne', hr₀⟩
      · exact absurd hconn (hapart j q conn hne hq₀ hconn')
      · exact hs.apart j l q r conn hq₀ hr₀ hconn hconn'
  selected j q hq hreading := by
    have htaken {u : CasUpdate} : (∃ l r, w.procs l = some r ∧
          r.knows.stage = .committed ∧ r.knows.update.SameVersion u) →
        ∃ l r, Function.update w.procs i (some p) l = some r ∧
          r.knows.stage = .committed ∧ r.knows.update.SameVersion u := by
      rintro ⟨l, r, hr, hcommitted, hversion⟩
      refine ⟨l, r, ?_, hcommitted, hversion⟩
      rw [Function.update_of_ne, hr]
      rintro rfl
      exact hold r hr hcommitted
    change q.knows.update.storedVersion db.committed = _ ∨ _
    rw [hsame]
    rcases procs_update hq with ⟨rfl, rfl⟩ | ⟨hne, hq⟩
    · exact (hselected hreading).imp_right htaken
    · exact (hs.selected j q hq hreading).imp_right htaken
  holder := hholder
  one j l q r hq hr hdone hdone' hversion := by
    have hnot : ¬ Succeeded p := fun h => hstage ((succeeded_iff hplaced.safe).mp h)
    rcases procs_update hq with ⟨rfl, rfl⟩ | ⟨hne, hq₀⟩
    · exact absurd hdone hnot
    · rcases procs_update hr with ⟨rfl, rfl⟩ | ⟨hne', hr₀⟩
      · exact absurd hdone' hnot
      · exact hs.one j l q r hq₀ hr₀ hdone hdone' hversion

theorem Sound.others
    (hs : Sound w) (hp : w.procs i = some p) {conn : ℕ}
    (hconn : p.knows.conn = some conn) (hspares : Spares conn w.shared db) :
    ∀ j q, j ≠ i → w.procs j = some q → Placed db q := by
  intro j q hne hq
  refine (hs.placed j q hq).spared hspares fun hconn' => ?_
  exact hne (hs.apart j i q p conn hq hp hconn' hconn)

theorem Sound.other_conn
    (hs : Sound w) (hp : w.procs i = some p) {conn : ℕ}
    (hconn : p.knows.conn = some conn) {k : Progress} (hk : k.conn = p.knows.conn) :
    ∀ j q other, j ≠ i → w.procs j = some q → k.conn = some other →
      q.knows.conn ≠ some other := by
  intro j q other hne hq hother hconn'
  obtain rfl := Option.some.inj ((hk.trans hconn).symm.trans hother)
  exact hne (hs.apart j i q p conn hq hp hconn' hconn)

theorem Sound.start (hs : Sound w) (hfree : w.procs i = none) (u : CasUpdate) :
    Sound ⟨w.shared, Function.update w.procs i (some u.begins)⟩ := by
  refine hs.set (fun p₀ hp₀ => ?_) ⟨safe_program u, nofun, ?_, nofun, nofun⟩
    (fun j q _ hq => hs.placed j q hq) nofun rfl nofun ?_ hs.holder
  · rw [hfree] at hp₀
    cases hp₀
  · exact iff_of_false nofun nofun
  · rintro (hstage | hstage)
    · cases hstage
    · cases hstage

variable {k : Progress} {conn : ℕ}

theorem Sound.connect
    (hs : Sound w) {next : Statement.connect.Answer → CasProgram}
    (hp : w.procs i = some ⟨k, .access .connect next⟩) :
    Sound ⟨{ w.shared with connections := w.shared.connections + 1 },
      Function.update w.procs i (some ⟨{ k with conn := some w.shared.connections },
        next w.shared.connections⟩)⟩ := by
  have hplace := hs.placed i _ hp
  obtain ⟨⟨hconn, hstage⟩, hrest⟩ := hplace.safe
  change k.stage = .begun at hstage
  have hspares : Spares w.shared.connections w.shared
      { w.shared with connections := w.shared.connections + 1 } :=
    ⟨Nat.le_succ _, fun _ _ _ => Iff.rfl, fun _ _ _ _ => rfl, fun _ _ => le_rfl⟩
  refine hs.set (fun p₀ hp₀ => ?_) ⟨hrest _, ?_, ?_, ?_, ?_⟩ ?_ ?_ rfl ?_ ?_ ?_
  · obtain rfl := Option.some.inj (hp.symm.trans hp₀)
    exact hs.not_committed hp
  · rintro other hother
    obtain rfl := Option.some.inj hother
    exact Nat.lt_succ_self _
  · refine iff_of_false (by simp [hstage]) ?_
    rintro ⟨other, pending, hother, hwriter⟩
    obtain rfl := Option.some.inj hother
    exact lt_irrefl _ (hs.holder _ _ hwriter)
  · rintro other pending hother hwriter
    obtain rfl := Option.some.inj hother
    exact absurd (hs.holder _ _ hwriter) (lt_irrefl _)
  · intro hcommitted
    exact absurd hcommitted (by simp [hstage])
  · intro j q _ hq
    refine (hs.placed j q hq).spared hspares fun hconn' => ?_
    exact lt_irrefl _ ((hs.placed j q hq).opened _ hconn')
  · intro j q other _ hq hother hconn'
    obtain rfl := Option.some.inj hother
    exact lt_irrefl _ ((hs.placed j q hq).opened _ hconn')
  · simp [hstage]
  · simp [hstage]
  · exact fun other pending hwriter => (hs.holder other pending hwriter).trans
      (Nat.lt_succ_self _)

theorem Placed.not_holder
    (h : Placed db p) (hconn : p.knows.conn = some conn)
    (hstage : p.knows.stage ≠ .writing) :
    ∀ pending, db.writer ≠ some (conn, pending) :=
  fun pending hwriter => hstage (h.lock.mpr ⟨conn, pending, hconn, hwriter⟩)

/-- A statement that leaves the database, of an update that neither holds the lock
before it nor has committed after it. -/
theorem Sound.unchanged
    (hs : Sound w) {next : s.Answer → CasProgram}
    (hp : w.procs i = some ⟨k, .access s next⟩) (hconn : k.conn = some conn)
    (hstage : k.stage ≠ .writing) {r : s.Answer}
    (hconn' : (k.learns s r).conn = k.conn)
    (hnot : (k.learns s r).stage ≠ .committed ∧ (k.learns s r).stage ≠ .writing)
    (hselected : (k.learns s r).stage = .matched →
      k.update.storedVersion w.shared.committed = k.update.expectedVersion) :
    Sound ⟨w.shared, Function.update w.procs i (some ⟨k.learns s r, next r⟩)⟩ := by
  have hplace := hs.placed i _ hp
  have hfree := hplace.not_holder hconn hstage
  have hupdate := learns_update k s r
  have hafter : (k.learns s r).conn = some conn := hconn'.trans hconn
  refine hs.set (fun p₀ hp₀ => ?_) ⟨hplace.safe.2 r, ?_, ?_, ?_, ?_⟩
    (fun j q _ hq => hs.placed j q hq) (hs.other_conn hp hconn hconn') rfl hnot.1 ?_
    hs.holder
  · obtain rfl := Option.some.inj (hp.symm.trans hp₀)
    exact hs.not_committed hp
  · exact fun other hother => hplace.opened other (hconn'.symm.trans hother)
  · refine iff_of_false hnot.2 ?_
    rintro ⟨other, pending, hother, hwriter⟩
    obtain rfl := Option.some.inj (hafter.symm.trans hother)
    exact hfree pending hwriter
  · rintro other pending hother hwriter
    obtain rfl := Option.some.inj (hafter.symm.trans hother)
    exact absurd hwriter (hfree pending)
  · exact fun hcommitted => absurd hcommitted hnot.1
  · rintro (hmatched | hwriting)
    · left
      change (k.learns s r).update.storedVersion _ = (k.learns s r).update.expectedVersion
      rw [hupdate]
      exact hselected hmatched
    · exact absurd hwriting hnot.2

theorem version_replaceState
    (tables : Tables) (runId taskId : String) (row : OwnershipRecord)
    (runId' taskId' : String) :
    (((Write.replaceState runId taskId row).apply tables).getTask runId' taskId').version =
      if (runId', taskId') = (runId, taskId) then row.version
      else (tables.getTask runId' taskId').version := by
  simp only [Write.apply, Tables.getTask, Dict.get?_set]
  split_ifs
  · rfl
  · rfl

theorem Sound.wrote
    (hs : Sound w) {write : Write} {next : (Statement.write conn write).Answer → CasProgram}
    (hp : w.procs i = some ⟨k, .access (.write conn write) next⟩)
    (hlock : w.shared.writer = none ∨ ∃ pending, w.shared.writer = some (conn, pending)) :
    Sound ⟨{ w.shared with writer := some (conn, write.apply (w.shared.view conn)) },
      Function.update w.procs i (some ⟨{ k with stage := .writing }, next false⟩)⟩ := by
  have hplace := hs.placed i _ hp
  have hallowed : k.Allows (.write conn write) := hplace.safe.1
  obtain ⟨hconn, hcase⟩ := hallowed
  have hspares : Spares conn w.shared
      { w.shared with writer := some (conn, write.apply (w.shared.view conn)) } := by
    refine ⟨le_rfl, fun other pending hne => iff_of_false ?_ ?_, fun _ _ _ _ => rfl,
      fun _ _ => le_rfl⟩
    · rintro heq
      obtain ⟨rfl, -⟩ := Prod.mk.inj (Option.some.inj heq)
      exact hne rfl
    · rintro heq
      rcases hlock with hnone | ⟨pending', hheld⟩
      · rw [hnone] at heq
        cases heq
      · obtain ⟨rfl, -⟩ := Prod.mk.inj (Option.some.inj (hheld.symm.trans heq))
        exact hne rfl
  have hdraft : ∀ runId taskId,
      ((write.apply (w.shared.view conn)).getTask runId taskId).version =
        if (runId, taskId) = (k.update.runId, k.update.taskId) then
          k.update.expectedVersion + 1
        else (w.shared.committed.getTask runId taskId).version := by
    intro runId taskId
    rcases hcase with ⟨hmatched, row, hrow, hwrite⟩ | ⟨hwriting, hkeeps⟩
    · have hfree := hplace.not_holder hconn (by simp [hmatched])
      rw [view_free hfree, hwrite, version_replaceState, hrow]
    · obtain ⟨other, pending, hother, hwriter⟩ := hplace.lock.mp hwriting
      obtain rfl := Option.some.inj (hconn.symm.trans hother)
      have hview : w.shared.view conn = pending := by
        simp only [Database.view, hwriter, if_true]
      rw [hkeeps, hview]
      exact hplace.draft conn pending hconn hwriter runId taskId
  have hreading : k.stage = .matched ∨ k.stage = .writing := hcase.imp And.left And.left
  have hselected := hs.selected i _ hp hreading
  refine hs.set (fun p₀ hp₀ => ?_) ⟨hplace.safe.2 false, hplace.opened, ?_, ?_, by rintro ⟨⟩⟩
    (hs.others hp hconn hspares) (hs.other_conn hp hconn rfl) rfl (by rintro ⟨⟩)
    (fun _ => hselected) ?_
  · obtain rfl := Option.some.inj (hp.symm.trans hp₀)
    exact hs.not_committed hp
  · exact iff_of_true rfl ⟨conn, _, hconn, rfl⟩
  · rintro other pending hother hwriter
    obtain ⟨-, rfl⟩ := Prod.mk.inj (Option.some.inj hwriter)
    exact hdraft
  · rintro other pending hwriter
    obtain ⟨rfl, -⟩ := Prod.mk.inj (Option.some.inj hwriter)
    exact hplace.opened _ hconn

/-- The commit of an update that holds the lock, when the version it has selected is
still stored. -/
theorem Sound.committed
    (hs : Sound w) {next : (Statement.commit conn).Answer → CasProgram}
    (hp : w.procs i = some ⟨k, .access (.commit conn) next⟩) {pending : Tables}
    (hwriter : w.shared.writer = some (conn, pending))
    (hversion : k.update.storedVersion w.shared.committed = k.update.expectedVersion) :
    Sound ⟨{ w.shared with committed := pending, writer := none },
      Function.update w.procs i (some ⟨{ k with stage := .committed }, next ()⟩)⟩ := by
  have hplace := hs.placed i _ hp
  have hconn : k.conn = some conn := hplace.safe.1.1
  have hwriting : k.stage = .writing := hplace.lock.mpr ⟨conn, pending, hconn, hwriter⟩
  have hdraft : ∀ runId taskId, (pending.getTask runId taskId).version =
      if (runId, taskId) = (k.update.runId, k.update.taskId) then
        k.update.expectedVersion + 1
      else (w.shared.committed.getTask runId taskId).version :=
    hplace.draft conn pending hconn hwriter
  have hself : k.update.storedVersion pending = k.update.expectedVersion + 1 := by
    rw [CasUpdate.storedVersion, hdraft, if_pos rfl]
  have hspares : Spares conn w.shared
      { w.shared with committed := pending, writer := none } := by
    refine ⟨le_rfl, fun other draft hne => iff_of_false nofun ?_, ?_, fun runId taskId => ?_⟩
    · rw [hwriter]
      rintro heq
      exact hne (Prod.mk.inj (Option.some.inj heq)).1.symm
    · intro other draft hne heq
      rw [hwriter] at heq
      exact absurd (Prod.mk.inj (Option.some.inj heq)).1.symm hne
    · change _ ≤ (pending.getTask runId taskId).version
      rw [hdraft]
      split_ifs with hkey
      · obtain ⟨rfl, rfl⟩ := Prod.mk.inj hkey
        have : (w.shared.committed.getTask k.update.runId k.update.taskId).version =
          k.update.expectedVersion := hversion
        omega
      · exact le_rfl
  have hplaced : Placed { w.shared with committed := pending, writer := none }
      ⟨{ k with stage := .committed }, next ()⟩ := by
    refine ⟨?_, hplace.opened, iff_of_false nofun ?_, nofun, fun _ => ?_⟩
    · have hrest := hplace.safe.2 ()
      simpa only [Progress.learns, if_pos hwriting] using hrest
    · rintro ⟨_, _, -, hnone⟩
      cases hnone
    · change _ < k.update.storedVersion pending
      rw [hself]
      exact lt_add_one _
  have hothers := hs.others hp hconn hspares
  have hlater {j : ℕ} {q : Running} (hq : w.procs j = some q)
      (hcommitted : q.knows.stage = .committed) :
      j ≠ i ∧ ¬ k.update.SameVersion q.knows.update := by
    constructor
    · rintro rfl
      obtain rfl := Option.some.inj (hq.symm.trans hp)
      exact hs.not_committed hp hcommitted
    · rintro ⟨hrun, htask, hexpected⟩
      have hpast := (hs.placed j q hq).past hcommitted
      rw [← hexpected, CasUpdate.storedVersion, ← hrun, ← htask] at hpast
      exact absurd hversion hpast.ne'
  refine ⟨fun j q hq => ?_, fun j l q r other hq hr hother hother' => ?_,
    fun j q hq hreading => ?_, nofun, fun j l q r hq hr hdone hdone' hsame => ?_⟩
  · rcases procs_update hq with ⟨-, rfl⟩ | ⟨hne, hq₀⟩
    · exact hplaced
    · exact hothers j q hne hq₀
  · rcases procs_update hq with ⟨rfl, rfl⟩ | ⟨hne, hq₀⟩
    · rcases procs_update hr with ⟨rfl, -⟩ | ⟨hne', hr₀⟩
      · rfl
      · exact (hs.apart _ l _ r other hp hr₀ hother hother')
    · rcases procs_update hr with ⟨rfl, rfl⟩ | ⟨hne', hr₀⟩
      · exact hs.apart j _ q _ other hq₀ hp hother hother'
      · exact hs.apart j l q r other hq₀ hr₀ hother hother'
  · rcases procs_update hq with ⟨rfl, rfl⟩ | ⟨hne, hq₀⟩
    · rcases hreading with hstage | hstage
      · cases hstage
      · cases hstage
    · rcases hs.selected j q hq₀ hreading with hstored | ⟨l, r, hr, hcommitted, hsame⟩
      · by_cases hkey : (q.knows.update.runId, q.knows.update.taskId) =
            (k.update.runId, k.update.taskId)
        · obtain ⟨hrun, htask⟩ := Prod.mk.inj hkey
          refine Or.inr ⟨i, _, Function.update_self _ _ _, rfl, hrun.symm, htask.symm, ?_⟩
          rw [CasUpdate.storedVersion, hrun, htask] at hstored
          exact hversion.symm.trans hstored
        · left
          change q.knows.update.storedVersion pending = _
          rw [CasUpdate.storedVersion, hdraft, if_neg hkey]
          exact hstored
      · refine Or.inr ⟨l, r, ?_, hcommitted, hsame⟩
        change Function.update w.procs i _ l = _
        rw [Function.update_of_ne (hlater hr hcommitted).1, hr]
  · rcases procs_update hq with ⟨rfl, rfl⟩ | ⟨hne, hq₀⟩
    · rcases procs_update hr with ⟨rfl, -⟩ | ⟨hne', hr₀⟩
      · rfl
      · have hcommitted := (succeeded_iff (hs.placed l r hr₀).safe).mp hdone'
        exact absurd hsame (hlater hr₀ hcommitted).2
    · have hcommitted := (succeeded_iff (hs.placed j q hq₀).safe).mp hdone
      rcases procs_update hr with ⟨rfl, rfl⟩ | ⟨hne', hr₀⟩
      · exact absurd ⟨hsame.1.symm, hsame.2.1.symm, hsame.2.2.symm⟩
          (hlater hq₀ hcommitted).2
      · exact hs.one j l q r hq₀ hr₀ hdone hdone' hsame

/-- The update that makes its next statement `s`, with the answer it is given. -/
def Updates.answered
    (w : Updates) (i : ℕ) (k : Progress) (s : Statement)
    (next : s.Answer → CasProgram) : Updates :=
  ⟨(w.shared.perform s).1, Function.update w.procs i
    (some ⟨k.learns s (w.shared.perform s).2, next (w.shared.perform s).2⟩)⟩

theorem answered_eq {next : s.Answer → CasProgram} {answer : s.Answer}
    (h : w.shared.perform s = (db, answer)) :
    w.answered i k s next =
      ⟨db, Function.update w.procs i (some ⟨k.learns s answer, next answer⟩)⟩ := by
  rw [Updates.answered, h]

theorem Sound.answered
    (hs : Sound w) {next : s.Answer → CasProgram}
    (hp : w.procs i = some ⟨k, .access s next⟩) (hguard : CommitsOnSelected w (.run i)) :
    Sound (w.answered i k s next) := by
  have hplace := hs.placed i _ hp
  cases s with
  | connect => exact hs.connect hp
  | selectState conn runId taskId =>
      have hallowed : k.Allows (.selectState conn runId taskId) := hplace.safe.1
      obtain ⟨hconn, hstage, rfl, rfl⟩ := hallowed
      have hnot : k.stage ≠ .writing := by simp [hstage]
      have hview : w.shared.view conn = w.shared.committed :=
        view_free (hplace.not_holder hconn hnot)
      refine hs.unchanged hp hconn hnot rfl ?_ ?_
      · simp only [Progress.learns]
        split_ifs
        · exact ⟨by rintro ⟨⟩, by rintro ⟨⟩⟩
        · exact ⟨by rintro ⟨⟩, by rintro ⟨⟩⟩
      · intro hmatched
        simp only [Progress.learns, Database.perform, hview] at hmatched
        split_ifs at hmatched with hversion
        exact hversion
  | write conn write =>
      have hallowed : k.Allows (.write conn write) := hplace.safe.1
      cases hwriter : w.shared.writer with
      | none =>
          have hview : w.shared.view conn = w.shared.committed := by
            simp only [Database.view, hwriter]
          have hwrote := hs.wrote hp (Or.inl hwriter)
          rw [hview] at hwrote
          rw [answered_eq (perform_write_free hwriter)]
          exact hwrote
      | some held =>
          obtain ⟨holder, pending⟩ := held
          by_cases hne : holder = conn
          · subst hne
            have hview : w.shared.view holder = pending := by
              simp only [Database.view, hwriter, if_true]
            have hwrote := hs.wrote hp (Or.inr ⟨pending, hwriter⟩)
            rw [hview] at hwrote
            rw [answered_eq (perform_write_held hwriter)]
            exact hwrote
          · rw [answered_eq (perform_write_locked hwriter hne)]
            have hnot : k.stage ≠ .writing := by
              intro hwriting
              obtain ⟨other, draft, hother, hheld⟩ := hplace.lock.mp hwriting
              obtain rfl := Option.some.inj (hallowed.1.symm.trans hother)
              rw [hwriter] at hheld
              exact hne (Prod.mk.inj (Option.some.inj hheld)).1
            exact hs.unchanged hp hallowed.1 hnot rfl ⟨by rintro ⟨⟩, by rintro ⟨⟩⟩ (by rintro ⟨⟩)
  | commit conn =>
      have hallowed : k.Allows (.commit conn) := hplace.safe.1
      obtain ⟨hconn, hstage⟩ := hallowed
      by_cases hwriting : k.stage = .writing
      · obtain ⟨other, pending, hother, hwriter⟩ := hplace.lock.mp hwriting
        obtain rfl := Option.some.inj (hconn.symm.trans hother)
        have hlearns : k.learns (.commit conn) () = { k with stage := .committed } := by
          simp only [Progress.learns, if_pos hwriting]
        rw [answered_eq (perform_commit_held hwriter), hlearns]
        exact hs.committed hp hwriter (hguard k conn next pending hp hwriter)
      · have hfailed := hstage.resolve_left hwriting
        rw [answered_eq (perform_end_free (hplace.not_holder hconn hwriting)).1]
        refine hs.unchanged hp hconn hwriting rfl ?_ ?_
        · simp [Progress.learns, hfailed]
        · simp [Progress.learns, hfailed]
  | rollback conn =>
      have hallowed : k.Allows (.rollback conn) := hplace.safe.1
      obtain ⟨hconn, hfailed⟩ := hallowed
      have hnot : k.stage ≠ .writing := by simp [hfailed]
      rw [answered_eq (perform_end_free (hplace.not_holder hconn hnot)).2]
      exact hs.unchanged hp hconn hnot rfl ⟨by rintro ⟨⟩, by rintro ⟨⟩⟩ (by rintro ⟨⟩)

theorem Sound.step
    (hs : Sound w) {input : PoolInput CasUpdate} (hguard : CommitsOnSelected w input) :
    Sound (updatesMachine.step w input).1 := by
  rcases @poolStep_cases _ _ _ _ _ _ _ Database.perform Progress.learns
      CasUpdate.begins w input with
    ⟨i, u, rfl, hfree, hstep⟩ | ⟨i, k, s, next, rfl, hp, hstep⟩ | hstep
  · rw [updatesMachine, hstep]
    exact hs.start hfree u
  · rw [updatesMachine, hstep]
    exact hs.answered hp hguard
  · rw [updatesMachine, hstep]
    exact hs

/-- If at most one update of a version has succeeded after the step, then the step does
not commit on another version than its update has selected. -/
theorem Sound.commitsOnSelected
    (hs : Sound w) {input : PoolInput CasUpdate}
    (hone : AtMostOne (updatesMachine.step w input).1) : CommitsOnSelected w input := by
  cases input with
  | start i u => trivial
  | run i =>
      intro k conn next pending hp hwriter
      have hplace := hs.placed i _ hp
      have hconn : k.conn = some conn := hplace.safe.1.1
      have hwriting : k.stage = .writing :=
        hplace.lock.mpr ⟨conn, pending, hconn, hwriter⟩
      rcases hs.selected i _ hp (Or.inr hwriting) with
        hstored | ⟨j, q, hq, hcommitted, hsame⟩
      · exact hstored
      · exfalso
        have hne : j ≠ i := by
          rintro rfl
          obtain rfl := Option.some.inj (hq.symm.trans hp)
          exact hs.not_committed hp hcommitted
        have hrest : SafeUpdate { k with stage := .committed } (next ()) := by
          have hsafe := hplace.safe.2 ()
          simpa only [Progress.learns, if_pos hwriting] using hsafe
        have hdone : Succeeded ⟨{ k with stage := .committed }, next ()⟩ :=
          (succeeded_iff hrest).mpr rfl
        have hother : Succeeded q :=
          (succeeded_iff (hs.placed j q hq).safe).mpr hcommitted
        have hstep : (updatesMachine.step w (.run i)).1 =
            ⟨{ w.shared with committed := pending, writer := none },
              Function.update w.procs i
                (some ⟨{ k with stage := .committed }, next ()⟩)⟩ := by
          have hlearns : k.learns (.commit conn) () = { k with stage := .committed } := by
            simp only [Progress.learns, if_pos hwriting]
          rw [updatesMachine, poolStep_run hp]
          exact (answered_eq (perform_commit_held hwriter)).trans (by rw [hlearns])
        rw [hstep] at hone
        refine hne (hone j i q _ ?_ (Function.update_self _ _ _) hother hdone hsame)
        change Function.update w.procs i _ j = _
        rw [Function.update_of_ne hne, hq]

end Steps

/-! ## Runs -/

theorem sound_opened (tables : Tables) : Sound (.opened tables) := by
  have hnone {i : ℕ} {p : Running} : (Updates.opened tables).procs i ≠ some p := by
    intro hp
    cases hp
  refine ⟨fun i p hp => absurd hp hnone, fun i j p q conn hp => absurd hp hnone,
    fun i p hp => absurd hp hnone, fun conn pending hwriter => ?_,
    fun i j p q hp => absurd hp hnone⟩
  cases hwriter

/-- In every interleaving of updates at most one of those that expect one version of an
object reports success, exactly when every update commits while the version that it has
selected is still stored. -/
theorem one_success_iff (tables : Tables) (inputs : List (PoolInput CasUpdate)) :
    (∀ e ∈ updatesMachine.trace (.opened tables) inputs, AtMostOne e.after) ↔
      updatesMachine.Guarded CommitsOnSelected (.opened tables) inputs := by
  refine Machine.forall_after_iff_guarded inputs (fun w input _ hs => ⟨?_, ?_⟩)
    (fun w input _ hs hone => ?_) (sound_opened tables)
  · exact hs.commitsOnSelected
  · exact fun hguard => (hs.step hguard).one
  · exact hs.step (hs.commitsOnSelected hone)

def reportsSuccess
    (w : Updates) (i : ℕ) (runId taskId : String) (expectedVersion : ℤ) : Bool :=
  match w.procs i with
  | some ⟨k, .done (.updated _)⟩ =>
      k.update.runId = runId && k.update.taskId = taskId &&
        k.update.expectedVersion = expectedVersion
  | _ => false

theorem exists_of_reportsSuccess
    {w : Updates} {i : ℕ} {runId taskId : String} {expectedVersion : ℤ}
    (h : reportsSuccess w i runId taskId expectedVersion = true) :
    ∃ p, w.procs i = some p ∧ Succeeded p ∧ p.knows.update.runId = runId ∧
      p.knows.update.taskId = taskId ∧
      p.knows.update.expectedVersion = expectedVersion := by
  unfold reportsSuccess at h
  split at h
  next k record hp =>
    simp only [Bool.and_eq_true, decide_eq_true_eq] at h
    exact ⟨_, hp, ⟨record, rfl⟩, h.1.1, h.1.2, h.2⟩
  · cases h

def takesTask (actor : String) : CasUpdate where
  runId := "run"
  taskId := "task"
  expectedVersion := 0
  mutate record := { record with executorId := actor, state := "acknowledged" }
  now := 0

def bothSelectFirst : List (PoolInput CasUpdate) :=
  [.start 0 (takesTask "alice"), .start 1 (takesTask "bob"),
    .run 0, .run 0, .run 1, .run 1,
    .run 0, .run 0, .run 0, .run 0, .run 1, .run 1, .run 1]

theorem both_updates_succeed :
    ¬ ∀ e ∈ updatesMachine.trace (.opened .empty) (bothSelectFirst ++ [.run 1]),
      AtMostOne e.after := by
  intro hall
  have hlast := hall (updatesMachine.stepAt
    (updatesMachine.final (.opened .empty) bothSelectFirst) (.run 1)) (by
      rw [Machine.trace_snoc]
      exact List.mem_append_right _ List.mem_cons_self)
  have hboth : ∀ i ∈ [0, 1], reportsSuccess (updatesMachine.step
      (updatesMachine.final (.opened .empty) bothSelectFirst) (.run 1)).1
        i "run" "task" 0 = true := by
    decide +kernel
  obtain ⟨p, hp, hdone, hrun, htask, hversion⟩ :=
    exists_of_reportsSuccess (hboth 0 (by decide))
  obtain ⟨q, hq, hdone', hrun', htask', hversion'⟩ :=
    exists_of_reportsSuccess (hboth 1 (by decide))
  have hsame : p.knows.update.SameVersion q.knows.update :=
    ⟨hrun.trans hrun'.symm, htask.trans htask'.symm, hversion.trans hversion'.symm⟩
  exact absurd (hlast 0 1 p q hp hq hdone hdone' hsame) (by decide)

end Hydrogenuine.Ownership
