import Mathlib.Data.Prod.Lex
import Mathlib.Data.String.Basic
import Hydrogenuine.Ownership.Baton

/-!
# Conflicts over the lead

Embedding of the arbitration of `hg_core/ownership/conflict_detection.py`, and what the
resolution of a contested task leaves behind.  Start times are exact.
-/

namespace Hydrogenuine.Ownership

open Support

/-! ## Arbitration between claims on the lead -/

/-- A claim on the lead, with the keys that are read; `leaseValid` says whether
`lease_valid` is `True`. -/
structure LeadClaim where
  agentId : Option String
  startTime : Option ℚ
  leaseValid : Bool

/-- `c.get("agent_id", "")`. -/
def LeadClaim.agent (c : LeadClaim) : String := c.agentId.getD ""

def detectLeadConflict (claims : List LeadClaim) : Bool :=
  1 < (claims.filter LeadClaim.leaseValid).length

def arbitrationKey (rolePriority : Dict String ℤ) (c : LeadClaim) : ℚ ×ₗ ℤ ×ₗ String :=
  toLex (c.startTime.getD 0,
    toLex (-(rolePriority.get? c.agent).getD 0, c.agent))

/-- `sorted(items, key=key)`. -/
def sortedByKey {α κ : Type*} [LinearOrder κ] (key : α → κ) (items : List α) : List α :=
  items.insertionSort fun a b => key a ≤ key b

def runArbitrationR1 (claims : List LeadClaim) (rolePriority : Option (Dict String ℤ)) :
    String :=
  match claims.filter LeadClaim.leaseValid with
  | [] => ""
  | [c] => c.agent
  | valid =>
      match sortedByKey (arbitrationKey (rolePriority.getD .empty)) valid with
      | [] => ""
      | c :: _ => c.agent

section Keys

variable {α κ : Type*} [LinearOrder κ] (key : α → κ)

theorem perm_sortedByKey (items : List α) : (sortedByKey key items).Perm items :=
  List.perm_insertionSort _ items

theorem pairwise_sortedByKey (items : List α) :
    ((sortedByKey key items).map key).Pairwise (· ≤ ·) := by
  have : IsTrans α fun a b => key a ≤ key b := ⟨fun _ _ _ => le_trans⟩
  have : Std.Total fun a b : α => key a ≤ key b := ⟨fun _ _ => le_total _ _⟩
  exact List.pairwise_map.mpr (List.pairwise_insertionSort _ items)

theorem map_sortedByKey_of_perm {items items' : List α} (h : items'.Perm items) :
    (sortedByKey key items').map key = (sortedByKey key items).map key :=
  List.Perm.eq_of_pairwise' (pairwise_sortedByKey key items')
    (pairwise_sortedByKey key items)
    ((((perm_sortedByKey key items').trans h).trans (perm_sortedByKey key items).symm).map
      key)

end Keys

section Arbitration

variable {claims claims' : List LeadClaim} {rolePriority : Option (Dict String ℤ)}

def agentOfKey (key : ℚ ×ₗ ℤ ×ₗ String) : String := (ofLex (ofLex key).2).2

theorem runArbitrationR1_eq :
    runArbitrationR1 claims rolePriority =
      (((sortedByKey (arbitrationKey (rolePriority.getD .empty))
        (claims.filter LeadClaim.leaseValid)).map
          (arbitrationKey (rolePriority.getD .empty))).head?.map agentOfKey).getD "" := by
  unfold runArbitrationR1
  rcases claims.filter LeadClaim.leaseValid with _ | ⟨c, _ | ⟨d, valid⟩⟩
  · rfl
  · rfl
  · dsimp only
    cases sortedByKey (arbitrationKey (rolePriority.getD .empty)) (c :: d :: valid) with
    | nil => rfl
    | cons first rest => rfl

theorem runArbitrationR1_of_perm (h : claims'.Perm claims) :
    runArbitrationR1 claims' rolePriority = runArbitrationR1 claims rolePriority := by
  rw [runArbitrationR1_eq, runArbitrationR1_eq,
    map_sortedByKey_of_perm _ (h.filter LeadClaim.leaseValid)]

theorem runArbitrationR1_valid (h : ∃ c ∈ claims, c.leaseValid = true) :
    ∃ c ∈ claims, c.leaseValid = true ∧
      runArbitrationR1 claims rolePriority = c.agent := by
  rw [runArbitrationR1_eq]
  have hperm := perm_sortedByKey (arbitrationKey (rolePriority.getD .empty))
    (claims.filter LeadClaim.leaseValid)
  generalize sortedByKey (arbitrationKey (rolePriority.getD .empty))
    (claims.filter LeadClaim.leaseValid) = sorted at hperm ⊢
  rcases sorted with _ | ⟨first, rest⟩
  · obtain ⟨c, hmem, hvalid⟩ := h
    have hin := hperm.symm.subset (List.mem_filter.mpr ⟨hmem, hvalid⟩)
    cases hin
  · obtain ⟨hmem, hvalid⟩ := List.mem_filter.mp (hperm.subset List.mem_cons_self)
    exact ⟨first, hmem, hvalid, rfl⟩

theorem runArbitrationR1_none (h : ∀ c ∈ claims, c.leaseValid = false) :
    runArbitrationR1 claims rolePriority = "" := by
  have hempty : claims.filter LeadClaim.leaseValid = [] :=
    List.filter_eq_nil_iff.mpr fun c hmem => by simp [h c hmem]
  rw [runArbitrationR1, hempty]

end Arbitration

/-! ## The resolution of a contested task -/

section Resolution

variable {claims claims' : List Claim} {tables tables' : Tables} {env : Call}
  {taskId actor : String} {expectedVersion : ℤ} {winnerActor : Option String}

def Claim.contender (claim : Claim) : String := claim.actor.getD ""

theorem foldl_least (claims : List Claim) (least : String) :
    let result := claims.foldl (fun least other =>
      if other.actor.getD "" < least then other.actor.getD "" else least) least
    (result = least ∨ ∃ claim ∈ claims, result = claim.contender) ∧
      result ≤ least ∧ ∀ claim ∈ claims, result ≤ claim.contender := by
  induction claims generalizing least with
  | nil => exact ⟨Or.inl rfl, le_refl _, nofun⟩
  | cons claim claims ih =>
      rw [List.foldl_cons]
      by_cases hless : claim.actor.getD "" < least
      · rw [if_pos hless]
        obtain ⟨hsource, hle, hall⟩ := ih (claim.actor.getD "")
        refine ⟨Or.inr ?_, hle.trans hless.le, List.forall_mem_cons.mpr ⟨hle, hall⟩⟩
        rcases hsource with hsource | ⟨other, hmem, hsource⟩
        · exact ⟨claim, List.mem_cons_self, hsource⟩
        · exact ⟨other, List.mem_cons_of_mem _ hmem, hsource⟩
      · rw [if_neg hless]
        obtain ⟨hsource, hle, hall⟩ := ih least
        refine ⟨?_, hle, List.forall_mem_cons.mpr ⟨hle.trans (not_lt.mp hless), hall⟩⟩
        exact hsource.imp id fun ⟨other, hmem, hother⟩ =>
          ⟨other, List.mem_cons_of_mem _ hmem, hother⟩

theorem leastActor_spec (hne : claims ≠ []) :
    (∃ claim ∈ claims, leastActor claims = claim.contender) ∧
      ∀ claim ∈ claims, leastActor claims ≤ claim.contender := by
  obtain ⟨claim, claims, rfl⟩ := List.exists_cons_of_ne_nil hne
  obtain ⟨hsource, hle, hall⟩ := foldl_least claims (claim.actor.getD "")
  refine ⟨?_, List.forall_mem_cons.mpr ⟨hle, hall⟩⟩
  rcases hsource with hsource | ⟨other, hmem, hsource⟩
  · exact ⟨claim, List.mem_cons_self, hsource⟩
  · exact ⟨other, List.mem_cons_of_mem _ hmem, hsource⟩

theorem leastActor_of_perm (h : claims'.Perm claims) :
    leastActor claims' = leastActor claims := by
  by_cases hne : claims = []
  · subst hne
    rw [h.eq_nil]
  · have hne' : claims' ≠ [] := fun hempty => hne ((hempty ▸ h).nil_eq.symm)
    obtain ⟨⟨claim, hmem, hclaim⟩, hall⟩ := leastActor_spec hne
    obtain ⟨⟨claim', hmem', hclaim'⟩, hall'⟩ := leastActor_spec hne'
    apply le_antisymm
    · rw [hclaim]
      exact hall' claim (h.symm.subset hmem)
    · rw [hclaim']
      exact hall claim' (h.subset hmem')

/-- A resolution that succeeds was one of a contested task, and its winner is the one
that was asked for or the least actor. -/
theorem resolveContested_ok
    (hok : (resolveContested env tables taskId actor expectedVersion winnerActor).1.ok =
      true) :
    (tables.getTask env.runId taskId).state = "contested" ∧
      ((tables.getTask env.runId taskId).contestedClaims.getD []) ≠ [] ∧
      (resolveContested env tables taskId actor expectedVersion winnerActor).1.winnerActor =
        some (winnerActor.getD
          (leastActor ((tables.getTask env.runId taskId).contestedClaims.getD []))) := by
  unfold resolveContested at hok ⊢
  dsimp only at hok ⊢
  split_ifs at hok ⊢ with hcontested hversion
  push Not at hcontested
  refine ⟨hcontested.1, hcontested.2, ?_⟩
  unfold recordThenUpdate at hok ⊢
  dsimp only at hok ⊢
  split at hok
  · rfl
  · cases hok

/-- The task is acknowledged and no longer contested, and its one executor is the only
one who can finalize it. -/
structure HeldOnlyBy (holder : String) (record : OwnershipRecord) : Prop where
  acknowledged : record.state = "acknowledged"
  uncontested : record.contestedClaims = none
  executor : record.executorId = holder
  finalizer : ∀ other, record.canFinalize other = true ↔ other = holder

theorem HeldOnlyBy.of_fields {holder : String} {record : OwnershipRecord}
    (hstate : record.state = "acknowledged") (hclaims : record.contestedClaims = none)
    (hexecutor : record.executorId = holder) : HeldOnlyBy holder record where
  acknowledged := hstate
  uncontested := hclaims
  executor := hexecutor
  finalizer other := by
    rw [OwnershipRecord.canFinalize, Bool.and_eq_true, decide_eq_true_iff,
      decide_eq_true_iff, hexecutor]
    refine ⟨fun h => h.2.symm, fun h => ⟨?_, h.symm⟩⟩
    rw [hstate]
    exact List.mem_cons_self

theorem resolveContested_record
    (hok : (resolveContested env tables taskId actor expectedVersion winnerActor).1.ok =
      true) :
    HeldOnlyBy
      (winnerActor.getD
        (leastActor ((tables.getTask env.runId taskId).contestedClaims.getD [])))
      ((resolveContested env tables taskId actor expectedVersion winnerActor).2.getTask
        env.runId taskId) := by
  have hends := perform_ends env tables
    (.resolve taskId actor expectedVersion winnerActor)
  rw [OwnershipOp.perform] at hends
  generalize resolveContested env tables taskId actor expectedVersion winnerActor =
    outcome at hends hok
  cases hends with
  | conflict result after hop => cases hop
  | refused result hop hresult => cases hok.symm.trans hresult
  | declined result after hop =>
      obtain ⟨_, _, _, _, _, hop⟩ := hop
      cases hop
  | updated result appended hversion hresult happended =>
      have hrecord := (getTask_casWrites env.runId taskId
        (OwnershipOp.written env (.resolve taskId actor expectedVersion winnerActor) tables)
        appended env.runId taskId).trans (if_pos rfl)
      exact .of_fields (congrArg OwnershipRecord.state hrecord)
        (congrArg OwnershipRecord.contestedClaims hrecord)
        (congrArg OwnershipRecord.executorId hrecord)

end Resolution

/-- The arbitration and the resolution choose the same winner for every order of the
claims.  The arbitration chooses among the claims with a valid lease, if there are any,
and the resolution, unless it is told the winner, the least actor; it leaves the winner
as the only holder. -/
theorem contested_winner
    (claims claims' : List LeadClaim) (rolePriority : Option (Dict String ℤ))
    (hclaims : claims'.Perm claims)
    (env : Call) (tables tables' : Tables) (taskId actor : String) (expectedVersion : ℤ)
    (winnerActor : Option String) (contested contested' : List Claim)
    (hcontested : (tables.getTask env.runId taskId).contestedClaims = some contested)
    (hcontested' : (tables'.getTask env.runId taskId).contestedClaims = some contested')
    (hperm : contested'.Perm contested) :
    runArbitrationR1 claims' rolePriority = runArbitrationR1 claims rolePriority ∧
    ((∃ c ∈ claims, c.leaseValid = true) →
      ∃ c ∈ claims, c.leaseValid = true ∧
        runArbitrationR1 claims rolePriority = c.agent) ∧
    ((∀ c ∈ claims, c.leaseValid = false) →
      runArbitrationR1 claims rolePriority = "") ∧
    ((resolveContested env tables taskId actor expectedVersion winnerActor).1.ok = true →
      ((resolveContested env tables' taskId actor expectedVersion winnerActor).1.ok =
          true →
        (resolveContested env tables' taskId actor expectedVersion
            winnerActor).1.winnerActor =
          (resolveContested env tables taskId actor expectedVersion
            winnerActor).1.winnerActor) ∧
      ∃ winner,
        (resolveContested env tables taskId actor expectedVersion
          winnerActor).1.winnerActor = some winner ∧
        (∀ asked, winnerActor = some asked → winner = asked) ∧
        (winnerActor = none → (∀ claim ∈ contested, claim.actor ≠ none) →
          (∃ claim ∈ contested, claim.actor = some winner) ∧
            ∀ claim ∈ contested, ∀ other, claim.actor = some other → winner ≤ other) ∧
        HeldOnlyBy winner
          ((resolveContested env tables taskId actor expectedVersion
            winnerActor).2.getTask env.runId taskId)) := by
  refine ⟨runArbitrationR1_of_perm hclaims, runArbitrationR1_valid,
    runArbitrationR1_none, fun hok => ⟨fun hok' => ?_, ?_⟩⟩
  · obtain ⟨-, -, hwinner⟩ := resolveContested_ok hok
    obtain ⟨-, -, hwinner'⟩ := resolveContested_ok hok'
    rw [hwinner, hwinner', hcontested, hcontested', Option.getD_some, Option.getD_some,
      leastActor_of_perm hperm]
  · obtain ⟨-, hne, hwinner⟩ := resolveContested_ok hok
    have hrecord := resolveContested_record hok
    rw [hcontested, Option.getD_some] at hne hwinner hrecord
    refine ⟨_, hwinner, ?_, ?_, hrecord⟩
    · rintro asked rfl
      rfl
    · rintro rfl hactors
      obtain ⟨⟨claim, hmem, hclaim⟩, hleast⟩ := leastActor_spec hne
      rw [Option.getD_none]
      constructor
      · obtain ⟨least, hactor⟩ := Option.ne_none_iff_exists'.mp (hactors claim hmem)
        refine ⟨claim, hmem, ?_⟩
        rw [hclaim, Claim.contender, hactor, Option.getD_some]
      · intro claim' hmem' other hactor
        have hle := hleast claim' hmem'
        rwa [Claim.contender, hactor, Option.getD_some] at hle

/-- Without a claim that has a valid lease, nobody wins the arbitration. -/
theorem runArbitrationR1_expired :
    ¬ ∀ (claims : List LeadClaim) (rolePriority : Option (Dict String ℤ)),
      ∃ c ∈ claims, c.leaseValid = true ∧
        runArbitrationR1 claims rolePriority = c.agent := by
  intro h
  obtain ⟨c, hmem, hvalid, -⟩ := h [⟨some "bob", some 100, false⟩] none
  rw [List.mem_singleton.mp hmem] at hvalid
  cases hvalid

def contestedTables (contested : List Claim) : Tables :=
  { Tables.empty with
    state := .ofList [(("run", "task-1"),
      { taskId := "task-1", version := 3, state := "contested",
        contestedClaims := some contested })] }

def aCall : Call := ⟨"run", 100, "token", "event", fun _ => "100.0"⟩

theorem contested_winner_bob :
    runArbitrationR1 [⟨some "carol", some 101, true⟩, ⟨some "bob", some 100, true⟩] none =
        runArbitrationR1 [⟨some "bob", some 100, true⟩, ⟨some "carol", some 101, true⟩]
          none ∧
      ∃ winner,
        (resolveContested aCall
          (contestedTables [⟨some "bob", some "t1"⟩, ⟨some "carol", some "t2"⟩])
          "task-1" "system" 3 none).1.winnerActor = some winner ∧
        HeldOnlyBy winner
          ((resolveContested aCall
            (contestedTables [⟨some "bob", some "t1"⟩, ⟨some "carol", some "t2"⟩])
            "task-1" "system" 3 none).2.getTask "run" "task-1") := by
  have hwins := contested_winner
    [⟨some "bob", some 100, true⟩, ⟨some "carol", some 101, true⟩]
    [⟨some "carol", some 101, true⟩, ⟨some "bob", some 100, true⟩] none
    (List.Perm.swap _ _ _) aCall
    (contestedTables [⟨some "bob", some "t1"⟩, ⟨some "carol", some "t2"⟩])
    (contestedTables [⟨some "carol", some "t2"⟩, ⟨some "bob", some "t1"⟩])
    "task-1" "system" 3 none _ _ rfl rfl (List.Perm.swap _ _ _)
  obtain ⟨winner, hwinner, -, -, hheld⟩ := (hwins.2.2.2 (by decide +kernel)).2
  exact ⟨hwins.1, winner, hwinner, hheld⟩

end Hydrogenuine.Ownership
