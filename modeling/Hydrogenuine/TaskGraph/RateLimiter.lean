import Mathlib.Algebra.Order.Ring.Rat
import Hydrogenuine.Support.Dict
import Hydrogenuine.Support.Metering

/-!
# Rate limits on tools

Embedding of `hg_core/task_graph/rate_limiter.py` and of the check that
`ToolRegistry.register` makes on a rate limit.  Times and token counts are exact.
A call reads the clock when it creates its bucket, when it refills it, and once more
after it has slept.
-/

namespace Hydrogenuine.TaskGraph

open Support

/-! ## Buckets -/

structure TokenBucket where
  refillPerSecond : ℚ
  capacity : ℤ
  tokens : ℚ
  lastRefillTs : ℚ

/-- What `consume` raises. -/
inductive ConsumeError where
  | toolContractError (message : String)
  | nameError (name : String)
  | zeroDivisionError
deriving DecidableEq

namespace TokenBucket

/-- `TokenBucket(requests_per_minute, burst)`. -/
def create (requestsPerMinute : ℤ) (burst : Option ℤ) (now : ℚ) : TokenBucket :=
  let capacity := burst.getD (max 1 requestsPerMinute)
  { refillPerSecond := requestsPerMinute / 60
    capacity := capacity
    tokens := capacity
    lastRefillTs := now }

def refill (now : ℚ) (b : TokenBucket) : TokenBucket :=
  { b with
    tokens := min (b.capacity : ℚ)
      (b.tokens + (now - b.lastRefillTs) * b.refillPerSecond)
    lastRefillTs := now }

/-- `self.tokens -= 1`. -/
def takeOne (b : TokenBucket) : TokenBucket := { b with tokens := b.tokens - 1 }

def exceeded : ConsumeError := .toolContractError "rate limit exceeded"

/-- `consume`.  The name that the pause passes to `sleep` is not defined. -/
def consume (onExceed : String) (now afterwards : ℚ) (b : TokenBucket) :
    Except ConsumeError Unit × TokenBucket :=
  let filled := b.refill now
  if 1 ≤ filled.tokens then (.ok (), filled.takeOne)
  else if onExceed = "raise" then (.error exceeded, filled)
  else if onExceed = "pause" then
    if filled.refillPerSecond = 0 then (.error .zeroDivisionError, filled)
    else if 0 < (1 - filled.tokens) / filled.refillPerSecond then
      (.error (.nameError "w"), filled)
    else (.ok (), (filled.refill afterwards).takeOne)
  else (.error exceeded, filled)

/-- Calls of `consume` that raise when no token is there: their times, and whether
they succeed. -/
def consumeAll (b : TokenBucket) : List ℚ → List (ℚ × Bool)
  | [] => []
  | now :: times =>
      let (result, after) := b.consume "raise" now now
      (now, result.isOk) :: after.consumeAll times

end TokenBucket

/-! ## Limits -/

/-- A rate limit that `ToolRegistry.register` accepts. -/
structure RateLimit where
  requestsPerMinute : Option ℤ
  burst : Option ℤ
  positive : ∀ n ∈ requestsPerMinute, 0 < n
  burst_positive : ∀ n ∈ burst, 0 < n

/-! ## Bounds -/

namespace TokenBucket

variable {b : TokenBucket} {now : ℚ} {times : List ℚ}

theorem consume_of_le (onExceed : String) (afterwards : ℚ)
    (h : 1 ≤ (b.refill now).tokens) :
    b.consume onExceed now afterwards = (.ok (), (b.refill now).takeOne) := by
  rw [consume, if_pos h]

theorem consume_of_lt (afterwards : ℚ) (h : (b.refill now).tokens < 1) :
    b.consume "raise" now afterwards = (.error exceeded, b.refill now) := by
  rw [consume, if_neg (not_le.mpr h), if_pos rfl]

theorem metered_consumeAll
    (hrate : 0 ≤ b.refillPerSecond) (hcapacity : 0 ≤ b.capacity)
    (htokens : 0 ≤ b.tokens) (hsorted : times.Pairwise (· ≤ ·))
    (hafter : ∀ now ∈ times, b.lastRefillTs ≤ now) :
    Metered (b.capacity : ℚ) b.refillPerSecond b.tokens b.lastRefillTs
      (b.consumeAll times) := by
  induction times generalizing b with
  | nil => exact .nil _ _
  | cons now times ih =>
      obtain ⟨hle, -⟩ := List.forall_mem_cons.mp hafter
      obtain ⟨hlater, hsorted⟩ := List.pairwise_cons.mp hsorted
      have hfull : (b.refill now).tokens ≤ b.capacity := min_le_left _ _
      have hgrown : (b.refill now).tokens ≤
          b.tokens + (now - b.lastRefillTs) * b.refillPerSecond := min_le_right _ _
      rcases lt_or_ge (b.refill now).tokens 1 with hempty | hone
      · have hpos : 0 ≤ (b.refill now).tokens :=
          le_min (Int.cast_nonneg hcapacity)
            (add_nonneg htokens (mul_nonneg (sub_nonneg.mpr hle) hrate))
        rw [consumeAll, consume_of_lt _ hempty]
        exact .refused hle hfull hgrown hpos
          (ih (b := b.refill now) hrate hcapacity hpos hsorted hlater)
      · rw [consumeAll, consume_of_le _ _ hone]
        exact .passed hle hfull hgrown hone
          (ih (b := (b.refill now).takeOne) hrate hcapacity (sub_nonneg.mpr hone)
            hsorted hlater)

theorem capacity_create_nonneg (rpm : ℤ) {burst : Option ℤ} (now : ℚ)
    (hburst : ∀ n ∈ burst, 0 < n) : 0 ≤ (create rpm burst now).capacity := by
  cases burst with
  | none => exact zero_le_one.trans (le_max_left 1 rpm)
  | some n => exact (hburst n rfl).le

/-- In every window of time, the calls of a bucket that succeed are at most its
capacity and the requests of that many minutes. -/
theorem consumeAll_within
    (limit : RateLimit) (rpm : ℤ) (hrpm : limit.requestsPerMinute = some rpm)
    (created : ℚ) (times : List ℚ) (hsorted : times.Pairwise (· ≤ ·))
    (hcreated : ∀ now ∈ times, created ≤ now) (s t : ℚ) (hst : s ≤ t) :
    (passedWithin s t ((create rpm limit.burst created).consumeAll times) : ℚ) ≤
      (create rpm limit.burst created).capacity + (t - s) * rpm / 60 := by
  have hcapacity := capacity_create_nonneg rpm created limit.burst_positive
  have hrate : (0 : ℚ) ≤ rpm / 60 :=
    div_nonneg (Int.cast_nonneg (limit.positive rpm hrpm).le) (by norm_num)
  have hmetered := metered_consumeAll (b := create rpm limit.burst created) hrate
    hcapacity (Int.cast_nonneg hcapacity) hsorted hcreated
  rw [mul_div_assoc]
  exact hmetered.passedWithin_le hrate (Int.cast_nonneg hcapacity) hst

def twoPerMinute : RateLimit where
  requestsPerMinute := some 2
  burst := some 2
  positive := by
    rintro n ⟨⟩
    decide
  burst_positive := by
    rintro n ⟨⟩
    decide

theorem consumeAll_within_twoPerMinute :
    (passedWithin 0 30 ((create 2 (some 2) 0).consumeAll [0, 1, 2, 30]) : ℚ) ≤
      (create 2 (some 2) 0).capacity + (30 - 0) * (2 : ℤ) / 60 :=
  consumeAll_within twoPerMinute 2 rfl 0 [0, 1, 2, 30] (by decide) (by decide) 0 30
    (by decide)

/-! ## Calls that keep to the rate -/

theorem one_le_capacity_create (rpm : ℤ) {burst : Option ℤ} (now : ℚ)
    (hburst : ∀ n ∈ burst, 0 < n) : 1 ≤ (create rpm burst now).capacity := by
  cases burst with
  | none => exact le_max_left 1 rpm
  | some n => exact hburst n rfl

theorem passed_of_ready (hcapacity : 1 ≤ b.capacity)
    (hready : ∀ now ∈ times.head?, 1 ≤ (b.refill now).tokens)
    (hpaced : times.IsChain fun s t => 1 ≤ (t - s) * b.refillPerSecond) :
    (b.consumeAll times).all Prod.snd = true := by
  induction times generalizing b with
  | nil => rfl
  | cons now times ih =>
      have hone : 1 ≤ (b.refill now).tokens := hready now rfl
      rw [consumeAll, consume_of_le _ _ hone]
      refine ih (b := (b.refill now).takeOne) hcapacity ?_ (List.isChain_of_isChain_cons hpaced)
      intro next hnext
      -- what is left is not negative, and the pause refills a whole token
      obtain ⟨rest, rfl⟩ : ∃ rest, times = next :: rest :=
        List.head?_eq_some_iff.mp hnext
      have hgap := (List.isChain_cons_cons.mp hpaced).1
      exact le_min (Int.cast_one.symm.le.trans (Int.cast_le.mpr hcapacity))
        (le_add_of_nonneg_of_le (sub_nonneg.mpr hone) hgap)

/-- A tool that is called no more often than its rate is never refused, in any run. -/
theorem paced_passes
    (limit : RateLimit) (rpm : ℤ) (hrpm : limit.requestsPerMinute = some rpm)
    (created : ℚ) (times : List ℚ) (hcreated : ∀ now ∈ times.head?, created ≤ now)
    (hpaced : times.IsChain fun s t : ℚ => s + 60 / rpm ≤ t) :
    ((create rpm limit.burst created).consumeAll times).all Prod.snd = true := by
  have hcapacity := one_le_capacity_create rpm created limit.burst_positive
  have hpos : (0 : ℚ) < rpm := Int.cast_pos.mpr (limit.positive rpm hrpm)
  have hfull : (1 : ℚ) ≤ (create rpm limit.burst created).capacity :=
    Int.cast_one.symm.le.trans (Int.cast_le.mpr hcapacity)
  refine passed_of_ready hcapacity (fun now hnow => le_min hfull (hfull.trans ?_))
    (hpaced.imp fun s t hgap => ?_)
  · exact le_add_of_nonneg_right
      (mul_nonneg (sub_nonneg.mpr (hcreated now hnow)) (div_nonneg hpos.le (by norm_num)))
  · change 1 ≤ (t - s) * (rpm / 60)
    rw [mul_div_assoc', le_div_iff₀ (by norm_num), one_mul, ← div_le_iff₀ hpos]
    exact le_sub_iff_add_le'.mpr hgap

theorem paced_passes_twoPerMinute :
    ((create 2 (some 2) 0).consumeAll [0, 30, 60, 90]).all Prod.snd = true :=
  paced_passes twoPerMinute 2 rfl 0 [0, 30, 60, 90] (by decide) (by decide +kernel)

end TokenBucket

/-! ## Checks of many tools -/

abbrev ToolRateLimiter := Dict String TokenBucket

/-- A call of `check`: the two numbers of the limit, if there is one, and what the clock
shows when a bucket is made, when it is refilled, and after a pause. -/
structure ToolCheck where
  toolName : String
  rateLimit : Option (Option ℤ × Option ℤ)
  onExceed : String
  created : ℚ
  now : ℚ
  afterwards : ℚ

namespace ToolRateLimiter

def check (limiter : ToolRateLimiter) (call : ToolCheck) :
    Except ConsumeError Unit × ToolRateLimiter :=
  match call.rateLimit with
  | none | some (none, _) => (.ok (), limiter)
  | some (some rpm, burst) =>
      if rpm ≤ 0 then (.ok (), limiter)
      else
        let bucket := (limiter.get? call.toolName).getD (.create rpm burst call.created)
        let (result, bucket) := bucket.consume call.onExceed call.now call.afterwards
        (result, limiter.set call.toolName bucket)

/-- The answers of the calls that ask for the tool. -/
def answersFor (toolName : String) :
    ToolRateLimiter → List ToolCheck → List (Except ConsumeError Unit)
  | _, [] => []
  | limiter, call :: calls =>
      let (result, after) := limiter.check call
      if call.toolName = toolName then result :: answersFor toolName after calls
      else answersFor toolName after calls

theorem check_congr {limiter limiter' : ToolRateLimiter} {call : ToolCheck}
    (h : limiter.get? call.toolName = limiter'.get? call.toolName) :
    (limiter.check call).1 = (limiter'.check call).1 ∧
      (limiter.check call).2.get? call.toolName =
        (limiter'.check call).2.get? call.toolName := by
  unfold check
  split
  · exact ⟨rfl, h⟩
  · exact ⟨rfl, h⟩
  · split_ifs
    · exact ⟨rfl, h⟩
    · dsimp only
      rw [h, Dict.get?_set_self, Dict.get?_set_self]
      exact ⟨rfl, rfl⟩

theorem check_other (limiter : ToolRateLimiter) {call : ToolCheck} {toolName : String}
    (hne : call.toolName ≠ toolName) :
    (limiter.check call).2.get? toolName = limiter.get? toolName := by
  unfold check
  split
  · rfl
  · rfl
  · split_ifs
    · rfl
    · exact Dict.get?_set_of_ne _ _ hne.symm

/-- The answers for a tool are those that its own calls give alone, however the calls of
other tools lie between them. -/
theorem answersFor_isolated (toolName : String) (calls : List ToolCheck) :
    answersFor toolName .empty calls =
      answersFor toolName .empty (calls.filter fun call => call.toolName = toolName) := by
  suffices hagree : ∀ limiter limiter' : ToolRateLimiter,
      limiter.get? toolName = limiter'.get? toolName →
        answersFor toolName limiter calls = answersFor toolName limiter'
          (calls.filter fun call => call.toolName = toolName) from hagree _ _ rfl
  induction calls with
  | nil => exact fun _ _ _ => rfl
  | cons call calls ih =>
      intro limiter limiter' hsame
      by_cases htool : call.toolName = toolName
      · subst htool
        obtain ⟨hresult, hafter⟩ := check_congr hsame
        rw [List.filter_cons_of_pos (by simp)]
        simp only [answersFor, if_true, hresult]
        rw [ih _ _ hafter]
      · rw [List.filter_cons_of_neg (by simpa using htool)]
        simp only [answersFor, if_neg htool]
        exact ih _ _ ((check_other limiter htool).trans hsame)

end ToolRateLimiter

end Hydrogenuine.TaskGraph
