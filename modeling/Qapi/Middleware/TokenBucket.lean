import Mathlib.Tactic.Ring
import Qapi.Core.Machine

/-!
# The token bucket of the request limit

`rate_limit.lua`, which `RedisLimiter.Allow` executes for `redisRateLimitHandler`, with the
clock of the server in seconds. What the bucket would hold at the start of an interval pays
for the requests that are admitted in it, up to what is added while it lasts.
-/

namespace Qapi.Middleware

open Qapi.Core List

/-- The fields `tokens` and `last_time` of the key. -/
structure Bucket where
  tokens : Int
  lastTime : Int
deriving DecidableEq, Repr

/-- `limiter.Config`. -/
structure LimiterConfig where
  capacity : Int
  rate : Int
  requested : Int

/-- What `redisRateLimitHandler` passes. -/
def LimiterConfig.ofHandler (totalMaxCount duration : Int) : LimiterConfig :=
  ⟨totalMaxCount * duration, totalMaxCount, duration⟩

variable (cfg : LimiterConfig)

/-- The tokens at a time; the bucket of a new key is full. -/
def refill (now : Int) : Option Bucket → Int
  | none => cfg.capacity
  | some b => min cfg.capacity (b.tokens + (now - b.lastTime) * cfg.rate)

/-- `rate_limit.lua`. -/
def rateLimit (now : Int) (bucket : Option Bucket) : Bool × Bucket :=
  let tokens := refill cfg now bucket
  if tokens ≥ cfg.requested then (true, ⟨tokens - cfg.requested, now⟩)
  else (false, ⟨tokens, now⟩)

def execute (bucket : Option Bucket) (now : Int) : Option Bucket :=
  some (rateLimit cfg now bucket).2

/-- The number of the requests that are admitted from the time `start` on, until `T` seconds
later. -/
def admitted (start : Int) (T : Nat) : Option Bucket → List Int → Nat
  | _, [] => 0
  | bucket, now :: later =>
    (if (rateLimit cfg now bucket).1 = true ∧ start ≤ now ∧ now ≤ start + T then 1 else 0) +
      admitted start T (execute cfg bucket now) later

/-- A bucket within its capacity that has been written last before the times. -/
def Within (bucket : Option Bucket) (times : List Int) : Prop :=
  ∀ b ∈ bucket, (0 ≤ b.tokens ∧ b.tokens ≤ cfg.capacity) ∧ ∀ now ∈ times, b.lastTime ≤ now

structure LimiterConfig.Sound : Prop where
  rate : 0 ≤ cfg.rate
  requested : 0 ≤ cfg.requested
  capacity : 0 ≤ cfg.capacity

variable {cfg} {bucket : Option Bucket} {now : Int} {times : List Int}

theorem refill_none : refill cfg now none = cfg.capacity := rfl

theorem refill_some (b : Bucket) : refill cfg now (some b) =
    min cfg.capacity (b.tokens + (now - b.lastTime) * cfg.rate) := rfl

theorem rateLimit_allowed (h : cfg.requested ≤ refill cfg now bucket) :
    rateLimit cfg now bucket = (true, ⟨refill cfg now bucket - cfg.requested, now⟩) := if_pos h

theorem rateLimit_denied (h : refill cfg now bucket < cfg.requested) :
    rateLimit cfg now bucket = (false, ⟨refill cfg now bucket, now⟩) := if_neg (not_le.mpr h)

theorem rateLimit_lastTime : (rateLimit cfg now bucket).2.lastTime = now := by
  unfold rateLimit
  dsimp only
  split <;> rfl

theorem Within.refill (h : Within cfg bucket (now :: times)) (hCfg : cfg.Sound) :
    0 ≤ refill cfg now bucket ∧ refill cfg now bucket ≤ cfg.capacity := by
  cases bucket with
  | none => exact ⟨hCfg.capacity, le_refl _⟩
  | some b =>
    obtain ⟨⟨hTokens, -⟩, hTime⟩ := h b rfl
    have hAdded := mul_nonneg (sub_nonneg.mpr (hTime now mem_cons_self)) hCfg.rate
    have hCapacity := hCfg.capacity
    rw [refill_some]
    omega

theorem Within.execute (h : Within cfg bucket (now :: times)) (hCfg : cfg.Sound)
    (hLater : ∀ later ∈ times, now ≤ later) : Within cfg (execute cfg bucket now) times := by
  obtain ⟨hLow, hHigh⟩ := h.refill hCfg
  have hRequested := hCfg.requested
  rintro b hb
  cases hb
  by_cases hEnough : cfg.requested ≤ Middleware.refill cfg now bucket
  · rw [rateLimit_allowed hEnough]
    refine ⟨?_, hLater⟩
    dsimp only
    omega
  · rw [rateLimit_denied (not_le.mp hEnough)]
    exact ⟨⟨hLow, hHigh⟩, hLater⟩

/-- A request that is admitted after the start takes what it asks for from what the bucket would
hold at the start. -/
theorem refill_execute (hCfg : cfg.Sound) (bucket : Option Bucket) (now start : Int) :
    refill cfg start (execute cfg bucket now) +
        (if (rateLimit cfg now bucket).1 = true ∧ start ≤ now then cfg.requested else 0) ≤
      refill cfg start bucket := by
  have hRequested := hCfg.requested
  have hLevel : refill cfg now bucket ≤ cfg.capacity ∧ min cfg.capacity
      (refill cfg now bucket + (start - now) * cfg.rate) ≤ refill cfg start bucket := by
    cases bucket with
    | none =>
      rw [refill_none, refill_none]
      omega
    | some b =>
      have hSplit : (start - b.lastTime) * cfg.rate =
          (now - b.lastTime) * cfg.rate + (start - now) * cfg.rate := by ring
      rw [refill_some, refill_some]
      omega
  by_cases hEnough : cfg.requested ≤ refill cfg now bucket
  · by_cases hStart : start ≤ now
    · have hBefore := mul_nonpos_of_nonpos_of_nonneg (sub_nonpos.mpr hStart) hCfg.rate
      simp only [execute, rateLimit_allowed hEnough, hStart, and_self, if_true, refill_some]
      omega
    · simp only [execute, rateLimit_allowed hEnough, hStart, and_false, if_false, refill_some]
      omega
  · simp only [execute, rateLimit_denied (not_le.mp hEnough), Bool.false_eq_true, false_and,
      if_false, refill_some]
    omega

theorem admitted_le (h : Within cfg bucket times) (hTimes : times.Pairwise (· ≤ ·))
    (hCfg : cfg.Sound) (start : Int) (T : Nat) :
    admitted cfg start T bucket times * cfg.requested ≤
      max 0 (refill cfg start bucket + cfg.rate * T) := by
  induction times generalizing bucket with
  | nil =>
    simp only [admitted, Nat.cast_zero, zero_mul]
    exact le_max_left _ _
  | cons now later ih =>
    obtain ⟨hLater, hRest⟩ := pairwise_cons.mp hTimes
    have hNext := h.execute hCfg hLater
    have hPaid := refill_execute hCfg bucket now start
    have hBound := ih hNext hRest
    have hRequested := hCfg.requested
    unfold admitted
    by_cases hIn : (rateLimit cfg now bucket).1 = true ∧ start ≤ now ∧ now ≤ start + T
    · obtain ⟨hAllowed, hStart, hEnd⟩ := hIn
      -- what is left is made up for before the interval ends
      have hSaved : 0 ≤ refill cfg start (execute cfg bucket now) + cfg.rate * T := by
        have hSplit : (start - now) * cfg.rate + cfg.rate * T = (start + T - now) * cfg.rate := by
          ring
        have hMore := mul_nonneg (sub_nonneg.mpr hEnd) hCfg.rate
        have hAdded := mul_nonneg hCfg.rate (Int.natCast_nonneg T)
        have hCapacity := hCfg.capacity
        obtain ⟨⟨hTokens, -⟩, -⟩ := hNext _ rfl
        rw [execute, refill_some, rateLimit_lastTime]
        omega
      rw [if_pos ⟨hAllowed, hStart⟩] at hPaid
      rw [if_pos ⟨hAllowed, hStart, hEnd⟩]
      push_cast
      rw [add_mul, one_mul]
      omega
    · rw [if_neg hIn, Nat.zero_add]
      split at hPaid <;> omega

theorem within_run (hCfg : cfg.Sound) (hTimes : times.Pairwise (· ≤ ·))
    (h : Within cfg bucket times) : Within cfg (run (execute cfg) bucket times) [] := by
  induction times generalizing bucket with
  | nil => exact h
  | cons now later ih =>
    obtain ⟨hLater, hRest⟩ := pairwise_cons.mp hTimes
    exact ih hRest (h.execute hCfg hLater)

theorem sound_ofHandler {m d : Int} (hm : 0 < m) (hd : 0 < d) :
    (LimiterConfig.ofHandler m d).Sound :=
  ⟨hm.le, hd.le, (mul_pos hm hd).le⟩

/-- The tokens stay within the capacity, no interval admits more than the bucket and what is added
meanwhile pay for, and a request is admitted once its cost has been added since the last one. -/
theorem token_bucket_bounds {m d : Int} (hm : 0 < m) (hd : 0 < d) {times : List Int}
    (hTimes : times.Pairwise (· ≤ ·)) :
    (∀ b ∈ run (execute (.ofHandler m d)) none times, 0 ≤ b.tokens ∧ b.tokens ≤ m * d) ∧
    (∀ start T, (admitted (.ofHandler m d) start T none times : Int) ≤ m * (d + T) / d) ∧
    ∀ previous ∈ times.getLast?, ∀ now, previous + (d + m - 1) / m ≤ now →
      (rateLimit (.ofHandler m d) now (run (execute (.ofHandler m d)) none times)).1 = true := by
  have hCfg := sound_ofHandler hm hd
  have hNone : ∀ {l}, Within (.ofHandler m d) none l := fun b hb => nomatch hb
  have hWithin := within_run hCfg hTimes hNone
  refine ⟨fun b hb => (hWithin b hb).1, fun start T => ?_, fun previous hPrevious now hNow => ?_⟩
  · have hCount := admitted_le hNone hTimes hCfg start T
    have hAdded := mul_nonneg hm.le (Int.natCast_nonneg T)
    have hCapacity := hCfg.capacity
    rw [Int.le_ediv_iff_mul_le hd, mul_add]
    simp only [LimiterConfig.ofHandler, refill_none] at hCount hCapacity ⊢
    omega
  · obtain ⟨front, rfl⟩ := getLast?_eq_some_iff.mp hPrevious
    rw [run_append, run_cons, run_nil] at hWithin ⊢
    obtain ⟨⟨hTokens, -⟩, -⟩ := hWithin _ rfl
    have hCost : d ≤ (now - previous) * m := by
      have hCeil := Int.lt_ediv_add_one_mul_self (d + m - 1) hm
      have hWait := mul_le_mul_of_nonneg_right (Int.le_sub_left_of_add_le hNow) hm.le
      rw [add_mul] at hCeil
      omega
    have hOne : d ≤ m * d := le_mul_of_one_le_left hd.le hm
    rw [rateLimit_allowed]
    rw [execute, refill_some, rateLimit_lastTime]
    simp only [LimiterConfig.ofHandler] at hTokens ⊢
    omega

/-- A limit of two requests a minute. -/
theorem token_bucket_bounds_two :
    (∀ b ∈ run (execute (.ofHandler 2 60)) none [0, 0, 0, 30, 61], 0 ≤ b.tokens ∧ b.tokens ≤ 120) ∧
    (admitted (.ofHandler 2 60) 0 60 none [0, 0, 0, 30, 61] : Int) ≤ 4 ∧
    (rateLimit (.ofHandler 2 60) 91 (run (execute (.ofHandler 2 60)) none [0, 0, 0, 30, 61])).1 =
      true := by
  have hTimes : [(0 : Int), 0, 0, 30, 61].Pairwise (· ≤ ·) := by decide
  obtain ⟨hTokens, hCount, hAdmitted⟩ :=
    token_bucket_bounds (m := 2) (d := 60) (by decide) (by decide) hTimes
  exact ⟨hTokens, hCount 0 60, hAdmitted 61 rfl 91 (by decide)⟩

end Qapi.Middleware
