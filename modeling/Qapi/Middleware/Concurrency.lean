import Qapi.Core.Limiter
import Mathlib.Data.Int.Order.Basic

/-!
# Concurrency limits in Redis

The concurrency limit of a token (`acquireRedisTokenRequestLimit`) and the admission of
Responses requests (`acquireResponsesAdmission`), both of which count running requests in
Redis keys that expire. A script runs as one step. The token's key gets its time to live
when the counter starts at one; the admission keys get theirs anew with every admission.

`limits_hold`: both limits hold in every run in which no key expires while one of its
requests is running. A request that outlasts the time to live of its key, and for tokens
also a row of overlapping requests that does so together, loses its place on the counter;
others are admitted in its place, and its release then takes away the place of one of
these.

Calls to Redis succeed here. The loop in which a Responses request waits for admission is
a sequence of calls of the script.
-/

namespace Qapi.Middleware

open Qapi.Core Limiter

/-- How an acquisition ends: the handlers go on, or the request is answered. -/
inductive Verdict
  | allowed
  | aborted (status : Nat) (message : String)
deriving DecidableEq, Repr

/-! ## Tokens -/

def tokenConcurrencyLeaseSeconds : Nat := 6 * 60 * 60

/-- `token:rpm:<id>:<minute>` and `token:concurrency:<id>`. -/
inductive TokenKey
  | rpm (id minute : Nat)
  | concurrency (id : Nat)
deriving DecidableEq, Repr

structure Token where
  id : Nat
  maxConcurrency : Int
  rpmRateLimit : Int

def countRequest (r : Store TokenKey) (key : TokenKey) (limit : Int) : Store TokenKey × Int :=
  let (r, current) := r.incr key
  let r := if current = 1 then r.expire key 61 else r
  if current > limit then (r, 0) else (r, current)

def takePlace (r : Store TokenKey) (key : TokenKey) (limit : Int) : Store TokenKey × Int :=
  let (r, current) := r.incr key
  let r := if current = 1 then r.expire key tokenConcurrencyLeaseSeconds else r
  if current > limit then ((r.decr key).1, 0) else (r, current)

def givePlace {K : Type*} [DecidableEq K] (r : Store K) (key : K) : Store K :=
  if r.value key ≤ 1 then r.del key else (r.decr key).1

/-- The part of `acquireRedisTokenRequestLimit` after the limit per minute. -/
def acquireConcurrency (r : Store TokenKey) (token : Token) : Store TokenKey × Verdict :=
  if token.maxConcurrency ≤ 0 then (r, .allowed)
  else
    let (r, result) := takePlace r (.concurrency token.id) token.maxConcurrency
    if result = 0 then
      (r, .aborted 429 ("当前 API Key 最大并发为 " ++ toString token.maxConcurrency))
    else (r, .allowed)

def acquireRedisTokenRequestLimit (r : Store TokenKey) (token : Token) :
    Store TokenKey × Verdict :=
  if 0 < token.rpmRateLimit then
    let (r, result) := countRequest r (.rpm token.id (r.now / 60000)) token.rpmRateLimit
    if result = 0 then
      (r, .aborted 429
        ("当前 API Key 每分钟最多请求 " ++ toString token.rpmRateLimit ++ " 次"))
    else acquireConcurrency r token
  else acquireConcurrency r token

/-- What `acquireRedisTokenRequestLimit` returns to be called when the request is done. -/
def releaseToken (r : Store TokenKey) (token : Token) : Store TokenKey :=
  if token.maxConcurrency ≤ 0 then r else givePlace r (.concurrency token.id)

/-! ## Responses -/

inductive ResponsesSizeClass
  | small
  | medium
  | large
  | huge
deriving DecidableEq, Repr

def responsesAdmissionLeaseSeconds : Nat := 10 * 60

inductive AdmissionKey
  | total
  | ofClass (c : ResponsesSizeClass)
deriving DecidableEq, Repr

structure AdmissionLimits where
  classLimit : ResponsesSizeClass → Int
  totalLimit : Int

/-- One attempt of `acquireResponsesAdmission`. -/
def acquireResponsesAdmission (limits : AdmissionLimits) (r : Store AdmissionKey)
    (c : ResponsesSizeClass) : Store AdmissionKey × Bool :=
  if r.value (.ofClass c) ≥ limits.classLimit c ∨ r.value .total ≥ limits.totalLimit then (r, false)
  else
    let r := (r.incr (.ofClass c)).1
    let r := (r.incr .total).1
    let r := r.expire (.ofClass c) responsesAdmissionLeaseSeconds
    (r.expire .total responsesAdmissionLeaseSeconds, true)

def releaseResponsesAdmission (r : Store AdmissionKey) (c : ResponsesSizeClass) :
    Store AdmissionKey :=
  givePlace (givePlace r (.ofClass c)) .total

/-! ## What the scripts do to the counters -/

section Scripts

variable {K : Type*} [DecidableEq K] {r : Store K} {key k : K}

theorem value_givePlace (r : Store K) (key k : K) : (givePlace r key).value k =
    if k = key then (if r.value key ≤ 1 then 0 else r.value key - 1) else r.value k := by
  unfold givePlace
  by_cases hKey : k = key
  · subst hKey
    rw [if_pos rfl]
    split <;> simp
  · rw [if_neg hKey]
    split
    · exact Store.value_del_of_ne hKey
    · exact Store.value_decr_of_ne hKey

theorem value_ite_expire (c : Prop) [Decidable c] (r : Store K) (key k : K) (seconds : Nat) :
    (if c then r.expire key seconds else r).value k = r.value k := by
  split
  · exact r.value_expire key k seconds
  · rfl

end Scripts

section Tokens

variable {r : Store TokenKey} {key k : TokenKey} {limit : Int}

theorem value_takePlace (r : Store TokenKey) (key k : TokenKey) (limit : Int) :
    (takePlace r key limit).1.value k =
      if k = key ∧ r.value key < limit then r.value k + 1 else r.value k := by
  unfold takePlace
  simp only [Store.incr_result]
  have hStarted := fun j => value_ite_expire (r.value key + 1 = 1) (r.incr key).1 key j
    tokenConcurrencyLeaseSeconds
  generalize (if r.value key + 1 = 1 then (r.incr key).1.expire key tokenConcurrencyLeaseSeconds
    else (r.incr key).1) = started at hStarted ⊢
  by_cases hRoom : r.value key < limit
  · rw [if_neg (by omega), hStarted]
    by_cases hKey : k = key
    · subst hKey
      rw [Store.value_incr, if_pos ⟨rfl, hRoom⟩]
    · rw [Store.value_incr_of_ne hKey, if_neg (fun h => hKey h.1)]
  · rw [if_pos (by omega), if_neg (fun h => hRoom h.2)]
    by_cases hKey : k = key
    · subst hKey
      rw [Store.value_decr, hStarted, Store.value_incr]
      omega
    · rw [Store.value_decr_of_ne hKey, hStarted, Store.value_incr_of_ne hKey]

theorem takePlace_result (r : Store TokenKey) (key : TokenKey) (limit : Int) :
    (takePlace r key limit).2 = if r.value key < limit then r.value key + 1 else 0 := by
  unfold takePlace
  simp only [Store.incr_result]
  by_cases hRoom : r.value key < limit
  · rw [if_neg (by omega), if_pos hRoom]
  · rw [if_pos (by omega), if_neg hRoom]

theorem value_countRequest (r : Store TokenKey) (h : k ≠ key) (limit : Int) :
    (countRequest r key limit).1.value k = r.value k := by
  unfold countRequest
  simp only
  split <;> rw [value_ite_expire, Store.value_incr_of_ne h]

end Tokens

/-! ## The limiters -/

structure TokenLimits where
  maxConcurrency : Nat → Int
  rpmRateLimit : Nat → Int

def TokenLimits.token (limits : TokenLimits) (id : Nat) : Token :=
  ⟨id, limits.maxConcurrency id, limits.rpmRateLimit id⟩

/-- A request counts in the key of its token if the token has a limit. -/
def tokenLimiter (limits : TokenLimits) : Limiter TokenKey Nat where
  counts id key := decide (0 < limits.maxConcurrency id ∧ key = .concurrency id)
  limit
    | .concurrency id => limits.maxConcurrency id
    | .rpm _ _ => 0
  acquire r id :=
    ((acquireRedisTokenRequestLimit r (limits.token id)).1,
      decide ((acquireRedisTokenRequestLimit r (limits.token id)).2 = .allowed))
  release r id := releaseToken r (limits.token id)

/-- A Responses request counts in the key of its class and in that of all requests. -/
def responsesLimiter (limits : AdmissionLimits) : Limiter AdmissionKey ResponsesSizeClass where
  counts c key := decide (key = .ofClass c ∨ key = .total)
  limit
    | .ofClass c => limits.classLimit c
    | .total => limits.totalLimit
  acquire := acquireResponsesAdmission limits
  release := releaseResponsesAdmission

@[simp] theorem tokenLimiter_counts {limits : TokenLimits} {id : Nat} {k : TokenKey} :
    (tokenLimiter limits).counts id k = true ↔
      0 < limits.maxConcurrency id ∧ k = .concurrency id := decide_eq_true_iff

@[simp] theorem responsesLimiter_counts {limits : AdmissionLimits} {c : ResponsesSizeClass}
    {k : AdmissionKey} :
    (responsesLimiter limits).counts c k = true ↔ k = .ofClass c ∨ k = .total :=
  decide_eq_true_iff

theorem tokenLimiter_slot {limits : TokenLimits} {k : TokenKey} (h : (tokenLimiter limits).Slot k) :
    ∃ id, k = .concurrency id ∧ 0 < limits.maxConcurrency id := by
  obtain ⟨id, hCounts⟩ := h
  obtain ⟨hPos, rfl⟩ := tokenLimiter_counts.mp hCounts
  exact ⟨id, rfl, hPos⟩

theorem acquireConcurrency_cases (r : Store TokenKey) (token : Token)
    (h : 0 < token.maxConcurrency → 0 ≤ r.value (.concurrency token.id)) :
    ((acquireConcurrency r token).2 = .allowed ∧ token.maxConcurrency ≤ 0 ∧
        (acquireConcurrency r token).1 = r) ∨
      ((acquireConcurrency r token).2 = .allowed ∧ 0 < token.maxConcurrency ∧
        r.value (.concurrency token.id) < token.maxConcurrency ∧
        ∀ id, (acquireConcurrency r token).1.value (.concurrency id) =
          r.value (.concurrency id) + if id = token.id then 1 else 0) ∨
      ((acquireConcurrency r token).2 ≠ .allowed ∧ 0 < token.maxConcurrency ∧
        ∀ id, (acquireConcurrency r token).1.value (.concurrency id) =
          r.value (.concurrency id)) := by
  unfold acquireConcurrency
  by_cases hLimit : token.maxConcurrency ≤ 0
  · rw [if_pos hLimit]
    exact Or.inl ⟨rfl, hLimit, rfl⟩
  · have hNonneg := h (by omega)
    rw [if_neg hLimit]
    simp only [takePlace_result]
    by_cases hRoom : r.value (.concurrency token.id) < token.maxConcurrency
    · rw [if_pos hRoom, if_neg (by omega)]
      refine Or.inr (Or.inl ⟨rfl, by omega, hRoom, fun id => ?_⟩)
      rw [value_takePlace]
      by_cases hId : id = token.id
      · rw [if_pos ⟨by rw [hId], hRoom⟩, if_pos hId]
      · rw [if_neg (fun h => hId (TokenKey.concurrency.inj h.1)), if_neg hId, add_zero]
    · rw [if_neg hRoom, if_pos rfl]
      refine Or.inr (Or.inr ⟨by simp, by omega, fun id => ?_⟩)
      rw [value_takePlace, if_neg (fun h => hRoom h.2)]

theorem acquireRedisTokenRequestLimit_cases (r : Store TokenKey) (token : Token) :
    ∃ after : Store TokenKey,
      (∀ id, after.value (.concurrency id) = r.value (.concurrency id)) ∧
      (acquireRedisTokenRequestLimit r token = acquireConcurrency after token ∨
        ((acquireRedisTokenRequestLimit r token).1 = after ∧
          (acquireRedisTokenRequestLimit r token).2 ≠ .allowed)) := by
  unfold acquireRedisTokenRequestLimit
  split
  · refine ⟨(countRequest r (.rpm token.id (r.now / 60000)) token.rpmRateLimit).1, fun id => ?_, ?_⟩
    · exact value_countRequest r (by simp) token.rpmRateLimit
    · simp only
      split
      · exact Or.inr ⟨rfl, by simp⟩
      · exact Or.inl rfl
  · exact ⟨r, fun _ => rfl, Or.inl rfl⟩

/-- What an acquisition does to the counters: it takes a place if the token has a limit, or it is
turned down and takes none. -/
theorem acquireToken_cases {limits : TokenLimits} {r : Store TokenKey}
    (hr : ∀ k, (tokenLimiter limits).Slot k → 0 ≤ r.value k) (id : Nat) :
    ((acquireRedisTokenRequestLimit r (limits.token id)).2 = .allowed ∧
        (0 < limits.maxConcurrency id →
          r.value (.concurrency id) < limits.maxConcurrency id) ∧
        ∀ j, (acquireRedisTokenRequestLimit r (limits.token id)).1.value (.concurrency j) =
          r.value (.concurrency j) + if 0 < limits.maxConcurrency id ∧ j = id then 1 else 0) ∨
      ((acquireRedisTokenRequestLimit r (limits.token id)).2 ≠ .allowed ∧
        ∀ j, (acquireRedisTokenRequestLimit r (limits.token id)).1.value (.concurrency j) =
          r.value (.concurrency j)) := by
  obtain ⟨between, hBetween, hCall | ⟨hStore, hNot⟩⟩ :=
    acquireRedisTokenRequestLimit_cases r (limits.token id)
  · have hNonneg : 0 < (limits.token id).maxConcurrency →
        0 ≤ between.value (.concurrency (limits.token id).id) := by
      intro hPos
      rw [hBetween]
      exact hr _ ⟨id, tokenLimiter_counts.mpr ⟨hPos, rfl⟩⟩
    rw [hCall]
    rcases acquireConcurrency_cases between (limits.token id) hNonneg with
      ⟨hOk, hNoLimit, hSame⟩ | ⟨hOk, hPos, hRoom, hTaken⟩ | ⟨hNot, -, hSame⟩
    · have hNone : ¬ 0 < limits.maxConcurrency id := not_lt.mpr hNoLimit
      refine Or.inl ⟨hOk, fun hPos => absurd hPos hNone, fun j => ?_⟩
      rw [hSame, hBetween, if_neg (fun h => hNone h.1), add_zero]
    · rw [hBetween] at hRoom
      refine Or.inl ⟨hOk, fun _ => hRoom, fun j => ?_⟩
      rw [hTaken, hBetween]
      have hLimit : 0 < limits.maxConcurrency id := hPos
      simp only [hLimit, true_and]
      rfl
    · refine Or.inr ⟨hNot, fun j => ?_⟩
      rw [hSame, hBetween]
  · rw [hStore]
    exact Or.inr ⟨hNot, hBetween⟩

theorem tokenLimiter_counting (limits : TokenLimits) : (tokenLimiter limits).Counting := by
  refine ⟨fun {r id} hr hOk {k} hk => ?_, fun {r id} hr hOk {k} hk => ?_, fun {r id k} hk => ?_⟩
  · obtain ⟨j, rfl, -⟩ := tokenLimiter_slot hk
    rcases acquireToken_cases hr id with ⟨-, hRoom, hTaken⟩ | ⟨hNot, -⟩
    · refine ⟨?_, fun hCounts => ?_⟩
      · show (acquireRedisTokenRequestLimit r (limits.token id)).1.value (.concurrency j) = _
        rw [hTaken j]
        simp
      · obtain ⟨hPos, hKey⟩ := tokenLimiter_counts.mp hCounts
        obtain rfl := TokenKey.concurrency.inj hKey
        exact hRoom hPos
    · exact absurd (of_decide_eq_true hOk) hNot
  · obtain ⟨j, rfl, -⟩ := tokenLimiter_slot hk
    rcases acquireToken_cases hr id with ⟨hYes, -⟩ | ⟨-, hSame⟩
    · exact absurd hYes (of_decide_eq_false hOk)
    · exact hSame j
  · obtain ⟨j, rfl, -⟩ := tokenLimiter_slot hk
    have hRelease : (tokenLimiter limits).release r id =
        if limits.maxConcurrency id ≤ 0 then r else givePlace r (.concurrency id) := rfl
    rw [hRelease]
    by_cases hLimit : limits.maxConcurrency id ≤ 0
    · rw [if_pos hLimit, if_neg]
      rw [tokenLimiter_counts]
      exact fun h => not_lt.mpr hLimit h.1
    · rw [if_neg hLimit, value_givePlace]
      by_cases hId : j = id
      · subst hId
        rw [if_pos rfl, if_pos (tokenLimiter_counts.mpr ⟨by omega, rfl⟩)]
      · rw [if_neg (fun h => hId (TokenKey.concurrency.inj h)), if_neg]
        simpa using fun _ => hId

theorem acquireResponsesAdmission_cases (limits : AdmissionLimits) (r : Store AdmissionKey)
    (c : ResponsesSizeClass) :
    acquireResponsesAdmission limits r c = (r, false) ∨
      ((acquireResponsesAdmission limits r c).2 = true ∧
        r.value (.ofClass c) < limits.classLimit c ∧ r.value .total < limits.totalLimit ∧
        (acquireResponsesAdmission limits r c).1 =
          (((r.incr (.ofClass c)).1.incr .total).1.expire (.ofClass c)
            responsesAdmissionLeaseSeconds).expire .total responsesAdmissionLeaseSeconds) := by
  unfold acquireResponsesAdmission
  split
  · exact Or.inl rfl
  · rename_i hRoom
    rw [not_or] at hRoom
    exact Or.inr ⟨rfl, by omega, by omega, rfl⟩

theorem responsesLimiter_counting (limits : AdmissionLimits) :
    (responsesLimiter limits).Counting := by
  refine ⟨fun {r c} _ hOk {k} _ => ?_, fun {r c} _ hOk {k} _ => ?_, fun {r c k} _ => ?_⟩
  · rcases acquireResponsesAdmission_cases limits r c with hNot | ⟨-, hClass, hTotal, hStore⟩
    · have hResult : (acquireResponsesAdmission limits r c).2 = true := hOk
      rw [hNot] at hResult
      cases hResult
    · constructor
      · show (acquireResponsesAdmission limits r c).1.value k = _
        rw [hStore, Store.value_expire, Store.value_expire]
        cases k with
        | total =>
          rw [Store.value_incr, Store.value_incr_of_ne (by simp),
            if_pos (responsesLimiter_counts.mpr (Or.inr rfl))]
        | ofClass d =>
          rw [Store.value_incr_of_ne (by simp)]
          by_cases hSame : d = c
          · subst hSame
            rw [Store.value_incr, if_pos (responsesLimiter_counts.mpr (Or.inl rfl))]
          · rw [Store.value_incr_of_ne (by simpa using hSame), if_neg, add_zero]
            simpa using hSame
      · intro hCounts
        rcases responsesLimiter_counts.mp hCounts with rfl | rfl
        · exact hClass
        · exact hTotal
  · rcases acquireResponsesAdmission_cases limits r c with hNot | ⟨hYes, -⟩
    · show (acquireResponsesAdmission limits r c).1.value k = _
      rw [hNot]
    · have hResult : (acquireResponsesAdmission limits r c).2 = false := hOk
      rw [hYes] at hResult
      cases hResult
  · show (givePlace (givePlace r (.ofClass c)) .total).value k = _
    rw [value_givePlace, value_givePlace, value_givePlace]
    cases k with
    | total => simp
    | ofClass d =>
      by_cases hSame : d = c
      · subst hSame
        simp
      · simp [hSame]

/-- In every run in which no key expires while one of its requests is running, neither limiter
has more requests running than its limits say, and no release lowers a counter below the number
of requests still running. -/
theorem limits_hold (tokens : TokenLimits) (responses : AdmissionLimits) (now : Nat) :
    (∀ l : List (Action Nat),
      Guarded (tokenLimiter tokens).step (tokenLimiter tokens).Undisturbed (.initial now) l →
        (tokenLimiter tokens).Safe (run (tokenLimiter tokens).step (.initial now) l)) ∧
    ∀ l : List (Action ResponsesSizeClass),
      Guarded (responsesLimiter responses).step (responsesLimiter responses).Undisturbed
          (.initial now) l →
        (responsesLimiter responses).Safe
          (run (responsesLimiter responses).step (.initial now) l) := by
  constructor
  · intro l hRun
    have hCounted := counted_run (tokenLimiter_counting tokens) (counted_initial _ now) hRun
    exact hCounted.safe (tokenLimiter_counting tokens)
  · intro l hRun
    have hCounted := counted_run (responsesLimiter_counting responses) (counted_initial _ now) hRun
    exact hCounted.safe (responsesLimiter_counting responses)

/-- In every run, also one in which keys expire under running requests, no counter of the two
limiters is negative or above its limit. -/
theorem counters_within_limits (tokens : TokenLimits) (responses : AdmissionLimits) (now : Nat) :
    (∀ l : List (Action Nat), (tokenLimiter tokens).Bounded
      (run (tokenLimiter tokens).step (.initial now) l).store) ∧
    ∀ l : List (Action ResponsesSizeClass), (responsesLimiter responses).Bounded
      (run (responsesLimiter responses).step (.initial now) l).store :=
  ⟨bounded_run (tokenLimiter_counting tokens) now,
    bounded_run (responsesLimiter_counting responses) now⟩

def twoAtATime : TokenLimits := ⟨fun _ => 2, fun _ => 0⟩

def oneAtATime : AdmissionLimits := ⟨fun _ => 1, 1⟩

theorem brief_requests_within_limits :
    (tokenLimiter twoAtATime).Safe (run (tokenLimiter twoAtATime).step (.initial 0)
        [.acquire 7, .advance 1000, .acquire 7, .release 7 0]) ∧
      (responsesLimiter oneAtATime).Safe (run (responsesLimiter oneAtATime).step (.initial 0)
        [.acquire .small, .release .small 0, .acquire .huge]) := by
  refine ⟨(limits_hold twoAtATime oneAtATime 0).1 _ ⟨trivial, ?_, trivial, trivial, trivial⟩,
    (limits_hold twoAtATime oneAtATime 0).2 _ ⟨trivial, trivial, trivial, trivial⟩⟩
  intro k hk c hc
  have hKey : k = .concurrency 7 := by
    obtain ⟨q, hq, hCounts⟩ := List.countP_pos_iff.mp (Nat.pos_of_ne_zero hk)
    obtain rfl : q = (7, 0) := List.mem_singleton.mp hq
    exact (tokenLimiter_counts.mp hCounts).2
  subst hKey
  cases hc
  decide

/-- A token with a limit of two: the key expires six hours after the first of two overlapping
requests, with the second one running for a minute, and two more are admitted. A Responses request
that takes longer than ten minutes loses its place to the next one. -/
theorem expired_keys_exceed_limits :
    ¬ (tokenLimiter twoAtATime).Safe (run (tokenLimiter twoAtATime).step (.initial 0)
        [.acquire 7, .advance 21540000, .acquire 7, .release 7 0, .advance 60001, .acquire 7,
          .acquire 7]) ∧
      ¬ (responsesLimiter oneAtATime).Safe (run (responsesLimiter oneAtATime).step (.initial 0)
        [.acquire .small, .advance 600001, .acquire .small]) := by
  constructor
  · intro h
    have hLimit := h.limits (.concurrency 7) ⟨7, by decide⟩
    revert hLimit
    decide
  · intro h
    have hLimit := h.limits .total ⟨.small, by decide⟩
    revert hLimit
    decide

end Qapi.Middleware
