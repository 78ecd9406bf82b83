import Qapi.Relay.GroupRatio
import Mathlib.Algebra.BigOperators.Ring.Finset
import Mathlib.Algebra.Order.BigOperators.Group.Finset

/-!
# The auto groups of a request

The retries of a request whose token has the group `auto` move through the groups in order. The
counter of the loop is set back when they move on, so that what bounds the loop is the group
together with the counter: `Walk` says how the two go on from one selection to the next.
-/

namespace Qapi.Relay

open Pricing List

/-! ## Walks -/

/-- Where a selection in the group `j`, at the value `now` of the counter, leaves the two for the
next one: in the group, or, after the last value, behind it. -/
def Next (retryTimes : Int) (j : Nat) (now : Int) (i : Nat) (retry : Int) : Prop :=
  (i = j ∧ retry = now + 1) ∨ (i = j + 1 ∧ retry = 0 ∧ retryTimes ≤ now)

/-- The indexes of the groups that are selected, from a group and a value of the counter on. In a
later group the counter starts again. -/
inductive Walk (retryTimes : Int) : Nat → Int → List Nat → Prop
  | stop (i : Nat) (retry : Int) : Walk retryTimes i retry []
  | select {i j i' : Nat} {retry retry' : Int} {l : List Nat} (hRetry : retry ≤ retryTimes)
      (hj : i ≤ j) (hNext : Next retryTimes j (if j = i then retry else 0) i' retry')
      (h : Walk retryTimes i' retry' l) : Walk retryTimes i retry (j :: l)

variable {retryTimes retry : Int} {i : Nat} {l : List Nat}

theorem Next.le {j : Nat} {now : Int} (h : Next retryTimes j now i retry) : j ≤ i := by
  rcases h with ⟨rfl, -⟩ | ⟨rfl, -⟩
  · exact le_rfl
  · exact Nat.le_succ j

theorem Walk.le_of_mem (h : Walk retryTimes i retry l) : ∀ k ∈ l, i ≤ k := by
  induction h with
  | stop => exact forall_mem_nil _
  | select _ hj hNext _ ih =>
    exact forall_mem_cons.mpr ⟨hj, fun k hk => (hj.trans hNext.le).trans (ih k hk)⟩

theorem Walk.pairwise (h : Walk retryTimes i retry l) : l.Pairwise (· ≤ ·) := by
  induction h with
  | stop => exact .nil
  | select _ _ hNext h ih => exact .cons (fun k hk => hNext.le.trans (h.le_of_mem k hk)) ih

theorem Walk.count_eq_zero (h : Walk retryTimes i retry l) {k : Nat} (hk : k < i) :
    l.count k = 0 :=
  List.count_eq_zero.mpr fun hMem => absurd (h.le_of_mem k hMem) (by omega)

/-- No group has more selections than the counter has values; those before the walk count too. -/
theorem Walk.count_le (h : Walk retryTimes i retry l) (hTimes : 0 ≤ retryTimes)
    (hNonneg : 0 ≤ retry) (hBound : retry ≤ retryTimes + 1) (k : Nat) :
    l.count k + (if k = i then retry else 0) ≤ retryTimes + 1 := by
  induction h with
  | stop =>
    rw [count_nil]
    split <;> omega
  | @select i j i' retry retry' l hRetry hj hNext h ih =>
    have hBefore : k < j → l.count k = 0 := fun hk => h.count_eq_zero (hk.trans_le hNext.le)
    rcases hNext with ⟨rfl, hSame⟩ | ⟨rfl, hZero, hLast⟩
    · have hRest := ih (by split at hSame <;> omega) (by split at hSame <;> omega)
      rw [count_cons]
      grind
    · have hHere : l.count j = 0 := h.count_eq_zero (Nat.lt_succ_self j)
      have hRest := ih hZero.ge (by omega)
      rw [count_cons]
      grind

theorem Walk.length_le (h : Walk retryTimes i 0 l) (hTimes : 0 ≤ retryTimes) {n : Nat}
    (hn : ∀ k ∈ l, k < n) : l.length ≤ (retryTimes + 1) * n := by
  have hSum : ∑ k ∈ Finset.range n, l.count k = l.length := by
    simpa using Multiset.sum_count_eq_card (s := Finset.range n) (m := (l : Multiset Nat))
      (by simpa using hn)
  have hEach : ∀ k, (l.count k : Int) ≤ retryTimes + 1 := by
    intro k
    simpa using h.count_le hTimes le_rfl (by omega) k
  rw [← hSum, Nat.cast_sum]
  calc ∑ k ∈ Finset.range n, (l.count k : Int) ≤ ∑ _k ∈ Finset.range n, (retryTimes + 1) :=
        Finset.sum_le_sum fun k _ => hEach k
    _ = (retryTimes + 1) * n := by simp [mul_comm]

theorem Walk.eq_nil (h : Walk retryTimes i retry l) (hOver : retryTimes < retry) : l = [] := by
  cases h with
  | stop => rfl
  | select hRetry => omega

/-! ## The loop -/

variable {Channel : Type}

/-- The group of the channel that a selection finds. -/
def selectedGroup (env : SelectEnv Channel) (ctx : Context) (p : RetryParam) : Option String :=
  match cacheGetRandomSatisfiedChannel env ctx p with
  | (.ok (some _), group, _) => some group
  | _ => none

/-- The iterations of the retry loop, each with the group of the channel that it has selected. The
first one uses the channel of the distributor. -/
def turns (first : Channel) : List (Attempt Channel) → LoopState → List (Option String)
  | [], _ => []
  | a :: rest, st =>
    if st.param.retry > a.select.retryTimes then []
    else
      let group := if st.info.hasChannelMeta then selectedGroup a.select st.ctx st.param else none
      match getChannel first a st with
      | (.error _, _) => [group]
      | (.ok _, st) =>
        if a.body.isSome ∨ a.handler.isNone ∨ a.shouldRetry = false then [group]
        else
          group :: turns first rest
            { st with
              info := { st.info with hasChannelMeta := true }
              param := st.param.increaseRetry }

/-- The iteration that serves the request is the last one. -/
theorem length_turns_of_served {first : Channel} {l : List (Attempt Channel)} {st st' : LoopState}
    {k : Nat} (h : relayLoop first l st = some (k, st')) : (turns first l st).length = k + 1 := by
  induction l generalizing st k with
  | nil => cases h
  | cons a rest ih =>
    unfold relayLoop at h
    unfold turns
    split at h
    · cases h
    rename_i hRetry
    rw [if_neg hRetry]
    rcases hGet : getChannel first a st with ⟨e | channel, st₁⟩
    · simp only [hGet] at h
      cases h
    simp only [hGet] at h
    split at h
    · cases h
    rename_i hBody
    split at h
    · rename_i hServed
      cases h
      simp [hServed]
    · rename_i hFailed
      split at h
      · cases h
      · rename_i hAgain
        obtain ⟨⟨j, st₂⟩, hRest, hEq⟩ := Option.map_eq_some_iff.mp h
        cases hEq
        simp only [hBody, hFailed, Bool.not_eq_true'] at hAgain ⊢
        simp [hAgain, ih hRest]

/-- A selection in the group `j` and the increment after it. -/
structure Leaves (retryTimes : Int) (j : Nat) (now : Int) (ctx : Context) (p : RetryParam) :
    Prop where
  auto : p.increaseRetry.tokenGroup = "auto"
  reset : p.increaseRetry.resetNextTry = false
  next : Next retryTimes j now (ctx.autoGroupIndex.getD 0) p.increaseRetry.retry

theorem selectAuto_leaves {env : SelectEnv Channel} {start : Nat} {groups : List String} {i : Nat}
    {ctx : Context} {p : RetryParam} {channel : Channel} {group : String} {ctx' : Context}
    {p' : RetryParam} (hAuto : p.tokenGroup = "auto") (hReset : p.resetNextTry = false)
    (hStart : start < i → p.retry = 0)
    (h : selectAuto env start groups i ctx p = (some channel, group, ctx', p')) :
    ∃ k, groups[k]? = some group ∧
      Leaves env.retryTimes (i + k) (if k = 0 then p.retry else 0) ctx' p' := by
  induction groups generalizing i ctx p with
  | nil => cases h
  | cons autoGroup rest ih =>
    have hPriority : (if i > start then 0 else p.retry) = p.retry := by
      split
      · rename_i hi
        exact (hStart hi).symm
      · rfl
    unfold selectAuto at h
    rw [hPriority] at h
    dsimp only at h
    split at h
    · refine ⟨0, ?_⟩
      split at h
      · rename_i hSwitch
        cases h
        exact ⟨rfl, hAuto, rfl, Or.inr ⟨rfl, rfl, hSwitch.2⟩⟩
      · cases h
        have hIncrease : p'.increaseRetry = { p' with retry := p'.retry + 1 } := by
          simp [RetryParam.increaseRetry, hReset]
        refine ⟨rfl, ?_⟩
        constructor <;> rw [hIncrease]
        · exact hAuto
        · exact hReset
        · exact Or.inl ⟨rfl, rfl⟩
    · obtain ⟨k, hGroup, hLeaves⟩ := ih (p := { p with retry := 0 }) hAuto hReset (fun _ => rfl) h
      refine ⟨k + 1, hGroup, ?_⟩
      rw [Nat.add_right_comm, ite_self] at hLeaves
      rw [if_neg k.succ_ne_zero]
      exact hLeaves

/-- A selection that finds a channel, in the group `j`. -/
theorem cacheGet_leaves {env : SelectEnv Channel} {ctx ctx' : Context} {p p' : RetryParam}
    {channel : Channel} {group : String} (hAuto : p.tokenGroup = "auto")
    (hReset : p.resetNextTry = false)
    (h : cacheGetRandomSatisfiedChannel env ctx p = (.ok (some channel), group, ctx', p')) :
    ∃ j, env.autoGroups[j]? = some group ∧ ctx.autoGroupIndex.getD 0 ≤ j ∧
      Leaves env.retryTimes j (if j = ctx.autoGroupIndex.getD 0 then p.retry else 0) ctx' p' := by
  unfold cacheGetRandomSatisfiedChannel at h
  rw [if_pos hAuto] at h
  split at h
  · cases h
  · dsimp only at h
    obtain ⟨hFound, hRest⟩ := Prod.mk.inj h
    have hSelect : selectAuto env (ctx.autoGroupIndex.getD 0)
        (env.autoGroups.drop (ctx.autoGroupIndex.getD 0)) (ctx.autoGroupIndex.getD 0) ctx p =
          (some channel, group, ctx', p') := Prod.ext (Except.ok.inj hFound) hRest
    obtain ⟨k, hGroup, hLeaves⟩ := selectAuto_leaves hAuto hReset
      (fun hLt => absurd hLt (lt_irrefl _)) hSelect
    refine ⟨_, ?_, Nat.le_add_right _ k, ?_⟩
    · rwa [getElem?_drop] at hGroup
    · simpa using hLeaves

/-- What the selection of an attempt finds: no channel, and then the attempt fails, or one. -/
theorem getChannel_cases (first : Channel) (a : Attempt Channel) {st : LoopState}
    (hMeta : st.info.hasChannelMeta = true) :
    (selectedGroup a.select st.ctx st.param = none ∧
        ∃ e st', getChannel first a st = (.error e, st')) ∨
      ∃ channel group ctx p, selectedGroup a.select st.ctx st.param = some group ∧
        cacheGetRandomSatisfiedChannel a.select st.ctx st.param =
          (.ok (some channel), group, ctx, p) ∧
        (getChannel first a st).2.ctx = ctx ∧ (getChannel first a st).2.param = p := by
  unfold selectedGroup getChannel
  simp only [hMeta, Bool.not_true, Bool.false_eq_true, if_false]
  rcases cacheGetRandomSatisfiedChannel a.select st.ctx st.param with
    ⟨e | _ | channel, group, ctx, p⟩
  · exact Or.inl ⟨rfl, _, _, rfl⟩
  · exact Or.inl ⟨rfl, _, _, rfl⟩
  · refine Or.inr ⟨channel, group, ctx, p, rfl, rfl, ?_⟩
    dsimp only
    split <;> exact ⟨rfl, rfl⟩

/-- The selections of the loop are a walk through the groups, and no iteration but the last goes
without one. -/
theorem turns_walk (first : Channel) {groups : List String} {l : List (Attempt Channel)}
    (hl : ∀ a ∈ l, a.select.autoGroups = groups ∧ a.select.retryTimes = retryTimes)
    (st : LoopState) (hMeta : st.info.hasChannelMeta = true) (hAuto : st.param.tokenGroup = "auto")
    (hReset : st.param.resetNextTry = false) :
    ∃ walk, Walk retryTimes (st.ctx.autoGroupIndex.getD 0) st.param.retry walk ∧
      (turns first l st).filterMap id = walk.map (groups.getD · "") ∧
      (∀ j ∈ walk, j < groups.length) ∧ (turns first l st).length ≤ walk.length + 1 := by
  induction l generalizing st with
  | nil => exact ⟨[], .stop _ _, rfl, forall_mem_nil _, Nat.zero_le _⟩
  | cons a rest ih =>
    obtain ⟨⟨hGroups, hTimes⟩, hMore⟩ := forall_mem_cons.mp hl
    unfold turns
    rw [hTimes, hMeta]
    split
    · exact ⟨[], .stop _ _, rfl, forall_mem_nil _, Nat.zero_le _⟩
    rename_i hRetry
    rcases getChannel_cases first a hMeta with ⟨hNone, e, st', hFails⟩ |
      ⟨channel, group, ctx, p, hSome, hGet, hCtx, hParam⟩
    · rw [hFails]
      exact ⟨[], .stop _ _, by simp [hNone], forall_mem_nil _, le_rfl⟩
    obtain ⟨j, hGroup, hj, hLeaves⟩ := cacheGet_leaves hAuto hReset hGet
    rw [hGroups] at hGroup
    rw [hTimes] at hLeaves
    have hLt : j < groups.length := (List.getElem?_eq_some_iff.mp hGroup).1
    have hWalk := fun walk => Walk.select (l := walk) (not_lt.mp hRetry) hj hLeaves.next
    have hOnly := hWalk [] (.stop _ _)
    rcases hResult : getChannel first a st with ⟨e | found, st'⟩
    · exact ⟨[j], hOnly, by simp [hSome, hGroup], by simpa using hLt, Nat.le_succ 1⟩
    · dsimp only
      split
      · exact ⟨[j], hOnly, by simp [hSome, hGroup], by simpa using hLt, Nat.le_succ 1⟩
      · rw [hResult] at hCtx hParam
        obtain ⟨walk, hRest, hTurns, hIn, hLength⟩ := ih hMore
          { st' with
            info := { st'.info with hasChannelMeta := true }
            param := st'.param.increaseRetry }
          rfl (by rw [hParam]; exact hLeaves.auto) (by rw [hParam]; exact hLeaves.reset)
        rw [hCtx, hParam] at hRest
        refine ⟨j :: walk, hWalk walk hRest, ?_, forall_mem_cons.mpr ⟨hLt, hIn⟩, ?_⟩
        · rw [if_pos rfl, hSome, map_cons, ← hTurns]
          simp [hGroup]
        · simpa using hLength

theorem count_map_getD {groups : List String} (hGroups : groups.Nodup)
    (hl : ∀ j ∈ l, j < groups.length) {bound : Int} (hBound : ∀ k, l.count k ≤ bound)
    (hNonneg : 0 ≤ bound) (g : String) : (l.map (groups.getD · "")).count g ≤ bound := by
  by_cases hg : g ∈ l.map (groups.getD · "")
  · obtain ⟨k, hk, rfl⟩ := mem_map.mp hg
    have hSame : (l.map (groups.getD · "")).count (groups.getD k "") = l.count k := by
      rw [List.count, countP_map]
      refine countP_congr fun j hj => ?_
      have hj' := hl j hj
      have hk' := hl k hk
      have hSame : groups[j] = groups[k] ↔ j = k := hGroups.getElem_inj_iff
      simpa [hj', hk'] using hSame
    rw [hSame]
    exact hBound k
  · rw [List.count_eq_zero.mpr hg]
    exact hNonneg

/-- **The retries of an auto group are bounded and ordered.** The group of the distributor's
channel and those of the loop are in the order of the list, none has more than `RetryTimes + 1`
selections, and the loop ends whatever the attempts find. -/
theorem auto_groups_bounded {groups : List String} (hGroups : groups.Nodup)
    (hTimes : 0 ≤ retryTimes) {env : SelectEnv Channel} (hEnv : env.autoGroups = groups ∧
      env.retryTimes = retryTimes) {ctx ctx' : Context}
    {first : Channel} {group : String} {p : RetryParam}
    (hFirst : cacheGetRandomSatisfiedChannel env ctx ⟨"auto", 0, false⟩ =
      (.ok (some first), group, ctx', p)) {l : List (Attempt Channel)}
    (hl : ∀ a ∈ l, a.select.autoGroups = groups ∧ a.select.retryTimes = retryTimes)
    {info : PriceInfo} (hMeta : info.hasChannelMeta = false) :
    let iterations := turns first l ⟨info, ctx', ⟨"auto", 0, false⟩⟩
    let selected := group :: iterations.filterMap id
    (∃ indexes : List Nat, selected = indexes.map (groups.getD · "") ∧
        indexes.Pairwise (· ≤ ·) ∧ ∀ j ∈ indexes, j < groups.length) ∧
      (∀ g, selected.count g ≤ retryTimes + 1) ∧
      selected.length ≤ (retryTimes + 1) * groups.length ∧
      iterations.length ≤ (retryTimes + 1) * groups.length + 1 := by
  obtain ⟨j, hGroup, -, hLeaves⟩ := cacheGet_leaves rfl rfl hFirst
  rw [hEnv.1] at hGroup
  rw [hEnv.2, ite_self] at hLeaves
  have hLt : j < groups.length := (List.getElem?_eq_some_iff.mp hGroup).1
  -- the distributor counts on its own, the loop starts at zero again
  have hLoop : ∀ walk, Walk retryTimes (ctx'.autoGroupIndex.getD 0) 1 walk →
      Walk retryTimes 0 0 (j :: walk) := by
    intro walk hWalk
    have hNext := hLeaves.next
    rw [← ite_self (c := j = 0) (0 : Int)] at hNext
    refine .select hTimes (Nat.zero_le j) hNext ?_
    rcases hLeaves.next with ⟨-, hOne⟩ | ⟨-, -, hLast⟩
    · rw [hOne]
      exact hWalk
    · rw [hWalk.eq_nil (Int.lt_add_one_of_le hLast)]
      exact .stop _ _
  obtain ⟨walk, hWalk, hTurns, hIn, hLength⟩ : ∃ walk, Walk retryTimes 0 0 (j :: walk) ∧
      (turns first l ⟨info, ctx', ⟨"auto", 0, false⟩⟩).filterMap id =
        walk.map (groups.getD · "") ∧ (∀ j ∈ walk, j < groups.length) ∧
      (turns first l ⟨info, ctx', ⟨"auto", 0, false⟩⟩).length ≤ walk.length + 2 := by
    cases l with
    | nil => exact ⟨[], hLoop [] (.stop _ _), rfl, forall_mem_nil _, Nat.zero_le _⟩
    | cons a rest =>
      obtain ⟨⟨-, hTimes'⟩, hMore⟩ := forall_mem_cons.mp hl
      simp only [turns, getChannel, hMeta, hTimes', Bool.not_false, if_true, not_lt.mpr hTimes,
        if_false, Bool.false_eq_true]
      split
      · exact ⟨[], hLoop [] (.stop _ _), rfl, forall_mem_nil _, Nat.le_succ 1⟩
      · obtain ⟨walk, hRest, hTurns, hIn, hLength⟩ := turns_walk first hMore
          ⟨{ info with hasChannelMeta := true }, ctx', ⟨"auto", 1, false⟩⟩ rfl rfl rfl
        exact ⟨walk, hLoop walk hRest, hTurns, hIn, Nat.succ_le_succ hLength⟩
  have hAll : ∀ k ∈ j :: walk, k < groups.length := forall_mem_cons.mpr ⟨hLt, hIn⟩
  have hSelected : group :: walk.map (groups.getD · "") = (j :: walk).map (groups.getD · "") := by
    simp [hGroup]
  have hBound := hWalk.length_le hTimes hAll
  dsimp only
  rw [hTurns, hSelected]
  refine ⟨⟨j :: walk, rfl, hWalk.pairwise, hAll⟩, ?_, ?_, ?_⟩
  · refine count_map_getD hGroups hAll (fun k => ?_) (by omega)
    simpa using hWalk.count_le hTimes le_rfl (by omega) k
  · simpa using hBound
  · rw [length_cons] at hBound
    omega

theorem auto_groups_bounded_switching :
    let iterations := turns () switching.attempts ⟨switching.info, switching.ctx, switching.param⟩
    iterations = [none, some "premium"] ∧ (iterations.length : Int) ≤ (3 + 1) * 2 + 1 := by
  refine ⟨rfl, ?_⟩
  have hFirst : cacheGetRandomSatisfiedChannel (sampleAttempt "basic" none).select
      ⟨none, none, true⟩ ⟨"auto", 0, false⟩ =
        (.ok (some ()), "basic", switching.ctx, switching.param) := rfl
  have hMeta : switching.info.hasChannelMeta = false := rfl
  exact (auto_groups_bounded (by decide) (by decide) ⟨rfl, rfl⟩ hFirst
    (l := switching.attempts) (by simp [switching, sampleAttempt]) hMeta).2.2.2

end Qapi.Relay
