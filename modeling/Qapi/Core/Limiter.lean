import Qapi.Core.Expiring
import Qapi.Core.Machine

/-!
# Limiters that count in expiring keys

A limiter admits a request if the counters of its keys leave room, and counts it out when
it is released. `Counting` says what its calls do to the counters. As long as no counter
expires while one of its requests is running, every counter is the number of these
requests (`counted_run`), so no limit is exceeded, and a release leaves enough on the
counter for those that are still running (`Counted.safe`).
-/

namespace Qapi.Core

variable {K C : Type*}

/-- A limiter: the keys that a request of class `c` counts in, and the calls. -/
structure Limiter (K C : Type*) where
  counts : C → K → Bool
  limit : K → Int
  acquire : Store K → C → Store K × Bool
  release : Store K → C → Store K

namespace Limiter

def Slot (L : Limiter K C) (k : K) : Prop := ∃ c, L.counts c k = true

/-- What the calls of a limiter do to its counters, none of which is negative. -/
structure Counting (L : Limiter K C) : Prop where
  admitted : ∀ {r c}, (∀ k, L.Slot k → 0 ≤ r.value k) → (L.acquire r c).2 = true →
    ∀ {k}, L.Slot k →
      (L.acquire r c).1.value k = r.value k + (if L.counts c k then 1 else 0) ∧
        (L.counts c k = true → r.value k < L.limit k)
  rejected : ∀ {r c}, (∀ k, L.Slot k → 0 ≤ r.value k) → (L.acquire r c).2 = false →
    ∀ {k}, L.Slot k → (L.acquire r c).1.value k = r.value k
  released : ∀ {r c k}, L.Slot k → (L.release r c).value k =
    if L.counts c k then (if r.value k ≤ 1 then 0 else r.value k - 1) else r.value k

structure State (K C : Type*) where
  store : Store K
  running : List (C × Nat)

def State.initial (now : Nat) : State K C := ⟨⟨now, fun _ => none⟩, []⟩

inductive Action (C : Type*)
  | advance (ms : Nat)
  | acquire (c : C)
  | release (c : C) (since : Nat)

section

variable (L : Limiter K C) [DecidableEq C]

def step (s : State K C) : Action C → State K C
  | .advance ms => { s with store := s.store.advance ms }
  | .acquire c =>
    if (L.acquire s.store c).2 then ⟨(L.acquire s.store c).1, (c, s.store.now) :: s.running⟩
    else { s with store := (L.acquire s.store c).1 }
  | .release c since =>
    if (c, since) ∈ s.running then ⟨L.release s.store c, s.running.erase (c, since)⟩ else s

def inFlight (s : State K C) (k : K) : Nat := s.running.countP fun q => L.counts q.1 k

/-- No counter expires while one of its requests is running. -/
def Undisturbed (s : State K C) : Action C → Prop
  | .advance ms => ∀ k, L.inFlight s k ≠ 0 → s.store.Lasts k (s.store.now + ms)
  | _ => True

/-- No limit is exceeded, and the next release, whichever it is, does not lower a counter below
the number of requests that are then still running. -/
structure Safe (s : State K C) : Prop where
  limits : ∀ k, L.Slot k → L.inFlight s k = 0 ∨ (L.inFlight s k : Int) ≤ L.limit k
  releases : ∀ c since k, L.Slot k →
    (L.step s (.release c since)).store.value k < s.store.value k →
      (L.inFlight (L.step s (.release c since)) k : Int) ≤
        (L.step s (.release c since)).store.value k

/-- Every counter is the number of its requests, which is within the limit. -/
structure Counted (s : State K C) : Prop where
  value : ∀ k, L.Slot k → s.store.value k = L.inFlight s k
  limits : ∀ k, L.Slot k → L.inFlight s k = 0 ∨ (L.inFlight s k : Int) ≤ L.limit k

end

variable {L : Limiter K C} [DecidableEq C] {s : State K C}

omit [DecidableEq C] in
theorem counted_initial (L : Limiter K C) (now : Nat) : L.Counted (State.initial now) :=
  ⟨fun _ _ => rfl, fun _ _ => Or.inl rfl⟩

theorem step_admitted {c : C} (h : (L.acquire s.store c).2 = true) :
    L.step s (.acquire c) = ⟨(L.acquire s.store c).1, (c, s.store.now) :: s.running⟩ := by
  simp [step, h]

theorem step_rejected {c : C} (h : ¬ (L.acquire s.store c).2 = true) :
    L.step s (.acquire c) = { s with store := (L.acquire s.store c).1 } := by
  simp [step, h]

theorem step_released {c : C} {since : Nat} (h : (c, since) ∈ s.running) :
    L.step s (.release c since) = ⟨L.release s.store c, s.running.erase (c, since)⟩ := by
  simp [step, h]

theorem step_not_running {c : C} {since : Nat} (h : (c, since) ∉ s.running) :
    L.step s (.release c since) = s := by
  simp [step, h]

theorem inFlight_release {c : C} {since : Nat} (h : (c, since) ∈ s.running) (r : Store K) (k : K) :
    L.inFlight ⟨r, s.running.erase (c, since)⟩ k + (if L.counts c k then 1 else 0) =
      L.inFlight s k := by
  unfold inFlight
  have hPerm := List.perm_cons_erase h
  rw [hPerm.countP_eq, List.countP_cons]

theorem Counted.advance (h : L.Counted s) {ms : Nat} (hStep : L.Undisturbed s (.advance ms)) :
    L.Counted (L.step s (.advance ms)) := by
  refine ⟨fun k hk => ?_, h.limits⟩
  have hValue := h.value k hk
  by_cases hNone : L.inFlight s k = 0
  · rw [hNone] at hValue
    show (s.store.advance ms).value k = L.inFlight s k
    rcases s.store.value_advance k ms with hSame | hLost
    · rw [hSame, hValue, hNone]
    · rw [hLost, hNone]
      rfl
  · show (s.store.advance ms).value k = L.inFlight s k
    rw [Store.value_advance_of_lasts (hStep k hNone), hValue]

theorem Counted.acquire (hL : L.Counting) (h : L.Counted s) (c : C) :
    L.Counted (L.step s (.acquire c)) := by
  have hNonneg : ∀ k, L.Slot k → 0 ≤ s.store.value k := by
    intro k hk
    rw [h.value k hk]
    omega
  by_cases hOk : (L.acquire s.store c).2 = true
  · rw [step_admitted hOk]
    have hMore : ∀ k, L.inFlight ⟨(L.acquire s.store c).1, (c, s.store.now) :: s.running⟩ k =
        L.inFlight s k + if L.counts c k then 1 else 0 := fun k => List.countP_cons
    refine ⟨fun k hk => ?_, fun k hk => ?_⟩
    · rw [hMore, (hL.admitted hNonneg hOk hk).1, h.value k hk]
      split <;> rfl
    · rw [hMore]
      by_cases hCounts : L.counts c k = true
      · have hRoom := (hL.admitted hNonneg hOk hk).2 hCounts
        rw [h.value k hk] at hRoom
        rw [if_pos hCounts]
        right
        omega
      · rw [if_neg hCounts]
        exact h.limits k hk
  · rw [step_rejected hOk]
    refine ⟨fun k hk => ?_, h.limits⟩
    rw [hL.rejected hNonneg (by simpa using hOk) hk, h.value k hk]
    rfl

theorem Counted.release (hL : L.Counting) (h : L.Counted s) (c : C) (since : Nat) :
    L.Counted (L.step s (.release c since)) := by
  by_cases hMem : (c, since) ∈ s.running
  · rw [step_released hMem]
    have hFewer := inFlight_release (L := L) hMem (L.release s.store c)
    refine ⟨fun k hk => ?_, fun k hk => ?_⟩
    · have hLess := hFewer k
      have hValue := h.value k hk
      rw [hL.released hk]
      by_cases hCounts : L.counts c k = true
      · rw [if_pos hCounts] at hLess ⊢
        split <;> omega
      · rw [if_neg hCounts] at hLess ⊢
        omega
    · have hLess := hFewer k
      have hLimit := h.limits k hk
      omega
  · rw [step_not_running hMem]
    exact h

theorem counted_run (hL : L.Counting) (h : L.Counted s) {l : List (Action C)}
    (hRun : Guarded L.step L.Undisturbed s l) : L.Counted (run L.step s l) := by
  refine hRun.invariant (fun s a hs hStep => ?_) h
  cases a with
  | advance ms => exact hs.advance hStep
  | acquire c => exact hs.acquire hL c
  | release c since => exact hs.release hL c since

theorem Counted.safe (hL : L.Counting) (h : L.Counted s) : L.Safe s := by
  refine ⟨h.limits, fun c since k hk _ => ?_⟩
  exact ((h.release hL c since).value k hk).symm.le

/-- No counter is negative or above its limit. -/
def Bounded (L : Limiter K C) (r : Store K) : Prop :=
  ∀ k, L.Slot k → 0 ≤ r.value k ∧ r.value k ≤ max (L.limit k) 0

theorem bounded_run (hL : L.Counting) (now : Nat) (l : List (Action C)) :
    L.Bounded (run L.step (.initial now) l).store := by
  refine run_invariant (I := fun s : State K C => L.Bounded s.store) (fun s a h k hk => ?_)
    (fun k _ => ⟨le_rfl, le_max_right _ _⟩) l
  have hNonneg : ∀ k, L.Slot k → 0 ≤ s.store.value k := fun k hk => (h k hk).1
  have hk' := h k hk
  cases a with
  | advance ms =>
    have := s.store.value_advance k ms
    dsimp only [step]
    omega
  | acquire c =>
    by_cases hOk : (L.acquire s.store c).2 = true
    · obtain ⟨hValue, hRoom⟩ := hL.admitted hNonneg hOk hk
      rw [step_admitted hOk, hValue]
      split
      next hCounts =>
        have := hRoom hCounts
        omega
      next => omega
    · rwa [step_rejected hOk, hL.rejected hNonneg (by simpa using hOk) hk]
  | release c since =>
    by_cases hMem : (c, since) ∈ s.running
    · rw [step_released hMem, hL.released hk]
      split
      · split <;> omega
      · exact hk'
    · rwa [step_not_running hMem]

end Limiter

end Qapi.Core
