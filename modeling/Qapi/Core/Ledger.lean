import Mathlib.Logic.Function.Basic

/-!
# Payments owed after a change of state

Several agents work on keyed records. A record that reaches a certain state has to be
paid for once; the agent that moves it there owes the payment and makes it later. A
ledger keeps, for every key, whether it is due, for every agent which key it owes, and
for every key how often it has been paid. If a key is won only while it is not due, and
a due key stays due, then no key is paid twice.

Where what is owed are amounts, the holdings of a record are a list of entries `(k, x)`,
each an amount held for a key; `release` gives an amount held for a key back, as far as
there is any. Nothing here depends on what the keys and the agents are.
-/

namespace Qapi.Core

open Function

/-- Which keys are due, which key each agent owes, and how often each key has been paid. -/
structure Ledger (P K : Type*) where
  due : K → Prop
  owes : P → Option K
  paid : K → Nat

namespace Ledger

variable {P K : Type*} {l l' : Ledger P K}

/-- A key that is owed is due, is owed by one agent and is unpaid; a key that is paid is due and
is paid once. -/
structure Once (l : Ledger P K) : Prop where
  owed : ∀ p k, l.owes p = some k → l.due k ∧ l.paid k = 0
  unique : ∀ p q k, l.owes p = some k → l.owes q = some k → p = q
  paid : ∀ k, l.paid k ≠ 0 → l.due k ∧ l.paid k = 1

theorem Once.initial (hOwes : ∀ p, l.owes p = none) (hPaid : ∀ k, l.paid k = 0) : Once l where
  owed p k h := by
    rw [hOwes] at h
    cases h
  unique p q k h := by
    rw [hOwes] at h
    cases h
  paid k h := absurd (hPaid k) h

theorem Once.le_one (h : Once l) (k : K) : l.paid k ≤ 1 := by
  by_cases hZero : l.paid k = 0
  · omega
  · exact Nat.le_of_eq (h.paid k hZero).2

theorem Once.quiet (h : Once l) (hDue : ∀ k, l.due k → l'.due k)
    (hOwes : ∀ p k, l'.owes p = some k → l.owes p = some k) (hPaid : l'.paid = l.paid) :
    Once l' where
  owed p k hk := by
    obtain ⟨hk, hZero⟩ := h.owed p k (hOwes p k hk)
    exact ⟨hDue k hk, by rw [hPaid, hZero]⟩
  unique p q k hp hq := h.unique p q k (hOwes p k hp) (hOwes q k hq)
  paid k hk := by
    rw [hPaid] at hk ⊢
    obtain ⟨hDueK, hOne⟩ := h.paid k hk
    exact ⟨hDue k hDueK, hOne⟩

theorem Once.settle [DecidableEq K] (h : Once l) {k : K} (hDue : ∀ k, l.due k → l'.due k)
    (hNew : ¬ l.due k) (hNow : l'.due k) (hOwes : l'.owes = l.owes)
    (hPaid : l'.paid = update l.paid k (l.paid k + 1)) : Once l' := by
  have hUnpaid : l.paid k = 0 := by
    by_contra hNot
    exact hNew (h.paid k hNot).1
  constructor
  · intro q j hj
    rw [hOwes] at hj
    obtain ⟨hDueJ, hZero⟩ := h.owed q j hj
    have hjk : j ≠ k := by
      intro hEq
      subst hEq
      exact hNew hDueJ
    refine ⟨hDue j hDueJ, ?_⟩
    rw [hPaid, update_of_ne hjk, hZero]
  · intro q q' j hq hq'
    rw [hOwes] at hq hq'
    exact h.unique q q' j hq hq'
  · intro j hj
    rw [hPaid] at hj ⊢
    by_cases hjk : j = k
    · subst hjk
      rw [update_self, hUnpaid]
      exact ⟨hNow, rfl⟩
    · rw [update_of_ne hjk] at hj ⊢
      obtain ⟨hDueJ, hOne⟩ := h.paid j hj
      exact ⟨hDue j hDueJ, hOne⟩

/-- Every due key is paid or owed. -/
def Covered (l : Ledger P K) : Prop := ∀ k, l.due k → l.paid k ≠ 0 ∨ ∃ p, l.owes p = some k

/-- Once nobody owes a key, it is due exactly when it has been paid once. -/
theorem due_iff_paid (hOnce : Once l) (hCovered : Covered l) {k : K}
    (hNobody : ∀ p, l.owes p ≠ some k) : l.due k ↔ l.paid k = 1 := by
  constructor
  · intro hDue
    rcases hCovered k hDue with hPaid | ⟨p, hp⟩
    · exact (hOnce.paid k hPaid).2
    · exact absurd hp (hNobody p)
  · intro hPaid
    exact (hOnce.paid k (by omega)).1

variable [DecidableEq P]

theorem update_owes_cases {p q : P} {x : Option K} {k : K} {owes : P → Option K}
    (h : update owes p x q = some k) : (q = p ∧ x = some k) ∨ (q ≠ p ∧ owes q = some k) := by
  by_cases hq : q = p
  · subst hq
    exact Or.inl ⟨rfl, by simpa using h⟩
  · exact Or.inr ⟨hq, by simpa [hq] using h⟩

theorem Once.win (h : Once l) {p : P} {k : K} (hDue : ∀ k, l.due k → l'.due k) (hNew : ¬ l.due k)
    (hNow : l'.due k) (hOwes : l'.owes = update l.owes p (some k))
    (hPaid : l'.paid = l.paid) : Once l' := by
  -- a key that was not due was owed by nobody, so the winner is the only one who owes it
  have hUnpaid : l.paid k = 0 := by
    by_contra hNot
    exact hNew (h.paid k hNot).1
  have hNobody : ∀ q, l.owes q ≠ some k := fun q hq => hNew (h.owed q k hq).1
  constructor
  · intro q j hj
    rw [hPaid]
    rw [hOwes] at hj
    rcases update_owes_cases hj with ⟨-, hEq⟩ | ⟨-, hOld⟩
    · cases hEq
      exact ⟨hNow, hUnpaid⟩
    · obtain ⟨hj, hZero⟩ := h.owed q j hOld
      exact ⟨hDue j hj, hZero⟩
  · intro q q' j hq hq'
    rw [hOwes] at hq hq'
    rcases update_owes_cases hq with ⟨hq, hEq⟩ | ⟨-, hOld⟩
    · rcases update_owes_cases hq' with ⟨hq', -⟩ | ⟨-, hOld'⟩
      · exact hq.trans hq'.symm
      · cases hEq
        exact absurd hOld' (hNobody q')
    · rcases update_owes_cases hq' with ⟨-, hEq⟩ | ⟨-, hOld'⟩
      · cases hEq
        exact absurd hOld (hNobody q)
      · exact h.unique q q' j hOld hOld'
  · intro j hj
    rw [hPaid] at hj ⊢
    obtain ⟨hDueJ, hOne⟩ := h.paid j hj
    exact ⟨hDue j hDueJ, hOne⟩

variable [DecidableEq K]

theorem Once.pay (h : Once l) {p : P} {k : K} (hDue : ∀ k, l.due k → l'.due k)
    (hOwed : l.owes p = some k) (hOwes : l'.owes = update l.owes p none)
    (hPaid : l'.paid = update l.paid k (l.paid k + 1)) : Once l' := by
  obtain ⟨hDueK, hUnpaid⟩ := h.owed p k hOwed
  have hOld : ∀ q j, l'.owes q = some j → q ≠ p ∧ l.owes q = some j := by
    intro q j hj
    rw [hOwes] at hj
    rcases update_owes_cases hj with ⟨-, hNone⟩ | hOther
    · cases hNone
    · exact hOther
  constructor
  · intro q j hj
    obtain ⟨hq, hj⟩ := hOld q j hj
    obtain ⟨hDueJ, hZero⟩ := h.owed q j hj
    have hjk : j ≠ k := by
      intro hEq
      subst hEq
      exact hq (h.unique q p j hj hOwed)
    refine ⟨hDue j hDueJ, ?_⟩
    rw [hPaid, update_of_ne hjk, hZero]
  · intro q q' j hq hq'
    exact h.unique q q' j (hOld q j hq).2 (hOld q' j hq').2
  · intro j hj
    rw [hPaid] at hj ⊢
    by_cases hjk : j = k
    · subst hjk
      rw [update_self, hUnpaid]
      exact ⟨hDue j hDueK, rfl⟩
    · rw [update_of_ne hjk] at hj ⊢
      obtain ⟨hDueJ, hOne⟩ := h.paid j hj
      exact ⟨hDue j hDueJ, hOne⟩

/-- What can happen to a ledger: no payment is concerned, an agent makes a key due and owes it,
or an agent pays what it owes. In all cases a due key stays due. -/
inductive Step (l l' : Ledger P K) : Prop
  | quiet (hDue : ∀ k, l.due k → l'.due k) (hOwes : ∀ p k, l'.owes p = some k → l.owes p = some k)
      (hPaid : l'.paid = l.paid)
  | win (p : P) (k : K) (hDue : ∀ k, l.due k → l'.due k) (hNew : ¬ l.due k) (hNow : l'.due k)
      (hOwes : l'.owes = update l.owes p (some k)) (hPaid : l'.paid = l.paid)
  | pay (p : P) (k : K) (hDue : ∀ k, l.due k → l'.due k) (hOwed : l.owes p = some k)
      (hOwes : l'.owes = update l.owes p none)
      (hPaid : l'.paid = update l.paid k (l.paid k + 1))

theorem Once.step (h : Once l) (hStep : Step l l') : Once l' := by
  cases hStep with
  | quiet hDue hOwes hPaid => exact h.quiet hDue hOwes hPaid
  | win p k hDue hNew hNow hOwes hPaid => exact h.win hDue hNew hNow hOwes hPaid
  | pay p k hDue hOwed hOwes hPaid => exact h.pay hDue hOwed hOwes hPaid

/-! ## Ledgers in which no debt gets lost -/

/-- What can happen to a ledger in which no debt gets lost: nothing, an agent that owes nothing
makes a key due and owes it, an agent pays what it owes, or a key becomes due and is paid at
once. -/
inductive ExactStep (l l' : Ledger P K) : Prop
  | quiet (hDue : ∀ k, l'.due k ↔ l.due k) (hOwes : l'.owes = l.owes) (hPaid : l'.paid = l.paid)
  | win (p : P) (k : K) (hDue : ∀ j, l'.due j ↔ l.due j ∨ j = k) (hNew : ¬ l.due k)
      (hFree : l.owes p = none) (hOwes : l'.owes = update l.owes p (some k))
      (hPaid : l'.paid = l.paid)
  | pay (p : P) (k : K) (hDue : ∀ j, l'.due j ↔ l.due j) (hOwed : l.owes p = some k)
      (hOwes : l'.owes = update l.owes p none)
      (hPaid : l'.paid = update l.paid k (l.paid k + 1))
  | settle (k : K) (hDue : ∀ j, l'.due j ↔ l.due j ∨ j = k) (hNew : ¬ l.due k)
      (hOwes : l'.owes = l.owes) (hPaid : l'.paid = update l.paid k (l.paid k + 1))

theorem Once.exactStep (h : Once l) (hStep : ExactStep l l') : Once l' := by
  cases hStep with
  | quiet hDue hOwes hPaid =>
    refine h.quiet (fun k hk => (hDue k).mpr hk) ?_ hPaid
    intro p k hk
    rwa [hOwes] at hk
  | win p k hDue hNew hFree hOwes hPaid =>
    exact h.win (fun j hj => (hDue j).mpr (Or.inl hj)) hNew ((hDue k).mpr (Or.inr rfl)) hOwes hPaid
  | pay p k hDue hOwed hOwes hPaid =>
    exact h.pay (fun j hj => (hDue j).mpr hj) hOwed hOwes hPaid
  | settle k hDue hNew hOwes hPaid =>
    exact h.settle (fun j hj => (hDue j).mpr (Or.inl hj)) hNew ((hDue k).mpr (Or.inr rfl)) hOwes
      hPaid

theorem update_paid_ne_zero {paid : K → Nat} {j k : K} (h : j = k ∨ paid j ≠ 0) :
    update paid k (paid k + 1) j ≠ 0 := by
  by_cases hjk : j = k
  · subst hjk
    rw [update_self]
    omega
  · rw [update_of_ne hjk]
    exact h.resolve_left hjk

theorem Covered.exactStep (h : Covered l) (hStep : ExactStep l l') : Covered l' := by
  intro j hj
  cases hStep with
  | quiet hDue hOwes hPaid =>
    rw [hPaid, hOwes]
    exact h j ((hDue j).mp hj)
  | win p k hDue hNew hFree hOwes hPaid =>
    rw [hPaid, hOwes]
    rcases (hDue j).mp hj with hOld | hEq
    · rcases h j hOld with hPaidJ | ⟨q, hq⟩
      · exact Or.inl hPaidJ
      · have hqp : q ≠ p := by
          intro hEq
          rw [hEq, hFree] at hq
          cases hq
        exact Or.inr ⟨q, by rw [update_of_ne hqp, hq]⟩
    · exact Or.inr ⟨p, by rw [update_self, hEq]⟩
  | pay p k hDue hOwed hOwes hPaid =>
    rw [hPaid, hOwes]
    rcases h j ((hDue j).mp hj) with hPaidJ | ⟨q, hq⟩
    · exact Or.inl (update_paid_ne_zero (Or.inr hPaidJ))
    · by_cases hqp : q = p
      · subst hqp
        rw [hOwed] at hq
        cases hq
        exact Or.inl (update_paid_ne_zero (Or.inl rfl))
      · exact Or.inr ⟨q, by rw [update_of_ne hqp, hq]⟩
  | settle k hDue hNew hOwes hPaid =>
    rw [hPaid, hOwes]
    rcases (hDue j).mp hj with hOld | hEq
    · rcases h j hOld with hPaidJ | hOwed
      · exact Or.inl (update_paid_ne_zero (Or.inr hPaidJ))
      · exact Or.inr hOwed
    · exact Or.inl (update_paid_ne_zero (Or.inl hEq))

end Ledger

/-! ## Amounts held for keys -/

namespace Holdings

variable {K : Type*} [DecidableEq K]

def total : List (K × Nat) → Nat
  | [] => 0
  | (_, x) :: l => x + total l

def held (k : K) : List (K × Nat) → Nat
  | [] => 0
  | (k', x) :: l => (if k' = k then x else 0) + held k l

/-- Give up to `a` of what is held for the key back. -/
def release (k : K) : Nat → List (K × Nat) → List (K × Nat)
  | _, [] => []
  | a, (k', x) :: l =>
    if k' = k then (k', x - a) :: release k (a - x) l else (k', x) :: release k a l

omit [DecidableEq K] in
@[simp] theorem total_nil : total ([] : List (K × Nat)) = 0 := rfl

omit [DecidableEq K] in
@[simp] theorem total_cons (e : K × Nat) (l : List (K × Nat)) : total (e :: l) = e.2 + total l := rfl

theorem total_release (k : K) (a : Nat) (l : List (K × Nat)) :
    total (release k a l) + min a (held k l) = total l := by
  induction l generalizing a with
  | nil => simp [release, held]
  | cons e l ih =>
    obtain ⟨k', x⟩ := e
    by_cases hk : k' = k
    · have := ih (a - x)
      simp only [release, held, hk, if_true, total_cons]
      omega
    · have := ih a
      simp only [release, held, hk, if_false, total_cons]
      omega

theorem total_release_of_le {k : K} {a : Nat} {l : List (K × Nat)} (h : a ≤ held k l) :
    total (release k a l) + a = total l := by
  have := total_release k a l
  omega

end Holdings

end Qapi.Core
