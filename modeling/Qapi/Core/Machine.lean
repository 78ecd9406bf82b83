import Mathlib.Algebra.Order.Ring.Int
import Mathlib.Data.List.Basic

/-!
# Deterministic machines and their runs

A machine is a function `step` from a state and an action to the next state; an
interleaving of several activities is a list of actions. `Guarded` says of a
list that each of its actions meets a condition in the state in which it is
performed. What one step preserves under the condition, every guarded run
preserves. Where every step has a cost, `runCost` is the cost of a run.
-/

namespace Qapi.Core

variable {S A T B : Type*}

def run (step : S → A → S) (s : S) (l : List A) : S := l.foldl step s

/-- Each action of the list meets `C` in the state in which it is performed. -/
def Guarded (step : S → A → S) (C : S → A → Prop) : S → List A → Prop
  | _, [] => True
  | s, a :: l => C s a ∧ Guarded step C (step s a) l

instance Guarded.decidable (step : S → A → S) (C : S → A → Prop) [∀ s a, Decidable (C s a)] :
    ∀ s l, Decidable (Guarded step C s l)
  | _, [] => inferInstanceAs (Decidable True)
  | s, a :: l =>
    have := Guarded.decidable step C (step s a) l
    inferInstanceAs (Decidable (C s a ∧ Guarded step C (step s a) l))

@[simp] theorem run_nil (step : S → A → S) (s : S) : run step s [] = s := rfl

@[simp] theorem run_cons (step : S → A → S) (s : S) (a : A) (l : List A) :
    run step s (a :: l) = run step (step s a) l := rfl

@[simp] theorem run_append (step : S → A → S) (s : S) (l m : List A) :
    run step s (l ++ m) = run step (run step s l) m := List.foldl_append

@[simp] theorem guarded_nil (step : S → A → S) (C : S → A → Prop) (s : S) :
    Guarded step C s [] := trivial

variable {step : S → A → S} {C : S → A → Prop} {l : List A}

@[simp] theorem guarded_cons {s : S} {a : A} :
    Guarded step C s (a :: l) ↔ C s a ∧ Guarded step C (step s a) l := Iff.rfl

theorem guarded_append {s : S} {m : List A} :
    Guarded step C s (l ++ m) ↔ Guarded step C s l ∧ Guarded step C (run step s l) m := by
  induction l generalizing s with
  | nil => simp
  | cons a l ih => simp [ih, and_assoc]

theorem guarded_of_forall (h : ∀ s a, C s a) (s : S) (l : List A) : Guarded step C s l := by
  induction l generalizing s with
  | nil => trivial
  | cons a l ih => exact ⟨h s a, ih (step s a)⟩

theorem Guarded.and {D : S → A → Prop} {s : S} (hC : Guarded step C s l)
    (hD : Guarded step D s l) : Guarded step (fun s a => C s a ∧ D s a) s l := by
  induction l generalizing s with
  | nil => trivial
  | cons a l ih => exact ⟨⟨hC.1, hD.1⟩, ih hC.2 hD.2⟩

theorem run_invariant {I : S → Prop} (hStep : ∀ s a, I s → I (step s a)) {s : S} (hs : I s)
    (l : List A) : I (run step s l) := by
  induction l generalizing s with
  | nil => exact hs
  | cons a l ih => exact ih (hStep s a hs)

theorem Guarded.invariant {I : S → Prop} (hStep : ∀ s a, I s → C s a → I (step s a)) {s : S}
    (hs : I s) (hl : Guarded step C s l) : I (run step s l) := by
  induction l generalizing s with
  | nil => exact hs
  | cons a l ih => exact ih (hStep s a hs hl.1) hl.2

/-- An invariant under one condition may be what makes the actions meet another. -/
theorem Guarded.imp_of_invariant {D : S → A → Prop} {I : S → Prop}
    (hStep : ∀ s a, I s → C s a → I (step s a)) (hD : ∀ s a, I s → C s a → D s a) {s : S}
    (hs : I s) (hl : Guarded step C s l) : Guarded step D s l := by
  induction l generalizing s with
  | nil => trivial
  | cons a l ih => exact ⟨hD s a hs hl.1, ih (hStep s a hs hl.1) hl.2⟩

/-! ## Costs -/

section

variable {step : S → A → S} {cost : S → A → Int}

def runCost (step : S → A → S) (cost : S → A → Int) : S → List A → Int
  | _, [] => 0
  | s, a :: l => cost s a + runCost step cost (step s a) l

@[simp] theorem runCost_nil (s : S) : runCost step cost s [] = 0 := rfl

@[simp] theorem runCost_cons (s : S) (a : A) (l : List A) :
    runCost step cost s (a :: l) = cost s a + runCost step cost (step s a) l := rfl

theorem runCost_nonneg (h : ∀ s a, 0 ≤ cost s a) (s : S) (l : List A) :
    0 ≤ runCost step cost s l := by
  induction l generalizing s with
  | nil => exact le_refl 0
  | cons a l ih => exact add_nonneg (h s a) (ih (step s a))

theorem runCost_eq_zero_iff (h : ∀ s a, 0 ≤ cost s a) {s : S} {l : List A} :
    runCost step cost s l = 0 ↔ Guarded step (fun s a => cost s a = 0) s l := by
  induction l generalizing s with
  | nil => simp
  | cons a l ih =>
    have hHead := h s a
    have hTail : 0 ≤ runCost step cost (step s a) l := runCost_nonneg h _ l
    rw [guarded_cons, ← ih, runCost_cons]
    omega

theorem runCost_add_action (f : A → Int) (s : S) (l : List A) :
    runCost step (fun s a => f a + cost s a) s l = (l.map f).sum + runCost step cost s l := by
  induction l generalizing s with
  | nil => rfl
  | cons a l ih =>
    simp only [runCost_cons, List.map_cons, List.sum_cons, ih]
    omega

theorem runCost_invariant {I : Int → S → Prop}
    (hStep : ∀ x s a, I x s → I (x + cost s a) (step s a)) {x : Int} {s : S} (hs : I x s)
    (l : List A) : I (x + runCost step cost s l) (run step s l) := by
  induction l generalizing x s with
  | nil => simpa using hs
  | cons a l ih =>
    have hNext := ih (hStep x s a hs)
    rwa [add_assoc] at hNext

/-- A measure follows the costs along the whole run exactly when it does in every step. -/
theorem forall_prefix_runCost_iff {f : S → Int} {s : S} {l : List A} :
    (∀ m, m <+: l → f (run step s m) = f s + runCost step cost s m) ↔
      Guarded step (fun s a => f (step s a) = f s + cost s a) s l := by
  induction l generalizing s with
  | nil => simp
  | cons a l ih =>
    rw [guarded_cons, ← ih]
    constructor
    · intro h
      have hHead : f (step s a) = f s + cost s a := by
        simpa using h [a] (by simp)
      refine ⟨hHead, ?_⟩
      intro m hm
      have hLong := h (a :: m) (List.cons_prefix_cons.mpr ⟨rfl, hm⟩)
      rw [run_cons, runCost_cons] at hLong
      omega
    · rintro ⟨hHead, hTail⟩ m hm
      rcases List.prefix_cons_iff.mp hm with rfl | ⟨m', rfl, hm'⟩
      · simp
      · have hRest := hTail m' hm'
        rw [run_cons, runCost_cons]
        omega

end

/-! ## Absorbing properties -/

section

variable {step : S → A → S} {P : S → Bool}

/-- One for a step that enters `P`. -/
def entering (step : S → A → S) (P : S → Bool) (s : S) (a : A) : Int :=
  if !P s && P (step s a) then 1 else 0

/-- A property that no step leaves, from states that satisfy the invariant `I`, is entered at
most once in a run. -/
theorem runCost_entering_le_one {I : S → Prop} (hInv : ∀ s a, I s → I (step s a))
    (hAbsorbs : ∀ s a, I s → P s = true → P (step s a) = true) {s : S} (hs : I s) (l : List A) :
    runCost step (entering step P) s l ≤ 1 := by
  have hInside : ∀ (l : List A) (s : S), I s → P s = true →
      runCost step (entering step P) s l = 0 := by
    intro l
    induction l with
    | nil =>
      intro s _ _
      rfl
    | cons a l ih =>
      intro s hs hP
      have hHead : entering step P s a = 0 := by simp [entering, hP]
      rw [runCost_cons, hHead, ih _ (hInv s a hs) (hAbsorbs s a hs hP), add_zero]
  induction l generalizing s with
  | nil => exact Int.one_nonneg
  | cons a l ih =>
    rw [runCost_cons]
    by_cases hNext : P (step s a) = true
    · have hHead : entering step P s a ≤ 1 := by
        unfold entering
        split <;> omega
      have hTail := hInside l _ (hInv s a hs) hNext
      omega
    · have hHead : entering step P s a = 0 := by simp [entering, hNext]
      have hTail := ih (hInv s a hs)
      omega

end

end Qapi.Core
