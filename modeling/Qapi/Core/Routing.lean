import Mathlib.Data.List.Basic
import Mathlib.Data.List.Flatten

/-!
# Fragments that are routed

A text is sent in fragments, each of which belongs to a key. What arrives under a key is
the concatenation of the fragments that are routed to it, which may be other ones than
those that belong to it. `flatMap_filter_eq_iff` says when leaving fragments out changes
nothing, `routed_iff` when every key gets its own text.
-/

namespace Qapi.Core

open List

variable {A B K : Type*}

variable {l : List A} {f : A → List B}

theorem flatMap_filter_eq_iff {p : A → Bool} :
    (l.filter p).flatMap f = l.flatMap f ↔ ∀ a ∈ l, p a = true ∨ f a = [] := by
  induction l with
  | nil => simp
  | cons a l ih =>
    have hLess : ((l.filter p).flatMap f).length ≤ (l.flatMap f).length := by
      exact (List.Sublist.flatMap filter_sublist f).length_le
    rw [forall_mem_cons, flatMap_cons]
    by_cases hp : p a = true
    · rw [filter_cons_of_pos hp, flatMap_cons, append_cancel_left_eq, ih]
      simp [hp]
    · rw [filter_cons_of_neg hp]
      constructor
      · intro h
        -- what is left is too short unless the element is empty
        have hLength := congrArg List.length h
        rw [length_append] at hLength
        have hEmpty : f a = [] := eq_nil_of_length_eq_zero (by omega)
        rw [hEmpty, nil_append, ih] at h
        exact ⟨Or.inr hEmpty, h⟩
      · rintro ⟨hEmpty | hEmpty, hRest⟩
        · exact absurd hEmpty hp
        · rw [hEmpty, nil_append, ih]
          exact hRest

theorem flatMap_ite {p : A → Bool} :
    (l.flatMap fun a => if p a then f a else []) = (l.filter p).flatMap f := by
  induction l with
  | nil => rfl
  | cons a l ih =>
    rw [flatMap_cons, ih, filter_cons]
    split <;> rfl

theorem flatMap_filter_congr {p q : A → Bool} (h : ∀ a ∈ l, p a = q a ∨ f a = []) :
    (l.filter p).flatMap f = (l.filter q).flatMap f := by
  induction l with
  | nil => rfl
  | cons a l ih =>
    rw [forall_mem_cons] at h
    have hRest := ih h.2
    simp only [filter_cons]
    rcases h.1 with hSame | hEmpty
    · rw [hSame]
      split <;> simp [hRest]
    · split <;> split <;> simp [hRest, hEmpty]

variable [DecidableEq K]

/-- The text of a key that nobody else's fragments join. -/
theorem own_of_text_eq {key : A → K} {owner : A → Option K} {k : K}
    (hAlone : ∀ b ∈ l, owner b = some k → key b = k ∨ f b = [])
    (hText : (l.filter fun b => owner b = some k).flatMap f = (l.filter fun b => key b =
      k).flatMap f) : ∀ a ∈ l, key a = k → owner a = some k ∨ f a = [] := by
  have hBoth : ((l.filter fun b => key b = k).filter fun b => owner b = some k).flatMap f =
      (l.filter fun b => key b = k).flatMap f := by
    rw [← hText, filter_filter]
    apply flatMap_filter_congr
    intro b hb
    by_cases hOwner : owner b = some k
    · rcases hAlone b hb hOwner with hKey | hEmpty
      · exact Or.inl (by simp [hOwner, hKey])
      · exact Or.inr hEmpty
    · exact Or.inl (by simp [hOwner])
  intro a ha hKey
  have hOwn := flatMap_filter_eq_iff.mp hBoth a (mem_filter.mpr ⟨ha, by simpa using hKey⟩)
  simpa using hOwn

/-- Where the fragments of at most one key are joined by those of others, every key gets its own
text if and only if every fragment that is not empty goes to its own key. -/
theorem routed_iff {g : A → K} {owner : A → Option K} {k₀ : K}
    (h : ∀ a ∈ l, owner a = none ∨ owner a = some (g a) ∨ owner a = some k₀) :
    (∀ a ∈ l, (l.filter fun b => owner b = some (g a)).flatMap f =
        (l.filter fun b => g b = g a).flatMap f) ↔
      ∀ a ∈ l, owner a = some (g a) ∨ f a = [] := by
  constructor
  · intro hTexts
    have hOthers : ∀ a ∈ l, g a ≠ k₀ → owner a = some (g a) ∨ f a = [] := by
      intro a ha hne
      refine own_of_text_eq ?_ (hTexts a ha) a ha rfl
      intro b hb hOwner
      rcases h b hb with hNone | hOwn | hJoin
      · rw [hNone] at hOwner
        cases hOwner
      · rw [hOwn] at hOwner
        exact Or.inl (Option.some.inj hOwner)
      · rw [hJoin] at hOwner
        exact absurd (Option.some.inj hOwner).symm hne
    intro a ha
    by_cases hKey : g a = k₀
    · refine own_of_text_eq ?_ (hTexts a ha) a ha rfl
      intro b hb hOwner
      by_cases hSame : g b = g a
      · exact Or.inl hSame
      · -- a fragment of another key is its own, or empty
        rcases hOthers b hb (fun hEq => hSame (hEq.trans hKey.symm)) with hOwn | hEmpty
        · rw [hOwn] at hOwner
          exact Or.inl (Option.some.inj hOwner)
        · exact Or.inr hEmpty
    · exact hOthers a ha hKey
  · intro hOwn a _
    apply flatMap_filter_congr
    intro b hb
    rcases hOwn b hb with hOwner | hEmpty
    · left
      rw [hOwner]
      simp
    · exact Or.inr hEmpty

end Qapi.Core
