import Mathlib.Logic.Basic

/-!
# Fallible calls and the statements they issue

A call against a store issues named statements, and an outcome says of each
whether it goes through. A transaction body returns either an error, and then
nothing it did is visible, or the store it commits; `transact` runs it against
the store. The lemmas peel a computation in `Except` apart from its result, so that
no proof about a transaction has to unfold the monad.
-/

namespace Qapi.Core

universe u v

/-- An error, or a call that never returns. -/
inductive Err
  | msg (text : String)
  | hang
deriving DecidableEq, Repr

/-- `err.Error()`. -/
def Err.text : Err → String
  | .msg t => t
  | .hang => ""

/-- `gorm.ErrRecordNotFound`. -/
def recordNotFound : Err := .msg "record not found"

variable {ε : Type u} {α β σ : Type v}

theorem of_bind {x : Except ε α} {f : α → Except ε β} {b : β} (h : (x >>= f) = .ok b) :
    ∃ a, x = .ok a ∧ f a = .ok b := by
  cases x with
  | error e => cases h
  | ok a => exact ⟨a, rfl, h⟩

/-- What comes after a statement without a result. -/
theorem of_seq {β : Type} {x : Except ε Unit} {f : Unit → Except ε β} {b : β}
    (h : (x >>= f) = .ok b) : f () = .ok b := by
  obtain ⟨u, -, hRest⟩ := of_bind h
  exact hRest

@[simp] theorem ok_bind (a : α) (f : α → Except ε β) : (Except.ok a >>= f) = f a := rfl

@[simp] theorem error_bind (e : ε) (f : α → Except ε β) :
    ((Except.error e : Except ε α) >>= f) = .error e := rfl

@[simp] theorem pure_eq_ok (a : α) : (pure a : Except ε α) = .ok a := rfl

@[simp] theorem throw_eq_error (e : ε) : (throw e : Except ε α) = .error e := rfl

/-- The statement `s` under the outcome `o`, which gives the error of each
statement that fails. -/
def stmt {Step : Type*} (o : Step → Option ε) (s : Step) : Except ε Unit :=
  match o s with
  | none => .ok ()
  | some e => .error e

@[simp] theorem stmt_eq_ok {Step : Type*} {o : Step → Option ε} {s : Step} {u : Unit} :
    stmt o s = .ok u ↔ o s = none := by
  unfold stmt
  cases o s <;> simp

theorem stmt_of_none {Step : Type*} {o : Step → Option ε} {s : Step} (h : o s = none) :
    stmt o s = .ok () := stmt_eq_ok.mpr h

/-- `if c { return err }`. -/
def failIf (c : Prop) [Decidable c] (err : ε) : Except ε Unit :=
  if c then .error err else .ok ()

@[simp] theorem failIf_eq_ok {c : Prop} [Decidable c] {err : ε} {u : Unit} :
    failIf c err = .ok u ↔ ¬ c := by
  unfold failIf
  split <;> simp_all

theorem failIf_of_not {c : Prop} [Decidable c] {err : ε} (h : ¬ c) : failIf c err = .ok () :=
  failIf_eq_ok.mpr h

def isOk : Except ε α → Bool
  | .ok _ => true
  | .error _ => false

@[simp] theorem isOk_ok (a : α) : isOk (.ok a : Except ε α) = true := rfl

@[simp] theorem isOk_error (e : ε) : isOk (.error e : Except ε α) = false := rfl

def transact (s : σ) : Except ε (α × σ) → Except ε α × σ
  | .ok (a, s') => (.ok a, s')
  | .error e => (.error e, s)

@[simp] theorem transact_ok (s s' : σ) (a : α) :
    transact s (.ok (a, s') : Except ε (α × σ)) = (.ok a, s') := rfl

@[simp] theorem transact_error (s : σ) (e : ε) :
    transact s (.error e : Except ε (α × σ)) = (.error e, s) := rfl

theorem transact_invariant {s : σ} {P : σ → Prop} {x : Except ε (α × σ)} (hs : P s)
    (h : ∀ a s', x = .ok (a, s') → P s') : P (transact s x).2 := by
  cases x with
  | error e => exact hs
  | ok r => exact h r.1 r.2 rfl

end Qapi.Core
