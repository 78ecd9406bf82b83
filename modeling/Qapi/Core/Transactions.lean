import Mathlib.Data.List.Basic
import Mathlib.Logic.Function.Basic
import Qapi.Core.Machine

/-!
# Transactions with row locks

Any number of connections run transactions against one store, at read-committed
isolation. A program says of each phase which locks its next statement needs and what
the statement does: it goes on, with what has been written so far, or the transaction is
rolled back or committed. A statement sees what is committed and what its own transaction
has written. It waits while another connection holds a lock that it needs, and a lock is
held to the end of the transaction.

A lock has one holder, so two connections never hold the same one. What a connection
does leaves the phase, the writes and the locks of every other connection alone, and
changes the store only with its commit.
-/

namespace Qapi.Core

open Function

inductive Outcome (P W : Type*)
  | next (phase : P) (writes : W)
  | rollback (phase : P)
  | commit (phase : P)

structure TxProgram (D P L W I : Type*) where
  /-- The locks that the next statement needs. -/
  locks : D → P → List L
  /-- The next statement, with its own transaction's writes. -/
  exec : I → D → P → W → Outcome P W
  /-- Nothing has been written. -/
  noWrites : W
  /-- What a commit makes of the store. -/
  apply : D → W → D

structure TxSystem (T D P L W : Type*) where
  db : D
  holder : L → Option T
  phase : T → P
  writes : T → W

namespace TxProgram

variable {T D P L W I : Type*} [DecidableEq T] [DecidableEq L]

def Free (s : TxSystem T D P L W) (t : T) (locks : List L) : Prop :=
  ∀ l ∈ locks, s.holder l = none ∨ s.holder l = some t

instance (s : TxSystem T D P L W) (t : T) (locks : List L) : Decidable (Free s t locks) :=
  inferInstanceAs (Decidable (∀ l ∈ locks, s.holder l = none ∨ s.holder l = some t))

def acquire (holder : L → Option T) (t : T) (locks : List L) (l : L) : Option T :=
  if l ∈ locks then some t else holder l

def release (holder : L → Option T) (t : T) (l : L) : Option T :=
  if holder l = some t then none else holder l

/-- The next statement of a connection; one that has to wait does nothing. -/
def step (prog : TxProgram D P L W I) (s : TxSystem T D P L W) (a : T × I) : TxSystem T D P L W :=
  if Free s a.1 (prog.locks s.db (s.phase a.1)) then
    match prog.exec a.2 s.db (s.phase a.1) (s.writes a.1) with
    | .next phase writes =>
      { db := s.db
        holder := acquire s.holder a.1 (prog.locks s.db (s.phase a.1))
        phase := update s.phase a.1 phase
        writes := update s.writes a.1 writes }
    | .rollback phase =>
      { db := s.db
        holder := release s.holder a.1
        phase := update s.phase a.1 phase
        writes := update s.writes a.1 prog.noWrites }
    | .commit phase =>
      { db := prog.apply s.db (s.writes a.1)
        holder := release s.holder a.1
        phase := update s.phase a.1 phase
        writes := update s.writes a.1 prog.noWrites }
  else s

section

variable {prog : TxProgram D P L W I} {s : TxSystem T D P L W} {a : T × I}

/-- What a step can do: wait, go on, roll back, or commit. -/
theorem step_cases (prog : TxProgram D P L W I) (s : TxSystem T D P L W) (a : T × I) :
    prog.step s a = s ∨
      Free s a.1 (prog.locks s.db (s.phase a.1)) ∧
        ((∃ phase writes, prog.exec a.2 s.db (s.phase a.1) (s.writes a.1) = .next phase writes ∧
            prog.step s a = ⟨s.db, acquire s.holder a.1 (prog.locks s.db (s.phase a.1)),
              update s.phase a.1 phase, update s.writes a.1 writes⟩) ∨
          (∃ phase, prog.exec a.2 s.db (s.phase a.1) (s.writes a.1) = .rollback phase ∧
            prog.step s a = ⟨s.db, release s.holder a.1, update s.phase a.1 phase,
              update s.writes a.1 prog.noWrites⟩) ∨
          ∃ phase, prog.exec a.2 s.db (s.phase a.1) (s.writes a.1) = .commit phase ∧
            prog.step s a = ⟨prog.apply s.db (s.writes a.1), release s.holder a.1,
              update s.phase a.1 phase, update s.writes a.1 prog.noWrites⟩) := by
  unfold step
  by_cases hFree : Free s a.1 (prog.locks s.db (s.phase a.1))
  · right
    rw [if_pos hFree]
    refine ⟨hFree, ?_⟩
    cases hExec : prog.exec a.2 s.db (s.phase a.1) (s.writes a.1) with
    | next phase writes => exact Or.inl ⟨phase, writes, rfl, rfl⟩
    | rollback phase => exact Or.inr (Or.inl ⟨phase, rfl, rfl⟩)
    | commit phase => exact Or.inr (Or.inr ⟨phase, rfl, rfl⟩)
  · left
    rw [if_neg hFree]

omit [DecidableEq T] in
theorem acquire_of_mem {holder : L → Option T} {t : T} {locks : List L} {l : L} (h : l ∈ locks) :
    acquire holder t locks l = some t := if_pos h

omit [DecidableEq T] in
theorem acquire_self {holder : L → Option T} {t : T} {locks : List L} {l : L}
    (h : holder l = some t) : acquire holder t locks l = some t := by
  unfold acquire
  split
  · rfl
  · exact h

omit [DecidableEq T] in
theorem acquire_of_ne {locks : List L} {t u : T} (hFree : Free s t locks) (hu : u ≠ t) (l : L) :
    acquire s.holder t locks l = some u ↔ s.holder l = some u := by
  unfold acquire
  split
  next hMem =>
    rcases hFree l hMem with hNone | hOwn
    · simp [hNone, hu.symm]
    · simp [hOwn]
  next => exact Iff.rfl

omit [DecidableEq L] in
theorem release_of_ne {holder : L → Option T} {t u : T} (hu : u ≠ t) (l : L) :
    release holder t l = some u ↔ holder l = some u := by
  unfold release
  split
  next hOwn => simp [hOwn, hu.symm]
  next => exact Iff.rfl

theorem holder_step_of_ne {u : T} (hu : u ≠ a.1) (l : L) :
    (prog.step s a).holder l = some u ↔ s.holder l = some u := by
  rcases prog.step_cases s a with h | ⟨hFree, ⟨_, _, _, h⟩ | ⟨_, _, h⟩ | ⟨_, _, h⟩⟩
  · rw [h]
  · rw [h]
    exact acquire_of_ne hFree hu l
  · rw [h]
    exact release_of_ne hu l
  · rw [h]
    exact release_of_ne hu l

theorem phase_step_of_ne {u : T} (hu : u ≠ a.1) : (prog.step s a).phase u = s.phase u := by
  rcases prog.step_cases s a with h | ⟨_, ⟨_, _, _, h⟩ | ⟨_, _, h⟩ | ⟨_, _, h⟩⟩
  · rw [h]
  all_goals
    rw [h]
    exact Function.update_of_ne hu _ _

theorem writes_step_of_ne {u : T} (hu : u ≠ a.1) : (prog.step s a).writes u = s.writes u := by
  rcases prog.step_cases s a with h | ⟨_, ⟨_, _, _, h⟩ | ⟨_, _, h⟩ | ⟨_, _, h⟩⟩
  · rw [h]
  all_goals
    rw [h]
    exact Function.update_of_ne hu _ _

/-- What holds of one connection: of the store, the locks that it owns, its phase and its
writes. -/
def At (Q : D → (L → Prop) → P → W → Prop) (s : TxSystem T D P L W) (t : T) : Prop :=
  Q s.db (fun l => s.holder l = some t) (s.phase t) (s.writes t)

/-- What a step establishes for its own connection, and what its effect on the store
leaves true of the others, holds of every connection after it. -/
theorem at_step {Q : D → (L → Prop) → P → W → Prop} (hs : ∀ t, At Q s t)
    (hOwn : At Q (prog.step s a) a.1)
    (hOthers : ∀ u, u ≠ a.1 → At Q s u →
      Q (prog.step s a).db (fun l => s.holder l = some u) (s.phase u) (s.writes u)) :
    ∀ t, At Q (prog.step s a) t := by
  intro u
  by_cases hu : u = a.1
  · subst hu
    exact hOwn
  · have hOwned : (fun l => (prog.step s a).holder l = some u) = fun l => s.holder l = some u := by
      funext l
      exact propext (holder_step_of_ne hu l)
    unfold At
    rw [hOwned, phase_step_of_ne hu, writes_step_of_ne hu]
    exact hOthers u hu (hs u)

end

end TxProgram

end Qapi.Core
