import Mathlib.Logic.Function.Basic

/-!
# Counters that expire

A store of counters under keys, with the clock in milliseconds, as Redis keeps them: a
counter whose time to live is over counts as absent. `value` is what a reader sees, zero
for an absent key; each command has a lemma that says how it changes the values.
-/

namespace Qapi.Core

open Option

structure Counter where
  value : Int
  expireAt : Option Nat
deriving DecidableEq, Repr

/-- A key is there up to the moment at which it expires. -/
def Counter.live (c : Counter) (now : Nat) : Bool := c.expireAt.all (now ≤ ·)

structure Store (K : Type*) where
  now : Nat
  keys : K → Option Counter

namespace Store

variable {K : Type*}

def find (r : Store K) (k : K) : Option Counter := (r.keys k).filter (·.live r.now)

/-- `tonumber(redis.call('GET', k) or '0')`. -/
def value (r : Store K) (k : K) : Int := ((r.find k).map (·.value)).getD 0

def advance (r : Store K) (ms : Nat) : Store K := { r with now := r.now + ms }

/-- The key, if it is set, does not expire before `t`. -/
def Lasts (r : Store K) (k : K) (t : Nat) : Prop := ∀ c, r.find k = some c → c.live t = true

section Commands

variable [DecidableEq K]

def put (r : Store K) (k : K) (c : Option Counter) : Store K :=
  { r with keys := Function.update r.keys k c }

/-- `INCR`, which keeps the time to live. -/
def incr (r : Store K) (k : K) : Store K × Int :=
  match r.find k with
  | some c => (r.put k (some { c with value := c.value + 1 }), c.value + 1)
  | none => (r.put k (some ⟨1, none⟩), 1)

/-- `DECR`. -/
def decr (r : Store K) (k : K) : Store K × Int :=
  match r.find k with
  | some c => (r.put k (some { c with value := c.value - 1 }), c.value - 1)
  | none => (r.put k (some ⟨-1, none⟩), -1)

/-- `EXPIRE`, the time to live in seconds. -/
def expire (r : Store K) (k : K) (seconds : Nat) : Store K :=
  match r.find k with
  | some c => r.put k (some { c with expireAt := some (r.now + 1000 * seconds) })
  | none => r

def del (r : Store K) (k : K) : Store K := r.put k none

end Commands

/-! ## Values -/

variable {r : Store K} {k : K} {c : Counter}

theorem value_of_find (h : r.find k = some c) : r.value k = c.value := by
  rw [value, h]
  rfl

theorem value_of_find_none (h : r.find k = none) : r.value k = 0 := by
  rw [value, h]
  rfl

theorem live_of_find (h : r.find k = some c) :
    c.live r.now = true := (filter_eq_some_iff.mp h).2

theorem live_of_expireAt {d : Counter} {t : Nat} (h : c.live t = true)
    (hSame : d.expireAt = c.expireAt) : d.live t = true := by
  rw [Counter.live, hSame]
  exact h

theorem live_of_le {t u : Nat} (h : c.live u = true) (hle : t ≤ u) : c.live t = true := by
  unfold Counter.live at h ⊢
  cases hExpire : c.expireAt with
  | none => rfl
  | some e =>
    rw [hExpire, all_some, decide_eq_true_eq] at h
    rw [all_some, decide_eq_true_eq]
    omega

theorem find_of_find_advance {ms : Nat} (h : (r.advance ms).find k = some c) :
    r.find k = some c := by
  obtain ⟨hKey, hLive⟩ := filter_eq_some_iff.mp h
  exact filter_eq_some_iff.mpr ⟨hKey, live_of_le hLive (Nat.le_add_right _ _)⟩

theorem find_advance_of_lasts {ms : Nat} (h : r.Lasts k (r.now + ms)) :
    (r.advance ms).find k = r.find k := by
  cases hNow : r.find k with
  | none =>
    cases hLater : (r.advance ms).find k with
    | none => rfl
    | some c =>
      rw [find_of_find_advance hLater] at hNow
      cases hNow
  | some c =>
    exact filter_eq_some_iff.mpr ⟨(filter_eq_some_iff.mp hNow).1, h c hNow⟩

theorem value_advance_of_lasts {ms : Nat} (h : r.Lasts k (r.now + ms)) :
    (r.advance ms).value k = r.value k := by
  rw [value, value, find_advance_of_lasts h]

theorem value_advance (r : Store K) (k : K) (ms : Nat) :
    (r.advance ms).value k = r.value k ∨ (r.advance ms).value k = 0 := by
  cases hLater : (r.advance ms).find k with
  | none => exact Or.inr (value_of_find_none hLater)
  | some c =>
    rw [value_of_find hLater, value_of_find (find_of_find_advance hLater)]
    exact Or.inl rfl

section

variable [DecidableEq K] {r : Store K} {k j : K} {t : Nat}

theorem find_put_of_ne (h : j ≠ k) (c : Option Counter) : (r.put k c).find j = r.find j := by
  simp [find, put, Function.update_of_ne h]

theorem find_put_some {c : Counter} (h : c.live r.now = true) :
    (r.put k (some c)).find k = some c := by
  simp [find, put, Option.filter, h]

theorem find_put_none : (r.put k none).find k = none := by
  simp [find, put]

theorem find_incr (r : Store K) (k : K) : ∃ expireAt, (∀ c, r.find k = some c →
    expireAt = c.expireAt) ∧ (r.find k = none → expireAt = none) ∧
    (r.incr k).1.find k = some ⟨r.value k + 1, expireAt⟩ ∧ (r.incr k).2 = r.value k + 1 := by
  unfold incr
  cases hFind : r.find k with
  | none =>
    refine ⟨none, by simp, fun _ => rfl, ?_, ?_⟩
    · rw [value_of_find_none hFind]
      exact find_put_some rfl
    · rw [value_of_find_none hFind]
      rfl
  | some c =>
    refine ⟨c.expireAt, fun d hd => by cases hd; rfl, by simp, ?_, ?_⟩
    · rw [value_of_find hFind]
      exact find_put_some (live_of_expireAt (live_of_find hFind) rfl)
    · rw [value_of_find hFind]

@[simp] theorem value_incr (r : Store K) (k : K) : (r.incr k).1.value k = r.value k + 1 := by
  obtain ⟨e, -, -, hFind, -⟩ := find_incr r k
  exact value_of_find hFind

@[simp] theorem incr_result (r : Store K) (k : K) : (r.incr k).2 = r.value k + 1 := by
  obtain ⟨e, -, -, -, hResult⟩ := find_incr r k
  exact hResult

theorem find_incr_of_ne (h : j ≠ k) : (r.incr k).1.find j = r.find j := by
  unfold incr
  split <;> exact find_put_of_ne h _

theorem value_incr_of_ne (h : j ≠ k) : (r.incr k).1.value j = r.value j := by
  rw [value, value, find_incr_of_ne h]

@[simp] theorem value_decr (r : Store K) (k : K) : (r.decr k).1.value k = r.value k - 1 := by
  unfold decr
  cases hFind : r.find k with
  | none =>
    rw [value_of_find_none hFind]
    exact value_of_find (find_put_some rfl)
  | some c =>
    have hFound : (r.put k (some ⟨c.value - 1, c.expireAt⟩)).find k =
        some ⟨c.value - 1, c.expireAt⟩ :=
      find_put_some (live_of_expireAt (live_of_find hFind) rfl)
    rw [value_of_find hFind]
    exact value_of_find hFound

theorem find_decr_of_ne (h : j ≠ k) : (r.decr k).1.find j = r.find j := by
  unfold decr
  split <;> exact find_put_of_ne h _

theorem value_decr_of_ne (h : j ≠ k) : (r.decr k).1.value j = r.value j := by
  rw [value, value, find_decr_of_ne h]

theorem find_expire_of_ne (h : j ≠ k) (seconds : Nat) :
    (r.expire k seconds).find j = r.find j := by
  unfold expire
  split
  · exact find_put_of_ne h _
  · rfl

theorem find_expire (r : Store K) (k : K) (seconds : Nat) : (r.expire k seconds).find k =
    (r.find k).map fun c => { c with expireAt := some (r.now + 1000 * seconds) } := by
  unfold expire
  cases hFind : r.find k with
  | none => exact hFind
  | some c =>
    refine find_put_some ?_
    simp [Counter.live]

@[simp] theorem value_expire (r : Store K) (k j : K) (seconds : Nat) :
    (r.expire k seconds).value j = r.value j := by
  by_cases h : j = k
  · subst h
    rw [value, value, find_expire, map_map]
    rfl
  · rw [value, value, find_expire_of_ne h]

@[simp] theorem value_del (r : Store K) (k : K) : (r.del k).value k = 0 :=
  value_of_find_none find_put_none

theorem value_del_of_ne (h : j ≠ k) : (r.del k).value j = r.value j := by
  rw [value, value, del, find_put_of_ne h]

end

end Store

end Qapi.Core
