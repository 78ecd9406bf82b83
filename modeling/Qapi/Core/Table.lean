import Mathlib.Data.List.Nodup
import Mathlib.Data.List.Basic
import Mathlib.Data.List.Sort
import Mathlib.Algebra.Order.Ring.Int

/-!
# Tables with a unique key

A database table is a list of rows whose keys are pairwise distinct; the table
carries that fact. `find?` is the lookup by key, `save` writes a row over the
stored row with the same key, `create` inserts a row and fails when its key is
taken, and `modify` updates the rows that a `WHERE` clause selects. None of these
can break the uniqueness of the key, so no later proof has to mention it.

Nothing here depends on what the rows are.
-/

namespace Qapi.Core

open List

theorem filter_key_eq_singleton {K R : Type*} [DecidableEq K] {key : R → K} {l : List R}
    (hNodup : (l.map key).Nodup) {x : R} (hx : x ∈ l) :
    (l.filter fun y => key y = key x) = [x] := by
  induction l with
  | nil => cases hx
  | cons y l ih =>
    rw [map_cons, nodup_cons] at hNodup
    obtain ⟨hNotMem, hNodup⟩ := hNodup
    rcases mem_cons.mp hx with rfl | hx
    · have hRest : (l.filter fun y => key y = key x) = [] := by
        rw [filter_eq_nil_iff]
        intro y hy hk
        rw [decide_eq_true_eq] at hk
        exact hNotMem (hk ▸ mem_map_of_mem hy)
      rw [filter_cons_of_pos (by simp), hRest]
    · have hne : key y ≠ key x := by
        intro hk
        exact hNotMem (hk ▸ mem_map_of_mem hx)
      rw [filter_cons_of_neg (by simpa using hne), ih hNodup hx]

structure Table {K R : Type*} (key : R → K) where
  rows : List R
  nodup : (rows.map key).Nodup

namespace Table

variable {K R : Type*} {key : R → K}

variable {t u : Table key}

@[ext] theorem ext (h : t.rows = u.rows) : t = u := by
  cases t
  cases u
  cases h
  rfl

instance [DecidableEq R] : DecidableEq (Table key) := fun t u =>
  decidable_of_iff (t.rows = u.rows) ⟨ext, fun h => h ▸ rfl⟩

def empty : Table key := ⟨[], by simp⟩

instance : Inhabited (Table key) := ⟨empty⟩

instance : Membership R (Table key) := ⟨fun t r => r ∈ t.rows⟩

variable {r : R}

theorem mem_def : r ∈ t ↔ r ∈ t.rows := Iff.rfl

theorem not_mem_empty (r : R) : r ∉ (empty : Table key) := not_mem_nil

variable {s : R}

theorem eq_of_key (hr : r ∈ t) (hs : s ∈ t) (h : key r = key s) : r = s :=
  inj_on_of_nodup_map t.nodup hr hs h

/-! ## Updating and deleting by condition -/

/-- `UPDATE … SET f WHERE p`, for an update that leaves the key alone. -/
def modify (t : Table key) (p : R → Bool) (f : R → R) (hf : ∀ r, key (f r) = key r) :
    Table key where
  rows := t.rows.map fun r => if p r then f r else r
  nodup := by
    have h : (fun r => key (if p r then f r else r)) = key := by
      funext r
      split
      · exact hf r
      · rfl
    rw [map_map, Function.comp_def, h]
    exact t.nodup

theorem mem_modify {p : R → Bool} {f : R → R} (hf : ∀ r, key (f r) = key r) :
    s ∈ t.modify p f hf ↔ ∃ r ∈ t, s = if p r then f r else r := by
  simp only [mem_def, modify, mem_map, eq_comm]

/-- `DELETE … WHERE p`. -/
def delete (t : Table key) (p : R → Bool) : Table key where
  rows := t.rows.filter fun r => !p r
  nodup := (List.Sublist.map key filter_sublist).nodup t.nodup

theorem mem_delete {p : R → Bool} : s ∈ t.delete p ↔ s ∈ t ∧ p s = false := by
  simp [mem_def, delete]

variable [DecidableEq K]

/-! ## Lookup -/

/-- `SELECT … WHERE key = k LIMIT 1`. -/
def find? (t : Table key) (k : K) : Option R := t.rows.find? fun r => key r = k

variable {k : K}

theorem find?_eq_none : t.find? k = none ↔ ∀ r ∈ t, key r ≠ k := by
  simp [find?, mem_def]

theorem mem_of_find? (h : t.find? k = some r) : r ∈ t :=
  mem_of_find?_eq_some h

theorem key_of_find? (h : t.find? k = some r) : key r = k :=
  of_decide_eq_true (find?_some (p := fun r => decide (key r = k)) h)

theorem find?_of_mem (h : r ∈ t) : t.find? (key r) = some r := by
  cases hs : t.find? (key r) with
  | none => exact absurd rfl (find?_eq_none.mp hs r h)
  | some s => rw [eq_of_key (mem_of_find? hs) h (key_of_find? hs)]

theorem find?_eq_some : t.find? k = some r ↔ r ∈ t ∧ key r = k :=
  ⟨fun h => ⟨mem_of_find? h, key_of_find? h⟩, fun h => h.2 ▸ find?_of_mem h.1⟩

theorem find?_modify {p : R → Bool} {f : R → R} (hf : ∀ r, key (f r) = key r) (k : K) :
    (t.modify p f hf).find? k = (t.find? k).map fun r => if p r then f r else r := by
  have hKey : ∀ r, key (if p r then f r else r) = key r := by
    intro r
    split
    · exact hf r
    · rfl
  simp only [find?, modify, find?_map, Function.comp_def, hKey]

theorem length_filter_key_le_one (t : Table key) (k : K) :
    (t.rows.filter fun r => key r = k).length ≤ 1 := by
  by_cases hFound : ∃ r ∈ t.rows, key r = k
  · obtain ⟨r, hr, rfl⟩ := hFound
    rw [filter_key_eq_singleton t.nodup hr]
    exact le_refl 1
  · have hNone : (t.rows.filter fun r => key r = k) = [] := by
      rw [filter_eq_nil_iff]
      intro r hr
      simpa using fun hk => hFound ⟨r, hr, hk⟩
    rw [hNone]
    exact Nat.zero_le 1

/-! ## Writing a row back -/

/-- `UPDATE … SET * = r WHERE key = key r`: a row that is not stored is left alone. -/
def save (t : Table key) (r : R) : Table key where
  rows := t.rows.map fun s => if key s = key r then r else s
  nodup := by
    have h : (fun s => key (if key s = key r then r else s)) = key := by
      funext s
      split
      · rename_i hs
        exact hs.symm
      · rfl
    rw [map_map, Function.comp_def, h]
    exact t.nodup

theorem mem_save : s ∈ t.save r ↔ (s = r ∧ ∃ x ∈ t, key x = key r) ∨ (s ∈ t ∧ key s ≠ key r) := by
  simp only [mem_def, save, mem_map]
  constructor
  · rintro ⟨x, hx, rfl⟩
    by_cases hk : key x = key r
    · exact Or.inl ⟨if_pos hk, x, hx, hk⟩
    · rw [if_neg hk]
      exact Or.inr ⟨hx, hk⟩
  · rintro (⟨rfl, x, hx, hk⟩ | ⟨hs, hk⟩)
    · exact ⟨x, hx, if_pos hk⟩
    · exact ⟨s, hs, if_neg hk⟩

theorem eq_or_mem_of_mem_save (h : s ∈ t.save r) : s = r ∨ s ∈ t := by
  rcases mem_save.mp h with ⟨rfl, _⟩ | ⟨hs, _⟩
  · exact Or.inl rfl
  · exact Or.inr hs

theorem find?_save_self (hk : key r = k) (h : t.find? k = some s) :
    (t.save r).find? k = some r := by
  have hs : key s = key r := (key_of_find? h).trans hk.symm
  exact find?_eq_some.mpr ⟨mem_save.mpr (Or.inl ⟨rfl, s, mem_of_find? h, hs⟩), hk⟩

theorem find?_save_of_ne (h : k ≠ key r) : (t.save r).find? k = t.find? k := by
  cases ht : t.find? k with
  | none =>
    rw [find?_eq_none] at ht ⊢
    intro s hs hsk
    rcases mem_save.mp hs with ⟨rfl, _⟩ | ⟨hs, _⟩
    · exact h hsk.symm
    · exact ht s hs hsk
  | some s =>
    obtain ⟨hs, hsk⟩ := find?_eq_some.mp ht
    exact find?_eq_some.mpr ⟨mem_save.mpr (Or.inr ⟨hs, hsk ▸ h⟩), hsk⟩

theorem save_eq_self (h : t.find? (key r) = some r) : t.save r = t := by
  apply ext
  conv_rhs => rw [← map_id t.rows]
  apply map_congr_left
  intro s hs
  by_cases hk : key s = key r
  · simp only [if_pos hk, id]
    exact eq_of_key (mem_of_find? h) hs hk.symm
  · simp only [if_neg hk, id]

theorem save_save (h : key r = key s) : (t.save r).save s = t.save s := by
  apply ext
  simp only [save, map_map]
  apply map_congr_left
  intro x _
  by_cases hk : key x = key r
  · simp [hk, h]
  · simp [hk, h ▸ hk]

/-- `UPDATE … SET * = r WHERE key = key r AND p`: the table and whether a row was affected. -/
def saveWhere (t : Table key) (p : R → Bool) (r : R) : Table key × Bool :=
  match t.find? (key r) with
  | some s => if p s then (t.save r, true) else (t, false)
  | none => (t, false)

theorem saveWhere_cases (t : Table key) (p : R → Bool) (r : R) :
    t.saveWhere p r = (t, false) ∨
      ∃ s, t.find? (key r) = some s ∧ p s = true ∧ t.saveWhere p r = (t.save r, true) := by
  unfold saveWhere
  split
  · rename_i s hs
    by_cases hp : p s = true
    · exact Or.inr ⟨s, hs, hp, if_pos hp⟩
    · exact Or.inl (if_neg hp)
  · exact Or.inl rfl

/-! ## Inserting a row -/

/-- `INSERT`, which a unique index refuses when the key is taken. -/
def create (t : Table key) (r : R) : Option (Table key) :=
  if h : t.find? (key r) = none then
    some ⟨t.rows ++ [r], by
      rw [map_append, nodup_append]
      refine ⟨t.nodup, by simp, ?_⟩
      intro k hk k' hk'
      obtain ⟨s, hs, rfl⟩ := mem_map.mp hk
      obtain rfl : k' = key r := by simpa using hk'
      exact find?_eq_none.mp h s hs⟩
  else none

theorem create_of_fresh (h : t.find? (key r) = none) :
    ∃ u, t.create r = some u ∧ ∀ s, s ∈ u ↔ s = r ∨ s ∈ t := by
  refine ⟨_, dif_pos h, ?_⟩
  intro s
  simp [mem_def, or_comm]

theorem mem_create (h : t.create r = some u) : s ∈ u ↔ s = r ∨ s ∈ t := by
  unfold create at h
  split at h
  · cases h
    simp [mem_def, or_comm]
  · cases h

theorem rows_create (h : t.create r = some u) : u.rows = t.rows ++ [r] := by
  unfold create at h
  split at h
  · cases h
    rfl
  · cases h

theorem find?_create_self (h : t.create r = some u) : u.find? (key r) = some r :=
  find?_eq_some.mpr ⟨(mem_create h).mpr (Or.inl rfl), rfl⟩

theorem find?_create_of_ne (h : t.create r = some u) (hk : k ≠ key r) : u.find? k = t.find? k := by
  unfold find?
  rw [rows_create h, find?_append]
  simp [Ne.symm hk]

end Table

/-! ## Further unique indexes -/

section

variable {K R : Type*} {k : R → Option K} {l : List R}

/-- A unique index on a column that may be null: no two rows share a value of it. -/
def UniqueOn (k : R → Option K) (l : List R) : Prop :=
  ∀ a ∈ l, ∀ b ∈ l, k a ≠ none → k a = k b → a = b

theorem UniqueOn.eq {a b : R} {v : K} (h : UniqueOn k l) (ha : a ∈ l) (hb : b ∈ l)
    (hka : k a = some v) (hkb : k b = some v) : a = b := by
  refine h a ha b hb ?_ (hka.trans hkb.symm)
  rw [hka]
  exact Option.some_ne_none v

theorem UniqueOn.nil : UniqueOn k [] := by
  intro a ha
  cases ha

theorem length_filter_le_one {p : R → Bool} (hNodup : l.Nodup)
    (h : ∀ a ∈ l, ∀ b ∈ l, p a = true → p b = true → a = b) : (l.filter p).length ≤ 1 := by
  have hDistinct := hNodup.filter p
  have hMem : ∀ a ∈ l.filter p, a ∈ l ∧ p a = true := fun a ha => mem_filter.mp ha
  generalize l.filter p = m at hDistinct hMem ⊢
  match m, hDistinct, hMem with
  | [], _, _ => exact Nat.zero_le 1
  | [a], _, _ => exact le_refl 1
  | a :: b :: rest, hDistinct, hMem =>
    obtain ⟨ha, hpa⟩ := hMem a (by simp)
    obtain ⟨hb, hpb⟩ := hMem b (by simp)
    have hEq : a = b := h a ha b hb hpa hpb
    simp [hEq] at hDistinct

theorem UniqueOn.map (h : UniqueOn k l) {g : R → R} (hg : ∀ a, k (g a) = k a ∨ k (g a) = none) :
    UniqueOn k (l.map g) := by
  intro a' ha' b' hb' hNull hEq
  obtain ⟨a, ha, rfl⟩ := mem_map.mp ha'
  obtain ⟨b, hb, rfl⟩ := mem_map.mp hb'
  have hka : k (g a) = k a := (hg a).resolve_right hNull
  have hkb : k (g b) = k b := (hg b).resolve_right (hEq ▸ hNull)
  rw [hka] at hNull
  rw [hka, hkb] at hEq
  rw [h a ha b hb hNull hEq]

theorem UniqueOn.append_singleton (h : UniqueOn k l) {r : R}
    (hr : k r = none ∨ ∀ a ∈ l, k a ≠ k r) : UniqueOn k (l ++ [r]) := by
  intro a ha b hb hNull hEq
  rw [mem_append, mem_singleton] at ha hb
  rcases ha with ha | rfl
  · rcases hb with hb | rfl
    · exact h a ha b hb hNull hEq
    · rcases hr with hr | hr
      · exact absurd (hEq.trans hr) hNull
      · exact absurd hEq (hr a ha)
  · rcases hb with hb | rfl
    · rcases hr with hr | hr
      · exact absurd hr hNull
      · exact absurd hEq.symm (hr b hb)
    · rfl

end

/-- A table with a further unique column. -/
structure Indexed {K V R : Type*} (key : R → K) (index : R → V) extends Table key where
  unique : UniqueOn (fun r => some (index r)) rows

namespace Indexed

variable {K V R : Type*} {key : R → K} {index : R → V}

/-- What an update may set: neither of the unique columns. -/
structure Edit (key : R → K) (index : R → V) where
  set : R → R
  key_set : ∀ r, key (set r) = key r
  index_set : ∀ r, index (set r) = index r

/-- `UPDATE … SET e WHERE p`. -/
def update (t : Indexed key index) (p : R → Bool) (e : Edit key index) : Indexed key index where
  toTable := t.toTable.modify p e.set e.key_set
  unique := by
    apply t.unique.map
    intro r
    left
    split
    · rw [e.index_set]
    · rfl

variable {t : Indexed key index}

theorem mem_update {p : R → Bool} {e : Edit key index} {s : R} :
    s ∈ (t.update p e).rows ↔ ∃ r ∈ t.rows, s = if p r then e.set r else r :=
  Table.mem_modify e.key_set

theorem mem_update_of_not {p : R → Bool} {e : Edit key index} {q : R → Prop}
    (hp : ∀ r ∈ t.rows, p r = true → q r) (hq : ∀ r, q r → q (e.set r)) {s : R} (hs : ¬q s) :
    s ∈ (t.update p e).rows ↔ s ∈ t.rows := by
  rw [mem_update]
  constructor
  · rintro ⟨r, hr, rfl⟩
    split at hs
    · rename_i hpr
      exact absurd (hq r (hp r hr hpr)) hs
    · rename_i hpr
      rwa [if_neg hpr]
  · intro hMem
    refine ⟨s, hMem, ?_⟩
    rw [if_neg]
    exact fun hps => hs (hp s hMem hps)

theorem eq_of_index {r s : R} (hr : r ∈ t.rows) (hs : s ∈ t.rows) (h : index r = index s) : r = s :=
  t.unique.eq hr hs rfl (congrArg some h.symm)

theorem eq_of_key {r s : R} (hr : r ∈ t.rows) (hs : s ∈ t.rows) (h : key r = key s) : r = s :=
  Table.eq_of_key (t := t.toTable) hr hs h

variable [DecidableEq V]

section

variable [DecidableEq K]

/-- `INSERT`, which either unique column may refuse. -/
def insert (t : Indexed key index) (r : R) : Option (Indexed key index) :=
  if h : (∀ s ∈ t.rows, key s ≠ key r) ∧ ∀ s ∈ t.rows, index s ≠ index r then
    some
      { rows := t.rows ++ [r]
        nodup := by
          rw [map_append, nodup_append]
          refine ⟨t.nodup, by simp, ?_⟩
          intro k hk k' hk'
          obtain ⟨s, hs, rfl⟩ := mem_map.mp hk
          obtain rfl : k' = key r := by simpa using hk'
          exact h.1 s hs
        unique := by
          apply t.unique.append_singleton
          right
          intro s hs hEq
          exact h.2 s hs (Option.some.inj hEq) }
  else none

theorem rows_insert {t u : Indexed key index} {r : R} (h : t.insert r = some u) :
    u.rows = t.rows ++ [r] := by
  unfold insert at h
  split at h
  · cases h
    rfl
  · cases h

theorem insert_eq_some {t : Indexed key index} {r : R} (hKey : ∀ s ∈ t.rows, key s ≠ key r)
    (hIndex : ∀ s ∈ t.rows, index s ≠ index r) : ∃ u, t.insert r = some u := by
  unfold insert
  rw [dif_pos ⟨hKey, hIndex⟩]
  exact ⟨_, rfl⟩

end

/-- The row with the value in the further unique column. -/
def findIndex? (t : Indexed key index) (v : V) : Option R := t.rows.find? fun r => index r = v

theorem findIndex?_eq_some {v : V} {r : R} :
    t.findIndex? v = some r ↔ r ∈ t.rows ∧ index r = v := by
  constructor
  · intro h
    exact ⟨mem_of_find?_eq_some h,
      of_decide_eq_true (find?_some (p := fun r => decide (index r = v)) h)⟩
  · rintro ⟨hr, rfl⟩
    cases hFind : t.findIndex? (index r) with
    | none =>
      rw [findIndex?, find?_eq_none] at hFind
      exact absurd (decide_eq_true rfl) (hFind r hr)
    | some s =>
      have hs : s ∈ t.rows := mem_of_find?_eq_some hFind
      have hIndex : index s = index r :=
        of_decide_eq_true (find?_some (p := fun s => decide (index s = index r)) hFind)
      rw [eq_of_index hs hr hIndex]

theorem findIndex?_eq_none {v : V} : t.findIndex? v = none ↔ ∀ r ∈ t.rows, index r ≠ v := by
  simp [findIndex?]

theorem findIndex?_update (t : Indexed key index) (p : R → Bool) (e : Edit key index) (v : V) :
    (t.update p e).findIndex? v = (t.findIndex? v).map fun r => if p r then e.set r else r := by
  have hIndex : ∀ r, index (if p r then e.set r else r) = index r := by
    intro r
    split
    · exact e.index_set r
    · rfl
  simp only [findIndex?, update, Table.modify, find?_map, Function.comp_def, hIndex]

variable {u : Indexed key index}

theorem findIndex?_insert_self [DecidableEq K] {r : R} (h : t.insert r = some u) :
    u.findIndex? (index r) = some r := by
  rw [findIndex?_eq_some, rows_insert h]
  exact ⟨mem_append_right _ (mem_singleton.mpr rfl), rfl⟩

theorem findIndex?_insert_of_ne [DecidableEq K] {r : R} (h : t.insert r = some u) {v : V}
    (hv : index r ≠ v) : u.findIndex? v = t.findIndex? v := by
  unfold findIndex?
  rw [rows_insert h, find?_append]
  simp [hv]

theorem findIndex?_of_insert [DecidableEq K] {r : R} (h : t.insert r = some u) :
    t.findIndex? (index r) = none := by
  unfold insert at h
  split at h
  · rename_i hFree
    exact findIndex?_eq_none.mpr hFree.2
  · cases h

end Indexed

def nextId (ids : List Int) : Int := ids.foldr max 0 + 1

theorem lt_nextId {ids : List Int} {i : Int} (h : i ∈ ids) : i < nextId ids := by
  have hMax : ∀ l : List Int, i ∈ l → i ≤ l.foldr max 0 := by
    intro l
    induction l with
    | nil =>
      intro hMem
      cases hMem
    | cons j l ih =>
      intro hMem
      rw [foldr_cons]
      rcases mem_cons.mp hMem with rfl | hTail
      · exact le_max_left _ _
      · exact le_trans (ih hTail) (le_max_right _ _)
  have hLe := hMax ids h
  unfold nextId
  omega

theorem nextId_pos (ids : List Int) : 0 < nextId ids := by
  have hNonneg : ∀ l : List Int, 0 ≤ l.foldr max 0 := by
    intro l
    induction l with
    | nil => exact le_refl 0
    | cons j l ih => exact le_trans ih (le_max_right _ _)
  have hLe := hNonneg ids
  unfold nextId
  omega

/-! ## `ORDER BY … DESC LIMIT 1` -/

section

variable {R : Type*} {r : R → R → Prop} [DecidableRel r] {l : List R} {x : R}

theorem mem_of_getLast?_insertionSort (h : (l.insertionSort r).getLast? = some x) : x ∈ l :=
  (mem_insertionSort r).mp (mem_of_getLast? h)

variable [Std.Total r] [IsTrans R r]

theorem le_of_getLast?_insertionSort (h : (l.insertionSort r).getLast? = some x) {y : R}
    (hy : y ∈ l) : r y x := by
  obtain ⟨front, hFront⟩ := getLast?_eq_some_iff.mp h
  have hSorted := pairwise_insertionSort r l
  have hMem : y ∈ l.insertionSort r := (mem_insertionSort r).mpr hy
  rw [hFront] at hSorted hMem
  rcases mem_append.mp hMem with hy' | hy'
  · exact (pairwise_append.mp hSorted).2.2 y hy' x (mem_singleton.mpr rfl)
  · rw [mem_singleton.mp hy']
    exact (Std.Total.total x x).elim id id

theorem getLast?_insertionSort (hx : x ∈ l) (hLast : ∀ y ∈ l, r x y → y = x) :
    (l.insertionSort r).getLast? = some x := by
  have hMem : x ∈ l.insertionSort r := (mem_insertionSort r).mpr hx
  cases hEnd : (l.insertionSort r).getLast? with
  | none =>
    rw [getLast?_eq_none_iff.mp hEnd] at hMem
    cases hMem
  | some y =>
    rw [hLast y (mem_of_getLast?_insertionSort hEnd) (le_of_getLast?_insertionSort hEnd hx)]

end

/-! ## `GROUP BY` -/

theorem flatMap_filter_perm {K R : Type*} [DecidableEq K] {key : R → K} {keys : List K}
    {l : List R} (hNodup : keys.Nodup) (hCovers : ∀ x ∈ l, key x ∈ keys) :
    (keys.flatMap fun k => l.filter fun x => key x = k).Perm l := by
  induction keys generalizing l with
  | nil =>
    cases l with
    | nil => exact List.Perm.refl _
    | cons x l => cases hCovers x mem_cons_self
  | cons k keys ih =>
    obtain ⟨hNotMem, hNodup⟩ := nodup_cons.mp hNodup
    -- what is left without the rows of the first key is covered by the other keys
    have hRest : ∀ x ∈ l.filter (fun x => !decide (key x = k)), key x ∈ keys := by
      intro x hx
      obtain ⟨hxl, hne⟩ := mem_filter.mp hx
      refine (mem_cons.mp (hCovers x hxl)).resolve_left ?_
      simpa using hne
    have hOthers : (keys.flatMap fun k' => l.filter fun x => key x = k') =
        keys.flatMap fun k' =>
          (l.filter fun x => !decide (key x = k)).filter fun x => key x = k' := by
      rw [flatMap_congr]
      intro k' hk'
      have hne : k' ≠ k := by
        rintro rfl
        exact hNotMem hk'
      rw [filter_filter]
      apply filter_congr
      intro x _
      by_cases hx : key x = k'
      · simp [hx, hne]
      · simp [hx]
    rw [flatMap_cons, hOthers]
    exact ((ih hNodup hRest).append_left _).trans (filter_append_perm _ l)

end Qapi.Core
