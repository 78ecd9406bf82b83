import Qapi.Core.Agents
import Qapi.Core.Machine
import Qapi.Core.Table

/-!
# Batched quota updates

`model/utils.go`: changes of quotas are added up in one map per kind of change, each under
a lock of its own, and a pass now and then swaps the maps out and writes their contents to
the database. The changes of a user are merged and written in one statement. While a pass
writes, other goroutines add new changes to the new maps; several passes may be under way.

For every row the stored value, what waits in the maps and what a pass has taken and not
written add up to what they were plus everything that was submitted.
-/

namespace Qapi.BatchUpdate

open Qapi.Core Function Table Option

/-! ## Maps of changes -/

/-- An entry of a `map[int]int`. -/
structure Record where
  id : Int
  value : Int
deriving DecidableEq, Repr

/-- `map[int]int`. -/
abbrev Store := Table Record.id

/-- `store[id]`, zero where there is no entry. -/
def amount (store : Store) (id : Int) : Int := ((store.find? id).map Record.value).getD 0

/-- The body of `addNewRecord`. -/
def addRecord (store : Store) (id value : Int) : Store :=
  match store.find? id with
  | none => (store.create ⟨id, value⟩).getD store
  | some r => store.save ⟨id, r.value + value⟩

def removeRecord (store : Store) (id : Int) : Store := store.delete fun r => r.id = id

@[simp]
theorem amount_empty (id : Int) : amount .empty id = 0 := rfl

theorem amount_add (store : Store) (id value other : Int) :
    amount (addRecord store id value) other =
      amount store other + if other = id then value else 0 := by
  unfold amount addRecord
  cases hFind : store.find? id with
  | none =>
    obtain ⟨store', hCreate, _⟩ := create_of_fresh (r := (⟨id, value⟩ : Record)) hFind
    rw [hCreate, getD_some]
    by_cases hOther : other = id
    · subst hOther
      rw [find?_create_self hCreate, hFind]
      simp
    · rw [find?_create_of_ne hCreate hOther]
      simp [hOther]
  | some r =>
    by_cases hOther : other = id
    · subst hOther
      rw [find?_save_self rfl hFind, hFind]
      simp
    · rw [find?_save_of_ne hOther]
      simp [hOther]

theorem amount_remove (store : Store) (id other : Int) :
    amount (removeRecord store id) other = if other = id then 0 else amount store other := by
  have hMem : ∀ r : Record, r ∈ removeRecord store id ↔ r ∈ store ∧ r.id ≠ id := by
    intro r
    simp [removeRecord, mem_delete]
  unfold amount
  split
  next hSame =>
    have hNone : (removeRecord store id).find? other = none := by
      rw [find?_eq_none]
      intro r hr hId
      exact ((hMem r).mp hr).2 (hId.trans hSame)
    rw [hNone]
    rfl
  next hOther =>
    cases hFind : store.find? other with
    | none =>
      have hNone : (removeRecord store id).find? other = none := by
        rw [find?_eq_none] at hFind ⊢
        exact fun r hr => hFind r ((hMem r).mp hr).1
      rw [hNone]
    | some r =>
      obtain ⟨hr, hId⟩ := find?_eq_some.mp hFind
      have hKept : (removeRecord store id).find? other = some r :=
        find?_eq_some.mpr ⟨(hMem r).mpr ⟨hr, hId ▸ hOther⟩, hId⟩
      rw [hKept]

/-! ## The database -/

structure User where
  quota : Int
  usedQuota : Int
  requestCount : Int
deriving DecidableEq, Repr

structure Token where
  remainQuota : Int
  usedQuota : Int
deriving DecidableEq, Repr

structure Db where
  users : Int → Option User
  tokens : Int → Option Token
  channels : Int → Option Int

/-- `UPDATE … WHERE id = ?`: a row that is not there is not changed. -/
def updateRow {R : Type} (rows : Int → Option R) (id : Int) (f : R → R) (other : Int) : Option R :=
  if other = id then (rows other).map f else rows other

def Db.increaseTokenQuota (db : Db) (id quota : Int) : Db :=
  { db with tokens := updateRow db.tokens id fun t =>
      ⟨t.remainQuota + quota, t.usedQuota - quota⟩ }

def Db.decreaseTokenQuota (db : Db) (id quota : Int) : Db :=
  { db with tokens := updateRow db.tokens id fun t =>
      ⟨t.remainQuota - quota, t.usedQuota + quota⟩ }

def Db.increaseUserQuota (db : Db) (id quota : Int) : Db :=
  { db with users := updateRow db.users id fun u => { u with quota := u.quota + quota } }

def Db.decreaseUserQuota (db : Db) (id quota : Int) : Db :=
  { db with users := updateRow db.users id fun u => { u with quota := u.quota - quota } }

def Db.updateChannelUsedQuota (db : Db) (id quota : Int) : Db :=
  { db with channels := updateRow db.channels id fun used => used + quota }

def Db.updateUserQuotaUsedQuotaAndRequestCount (db : Db) (id quota usedQuota requestCount : Int) :
    Db :=
  if quota = 0 ∧ usedQuota = 0 ∧ requestCount = 0 then db
  else { db with users := updateRow db.users id fun u =>
      ⟨u.quota + quota, u.usedQuota + usedQuota, u.requestCount + requestCount⟩ }

/-- A change of a token's remaining quota made elsewhere, for instance by its owner. -/
def Db.editToken (db : Db) (id remainQuota : Int) : Db :=
  { db with tokens := updateRow db.tokens id fun t => { t with remainQuota := remainQuota } }

/-! ## The batch updater -/

/-- The kinds of changes, in the order of their constants. -/
inductive Kind
  | userQuota
  | tokenQuota
  | usedQuota
  | channelUsedQuota
  | requestCount
deriving DecidableEq, Repr

def Kind.index : Kind → Nat
  | .userQuota => 0
  | .tokenQuota => 1
  | .usedQuota => 2
  | .channelUsedQuota => 3
  | .requestCount => 4

def Kind.ofIndex : Nat → Option Kind
  | 0 => some .userQuota
  | 1 => some .tokenQuota
  | 2 => some .usedQuota
  | 3 => some .channelUsedQuota
  | 4 => some .requestCount
  | _ => none

theorem Kind.ofIndex_eq_some {i : Nat} {k : Kind} : Kind.ofIndex i = some k ↔ k.index = i := by
  constructor
  · intro h
    unfold Kind.ofIndex at h
    split at h <;> cases h <;> rfl
  · rintro rfl
    cases k <;> rfl

theorem Kind.index_lt_of_ofIndex : ∀ {i : Nat}, Kind.ofIndex i = none → ∀ k : Kind, k.index < i
  | 0, h | 1, h | 2, h | 3, h | 4, h => by cases h
  | i + 5, _ => fun k => by cases k <;> simp only [Kind.index] <;> omega

def Db.stored (db : Db) (k : Kind) (id : Int) : Option Int :=
  match k with
  | .userQuota => (db.users id).map User.quota
  | .tokenQuota => (db.tokens id).map Token.remainQuota
  | .usedQuota => (db.users id).map User.usedQuota
  | .channelUsedQuota => db.channels id
  | .requestCount => (db.users id).map User.requestCount

/-- Where a pass of `batchUpdate` is, with the maps it has taken: it looks for data, takes
the maps from `i` on, writes the tokens and the channels, and then the users. -/
inductive Pass
  | idle
  | checking (i : Nat)
  | taking (i : Nat) (taken : Kind → Store)
  | writing (taken : Kind → Store)
  | merging (taken : Kind → Store)

structure State (T : Type) where
  db : Db
  stores : Kind → Store
  passes : T → Pass

inductive Call
  | addNewRecord (kind : Kind) (id value : Int)
  | increaseTokenQuota (id quota : Int)
  | decreaseTokenQuota (id quota : Int)
  | increaseUserQuota (id quota : Int) (db : Bool)
  | decreaseUserQuota (id quota : Int) (db : Bool)
deriving DecidableEq, Repr

/-- A call, a change made elsewhere, or the next step of a pass; `key` is the entry that the
pass comes to when it ranges over a map. -/
inductive Action (T : Type)
  | call (c : Call)
  | editToken (id remainQuota : Int)
  | pass (t : T) (key : Int)

/-- `addNewRecord`, under the lock of its kind. -/
def addNewRecord (stores : Kind → Store) (k : Kind) (id value : Int) : Kind → Store :=
  update stores k (addRecord (stores k) id value)

variable {T : Type}

/-- A change goes to the map of its kind when updates are batched, and to the database
otherwise. -/
def submit (batch : Bool) (s : State T) (k : Kind) (id value : Int) (direct : Db) : State T :=
  if batch then { s with stores := addNewRecord s.stores k id value } else { s with db := direct }

def callStep (batchUpdateEnabled : Bool) (s : State T) : Call → State T
  | .addNewRecord k id value => { s with stores := addNewRecord s.stores k id value }
  | .increaseTokenQuota id quota =>
    if quota < 0 then s
    else submit batchUpdateEnabled s .tokenQuota id quota (s.db.increaseTokenQuota id quota)
  | .decreaseTokenQuota id quota =>
    if quota < 0 then s
    else submit batchUpdateEnabled s .tokenQuota id (-quota) (s.db.decreaseTokenQuota id quota)
  | .increaseUserQuota id quota db =>
    if quota < 0 then s
    else submit (!db && batchUpdateEnabled) s .userQuota id quota (s.db.increaseUserQuota id quota)
  | .decreaseUserQuota id quota db =>
    if quota < 0 then s
    else submit (!db && batchUpdateEnabled) s .userQuota id (-quota)
      (s.db.decreaseUserQuota id quota)

/-- The next step of a pass that writes the tokens and then the channels. -/
def writeNext (db : Db) (taken : Kind → Store) (key : Int) : Db × Pass :=
  if (taken .tokenQuota).rows ≠ [] then
    match (taken .tokenQuota).find? key with
    | none => (db, .writing taken)
    | some r => (db.increaseTokenQuota key r.value,
        .writing (update taken .tokenQuota (removeRecord (taken .tokenQuota) key)))
  else if (taken .channelUsedQuota).rows ≠ [] then
    match (taken .channelUsedQuota).find? key with
    | none => (db, .writing taken)
    | some r => (db.updateChannelUsedQuota key r.value,
        .writing (update taken .channelUsedQuota
          (removeRecord (taken .channelUsedQuota) key)))
  else (db, .merging taken)

def Kind.ofUser : Kind → Bool
  | .userQuota | .usedQuota | .requestCount => true
  | .tokenQuota | .channelUsedQuota => false

/-- The next step of a pass that writes the users. -/
def mergeNext (db : Db) (taken : Kind → Store) (key : Int) : Db × Pass :=
  if (taken .userQuota).rows = [] ∧ (taken .usedQuota).rows = [] ∧ (taken .requestCount).rows = []
  then (db, .idle)
  else (db.updateUserQuotaUsedQuotaAndRequestCount key (amount (taken .userQuota) key)
      (amount (taken .usedQuota) key) (amount (taken .requestCount) key),
    .merging fun k => if k.ofUser then removeRecord (taken k) key else taken k)

def passStep (db : Db) (stores : Kind → Store) (key : Int) : Pass → Db × (Kind → Store) × Pass
  | .idle => (db, stores, .checking 0)
  | .checking i =>
    match Kind.ofIndex i with
    | none => (db, stores, .idle)
    | some k =>
      if (stores k).rows ≠ [] then (db, stores, .taking 0 fun _ => .empty)
      else (db, stores, .checking (i + 1))
  | .taking i taken =>
    match Kind.ofIndex i with
    | none => (db, stores, .writing taken)
    | some k => (db, update stores k .empty,
        .taking (i + 1) (update taken k (stores k)))
  | .writing taken => ((writeNext db taken key).1, stores, (writeNext db taken key).2)
  | .merging taken => ((mergeNext db taken key).1, stores, (mergeNext db taken key).2)

variable [DecidableEq T]

def step (batchUpdateEnabled : Bool) (s : State T) : Action T → State T
  | .call c => callStep batchUpdateEnabled s c
  | .editToken id remainQuota => { s with db := s.db.editToken id remainQuota }
  | .pass t key =>
    let r := passStep s.db s.stores key (s.passes t)
    ⟨r.1, r.2.1, update s.passes t r.2.2⟩

/-! ## What the statements write -/

section

omit [DecidableEq T]

/-- An update that adds to a column adds to what is stored in the row. -/
theorem updateRow_map {R : Type} (rows : Int → Option R) (id other : Int) (f : R → R) (g : R → Int)
    {d : Int} (hf : ∀ r, g (f r) = g r + d) :
    (updateRow rows id f other).map g = ((rows other).map g).map (· + if other = id then d else 0) := by
  unfold updateRow
  split
  · simp [comp_def, hf]
  · simp [comp_def]

/-- A statement adds a value to the column of a kind in one row. -/
def Adds (db db' : Db) (k : Kind) (id value : Int) : Prop :=
  db'.stored k id = (db.stored k id).map (· + value)

theorem adds_nothing {db db' : Db} {k : Kind} {id value : Int} (h : db'.stored k id = db.stored k id)
    (hValue : value = 0) : Adds db db' k id value := by
  subst hValue
  simp [Adds, h]

def userChange (quota usedQuota requestCount : Int) : Kind → Int
  | .userQuota => quota
  | .usedQuota => usedQuota
  | .requestCount => requestCount
  | .tokenQuota | .channelUsedQuota => 0

def single (kind : Kind) (value : Int) (k : Kind) : Int := if k = kind then value else 0

variable (db : Db) (id : Int) (k : Kind) (other : Int)

theorem adds_users (f : User → User) {q u c : Int} (hq : ∀ r, (f r).quota = r.quota + q)
    (hu : ∀ r, (f r).usedQuota = r.usedQuota + u)
    (hc : ∀ r, (f r).requestCount = r.requestCount + c) :
    Adds db { db with users := updateRow db.users id f } k other
      (if other = id then userChange q u c k else 0) := by
  cases k with
  | userQuota => exact updateRow_map db.users id other f User.quota hq
  | usedQuota => exact updateRow_map db.users id other f User.usedQuota hu
  | requestCount => exact updateRow_map db.users id other f User.requestCount hc
  | tokenQuota | channelUsedQuota => exact adds_nothing rfl (ite_self 0)

theorem adds_tokens (f : Token → Token) {q : Int} (hf : ∀ t, (f t).remainQuota = t.remainQuota + q) :
    Adds db { db with tokens := updateRow db.tokens id f } k other
      (if other = id then single .tokenQuota q k else 0) := by
  cases k with
  | tokenQuota => exact updateRow_map db.tokens id other f Token.remainQuota hf
  | userQuota | usedQuota | requestCount | channelUsedQuota => exact adds_nothing rfl (ite_self 0)

theorem adds_channels (q : Int) :
    Adds db (db.updateChannelUsedQuota id q) k other
      (if other = id then single .channelUsedQuota q k else 0) := by
  cases k with
  | channelUsedQuota =>
    have hRow := updateRow_map db.channels id other (fun used => used + q) (fun used => used)
      (d := q) fun _ => rfl
    simpa [Adds, Db.stored, Db.updateChannelUsedQuota, single] using hRow
  | userQuota | usedQuota | requestCount | tokenQuota => exact adds_nothing rfl (ite_self 0)

theorem userChange_quota (q : Int) : userChange q 0 0 = single .userQuota q := by
  funext k
  cases k <;> rfl

/-- The statements behind the four calls add what the calls submit. -/
theorem adds_increaseTokenQuota (quota : Int) : Adds db (db.increaseTokenQuota id quota) k other
    (if other = id then single .tokenQuota quota k else 0) :=
  adds_tokens db id k other _ fun _ => rfl

theorem adds_decreaseTokenQuota (quota : Int) : Adds db (db.decreaseTokenQuota id quota) k other
    (if other = id then single .tokenQuota (-quota) k else 0) :=
  adds_tokens db id k other _ fun _ => sub_eq_add_neg _ _

theorem adds_increaseUserQuota (quota : Int) : Adds db (db.increaseUserQuota id quota) k other
    (if other = id then single .userQuota quota k else 0) := by
  rw [← userChange_quota]
  exact adds_users db id k other _ (fun _ => rfl) (fun _ => (add_zero _).symm)
    fun _ => (add_zero _).symm

theorem adds_decreaseUserQuota (quota : Int) : Adds db (db.decreaseUserQuota id quota) k other
    (if other = id then single .userQuota (-quota) k else 0) := by
  rw [← userChange_quota]
  exact adds_users db id k other _ (fun _ => sub_eq_add_neg _ _) (fun _ => (add_zero _).symm)
    fun _ => (add_zero _).symm

theorem adds_merged (q u c : Int) :
    Adds db (db.updateUserQuotaUsedQuotaAndRequestCount id q u c) k other
      (if other = id then userChange q u c k else 0) := by
  unfold Db.updateUserQuotaUsedQuotaAndRequestCount
  split
  next hNothing =>
    obtain ⟨rfl, rfl, rfl⟩ := hNothing
    have hZero : userChange 0 0 0 k = 0 := by cases k <;> rfl
    rw [hZero, ite_self]
    exact adds_nothing rfl rfl
  next => exact adds_users db id k other _ (fun _ => rfl) (fun _ => rfl) fun _ => rfl

end

/-! ## What a pass holds -/

/-- What a pass has taken for a row and not written. -/
def Pass.held : Pass → Kind → Int → Int
  | .idle, _, _ => 0
  | .checking _, _, _ => 0
  | .taking i taken, k, id => if k.index < i then amount (taken k) id else 0
  | .writing taken, k, id => amount (taken k) id
  | .merging taken, k, id => if k.ofUser then amount (taken k) id else 0

theorem amount_of_rows_nil {store : Store} (h : store.rows = []) (id : Int) : amount store id = 0 := by
  simp [amount, Table.find?, h]

/-- What a step of a pass adds to the database leaves the maps. -/
def Moves (db : Db) (stores : Kind → Store) (p : Pass) (r : Db × (Kind → Store) × Pass) (k : Kind)
    (id : Int) : Prop :=
  ∃ value, Adds db r.1 k id value ∧
    value + amount (r.2.1 k) id + r.2.2.held k id = amount (stores k) id + p.held k id

section

variable (db : Db) (stores taken : Kind → Store) (key : Int) (k : Kind) (id : Int)

theorem moves_nothing {p p' : Pass} (h : p'.held k id = p.held k id) :
    Moves db stores p (db, stores, p') k id :=
  ⟨0, adds_nothing rfl rfl, by dsimp only; omega⟩

theorem moves_taking {i : Nat} {kind : Kind} (hKind : kind.index = i) :
    Moves db stores (.taking i taken)
      (db, update stores kind .empty,
        .taking (i + 1) (update taken kind (stores kind))) k id := by
  refine ⟨0, adds_nothing rfl rfl, ?_⟩
  simp only [Pass.held]
  by_cases hk : k = kind
  · subst hk
    simp [hKind]
  · have hIndex : k.index ≠ i := by
      intro h
      exact hk (some.inj ((Kind.ofIndex_eq_some.mpr h).symm.trans
        (Kind.ofIndex_eq_some.mpr hKind)))
    have hBefore : k.index < i + 1 ↔ k.index < i := by omega
    simp [update_of_ne hk, hBefore]

theorem moves_entry {kind : Kind} {r : Record} (hFind : (taken kind).find? key = some r) {db' : Db}
    (hAdds : Adds db db' k id (if id = key then single kind r.value k else 0)) :
    Moves db stores (.writing taken)
      (db', stores, .writing (update taken kind (removeRecord (taken kind) key))) k id := by
  have hAmount : amount (taken kind) key = r.value := by simp [amount, hFind]
  refine ⟨_, hAdds, ?_⟩
  simp only [Pass.held, single]
  by_cases hk : k = kind
  · subst hk
    rw [update_self, amount_remove]
    by_cases hId : id = key
    · subst hId
      simp [hAmount, add_comm]
    · simp [hId]
  · simp [hk]

theorem moves_writing :
    Moves db stores (.writing taken)
      ((writeNext db taken key).1, stores, (writeNext db taken key).2) k id := by
  unfold writeNext
  split
  next =>
    split
    next => exact moves_nothing db stores k id rfl
    next r hFind =>
      exact moves_entry db stores taken key k id hFind (adds_increaseTokenQuota db key k id r.value)
  next hTokens =>
    split
    next =>
      split
      next => exact moves_nothing db stores k id rfl
      next r hFind =>
        exact moves_entry db stores taken key k id hFind (adds_channels db key k id r.value)
    next hChannels =>
      apply moves_nothing
      cases k with
      | tokenQuota => exact (amount_of_rows_nil (not_not.mp hTokens) id).symm
      | channelUsedQuota => exact (amount_of_rows_nil (not_not.mp hChannels) id).symm
      | userQuota => rfl
      | usedQuota => rfl
      | requestCount => rfl

theorem moves_merging :
    Moves db stores (.merging taken)
      ((mergeNext db taken key).1, stores, (mergeNext db taken key).2) k id := by
  unfold mergeNext
  split
  next hEmpty =>
    obtain ⟨hQuota, hUsed, hCount⟩ := hEmpty
    apply moves_nothing
    cases k with
    | userQuota => exact (amount_of_rows_nil hQuota id).symm
    | usedQuota => exact (amount_of_rows_nil hUsed id).symm
    | requestCount => exact (amount_of_rows_nil hCount id).symm
    | tokenQuota => rfl
    | channelUsedQuota => rfl
  next =>
    refine ⟨_, adds_merged db key k id _ _ _, ?_⟩
    by_cases hId : id = key
    · subst hId
      cases k <;> simp [Pass.held, Kind.ofUser, userChange, amount_remove, add_comm]
    · cases k <;> simp [Pass.held, Kind.ofUser, amount_remove, hId]

theorem moves_passStep (p : Pass) : Moves db stores p (passStep db stores key p) k id := by
  cases p with
  | idle => exact moves_nothing db stores k id rfl
  | checking i =>
    simp only [passStep]
    split
    next => exact moves_nothing db stores k id rfl
    next =>
      split
      next => exact moves_nothing db stores k id (by simp [Pass.held])
      next => exact moves_nothing db stores k id rfl
  | taking i taken =>
    simp only [passStep]
    split
    next hEnd =>
      apply moves_nothing
      simp [Pass.held, Kind.index_lt_of_ofIndex hEnd k]
    next kind hKind =>
      exact moves_taking db stores taken k id (Kind.ofIndex_eq_some.mp hKind)
  | writing taken => exact moves_writing db stores taken key k id
  | merging taken => exact moves_merging db stores taken key k id

end

/-! ## Conservation -/

def Call.delta (k : Kind) (id : Int) : Call → Int
  | .addNewRecord kind row value => if id = row then single kind value k else 0
  | .increaseTokenQuota row quota =>
    if quota < 0 then 0 else if id = row then single .tokenQuota quota k else 0
  | .decreaseTokenQuota row quota =>
    if quota < 0 then 0 else if id = row then single .tokenQuota (-quota) k else 0
  | .increaseUserQuota row quota _ =>
    if quota < 0 then 0 else if id = row then single .userQuota quota k else 0
  | .decreaseUserQuota row quota _ =>
    if quota < 0 then 0 else if id = row then single .userQuota (-quota) k else 0

def submitted (k : Kind) (id : Int) : Action T → Int
  | .call c => c.delta k id
  | _ => 0

/-- What an action made elsewhere changes in the remaining quota of a token. -/
def edited (id : Int) (s : State T) : Action T → Int
  | .editToken row remainQuota =>
    if id = row then remainQuota - ((s.db.tokens id).map Token.remainQuota).getD 0 else 0
  | _ => 0

section

variable [Fintype T] {k : Kind} {id : Int}

def pending (s : State T) (k : Kind) (id : Int) : Int := amount (s.stores k) id

def inFlight (s : State T) (k : Kind) (id : Int) : Int := ∑ t, (s.passes t).held k id

/-- What is stored, waits and is in flight adds up to `x`. -/
def AddsUpTo (k : Kind) (id : Int) (x : Int) (s : State T) : Prop :=
  ∃ v, s.db.stored k id = some v ∧ v + pending s k id + inFlight s k id = x

omit [DecidableEq T] in
theorem addsUpTo_of_adds {s : State T} {db' : Db} {x value : Int} (h : AddsUpTo k id x s)
    (hAdds : Adds s.db db' k id value) : AddsUpTo k id (x + value) { s with db := db' } := by
  obtain ⟨v, hStored, hSum⟩ := h
  refine ⟨v + value, ?_, ?_⟩
  · rw [hAdds, hStored]
    rfl
  · simp only [pending, inFlight] at hSum ⊢
    omega

omit [DecidableEq T] in
theorem addsUpTo_addNewRecord {s : State T} {x : Int} (h : AddsUpTo k id x s) (kind : Kind)
    (row value : Int) :
    AddsUpTo k id (x + if id = row then single kind value k else 0)
      { s with stores := addNewRecord s.stores kind row value } := by
  obtain ⟨v, hStored, hSum⟩ := h
  refine ⟨v, hStored, ?_⟩
  have hPending : amount (addNewRecord s.stores kind row value k) id =
      amount (s.stores k) id + if id = row then single kind value k else 0 := by
    unfold addNewRecord single
    by_cases hk : k = kind
    · subst hk
      simp [amount_add]
    · simp [hk]
  simp only [pending, inFlight, hPending] at hSum ⊢
  omega

omit [DecidableEq T] in
theorem addsUpTo_submit {s : State T} {x : Int} (h : AddsUpTo k id x s) (batch : Bool) (kind : Kind)
    (row value : Int) {direct : Db}
    (hDirect : Adds s.db direct k id (if id = row then single kind value k else 0)) :
    AddsUpTo k id (x + if id = row then single kind value k else 0)
      (submit batch s kind row value direct) := by
  cases batch with
  | true => exact addsUpTo_addNewRecord h kind row value
  | false => exact addsUpTo_of_adds h hDirect

omit [DecidableEq T] in
theorem addsUpTo_call {s : State T} {x : Int} (h : AddsUpTo k id x s) (batch : Bool) (c : Call) :
    AddsUpTo k id (x + c.delta k id) (callStep batch s c) := by
  cases c with
  | addNewRecord kind row value => exact addsUpTo_addNewRecord h kind row value
  | increaseTokenQuota row quota =>
    simp only [callStep, Call.delta]
    split
    · simpa using h
    · exact addsUpTo_submit h batch _ row _ (adds_increaseTokenQuota s.db row k id quota)
  | decreaseTokenQuota row quota =>
    simp only [callStep, Call.delta]
    split
    · simpa using h
    · exact addsUpTo_submit h batch _ row _ (adds_decreaseTokenQuota s.db row k id quota)
  | increaseUserQuota row quota db =>
    simp only [callStep, Call.delta]
    split
    · simpa using h
    · exact addsUpTo_submit h _ _ row _ (adds_increaseUserQuota s.db row k id quota)
  | decreaseUserQuota row quota db =>
    simp only [callStep, Call.delta]
    split
    · simpa using h
    · exact addsUpTo_submit h _ _ row _ (adds_decreaseUserQuota s.db row k id quota)

/-- What a pass does moves amounts and changes no sum. -/
theorem addsUpTo_pass {s : State T} {x : Int} (h : AddsUpTo k id x s) (batch : Bool) (t : T)
    (key : Int) : AddsUpTo k id x (step batch s (.pass t key)) := by
  obtain ⟨v, hStored, hSum⟩ := h
  obtain ⟨value, hAdds, hMoved⟩ := moves_passStep s.db s.stores key k id (s.passes t)
  have hFlight := sum_update (fun p : Pass => p.held k id) s.passes t
    (passStep s.db s.stores key (s.passes t)).2.2
  refine ⟨v + value, ?_, ?_⟩
  · simp only [step]
    rw [hAdds, hStored]
    rfl
  · simp only [step, pending, inFlight] at hSum hFlight hMoved ⊢
    omega

omit [DecidableEq T] in
theorem addsUpTo_edit {s : State T} {x : Int} (h : AddsUpTo k id x s) (row remainQuota : Int) :
    AddsUpTo k id (x + single .tokenQuota (edited id s (.editToken row remainQuota)) k)
      { s with db := s.db.editToken row remainQuota } := by
  obtain ⟨v, hStored, hSum⟩ := h
  have hNew : (s.db.editToken row remainQuota).stored k id =
      some (v + single .tokenQuota (edited id s (.editToken row remainQuota)) k) := by
    cases k with
    | tokenQuota =>
      by_cases hId : id = row
      · subst hId
        simp only [Db.stored] at hStored
        obtain ⟨token, hToken, rfl⟩ := map_eq_some_iff.mp hStored
        simp [Db.stored, Db.editToken, updateRow, edited, single, hToken]
      · simpa [Db.stored, Db.editToken, updateRow, edited, single, hId] using hStored
    | userQuota | usedQuota | requestCount | channelUsedQuota =>
      simpa [single, Db.stored, Db.editToken] using hStored
  refine ⟨_, hNew, ?_⟩
  simp only [pending, inFlight] at hSum ⊢
  omega

/-- Every action changes the sum by what it submits and by what it edits. -/
theorem addsUpTo_step {s : State T} {x : Int} (h : AddsUpTo k id x s) (batch : Bool) (a : Action T) :
    AddsUpTo k id (x + (submitted k id a + single .tokenQuota (edited id s a) k))
      (step batch s a) := by
  cases a with
  | call c => simpa [submitted, edited, single, step] using addsUpTo_call h batch c
  | editToken row remainQuota => simpa [submitted, step] using addsUpTo_edit h row remainQuota
  | pass t key => simpa [submitted, edited, single] using addsUpTo_pass h batch t key

end

/-! ## Remaining and used quota of a token -/

/-- The remaining and the used quota of a token add up to `x`. -/
def TokenSum (id : Int) (x : Int) (db : Db) : Prop :=
  ∃ t, db.tokens id = some t ∧ t.remainQuota + t.usedQuota = x

section

variable {id x : Int} {db : Db}

/-- What is added to one of the two is taken from the other. -/
theorem tokenSum_updateRow (h : TokenSum id x db) (row : Int) (f : Token → Token)
    (hf : ∀ t, (f t).remainQuota + (f t).usedQuota = t.remainQuota + t.usedQuota) :
    TokenSum id x { db with tokens := updateRow db.tokens row f } := by
  obtain ⟨t, hToken, hSum⟩ := h
  by_cases hId : id = row
  · subst hId
    exact ⟨f t, by simp [updateRow, hToken], (hf t).trans hSum⟩
  · exact ⟨t, by simp [updateRow, hId, hToken], hSum⟩

theorem tokenSum_increase (h : TokenSum id x db) (row quota : Int) :
    TokenSum id x (db.increaseTokenQuota row quota) :=
  tokenSum_updateRow h row _ fun t => by dsimp only; omega

theorem tokenSum_decrease (h : TokenSum id x db) (row quota : Int) :
    TokenSum id x (db.decreaseTokenQuota row quota) :=
  tokenSum_updateRow h row _ fun t => by dsimp only; omega

theorem tokenSum_merged (h : TokenSum id x db) (row q u c : Int) :
    TokenSum id x (db.updateUserQuotaUsedQuotaAndRequestCount row q u c) := by
  unfold Db.updateUserQuotaUsedQuotaAndRequestCount
  split
  · exact h
  · exact h

theorem tokenSum_passStep (h : TokenSum id x db) (stores : Kind → Store) (key : Int) (p : Pass) :
    TokenSum id x (passStep db stores key p).1 := by
  cases p with
  | idle => exact h
  | checking i =>
    simp only [passStep]
    split
    · exact h
    · split <;> exact h
  | taking i taken =>
    simp only [passStep]
    split <;> exact h
  | writing taken =>
    simp only [passStep, writeNext]
    split
    · split
      · exact h
      · exact tokenSum_increase h _ _
    · split
      · split <;> exact h
      · exact h
  | merging taken =>
    simp only [passStep, mergeNext]
    split
    · exact h
    · exact tokenSum_merged h _ _ _ _

omit [DecidableEq T] in
theorem tokenSum_submit {s : State T} (h : TokenSum id x s.db) (batch : Bool) (k : Kind)
    (row value : Int) {direct : Db} (hDirect : TokenSum id x direct) :
    TokenSum id x (submit batch s k row value direct).db := by
  cases batch with
  | true => exact h
  | false => exact hDirect

omit [DecidableEq T] in
theorem tokenSum_call {s : State T} (h : TokenSum id x s.db) (batch : Bool) (c : Call) :
    TokenSum id x (callStep batch s c).db := by
  cases c with
  | addNewRecord kind row value => exact h
  | increaseTokenQuota row quota =>
    simp only [callStep]
    split
    · exact h
    · exact tokenSum_submit h _ _ _ _ (tokenSum_increase h row quota)
  | decreaseTokenQuota row quota =>
    simp only [callStep]
    split
    · exact h
    · exact tokenSum_submit h _ _ _ _ (tokenSum_decrease h row quota)
  | increaseUserQuota row quota direct | decreaseUserQuota row quota direct =>
    simp only [callStep]
    split
    · exact h
    · exact tokenSum_submit h _ _ _ _ h

theorem tokenSum_step {s : State T} (h : TokenSum id x s.db) (batch : Bool) (a : Action T) :
    TokenSum id (x + edited id s a) (step batch s a).db := by
  cases a with
  | call c => simpa [edited, step] using tokenSum_call h batch c
  | editToken row remainQuota =>
    obtain ⟨t, hToken, hSum⟩ := h
    by_cases hId : id = row
    · subst hId
      refine ⟨{ t with remainQuota := remainQuota }, ?_, ?_⟩
      · simp [step, Db.editToken, updateRow, hToken]
      · simp only [edited, if_true, hToken, map_some, getD_some]
        omega
    · refine ⟨t, ?_, ?_⟩
      · simp [step, Db.editToken, updateRow, hId, hToken]
      · simpa [edited, hId] using hSum
  | pass t key => simpa [edited, step] using tokenSum_passStep h s.stores key (s.passes t)

end

def start (db : Db) : State T := ⟨db, fun _ => .empty, fun _ => .idle⟩

/-- In every interleaving of calls and passes, for every row: what is stored, what waits and
what is in flight add up to the initial value and everything that was submitted, and the
remaining and used quota of a token together change only by changes made elsewhere. -/
theorem batched_updates_conserved [Fintype T] (batchUpdateEnabled : Bool) (db : Db)
    (l : List (Action T)) :
    (∀ k id v, db.stored k id = some v →
      ∃ v', (run (step batchUpdateEnabled) (start db) l).db.stored k id = some v' ∧
        v' + pending (run (step batchUpdateEnabled) (start db) l) k id +
            inFlight (run (step batchUpdateEnabled) (start db) l) k id =
          v + (l.map (submitted k id)).sum +
            runCost (step batchUpdateEnabled) (fun s a => single .tokenQuota (edited id s a) k)
              (start db) l) ∧
      ∀ id t, db.tokens id = some t →
        ∃ t', (run (step batchUpdateEnabled) (start db) l).db.tokens id = some t' ∧
          t'.remainQuota + t'.usedQuota = t.remainQuota + t.usedQuota +
            runCost (step batchUpdateEnabled) (edited id) (start db) l := by
  constructor
  · intro k id v hStored
    have hStart : AddsUpTo k id v (start db : State T) := by
      refine ⟨v, hStored, ?_⟩
      simp [pending, inFlight, start, Pass.held]
    have hRun := runCost_invariant (I := AddsUpTo k id)
      (fun x s a h => addsUpTo_step h batchUpdateEnabled a) hStart l
    rw [runCost_add_action, ← add_assoc] at hRun
    exact hRun
  · intro id t hToken
    have hStart : TokenSum id (t.remainQuota + t.usedQuota) (start db : State T).db :=
      ⟨t, hToken, rfl⟩
    exact runCost_invariant (I := fun x (s : State T) => TokenSum id x s.db)
      (fun x s a h => tokenSum_step h batchUpdateEnabled a) hStart l

def sampleDb : Db where
  users id := if id = 1 then some ⟨1000, 0, 0⟩ else none
  tokens id := if id = 5 then some ⟨100, 0⟩ else none
  channels _ := none

def sampleRun : List (Action Unit) :=
  [.call (.decreaseTokenQuota 5 20), .pass () 0, .pass () 0, .pass () 0, .pass () 0, .pass () 0,
    .call (.decreaseTokenQuota 5 30)]

theorem sample_charges_conserved :
    ∃ v, (run (step true) (start sampleDb) sampleRun).db.stored .tokenQuota 5 = some v ∧
      v + pending (run (step true) (start sampleDb) sampleRun) .tokenQuota 5 +
        inFlight (run (step true) (start sampleDb) sampleRun) .tokenQuota 5 = 100 - 20 - 30 := by
  obtain ⟨v, hStored, hSum⟩ :=
    (batched_updates_conserved true sampleDb sampleRun).1 .tokenQuota 5 100 (by decide)
  exact ⟨v, hStored, hSum⟩

end Qapi.BatchUpdate
