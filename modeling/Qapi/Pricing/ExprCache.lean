import Qapi.Core.Machine
import Qapi.Core.Table
import Qapi.Core.Text
import Qapi.Core.Result

/-!
# The cache of compiled billing expressions

`pkg/billingexpr/compile.go`: compiled expressions are kept with the variables that they
use, under the hash of their text. Compiling, looking up the variables and clearing the
cache take the lock one after another, so the calls of any number of goroutines interleave
between their sections. A cache that is full is emptied before the next entry is stored.

A program that a call returns is one of its expression. The variables are looked up in a
section of their own after the expression has been compiled; where another call has
cleared the cache in between, an expression that uses variables is said to use none.

What compiles an expression is a parameter: it gives the syntax tree of the program.
-/

namespace Qapi.ExprCache

open Qapi.Core List Table Option

/-! ## Expressions and their variables -/

/-- `ast.Node`: an identifier, or a node of another kind with its children. -/
inductive Node
  | identifier (name : String)
  | node (kind : String) (children : List Node)

/-- A name stands at an identifier of the tree. -/
inductive Occurs (name : String) : Node → Prop
  | identifier : Occurs name (.identifier name)
  | child {kind : String} {children : List Node} {n : Node} (hMem : n ∈ children)
      (h : Occurs name n) : Occurs name (.node kind children)

mutual

/-- `extractUsedVars`: the names of the identifiers, in the order of the walk. -/
def extractUsedVars : Node → List String
  | .identifier name => [name]
  | .node _ children => extractAll children

def extractAll : List Node → List String
  | [] => []
  | n :: rest => extractUsedVars n ++ extractAll rest

end

theorem extractAll_eq (l : List Node) : extractAll l = l.flatMap extractUsedVars := by
  induction l with
  | nil => rfl
  | cons n rest ih => rw [extractAll, ih, flatMap_cons]

theorem occurs_of_mem {name : String} : ∀ n : Node, name ∈ extractUsedVars n → Occurs name n
  | .identifier other, h => by
    rw [extractUsedVars, mem_singleton] at h
    subst h
    exact .identifier
  | .node kind children, h => by
    rw [extractUsedVars, extractAll_eq, mem_flatMap] at h
    obtain ⟨n, hMem, hName⟩ := h
    exact .child hMem (occurs_of_mem n hName)

theorem mem_extractUsedVars {name : String} {n : Node} :
    name ∈ extractUsedVars n ↔ Occurs name n := by
  constructor
  · exact occurs_of_mem n
  · intro h
    induction h with
    | identifier => simp [extractUsedVars]
    | child hMem _ ih =>
      rw [extractUsedVars, extractAll_eq, mem_flatMap]
      exact ⟨_, hMem, ih⟩

def defaultExprVersion : Int := 1

def parseExprVersion (exprStr : String) : Int × String :=
  if startsWith exprStr "v1:" then (1, trimStart exprStr "v1:") else (defaultExprVersion, exprStr)

/-- The package that compiles the body of an expression, and the hash of a text. -/
structure Engine where
  compile : String → Except Err Node
  hash : String → String

def Engine.compileExpr (eng : Engine) (exprStr : String) : Except Err Node :=
  match eng.compile (parseExprVersion exprStr).2 with
  | .error e => .error (.msg ("expr compile error: " ++ e.text))
  | .ok prog => .ok prog

def Engine.Uses (eng : Engine) (exprStr name : String) : Prop :=
  ∃ prog, eng.compileExpr exprStr = .ok prog ∧ Occurs name prog

/-! ## The cache -/

def maxCacheSize : Nat := 256

/-- `cachedEntry`, with its key. -/
structure Entry where
  hash : String
  prog : Node
  usedVars : List String
  version : Int

/-- `cache[hash] = entry`. -/
def put (cache : Table Entry.hash) (entry : Entry) : Table Entry.hash :=
  (cache.create entry).getD (cache.save entry)

/-- The section of `compileFromCacheByHash` that stores an entry. -/
def store (cache : Table Entry.hash) (entry : Entry) : Table Entry.hash :=
  put (if maxCacheSize ≤ cache.rows.length then .empty else cache) entry

theorem mem_of_mem_store {cache : Table Entry.hash} {entry x : Entry} (h : x ∈ store cache entry) :
    x = entry ∨ x ∈ cache := by
  unfold store put at h
  split at h
  next =>
    cases hCreate : (Table.empty : Table Entry.hash).create entry with
    | none =>
      rw [hCreate, getD_none] at h
      exact (eq_or_mem_of_mem_save h).imp_right fun hx => absurd hx (not_mem_empty x)
    | some cache' =>
      rw [hCreate, getD_some] at h
      exact ((mem_create hCreate).mp h).imp_right fun hx => absurd hx (not_mem_empty x)
  next =>
    cases hCreate : cache.create entry with
    | none =>
      rw [hCreate, getD_none] at h
      exact eq_or_mem_of_mem_save h
    | some cache' =>
      rw [hCreate, getD_some] at h
      exact (mem_create hCreate).mp h

/-! ## The calls -/

inductive Request
  | compile (exprStr : String)
  | usedVars (exprStr : String)
  | invalidate
deriving DecidableEq, Repr

def Request.expr : Request → Option String
  | .compile e => some e
  | .usedVars e => some e
  | .invalidate => none

inductive Result
  | program (x : Except Err Node)
  | vars (names : List String)
  | cleared

inductive Phase
  | start (r : Request)
  | looking (exprStr : String)
  | storing (r : Request) (exprStr : String) (prog : Node)
  | reading (exprStr : String)
  | done (result : Result)

def Engine.entry (eng : Engine) (exprStr : String) (prog : Node) : Entry :=
  ⟨eng.hash exprStr, prog, extractUsedVars prog, (parseExprVersion exprStr).1⟩

/-- The next section of a call, with the code up to the section after it. -/
def exec (eng : Engine) (cache : Table Entry.hash) : Phase → Table Entry.hash × Phase
  | .start (.compile e) =>
    match cache.find? (eng.hash e) with
    | some entry => (cache, .done (.program (.ok entry.prog)))
    | none =>
      match eng.compileExpr e with
      | .error err => (cache, .done (.program (.error err)))
      | .ok prog => (cache, .storing (.compile e) e prog)
  | .start (.usedVars e) =>
    if e = "" then (cache, .done (.vars []))
    else
      match cache.find? (eng.hash e) with
      | some entry => (cache, .done (.vars entry.usedVars))
      | none => (cache, .looking e)
  | .start .invalidate => (.empty, .done .cleared)
  | .looking e =>
    match cache.find? (eng.hash e) with
    | some _ => (cache, .reading e)
    | none =>
      match eng.compileExpr e with
      | .error _ => (cache, .done (.vars []))
      | .ok prog => (cache, .storing (.usedVars e) e prog)
  | .storing (.usedVars _) e prog => (store cache (eng.entry e prog), .reading e)
  | .storing _ e prog => (store cache (eng.entry e prog), .done (.program (.ok prog)))
  | .reading e =>
    match cache.find? (eng.hash e) with
    | some entry => (cache, .done (.vars entry.usedVars))
    | none => (cache, .done (.vars []))
  | .done result => (cache, .done result)

structure State (T : Type) where
  cache : Table Entry.hash
  phase : T → Phase

variable {T : Type} [DecidableEq T]

def step (eng : Engine) (s : State T) (t : T) : State T :=
  let r := exec eng s.cache (s.phase t)
  ⟨r.1, Function.update s.phase t r.2⟩

def start (request : T → Request) : State T := ⟨.empty, fun t => .start (request t)⟩

/-! ## Transparency -/

/-- The result of a request as if there were no cache. -/
def Correct (eng : Engine) : Request → Result → Prop
  | .compile e, .program x => x = eng.compileExpr e
  | .usedVars e, .vars names => ∀ name, name ∈ names ↔ eng.Uses e name
  | .invalidate, .cleared => True
  | _, _ => False

/-- An entry was made for the expression of one of the requests. -/
def Entry.Correct (eng : Engine) (request : T → Request) (entry : Entry) : Prop :=
  ∃ t e prog, (request t).expr = some e ∧ eng.compileExpr e = .ok prog ∧ entry = eng.entry e prog

def DistinctHashes (eng : Engine) (request : T → Request) : Prop :=
  ∀ t u e f, (request t).expr = some e → (request u).expr = some f → eng.hash e = eng.hash f → e = f

/-- What a call knows when it comes to a section. -/
def PhaseOf (eng : Engine) (r : Request) : Phase → Prop
  | .start r' => r' = r
  | .looking e => r = .usedVars e
  | .storing r' e prog => r' = r ∧ r.expr = some e ∧ eng.compileExpr e = .ok prog
  | .reading e => r = .usedVars e
  | .done result => Correct eng r result

/-- The last lookup of a call finds the entry, or there is nothing to find in it. -/
def LookupFinds (eng : Engine) (s : State T) (t : T) : Prop :=
  match s.phase t with
  | .reading e => s.cache.find? (eng.hash e) ≠ none ∨ ∀ name, ¬ eng.Uses e name
  | _ => True

section

variable {eng : Engine} {request : T → Request}

omit [DecidableEq T] in
theorem entry_of_find? {cache : Table Entry.hash} (hCache : ∀ x ∈ cache, x.Correct eng request)
    (hDistinct : DistinctHashes eng request) {t : T} {e : String} (he : (request t).expr = some e)
    {entry : Entry} (hFind : cache.find? (eng.hash e) = some entry) :
    ∃ prog, eng.compileExpr e = .ok prog ∧ entry = eng.entry e prog := by
  obtain ⟨u, f, prog, hf, hCompile, rfl⟩ := hCache entry (mem_of_find? hFind)
  have hHash : (eng.entry f prog).hash = eng.hash e := key_of_find? hFind
  obtain rfl : f = e := hDistinct u t f e hf he hHash
  exact ⟨prog, hCompile, rfl⟩

theorem usedVars_entry {e : String} {prog : Node} (hCompile : eng.compileExpr e = .ok prog)
    (name : String) : name ∈ (eng.entry e prog).usedVars ↔ eng.Uses e name := by
  constructor
  · intro h
    exact ⟨prog, hCompile, mem_extractUsedVars.mp h⟩
  · rintro ⟨prog', hCompile', hOccurs⟩
    obtain rfl : prog = prog' := Except.ok.inj (hCompile.symm.trans hCompile')
    exact mem_extractUsedVars.mpr hOccurs

theorem not_uses_of_error {e : String} {err : Err} (hCompile : eng.compileExpr e = .error err)
    (name : String) : ¬ eng.Uses e name := by
  rintro ⟨prog, hOk, _⟩
  rw [hCompile] at hOk
  cases hOk

/-- The package refuses an empty text, so it uses no variable. -/
theorem not_uses_empty (hEmpty : ∀ prog, eng.compile "" ≠ .ok prog) (name : String) :
    ¬ eng.Uses "" name := by
  rintro ⟨prog, hCompile, _⟩
  have hBody : (parseExprVersion "").2 = "" := by decide
  unfold Engine.compileExpr at hCompile
  rw [hBody] at hCompile
  split at hCompile
  · cases hCompile
  next prog' hOk => exact hEmpty prog' hOk

/-- A section leaves correct entries behind and brings its call to a phase of its request. -/
def Sound (eng : Engine) (request : T → Request) (t : T) (r : Table Entry.hash × Phase) : Prop :=
  (∀ x ∈ r.1, x.Correct eng request) ∧ PhaseOf eng (request t) r.2

variable {cache : Table Entry.hash} {t : T}

omit [DecidableEq T] in
theorem sound_no_vars (hCache : ∀ x ∈ cache, x.Correct eng request) {e : String}
    (hr : request t = .usedVars e) (hUnused : ∀ name, ¬ eng.Uses e name) :
    Sound eng request t (cache, .done (.vars [])) := by
  refine ⟨hCache, ?_⟩
  rw [hr]
  intro name
  exact ⟨fun h => absurd h not_mem_nil, fun h => absurd h (hUnused name)⟩

omit [DecidableEq T] in
theorem sound_start (hEmpty : ∀ prog, eng.compile "" ≠ .ok prog)
    (hDistinct : DistinctHashes eng request) (hCache : ∀ x ∈ cache, x.Correct eng request) :
    Sound eng request t (exec eng cache (.start (request t))) := by
  cases hr : request t with
  | compile e =>
    have he : (request t).expr = some e := by rw [hr]; rfl
    simp only [exec]
    split
    next entry hFind =>
      obtain ⟨prog, hCompile, rfl⟩ := entry_of_find? hCache hDistinct he hFind
      refine ⟨hCache, ?_⟩
      rw [hr]
      exact hCompile.symm
    next =>
      split
      next err hCompile =>
        refine ⟨hCache, ?_⟩
        rw [hr]
        exact hCompile.symm
      next prog hCompile => exact ⟨hCache, hr.symm, he, hCompile⟩
  | usedVars e =>
    have he : (request t).expr = some e := by rw [hr]; rfl
    simp only [exec]
    split
    next hNone =>
      subst hNone
      exact sound_no_vars hCache hr (not_uses_empty hEmpty)
    next =>
      split
      next entry hFind =>
        obtain ⟨prog, hCompile, rfl⟩ := entry_of_find? hCache hDistinct he hFind
        refine ⟨hCache, ?_⟩
        rw [hr]
        exact usedVars_entry hCompile
      next => exact ⟨hCache, hr⟩
  | invalidate =>
    refine ⟨fun x hx => absurd hx (not_mem_empty x), ?_⟩
    rw [hr]
    trivial

omit [DecidableEq T] in
theorem sound_looking (hCache : ∀ x ∈ cache, x.Correct eng request) {e : String}
    (hr : request t = .usedVars e) : Sound eng request t (exec eng cache (.looking e)) := by
  simp only [exec]
  split
  next => exact ⟨hCache, hr⟩
  next =>
    split
    next err hCompile => exact sound_no_vars hCache hr (not_uses_of_error hCompile)
    next prog hCompile => exact ⟨hCache, hr.symm, by rw [hr]; rfl, hCompile⟩

omit [DecidableEq T] in
theorem sound_storing (hCache : ∀ x ∈ cache, x.Correct eng request) {e : String} {prog : Node}
    (he : (request t).expr = some e) (hCompile : eng.compileExpr e = .ok prog) :
    Sound eng request t (exec eng cache (.storing (request t) e prog)) := by
  have hStore : ∀ x ∈ store cache (eng.entry e prog), x.Correct eng request := by
    intro x hx
    rcases mem_of_mem_store hx with rfl | hOld
    · exact ⟨t, e, prog, he, hCompile, rfl⟩
    · exact hCache x hOld
  cases hr : request t with
  | compile f =>
    rw [hr] at he
    obtain rfl : f = e := Option.some.inj he
    refine ⟨hStore, ?_⟩
    rw [hr]
    exact hCompile.symm
  | usedVars f =>
    rw [hr] at he
    obtain rfl : f = e := Option.some.inj he
    exact ⟨hStore, hr⟩
  | invalidate =>
    rw [hr] at he
    cases he

omit [DecidableEq T] in
theorem sound_reading (hDistinct : DistinctHashes eng request)
    (hCache : ∀ x ∈ cache, x.Correct eng request) {e : String} (hr : request t = .usedVars e)
    (hFinds : cache.find? (eng.hash e) ≠ none ∨ ∀ name, ¬ eng.Uses e name) :
    Sound eng request t (exec eng cache (.reading e)) := by
  have he : (request t).expr = some e := by rw [hr]; rfl
  simp only [exec]
  split
  next entry hFind =>
    obtain ⟨prog, hCompile, rfl⟩ := entry_of_find? hCache hDistinct he hFind
    refine ⟨hCache, ?_⟩
    rw [hr]
    exact usedVars_entry hCompile
  next hMissing => exact sound_no_vars hCache hr (hFinds.resolve_left (not_not.mpr hMissing))

/-- The entries are correct, and every call is where its request has brought it. -/
structure Transparent (eng : Engine) (request : T → Request) (s : State T) : Prop where
  cache : ∀ x ∈ s.cache, x.Correct eng request
  phases : ∀ t, PhaseOf eng (request t) (s.phase t)

theorem transparent_step (hEmpty : ∀ prog, eng.compile "" ≠ .ok prog)
    (hDistinct : DistinctHashes eng request) {s : State T} {t : T}
    (hs : Transparent eng request s) (hFinds : LookupFinds eng s t) :
    Transparent eng request (step eng s t) := by
  have hSound : Sound eng request t (exec eng s.cache (s.phase t)) := by
    have hPhase := hs.phases t
    cases hp : s.phase t with
    | start r =>
      rw [hp] at hPhase
      obtain rfl : r = request t := hPhase
      exact sound_start hEmpty hDistinct hs.cache
    | looking e =>
      rw [hp] at hPhase
      exact sound_looking hs.cache hPhase
    | storing r e prog =>
      rw [hp] at hPhase
      obtain ⟨rfl, he, hCompile⟩ := hPhase
      exact sound_storing hs.cache he hCompile
    | reading e =>
      rw [hp] at hPhase
      simp only [LookupFinds, hp] at hFinds
      exact sound_reading hDistinct hs.cache hPhase hFinds
    | done result =>
      rw [hp] at hPhase
      exact ⟨hs.cache, hPhase⟩
  refine ⟨hSound.1, ?_⟩
  intro u
  by_cases hu : u = t
  · subst hu
    simpa [step] using hSound.2
  · simpa [step, Function.update_of_ne hu] using hs.phases u

omit [DecidableEq T] in
theorem transparent_start (request : T → Request) : Transparent eng request (start request) :=
  ⟨fun x hx => absurd hx (not_mem_empty x), fun _ => rfl⟩

end

/-- In every interleaving in which no call finds that its entry was removed between its
last two sections, the cache is transparent. -/
theorem cache_transparent (eng : Engine) (hEmpty : ∀ prog, eng.compile "" ≠ .ok prog)
    (request : T → Request) (hDistinct : DistinctHashes eng request) (l : List T)
    (hFinds : Guarded (step eng) (LookupFinds eng) (start request) l) (t : T) (result : Result)
    (hDone : (run (step eng) (start request) l).phase t = .done result) :
    Correct eng (request t) result := by
  have h : Transparent eng request (run (step eng) (start request) l) :=
    Guarded.invariant (fun _ _ => transparent_step hEmpty hDistinct) (transparent_start request)
      hFinds
  have hPhase := h.phases t
  rwa [hDone] at hPhase

/-! ## A cache that is cleared in between -/

/-- A package that compiles a name to an identifier and refuses the empty text; a text is
its own hash. -/
def names : Engine where
  compile body := if body = "" then .error (.msg "unexpected token EOF") else .ok (.identifier body)
  hash exprStr := exprStr

/-- One call asks for the variables of `p`, the other clears the cache. -/
def clearing : Fin 2 → Request
  | 0 => .usedVars "p"
  | 1 => .invalidate

theorem cleared_between_sections :
    (run (step names) (start clearing) [0, 0, 0, 1, 0]).phase 0 = .done (.vars []) ∧
      names.Uses "p" "p" ∧ ¬ Correct names (clearing 0) (.vars []) := by
  have hUses : names.Uses "p" "p" := ⟨.identifier "p", by rfl, .identifier⟩
  refine ⟨by rfl, hUses, ?_⟩
  intro hCorrect
  exact absurd ((hCorrect "p").mpr hUses) not_mem_nil

theorem clearing_afterwards : Guarded (step names) (LookupFinds names) (start clearing)
    [0, 0, 0, 0, 1] := by
  have hLooking : (step names (start clearing) 0).phase 0 = .looking "p" := by rfl
  have hStoring : (step names (step names (start clearing) 0) 0).phase 0 =
      .storing (.usedVars "p") "p" (.identifier "p") := by rfl
  have hReading : (step names (step names (step names (start clearing) 0) 0) 0).phase 0 =
      .reading "p" := by rfl
  have hFound : (step names (step names (step names (start clearing) 0) 0) 0).cache.find? "p" =
      some (names.entry "p" (.identifier "p")) := by rfl
  have hClearing : (step names (step names (step names (step names (start clearing) 0) 0) 0) 0).phase
      1 = .start .invalidate := by rfl
  refine ⟨?_, ?_, ?_, ?_, ?_, trivial⟩
  · simp [LookupFinds, start]
  · simp [LookupFinds, hLooking]
  · simp [LookupFinds, hStoring]
  · simp only [LookupFinds, hReading]
    left
    rw [show names.hash "p" = "p" from rfl, hFound]
    exact some_ne_none _
  · simp [LookupFinds, hClearing]

theorem kept_between_sections :
    (run (step names) (start clearing) [0, 0, 0, 0, 1]).phase 0 = .done (.vars ["p"]) ∧
      Correct names (clearing 0) (.vars ["p"]) := by
  have hDistinct : DistinctHashes names clearing := fun _ _ _ _ _ _ h => h
  have hEmpty : ∀ prog, names.compile "" ≠ .ok prog := by
    intro prog h
    cases h
  have hDone : (run (step names) (start clearing) [0, 0, 0, 0, 1]).phase 0 =
      .done (.vars ["p"]) := by rfl
  exact ⟨hDone, cache_transparent names hEmpty clearing hDistinct _ clearing_afterwards 0 _ hDone⟩

end Qapi.ExprCache
