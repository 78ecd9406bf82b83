import Qapi.Override.Headers

/-!
# Applying an override

`ApplyParamOverride`: the operations of a channel's parameter override, one after
another, on the request body and on the headers. An override without a list of
operations sets its keys in the body.
-/

namespace Qapi.Override

open Qapi.Core List Bool

variable {Body : Type} (lib : JsonLib Body)

structure ParamOperation where
  path : String
  mode : String
  value : Json
  keepOrigin : Bool
  source : String
  target : String
  conditions : List ConditionOperation
  logic : String

/-- The modes that work at paths of the body (`isPathBasedOperation`). -/
inductive PathMode
  | delete
  | set
  | prepend
  | append
  | trimPrefix
  | trimSuffix
  | ensurePrefix
  | ensureSuffix
  | trimSpace
  | toLower
  | toUpper
  | replace
  | regexReplace
  | pruneObjects
deriving DecidableEq, Repr

inductive Mode
  | atPath (m : PathMode)
  | move
  | copy
  | returnError
  | setHeader
  | deleteHeader
  | copyHeader
  | moveHeader
  | passHeaders
  | syncFields
  | unknown
deriving DecidableEq, Repr

def Mode.ofText (s : String) : Mode :=
  (([("delete", .atPath .delete), ("set", .atPath .set), ("prepend", .atPath .prepend),
    ("append", .atPath .append), ("trim_prefix", .atPath .trimPrefix),
    ("trim_suffix", .atPath .trimSuffix), ("ensure_prefix", .atPath .ensurePrefix),
    ("ensure_suffix", .atPath .ensureSuffix), ("trim_space", .atPath .trimSpace),
    ("to_lower", .atPath .toLower), ("to_upper", .atPath .toUpper),
    ("replace", .atPath .replace), ("regex_replace", .atPath .regexReplace),
    ("prune_objects", .atPath .pruneObjects), ("move", .move), ("copy", .copy),
    ("return_error", .returnError), ("set_header", .setHeader),
    ("delete_header", .deleteHeader), ("copy_header", .copyHeader),
    ("move_header", .moveHeader), ("pass_headers", .passHeaders),
    ("sync_fields", .syncFields)] : List (String × Mode)).lookup s).getD .unknown

/-! ## Parsing -/

def textField (m : Entries) (key : String) : Option String :=
  match m.lookup key with
  | some (.str s) => some s
  | _ => none

def boolField (m : Entries) (key : String) : Option Bool :=
  match m.lookup key with
  | some (.bool b) => some b
  | _ => none

/-- One entry of the list of operations; `none` makes the override one without operations. -/
def parseOperation : Json → Option ParamOperation
  | .obj opMap => do
    let mode ← textField opMap "mode"
    let conditions ← match opMap.lookup "conditions" with
      | none => some []
      | some raw => (parseConditionOperations raw).toOption
    pure { path := (textField opMap "path").getD ""
           mode := mode
           value := (opMap.lookup "value").getD .null
           keepOrigin := (boolField opMap "keep_origin").getD false
           source := (textField opMap "from").getD ""
           target := (textField opMap "to").getD ""
           conditions := conditions
           logic := (textField opMap "logic").getD "OR" }
  | _ => none

def tryParseOperations (paramOverride : Entries) : Option (List ParamOperation) :=
  match paramOverride.lookup "operations" with
  | some (.arr ops) => ops.mapM parseOperation
  | _ => none

def buildLegacyParamOverride (paramOverride : Entries) : Entries :=
  paramOverride.filter fun e => !equalFold (trimSpace e.1) "operations"

def parseOverrideInt : Json → Option Int
  | .num q => if q.den = 1 then some q.num else none
  | _ => none

def returnStatusCode (raw : Entries) : Except OverrideError Int :=
  match raw.lookup "status_code", raw.lookup "status" with
  | some v, _ =>
    match parseOverrideInt v with
    | some statusCode => pure statusCode
    | none => throw (.msg "return_error status_code must be an integer")
  | none, some v =>
    match parseOverrideInt v with
    | some statusCode => pure statusCode
    | none => throw (.msg "return_error status must be an integer")
  | none, none => pure 400

/-- The checks at the end of `parseParamOverrideReturnError`. -/
def checkReturnError (message : String) (statusCode : Int) (code type : String)
    (skipRetry : Bool) : Except OverrideError OverrideError := do
  failIf (message = "") (.msg "return_error message is required")
  failIf (statusCode < 100 ∨ 511 < statusCode)
    (.msg ("return_error status code out of range: " ++ toString statusCode))
  pure (.returnError message statusCode code type skipRetry)

def parseParamOverrideReturnError : Json → Except OverrideError OverrideError
  | .null => throw (.msg "return_error value is required")
  | .str raw => checkReturnError (trimSpace raw) 400 "invalid_request" "invalid_request_error" true
  | .obj raw => do
    let message := trimSpace ((textField raw "message").getD "")
    let message := if message = "" then trimSpace ((textField raw "msg").getD "") else message
    let code := ((raw.lookup "code").map fun v => trimSpace (sprint lib.number v)).getD ""
    let type := trimSpace ((textField raw "type").getD "")
    let statusCode ← returnStatusCode raw
    checkReturnError message statusCode (if code = "" then "invalid_request" else code)
      (if type = "" then "invalid_request_error" else type)
      ((boolField raw "skip_retry").getD true)
  | _ => throw (.msg "return_error value must be string or object")

/-! ## Operations -/

def applyAtPath (op : ParamOperation) (contextJSON : Option Body) (m : PathMode) (data : Body)
    (path : String) : Except OverrideError Body :=
  match m with
  | .delete => deleteValue lib data path
  | .set =>
    if op.keepOrigin ∧ (lib.getBytes data path).isSome then pure data
    else lib.setBytes data path op.value
  | .prepend => modifyValue lib data path op.value op.keepOrigin true
  | .append => modifyValue lib data path op.value op.keepOrigin false
  | .trimPrefix => trimStringValue lib data path op.value true
  | .trimSuffix => trimStringValue lib data path op.value false
  | .ensurePrefix => ensureStringAffix lib data path op.value true
  | .ensureSuffix => ensureStringAffix lib data path op.value false
  | .trimSpace => transformStringValue lib data path Core.trimSpace
  | .toLower => transformStringValue lib data path Core.toLower
  | .toUpper => transformStringValue lib data path Core.toUpper
  | .replace => replaceStringValue lib data path op.source op.target
  | .regexReplace => regexReplaceStringValue lib data path op.source op.target
  | .pruneObjects => pruneObjects lib data path contextJSON op.value

def failed {α : Type} (mode : String) : Except OverrideError α → Except OverrideError α
  | .error e => .error (.msg ("operation " ++ mode ++ " failed: " ++ e.text))
  | .ok a => .ok a

/-- The headers that `copy_header` and `move_header` name; `path` stands for one left out. -/
def headerNames (op : ParamOperation) : String × String :=
  (if trimSpace op.source = "" then trimSpace op.path else trimSpace op.source,
    if trimSpace op.target = "" then trimSpace op.path else trimSpace op.target)

def runOperation (op : ParamOperation) (contextJSON : Option Body) (data : Body)
    (ctx : HeaderMaps) : Except OverrideError (Body × HeaderMaps) :=
  match Mode.ofText op.mode with
  | .atPath m => do
    let paths ← resolveOperationPaths lib data (processNegativeIndex lib data op.path)
    let data ← failed op.mode (paths.foldlM (applyAtPath lib op contextJSON m) data)
    pure (data, ctx)
  | .move => do
    let data ← failed op.mode (moveValue lib data (processNegativeIndex lib data op.source)
      (processNegativeIndex lib data op.target))
    pure (data, ctx)
  | .copy => do
    failIf (op.source = "" ∨ op.target = "") (.msg "copy from/to is required")
    let data ← failed op.mode (copyValue lib data (processNegativeIndex lib data op.source)
      (processNegativeIndex lib data op.target))
    pure (data, ctx)
  | .returnError => do
    let returnErr ← parseParamOverrideReturnError lib op.value
    throw returnErr
  | .setHeader => do
    let ctx ← failed op.mode (setHeaderOverrideInContext lib ctx op.path op.value op.keepOrigin)
    pure (data, ctx)
  | .deleteHeader => do
    let ctx ← failed op.mode (deleteHeaderOverrideInContext ctx op.path)
    pure (data, ctx)
  | .copyHeader => do
    let copied ← failed op.mode
      (copyHeaderInContext lib ctx (headerNames op).1 (headerNames op).2 op.keepOrigin)
    pure (data, copied.getD ctx)
  | .moveHeader => do
    let moved ← failed op.mode
      (moveHeaderInContext lib ctx (headerNames op).1 (headerNames op).2 op.keepOrigin)
    pure (data, moved.getD ctx)
  | .passHeaders => do
    let names ← parseHeaderPassThroughNames lib (nestingBound lib op.value) op.value
    let ctx ← failed op.mode (passHeaders lib op.keepOrigin ctx names)
    pure (data, ctx)
  | .syncFields => failed op.mode (syncFieldsBetweenTargets lib data ctx op.source op.target)
  | .unknown => throw (.msg ("unknown operation: " ++ op.mode))

/-- `applyOperations`. The text of the context is written anew after each change of the
headers, so it is always that of the current maps. -/
def applyOperations (rest : Entries) (data : Body) (ctx : HeaderMaps) :
    List ParamOperation → Except OverrideError (Body × HeaderMaps)
  | [] => pure (data, ctx)
  | op :: ops => do
    let contextJSON := marshalContextJSON lib rest ctx
    let ok ← checkConditions lib data contextJSON op.conditions op.logic
    if !ok then applyOperations rest data ctx ops
    else do
      let (data, ctx) ← runOperation lib op contextJSON data ctx
      applyOperations rest data ctx ops

def escapeSjsonLiteralKey (key : String) : String :=
  String.ofList (key.toList.flatMap fun c =>
    if c = '.' ∨ c = '*' ∨ c = '?' ∨ c = '\\' then ['\\', c] else [c])

def applyOperationsLegacy (data : Body) (paramOverride : Entries) : Except OverrideError Body :=
  paramOverride.foldlM (fun result e => lib.setBytes result (escapeSjsonLiteralKey e.1) e.2) data

def applyParamOverride (rest : Entries) (data : Body) (ctx : HeaderMaps)
    (paramOverride : Entries) : Except OverrideError (Body × HeaderMaps) :=
  match tryParseOperations paramOverride with
  | some operations => do
    let workingJSON ← applyOperationsLegacy lib data (buildLegacyParamOverride paramOverride)
    applyOperations lib rest workingJSON ctx operations
  | none => do
    let data ← applyOperationsLegacy lib data paramOverride
    pure (data, ctx)

/-! ## What reads the context -/

/-- No operation of the override reads the context: none has conditions of its own, and none
prunes objects, which goes by conditions too. -/
def Unconditional (paramOverride : Entries) : Prop :=
  ∀ ops, tryParseOperations paramOverride = some ops →
    ∀ op ∈ ops, op.conditions = [] ∧ Mode.ofText op.mode ≠ .atPath .pruneObjects

theorem checkConditions_nil (data : Body) (contextJSON : Option Body) (logic : String) :
    checkConditions lib data contextJSON [] logic = .ok true := rfl

theorem applyAtPath_context {m : PathMode} (h : m ≠ .pruneObjects) (op : ParamOperation)
    (json json' : Option Body) : applyAtPath lib op json m = applyAtPath lib op json' m := by
  funext data path
  cases m with
  | pruneObjects => exact absurd rfl h
  | _ => rfl

theorem runOperation_context {op : ParamOperation} (h : Mode.ofText op.mode ≠ .atPath .pruneObjects)
    (json json' : Option Body) (data : Body) (ctx : HeaderMaps) :
    runOperation lib op json data ctx = runOperation lib op json' data ctx := by
  unfold runOperation
  generalize Mode.ofText op.mode = mode at h
  cases mode with
  | atPath m =>
    have hPath : m ≠ .pruneObjects := fun hm => h (congrArg Mode.atPath hm)
    simp only [applyAtPath_context lib hPath op json json']
  | _ => rfl

theorem applyOperations_rest {ops : List ParamOperation}
    (h : ∀ op ∈ ops, op.conditions = [] ∧ Mode.ofText op.mode ≠ .atPath .pruneObjects)
    (rest rest' : Entries) (data : Body) (ctx : HeaderMaps) :
    applyOperations lib rest data ctx ops = applyOperations lib rest' data ctx ops := by
  induction ops generalizing data ctx with
  | nil => rfl
  | cons op ops ih =>
    obtain ⟨hConditions, hMode⟩ := h op (mem_cons_self ..)
    have hTail : ∀ op ∈ ops, op.conditions = [] ∧ Mode.ofText op.mode ≠ .atPath .pruneObjects :=
      fun op hop => h op (mem_cons_of_mem _ hop)
    simp only [applyOperations, hConditions, checkConditions_nil, ok_bind, Bool.not_true,
      false_eq_true, if_false]
    rw [runOperation_context lib hMode (marshalContextJSON lib rest ctx)
      (marshalContextJSON lib rest' ctx)]
    cases runOperation lib op (marshalContextJSON lib rest' ctx) data ctx with
    | error e => simp only [error_bind]
    | ok r => simp only [ok_bind, ih hTail r.1 r.2]

theorem applyParamOverride_rest {paramOverride : Entries} (h : Unconditional paramOverride)
    (rest rest' : Entries) (data : Body) (ctx : HeaderMaps) :
    applyParamOverride lib rest data ctx paramOverride =
      applyParamOverride lib rest' data ctx paramOverride := by
  unfold applyParamOverride
  cases hOps : tryParseOperations paramOverride with
  | none => rfl
  | some ops =>
    simp only
    cases applyOperationsLegacy lib data (buildLegacyParamOverride paramOverride) with
    | error e => simp only [error_bind]
    | ok working => simp only [ok_bind, applyOperations_rest lib (h ops hOps) rest rest' working ctx]

/-! ## What reads the body -/

/-- `IsHeaderOnlyParamOverride` on one operation. -/
def isHeaderOnlyOperation (op : ParamOperation) : Bool :=
  op.conditions.isEmpty && ["set_header", "delete_header", "copy_header", "move_header",
    "pass_headers"].contains (toLower (trimSpace op.mode))

def isHeaderOnlyParamOverride (paramOverride : Entries) : Bool :=
  if paramOverride.isEmpty then true
  else if !(buildLegacyParamOverride paramOverride).isEmpty then false
  else match tryParseOperations paramOverride with
    | none => false
    | some operations => operations.all isHeaderOnlyOperation

/-- The modes that leave the body alone. -/
def Mode.onlyHeaders : Mode → Bool
  | .setHeader | .deleteHeader | .copyHeader | .moveHeader | .passHeaders | .unknown => true
  | _ => false

theorem getD_lookup_of_forall {α β : Type} [BEq α] [LawfulBEq α] {l : List (α × β)} {P : α → Prop}
    {Q : β → Prop} {a : α} {b : β} (h : ∀ e ∈ l, P e.1 → Q e.2) (hb : Q b) (ha : P a) :
    Q ((l.lookup a).getD b) := by
  cases hFound : l.lookup a with
  | none => exact hb
  | some c =>
    obtain ⟨before, later, rfl, -⟩ := lookup_eq_some_iff.mp hFound
    exact h (a, c) (by simp) ha

/-- The operations go by the mode as it is written: one that the check accepts in other letters
or with spaces around it is unknown to them. -/
theorem onlyHeaders_ofText {op : ParamOperation} (h : isHeaderOnlyOperation op = true) :
    (Mode.ofText op.mode).onlyHeaders = true := by
  obtain ⟨-, hText⟩ := and_eq_true_iff.mp h
  unfold Mode.ofText
  exact getD_lookup_of_forall (P := fun s => ["set_header", "delete_header", "copy_header",
    "move_header", "pass_headers"].contains (toLower (trimSpace s)) = true)
    (Q := fun m : Mode => m.onlyHeaders = true) (by decide) rfl hText

theorem runOperation_body {op : ParamOperation} (h : isHeaderOnlyOperation op = true)
    (json : Option Body) (data data' : Body) (ctx : HeaderMaps) :
    runOperation lib op json data ctx =
      (runOperation lib op json data' ctx).map fun r => (data, r.2) := by
  have hMode := onlyHeaders_ofText h
  unfold runOperation
  generalize Mode.ofText op.mode = mode at hMode
  cases mode with
  | unknown => rfl
  | passHeaders =>
    cases parseHeaderPassThroughNames lib (nestingBound lib op.value) op.value with
    | error e => rfl
    | ok names =>
      simp only [ok_bind]
      cases failed op.mode (passHeaders lib op.keepOrigin ctx names) <;> rfl
  | setHeader =>
    cases failed op.mode (setHeaderOverrideInContext lib ctx op.path op.value op.keepOrigin) <;> rfl
  | deleteHeader => cases failed op.mode (deleteHeaderOverrideInContext ctx op.path) <;> rfl
  | copyHeader =>
    cases failed op.mode (copyHeaderInContext lib ctx (headerNames op).1 (headerNames op).2
      op.keepOrigin) <;> rfl
  | moveHeader =>
    cases failed op.mode (moveHeaderInContext lib ctx (headerNames op).1 (headerNames op).2
      op.keepOrigin) <;> rfl
  | _ => cases hMode

theorem applyOperations_body {ops : List ParamOperation}
    (h : ops.all isHeaderOnlyOperation = true) (rest : Entries) (data data' : Body)
    (ctx : HeaderMaps) :
    applyOperations lib rest data ctx ops =
      (applyOperations lib rest data' ctx ops).map fun r => (data, r.2) := by
  induction ops generalizing data data' ctx with
  | nil => rfl
  | cons op ops ih =>
    rw [all_cons, and_eq_true] at h
    have hConditions : op.conditions = [] :=
      isEmpty_iff.mp (and_eq_true_iff.mp h.1).1
    simp only [applyOperations, hConditions, checkConditions_nil, ok_bind, Bool.not_true,
      false_eq_true, if_false]
    rw [runOperation_body lib h.1 (marshalContextJSON lib rest ctx) data data']
    cases runOperation lib op (marshalContextJSON lib rest ctx) data' ctx with
    | error e => rfl
    | ok r => exact ih h.2 data r.1 r.2

theorem applyParamOverride_body {paramOverride : Entries} (hNonempty : ¬ paramOverride.isEmpty)
    (h : isHeaderOnlyParamOverride paramOverride = true) (rest : Entries) (data data' : Body)
    (ctx : HeaderMaps) :
    applyParamOverride lib rest data ctx paramOverride =
      (applyParamOverride lib rest data' ctx paramOverride).map fun r => (data, r.2) := by
  rw [isHeaderOnlyParamOverride, if_neg hNonempty] at h
  split at h
  · cases h
  · rename_i hLegacy
    have hNone : buildLegacyParamOverride paramOverride = [] := by simpa using hLegacy
    unfold applyParamOverride
    cases hOps : tryParseOperations paramOverride with
    | none =>
      rw [hOps] at h
      cases h
    | some ops =>
      rw [hOps] at h
      simp only [hNone]
      exact applyOperations_body lib h rest data data' ctx

end Qapi.Override
