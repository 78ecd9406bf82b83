import Qapi.Override.Value

/-!
# Conditions of override operations

The JSON libraries as the overrides use them, the negative indexes of a path, and
the conditions that decide whether an operation runs. A condition reads the request
body first and the override context where the body has no such path.
-/

namespace Qapi.Override

open Qapi.Core

/-- A `gjson.Result` that exists: its value and its `String()`. -/
structure Result where
  value : Json
  text : String

/-- What the code uses of `gjson`, `sjson`, the JSON codec, the number formatter and
`regexp`, on bodies of type `Body`. -/
structure JsonLib (Body : Type) where
  getBytes : Body → String → Option Result
  setBytes : Body → String → Json → Except OverrideError Body
  setRawBytes : Body → String → Body → Except OverrideError Body
  deleteBytes : Body → String → Except OverrideError Body
  unmarshal : Body → Except OverrideError Json
  marshal : Json → Body
  parseBytes : Body → Result
  unmarshalJsonStr : String → Except OverrideError Json
  number : ℚ → String
  -- `regexp.Compile` of the first text, then `ReplaceAllString` of the second by the third
  regexReplace : String → String → String → Except OverrideError String

variable {Body : Type} (lib : JsonLib Body)

/-! ## Negative indexes -/

/-- The matches of `\.(-\d+)`, each without its dot. -/
def negativeIndexes : List Char → List (List Char)
  | [] => []
  | c :: l =>
    let digits := (l.drop 1).takeWhile Char.isDigit
    if c = '.' ∧ l.head? = some '-' ∧ digits ≠ [] then ('-' :: digits) :: negativeIndexes l
    else negativeIndexes l

def processNegativeIndex (data : Body) (path : String) : String :=
  (negativeIndexes path.toList).foldl
    (fun result negIndex =>
      let index := (atoi (String.ofList negIndex)).getD 0
      let before := ((cut path (String.ofList negIndex)).map (·.1)).getD path
      let arrayPath := trimEnd before "."
      match lib.getBytes data arrayPath with
      | some ⟨.arr items, _⟩ =>
        let actualIndex : Int := items.length + index
        if 0 ≤ actualIndex ∧ actualIndex < items.length then
          replaceFirst result ("." ++ String.ofList negIndex) ("." ++ toString actualIndex)
        else result
      | _ => result)
    path

/-! ## Comparisons -/

/-- `gjson.Type`. -/
inductive GjsonType
  | null
  | false
  | number
  | string
  | true
  | json
deriving DecidableEq, Repr

def GjsonType.text : GjsonType → String
  | .null => "Null"
  | .false => "False"
  | .number => "Number"
  | .string => "String"
  | .true => "True"
  | .json => "JSON"

def Json.type : Json → GjsonType
  | .null => .null
  | .bool b => if b then .true else .false
  | .num _ => .number
  | .str _ => .string
  | .arr _ => .json
  | .obj _ => .json

def typeOf : Option Result → GjsonType
  | none => .null
  | some r => r.value.type

def compareEqual (jsonValue targetValue : Result) : Except OverrideError Bool :=
  match jsonValue.value, targetValue.value with
  | .null, .null => pure true
  | .null, _ => pure false
  | _, .null => pure false
  | .bool a, .bool b => pure (a == b)
  | .num a, .num b => pure (decide (a = b))
  | .str a, .str b => pure (a == b)
  | a, b =>
    if a.type ≠ b.type then
      throw (.msg ("compare for different types, got " ++ a.type.text ++ " and " ++ b.type.text))
    else pure (jsonValue.text == targetValue.text)

/-- `compareNumeric` with the comparison `op`. -/
def compareNumeric (op : ℚ → ℚ → Bool) (jsonValue targetValue : Result) :
    Except OverrideError Bool :=
  match jsonValue.value, targetValue.value with
  | .num a, .num b => pure (op a b)
  | a, b => throw (.msg ("numeric comparison requires both values to be numbers, got " ++
      a.type.text ++ " and " ++ b.type.text))

def compareGjsonValues (jsonValue targetValue : Result) (mode : String) :
    Except OverrideError Bool :=
  if mode = "full" then compareEqual jsonValue targetValue
  else if mode = "prefix" then pure (startsWith jsonValue.text targetValue.text)
  else if mode = "suffix" then pure (endsWith jsonValue.text targetValue.text)
  else if mode = "contains" then pure (contains jsonValue.text targetValue.text)
  else if mode = "gt" then compareNumeric (fun a b => decide (b < a)) jsonValue targetValue
  else if mode = "gte" then compareNumeric (fun a b => decide (b ≤ a)) jsonValue targetValue
  else if mode = "lt" then compareNumeric (fun a b => decide (a < b)) jsonValue targetValue
  else if mode = "lte" then compareNumeric (fun a b => decide (a ≤ b)) jsonValue targetValue
  else throw (.msg ("unsupported comparison mode: " ++ mode))

/-! ## Conditions -/

structure ConditionOperation where
  path : String
  mode : String
  value : Json
  invert : Bool
  passMissingKey : Bool

/-- `checkSingleCondition`; an empty context text is not searched. -/
def checkSingleCondition (data : Body) (contextJSON : Option Body) (c : ConditionOperation) :
    Except OverrideError Bool :=
  let found := (lib.getBytes data (processNegativeIndex lib data c.path)).orElse fun _ =>
    contextJSON.bind fun json => lib.getBytes json c.path
  match found with
  | none => pure c.passMissingKey
  | some value =>
    let targetValue := lib.parseBytes (lib.marshal c.value)
    match compareGjsonValues value targetValue (toLower c.mode) with
    | .error e => throw (.msg ("comparison failed for path " ++ c.path ++ ": " ++ e.text))
    | .ok result => pure (result != c.invert)

def checkConditions (data : Body) (contextJSON : Option Body)
    (conditions : List ConditionOperation) (logic : String) : Except OverrideError Bool :=
  if conditions.isEmpty then pure true
  else do
    let results ← conditions.mapM (checkSingleCondition lib data contextJSON)
    pure (if toUpper logic = "AND" then results.all id else results.any id)

def parseConditionOperations : Json → Except OverrideError (List ConditionOperation)
  | .obj entries =>
    let conditions := entries.filterMap fun e =>
      if trimSpace e.1 = "" then none
      else some ⟨trimSpace e.1, "full", e.2, false, false⟩
    if conditions.isEmpty then throw (.msg "conditions object must contain at least one key")
    else pure conditions
  | .arr items => items.mapM fun item =>
    match item with
    | .obj m =>
      let text (key : String) := match m.lookup key with
        | some (.str s) => s
        | _ => ""
      let flag (key : String) := match m.lookup key with
        | some (.bool b) => b
        | _ => false
      if trimSpace (text "path") = "" ∨ trimSpace (text "mode") = "" then
        throw (.msg "condition path/mode is required")
      else pure ⟨text "path", text "mode", (m.lookup "value").getD .null, flag "invert",
        flag "pass_missing_key"⟩
    | _ => throw (.msg "condition must be object")
  | _ => throw (.msg "conditions must be an array or object")

end Qapi.Override
