import Mathlib.Data.List.Sort
import Mathlib.Data.Rat.Defs
import Qapi.Core.Result
import Qapi.Core.Text

/-!
# JSON values and header maps

The values that the parameter overrides of `relay/common/override.go` work on: a
decoded JSON value, the maps of such values, and the normal form of a map of headers.
A map is the list of its entries in the order in which a loop over it visits them.
-/

namespace Qapi.Override

open Qapi.Core

/-- A decoded JSON value (`interface{}`). -/
inductive Json
  | null
  | bool (b : Bool)
  | num (q : ℚ)
  | str (s : String)
  | arr (items : List Json)
  | obj (entries : List (String × Json))

/-- `map[string]interface{}`. -/
abbrev Entries := List (String × Json)

/-- `m[key] = value`. -/
def Entries.set (key : String) (value : Json) : Entries → Entries
  | [] => [(key, value)]
  | e :: m => if e.1 = key then (key, value) :: m else e :: Entries.set key value m

/-- `delete(m, key)`. -/
def Entries.delete (key : String) (m : Entries) : Entries := m.filter (·.1 ≠ key)

/-- The error of an override: a text, or the error that a `return_error` operation asks for. -/
inductive OverrideError
  | msg (text : String)
  | returnError (message : String) (statusCode : Int) (code type : String) (skipRetry : Bool)
deriving DecidableEq, Repr

/-- `err.Error()`. -/
def OverrideError.text : OverrideError → String
  | .msg t => t
  | .returnError message _ _ _ _ => if message = "" then "param override return error" else message

/-! ## `fmt.Sprintf("%v", value)` -/

section

-- how a number prints
variable (number : ℚ → String)

mutual

/-- What `%v` prints; the keys of a map are sorted. -/
def sprint : Json → String
  | .null => "<nil>"
  | .bool b => if b then "true" else "false"
  | .num q => number q
  | .str s => s
  | .arr items => "[" ++ join (sprintItems items) " " ++ "]"
  | .obj entries =>
    "map[" ++ join (((sprintEntries entries).insertionSort (·.1 ≤ ·.1)).map
      fun e => e.1 ++ ":" ++ e.2) " " ++ "]"

def sprintItems : List Json → List String
  | [] => []
  | v :: l => sprint v :: sprintItems l

def sprintEntries : List (String × Json) → List (String × String)
  | [] => []
  | (k, v) :: l => (k, sprint v) :: sprintEntries l

end

end

/-! ## Header maps -/

def normalizeHeaderContextKey (key : String) : String := trimSpace (toLower key)

def isHeaderPassthroughRuleKeyForOverride (key : String) : Bool :=
  let key := trimSpace (toLower key)
  if key = "" then false
  else if key = "*" then true
  else startsWith key "re:" || startsWith key "regex:"

/-- `sanitizeHeaderOverrideMap`: keys in lower case, values as trimmed texts; an empty value
stays only under a passthrough rule. -/
def sanitizeHeaderOverrideMap (number : ℚ → String) (source : Entries) : Entries :=
  source.foldl
    (fun target e =>
      let normalizedKey := normalizeHeaderContextKey e.1
      if normalizedKey = "" then target
      else
        let normalizedValue := trimSpace (sprint number e.2)
        if normalizedValue = "" then
          if isHeaderPassthroughRuleKeyForOverride normalizedKey then
            target.set normalizedKey (.str "")
          else target
        else target.set normalizedKey (.str normalizedValue))
    []

def buildRequestHeadersContext (headers : List (String × String)) : Entries :=
  headers.foldl
    (fun target e =>
      let normalized := normalizeHeaderContextKey e.1
      let value := trimSpace e.2
      if normalized = "" ∨ value = "" then target else target.set normalized (.str value))
    []

def splitHeaderListValue (raw : String) : List String :=
  ((split raw ',').map trimSpace).filter (· ≠ "")

example : sanitizeHeaderOverrideMap (fun _ => "1")
    [(" X-Key ", .str " k "), ("X-Empty", .null), ("re:^x", .str ""), ("n", .str " ")] =
    [("x-key", .str "k"), ("x-empty", .str "<nil>"), ("re:^x", .str "")] := rfl

end Qapi.Override
