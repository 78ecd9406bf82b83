import Qapi.Override.Conditions

/-!
# Operations on the request body

The operations of an override that rewrite the JSON body: the paths they address,
wildcards expanded, and what each does at a path.
-/

namespace Qapi.Override

open Qapi.Core

variable {Body : Type} (lib : JsonLib Body)

/-! ## Paths -/

/-- `collectWildcardPaths`, the segments of the path so far in `done`. -/
def collectWildcardPaths : Json → List String → List String → List String
  | _, [], done => [join done "."]
  | node, segment :: rest, done =>
    let segment := trimSpace segment
    if segment = "" then []
    else if segment = "*" then
      match node with
      | .obj entries => (entries.insertionSort (·.1 ≤ ·.1)).flatMap fun e =>
          collectWildcardPaths e.2 rest (done ++ [e.1])
      | .arr items => (items.zipIdx).flatMap fun e =>
          collectWildcardPaths e.1 rest (done ++ [toString e.2])
      | _ => []
    else
      match node with
      | .obj entries =>
        if rest.isEmpty then [join (done ++ [segment]) "."]
        else match entries.lookup segment with
          | none => []
          | some next => collectWildcardPaths next rest (done ++ [segment])
      | .arr items =>
        match (atoi segment).bind fun i => if 0 ≤ i then items[i.toNat]? else none with
        | none => []
        | some item =>
          if rest.isEmpty then [join (done ++ [segment]) "."]
          else collectWildcardPaths item rest (done ++ [segment])
      | _ => []

def resolveOperationPaths (data : Body) (path : String) : Except OverrideError (List String) :=
  if !contains path "*" then pure [path]
  else do
    let root ← lib.unmarshal data
    pure (collectWildcardPaths root (split path '.') []).eraseDups

/-! ## Values at a path -/

/-- The text at the path; the operations on texts fail on any other value. -/
def stringAt (data : Body) (path : String) : Except OverrideError String :=
  match lib.getBytes data path with
  | some ⟨.str s, _⟩ => pure s
  | found => throw (.msg ("operation not supported for type: " ++ (typeOf found).text))

def moveValue (data : Body) (fromPath toPath : String) : Except OverrideError Body :=
  match lib.getBytes data fromPath with
  | none => throw (.msg ("source path does not exist: " ++ fromPath))
  | some v => do
    let result ← lib.setBytes data toPath v.value
    lib.deleteBytes result fromPath

def copyValue (data : Body) (fromPath toPath : String) : Except OverrideError Body :=
  match lib.getBytes data fromPath with
  | none => throw (.msg ("source path does not exist: " ++ fromPath))
  | some v => lib.setBytes data toPath v.value

def deleteValue (data : Body) (path : String) : Except OverrideError Body :=
  if trimSpace path = "" then pure data else lib.deleteBytes data path

/-- `mergeObjects`; the entries of the new value are decoded from it. -/
def mergeObjects (data : Body) (path : String) (current : Entries) (value : Json)
    (keepOrigin : Bool) : Except OverrideError Body := do
  let newMap ← match value with
    | .obj entries => pure entries
    | .null => pure []
    | _ => throw (.msg "json: cannot unmarshal value into Go value of type map[string]interface \x7b\x7d")
  let merged := newMap.foldl
    (fun result e =>
      match result.lookup e.1 with
      | none | some .null => Entries.set e.1 e.2 result
      | some _ => if keepOrigin then result else Entries.set e.1 e.2 result)
    current
  lib.setBytes data path (.obj merged)

/-- `modifyValue`: add to an array, a text or an object. -/
def modifyValue (data : Body) (path : String) (value : Json) (keepOrigin isPrepend : Bool) :
    Except OverrideError Body :=
  match lib.getBytes data path with
  | some ⟨.arr items, _⟩ =>
    let added := match value with
      | .arr more => more
      | v => [v]
    lib.setBytes data path (.arr (if isPrepend then added ++ items else items ++ added))
  | some ⟨.str s, _⟩ =>
    let valueStr := sprint lib.number value
    lib.setBytes data path (.str (if isPrepend then valueStr ++ s else s ++ valueStr))
  | some ⟨.obj entries, _⟩ => mergeObjects lib data path entries value keepOrigin
  | found => throw (.msg ("operation not supported for type: " ++ (typeOf found).text))

def trimStringValue (data : Body) (path : String) (value : Json) (atStart : Bool) :
    Except OverrideError Body := do
  let current ← stringAt lib data path
  match value with
  | .null => throw (.msg "trim value is required")
  | value =>
    let valueStr := sprint lib.number value
    lib.setBytes data path
      (.str (if atStart then trimStart current valueStr else trimEnd current valueStr))

def ensureStringAffix (data : Body) (path : String) (value : Json) (atStart : Bool) :
    Except OverrideError Body := do
  let current ← stringAt lib data path
  match value with
  | .null => throw (.msg "ensure value is required")
  | value =>
    let valueStr := sprint lib.number value
    if valueStr = "" then throw (.msg "ensure value is required")
    else if atStart then
      if startsWith current valueStr then pure data
      else lib.setBytes data path (.str (valueStr ++ current))
    else if endsWith current valueStr then pure data
    else lib.setBytes data path (.str (current ++ valueStr))

def transformStringValue (data : Body) (path : String) (transform : String → String) :
    Except OverrideError Body := do
  let current ← stringAt lib data path
  lib.setBytes data path (.str (transform current))

def replaceStringValue (data : Body) (path old new : String) : Except OverrideError Body := do
  let current ← stringAt lib data path
  failIf (old = "") (.msg "replace from is required")
  lib.setBytes data path (.str (replaceAll current old new))

def regexReplaceStringValue (data : Body) (path pattern replacement : String) :
    Except OverrideError Body := do
  let current ← stringAt lib data path
  failIf (pattern = "") (.msg "regex pattern is required")
  let replaced ← lib.regexReplace pattern current replacement
  lib.setBytes data path (.str replaced)

/-! ## Pruning -/

structure PruneObjectsOptions where
  conditions : List ConditionOperation
  logic : String
  recursive : Bool

/-- The condition that the key `type` stands for. -/
def typedConditions (raw : Entries) : List ConditionOperation :=
  match raw.lookup "type" with
  | some matchType => [⟨"type", "full", matchType, false, false⟩]
  | none => []

/-- The end of `parsePruneObjectsOptions`: there has to be a condition. -/
def pruneBy (conditions : List ConditionOperation) (logic : String) (recursive : Bool) :
    Except OverrideError PruneObjectsOptions := do
  failIf (conditions.isEmpty = true) (.msg "prune_objects conditions are required")
  pure ⟨conditions, logic, recursive⟩

def parsePruneObjectsOptions : Json → Except OverrideError PruneObjectsOptions
  | .null => throw (.msg "prune_objects value is required")
  | .str raw =>
    let v := trimSpace raw
    if v = "" then throw (.msg "prune_objects value is required")
    else pure ⟨[⟨"type", "full", .str v, false, false⟩], "AND", true⟩
  | .obj raw => do
    let logic := match raw.lookup "logic" with
      | some (.str s) => if trimSpace s = "" then "AND" else s
      | _ => "AND"
    let recursive := match raw.lookup "recursive" with
      | some (.bool b) => b
      | _ => true
    let listed ← match raw.lookup "conditions" with
      | some condRaw => parseConditionOperations condRaw
      | none => pure []
    let matched ← match raw.lookup "where" with
      | some (.obj whereMap) => pure (whereMap.filterMap fun e =>
          if trimSpace e.1 = "" then none else some ⟨trimSpace e.1, "full", e.2, false, false⟩)
      | some _ => throw (.msg "prune_objects where must be object")
      | none => pure []
    pruneBy (listed ++ matched ++ typedConditions raw) logic recursive
  | _ => throw (.msg "prune_objects value must be string or object")

def shouldPruneObject (options : PruneObjectsOptions) (contextJSON : Option Body)
    (node : Entries) : Except OverrideError Bool :=
  checkConditions lib (lib.marshal (.obj node)) contextJSON options.conditions options.logic

mutual

/-- `pruneObjectsNode`; `none` says that the node is dropped. -/
def pruneObjectsNode (options : PruneObjectsOptions) (contextJSON : Option Body) :
    Json → Bool → Except OverrideError (Option Json)
  | .arr items, _ => do
    let result ← pruneItems options contextJSON items
    pure (some (.arr result))
  | .obj entries, isRoot => do
    let shouldDrop ← shouldPruneObject lib options contextJSON entries
    if shouldDrop && !isRoot then pure none
    else if !options.recursive then pure (some (.obj entries))
    else do
      let result ← pruneEntries options contextJSON entries
      pure (some (.obj result))
  | node, _ => pure (some node)

def pruneItems (options : PruneObjectsOptions) (contextJSON : Option Body) :
    List Json → Except OverrideError (List Json)
  | [] => pure []
  | item :: rest => do
    let next ← pruneObjectsNode options contextJSON item false
    let others ← pruneItems options contextJSON rest
    pure (next.toList ++ others)

def pruneEntries (options : PruneObjectsOptions) (contextJSON : Option Body) :
    List (String × Json) → Except OverrideError (List (String × Json))
  | [] => pure []
  | (key, child) :: rest => do
    let next ← pruneObjectsNode options contextJSON child false
    let others ← pruneEntries options contextJSON rest
    pure ((next.map fun v => (key, v)).toList ++ others)

end

/-- `pruneObjects`; the root of what is pruned is never dropped. -/
def pruneObjects (data : Body) (path : String) (contextJSON : Option Body) (value : Json) :
    Except OverrideError Body := do
  let options ← parsePruneObjectsOptions value
  if path = "" then
    let root ← lib.unmarshal data
    let cleaned ← pruneObjectsNode lib options contextJSON root true
    pure (lib.marshal (cleaned.getD .null))
  else
    match lib.getBytes data path with
    | none => pure data
    | some target => do
      let cleaned ← pruneObjectsNode lib options contextJSON target.value true
      lib.setRawBytes data path (lib.marshal (cleaned.getD .null))

end Qapi.Override
