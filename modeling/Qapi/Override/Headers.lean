import Qapi.Override.Body

/-!
# Operations on headers

The operations of an override that change the headers sent upstream. Of the override
context they use two maps, the headers of the incoming request and the header override
so far; the other keys of the context are read by conditions only.
-/

namespace Qapi.Override

open Qapi.Core

variable {Body : Type} (lib : JsonLib Body)

structure HeaderMaps where
  requestHeaders : Entries
  headerOverride : Entries

/-- `marshalContextJSON`, the other keys of the context in `rest`. The context is never empty. -/
def marshalContextJSON (rest : Entries) (ctx : HeaderMaps) : Option Body :=
  some (lib.marshal (.obj (("request_headers", .obj ctx.requestHeaders) ::
    ("header_override", .obj ctx.headerOverride) :: rest)))

def getHeaderValueFromContext (ctx : HeaderMaps) (headerName : String) : Option String :=
  let headerName := normalizeHeaderContextKey headerName
  if headerName = "" then none
  else [ctx.headerOverride, ctx.requestHeaders].findSome? fun source =>
    match source.lookup headerName with
    | none => none
    | some raw =>
      let value := trimSpace (sprint lib.number raw)
      if value = "" then none else some value

mutual

def parseHeaderReplacementTokens : Json → Except OverrideError (List String)
  | .null => pure []
  | .str raw => pure (splitHeaderListValue raw)
  | .arr items => do
    let tokens ← parseReplacementItems items
    pure tokens.eraseDups
  | .obj _ => throw (.msg "header replacement value must be string, array or null")
  | .bool b => pure [if b then "true" else "false"]
  | .num q =>
    let token := trimSpace (lib.number q)
    pure (if token = "" then [] else [token])

def parseReplacementItems : List Json → Except OverrideError (List String)
  | [] => pure []
  | item :: rest => do
    let tokens ← parseHeaderReplacementTokens item
    let others ← parseReplacementItems rest
    pure (tokens ++ others)

end

/-- The tokens that replace one token of the header: `resultTokens` grows by these. -/
def replaceToken (mapping : Entries) (keepOnlyDeclared : Bool) (token : String) :
    Except OverrideError (List String) :=
  match mapping.lookup token with
  | some replacement => parseHeaderReplacementTokens lib replacement
  | none =>
    match mapping.lookup "*", keepOnlyDeclared with
    | some wildcardValue, false => parseHeaderReplacementTokens lib wildcardValue
    | _, true => pure []
    | none, false => pure [token]

/-- `resolveHeaderOverrideValueByMapping`; `none` says that the header has no value. -/
def resolveHeaderOverrideValueByMapping (ctx : HeaderMaps) (headerName : String)
    (mapping : Entries) : Except OverrideError (Option String) := do
  failIf (mapping.isEmpty = true) (.msg "header value mapping cannot be empty")
  let appendTokens ← match mapping.lookup "$append" with
    | none => pure []
    | some appendRaw => parseHeaderReplacementTokens lib appendRaw
  let keepOnlyDeclared := match mapping.lookup "$keep_only_declared" with
    | some (.bool b) => b
    | _ => false
  let sourceTokens := ((getHeaderValueFromContext lib ctx headerName).map
    splitHeaderListValue).getD []
  let replaced ← sourceTokens.mapM (replaceToken lib mapping keepOnlyDeclared)
  let resultTokens := (replaced.flatten ++ appendTokens).eraseDups
  pure (if resultTokens.isEmpty then none else some (join resultTokens ","))

def resolveHeaderOverrideValue (ctx : HeaderMaps) (headerName : String) :
    Json → Except OverrideError (Option String)
  | .null => throw (.msg "header value is required")
  | .obj mapping => resolveHeaderOverrideValueByMapping lib ctx headerName mapping
  | value =>
    let headerValue := trimSpace (sprint lib.number value)
    pure (if headerValue = "" then none else some headerValue)

def setHeaderOverrideInContext (ctx : HeaderMaps) (headerName : String) (value : Json)
    (keepOrigin : Bool) : Except OverrideError HeaderMaps := do
  let headerName := normalizeHeaderContextKey headerName
  failIf (headerName = "") (.msg "header name is required")
  let existingValue := match ctx.headerOverride.lookup headerName with
    | none => ""
    | some existing => trimSpace (sprint lib.number existing)
  if keepOrigin ∧ existingValue ≠ "" then pure ctx
  else
    match ← resolveHeaderOverrideValue lib ctx headerName value with
    | none => pure { ctx with headerOverride := ctx.headerOverride.delete headerName }
    | some headerValue =>
      pure { ctx with headerOverride := ctx.headerOverride.set headerName (.str headerValue) }

def deleteHeaderOverrideInContext (ctx : HeaderMaps) (headerName : String) :
    Except OverrideError HeaderMaps := do
  let headerName := normalizeHeaderContextKey headerName
  failIf (headerName = "") (.msg "header name is required")
  pure { ctx with headerOverride := ctx.headerOverride.delete headerName }

/-- `copyHeaderInContext`; `none` is `errSourceHeaderNotFound`. -/
def copyHeaderInContext (ctx : HeaderMaps) (fromHeader toHeader : String)
    (keepOrigin : Bool) : Except OverrideError (Option HeaderMaps) := do
  let fromHeader := normalizeHeaderContextKey fromHeader
  let toHeader := normalizeHeaderContextKey toHeader
  failIf (fromHeader = "" ∨ toHeader = "") (.msg "copy_header from/to is required")
  match getHeaderValueFromContext lib ctx fromHeader with
  | none => pure none
  | some value => some <$> setHeaderOverrideInContext lib ctx toHeader (.str value) keepOrigin

/-- `moveHeaderInContext`; `none` is `errSourceHeaderNotFound`. -/
def moveHeaderInContext (ctx : HeaderMaps) (fromHeader toHeader : String)
    (keepOrigin : Bool) : Except OverrideError (Option HeaderMaps) := do
  let fromHeader := normalizeHeaderContextKey fromHeader
  let toHeader := normalizeHeaderContextKey toHeader
  failIf (fromHeader = "" ∨ toHeader = "") (.msg "move_header from/to is required")
  match ← copyHeaderInContext lib ctx fromHeader toHeader keepOrigin with
  | none => pure none
  | some ctx =>
    if equalFold fromHeader toHeader then pure (some ctx)
    else some <$> deleteHeaderOverrideInContext ctx fromHeader

/-! ## `pass_headers` -/

/-- The normalized names, the empty ones dropped and each kept once. -/
def normalizeNames (values : List String) : List String :=
  ((values.map normalizeHeaderContextKey).filter (· ≠ "")).eraseDups

def checkNames (names : List String) : Except OverrideError (List String) :=
  if names.isEmpty then throw (.msg "pass_headers value is invalid") else pure names

/-- `parseHeaderPassThroughNames`. A text may hold a JSON value and that one again a text, each
shorter than the one around it; `fuel` bounds the nesting. -/
def parseHeaderPassThroughNames : Nat → Json → Except OverrideError (List String)
  | 0, _ => throw (.msg "pass_headers value is invalid")
  | _ + 1, .null => throw (.msg "pass_headers value is required")
  | fuel + 1, .str raw =>
    let trimmed := trimSpace raw
    let names := checkNames (normalizeNames (split trimmed ','))
    if trimmed = "" then throw (.msg "pass_headers value is required")
    else if startsWith trimmed "[" || startsWith trimmed "\x7b" then
      match lib.unmarshalJsonStr trimmed with
      | .ok parsed => parseHeaderPassThroughNames fuel parsed
      | .error _ => names
    else names
  | _ + 1, .arr items => checkNames (normalizeNames (items.map (sprint lib.number)))
  | fuel + 1, .obj raw =>
    let candidates := ["headers", "names", "header"].flatMap fun key =>
      match raw.lookup key with
      | none => []
      | some value => ((parseHeaderPassThroughNames fuel value).toOption).getD []
    checkNames (normalizeNames candidates)
  | _ + 1, _ => throw (.msg "pass_headers value must be string, array or object")

/-- The nesting of a value cannot exceed the number of characters that it prints. -/
def nestingBound (value : Json) : Nat := (sprint lib.number value).length + 2

/-- The loop of `pass_headers` over the names. -/
def passHeaders (keepOrigin : Bool) (ctx : HeaderMaps) :
    List String → Except OverrideError HeaderMaps
  | [] => pure ctx
  | headerName :: rest => do
    let copied ← copyHeaderInContext lib ctx headerName headerName keepOrigin
    passHeaders keepOrigin (copied.getD ctx) rest

/-! ## `sync_fields` -/

inductive SyncTarget
  | json (key : String)
  | header (key : String)
deriving DecidableEq, Repr

def parseSyncTarget (spec : String) : Except OverrideError SyncTarget :=
  let raw := trimSpace spec
  if raw = "" then throw (.msg "sync_fields target is required")
  else
    match cut raw ":" with
    | none => pure (.json raw)
    | some (before, rest) =>
      let kind := toLower (trimSpace before)
      let key := trimSpace rest
      if key = "" then throw (.msg ("sync_fields target key is required: " ++ raw))
      else if kind = "json" ∨ kind = "body" then pure (.json key)
      else if kind = "header" then pure (.header key)
      else throw (.msg ("sync_fields target prefix is invalid: " ++ raw))

def readSyncTargetValue (data : Body) (ctx : HeaderMaps) : SyncTarget → Option Json
  | .json key =>
    match lib.getBytes data (processNegativeIndex lib data key) with
    | none => none
    | some ⟨.null, _⟩ => none
    | some ⟨.str s, _⟩ => if trimSpace s = "" then none else some (.str s)
    | some ⟨value, _⟩ => some value
  | .header key =>
    match getHeaderValueFromContext lib ctx key with
    | none => none
    | some value => if trimSpace value = "" then none else some (.str value)

def writeSyncTargetValue (data : Body) (ctx : HeaderMaps) (value : Json) :
    SyncTarget → Except OverrideError (Body × HeaderMaps)
  | .json key => do
    let data ← lib.setBytes data (processNegativeIndex lib data key) value
    pure (data, ctx)
  | .header key => do
    let ctx ← setHeaderOverrideInContext lib ctx key value false
    pure (data, ctx)

def syncFieldsBetweenTargets (data : Body) (ctx : HeaderMaps) (fromSpec toSpec : String) :
    Except OverrideError (Body × HeaderMaps) := do
  let fromTarget ← parseSyncTarget fromSpec
  let toTarget ← parseSyncTarget toSpec
  match readSyncTargetValue lib data ctx fromTarget, readSyncTargetValue lib data ctx toTarget with
  | some fromValue, none => writeSyncTargetValue lib data ctx fromValue toTarget
  | none, some toValue => writeSyncTargetValue lib data ctx toValue fromTarget
  | _, _ => pure (data, ctx)

end Qapi.Override
