import Qapi.Core.Machine
import Qapi.Override.Apply

/-!
# Headers across the attempts of a request

The header override that an attempt sends is that of the channel, or the one that the
parameter override left in the relay info. The relay info outlives the attempt, and
`InitChannelMeta` replaces the channel in it and nothing else. As long as no attempt has
left a runtime override there, what an attempt sends depends on the earlier ones at most
through the retry index and the last error, which the conditions of an override may read.
-/

namespace Qapi.Override

open Qapi.Core

variable {Body : Type} (lib : JsonLib Body)

/-- `types.NewAPIError`, as the override context shows it. -/
structure NewAPIError where
  statusCode : Int
  message : String
  errorCode : String
  errorType : String
  skipRetry : Bool
deriving DecidableEq, Repr

/-- `ChannelMeta`, as far as overrides read it. -/
structure ChannelMeta where
  headersOverride : Entries
  paramOverride : Entries
  upstreamModelName : String

/-- `RelayInfo`, as far as overrides read or write it. -/
structure RelayInfo where
  originModelName : String
  requestURLPath : String
  requestHeaders : List (String × String)
  isChannelTest : Bool
  retryIndex : Int
  lastError : Option NewAPIError
  channelMeta : Option ChannelMeta
  runtimeHeadersOverride : Entries
  useRuntimeHeadersOverride : Bool

def getHeaderOverrideMap (info : RelayInfo) : Entries :=
  (info.channelMeta.map (·.headersOverride)).getD []

def getParamOverrideMap (info : RelayInfo) : Entries :=
  (info.channelMeta.map (·.paramOverride)).getD []

def getEffectiveHeaderOverride (info : RelayInfo) : Entries :=
  if info.useRuntimeHeadersOverride then
    sanitizeHeaderOverrideMap lib.number info.runtimeHeadersOverride
  else sanitizeHeaderOverrideMap lib.number (getHeaderOverrideMap info)

def lastErrorContext (e : NewAPIError) : Entries :=
  let status : Json := .num e.statusCode
  [("last_error", .obj [("status_code", status), ("message", .str e.message),
    ("code", .str e.errorCode), ("error_code", .str e.errorCode), ("type", .str e.errorType),
    ("error_type", .str e.errorType), ("skip_retry", .bool e.skipRetry)]),
    ("last_error_status_code", status), ("last_error_message", .str e.message),
    ("last_error_code", .str e.errorCode), ("last_error_type", .str e.errorType)]

/-- The keys of `BuildParamOverrideContext` besides the two maps of headers. -/
def contextKeys (info : RelayInfo) : Entries :=
  let upstream := (info.channelMeta.map (·.upstreamModelName)).getD ""
  let isRetry := decide (0 < info.retryIndex)
  (if upstream ≠ "" then [("model", .str upstream), ("upstream_model", .str upstream)]
    else if info.originModelName ≠ "" then [("model", .str info.originModelName)]
    else []) ++
  (if info.originModelName ≠ "" then [("original_model", .str info.originModelName)] else []) ++
  (if info.requestURLPath ≠ "" then [("request_path", .str info.requestURLPath)] else []) ++
  [("retry_index", .num info.retryIndex), ("is_retry", .bool isRetry),
    ("retry", .obj [("index", .num info.retryIndex), ("is_retry", .bool isRetry)])] ++
  (info.lastError.map lastErrorContext).getD [] ++
  [("is_channel_test", .bool info.isChannelTest)]

/-- The maps of headers of `BuildParamOverrideContext`. -/
def contextHeaders (info : RelayInfo) : HeaderMaps :=
  ⟨buildRequestHeadersContext info.requestHeaders,
    sanitizeHeaderOverrideMap lib.number (getEffectiveHeaderOverride lib info)⟩

/-- `shouldAuditParamPath`; `debug` is `common.DebugEnabled`. -/
def shouldAuditParamPath (debug : Bool) (path : String) : Bool :=
  let path := trimSpace path
  if path = "" then false
  else if debug then true
  else ["model", "original_model", "upstream_model", "service_tier", "inference_geo", "speed",
    "messages", "input", "instructions", "system", "contents", "systemInstruction",
    "system_instruction"].any fun sensitive => path = sensitive || startsWith path (sensitive ++ ".")

def shouldEnableParamOverrideAudit (debug : Bool) (paramOverride : Entries) : Bool :=
  let keys (m : Entries) := m.any fun e => shouldAuditParamPath debug e.1
  if debug then true
  else match tryParseOperations paramOverride with
    | some operations =>
      (operations.any fun op => shouldAuditParamPath debug op.path ||
        shouldAuditParamPath debug op.source || shouldAuditParamPath debug op.target) ||
      keys (buildLegacyParamOverride paramOverride)
    | none => keys paramOverride

/-- The context keys of an override: the audit recorder is an empty object in JSON. -/
def overrideKeys (debug : Bool) (info : RelayInfo) : Entries :=
  contextKeys info ++
    if shouldEnableParamOverrideAudit debug (getParamOverrideMap info) then
      [("__param_override_audit_recorder", .obj [])]
    else []

/-- `ApplyParamOverrideWithRelayInfo`: only an override that succeeds is written back by
`syncRuntimeHeaderOverrideFromContext`. -/
def applyParamOverrideWithRelayInfo (debug : Bool) (data : Body) (info : RelayInfo) :
    Except OverrideError Body × RelayInfo :=
  let paramOverride := getParamOverrideMap info
  if paramOverride.isEmpty then (.ok data, info)
  else
    match applyParamOverride lib (overrideKeys debug info) data (contextHeaders lib info)
        paramOverride with
    | .error e => (.error e, info)
    | .ok (result, ctx) =>
      (.ok result, { info with
        runtimeHeadersOverride := sanitizeHeaderOverrideMap lib.number ctx.headerOverride
        useRuntimeHeadersOverride := true })

/-! ## Attempts -/

/-- What the relay knows of a request before the first attempt. -/
structure Request where
  originModelName : String
  requestURLPath : String
  requestHeaders : List (String × String)
  isChannelTest : Bool

def Request.info (r : Request) : RelayInfo :=
  { originModelName := r.originModelName
    requestURLPath := r.requestURLPath
    requestHeaders := r.requestHeaders
    isChannelTest := r.isChannelTest
    retryIndex := 0
    lastError := none
    channelMeta := none
    runtimeHeadersOverride := []
    useRuntimeHeadersOverride := false }

/-- An attempt: its retry index, the channel it uses, the body to which the handler applies
the parameter override, if it does, and the error with which it ends. -/
structure Attempt (Body : Type) where
  retryIndex : Int
  channel : ChannelMeta
  body : Option Body
  error : NewAPIError

def initChannelMeta (info : RelayInfo) (a : Attempt Body) : RelayInfo :=
  { info with retryIndex := a.retryIndex, channelMeta := some a.channel }

def prepare (debug : Bool) (info : RelayInfo) (a : Attempt Body) : RelayInfo :=
  match a.body with
  | none => initChannelMeta info a
  | some data => (applyParamOverrideWithRelayInfo lib debug data (initChannelMeta info a)).2

def attempt (debug : Bool) (info : RelayInfo) (a : Attempt Body) : RelayInfo :=
  { prepare lib debug info a with lastError := some a.error }

def headersBefore (info : RelayInfo) (a : Attempt Body) : Entries :=
  getEffectiveHeaderOverride lib (initChannelMeta info a)

def headersAfter (debug : Bool) (info : RelayInfo) (a : Attempt Body) : Entries :=
  getEffectiveHeaderOverride lib (prepare lib debug info a)

/-! ## Isolation -/

/-- The relay info of the request when no attempt has left a runtime override in it. -/
structure Fresh (r : Request) (info : RelayInfo) : Prop where
  originModelName : info.originModelName = r.originModelName
  requestURLPath : info.requestURLPath = r.requestURLPath
  requestHeaders : info.requestHeaders = r.requestHeaders
  isChannelTest : info.isChannelTest = r.isChannelTest
  noRuntime : info.useRuntimeHeadersOverride = false

theorem Request.fresh (r : Request) : Fresh r r.info := ⟨rfl, rfl, rfl, rfl, rfl⟩

/-- The attempt leaves no runtime override: its channel has no parameter override, or the
handler does not get through applying it. -/
def LeavesNoRuntime (debug : Bool) (info : RelayInfo) (a : Attempt Body) : Prop :=
  a.channel.paramOverride = [] ∨ ∀ data, a.body = some data →
    isOk (applyParamOverrideWithRelayInfo lib debug data (initChannelMeta info a)).1 = false

variable {info : RelayInfo}

theorem applyParamOverrideWithRelayInfo_nil (debug : Bool) (data : Body)
    (h : getParamOverrideMap info = []) :
    applyParamOverrideWithRelayInfo lib debug data info = (.ok data, info) := by
  simp [applyParamOverrideWithRelayInfo, h]

theorem applyParamOverrideWithRelayInfo_error (debug : Bool) (data : Body)
    (h : isOk (applyParamOverrideWithRelayInfo lib debug data info).1 = false) :
    (applyParamOverrideWithRelayInfo lib debug data info).2 = info := by
  unfold applyParamOverrideWithRelayInfo at h ⊢
  simp only at h ⊢
  split
  · rfl
  · rename_i hNonempty
    rw [if_neg hNonempty] at h
    cases hApply : applyParamOverride lib (overrideKeys debug info) data (contextHeaders lib info)
      (getParamOverrideMap info) with
    | error e => rfl
    | ok r =>
      rw [hApply] at h
      exact absurd h (by simp)

theorem prepare_of_leavesNoRuntime {debug : Bool} {a : Attempt Body}
    (h : LeavesNoRuntime lib debug info a) : prepare lib debug info a = initChannelMeta info a := by
  unfold prepare
  cases hBody : a.body with
  | none => rfl
  | some data =>
    rcases h with hEmpty | hFails
    · have hMap : getParamOverrideMap (initChannelMeta info a) = [] := hEmpty
      simp only [applyParamOverrideWithRelayInfo_nil lib debug data hMap]
    · exact applyParamOverrideWithRelayInfo_error lib debug data (hFails data hBody)

theorem fresh_attempt {r : Request} {debug : Bool} {a : Attempt Body} (hInfo : Fresh r info)
    (h : LeavesNoRuntime lib debug info a) : Fresh r (attempt lib debug info a) := by
  rw [attempt, prepare_of_leavesNoRuntime lib h]
  exact ⟨hInfo.originModelName, hInfo.requestURLPath, hInfo.requestHeaders, hInfo.isChannelTest,
    hInfo.noRuntime⟩

theorem headersBefore_of_fresh {r : Request} (hInfo : Fresh r info) (a : Attempt Body) :
    headersBefore lib info a = sanitizeHeaderOverrideMap lib.number a.channel.headersOverride := by
  have hUse : (initChannelMeta info a).useRuntimeHeadersOverride = false := hInfo.noRuntime
  rw [headersBefore, getEffectiveHeaderOverride, hUse]
  rfl

section

variable {r : Request} {info₁ info₂ : RelayInfo} {a₁ a₂ : Attempt Body}

theorem contextHeaders_eq (h₁ : Fresh r info₁) (h₂ : Fresh r info₂)
    (hChannel : a₁.channel = a₂.channel) :
    contextHeaders lib (initChannelMeta info₁ a₁) = contextHeaders lib (initChannelMeta info₂ a₂) := by
  have hOverride : getEffectiveHeaderOverride lib (initChannelMeta info₁ a₁) =
      getEffectiveHeaderOverride lib (initChannelMeta info₂ a₂) := by
    have hBefore₁ := headersBefore_of_fresh lib h₁ a₁
    have hBefore₂ := headersBefore_of_fresh lib h₂ a₂
    rw [← hChannel] at hBefore₂
    exact hBefore₁.trans hBefore₂.symm
  have hRequest : (initChannelMeta info₁ a₁).requestHeaders =
      (initChannelMeta info₂ a₂).requestHeaders := h₁.requestHeaders.trans h₂.requestHeaders.symm
  rw [contextHeaders, contextHeaders, hOverride, hRequest]

theorem overrideKeys_eq (debug : Bool) (h₁ : Fresh r info₁) (h₂ : Fresh r info₂)
    (hChannel : a₁.channel = a₂.channel) (hRetry : a₁.retryIndex = a₂.retryIndex)
    (hError : info₁.lastError = info₂.lastError) :
    overrideKeys debug (initChannelMeta info₁ a₁) = overrideKeys debug (initChannelMeta info₂ a₂) := by
  have hModel := h₁.originModelName.trans h₂.originModelName.symm
  have hPath := h₁.requestURLPath.trans h₂.requestURLPath.symm
  have hTest := h₁.isChannelTest.trans h₂.isChannelTest.symm
  -- the keys do not show the runtime override
  have hKeys : ∀ info : RelayInfo, overrideKeys debug info = overrideKeys debug
      { info with runtimeHeadersOverride := [], useRuntimeHeadersOverride := false } :=
    fun _ => rfl
  rw [hKeys (initChannelMeta info₁ a₁), hKeys (initChannelMeta info₂ a₂)]
  simp only [initChannelMeta, hChannel, hRetry, hError, hModel, hPath, hTest,
    h₁.requestHeaders, h₂.requestHeaders]

/-- What the override makes of the headers depends on the earlier attempts only through what
the context shows. -/
theorem headersAfter_eq (debug : Bool) (h₁ : Fresh r info₁) (h₂ : Fresh r info₂)
    (hChannel : a₁.channel = a₂.channel) (hBody : a₁.body = a₂.body)
    (hContext : (a₁.retryIndex = a₂.retryIndex ∧ info₁.lastError = info₂.lastError) ∨
      Unconditional a₁.channel.paramOverride) :
    headersAfter lib debug info₁ a₁ = headersAfter lib debug info₂ a₂ := by
  have hBefore : headersBefore lib info₁ a₁ = headersBefore lib info₂ a₂ := by
    rw [headersBefore_of_fresh lib h₁, headersBefore_of_fresh lib h₂, hChannel]
  have hMap : getParamOverrideMap (initChannelMeta info₁ a₁) =
      getParamOverrideMap (initChannelMeta info₂ a₂) := by
    simp only [getParamOverrideMap, initChannelMeta, hChannel]
  unfold headersAfter prepare
  rw [← hBody]
  cases a₁.body with
  | none => exact hBefore
  | some data =>
    have hApply : applyParamOverride lib (overrideKeys debug (initChannelMeta info₁ a₁)) data
          (contextHeaders lib (initChannelMeta info₁ a₁))
          (getParamOverrideMap (initChannelMeta info₁ a₁)) =
        applyParamOverride lib (overrideKeys debug (initChannelMeta info₂ a₂)) data
          (contextHeaders lib (initChannelMeta info₂ a₂))
          (getParamOverrideMap (initChannelMeta info₂ a₂)) := by
      rw [contextHeaders_eq lib h₁ h₂ hChannel, ← hMap]
      rcases hContext with ⟨hRetry, hError⟩ | hUnconditional
      · rw [overrideKeys_eq debug h₁ h₂ hChannel hRetry hError]
      · exact applyParamOverride_rest lib hUnconditional _ _ data _
    simp only [applyParamOverrideWithRelayInfo]
    rw [hApply, hMap]
    split
    · exact hBefore
    · cases applyParamOverride lib (overrideKeys debug (initChannelMeta info₂ a₂)) data
        (contextHeaders lib (initChannelMeta info₂ a₂))
        (getParamOverrideMap (initChannelMeta info₂ a₂)) with
      | error e => exact hBefore
      | ok r => rfl

end

/-- Two runs of one request, in which the earlier attempts left no runtime override, reach the
same channel: before the parameter override both send the headers of that channel, and after
it the same ones, if the runs show the override the same retry index and last error or no
operation of it looks. -/
theorem headers_isolated (debug : Bool) (r : Request) (l₁ l₂ : List (Attempt Body))
    (h₁ : Guarded (attempt lib debug) (LeavesNoRuntime lib debug) r.info l₁)
    (h₂ : Guarded (attempt lib debug) (LeavesNoRuntime lib debug) r.info l₂)
    (a₁ a₂ : Attempt Body) (hChannel : a₁.channel = a₂.channel) (hBody : a₁.body = a₂.body) :
    let info₁ := run (attempt lib debug) r.info l₁
    let info₂ := run (attempt lib debug) r.info l₂
    headersBefore lib info₁ a₁ =
        sanitizeHeaderOverrideMap lib.number a₁.channel.headersOverride ∧
      headersBefore lib info₁ a₁ = headersBefore lib info₂ a₂ ∧
      ((a₁.retryIndex = a₂.retryIndex ∧ info₁.lastError = info₂.lastError) ∨
          Unconditional a₁.channel.paramOverride →
        headersAfter lib debug info₁ a₁ = headersAfter lib debug info₂ a₂) := by
  intro info₁ info₂
  have hFresh : ∀ l, Guarded (attempt lib debug) (LeavesNoRuntime lib debug) r.info l →
      Fresh r (run (attempt lib debug) r.info l) := fun l hl =>
    Guarded.invariant (fun _ _ => fresh_attempt lib) r.fresh hl
  have hInfo₁ : Fresh r info₁ := hFresh l₁ h₁
  have hInfo₂ : Fresh r info₂ := hFresh l₂ h₂
  refine ⟨headersBefore_of_fresh lib hInfo₁ a₁, ?_, ?_⟩
  · rw [headersBefore_of_fresh lib hInfo₁, headersBefore_of_fresh lib hInfo₂, hChannel]
  · exact headersAfter_eq lib debug hInfo₁ hInfo₂ hChannel hBody

def descend : Json → List String → Option Json
  | v, [] => some v
  | .obj m, key :: rest => (m.lookup key).bind (descend · rest)
  | _, _ :: _ => none

/-- The JSON libraries on decoded bodies, for paths of plain keys. -/
def plainLib : JsonLib Json where
  getBytes data path := (descend data (split path '.')).map fun v => ⟨v, sprint (toString ·.num) v⟩
  setBytes
    | .obj m, path, v => .ok (.obj (Entries.set path v m))
    | v, _, _ => .ok v
  setRawBytes
    | .obj m, path, v => .ok (.obj (Entries.set path v m))
    | v, _, _ => .ok v
  deleteBytes
    | .obj m, path => .ok (.obj (Entries.delete path m))
    | v, _ => .ok v
  unmarshal := .ok
  marshal v := v
  parseBytes v := ⟨v, sprint (toString ·.num) v⟩
  unmarshalJsonStr _ := .error (.msg "invalid character")
  number q := toString q.num
  regexReplace _ s _ := .ok s

def sampleRequest : Request := ⟨"gpt-4o", "/v1/chat/completions", [], false⟩

def sampleError (statusCode : Int) : NewAPIError :=
  ⟨statusCode, "upstream error", "bad_response_status_code", "new_api_error", false⟩

def plainAttempt (key : String) (statusCode : Int) : Attempt Json :=
  ⟨0, ⟨[("X-Key", .str key)], [], "gpt-4o"⟩, some (.obj []), sampleError statusCode⟩

def credentialAttempt : Attempt Json :=
  ⟨0, ⟨[], [("operations", .arr [.obj [("mode", .str "set_header"), ("path", .str "authorization"),
    ("value", .str "Bearer first")]])], "gpt-4o"⟩, some (.obj []), sampleError 500⟩

/-- A channel with a key of its own that marks requests another upstream has refused. -/
def markingAttempt : Attempt Json :=
  ⟨1, ⟨[("X-Key", .str "second")], [("operations", .arr [.obj [("mode", .str "set_header"),
    ("path", .str "x-overflow"), ("value", .str "1"), ("conditions", .arr [.obj
      [("path", .str "last_error_status_code"), ("mode", .str "full"), ("value", .num 429)]])]])],
    "gpt-4o"⟩, some (.obj []), sampleError 500⟩

def headersSent (earlier : List (Attempt Json)) (a : Attempt Json) (name : String) :
    Option String × Option String :=
  let info := run (attempt plainLib false) sampleRequest.info earlier
  (textField (headersBefore plainLib info a) name,
    textField (headersAfter plainLib false info a) name)

theorem plain_attempts_isolated :
    let info (key : String) :=
      run (attempt plainLib false) sampleRequest.info [plainAttempt key 429]
    headersBefore plainLib (info "first") markingAttempt =
        headersBefore plainLib (info "other") markingAttempt ∧
      headersAfter plainLib false (info "first") markingAttempt =
        headersAfter plainLib false (info "other") markingAttempt := by
  have hQuiet : ∀ key, Guarded (attempt plainLib false) (LeavesNoRuntime plainLib false)
      sampleRequest.info [plainAttempt key 429] := fun _ => ⟨Or.inl rfl, trivial⟩
  have hSame := headers_isolated plainLib false sampleRequest [plainAttempt "first" 429]
    [plainAttempt "other" 429] (hQuiet "first") (hQuiet "other") markingAttempt markingAttempt
    rfl rfl
  exact ⟨hSame.2.1, hSame.2.2 (Or.inl ⟨rfl, rfl⟩)⟩

/-- The same channel sends different headers after different earlier attempts: what it marks
depends on the last error, and the credential of the first channel takes the place of its own
header. -/
theorem marking_channel_sends_different_headers :
    headersSent [plainAttempt "first" 429] markingAttempt "x-overflow" = (none, some "1") ∧
      headersSent [plainAttempt "first" 500] markingAttempt "x-overflow" = (none, none) ∧
      headersSent [plainAttempt "first" 500] markingAttempt "x-key" =
        (some "second", some "second") ∧
      headersSent [credentialAttempt] markingAttempt "x-key" = (none, none) ∧
      headersSent [credentialAttempt] markingAttempt "authorization" =
        (some "Bearer first", some "Bearer first") := by
  decide

/-! ## Overrides of header operations -/

/-- `ApplyHeaderOnlyParamOverrideWithRelayInfo`. -/
def applyHeaderOnlyParamOverrideWithRelayInfo (debug : Bool) (info : RelayInfo) :
    Except OverrideError Unit × RelayInfo :=
  if !isHeaderOnlyParamOverride (getParamOverrideMap info) then
    (.error (.msg "param override is not header-only"), info)
  else
    let (result, info) := applyParamOverrideWithRelayInfo lib debug (lib.marshal (.obj [])) info
    (result.map fun _ => (), info)

/-- An override of header operations leaves the body as it is, and does to the headers what it
does without the body. -/
theorem header_only_override_agrees (debug : Bool) (info : RelayInfo)
    (h : isHeaderOnlyParamOverride (getParamOverrideMap info) = true) (data : Body) :
    applyParamOverrideWithRelayInfo lib debug data info =
      ((applyHeaderOnlyParamOverrideWithRelayInfo lib debug info).1.map fun _ => data,
        (applyHeaderOnlyParamOverrideWithRelayInfo lib debug info).2) := by
  simp only [applyHeaderOnlyParamOverrideWithRelayInfo, h, Bool.not_true, Bool.false_eq_true,
    if_false, applyParamOverrideWithRelayInfo]
  by_cases hEmpty : (getParamOverrideMap info).isEmpty
  · rw [if_pos hEmpty, if_pos hEmpty]
    rfl
  · rw [if_neg hEmpty, if_neg hEmpty,
      applyParamOverride_body lib hEmpty h _ data (lib.marshal (.obj []))]
    cases applyParamOverride lib (overrideKeys debug info) (lib.marshal (.obj []))
      (contextHeaders lib info) (getParamOverrideMap info) <;> rfl

theorem credential_override_agrees :
    let info := initChannelMeta sampleRequest.info credentialAttempt
    isHeaderOnlyParamOverride (getParamOverrideMap info) = true ∧
      applyParamOverrideWithRelayInfo plainLib false (.str "body") info =
        ((applyHeaderOnlyParamOverrideWithRelayInfo plainLib false info).1.map fun _ => .str "body",
          (applyHeaderOnlyParamOverrideWithRelayInfo plainLib false info).2) := by
  intro info
  have hOnly : isHeaderOnlyParamOverride (getParamOverrideMap info) = true := by decide
  exact ⟨hOnly, header_only_override_agrees plainLib false info hOnly (.str "body")⟩

end Qapi.Override
