import AgentRuntime.MemoirRequest
import AgentRuntime.ToolCallAudit

/-!
# The business tool gateway

`ToolGateway._call` as `publish_playback_document` and `get_publish_result`
use it: one request, no retry. What happens on the wire is data (`Wire`);
`call` is what the gateway makes of it.

The checks before the send are not modelled one by one: a call they stop is
`Wire.stopped` with the code it stops with. What Python knows of characters
and numerals (`\d`, `int` of a string) is a parameter.
-/

namespace AgentRuntime

/-- The exceptions `client.post` raises. -/
inductive RequestError
  | connectTimeout | readTimeout | writeTimeout | poolTimeout
  | connectError | readError | writeError | closeError
  | localProtocolError | remoteProtocolError | proxyError | unsupportedProtocol
  | decodingError
  deriving DecidableEq, Repr

namespace RequestError

/-- The subclasses of `httpx.TimeoutException`. -/
def isTimeout : RequestError → Bool
  | connectTimeout | readTimeout | writeTimeout | poolTimeout => true
  | _ => false

/-- The connection was there, so the request may have left. -/
def mayHaveReached : RequestError → Bool
  | connectTimeout | poolTimeout | connectError | proxyError | unsupportedProtocol => false
  | _ => true

end RequestError

/-- A response: `body` is `response.json()`, `none` where that raises;
`peerIp` is the address of the peer, `none` where it is not an address. -/
structure HttpResponse where
  statusCode : Nat
  body : Option Json
  peerIp : Option String := none

/-- What a call comes to on the wire. -/
inductive Wire
  | stopped (code : String)
  | failed (e : RequestError)
  | answered (response : HttpResponse)

namespace HttpResponse

/-- `is_redirect`. -/
def isRedirect (response : HttpResponse) : Bool :=
  decide (300 ≤ response.statusCode ∧ response.statusCode < 400)

/-- `is_error`. -/
def isError (response : HttpResponse) : Bool :=
  decide (400 ≤ response.statusCode ∧ response.statusCode < 600)

/-- `is_success`. -/
def isSuccess (response : HttpResponse) : Bool :=
  decide (200 ≤ response.statusCode ∧ response.statusCode < 300)

end HttpResponse

/-! ## Error responses -/

structure ToolErrorSpec where
  httpStatus : Nat
  errorType : String
  retryable : Bool
  safeMessage : String
  deriving DecidableEq, Repr

/-- `TOOL_ERROR_SPECS_V1_0`. -/
def toolErrorSpecsV1_0 : List (String × ToolErrorSpec) :=
  [("MEMORY_SNAPSHOT_UNAVAILABLE", ⟨403, "snapshot_unavailable", false, "回忆快照当前不可读取"⟩),
   ("GENERATION_SUPERSEDED", ⟨403, "generation_superseded", false, "当前生成已被更新版本取代"⟩),
   ("MEMORY_RUN_NOT_ACTIVE", ⟨403, "run_not_active", false, "该回忆录运行当前不可执行"⟩),
   ("MEMORY_DOCUMENT_INVALID", ⟨403, "document_invalid", false, "播放文档不满足发布要求"⟩),
   ("IDEMPOTENCY_CONFLICT", ⟨409, "idempotency_conflict", false, "请求与既有幂等操作冲突"⟩),
   ("PUBLISH_NOT_YET_OBSERVED", ⟨404, "publish_not_observed", false, "尚未观察到发布结果"⟩)]

/-- `TOOL_ERROR_SPECS_V1_1`. -/
def toolErrorSpecsV1_1 : List (String × ToolErrorSpec) :=
  [("IDEMPOTENCY_CONFLICT", ⟨409, "idempotency_conflict", false, "请求与既有幂等操作冲突"⟩),
   ("GENERATION_SUPERSEDED", ⟨409, "generation_superseded", false, "当前生成已被更新版本取代"⟩),
   ("AUTHORIZATION_REVOKED", ⟨403, "authorization_revoked", false, "该运行授权已失效"⟩),
   ("BUSINESS_DATA_INVALID", ⟨422, "business_data_invalid", false, "业务数据不满足工具要求"⟩),
   ("MEMORY_SNAPSHOT_UNAVAILABLE", ⟨403, "snapshot_unavailable", false, "回忆快照当前不可读取"⟩),
   ("MEMORY_RUN_NOT_ACTIVE", ⟨409, "run_not_active", false, "该回忆录运行当前不可执行"⟩),
   ("MEMORY_DOCUMENT_INVALID", ⟨422, "document_invalid", false, "播放文档不满足发布要求"⟩),
   ("PUBLISH_NOT_YET_OBSERVED", ⟨404, "publish_not_observed", false, "尚未观察到发布结果"⟩),
   ("RUNTIME_SERVICE_UNAVAILABLE", ⟨503, "service_unavailable", true, "业务工具服务暂时不可用"⟩),
   ("MEMORY_DOCUMENT_MEDIA_INVALID",
     ⟨422, "document_media_invalid", false, "播放文档媒体内容不满足发布要求"⟩),
   ("MEMORY_AUDIO_DOCUMENT_INVALID",
     ⟨422, "audio_document_invalid", false, "播放文档音频内容不满足发布要求"⟩),
   ("MEMORY_AUDIO_PRODUCER_FORBIDDEN",
     ⟨403, "audio_producer_forbidden", false, "当前生产者无权发布有声播放文档"⟩)]

/-- `TOOL_ERROR_SPECS_BY_WIRE_VERSION`. -/
def toolErrorSpecs (wireVersion : String) : Option (List (String × ToolErrorSpec)) :=
  if wireVersion = "1.0.0" then some toolErrorSpecsV1_0
  else if wireVersion = "1.1.0" then some toolErrorSpecsV1_1
  else none

/-- A `ToolError` the gateway has accepted. -/
structure ToolError where
  errorCode : String
  retryable : Bool
  deriving DecidableEq, Repr

/-- The object has these keys and no others. -/
def hasKeys (fields : List (String × Json)) (keys : List String) : Bool :=
  decide ((∀ k ∈ fields.map Prod.fst, k ∈ keys) ∧ ∀ k ∈ keys, k ∈ fields.map Prod.fst)

/-- The key sets `_parse_tool_error` accepts. -/
def toolErrorKeys (wireVersion : String) (fields : List (String × Json)) : Bool :=
  let required := ["error_code", "error_type", "retryable", "safe_message"]
  (decide (wireVersion = "1.0.0") && hasKeys fields required) ||
    hasKeys fields (required ++ ["details_visible_to_model"])

/-- `_parse_tool_error`, with the code it raises. -/
def parseToolError (wireVersion : String) (response : HttpResponse) : Except String ToolError :=
  match response.body with
  | some (.obj fields) =>
    if toolErrorKeys wireVersion fields then
      match Json.get? "error_code" fields, Json.get? "error_type" fields,
          Json.get? "retryable" fields, Json.get? "safe_message" fields,
          (Json.get? "details_visible_to_model" fields).getD (.bool false) with
      | some (.str errorCode), some (.str errorType), some (.bool retryable),
          some (.str safeMessage), .bool false =>
        match toolErrorSpecs wireVersion with
        | none => .error "TOOL_WIRE_VERSION_INVALID"
        | some specs =>
          match specs.lookup errorCode with
          | none => .error "TOOL_ERROR_CODE_UNKNOWN"
          | some spec =>
            if spec = ⟨response.statusCode, errorType, retryable, safeMessage⟩ then
              .ok ⟨errorCode, retryable⟩
            else .error "TOOL_ERROR_CONTRADICTION"
      | _, _, _, _, _ => .error "TOOL_ERROR_SHAPE_INVALID"
    else .error "TOOL_ERROR_SHAPE_INVALID"
  | _ => .error "TOOL_ERROR_SHAPE_INVALID"

/-! ## Results -/

/-- What Python knows of characters and numerals. -/
structure PyText where
  /-- `\d` of `re`. -/
  isDecimal : Char → Bool
  /-- `int` of a string. -/
  parseInt : String → Option Int

/-- `n` digits off the front. -/
def takeDigits (text : PyText) : Nat → List Char → Option (List Char)
  | 0, cs => some cs
  | _ + 1, [] => none
  | n + 1, c :: cs => if text.isDecimal c then takeDigits text n cs else none

/-- `(?!\d)`. -/
def noDigit (text : PyText) (cs : List Char) : Bool :=
  !(cs.head?.any text.isDecimal)

/-- `1[3-9]\d{9}`, then no digit. -/
def phoneAt (text : PyText) : List Char → Bool
  | '1' :: c :: cs =>
    decide ('3' ≤ c ∧ c ≤ '9') && (takeDigits text 9 cs).any (noDigit text)
  | _ => false

/-- `\d{17}[\dXx]`, then no digit. -/
def identityAt (text : PyText) (cs : List Char) : Bool :=
  match takeDigits text 17 cs with
  | some (c :: rest) => (text.isDecimal c || c == 'X' || c == 'x') && noDigit text rest
  | _ => false

/-- `_TOOL_OUTPUT_SENSITIVE.search`; `afterDigit` is the look-behind. -/
def sensitiveFrom (text : PyText) (afterDigit : Bool) : List Char → Bool
  | [] => false
  | c :: cs =>
    (!afterDigit && (phoneAt text (c :: cs) || identityAt text (c :: cs))) ||
      sensitiveFrom text (text.isDecimal c) cs

mutual

/-- `walk` of `_validate_output` raises. -/
def walkRejects (text : PyText) : Json → Bool
  | .str s => sensitiveFrom text false s.toList
  | .arr items => walkItemsReject text items
  | .obj fields => walkFieldsReject text fields
  | _ => false

def walkItemsReject (text : PyText) : List Json → Bool
  | [] => false
  | item :: items => walkRejects text item || walkItemsReject text items

def walkFieldsReject (text : PyText) : List (String × Json) → Bool
  | [] => false
  | (_, value) :: fields => walkRejects text value || walkFieldsReject text fields

end

/-- `re.fullmatch` of the digest of a document. -/
def isHexDigest (s : String) : Bool :=
  decide (s.toList.length = 64) &&
    s.toList.all (fun c => decide (('0' ≤ c ∧ c ≤ '9') ∨ ('a' ≤ c ∧ c ≤ 'f')))

/-- `_is_trusted_publish_result_output`, on the publication routes. -/
def trustedPublishResult (output : Summary) : Bool :=
  match Json.get? "revision" output, Json.get? "content_digest" output with
  | some (.int _), some (.str digest) => isHexDigest digest
  | _, _ => false

/-- `_validate_output` raises. -/
def outputRejected (text : PyText) (output : Summary) : Bool :=
  walkFieldsReject text (if trustedPublishResult output then
    output.filter (fun field => decide (field.1 ≠ "content_digest")) else output)

/-- The output names a schema version of its own, and not this one. -/
def foreignVersion (output : Summary) : Bool :=
  match Json.get? "schema_version" output with
  | some (.str inner) => decide (inner ≠ "1.0.0")
  | _ => false

/-- The gateway as it is configured for a run: the peers a response may come
from (`none` where they are not checked), and the wire version. -/
structure ToolGateway where
  text : PyText
  allowedPeerIps : Option (List String) := none
  wireVersion : String := "1.1.0"

/-- What `_call` raises: a validated business rejection, a timeout, an HTTP
status, or anything else. -/
inductive GatewayError
  | toolError (e : ToolError)
  | timeout
  | httpStatus (statusCode : Nat)
  | other (code : String)
  deriving DecidableEq, Repr

namespace ToolGateway

/-- `_verify_connected_peer` passes. -/
def peerVerified (g : ToolGateway) (response : HttpResponse) : Bool :=
  match g.allowedPeerIps with
  | none => true
  | some allowed => response.peerIp.any (fun ip => decide (ip ∈ allowed))

/-- `ToolResult.model_validate` and the checks after it. -/
def parseResult (g : ToolGateway) (response : HttpResponse) : Except String Summary :=
  match response.body with
  | some (.obj fields) =>
    match Json.get? "output" fields,
        (Json.get? "schema_version" fields).getD (.str "1.0.0") with
    | some (.obj output), .str version =>
      if ¬ ∀ k ∈ fields.map Prod.fst, k ∈ ["output", "schema_version"] then
        .error "TOOL_OUTPUT_INVALID"
      else if version ≠ "1.0.0" then .error "TOOL_OUTPUT_SCHEMA_VERSION_INVALID"
      else if foreignVersion output then .error "TOOL_OUTPUT_SCHEMA_VERSION_INVALID"
      else if outputRejected g.text output then .error "TOOL_OUTPUT_SENSITIVE"
      else .ok output
    | _, _ => .error "TOOL_OUTPUT_INVALID"
  | _ => .error "TOOL_OUTPUT_INVALID"

/-- `_call`. -/
def call (g : ToolGateway) : Wire → Except GatewayError Summary
  | .stopped code => .error (.other code)
  | .failed e => .error (if e.isTimeout then .timeout else .other "TRANSPORT_ERROR")
  | .answered response =>
    if ¬ g.peerVerified response then .error (.other "BUSINESS_CONNECTOR_PEER_MISMATCH")
    else if response.isError then
      match parseToolError g.wireVersion response with
      | .error code => .error (.other code)
      | .ok e => .error (.toolError e)
    else if ¬ response.isSuccess then .error (.httpStatus response.statusCode)
    else
      match g.parseResult response with
      | .error code => .error (.other code)
      | .ok output => .ok output

/-- `get_publish_result`. -/
def getPublishResult (g : ToolGateway) (wire : Wire) : Except GatewayError (Option Summary) :=
  match g.call wire with
  | .ok output => .ok (some output)
  | .error (.toolError e) =>
    if e.errorCode = "PUBLISH_NOT_YET_OBSERVED" then .ok none else .error (.toolError e)
  | .error e => .error e

end ToolGateway

end AgentRuntime
