import ParallelForge.Agents.StrictJson
import ParallelForge.Base.Result
import ParallelForge.Base.Table

/-!
# The Claude stream codec (`agents/claude_protocol.py`)

One line at a time, with what the tool handler would answer. A line that is
refused keeps what it changed before the refusal: its request identity, and a
call that was registered before its handler failed. The events say what a line
did; no check reads them.
-/

namespace ParallelForge.Agents
open Base

/-- The constructor's arguments; the schema of every registered tool exists. -/
structure ClaudeConfig where
  threadId : Str
  turnId : Str
  tools : List Str
  inputSchema : Str → Json
  sha256 : Str → Str
  readFloat : Json.FloatText → Option Json.FloatText

structure ProviderToolCall where
  callKey : Str
  threadId : Str
  turnId : Str
  name : Str
  arguments : Members

inductive HandlerResult
  | raised
  | returned (receipt : Json)

inductive Failure
  | protocol (error : ProtocolError)
  | unicode
  | unhashable
  | handler
  deriving DecidableEq, Repr

structure Fingerprint where
  name : Str
  arguments : Str
  toolUseId : Str
  deriving DecidableEq

structure ClaudeState where
  requests : List Str
  calls : Table Str Fingerprint
  toolUseIds : Table Str Str
  callToolUseIds : Table Str Str
  mcpIds : Table Str Str
  initialized : Bool
  initializationNotificationSeen : Bool
  toolsListSeen : Bool
  terminal : Option Members

def ClaudeState.init : ClaudeState :=
  ⟨[], Table.empty, Table.empty, Table.empty, Table.empty, false, false, false, none⟩

inductive Handshake
  | initializeRequest
  | initialized
  | toolsList
  deriving DecidableEq, Repr

inductive Event
  | request (requestId : Str) (request : Json)
  | handshake (step : Handshake)
  | hashed (text : Str)
  | registered (ident : Json) (toolUseId key name : Str) (arguments : Members)
  | called (ident : Json) (toolUseId : Str) (call : ProviderToolCall)

/-- What a line did; the latest event first. -/
structure Turn (α : Type) where
  state : ClaudeState
  result : Except Failure α
  events : List Event

def Turn.fail {α : Type} (state : ClaudeState) (message : String) (events : List Event) : Turn α :=
  ⟨state, .error (.protocol ⟨message⟩), events⟩

def isStr (v : Option Json) (s : Str) : Bool :=
  match v with
  | some (.str t) => t = s
  | _ => false

def isString : Option Json → Bool
  | some (.str _) => true
  | _ => false

/-- A missing member or `null`. -/
def isNone : Option Json → Bool
  | none => true
  | some .null => true
  | _ => false

/-- Whether `value in {...}` can be asked of a frozen value. -/
def hashable : Json → Bool
  | .obj _ => false
  | .arr vs => hashableItems vs
  | _ => true
where
  hashableItems : List Json → Bool
    | [] => true
    | v :: vs => hashable v && hashableItems vs

/-- `_rate_limit` (`claude_protocol.py:74-88`). -/
def rateLimit (cfg : ClaudeConfig) (frame : Members) : Except ProtocolError Unit :=
  match isObject (member frame "rate_limit_info"), member frame "uuid" with
  | some info, some (.str ident) =>
    require (keysAre frame ["type", "session_id", "uuid", "rate_limit_info"] = true ∧
      isStr (member frame "session_id") cfg.threadId = true ∧
      1 ≤ ident.length ∧ ident.length ≤ 128 ∧
      (["allowed", "allowed_warning", "rejected"].any fun status =>
        isText (member info "status") status) = true ∧
      (isNone (member info "rateLimitType") || isString (member info "rateLimitType")) = true)
      ⟨"invalid Claude quota notification"⟩
  | _, _ => .error ⟨"invalid Claude quota notification"⟩

def permittedResult : List String :=
  ["type", "subtype", "structured_output", "session_id", "duration_ms", "duration_api_ms",
    "num_turns", "usage", "model_usage", "modelUsage", "total_cost_usd", "is_error", "stop_reason",
    "errors", "uuid", "result", "permission_denials", "api_error_status", "terminal_reason",
    "origin", "deferred_tool_use", "fast_mode_disabled_reason", "fast_mode_state",
    "first_content_frame_ms", "queued_turn_count", "subagent_stats", "time_to_request_ms",
    "ttft_ms", "ttft_stream_ms"]

def humanOrigin (origin : Option Json) : Bool :=
  isNone origin ||
    match isObject origin with
    | some o => isText (member o "kind") "human"
    | none => false

/-- What a result without an error says. -/
def completedResult (frame : Members) : Bool :=
  isText (member frame "subtype") "success" &&
    (isNone (member frame "terminal_reason") || isText (member frame "terminal_reason") "completed") &&
    isNone (member frame "deferred_tool_use") &&
    (isObject (member frame "structured_output")).isSome

/-- `_terminal` (`claude_protocol.py:90-141`). -/
def terminal (cfg : ClaudeConfig) (frame : Members) : Except ProtocolError Unit :=
  match member frame "is_error", member frame "subtype" with
  | some (.bool isError), some (.str _) => do
    require (keysWithin frame permittedResult = true ∧
      isStr (member frame "session_id") cfg.threadId = true)
      ⟨"invalid Claude terminal identity or outcome"⟩
    require (humanOrigin (member frame "origin") = true)
      ⟨"Claude result belongs to an injected turn"⟩
    require (isError = true ∨ completedResult frame = true)
      ⟨"invalid Claude terminal identity or outcome"⟩
  | _, _ => .error ⟨"invalid Claude terminal identity or outcome"⟩

/-! ## MCP messages -/

inductive McpRequest
  | initialized
  | initializeRequest (ident : Json) (protocolVersion : Str)
  | toolsList (ident : Json)
  | toolsCall (ident : Json) (name : Str) (arguments : Members) (toolUseId : Str)

/-- `isinstance(ident, (str, int))`, a bool excepted. -/
def isIdent : Json → Bool
  | .str _ => true
  | .int _ => true
  | _ => false

def toolMetadata (metadata : Option Json) : Except ProtocolError Str :=
  match isObject metadata with
  | none => .error ⟨"invalid Claude MCP tool metadata"⟩
  | some m =>
    match member m "claudecode/toolUseId", member m "progressToken" with
    | some (.str toolUseId), some token => do
      require (keysAre m ["claudecode/toolUseId", "progressToken"] = true ∧ isIdent token = true ∧
        1 ≤ toolUseId.length ∧ toolUseId.length ≤ 128) ⟨"invalid Claude MCP tool metadata"⟩
      return toolUseId
    | _, _ => .error ⟨"invalid Claude MCP tool metadata"⟩

def mcpMethod (message : Members) : Except ProtocolError (Str × Members) := do
  require (isText (member message "jsonrpc") "2.0" = true ∧
    keysWithin message ["jsonrpc", "id", "method", "params"] = true) ⟨"invalid MCP message"⟩
  match member message "method", (member message "params").getD (.obj []) with
  | some (.str method), .obj params => return (method, params)
  | _, _ => .error ⟨"invalid MCP request"⟩

def mcpIdent (message : Members) : Except ProtocolError Json :=
  match member message "id" with
  | some ident =>
    if isIdent ident then .ok ident else .error ⟨"MCP request requires an id"⟩
  | none => .error ⟨"MCP request requires an id"⟩

def mcpInitialize (st : ClaudeState) (ident : Json) (params : Members) :
    Except ProtocolError McpRequest :=
  match member params "protocolVersion" with
  | some (.str version) => do
    require (keysWithin params ["protocolVersion", "capabilities", "clientInfo"] = true)
      ⟨"invalid MCP initialize"⟩
    require (st.initialized = false) ⟨"duplicate MCP initialize"⟩
    return .initializeRequest ident version
  | _ => .error ⟨"invalid MCP initialize"⟩

def mcpToolsCall (cfg : ClaudeConfig) (st : ClaudeState) (ident : Json) (method : Str)
    (params : Members) : Except ProtocolError McpRequest := do
  require (method = codes "tools/call" ∧ (keysAre params ["name", "arguments"] = true ∨
    keysAre params ["name", "arguments", "_meta"] = true)) ⟨"unregistered MCP method"⟩
  require (st.toolsListSeen = true) ⟨"MCP call before tool listing"⟩
  match member params "name", member params "arguments" with
  | some (.str name), some (.obj arguments) => do
    require (name ∈ cfg.tools) ⟨"unregistered MCP tool"⟩
    let toolUseId ← toolMetadata (member params "_meta")
    return .toolsCall ident name arguments toolUseId
  | _, _ => .error ⟨"unregistered MCP tool"⟩

/-- The checks of `_mcp` that come before it changes anything. -/
def mcpRequest (cfg : ClaudeConfig) (st : ClaudeState) (message : Members) :
    Except ProtocolError McpRequest := do
  let (method, params) ← mcpMethod message
  if (codes "notifications/").isPrefixOf method then do
    require (method = codes "notifications/initialized" ∧
      keysAre message ["jsonrpc", "method"] = true ∧ st.initialized = true ∧
      st.initializationNotificationSeen = false) ⟨"invalid MCP initialization notification"⟩
    return .initialized
  else do
    let ident ← mcpIdent message
    if method = codes "initialize" then mcpInitialize st ident params
    else do
      require (st.initialized = true) ⟨"MCP call before initialize"⟩
      if method = codes "tools/list" then do
        require (params = [] ∧ st.initializationNotificationSeen = true ∧ st.toolsListSeen = false)
          ⟨"invalid MCP tool listing"⟩
        return .toolsList ident
      else mcpToolsCall cfg st ident method params

def field (key : String) (v : Json) : Str × Json := (codes key, v)

def mcpResult (ident : Json) (result : Members) : Json :=
  .obj [field "jsonrpc" (.str (codes "2.0")), field "id" ident, field "result" (.obj result)]

def initializeResult (protocolVersion : Str) : Members :=
  [field "protocolVersion" (.str protocolVersion),
    field "capabilities" (.obj [field "tools" (.obj [field "listChanged" (.bool false)])]),
    field "serverInfo" (.obj [field "name" (.str (codes "forge")), field "version" (.str (codes "0.2"))])]

/-- `_tool_descriptions`. -/
def toolDescriptions (cfg : ClaudeConfig) : Json :=
  .arr ((cfg.tools.insertionSort fun a b => a ≤ b).map fun name => .obj
    [field "name" (.str name), field "description" (.str (codes "Forge controlled " ++ name)),
      field "inputSchema" (cfg.inputSchema name)])

/-- `json.dumps(value, sort_keys=True, separators=(",", ":"))`. -/
def canonicalText (v : Json) : Str := Json.render true (Json.sortKeys v)

def receiptResult (receipt : Members) : Members :=
  [field "content" (.arr [.obj [field "type" (.str (codes "text")),
      field "text" (.str (canonicalText (.obj receipt)))]]),
    field "isError" (.bool !(isText (member receipt "status") "succeeded"))]

def mcpId (ident : Json) : Str := Json.render true ident

def keyText (ident : Json) (toolUseId : Str) : Str := mcpId ident ++ 0 :: toolUseId

def callKey (cfg : ClaudeConfig) (ident : Json) (toolUseId : Str) : Str :=
  cfg.sha256 (keyText ident toolUseId)

def fingerprint (name : Str) (arguments : Members) (toolUseId : Str) : Fingerprint :=
  ⟨name, canonicalText (.obj arguments), toolUseId⟩

/-- The prior entry of a key, if there is one, is this. -/
def agreesWith {α : Type} [DecidableEq α] (prior : Option α) (a : α) : Bool := prior.all (· = a)

/-- The registration of a call (`claude_protocol.py:238-258`). -/
def register (st : ClaudeState) (ident : Json) (name : Str) (arguments : Members)
    (toolUseId key : Str) : Except ProtocolError ClaudeState := do
  require (agreesWith (st.toolUseIds.get toolUseId) key = true)
    ⟨"Claude tool use id reused under a different MCP id"⟩
  require (agreesWith (st.mcpIds.get (mcpId ident)) key = true) ⟨"conflicting MCP call replay"⟩
  require (agreesWith (st.calls.get key) (fingerprint name arguments toolUseId) = true)
    ⟨"conflicting MCP call replay"⟩
  require (st.calls.rows.length < 1024) ⟨"too many MCP calls"⟩
  return { st with
    calls := st.calls.put key (fingerprint name arguments toolUseId)
    toolUseIds := st.toolUseIds.put toolUseId key
    callToolUseIds := st.callToolUseIds.put key toolUseId
    mcpIds := st.mcpIds.put (mcpId ident) key }

def validIdentity (s : Str) : Bool :=
  !s.isEmpty && (utf8Length s).any (· ≤ 255) && s.all (32 ≤ ·)

/-- `ProviderToolCall.__post_init__`. -/
def providerToolCall (cfg : ClaudeConfig) (key name : Str) (arguments : Members) :
    Except ProtocolError ProviderToolCall := do
  require ([key, cfg.threadId, cfg.turnId, name].all validIdentity = true)
    ⟨"invalid tool callback identity"⟩
  let arguments ← freezeContext (.obj arguments)
  return ⟨key, cfg.threadId, cfg.turnId, name, arguments⟩

/-- The reply to a call that reached its handler. -/
def receiptReply (ident : Json) : HandlerResult → Except Failure Json
  | .raised => .error .handler
  | .returned (.obj receipt) => .ok (mcpResult ident (receiptResult receipt))
  | .returned _ => .error (.protocol ⟨"invalid Forge tool receipt"⟩)

section codec
variable (cfg : ClaudeConfig) (handler : ProviderToolCall → HandlerResult)

def toolsCall (st : ClaudeState) (ident : Json) (name : Str) (arguments : Members)
    (toolUseId : Str) : Turn Json :=
  let key := callKey cfg ident toolUseId
  let hashed := Event.hashed (keyText ident toolUseId)
  match register st ident name arguments toolUseId key with
  | .error e => ⟨st, .error (.protocol e), [hashed]⟩
  | .ok st =>
    let registered := Event.registered ident toolUseId key name arguments
    match providerToolCall cfg key name arguments with
    | .error e => ⟨st, .error (.protocol e), [registered, hashed]⟩
    | .ok call =>
      ⟨st, receiptReply ident (handler call), [.called ident toolUseId call, registered, hashed]⟩

/-- `_mcp` (`claude_protocol.py:174-286`). -/
def mcp (st : ClaudeState) (message : Members) : Turn Json :=
  match mcpRequest cfg st message with
  | .error e => ⟨st, .error (.protocol e), []⟩
  | .ok .initialized =>
    ⟨{ st with initializationNotificationSeen := true },
      .ok (.obj [field "jsonrpc" (.str (codes "2.0"))]), [.handshake .initialized]⟩
  | .ok (.initializeRequest ident version) =>
    ⟨{ st with initialized := true }, .ok (mcpResult ident (initializeResult version)),
      [.handshake .initializeRequest]⟩
  | .ok (.toolsList ident) =>
    ⟨{ st with toolsListSeen := true },
      .ok (mcpResult ident [field "tools" (toolDescriptions cfg)]), [.handshake .toolsList]⟩
  | .ok (.toolsCall ident name arguments toolUseId) =>
    toolsCall cfg handler st ident name arguments toolUseId

def controlIdentity (st : ClaudeState) (frame : Members) : Except ProtocolError (Str × Members) := do
  require (keysAre frame ["type", "request_id", "request"] = true) ⟨"invalid Claude control request"⟩
  match member frame "request_id", isObject (member frame "request") with
  | some (.str requestId), some request => do
    require (requestId ≠ [] ∧ requestId ∉ st.requests) ⟨"invalid Claude request identity"⟩
    require (st.requests.length < 1024) ⟨"too many Claude control requests"⟩
    return (requestId, request)
  | _, _ => .error ⟨"invalid Claude request identity"⟩

def controlMessage (request : Members) : Except ProtocolError Members :=
  match isObject (member request "message") with
  | some message => do
    require (isText (member request "subtype") "mcp_message" = true ∧
      keysWithin request ["subtype", "server_name", "message"] = true ∧
      isText (member request "server_name") "forge" = true) ⟨"unsupported Claude control request"⟩
    return message
  | none => .error ⟨"unsupported Claude control request"⟩

def controlResponse (requestId : Str) (reply : Json) : Json :=
  .obj [field "type" (.str (codes "control_response")), field "response" (.obj
    [field "subtype" (.str (codes "success")), field "request_id" (.str requestId),
      field "response" (.obj [field "mcp_response" reply])])]

/-- `_control_request` (`claude_protocol.py:143-172`). -/
def controlRequest (st : ClaudeState) (frame : Members) : Turn (Option Json) :=
  match controlIdentity st frame with
  | .error e => ⟨st, .error (.protocol e), []⟩
  | .ok (requestId, request) =>
    let st := { st with requests := requestId :: st.requests }
    let admitted := Event.request requestId (.obj request)
    match controlMessage request with
    | .error e => ⟨st, .error (.protocol e), [admitted]⟩
    | .ok message =>
      let turn := mcp cfg handler st message
      ⟨turn.state, turn.result.map fun reply => some (controlResponse requestId reply),
        turn.events ++ [admitted]⟩

def receiveFrame (st : ClaudeState) (frame : Members) : Turn (Option Json) :=
  let kind := member frame "type"
  if isText kind "control_request" then controlRequest cfg handler st frame
  else if isText kind "result" then
    match terminal cfg frame with
    | .error e => ⟨st, .error (.protocol e), []⟩
    | .ok _ => ⟨{ st with terminal := some frame }, .ok none, []⟩
  else if isText kind "rate_limit_event" then
    ⟨st, match rateLimit cfg frame with
      | .error e => .error (.protocol e)
      | .ok _ => .ok none, []⟩
  else if !hashable (kind.getD .null) then ⟨st, .error .unhashable, []⟩
  else if ["system", "assistant", "user", "stream_event"].any (isText kind) then ⟨st, .ok none, []⟩
  else Turn.fail st "foreign Claude frame" []

/-- `receive` (`claude_protocol.py:51-67`). -/
def receive (st : ClaudeState) (line : Str) : Turn (Option Json) :=
  if st.terminal.isSome then Turn.fail st "Claude attempt is already terminal" []
  else
    match utf8Length line with
    | none => ⟨st, .error .unicode, []⟩
    | some n =>
      if maxFrameBytes < n then Turn.fail st "invalid Claude frame" []
      else
        match parseJson cfg.readFloat line with
        | .error e => ⟨st, .error (.protocol e), []⟩
        | .ok frame => receiveFrame cfg handler st frame

end codec

/-- A line with what the handler would answer, and the history of a codec. -/
structure Line where
  text : Str
  handler : ProviderToolCall → HandlerResult

structure ClaudeWorld where
  state : ClaudeState
  log : List Event

def ClaudeWorld.init : ClaudeWorld := ⟨ClaudeState.init, []⟩

def ClaudeWorld.step (cfg : ClaudeConfig) (w : ClaudeWorld) (line : Line) : ClaudeWorld :=
  let turn := receive cfg line.handler w.state line.text
  ⟨turn.state, turn.events ++ w.log⟩

end ParallelForge.Agents
