import ParallelForge.Agents.ClaudeProtocol

/-!
# The Gemini dual-channel protocol (`agents/gemini_protocol.py`)

ACP frames echo what MCP frames proposed; only an echoed proposal can be
executed. An MCP frame starts a task, and its execution may start a task of the
broker; both run in steps that the event loop orders freely. An object that
several dictionaries share is a position in a list of objects. The events say
what a step did; no check reads them.
-/

namespace ParallelForge.Agents.Gemini
open Base

/-- The constructor's arguments, SHA-256, `float(text)` printed again and
`int(value)` of a whole float. -/
structure Config where
  session : Str
  turn : Str
  callLimit : ℕ
  sha256 : Str → Str
  readFloat : Json.FloatText → Option Json.FloatText
  wholeFloat : Json.FloatText → Option ℤ

structure Operation where
  nativeId : Str
  name : Str
  arguments : Members
  task : Option ℕ
  receipt : Option Members
  uncertain : Bool
  issuedAuxiliary : List Str

structure Proposal where
  name : Str
  arguments : Members
  operation : Option ℕ
  issuedAuxiliary : List Str

structure Transport where
  fingerprint : Str
  task : ℕ

/-- Where the task of an MCP request stands; `waiting` is on a broker task. -/
inductive RequestState
  | created
  | waiting (token : Str) (call : ℕ)
  | answered (response : Json)
  | raised

structure Request where
  transportId : Str
  requestId : Json
  params : Members
  state : RequestState

inductive CallState
  | scheduled
  | running
  | returned (receipt : Members)
  | raised

/-- A broker task, and the operation it is for. -/
structure BrokerCall where
  operation : ℕ
  call : ProviderToolCall
  state : CallState

structure State where
  closed : Bool
  invocations : ℕ
  operationObjects : List Operation
  proposalObjects : List Proposal
  requests : List Request
  calls : List BrokerCall
  proposals : Table Str ℕ
  operations : Table Str ℕ
  started : Table Str Str
  auxiliaryNative : Table Str Str
  transport : Table Str Transport

def State.init : State :=
  ⟨false, 0, [], [], [], [], Table.empty, Table.empty, Table.empty, Table.empty, Table.empty⟩

inductive Event
  | bound (proposal : ℕ) (nativeId name : Str) (arguments : Members)
  | echoed (nativeId : Str)
  | scheduled (request operation : ℕ)
  | obtained (request operation : ℕ)
  | invoked (nativeId : Str) (call : ProviderToolCall)

/-- What a step did; a refused one keeps what it changed before. -/
structure Done where
  state : State
  result : Except ProtocolError Unit
  events : List Event

def Done.refuse (st : State) (message : String) : Done := ⟨st, .error ⟨message⟩, []⟩

def marker : String := "forge_operation_proposed"
def receiptKind : String := "forge_operation_receipt"
def executeName : String := "forge_execute_receipt"

def State.modifyOperation (st : State) (o : ℕ) (f : Operation → Operation) : State :=
  { st with operationObjects := st.operationObjects.modify o f }

def State.modifyProposal (st : State) (p : ℕ) (f : Proposal → Proposal) : State :=
  { st with proposalObjects := st.proposalObjects.modify p f }

def State.setRequest (st : State) (i : ℕ) (state : RequestState) : State :=
  { st with requests := st.requests.modify i fun r => { r with state := state } }

def State.setCall (st : State) (n : ℕ) (state : CallState) : State :=
  { st with calls := st.calls.modify n fun c => { c with state := state } }

def validText (v : Option Json) : Option Str :=
  match v with
  | some (.str s) => if validIdentity s then some s else none
  | _ => none

def numberId (z : ℤ) : Option Str :=
  if (Json.intText z).length ≤ 255 then some (codes "n:" ++ Json.intText z) else none

section protocol
variable (cfg : Config)

/-- `_transport_id`. -/
def transportId : Json → Option Str
  | .str s => if validIdentity s then some (codes "s:" ++ s) else none
  | .float f => (cfg.wholeFloat f).bind numberId
  | .int z => numberId z
  | _ => none

/-- `_fingerprint` of a frozen value. -/
def fingerprint (params : Members) : Str := canonicalText (.obj params)

/-- `_text`; the text is ASCII. -/
def boundedText (value : Members) : Except ProtocolError Str :=
  let text := canonicalText (.obj value)
  if maxFrameBytes < text.length then .error ⟨"Gemini receipt exceeds frame bound"⟩ else .ok text

/-- `_response`. The measured text has a blank after each of its eleven commas
and colons. -/
def response (requestId : Json) (text : Str) (error : Bool) : Except ProtocolError Json :=
  let value := Json.obj [field "jsonrpc" (.str (codes "2.0")), field "id" requestId,
    field "result" (.obj [field "content" (.arr [.obj [field "type" (.str (codes "text")),
      field "text" (.str text)]]), field "isError" (.bool error)])]
  if maxFrameBytes < (Json.render true value).length + 11 then
    .error ⟨"Gemini response exceeds frame bound"⟩
  else .ok value

/-- `TOOL_ARGUMENT_SCHEMAS`: required and optional arguments. -/
def toolSchemas : List (String × List String × List String) :=
  [("repository.list_files", [], ["path"]), ("repository.read_file", ["path"], []),
    ("repository.search", ["literal"], ["path"]),
    ("repository.search_semantic", ["query"], ["path"]),
    ("repository.read_instructions", [], ["target_path"]),
    ("repository.write_file", ["content", "path"], []),
    ("repository.delete_file", ["path", "expected_digest"], []),
    ("repository.rename_file", ["source", "destination", "expected_digest"], []),
    ("git.status", [], []), ("git.diff", [], ["scope"]), ("git.commit", ["message"], []),
    ("build.run_named_check", ["command_name"], []), ("validation-results.read", [], []),
    ("review-artifacts.read", [], [])]

def gitDiffScopes : List String := ["working_tree", "candidate", "snapshot"]

def isStrValue : Json → Bool
  | .str _ => true
  | _ => false

/-- `ToolName(name)` and `arguments_match_schema`. -/
def argumentsMatch (name : Str) (arguments : Members) : Bool :=
  match toolSchemas.find? fun schema => codes schema.1 = name with
  | none => false
  | some (tool, required, optional) =>
    (tool ≠ "git.diff" || (member arguments "scope").all fun scope =>
      gitDiffScopes.any fun s => isText (some scope) s) &&
    (required.all fun key => (member arguments key).isSome) &&
    keysWithin arguments (required ++ optional) && arguments.all fun p => isStrValue p.2

/-- `==` of two mappings of texts. -/
def sameArguments (a b : Members) : Bool :=
  a.length = b.length && a.all fun p =>
    match p.2, (b.find? fun q => q.1 = p.1).map Prod.snd with
    | .str s, some (.str t) => s = t
    | _, _ => false

/-- `_take`. -/
def take (st : State) : Except ProtocolError State := do
  require (st.closed = false ∧ st.invocations < cfg.callLimit) ⟨"Gemini tool invocation denied"⟩
  return { st with invocations := st.invocations + 1 }

def denied : ProtocolError := ⟨"Gemini tool proposal denied"⟩

/-- The checks of `prepare` after the first. -/
def proposalArguments (st : State) (name : Str) (arguments : Members) :
    Except ProtocolError Members := do
  require (argumentsMatch name arguments = true) denied
  let frozen ← freezeContext (.obj arguments)
  require (st.proposals.rows.length < cfg.callLimit) ⟨"too many Gemini proposals"⟩
  return frozen

/-- The prepared proposal under its nonce. -/
def State.propose (st : State) (nonce name : Str) (arguments : Members) : State :=
  { st with
    proposalObjects := st.proposalObjects ++ [⟨name, arguments, none, []⟩]
    proposals := st.proposals.put nonce st.proposalObjects.length }

/-- `prepare`, with the text of its marker. -/
def prepare (st : State) (nonce name : Str) (arguments : Members) :
    State × Except ProtocolError Str :=
  match take cfg st with
  | .error e => (st, .error e)
  | .ok st =>
    match proposalArguments cfg st name arguments with
    | .error e => (st, .error e)
    | .ok frozen => (st.propose nonce name frozen,
        boundedText [field "kind" (.str (codes marker)), field "nonce" (.str nonce)])

/-! ## ACP -/

/-- `_frame`. -/
def frameOf (st : State) (line : Str) : Except ProtocolError Members := do
  require (st.closed = false ∧ (utf8Length line).any (· ≤ maxFrameBytes) = true)
    ⟨"invalid Gemini frame"⟩
  let frame ← parseJson cfg.readFloat line
  require (isText (member frame "jsonrpc") "2.0" = true) ⟨"invalid Gemini frame"⟩
  return frame

def updateKeys : List String :=
  ["sessionUpdate", "toolCallId", "status", "title", "content", "locations", "kind", "rawInput",
    "rawOutput", "_meta"]

def isArray : Option Json → Bool
  | some (.arr _) => true
  | _ => false

/-- `_valid_start`. -/
def validStart (update : Members) : Bool :=
  keysWithin update updateKeys && isText (member update "status") "in_progress" &&
    isString (member update "title") && isText (member update "kind") "other" &&
    isArray (member update "content") && isArray (member update "locations")

/-- `_valid_completion`. -/
def validCompletion (update : Members) : Bool :=
  keysWithin update updateKeys && isText (member update "status") "completed" &&
    isText (member update "kind") "other"

def textOf (item : Members) : Except ProtocolError Str :=
  match isObject (member item "content") with
  | some nested =>
    match member nested "text" with
    | some (.str text) => do
      require (keysAre item ["type", "content"] = true ∧ isText (member item "type") "content" = true ∧
        keysAre nested ["type", "text"] = true ∧ isText (member nested "type") "text" = true)
        ⟨"invalid Gemini ACP completion"⟩
      return text
    | _ => .error ⟨"invalid Gemini ACP completion"⟩
  | none => .error ⟨"invalid Gemini ACP completion"⟩

/-- `_completion_text`. -/
def completionText (update : Members) : Except ProtocolError Str :=
  match member update "content" with
  | some (.arr [.obj item]) => textOf item
  | _ => .error ⟨"invalid Gemini ACP completion"⟩

inductive AcpUpdate
  | start (native fingerprint : Str)
  | completion (native text : Str)

/-- The checks of `receive_acp` before it changes anything. -/
def acpUpdate (st : State) (line : Str) : Except ProtocolError AcpUpdate := do
  let frame ← frameOf cfg st line
  require (isText (member frame "method") "session/update" = true ∧
    keysAre frame ["jsonrpc", "method", "params"] = true) ⟨"unsupported Gemini ACP frame"⟩
  let params ← orRaise (isObject (member frame "params")) ⟨"invalid Gemini ACP identity"⟩
  require (keysAre params ["sessionId", "update"] = true ∧
    isStr (member params "sessionId") cfg.session = true) ⟨"invalid Gemini ACP identity"⟩
  let update ← orRaise (isObject (member params "update")) ⟨"unsupported Gemini ACP update"⟩
  let native ← orRaise (validText (member update "toolCallId")) ⟨"unsupported Gemini ACP update"⟩
  if isText (member update "sessionUpdate") "tool_call" then do
    require (validStart update = true) ⟨"invalid Gemini ACP start"⟩
    return .start native (fingerprint update)
  else do
    require (isText (member update "sessionUpdate") "tool_call_update" = true ∧
      (st.started.get native).isSome = true ∧ validCompletion update = true)
      ⟨"invalid Gemini ACP update"⟩
    return .completion native (← completionText update)

def echoDenied : ProtocolError := ⟨"Gemini tool echo denied"⟩

def addIssued (issued added : List Str) : List Str := issued ++ added.filter (· ∉ issued)

/-- The proposal becomes one of the operation's. -/
def State.bind (st : State) (p o : ℕ) (proposal : Proposal) : State :=
  (st.modifyProposal p fun q => { q with operation := some o }).modifyOperation o fun op =>
    { op with issuedAuxiliary := addIssued op.issuedAuxiliary proposal.issuedAuxiliary }

/-- A new operation of the native identity. -/
def State.operate (st : State) (native : Str) (proposal : Proposal) : State :=
  { st with
    operationObjects := st.operationObjects ++
      [⟨native, proposal.name, proposal.arguments, none, none, false, []⟩]
    operations := st.operations.put native st.operationObjects.length }

def State.proposalFor (st : State) (nonce : Str) : Option (ℕ × Proposal) :=
  match st.proposals.get nonce with
  | none => none
  | some p => (st.proposalObjects[p]?).map fun proposal => (p, proposal)

def State.operationAt (st : State) (proposal : Proposal) : Option (ℕ × Operation) :=
  match proposal.operation with
  | none => none
  | some o => (st.operationObjects[o]?).map fun op => (o, op)

def nonceOf (body : Members) (keys : List String) (e : ProtocolError) : Except ProtocolError Str :=
  match member body "nonce" with
  | some (.str nonce) => do
    require (keysAre body keys = true) e
    return nonce
  | _ => .error e

/-- `_bind_proposal`. -/
def bindProposal (st : State) (native : Str) (body : Members) : Done :=
  match nonceOf body ["kind", "nonce"] ⟨"invalid Gemini ACP completion"⟩ with
  | .error e => ⟨st, .error e, []⟩
  | .ok nonce =>
    match st.proposalFor nonce with
    | none => ⟨st, .error echoDenied, []⟩
    | some (p, proposal) =>
      if (st.auxiliaryNative.get native).isSome ∨
          ((st.operationAt proposal).any fun b => b.2.nativeId ≠ native) = true then
        ⟨st, .error echoDenied, []⟩
      else
        let bound := Event.bound p native proposal.name proposal.arguments
        match st.operations.get native with
        | none =>
          if cfg.callLimit ≤ st.operations.rows.length then
            Done.refuse st "too many Gemini operations"
          else
            ⟨(st.operate native proposal).bind p st.operationObjects.length proposal, .ok (), [bound]⟩
        | some o =>
          match st.operationObjects[o]? with
          | none => ⟨st, .error echoDenied, []⟩
          | some op =>
            if op.name = proposal.name ∧ sameArguments op.arguments proposal.arguments = true then
              ⟨st.bind p o proposal, .ok (), [bound]⟩
            else ⟨st, .error echoDenied, []⟩

/-- The texts issued for a proposal, or for its operation. -/
def State.issued (st : State) (proposal : Proposal) : List Str :=
  match st.operationAt proposal with
  | some b => b.2.issuedAuxiliary
  | none => proposal.issuedAuxiliary

/-- `_consume_auxiliary`. -/
def consumeAuxiliary (st : State) (native text : Str) (body : Members) : Done :=
  match nonceOf body ["kind", "nonce", "receipt"] echoDenied with
  | .error e => ⟨st, .error e, []⟩
  | .ok nonce =>
    match st.proposalFor nonce with
    | none => ⟨st, .error echoDenied, []⟩
    | some (_, proposal) =>
      if (st.operations.get native).isSome ∨ text ∉ st.issued proposal then
        ⟨st, .error echoDenied, []⟩
      else match st.auxiliaryNative.get native with
        | some prior => if prior = text then ⟨st, .ok (), []⟩ else ⟨st, .error echoDenied, []⟩
        | none =>
          if cfg.callLimit ≤ st.auxiliaryNative.rows.length then
            Done.refuse st "too many Gemini auxiliary updates"
          else ⟨{ st with auxiliaryNative := st.auxiliaryNative.put native text }, .ok (),
            [.echoed native]⟩

/-- `receive_acp`. -/
def receiveAcp (st : State) (line : Str) : Done :=
  match acpUpdate cfg st line with
  | .error e => ⟨st, .error e, []⟩
  | .ok (.start native print) =>
    match st.started.get native with
    | some prior =>
      if prior = print then ⟨st, .ok (), []⟩ else Done.refuse st "conflicting Gemini ACP start"
    | none =>
      if cfg.callLimit ≤ st.started.rows.length then Done.refuse st "too many Gemini ACP starts"
      else ⟨{ st with started := st.started.put native print }, .ok (), []⟩
  | .ok (.completion native text) =>
    match parseJson cfg.readFloat text with
    | .error e => ⟨st, .error e, []⟩
    | .ok body =>
      if isText (member body "kind") marker then bindProposal cfg st native body
      else if isText (member body "kind") receiptKind then consumeAuxiliary cfg st native text body
      else Done.refuse st "invalid Gemini ACP completion"

/-! ## MCP -/

/-- `_valid_mcp_params`. -/
def validMcpParams (params : Members) : Bool :=
  keysWithin params ["name", "arguments", "_meta"] && isString (member params "name") &&
    (isObject (member params "arguments")).isSome &&
    (isNone (member params "_meta") || match isObject (member params "_meta") with
      | some about => keysAre about ["progressToken"] &&
          ((member about "progressToken").bind (transportId cfg)).isSome
      | none => false)

structure McpCall where
  transportId : Str
  requestId : Json
  params : Members

/-- The checks of `receive_mcp`. -/
def mcpCall (st : State) (line : Str) : Except ProtocolError McpCall := do
  require (st.closed = false) ⟨"Gemini tool invocation denied"⟩
  let frame ← frameOf cfg st line
  require (keysAre frame ["jsonrpc", "id", "method", "params"] = true ∧
    isText (member frame "method") "tools/call" = true) ⟨"invalid Gemini MCP request"⟩
  let params ← orRaise (isObject (member frame "params")) ⟨"invalid Gemini MCP request"⟩
  let requestId ← orRaise (member frame "id") ⟨"invalid Gemini MCP request"⟩
  let ident ← orRaise (transportId cfg requestId) ⟨"invalid Gemini MCP request"⟩
  require (validMcpParams cfg params = true) ⟨"invalid Gemini MCP request"⟩
  return ⟨ident, requestId, params⟩

/-- `receive_mcp`: the state with the task whose answer the caller waits for. -/
def receiveMcp (st : State) (line : Str) : State × Except ProtocolError ℕ :=
  match mcpCall cfg st line with
  | .error e => (st, .error e)
  | .ok call =>
    match st.transport.get call.transportId with
    | some prior =>
      if prior.fingerprint = fingerprint call.params then (st, .ok prior.task)
      else (st, .error ⟨"conflicting Gemini MCP replay"⟩)
    | none =>
      if cfg.callLimit ≤ st.transport.rows.length then
        (st, .error ⟨"too many Gemini MCP requests"⟩)
      else
        ({ st with
          requests := st.requests ++ [⟨call.transportId, call.requestId, call.params, .created⟩]
          transport := st.transport.put call.transportId
            ⟨fingerprint call.params, st.requests.length⟩ }, .ok st.requests.length)

/-! ## The tasks -/

def notReady : Members := [field "status" (.str (codes "not_ready"))]

def brokerKey (native : Str) : Str :=
  cfg.sha256 (cfg.session ++ 0 :: cfg.turn ++ 0 :: native)

/-- `ProviderToolCall(...)` for an operation. -/
def brokerCall (op : Operation) : Except ProtocolError ProviderToolCall := do
  let key := brokerKey cfg op.nativeId
  require ([key, cfg.session, cfg.turn, op.name].all validIdentity = true)
    ⟨"invalid tool callback identity"⟩
  let arguments ← freezeContext (.obj op.arguments)
  return ⟨key, cfg.session, cfg.turn, op.name, arguments⟩

inductive Executed
  | receipt (receipt : Members)
  | wait (call : ℕ)
  | raised (error : ProtocolError)

/-- The operation's broker task is created. -/
def State.schedule (st : State) (o : ℕ) (call : ProviderToolCall) : State :=
  { st with
    calls := st.calls ++ [⟨o, call, .scheduled⟩]
    operationObjects := st.operationObjects.modify o fun op =>
      { op with task := some st.calls.length } }

/-- `_execute` up to its await, for request `i`. -/
def execute (st : State) (i : ℕ) (token : Str) : State × Executed × List Event :=
  match (st.proposalFor token).bind fun p => st.operationAt p.2 with
  | none => (st, .receipt notReady, [])
  | some (o, op) =>
    if st.closed ∨ op.uncertain then (st, .receipt notReady, [])
    else match op.receipt with
      | some receipt => (st, .receipt receipt, [.obtained i o])
      | none => match op.task with
        | some n => (st, .wait n, [])
        | none => match brokerCall cfg op with
          | .error e => (st, .raised e, [])
          | .ok call => (st.schedule o call, .wait st.calls.length, [.scheduled i o])

/-- What `_issue_receipt` sends. -/
def receiptResponse (requestId : Json) (token : Str) (receipt : Members) :
    Except ProtocolError (Str × Json) := do
  let text ← boundedText [field "kind" (.str (codes receiptKind)), field "nonce" (.str token),
    field "receipt" (.obj receipt)]
  let sent ← response requestId text (isText (member receipt "status") "not_ready")
  return (text, sent)

/-- The issued texts of a proposal with one more. -/
def State.issue (st : State) (p : ℕ) (proposal : Proposal) (text : Str) : State :=
  match proposal.operation with
  | some o => st.modifyOperation o fun op =>
      { op with issuedAuxiliary := addIssued op.issuedAuxiliary [text] }
  | none => st.modifyProposal p fun q =>
      { q with issuedAuxiliary := addIssued q.issuedAuxiliary [text] }

/-- A receipt that could not be sent makes its operation uncertain. -/
def State.doubt (st : State) (proposal : Proposal) : State :=
  match proposal.operation with
  | some o => st.modifyOperation o fun op => { op with uncertain := true, receipt := none }
  | none => st

/-- `_issue_receipt`. -/
def issueReceipt (st : State) (requestId : Json) (token : Str) (receipt : Members) :
    State × Except ProtocolError Json :=
  match st.proposalFor token with
  | none => (st, (receiptResponse requestId token receipt).map Prod.snd)
  | some (p, proposal) =>
    match receiptResponse requestId token receipt with
    | .error e => (st.doubt proposal, .error e)
    | .ok (text, sent) =>
      if text ∉ st.issued proposal ∧ cfg.callLimit ≤ (st.issued proposal).length then
        (st.doubt proposal, .error ⟨"too many Gemini receipts"⟩)
      else (st.issue p proposal text, .ok sent)

/-- The end of a request task. -/
def State.finish (st : State) (i : ℕ) : Except ProtocolError Json → State
  | .ok sent => st.setRequest i (.answered sent)
  | .error _ => st.setRequest i .raised

def issue (st : State) (i : ℕ) (request : Request) (token : Str) (receipt : Members) : State :=
  let p := issueReceipt cfg st request.requestId token receipt
  p.1.finish i p.2

/-- The token of an execution. -/
def executeToken (arguments : Members) : Except ProtocolError Str :=
  match member arguments "token" with
  | some (.str token) => do
    require (keysAre arguments ["token"] = true) ⟨"unregistered Gemini MCP tool"⟩
    return token
  | _ => .error ⟨"unregistered Gemini MCP tool"⟩

def handleExecute (st : State) (i : ℕ) (request : Request) (arguments : Members) :
    State × List Event :=
  match executeToken arguments with
  | .error _ => (st.setRequest i .raised, [])
  | .ok token =>
    match take cfg st with
    | .error _ => (st.setRequest i .raised, [])
    | .ok st =>
      match execute cfg st i token with
      | (st, .receipt receipt, events) => (issue cfg st i request token receipt, events)
      | (st, .wait n, events) => (st.setRequest i (.waiting token n), events)
      | (st, .raised _, events) => (st.setRequest i .raised, events)

/-- `_handle_mcp` of a new task, up to its first await. -/
def handleMcp (st : State) (i : ℕ) (request : Request) (nonce : Str) : State × List Event :=
  match member request.params "name", isObject (member request.params "arguments") with
  | some (.str name), some arguments =>
    if name = codes executeName then handleExecute cfg st i request arguments
    else
      let prepared := prepare cfg st nonce name arguments
      (prepared.1.finish i (prepared.2.bind fun text => response request.requestId text false), [])
  | _, _ => (st.setRequest i .raised, [])

/-- The event loop runs request task `i`; `nonce` is what `secrets` gives. -/
def runRequest (st : State) (i : ℕ) (nonce : Str) : State × List Event :=
  match st.requests[i]? with
  | none => (st, [])
  | some request => match request.state with
    | .created => handleMcp cfg st i request nonce
    | .waiting token n => match st.calls[n]? with
      | none => (st, [])
      | some call => match call.state with
        | .scheduled | .running => (st, [])
        | .raised => (st.setRequest i .raised, [])
        | .returned receipt => (issue cfg st i request token receipt, [.obtained i call.operation])
    | .answered _ | .raised => (st, [])

/-- The event loop starts broker task `n`: the broker is invoked. -/
def startCall (st : State) (n : ℕ) : State × List Event :=
  match st.calls[n]? with
  | some call => match call.state, st.operationObjects[call.operation]? with
    | .scheduled, some op => (st.setCall n .running, [.invoked op.nativeId call.call])
    | _, _ => (st, [])
  | none => (st, [])

/-- What the broker came to; `foreign` is a mapping that cannot be frozen. -/
inductive BrokerReply
  | raised
  | foreign
  | returned (value : Json)

def uncertainOperation (op : Operation) : Operation := { op with uncertain := true }

/-- The receipt of a mapping within its bounds. -/
def frozenReceipt (value : Members) : Except ProtocolError Members := do
  let receipt ← freezeContext (.obj value)
  let _ ← boundedText receipt
  return receipt

/-- The end of `_broker_call`. -/
def settleCall (st : State) (n : ℕ) (reply : BrokerReply) : State :=
  match st.calls[n]? with
  | some ⟨o, _, .running⟩ => match reply with
    | .raised => (st.modifyOperation o uncertainOperation).setCall n .raised
    | .foreign =>
      if st.closed then (st.modifyOperation o uncertainOperation).setCall n (.returned notReady)
      else (st.modifyOperation o uncertainOperation).setCall n .raised
    | .returned (.obj value) =>
      if st.closed then (st.modifyOperation o uncertainOperation).setCall n (.returned notReady)
      else match frozenReceipt value with
        | .error _ => (st.modifyOperation o uncertainOperation).setCall n .raised
        | .ok receipt => (st.modifyOperation o fun op => { op with receipt := some receipt }).setCall n
            (.returned receipt)
    | .returned _ => (st.modifyOperation o uncertainOperation).setCall n (.returned notReady)
  | _ => st

/-- A cancellation reaches a request that is not over, or a broker task that has
not started; one that runs sees it as an exception of the broker. -/
def cancelRequest (st : State) (i : ℕ) : State :=
  match st.requests[i]? with
  | some request => match request.state with
    | .created | .waiting _ _ => st.setRequest i .raised
    | .answered _ | .raised => st
  | none => st

def cancelCall (st : State) (n : ℕ) : State :=
  match st.calls[n]? with
  | some ⟨_, _, .scheduled⟩ => st.setCall n .raised
  | _ => st

def close (st : State) : State :=
  { st with
    closed := true
    proposals := Table.empty
    operations := Table.empty
    started := Table.empty
    auxiliaryNative := Table.empty
    transport := Table.empty }

inductive Input
  | acp (line : Str)
  | mcp (line : Str)
  | request (i : ℕ) (nonce : Str)
  | start (n : ℕ)
  | settle (n : ℕ) (reply : BrokerReply)
  | cancelRequest (i : ℕ)
  | cancelCall (n : ℕ)
  | close

/-- The protocol with its history, latest first. -/
structure World where
  state : State
  log : List Event

def World.init : World := ⟨State.init, []⟩

def World.step (w : World) : Input → World
  | .acp line =>
    let done := receiveAcp cfg w.state line
    ⟨done.state, done.events ++ w.log⟩
  | .mcp line => ⟨(receiveMcp cfg w.state line).1, w.log⟩
  | .request i nonce =>
    let ran := runRequest cfg w.state i nonce
    ⟨ran.1, ran.2 ++ w.log⟩
  | .start n =>
    let ran := startCall w.state n
    ⟨ran.1, ran.2 ++ w.log⟩
  | .settle n reply => ⟨settleCall w.state n reply, w.log⟩
  | .cancelRequest i => ⟨Gemini.cancelRequest w.state i, w.log⟩
  | .cancelCall n => ⟨Gemini.cancelCall w.state n, w.log⟩
  | .close => ⟨Gemini.close w.state, w.log⟩

end protocol

end ParallelForge.Agents.Gemini
