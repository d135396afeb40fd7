import ParallelForge.Release.GitHubWrite

/-!
# The merge queue (`release/github_queue.py`, `domain/merge_queue.py`)

Insertion is one GraphQL mutation that is never retried; observation is a
GraphQL query. Both are POSTs to one address and differ in their text alone.
-/

namespace ParallelForge.Release
open Base
open Value hiding none

def isSlug (c : Char) : Bool :=
  ('A' ≤ c && c ≤ 'Z') || ('a' ≤ c && c ≤ 'z') || ('0' ≤ c && c ≤ '9') ||
    c = '_' || c = '.' || c = '-'

/-- `^[A-Za-z0-9_.-]+/[A-Za-z0-9_.-]+$`. -/
def isRepository (s : String) : Bool :=
  let parts := ownerAndName s
  s.toList.count '/' = 1 && parts.1 ≠ "" && parts.2 ≠ "" && parts.1.toList.all isSlug &&
    parts.2.toList.all isSlug

/-- `^\S+$`; the pattern's white space is without U+001C..U+001F. -/
def isToken (s : String) : Bool :=
  s ≠ "" && s.toList.all fun c => !isSpace c || (28 ≤ c.toNat && c.toNat ≤ 31)

def receiptValid (repository : String) (pullRequestNumber : ℤ) (nodeId entryId headSha mergeMethod :
    String) : Bool :=
  3 ≤ repository.length && repository.length ≤ 512 && isRepository repository &&
    1 ≤ pullRequestNumber && nodeId.length ≤ 512 && isToken nodeId && entryId.length ≤ 512 &&
    isToken entryId && isHexOfLength 40 headSha && mergeMethods.contains mergeMethod

/-- `MergeQueueReceipt`, with what its validation says of the fields. -/
structure MergeQueueReceipt where
  repository : String
  pullRequestNumber : ℤ
  pullRequestNodeId : String
  entryId : String
  headSha : String
  mergeMethod : String
  valid : receiptValid repository pullRequestNumber pullRequestNodeId entryId headSha
    mergeMethod = true

def MergeQueueReceipt.modelDump (receipt : MergeQueueReceipt) : Dict :=
  [("repository", .str receipt.repository), ("pull_request_number", .int receipt.pullRequestNumber),
    ("pull_request_node_id", .str receipt.pullRequestNodeId), ("entry_id", .str receipt.entryId),
    ("head_sha", .str receipt.headSha), ("merge_method", .str receipt.mergeMethod)]

/-- `MergeQueueReceipt.model_validate`. -/
def validateReceipt (repository : String) (pullRequestNumber : ℤ) (nodeId : String)
    (entryId : Value) (headSha mergeMethod : String) : Except Raised MergeQueueReceipt :=
  match entryId with
  | .str entry =>
    if h : receiptValid repository pullRequestNumber nodeId entry headSha mergeMethod = true then
      .ok ⟨repository, pullRequestNumber, nodeId, entry, headSha, mergeMethod, h⟩
    else .error .validation
  | _ => .error .validation

/-- `_expected`. -/
def expectedReceipt (repository : String) (number : ℤ) (nodeId headSha mergeMethod : String) :
    Except Raised MergeQueueReceipt :=
  match validateReceipt repository number nodeId (.str "validation-only") headSha mergeMethod with
  | .ok receipt => .ok receipt
  | .error _ => raiseWrite .invalidRequest

def pullFields : String := "id number headRefOid repository \x7b nameWithOwner \x7d"

def entryFields : String :=
  "id pullRequest \x7b " ++ pullFields ++ " \x7d " ++
    "mergeQueue \x7b configuration \x7b mergeMethod \x7d \x7d"

def enqueueText : String :=
  "mutation ForgeEnqueue($input: EnqueuePullRequestInput!) \x7b " ++
    "enqueuePullRequest(input: $input) \x7b clientMutationId mergeQueueEntry \x7b " ++
    entryFields ++ " \x7d \x7d \x7d"

def observeText : String :=
  "query ForgeObserveQueue($id: ID!) \x7b node(id: $id) \x7b ... on PullRequest \x7b " ++
    pullFields ++ " mergeQueueEntry \x7b " ++ entryFields ++ " \x7d \x7d \x7d \x7d"

def graphql : List String := ["graphql"]

def enqueueBody (nodeId headSha correlationId : String) : Value :=
  .dict [("query", .str enqueueText), ("variables", .dict [("input", .dict
    [("pullRequestId", .str nodeId), ("expectedHeadOid", .str headSha), ("jump", .bool false),
      ("clientMutationId", .str correlationId)])])]

def observeBody (nodeId : String) : Value :=
  .dict [("query", .str observeText), ("variables", .dict [("id", .str nodeId)])]

def isDict : Value → Bool
  | .dict _ => true
  | _ => false

def keysWithin (d : Dict) (keys : List String) : Bool := d.all fun p => keys.contains p.1

def locationValid : Value → Bool
  | .dict d => hasKeys d ["line", "column"] && positiveInt (get d "line") &&
      positiveInt (get d "column")
  | _ => false

def locationsValid : Value → Bool
  | .list l => !l.isEmpty && l.all locationValid
  | _ => false

def messageValid : Value → Bool
  | .str s => strip s ≠ ""
  | _ => false

def errorValid : Value → Bool
  | .dict d => keysWithin d ["message", "locations", "extensions"] &&
      messageValid (get d "message") && (lookup d "extensions").all isDict &&
      (lookup d "locations").all locationsValid
  | _ => false

/-- `_request_error`: nothing but well-formed errors, none of which has a path. -/
def requestError (response : Dict) : Bool :=
  keysWithin response ["errors", "extensions"] && (lookup response "extensions").all isDict &&
    match get response "errors" with
    | .list errors => !errors.isEmpty && errors.all errorValid
    | _ => false

/-- `_data`. -/
def dataOf (response : Dict) : Except Raised Dict := do
  require (truthy (get response "errors") = false) (.write .malformedResponse)
  mapping (get response "data")

def isNumber (n : ℤ) : Value → Bool
  | .int z => z = n
  | _ => false

/-- `_identity`. -/
def queueIdentity (pull : Dict) (expected : MergeQueueReceipt) : Except Raised Unit := do
  require (eq (get pull "id") (.str expected.pullRequestNodeId) = true ∧
    isNumber expected.pullRequestNumber (get pull "number") = true ∧
    eq (get pull "headRefOid") (.str expected.headSha) = true) (.write .stale)
  let repository ← mapping (get pull "repository")
  require (eq (get repository "nameWithOwner") (.str expected.repository) = true) (.write .stale)

def methodOf : Value → Option String
  | .str "MERGE" => some "merge"
  | .str "SQUASH" => some "squash"
  | .str "REBASE" => some "rebase"
  | _ => none

/-- `_receipt`. -/
def receiptOf (value : Value) (expected : MergeQueueReceipt) : Except Raised MergeQueueReceipt := do
  let entry ← mapping value
  let pull ← mapping (get entry "pullRequest")
  queueIdentity pull expected
  let queue ← mapping (get entry "mergeQueue")
  let configuration ← mapping (get queue "configuration")
  let mergeMethod ← orRaise (methodOf (get configuration "mergeMethod")) (.write .malformedResponse)
  validateReceipt expected.repository expected.pullRequestNumber expected.pullRequestNodeId
    (get entry "id") expected.headSha mergeMethod

def correlationValid (correlationId : String) : Bool :=
  correlationId ≠ "" && correlationId.length ≤ 512 && correlationId.toList.all fun c => !isSpace c

/-- What the mutation's response is read as. -/
def admitted (response : Dict) (expected : MergeQueueReceipt) (mergeMethod correlationId : String) :
    Except Raised MergeQueueReceipt := do
  let data ← dataOf response
  let result ← mapping (get data "enqueuePullRequest")
  require (eq (get result "clientMutationId") (.str correlationId) = true)
    (.write .malformedResponse)
  let receipt ← receiptOf (get result "mergeQueueEntry") expected
  require (receipt.mergeMethod = mergeMethod) (.write .stale)
  return receipt

variable (wire : Wire)

/-- The mutation, sent once. -/
def postMutation (nodeId headSha correlationId : String) : Client Dict := do
  let value ← json wire .post graphql (some (enqueueBody nodeId headSha correlationId))
  Talking.lift (mapping value)

/-- `except GitHubWriteError, ValidationError: raise GitHubWriteError("uncertain")`. -/
def uncertainAdmission {α : Type} : Raised → Option (Client α)
  | .write _ | .validation => some (Talking.raise (.write .uncertain))
  | _ => none

/-- What the mutation's response becomes. -/
def admission (expected : MergeQueueReceipt) (mergeMethod correlationId : String) (response : Dict) :
    Client MergeQueueReceipt := do
  Talking.lift (require (requestError response = false) (.write .rejected))
  Talking.tryElse (Talking.lift (admitted response expected mergeMethod correlationId))
    uncertainAdmission pure

/-- `GitHubMergeQueue.enqueue`. Even errors can come with a mutation that was
committed, so all but a request error leave the effect uncertain. -/
def enqueue (repository : String) (n : ℤ) (nodeId headSha mergeMethod correlationId : String) :
    Client MergeQueueReceipt := do
  let expected ← Talking.lift (expectedReceipt repository n nodeId headSha mergeMethod)
  Talking.lift (require (correlationValid correlationId = true) (.write .invalidRequest))
  let pull ← getPullRequest wire repository n
  Talking.lift (require (pull.nodeId = nodeId ∧ pull.headSha = headSha ∧
    pull.baseRepository = repository ∧ pull.headRepository = repository ∧ pull.state = "open" ∧
    pull.merged = false) (.write .stale))
  Talking.tryElse (postMutation wire nodeId headSha correlationId) uncertainWrite
    (admission expected mergeMethod correlationId)

/-- What the query's response is read as; an explicit null is an absent entry. -/
def observed (value : Value) (expected : MergeQueueReceipt) :
    Except Raised (Option MergeQueueReceipt) := do
  let response ← mapping value
  let data ← dataOf response
  let node ← mapping (get data "node")
  queueIdentity node expected
  match ← orRaise (lookup node "mergeQueueEntry") (.write .malformedResponse) with
  | .none => return none
  | entry => do return some (← receiptOf entry expected)

def postQuery (nodeId : String) (expected : MergeQueueReceipt) :
    Client (Option MergeQueueReceipt) := do
  let value ← json wire .post graphql (some (observeBody nodeId))
  Talking.lift (observed value expected)

/-- A query carries no authority, so it is never uncertain. -/
def queryHandler {α : Type} : Raised → Option (Client α)
  | .validation => some (Talking.raise (.write .malformedResponse))
  | .write .uncertain => some (Talking.raise (.write .unavailable))
  | _ => none

/-- `GitHubMergeQueue.observe`. -/
def observe (repository : String) (n : ℤ) (nodeId headSha : String) :
    Client (Option MergeQueueReceipt) := do
  let expected ← Talking.lift (expectedReceipt repository n nodeId headSha "merge")
  Talking.tryElse (postQuery wire nodeId expected) queryHandler pure

end ParallelForge.Release
