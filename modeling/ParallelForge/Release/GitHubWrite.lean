import ParallelForge.Base.Talk
import ParallelForge.Release.Record

/-!
# The GitHub write adapter (`release/github_write.py`)

GitHub, the HTTP client, the credential resolver and the read ports are the
outside world: each is asked and may answer anything. The adapter's own state
is its response cache. A path is its list of segments, before quoting; a
response body is what `json.loads` makes of it.
-/

namespace ParallelForge.Release
open Base
open Value hiding none

/-- The categories of a `GitHubWriteError`. -/
inductive Category
  | unavailable
  | uncertain
  | credential
  | invalidRequest
  | invalidResponse
  | malformedResponse
  | responseTooLarge
  | untrustedRedirect
  | rateLimited
  | stale
  | permission
  | notFound
  | rejected
  deriving DecidableEq, Repr

/-- What a merge operation can raise; `client` is a `GitHubClientError`,
`staleEvidence` and `reconciliation` are the controller's own. -/
inductive Raised
  | write (category : Category)
  | client
  | staleEvidence
  | reconciliation
  | validation
  | cancelled
  | other
  deriving DecidableEq, Repr

inductive Method
  | get
  | post
  | put
  deriving DecidableEq, Repr

/-- `method in {"POST", "PUT"}`. -/
def Method.writes : Method → Bool
  | .get => false
  | .post | .put => true

structure Request where
  method : Method
  path : List String
  token : String
  ifNoneMatch : Option String
  json : Option Value

/-- `asyncio.CancelledError`, or an exception the adapter does not catch. -/
inductive Escape
  | cancelled
  | other

def Escape.raised : Escape → Raised
  | .cancelled => .cancelled
  | .other => .other

inductive Body
  | json (value : Value)
  | malformed
  | unreadable

/-- One request: the transport failed or timed out, or a response arrived. -/
inductive Reply
  | failed
  | escaped (exception : Escape)
  | tooLarge
  | answer (status : ℕ) (isRedirect : Bool) (etag : Option String) (body : Body)

/-- The token resolver; `refused` is an exception it is known to raise. -/
inductive Resolution
  | value (token : Value)
  | refused
  | escaped (exception : Escape)

structure CheckSnapshot where
  name : String
  status : String
  conclusion : Option String
  headSha : Option String
  deriving DecidableEq, Repr

structure ReviewSnapshot where
  requestedChanges : Bool
  unresolvedThreads : ℤ
  deriving DecidableEq, Repr

structure MergeProtection where
  strictRequiredChecks : Bool
  mergeQueueEnabled : Bool
  actorCanBypass : Bool
  evidenceSource : String
  verified : Bool
  requiredCheckNames : List String
  mergeQueueMethod : Option String
  deriving DecidableEq, Repr

/-- Which reviewer stands behind merge evidence, or which acceptance. -/
inductive DecisionEvidence
  | reviewed (reviewDigest : String)
  | accepted (acceptanceDigest candidateTreeDigest : String)
  deriving DecidableEq, Repr

structure MergePublicationEvidence where
  repository : String
  pullRequestNumber : ℤ
  headSha : String
  baseRef : String
  baseSha : String
  requiredChecks : List (String × String)
  unresolvedBlockingFindings : ℕ
  validationDigest : String
  runnerMode : String
  runnerEvidenceDigest : String
  protectionDigest : String
  mergeMethod : String
  policyVersion : ℤ
  decision : DecisionEvidence
  deriving DecidableEq, Repr

/-- Everything that is asked of the outside. -/
inductive Ask
  | credential
  | http (request : Request)
  | base (repository branch : String)
  | checks (repository ref : String)
  | reviews (repository : String) (number : ℤ)
  | mergeProtection (repository branch : String)
  | currentEvidence

def Answer : Ask → Type
  | .credential => Resolution
  | .http _ => Reply
  | .base _ _ => Except Raised String
  | .checks _ _ => Except Raised (List CheckSnapshot)
  | .reviews _ _ => Except Raised (List ReviewSnapshot)
  | .mergeProtection _ _ => Except Raised MergeProtection
  | .currentEvidence => Except Raised MergePublicationEvidence

/-- `_cache_key` of a GET without parameters. -/
structure CacheKey where
  tokenDigest : String
  path : List String
  deriving DecidableEq, Repr

structure CacheEntry where
  etag : String
  body : Value

/-- Oldest first. -/
abbrev Cache := List (CacheKey × CacheEntry)

abbrev Client := Talking Ask Answer Cache Raised

structure SplitResult where
  scheme : String
  hostname : Option String
  username : Option String
  password : Option String
  path : String
  query : String
  fragment : String

/-- SHA-256 of a text, `urlsplit` where it does not raise, the digests of
evidence, and the stored text of a payload that is durable. -/
structure Wire where
  sha256 : String → String
  urlsplit : String → Option SplitResult
  evidenceDigest : MergePublicationEvidence → String
  write : Dict → Option Payload

def cached (cache : Cache) (key : CacheKey) : Option CacheEntry :=
  (cache.find? fun p => p.1 = key).map Prod.snd

def evict (cache : Cache) (key : CacheKey) : Cache := cache.filter fun p => p.1 ≠ key

def maxCache : ℕ := 128

/-- The newest entry goes last; the oldest ones fall out. -/
def remember (cache : Cache) (key : CacheKey) (entry : CacheEntry) : Cache :=
  let full := evict cache key ++ [(key, entry)]
  full.drop (full.length - maxCache)

/-- `_token`. -/
def tokenOf : Value → Option String
  | .str s =>
    if s ≠ "" ∧ s = strip s ∧ s.utf8ByteSize ≤ 4096 ∧
        s.toList.all (fun c => !isSpace c && c.toNat < 128) then some s
    else none
  | _ => none

def raiseWrite {α : Type} (category : Category) : Except Raised α := .error (.write category)

/-- The status lines that are refused, in the order they are looked at. -/
def refusal (method : Method) (path : List String) (status : ℕ) (isRedirect : Bool) :
    Option Category :=
  if isRedirect then some .untrustedRedirect
  else if method = .get ∧ status = 429 then some .rateLimited
  else if method = .get ∧ 500 ≤ status then some .unavailable
  else if status = 409 then some .stale
  else if status = 401 ∨ status = 403 then some .permission
  else if status = 404 then some .notFound
  else if method = .put ∧ path.getLast? = some "merge" ∧
      (status = 400 ∨ status = 405 ∨ status = 422) then some .rejected
  else if 400 ≤ status then some (if method.writes then .uncertain else .invalidResponse)
  else none

/-- What `_json` makes of the reply. -/
def receive (method : Method) (path : List String) (entry : Option CacheEntry) :
    Reply → Except Raised Value
  | .failed => raiseWrite (if method.writes then .uncertain else .unavailable)
  | .escaped e => .error e.raised
  | .tooLarge => raiseWrite .responseTooLarge
  | .answer status isRedirect _ body =>
    if status = 304 then
      match entry with
      | none => raiseWrite .invalidResponse
      | some entry => .ok entry.body
    else match refusal method path status isRedirect with
      | some category => raiseWrite category
      | none => match body with
        | .json value => .ok value
        | .malformed => raiseWrite .malformedResponse
        | .unreadable => .error .other

/-- The cache after a GET that returned. -/
def retain (cache : Cache) (key : CacheKey) : Reply → Cache
  | .answer status _ etag (.json value) =>
    if status = 304 then cache
    else match etag.filter (· ≠ "") with
      | some tag => remember cache key ⟨tag, value⟩
      | none => evict cache key
  | _ => cache

variable (wire : Wire)

def resolve : Client Resolution := Talking.ask Ask.credential

def send (request : Request) : Client Reply := Talking.ask (Ask.http request)

def resolveToken : Client String := do
  match ← resolve with
  | .value v => Talking.lift (orRaise (tokenOf v) (.write .credential))
  | .refused => Talking.raise (.write .credential)
  | .escaped e => Talking.raise e.raised

/-- `GitHubWrite._json`. A write clears the cache before it is sent. -/
def json (method : Method) (path : List String) (payload : Option Value) : Client Value := do
  let token ← resolveToken
  let key : CacheKey := ⟨wire.sha256 token, path⟩
  let cache ← Talking.get
  let entry := if method = .get then cached cache key else none
  Talking.modify fun c => if method = .get then c else []
  let reply ← send ⟨method, path, token, entry.map CacheEntry.etag, payload⟩
  let value ← Talking.lift (receive method path entry reply)
  Talking.modify fun c => if method = .get then retain c key reply else c
  return value

def text (value : Value) (category : Category) : Except Raised String :=
  match value with
  | .str s => if s = "" then raiseWrite category else .ok s
  | _ => raiseWrite category

def mapping (value : Value) : Except Raised Dict :=
  match value with
  | .dict d => .ok d
  | _ => raiseWrite .malformedResponse

def forbidden (c : Char) : Bool := c = '?' || c = '#' || c = '\\' || c = '\r' || c = '\n'

def dots (s : String) : Bool := s = "." || s = ".."

/-- `value.split("/", 1)`. -/
def ownerAndName (s : String) : String × String :=
  (String.ofList (s.toList.takeWhile (· ≠ '/')),
    String.ofList ((s.toList.dropWhile (· ≠ '/')).drop 1))

/-- `_repository`. -/
def repositoryOf (value : Value) : Except Raised String :=
  match value with
  | .str s =>
    let parts := ownerAndName s
    if s = strip s ∧ s.toList.count '/' = 1 ∧ parts.1 ≠ "" ∧ parts.2 ≠ "" ∧
        dots parts.1 = false ∧ dots parts.2 = false ∧ s.toList.any forbidden = false then .ok s
    else raiseWrite .invalidRequest
  | _ => raiseWrite .invalidRequest

/-- `_ref`. -/
def refOf (value : Value) : Except Raised String :=
  match value with
  | .str s =>
    if s ≠ "" ∧ s = strip s ∧ dots s = false ∧ s.toList.any forbidden = false then .ok s
    else raiseWrite .invalidRequest
  | _ => raiseWrite .invalidRequest

/-- `_number` and `_number_response`: an `int` of at least one. -/
def number (value : Value) (category : Category) : Except Raised ℤ :=
  match value with
  | .int z => if 1 ≤ z then .ok z else raiseWrite category
  | _ => raiseWrite category

def sha (value : Value) (category : Category) : Except Raised String := do
  let s ← text value category
  require (isHexOfLength 40 s = true) (.write category)
  return s

def boolean (value : Value) (category : Category) : Except Raised Bool :=
  match value with
  | .bool b => .ok b
  | _ => raiseWrite category

/-- A part of the address that is `None` or empty. -/
def absent (part : Option String) : Bool := part.all (· = "")

/-- `_url`. -/
def url (value : Value) (repository : String) (number : ℤ) : Except Raised String := do
  let s ← text value .malformedResponse
  let parsed ← orRaise (wire.urlsplit s) .other
  require (parsed.scheme = "https" ∧ parsed.hostname = some "github.com" ∧
    absent parsed.username = true ∧ absent parsed.password = true ∧ parsed.query = "" ∧
    parsed.fragment = "" ∧ parsed.path = "/" ++ repository ++ "/pull/" ++ toString number)
    (.write .malformedResponse)
  return s

/-- `merge_commit_sha`, which may be null. -/
def mergeShaOf : Value → Except Raised (Option String)
  | .none => .ok none
  | v => (sha v .malformedResponse).map some

/-- `_pull_request`: the identity GitHub returned, checked field by field. -/
def pullRequest (value : Value) (repository : String) : Except Raised GitHubPullRequest := do
  let data ← mapping value
  let n ← number (get data "number") .malformedResponse
  let head ← mapping (get data "head")
  let base ← mapping (get data "base")
  let headRepo ← mapping (get head "repo")
  let headRepository ← repositoryOf (get headRepo "full_name")
  let baseRepo ← mapping (get base "repo")
  let baseRepository ← repositoryOf (get baseRepo "full_name")
  require (baseRepository = repository) (.write .malformedResponse)
  let merged ← boolean (get data "merged") .malformedResponse
  let mergeSha ← mergeShaOf (get data "merge_commit_sha")
  require (merged = false ∨ mergeSha ≠ none) (.write .malformedResponse)
  let nodeId ← text (get data "node_id") .malformedResponse
  let address ← url wire (get data "html_url") repository n
  let headRef ← refOf (get head "ref")
  let headSha ← sha (get head "sha") .malformedResponse
  let baseRef ← refOf (get base "ref")
  let baseSha ← sha (get base "sha") .malformedResponse
  let state ← text (get data "state") .malformedResponse
  return {
    number := n
    nodeId := nodeId
    url := address
    headRepository := headRepository
    headRef := headRef
    headSha := headSha
    baseRepository := baseRepository
    baseRef := baseRef
    baseSha := baseSha
    state := state
    merged := merged
    mergeSha := mergeSha }

/-- `_path` before quoting. -/
def repoPath (repository : String) (parts : List String) : List String :=
  let names := ownerAndName repository
  ["repos", names.1, names.2] ++ parts

def pullPath (repository : String) (number : ℤ) : List String :=
  repoPath repository ["pulls", toString number]

def getPullRequest (repository : String) (pullRequestNumber : ℤ) : Client GitHubPullRequest := do
  let repository ← Talking.lift (repositoryOf (.str repository))
  let n ← Talking.lift (number (.int pullRequestNumber) .invalidRequest)
  let data ← json wire .get (pullPath repository n) none
  let pull ← Talking.lift (pullRequest wire data repository)
  Talking.lift (require (pull.number = pullRequestNumber) (.write .malformedResponse))
  return pull

def getBranchSha (repository ref : String) : Client String := do
  let repository ← Talking.lift (repositoryOf (.str repository))
  let ref ← Talking.lift (refOf (.str ref))
  let data ← json wire .get (repoPath repository ["git", "ref", "heads", ref]) none
  let data ← Talking.lift (mapping data)
  let object ← Talking.lift (mapping (get data "object"))
  Talking.lift (sha (get object "sha") .malformedResponse)

/-- `except GitHubWriteError: raise GitHubWriteError("uncertain")`. -/
def uncertainWrite {α : Type} : Raised → Option (Client α)
  | .write _ => some (Talking.raise (.write .uncertain))
  | _ => none

/-- `_read_after_write`: the write before it is durable but ambiguous. -/
def readAfterWrite (repository : String) (pullRequestNumber : ℤ) : Client GitHubPullRequest :=
  Talking.tryElse (getPullRequest wire repository pullRequestNumber) uncertainWrite pure

/-- What is made of the body of the reply to the merge request. -/
def mergedFlag (data : Value) : Except Raised Bool := do
  let d ← mapping data
  boolean (get d "merged") .malformedResponse

def mergeMethods : List String := ["merge", "squash", "rebase"]

/-- `GitHubWrite.merge_pull_request`. -/
def mergePullRequest (repository : String) (pullRequestNumber : ℤ) (expectedHeadSha mergeMethod :
    String) : Client GitHubPullRequest := do
  let repository ← Talking.lift (repositoryOf (.str repository))
  Talking.lift (require (mergeMethod ∈ mergeMethods) (.write .invalidRequest))
  let n ← Talking.lift (number (.int pullRequestNumber) .invalidRequest)
  let head ← Talking.lift (sha (.str expectedHeadSha) .invalidRequest)
  let data ← json wire .put (pullPath repository n ++ ["merge"])
    (some (.dict [("sha", .str head), ("merge_method", .str mergeMethod)]))
  -- The endpoint answers in another shape: the identity is read again below.
  let merged ← Talking.lift (mergedFlag data)
  Talking.lift (require (merged = true) (.write .stale))
  readAfterWrite wire repository pullRequestNumber

end ParallelForge.Release
