import ParallelForge.Agents.StrictJson
import ParallelForge.Base.Result
import ParallelForge.Base.Table
import ParallelForge.Redaction.Patterns
import Mathlib.Algebra.Ring.Int.Defs

/-!
# Reading reviews (`release/github_client.py`)

The reviews of a pull request are read page by page, its threads by a GraphQL
document. Of each reviewer one review is kept; the gate looks at the kept ones
and at the number of unresolved threads.
-/

namespace ParallelForge.Release.Reviews
open Base

/-- `GitHubClientError.category`; `escaped` is any other exception. -/
inductive Fault
  | invalidRequest
  | malformedResponse
  | paginationLimit
  | transport (category : String)
  | escaped
  deriving DecidableEq, Repr

abbrev Read := Except Fault

/-! ## Fields of a response -/

abbrev Mapping := List (Str × Json)

def mapping : Json → Read Mapping
  | .obj members => .ok members
  | _ => .error .malformedResponse

/-- `dict.get`. -/
def get (m : Mapping) (key : String) : Json := (m.lookup (codes key)).getD .null

def list : Json → Read (List Json)
  | .arr items => .ok items
  | _ => .error .malformedResponse

def optionalList : Json → Read (List Json)
  | .null => .ok []
  | v => list v

/-- `_text`: not empty. -/
def text : Json → Read Str
  | .str s => if s = [] then .error .malformedResponse else .ok s
  | _ => .error .malformedResponse

def optionalText : Json → Read (Option Str)
  | .null => .ok none
  | v => (text v).map some

/-- `_bounded_text`. -/
def boundedText (v : Json) : Read (Option Str) := do
  match ← optionalText v with
  | none => return none
  | some value =>
    match Agents.utf8Length value with
    | none => .error .escaped
    | some n => if 16384 < n then .error .malformedResponse else return some value

def bool : Json → Read Bool
  | .bool b => .ok b
  | _ => .error .malformedResponse

def positiveInt : Json → Read ℤ
  | .int n => if n < 1 then .error .malformedResponse else .ok n
  | _ => .error .malformedResponse

def nestedMapping : Mapping → List String → Read Mapping
  | m, [] => .ok m
  | m, key :: keys => do
    let inner ← mapping (get m key)
    nestedMapping inner keys

/-- The truth value of a JSON object; a float text is zero when all its digits before an
exponent are. -/
def truthy : Json → Bool
  | .null => false
  | .bool b => b
  | .int n => n != 0
  | .float f => (f.text.takeWhile fun c => c != 101 && c != 69).any fun c => 49 ≤ c && c ≤ 57
  | .str s => s != []
  | .arr items => !items.isEmpty
  | .obj members => !members.isEmpty

/-- `_nested_int(v, "comments", "totalCount")`. -/
def commentTotal (thread : Mapping) : Read ℤ := do
  let comments ← mapping (get thread "comments")
  let current := get comments "totalCount"
  if truthy current = true then positiveInt current else return 0

/-! ## Requests -/

/-- A request of this module; the path of a `GET` as its parts. -/
inductive Request
  | page (owner name : Str) (number : ℤ) (page : ℕ)
  | graphql (query owner name : Str) (number : ℤ) (cursor : Option Str)
  deriving DecidableEq, Repr

/-- `_json`, and two functions of the library: `datetime.fromisoformat` of a time with a
zone, as an instant, and `str.casefold`. -/
structure Api where
  json : Request → Read Json
  fromIsoformat : Str → Option ℤ
  casefold : Str → Str

def strip (s : Str) : Str :=
  ((s.dropWhile Redaction.isSpaceCode).reverse.dropWhile Redaction.isSpaceCode).reverse

def dots (s : Str) : Bool := s == codes "." || s == codes ".."

/-- `_repository`: owner and name. -/
def repository (value : Str) : Read (Str × Str) :=
  if value ≠ strip value then .error .invalidRequest
  else match value.splitOn 47 with
    | [owner, name] =>
      if (owner == [] || name == [] || dots owner || dots name ||
          value.any fun c => (codes "?#\\\r\n").contains c) = true then .error .invalidRequest
      else .ok (owner, name)
    | _ => .error .invalidRequest

def validNumber (n : ℤ) : Read ℤ := if n < 1 then .error .invalidRequest else .ok n

def maxPages : ℕ := 20

/-- The loop of `_pages`; so many pages may still be asked for. -/
def pagesFrom (api : Api) (request : ℕ → Request) : ℕ → ℕ → Read (List Mapping)
  | 0, _ => .error .paginationLimit
  | fuel + 1, page => do
    let data ← api.json (request page)
    let values ← list data
    let items ← values.mapM mapping
    if values.length < 100 then return items
    else do
      let rest ← pagesFrom api request fuel (page + 1)
      return items ++ rest

/-- `_pages` (`github_client.py:405-413`). -/
def pages (api : Api) (request : ℕ → Request) : Read (List Mapping) :=
  pagesFrom api request maxPages 1

/-- The document of `_review_threads`. -/
def threadsQuery : Str :=
  codes ("query($owner:String!,$repo:String!,$number:Int!,$cursor:String)\x7brepository" ++
    "(owner:$owner,name:$repo)\x7bpullRequest(number:$number)\x7breviewThreads(first:100," ++
    "after:$cursor)\x7bnodes\x7bisResolved comments\x7btotalCount nodes\x7bbody\x7d\x7d " ++
    "pageInfo\x7bhasNextPage endCursor\x7d\x7d\x7d\x7d\x7d")

/-- The loop of `_review_threads`. -/
def threadsFrom (api : Api) (owner name : Str) (number : ℤ) : ℕ → Option Str → Read (List Mapping)
  | 0, _ => .error .paginationLimit
  | fuel + 1, cursor => do
    let answer ← api.json (.graphql threadsQuery owner name number cursor)
    let data ← mapping answer
    match get data "errors" with
    | .null => do
      let connection ← nestedMapping data ["data", "repository", "pullRequest", "reviewThreads"]
      let nodes ← list (get connection "nodes")
      let items ← nodes.mapM mapping
      let page ← mapping (get connection "pageInfo")
      let more ← bool (get page "hasNextPage")
      if more = true then do
        let next ← text (get page "endCursor")
        let rest ← threadsFrom api owner name number fuel (some next)
        return items ++ rest
      else return items
    | _ => .error .malformedResponse

/-- `_review_threads` (`github_client.py:374-403`). -/
def reviewThreads (api : Api) (repo : Str) (number : ℤ) : Read (List Mapping) := do
  let (owner, name) ← repository repo
  threadsFrom api owner name number maxPages none

/-! ## Reviews -/

inductive State
  | approved
  | changesRequested
  | commented
  | dismissed
  | pending
  | threads
  deriving DecidableEq, Repr

/-- The states a review can have. -/
def stateOf (value : Str) : Read State :=
  if value = codes "approved" then .ok .approved
  else if value = codes "changes_requested" then .ok .changesRequested
  else if value = codes "commented" then .ok .commented
  else if value = codes "dismissed" then .ok .dismissed
  else if value = codes "pending" then .ok .pending
  else .error .malformedResponse

/-- `submittedAt` is an instant in microseconds. -/
structure ReviewSnapshot where
  reviewer : Str
  state : State
  submittedAt : Option ℤ
  requestedChanges : Bool
  unresolvedThreads : ℕ
  commentCount : ℤ
  body : Option Str
  feedback : List Str
  deriving DecidableEq, Repr

/-- `ReviewSnapshot.blocks_merge`. -/
def ReviewSnapshot.blocksMerge (s : ReviewSnapshot) : Bool :=
  s.requestedChanges || 0 < s.unresolvedThreads

def ReviewSnapshot.decisive (s : ReviewSnapshot) : Bool :=
  s.state == .approved || s.state == .changesRequested

def timestamp (api : Api) : Json → Read (Option ℤ)
  | .null => .ok none
  | v => do
    let value ← text v
    let instant ← orRaise (api.fromIsoformat value) .malformedResponse
    return some instant

/-- The snapshot of one review. -/
def candidate (api : Api) (item : Mapping) : Read ReviewSnapshot := do
  let user ← mapping (get item "user")
  let reviewer ← text (get user "login")
  let raw ← text (get item "state")
  let state ← stateOf (api.casefold raw)
  let submittedAt ← timestamp api (get item "submitted_at")
  let body ← boundedText (get item "body")
  return ⟨reviewer, state, submittedAt, state == .changesRequested, 0, 0, body, []⟩

/-- `_sort_time`: a missing time is before any other. -/
def notBefore (a b : Option ℤ) : Bool :=
  match a, b with
  | _, none => true
  | none, some _ => false
  | some t, some u => u ≤ t

/-- The candidate takes the place of the prior review of its reviewer. -/
def replaces (prior : Option ReviewSnapshot) (c : ReviewSnapshot) : Bool :=
  match prior with
  | none => true
  | some s =>
    (c.decisive && !s.decisive) || (c.decisive == s.decisive && notBefore c.submittedAt s.submittedAt)

/-- One turn of the loop over the reviews. -/
def keepLatest (casefold : Str → Str) (latest : Table Str ReviewSnapshot) (c : ReviewSnapshot) :
    Table Str ReviewSnapshot :=
  if replaces (latest.get (casefold c.reviewer)) c = true then latest.put (casefold c.reviewer) c
  else latest

def latestReviews (casefold : Str → Str) (candidates : List ReviewSnapshot) : List ReviewSnapshot :=
  (candidates.foldl (keepLatest casefold) Table.empty).rows.map Prod.snd

/-- What the comments of one thread say. -/
def threadFeedback (thread : Mapping) : Read (List Str) := do
  let resolved ← bool (get thread "isResolved")
  if resolved = true then return []
  else do
    let comments ← mapping (get thread "comments")
    let nodes ← optionalList (get comments "nodes")
    let bodies ← nodes.mapM fun c => do
      let comment ← mapping c
      boundedText (get comment "body")
    return bodies.reduceOption

/-- The snapshot that stands for the threads. -/
def threadSnapshot (unresolved : ℕ) (comments : ℤ) (feedback : List Str) : ReviewSnapshot :=
  ⟨codes "github-review-threads", .threads, none, false, unresolved, comments, none, feedback⟩

/-- `get_reviews` (`github_client.py:146-197`). -/
def getReviews (api : Api) (repo : Str) (pullNumber : ℤ) : Read (List ReviewSnapshot) := do
  let number ← validNumber pullNumber
  let (owner, name) ← repository repo
  let reviews ← pages api fun page => .page owner name number page
  let threads ← reviewThreads api repo pullNumber
  let resolved ← threads.mapM fun t => bool (get t "isResolved")
  let unresolved := (resolved.filter (!·)).length
  let counts ← threads.mapM commentTotal
  let candidates ← reviews.mapM (candidate api)
  let result := latestReviews api.casefold candidates
  let feedback ← threads.mapM threadFeedback
  if unresolved ≠ 0 ∨ counts.sum ≠ 0 ∨ result = [] then
    return result ++ [threadSnapshot unresolved counts.sum feedback.flatten]
  else return result

end ParallelForge.Release.Reviews
