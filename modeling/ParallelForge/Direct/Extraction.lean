import ParallelForge.Base.PyJson
import ParallelForge.Base.Lines
import ParallelForge.Base.RegexGroup

/-!
# The contract object of a session (`domain/direct.py`)

A session reports by an object somewhere in its final text: decoded from an event line,
in a fenced block, on a line of its own, or behind the last `{"status"` or `{"verdict"`.
Where a reader below has no answer at all, the source raises.
-/

namespace ParallelForge.Direct
open Base PyJson Regex

/-- What the interpreter decides: the float of a number, and how deep a value may be nested for
`json.loads` and `json.dumps` before `RecursionError`. -/
structure Interpreter where
  readFloat : Json.FloatText → Option Json.FloatText
  readDepth : ℕ
  writeDepth : ℕ
  reads_contract : 3 ≤ readDepth
  writes_contract : 3 ≤ writeDepth

abbrev Members := List (Str × PyJson)

def word (s : String) : Regex ℕ := seqs ((codes s).map fun c => .chr fun d => d == c)

/-- The pattern of a fenced object, ```` ```(?:json)?\s*(\{.*?\})\s*``` ````. -/
def fence : GroupPattern ℕ where
  lead := seqs [word "```", opt (word "json"), star Redaction.space]
  group := block (fun c => c == 123) (fun c => c == 125)
  trail := seqs [star Redaction.space, word "```"]

def has (ms : Members) (key : String) : Bool := (ms.map Prod.fst).contains (codes key)

def isEvent (ms : Members) : Bool := (has ms "status" && has ms "summary") || has ms "verdict"

def strOf : Option PyJson → Option Str
  | some (.str s) => some s
  | _ => none

/-- `value in {...}`; arrays and objects have no hash. -/
def inSet (value : Option PyJson) (words : List String) : Option Bool :=
  match value with
  | some (.str s) => some ((words.map codes).contains s)
  | some (.arr _) => none
  | some (.obj _) => none
  | _ => some false

section reading
variable (I : Interpreter)

/-- `_loads_object`. -/
def loadsObject (raw : Str) : Option Members :=
  match loads I.readFloat raw with
  | some (.obj ms) => if nesting (.obj ms) ≤ I.readDepth then some ms else none
  | _ => none

/-- `json.dumps(value, allow_nan=False)`. -/
def dumps (v : PyJson) : Option Str :=
  if finite v = true ∧ nesting v ≤ I.writeDepth then some (render true true v) else none

/-- The text of an object that looks like a contract. -/
def ownText (ms : Members) : Option (List Str) :=
  if isEvent ms then (dumps I (.obj ms)).map fun t => [t] else some []

def memberTexts (ms : Members) (key : String) : Option (List Str) :=
  match get ms (codes key) with
  | some (.str s) => some [s]
  | some (.obj inner) =>
    (ownText I inner).map fun own =>
      (["response", "text", "summary"].filterMap fun k => strOf (get inner (codes k))) ++ own
  | _ => some []

def eventTexts (ms : Members) : Option (List Str) := do
  let members ← ["result", "response", "text"].mapM (memberTexts I ms)
  let own ← ownText I ms
  some (members.flatten ++ own)

def lineTexts (line : Str) : Option (List Str) :=
  match loadsObject I (stripText line) with
  | some ms => eventTexts I ms
  | none => some []

/-- `_decoded_event_texts`. -/
def decodedEventTexts (text : Str) : Option (List Str) :=
  ((splitlines text).mapM (lineTexts I)).map List.flatten

/-- An object with a key, on a line or alone in a text. -/
def objectWith (key : String) (raw : Str) : Option Members :=
  (loadsObject I (stripText raw)).filter fun ms => has ms key

/-- The object behind the last place where one begins with a word. -/
def lastObject (w text : Str) : Option Members :=
  (lastIndex w text).bind fun start => loadsObject I ((text.drop start).takeWhile fun c => c != 10)

/-! ## The result -/

def lastFenced (text : Str) : Option Members := (findall text fence).reverse.findSome? (loadsObject I)

/-- `_extract_result`. -/
def extractResult (text : Str) : Option (Option Members) := do
  let decoded ← decodedEventTexts I text
  some (((((decoded.reverse.findSome? fun d => (objectWith I "status" d).or (lastFenced I d))).or
    (lastFenced I text)).or
    ((splitlines text).reverse.findSome? (objectWith I "status"))).or
    (lastObject I (codes "\x7b\"status\"") text))

end reading

structure DirectResult where
  status : Str
  summary : Str
  question : Option Str
  options : List Str
  degraded : Bool
  deriving DecidableEq, Repr

/-- `text[-n:]`. -/
def lastLetters (n : ℕ) (s : Str) : Str := s.drop (s.length - n)

def degradedResult (text : Str) : DirectResult :=
  let tail := lastLetters 2000 (stripText text)
  { status := codes "done"
    summary := if tail = [] then codes "session completed" else tail
    question := none
    options := []
    degraded := true }

def resultOf (candidate : Members) (status : Str) : DirectResult where
  status := status
  summary :=
    match strOf (get candidate (codes "summary")) with
    | some s => if stripText s = [] then codes "session completed" else s.take 4000
    | none => codes "session completed"
  question := strOf (get candidate (codes "question"))
  options :=
    match get candidate (codes "options") with
    | some (.arr items) => (items.filterMap fun item => strOf (some item)).take 16
    | _ => []
  degraded := false

/-- `parse_direct_result`. -/
def parseDirectResult (I : Interpreter) (text : Str) : Option DirectResult := do
  match ← extractResult I text with
  | none => some (degradedResult text)
  | some candidate =>
    let status := get candidate (codes "status")
    match strOf status, ← inSet status ["done", "needs_decision", "blocked"] with
    | some s, true => some (resultOf candidate s)
    | _, _ => some (degradedResult text)

/-! ## The review -/

section review
variable (I : Interpreter)

def unfenced (o : Option Members) : List (Members × Bool) := (o.map fun ms => (ms, false)).toList

def decodedCandidates (decoded : Str) : List (Members × Bool) :=
  unfenced (objectWith I "verdict" decoded) ++
    (findall decoded fence).filterMap fun raw =>
      ((loadsObject I raw).filter fun ms => has ms "verdict").map fun ms => (ms, true)

def fencedCandidates (text : Str) : List (Members × Bool) :=
  (findall text fence).filterMap fun raw => (loadsObject I raw).map fun ms => (ms, true)

def lineCandidates (text : Str) : List (Members × Bool) :=
  (splitlines text).reverse.filterMap fun line => (objectWith I "verdict" line).map fun ms => (ms, false)

def reviewCandidates (text : Str) : Option (List (Members × Bool)) := do
  let decoded ← decodedEventTexts I text
  some (decoded.flatMap (decodedCandidates I) ++ fencedCandidates I text ++ lineCandidates I text ++
    unfenced (lastObject I (codes "\x7b\"verdict\"") text))

/-- `_extract_review`: fenced candidates are authoritative; otherwise last candidate wins. -/
def extractReview (text : Str) : Option (Option (Members × Bool)) := do
  let candidates ← reviewCandidates I text
  some ((candidates.filter fun c => c.2).getLast?.or candidates.getLast?)

end review

structure DirectFinding where
  severity : Str
  file : Option Str
  detail : Str
  deriving DecidableEq, Repr

structure DirectReviewResult where
  verdict : Str
  summary : Str
  findings : List DirectFinding
  degraded : Bool
  deriving DecidableEq, Repr

def maxReviewFindings : ℕ := 32
def maxFindingDetail : ℕ := 1000

/-- One turn of the loop over the findings; a finding that is not well formed is left out. -/
def findingOf (item : PyJson) : Option (Option DirectFinding) :=
  match item with
  | .obj ms => do
    let severity := get ms (codes "severity")
    match strOf severity, ← inSet severity ["blocking", "note"] with
    | some s, true =>
      some ((strOf (get ms (codes "detail"))).map fun detail =>
        { severity := s
          file := (strOf (get ms (codes "file"))).map fun f => f.take 512
          detail := detail.take maxFindingDetail })
    | _, _ => some none
  | _ => some none

def findingsOf (value : Option PyJson) : Option (List DirectFinding) :=
  match value with
  | some (.arr items) => ((items.take maxReviewFindings).mapM findingOf).map fun fs => fs.filterMap id
  | _ => some []

/-- `parse_review_result`; the answer `some none` is `None`. -/
def parseReviewResult (I : Interpreter) (text : Str) : Option (Option DirectReviewResult) := do
  match ← extractReview I text with
  | none => some none
  | some (candidate, fromFenced) =>
    let verdict := get candidate (codes "verdict")
    match strOf verdict, ← inSet verdict ["clean", "blocking"] with
    | some v, true =>
      let findings ← findingsOf (get candidate (codes "findings"))
      some (some
        { verdict := v
          summary := ((strOf (get candidate (codes "summary"))).getD []).take 4000
          findings := findings
          degraded := !fromFenced })
    | _, _ => some none

end ParallelForge.Direct
