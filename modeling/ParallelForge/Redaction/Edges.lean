import ParallelForge.Redaction.Patterns

/-!
# Truncated captures (`observability/redaction.py`)

The part of `Redactor` that masks the edges of a capture whose middle was
dropped: the longest beginning of a registered secret at the end of the head, the
longest ending at the start of the tail, and the closure of both cuts over the
complete secrets and credentials they would split. The tail is worked backwards.
-/

namespace ParallelForge.Redaction
open Base Prog

def replacement : ℕ := 0xFFFD

/-- The registered secrets. -/
structure Redactor where
  secrets : List Text
  nonempty : ∀ s ∈ secrets, s ≠ []

/-- `str.find(word, start, stop)`. -/
def find (value word : Text) (start stop : ℕ) : Option ℕ :=
  (List.range' start (min stop value.length + 1 - word.length - start)).find? fun i =>
    word.isPrefixOf (value.drop i)

/-- One secret of a turn of `_secret_cut_start`. -/
def cutBefore (value : Text) (cut : ℕ) (secret : Text) : ℕ :=
  match find value secret (cut + 1 - secret.length) (cut + secret.length - 1) with
  | some i => if i < cut then i else cut
  | none => cut

/-- `_secret_cut_start` (`redaction.py:284-299`). -/
def secretCutStart (value : Text) (secrets : List Text) (cut : ℕ) : Prog ℕ :=
  if cut = value.length then pure cut
  else untilStable (fun cut => cut != 0)
    (fun cut => pure (secrets.foldl (cutBefore value) cut)) cut

/-- The table of borders, entry by entry, with the border of the last entry. -/
def fallbackStep (secret : Text) (state : List ℕ × ℕ) (index : ℕ) : Prog (List ℕ × ℕ) := do
  let matched ← whileLoop (fun m => m != 0 && secret[index]? != secret[m]?)
    (fun m => pure (state.1.getD (m - 1) 0)) state.2
  let matched := if secret[index]? = secret[matched]? then matched + 1 else matched
  pure (state.1.set index matched, matched)

def overlapStep (secret : Text) (fallback : List ℕ) (matched character : ℕ) : Prog ℕ := do
  let matched ← whileLoop
    (fun m => m != 0 && (m == secret.length || some character != secret[m]?))
    (fun m => pure (fallback.getD (m - 1) 0)) matched
  pure (if some character = secret[matched]? then matched + 1 else matched)

/-- `_secret_overlap` (`redaction.py:302-320`). -/
def secretOverlap (value secret : Text) : Prog ℕ :=
  if value = [] then pure 0
  else do
    let table ← (List.range' 1 (secret.length - 1)).foldlM (fallbackStep secret)
      (List.replicate secret.length 0, 0)
    (value.drop (value.length - secret.length)).foldlM (overlapStep secret table.1) 0

/-- `max(..., default=0)` over the secrets. -/
def longestOverlap (value : Text) (secrets : List Text) : Prog ℕ :=
  secrets.foldlM (fun longest secret => do
    let k ← secretOverlap value secret
    pure (max longest k)) 0

def redactedMark : Text := text "[REDACTED]"

def captureOmission : Text := text "\n[... output omitted ...]\n"

def rstrip (c : ℕ) (value : Text) : Text := (value.reverse.dropWhile (· == c)).reverse

def lstrip (c : ℕ) (value : Text) : Text := value.dropWhile (· == c)

section edges
variable (isAlnum : ℕ → Bool) (r : Redactor)

/-- One round of the closure. -/
def cutRound (head tail : Text) (cuts : ℕ × ℕ) : Prog (ℕ × ℕ) := do
  let headCut ← secretCutStart head r.secrets cuts.1
  let start ← secretCutStart tail.reverse (r.secrets.map List.reverse) (tail.length - cuts.2)
  credentialCaptureCuts isAlnum head tail headCut (tail.length - start)

def captureCuts (head tail : Text) : Prog (ℕ × ℕ) := do
  let headOverlap ← longestOverlap head r.secrets
  let tailOverlap ← longestOverlap tail.reverse (r.secrets.map List.reverse)
  untilStable (fun _ => true) (cutRound isAlnum r head tail) (head.length - headOverlap, tailOverlap)

/-- The head and the tail of a value, stripped at the lost edges. -/
def captureHead (value : Text) : Option ℕ → Text
  | none => rstrip replacement value
  | some boundary => rstrip replacement (value.take boundary)

def captureTail (value : Text) : Option ℕ → Text
  | none => []
  | some boundary => lstrip replacement (value.drop boundary)

def markHead (head : Text) (cut : ℕ) : Text :=
  if cut < head.length then head.take cut ++ redactedMark else head

def markTail (tail : Text) (cut : ℕ) : Text :=
  if cut ≠ 0 then redactedMark ++ tail.drop cut else tail

/-- `_redact_capture_edges` (`redaction.py:220-248`). -/
def redactCaptureEdges (value : Text) (boundary : Option ℕ) : Prog Text := do
  let head := captureHead value boundary
  let tail := captureTail value boundary
  let cuts ← captureCuts isAlnum r head tail
  pure (markHead head cuts.1 ++ captureOmission ++ markTail tail cuts.2)

end edges

end ParallelForge.Redaction
