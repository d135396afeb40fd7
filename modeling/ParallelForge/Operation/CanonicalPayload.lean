import ParallelForge.Base.JsonRoundTrip
import ParallelForge.Base.Result
import ParallelForge.Redaction.Patterns

/-!
# Durable payloads (`domain/payload.py`, `domain/operation.py`)

A payload is a Python object: the validator goes through it and rejects what
JSON cannot hold and what looks like a credential; its canonical form is one
text with sorted keys, in ASCII. `isAlnum` is `str.isalnum` of a code point.
-/

namespace ParallelForge.Operation
open Base

inductive PyFloat
  | finite (value : Json.FloatText)
  | nan
  | inf (negative : Bool)

inductive PyKey
  | str (s : Str)
  | other
  deriving DecidableEq

/-- An object as the validator tells them apart; `other` is any other type. -/
inductive PyValue
  | none
  | bool (value : Bool)
  | int (value : ℤ)
  | float (value : PyFloat)
  | str (s : Str)
  | list (items : List PyValue)
  | tuple (items : List PyValue)
  | mapping (members : List (PyKey × PyValue))
  | other

section validator
variable (isAlnum : ℕ → Bool)

/-- `str.replace(word, "")`; `n` letters of an occurrence are still to be dropped. -/
def removeWord (word : Str) : ℕ → Str → Str
  | _, [] => []
  | n + 1, _ :: s => removeWord word n s
  | 0, c :: s =>
    if word.isPrefixOf (c :: s) then removeWord word (word.length - 1) s else c :: removeWord word 0 s

def redactedMarkers : List Str := [codes "[REDACTED]", codes "<redacted>", codes "REDACTED"]

/-- `contains_credential` (`payload.py:32-41`). -/
def containsCredential (value : Str) : Bool :=
  (Redaction.patterns isAlnum).any fun pattern =>
    (Regex.finditer value pattern).any fun m =>
      let candidate := (value.drop m.1).take (m.2 - m.1)
      let candidate := redactedMarkers.foldl (fun text marker => removeWord marker 0 text) candidate
      !(Regex.finditer candidate pattern).isEmpty

/-- `_SECRET_KEY`. -/
def secretKeyPattern : Regex ℕ :=
  Regex.alts [Redaction.lit "password", Redaction.lit "secret", Redaction.lit "credential",
    Regex.seqs [Redaction.lit "api", Regex.opt (Redaction.among "_-"), Redaction.lit "key"],
    Regex.seqs [Redaction.lit "access", Regex.opt (Redaction.among "_-"), Redaction.lit "token"],
    Regex.seqs [Redaction.lit "refresh", Regex.opt (Redaction.among "_-"), Redaction.lit "token"],
    Regex.seqs [Redaction.lit "client", Regex.opt (Redaction.among "_-"), Redaction.lit "secret"],
    Regex.seqs [Redaction.lit "private", Regex.opt (Redaction.among "_-"), Redaction.lit "key"],
    Redaction.lit "authorization", Redaction.lit "token"]

def fullMatch (pattern : Regex ℕ) (s : Str) : Bool := (Regex.ends s pattern 0).contains s.length

/-- `str.lower`, as far as a lower-case letter is ASCII; the dotted capital I becomes two letters. -/
def lower (s : Str) : Str :=
  s.flatMap fun c =>
    if 65 ≤ c && c ≤ 90 then [c + 32] else if c == 0x212A then [107] else if c == 0x130 then [105, 0x307]
    else [c]

def secretSuffixes : List Str := [codes "password", codes "secret", codes "credential", codes "token"]

def secretKey (key : Str) : Bool :=
  let normalized := lower (removeWord (codes "-") 0 (removeWord (codes "_") 0 key))
  fullMatch secretKeyPattern key ||
    ((secretSuffixes.any fun suffix => suffix.isSuffixOf normalized) &&
      !(normalized == codes "tokenbudget" || normalized == codes "tokenlimit"))

/-- A secret key may hold `None` or a redaction marker. -/
def redactedValue : PyValue → Bool
  | .none => true
  | .str s => redactedMarkers.contains s
  | _ => false

mutual
/-- `validate_durable_payload` (`payload.py:135-170`). -/
def validateDurablePayload : PyValue → Except String Unit
  | .mapping ms => validateMembers ms
  | .list vs => validateItems vs
  | .tuple vs => validateItems vs
  | .str s => require (containsCredential isAlnum s = false) "durable payload contains a raw credential"
  | .none => .ok ()
  | .bool _ => .ok ()
  | .int _ => .ok ()
  | .float (.finite _) => .ok ()
  | .float .nan => .error "durable payload must contain JSON-compatible values"
  | .float (.inf _) => .error "durable payload must contain JSON-compatible values"
  | .other => .error "durable payload must contain JSON-compatible values"

def validateItems : List PyValue → Except String Unit
  | [] => .ok ()
  | v :: vs => do
    validateDurablePayload v
    validateItems vs

def validateMembers : List (PyKey × PyValue) → Except String Unit
  | [] => .ok ()
  | (.other, _) :: _ => .error "durable payload keys must be strings"
  | (.str k, v) :: ms => do
    require ((secretKey k && !redactedValue v) = false) "durable payload contains a raw credential"
    validateDurablePayload v
    validateMembers ms
end

end validator

mutual
/-- `thaw_payload`, where the result is a JSON value: tuples are lists. -/
def thawPayload : PyValue → Option Json
  | .none => some .null
  | .bool b => some (.bool b)
  | .int z => some (.int z)
  | .float (.finite f) => some (.float f)
  | .float .nan => none
  | .float (.inf _) => none
  | .str s => some (.str s)
  | .list vs => (thawItems vs).map .arr
  | .tuple vs => (thawItems vs).map .arr
  | .mapping ms => (thawMembers ms).map .obj
  | .other => none

def thawItems : List PyValue → Option (List Json)
  | [] => some []
  | v :: vs =>
    match thawPayload v, thawItems vs with
    | some v, some vs => some (v :: vs)
    | _, _ => none

def thawMembers : List (PyKey × PyValue) → Option (List (Str × Json))
  | [] => some []
  | (.other, _) :: _ => none
  | (.str k, v) :: ms =>
    match thawPayload v, thawMembers ms with
    | some v, some ms => some ((k, v) :: ms)
    | _, _ => none
end

/-- `json.dumps(..., sort_keys=True, separators=(",", ":"))`. -/
def dumps (v : Json) : Except String Str :=
  if v.every fun u => Json.printable u then .ok (Json.render true (Json.sortKeys v))
  else .error "Exceeds the limit (4300 digits) for integer string conversion"

/-- `canonical_payload` (`operation.py:53-57`). -/
def canonicalPayload (isAlnum : ℕ → Bool) (value : PyValue) : Except String Str := do
  validateDurablePayload isAlnum value
  let thawed ← orRaise (thawPayload value) "Object is not JSON serializable"
  dumps thawed

mutual
/-- Every mapping has each key once, and every string, keys included, has the property. -/
def PyValue.Texts (P : Str → Prop) : PyValue → Prop
  | .str s => P s
  | .list vs => TextsItems P vs
  | .tuple vs => TextsItems P vs
  | .mapping ms => (ms.map Prod.fst).Nodup ∧ TextsMembers P ms
  | .none => True
  | .bool _ => True
  | .int _ => True
  | .float _ => True
  | .other => True

def TextsItems (P : Str → Prop) : List PyValue → Prop
  | [] => True
  | v :: vs => v.Texts P ∧ TextsItems P vs

def TextsMembers (P : Str → Prop) : List (PyKey × PyValue) → Prop
  | [] => True
  | (.other, v) :: ms => v.Texts P ∧ TextsMembers P ms
  | (.str k, v) :: ms => P k ∧ v.Texts P ∧ TextsMembers P ms
end

/-- A `str` holds code points. -/
def CodePoints (s : Str) : Prop := ∀ c ∈ s, c < 0x110000

/-- A payload the constructors of requests, intents and commands let through: a Python object that
the validator accepts and `json.dumps` prints. -/
structure DurablePayload (isAlnum : ℕ → Bool) where
  value : PyValue
  built : value.Texts CodePoints
  valid : ∃ text, canonicalPayload isAlnum value = .ok text

end ParallelForge.Operation
