import ParallelForge.Base.JsonRoundTrip

/-!
# JSON as `json.loads` reads it

Without hooks the reader takes the constants `NaN` and `Infinity`, reads a float
that is too large as infinite, and of a key that comes twice keeps the first place
and the last value. The writer has two forms of separators.
-/

namespace ParallelForge.Base

inductive JsonConstant
  | nan
  | infinity
  | negativeInfinity
  deriving DecidableEq, Repr

/-- A value of the reader; the members of an object in the order of the `dict`. -/
inductive PyJson
  | null
  | bool (value : Bool)
  | int (value : ℤ)
  | float (value : Json.FloatText)
  | constant (value : JsonConstant)
  | str (value : Str)
  | arr (items : List PyJson)
  | obj (members : List (Str × PyJson))

namespace PyJson
open Json

/-- `d[key] = value`. -/
def setMember (ms : List (Str × PyJson)) (key : Str) (value : PyJson) : List (Str × PyJson) :=
  if key ∈ ms.map Prod.fst then ms.map fun p => if p.1 = key then (key, value) else p
  else ms ++ [(key, value)]

/-- The `dict` of the pairs read. -/
def toDict (pairs : List (Str × PyJson)) : List (Str × PyJson) :=
  pairs.foldl (fun ms p => setMember ms p.1 p.2) []

/-- `dict.get`. -/
def get (ms : List (Str × PyJson)) (key : Str) : Option PyJson := ms.lookup key

def constantText : JsonConstant → Str
  | .nan => codes "NaN"
  | .infinity => codes "Infinity"
  | .negativeInfinity => codes "-Infinity"

/-! ## Reading -/

section reading
variable (readFloat : FloatText → Option FloatText)

/-- `readFloat` has no answer where `float(text)` is infinite. -/
def ofLiteral : Json → PyJson
  | .null => .null
  | .bool b => .bool b
  | .int z => .int z
  | .float f =>
    match readFloat f with
    | some g => .float g
    | none => if f.text.head? = some 45 then .constant .negativeInfinity else .constant .infinity
  | .str s => .str s
  | .arr _ => .arr []
  | .obj _ => .obj []

def readLiteral (s : Str) : Option (PyJson × Str) :=
  match expect (codes "NaN") s with
  | some rest => some (.constant .nan, rest)
  | none =>
    match expect (codes "Infinity") s with
    | some rest => some (.constant .infinity, rest)
    | none =>
      match expect (codes "-Infinity") s with
      | some rest => some (.constant .negativeInfinity, rest)
      | none => (scanLiteral s).map fun r => (ofLiteral readFloat r.1, r.2)

mutual
/-- `scan_once`; every turn reads a letter, so the length of the text is enough fuel. -/
def readValue : ℕ → Str → Option (PyJson × Str)
  | 0, _ => none
  | _ + 1, [] => none
  | n + 1, c :: s =>
    if c = 34 then (scanString s).map fun r => (.str r.1, r.2)
    else if c = 91 then
      match expect [93] (skip s) with
      | some rest => some (.arr [], rest)
      | none => (readItems n (skip s)).map fun r => (.arr r.1, r.2)
    else if c = 123 then
      match expect [125] (skip s) with
      | some rest => some (.obj [], rest)
      | none => (readMembers n (skip s)).map fun r => (.obj (toDict r.1), r.2)
    else readLiteral readFloat (c :: s)

def readItems : ℕ → Str → Option (List PyJson × Str)
  | 0, _ => none
  | n + 1, s =>
    match readValue n s with
    | none => none
    | some (v, rest) =>
      match skip rest with
      | [] => none
      | c :: rest =>
        if c = 93 then some ([v], rest)
        else if c = 44 then (readItems n (skip rest)).map fun r => (v :: r.1, r.2)
        else none

def readMembers : ℕ → Str → Option (List (Str × PyJson) × Str)
  | 0, _ => none
  | n + 1, s =>
    match expect [34] s with
    | none => none
    | some s =>
      match scanString s with
      | none => none
      | some (k, s) =>
        match expect [58] (skip s) with
        | none => none
        | some s =>
          match readValue n (skip s) with
          | none => none
          | some (v, rest) =>
            match skip rest with
            | [] => none
            | c :: rest =>
              if c = 125 then some ([(k, v)], rest)
              else if c = 44 then (readMembers n (skip rest)).map fun r => ((k, v) :: r.1, r.2)
              else none
end

/-- `json.loads`, where it does not raise. -/
def loads (s : Str) : Option PyJson :=
  match readValue readFloat s.length (skip s) with
  | some (v, rest) => if skip rest = [] then some v else none
  | none => none

end reading

/-! ## Writing -/

section writing
variable (spaced ascii : Bool)

/-- What stands behind a comma or a colon. -/
def gap : Str := if spaced then [32] else []

mutual
/-- `json.dumps`; `spaced` is the default form, with a blank behind `,` and `:`. -/
def render : PyJson → Str
  | .null => codes "null"
  | .bool true => codes "true"
  | .bool false => codes "false"
  | .int z => intText z
  | .float f => f.text
  | .constant c => constantText c
  | .str s => stringText ascii s
  | .arr [] => [91, 93]
  | .arr (v :: vs) => 91 :: (render v ++ renderItems vs)
  | .obj [] => [123, 125]
  | .obj ((k, v) :: ms) => 123 :: (stringText ascii k ++ 58 :: (gap spaced ++ (render v ++ renderMembers ms)))

def renderItems : List PyJson → Str
  | [] => [93]
  | v :: vs => 44 :: (gap spaced ++ (render v ++ renderItems vs))

def renderMembers : List (Str × PyJson) → Str
  | [] => [125]
  | (k, v) :: ms =>
    44 :: (gap spaced ++ (stringText ascii k ++ 58 :: (gap spaced ++ (render v ++ renderMembers ms))))
end

end writing

mutual
/-- `allow_nan=False` writes the value. -/
def finite : PyJson → Bool
  | .constant _ => false
  | .arr vs => finiteItems vs
  | .obj ms => finiteMembers ms
  | .null => true
  | .bool _ => true
  | .int _ => true
  | .float _ => true
  | .str _ => true

def finiteItems : List PyJson → Bool
  | [] => true
  | v :: vs => finite v && finiteItems vs

def finiteMembers : List (Str × PyJson) → Bool
  | [] => true
  | (_, v) :: ms => finite v && finiteMembers ms
end

mutual
/-- How deep arrays and objects lie in each other. -/
def nesting : PyJson → ℕ
  | .arr vs => nestingItems vs + 1
  | .obj ms => nestingMembers ms + 1
  | .null => 0
  | .bool _ => 0
  | .int _ => 0
  | .float _ => 0
  | .constant _ => 0
  | .str _ => 0

def nestingItems : List PyJson → ℕ
  | [] => 0
  | v :: vs => max (nesting v) (nestingItems vs)

def nestingMembers : List (Str × PyJson) → ℕ
  | [] => 0
  | (_, v) :: ms => max (nesting v) (nestingMembers ms)
end

/-! ## Reading what was written -/

/-- A text as it is read back: two escapes that spell a pair of surrogates have become one letter. -/
def rejoin (ascii : Bool) (s : Str) : Str := joinUnits (s.flatMap (units ascii))

mutual
def reread (ascii : Bool) : PyJson → PyJson
  | .str s => .str (rejoin ascii s)
  | .arr vs => .arr (rereadItems ascii vs)
  | .obj ms => .obj (rereadMembers ascii ms)
  | .null => .null
  | .bool b => .bool b
  | .int z => .int z
  | .float f => .float f
  | .constant c => .constant c

def rereadItems (ascii : Bool) : List PyJson → List PyJson
  | [] => []
  | v :: vs => reread ascii v :: rereadItems ascii vs

def rereadMembers (ascii : Bool) : List (Str × PyJson) → List (Str × PyJson)
  | [] => []
  | (k, v) :: ms => (rejoin ascii k, reread ascii v) :: rereadMembers ascii ms
end

def isText (s : Str) : Prop := ∀ c ∈ s, c < 0x110000

mutual
/-- Without floats, its integers printable, and no two keys that are read as one. -/
def Plain (ascii : Bool) : PyJson → Prop
  | .str s => isText s
  | .int z => (decimal z.natAbs).length ≤ digitLimit
  | .arr vs => PlainItems ascii vs
  | .obj ms => (ms.map fun p => rejoin ascii p.1).Nodup ∧ PlainMembers ascii ms
  | .null => True
  | .bool _ => True
  | .float _ => False
  | .constant _ => False

def PlainItems (ascii : Bool) : List PyJson → Prop
  | [] => True
  | v :: vs => Plain ascii v ∧ PlainItems ascii vs

def PlainMembers (ascii : Bool) : List (Str × PyJson) → Prop
  | [] => True
  | (k, v) :: ms => isText k ∧ Plain ascii v ∧ PlainMembers ascii ms
end

end PyJson

end ParallelForge.Base
