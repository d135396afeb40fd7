import ParallelForge.Base.Text
import Mathlib.Data.List.Sort
import Mathlib.Data.List.Lex
import Mathlib.Order.Lattice.Nat

/-!
# JSON texts as Python writes and reads them

A Python `str` is the list of its code points, lone surrogates included. A
value is printed without blanks, its members in the order given; ASCII output
spells what lies beyond `\uFFFF` as a pair of surrogates. The reader takes any
JSON text, and refuses an object that names a key twice.
-/

namespace ParallelForge.Base

abbrev Str := List ℕ

instance : LawfulBEq Str := List.instLawfulBEq

def codes (s : String) : Str := s.toList.map Char.toNat

theorem codes_injective {a b : String} (h : codes a = codes b) : a = b := by
  have hchars : Function.Injective Char.toNat := fun c d hcd => Char.ext (UInt32.toNat_inj.mp hcd)
  exact String.toList_inj.mp (List.map_injective_iff.mpr hchars h)

namespace Json

def isDigit (c : ℕ) : Bool := 48 ≤ c && c ≤ 57

/-! ## Numbers -/

def decimal (n : ℕ) : Str := (Nat.toDigits 10 n).map Char.toNat

def readDecimal (s : Str) : ℕ := s.foldl (fun n c => 10 * n + (c - 48)) 0

/-- `int.__repr__`. -/
def intText (z : ℤ) : Str := if z < 0 then 45 :: decimal z.natAbs else decimal z.natAbs

/-- The parts of a number at the start of a text, and what follows. -/
structure NumberToken where
  sign : Str
  whole : Str
  fraction : Str
  exponent : Str
  rest : Str
  deriving DecidableEq, Repr

def takeSign (s : Str) : Str × Str :=
  match s with
  | 45 :: rest => ([45], rest)
  | _ => ([], s)

/-- `0` or `[1-9][0-9]*`. -/
def takeWhole (s : Str) : Str × Str :=
  match s with
  | 48 :: rest => ([48], rest)
  | _ => (s.takeWhile isDigit, s.dropWhile isDigit)

/-- `\.[0-9]+`, if it is there. -/
def takeFraction (s : Str) : Str × Str :=
  match s with
  | 46 :: rest =>
    if rest.takeWhile isDigit = [] then ([], s)
    else (46 :: rest.takeWhile isDigit, rest.dropWhile isDigit)
  | _ => ([], s)

/-- `[-+]`, if it is there. -/
def takeExponentSign (s : Str) : Str × Str :=
  match s with
  | c :: rest => if c = 43 ∨ c = 45 then ([c], rest) else ([], s)
  | [] => ([], [])

/-- `[eE][-+]?[0-9]+`, if it is there. -/
def takeExponent (s : Str) : Str × Str :=
  match s with
  | c :: rest =>
    if (c = 69 ∨ c = 101) ∧ (takeExponentSign rest).2.takeWhile isDigit ≠ [] then
      (c :: (takeExponentSign rest).1 ++ (takeExponentSign rest).2.takeWhile isDigit,
        (takeExponentSign rest).2.dropWhile isDigit)
    else ([], s)
  | [] => ([], [])

/-- `NUMBER_RE`. -/
def matchNumber (s : Str) : Option NumberToken :=
  let sign := takeSign s
  let whole := takeWhole sign.2
  let fraction := takeFraction whole.2
  let exponent := takeExponent fraction.2
  if whole.1 = [] then none
  else some ⟨sign.1, whole.1, fraction.1, exponent.1, exponent.2⟩

def NumberToken.text (t : NumberToken) : Str := t.sign ++ t.whole ++ t.fraction ++ t.exponent

def NumberToken.isFloat (t : NumberToken) : Bool := !t.fraction.isEmpty || !t.exponent.isEmpty

/-- A finite float by the text `float.__repr__` gives it. -/
def floatShape (s : Str) : Bool :=
  match matchNumber s with
  | some t => t.isFloat && t.rest.isEmpty && t.text == s
  | none => false

structure FloatText where
  text : Str
  shape : floatShape text = true
  deriving DecidableEq

end Json

inductive Json
  | null
  | bool (value : Bool)
  | int (value : ℤ)
  | float (value : Json.FloatText)
  | str (value : Str)
  | arr (items : List Json)
  | obj (members : List (Str × Json))

namespace Json

/-! ## Printing -/

def hexDigit (n : ℕ) : ℕ := if n < 10 then 48 + n else 87 + n

/-- `\uXXXX`. -/
def unicodeEscape (n : ℕ) : Str :=
  [92, 117, hexDigit (n / 4096 % 16), hexDigit (n / 256 % 16), hexDigit (n / 16 % 16), hexDigit (n % 16)]

def highSurrogate (c : ℕ) : ℕ := 0xD800 + (c - 0x10000) / 0x400
def lowSurrogate (c : ℕ) : ℕ := 0xDC00 + (c - 0x10000) % 0x400

/-- The letters with an escape of their own: `"`, `\`, and `\b \t \n \f \r`. -/
def shortEscape (c : ℕ) : Option ℕ :=
  if c = 34 then some 34
  else if c = 92 then some 92
  else if c = 8 then some 98
  else if c = 9 then some 116
  else if c = 10 then some 110
  else if c = 12 then some 102
  else if c = 13 then some 114
  else none

def escape (ascii : Bool) (c : ℕ) : Str :=
  match shortEscape c with
  | some e => [92, e]
  | none =>
    if c < 32 then unicodeEscape c
    else if !ascii || c < 127 then [c]
    else if c < 0x10000 then unicodeEscape c
    else unicodeEscape (highSurrogate c) ++ unicodeEscape (lowSurrogate c)

def stringText (ascii : Bool) (s : Str) : Str := 34 :: (s.flatMap (escape ascii) ++ [34])

mutual
/-- `json.dumps` with the separators `,` and `:`; `ascii` is `ensure_ascii`. -/
def render (ascii : Bool) : Json → Str
  | .null => codes "null"
  | .bool true => codes "true"
  | .bool false => codes "false"
  | .int z => intText z
  | .float f => f.text
  | .str s => stringText ascii s
  | .arr [] => [91, 93]
  | .arr (v :: vs) => 91 :: (render ascii v ++ renderItems ascii vs)
  | .obj [] => [123, 125]
  | .obj ((k, v) :: ms) =>
    123 :: (stringText ascii k ++ 58 :: (render ascii v ++ renderMembers ascii ms))

def renderItems (ascii : Bool) : List Json → Str
  | [] => [93]
  | v :: vs => 44 :: (render ascii v ++ renderItems ascii vs)

def renderMembers (ascii : Bool) : List (Str × Json) → Str
  | [] => [125]
  | (k, v) :: ms => 44 :: (stringText ascii k ++ 58 :: (render ascii v ++ renderMembers ascii ms))
end

mutual
/-- `sort_keys=True`: every object with its keys in the order of code points. -/
def sortKeys : Json → Json
  | .arr vs => .arr (sortKeysItems vs)
  | .obj ms => .obj ((sortKeysMembers ms).insertionSort fun p q => p.1 ≤ q.1)
  | .null => .null
  | .bool b => .bool b
  | .int z => .int z
  | .float f => .float f
  | .str s => .str s

def sortKeysItems : List Json → List Json
  | [] => []
  | v :: vs => sortKeys v :: sortKeysItems vs

def sortKeysMembers : List (Str × Json) → List (Str × Json)
  | [] => []
  | (k, v) :: ms => (k, sortKeys v) :: sortKeysMembers ms
end

/-! ## Reading -/

def hexValue (c : ℕ) : Option ℕ :=
  if 48 ≤ c ∧ c ≤ 57 then some (c - 48)
  else if 97 ≤ c ∧ c ≤ 102 then some (c - 87)
  else if 65 ≤ c ∧ c ≤ 70 then some (c - 55)
  else none

def hex4 (a b c d : ℕ) : Option ℕ :=
  match hexValue a, hexValue b, hexValue c, hexValue d with
  | some a, some b, some c, some d => some (4096 * a + 256 * b + 16 * c + d)
  | _, _, _, _ => none

def unescape (c : ℕ) : Option ℕ :=
  if c = 34 then some 34
  else if c = 92 then some 92
  else if c = 47 then some 47
  else if c = 98 then some 8
  else if c = 102 then some 12
  else if c = 110 then some 10
  else if c = 114 then some 13
  else if c = 116 then some 9
  else none

/-- The letters up to the closing quote, each with whether `\u` spelled it. -/
def scanUnits : Str → Option (List (ℕ × Bool) × Str)
  | [] => none
  | c :: s =>
    if c = 34 then some ([], s)
    else if c = 92 then
      match s with
      | [] => none
      | e :: s =>
        if e = 117 then
          match s with
          | a :: b :: c :: d :: s =>
            match hex4 a b c d with
            | some u => (scanUnits s).map fun r => ((u, true) :: r.1, r.2)
            | none => none
          | _ => none
        else
          match unescape e with
          | some u => (scanUnits s).map fun r => ((u, false) :: r.1, r.2)
          | none => none
    else if c < 32 then none
    else (scanUnits s).map fun r => ((c, false) :: r.1, r.2)

def isHigh (c : ℕ) : Bool := 0xD800 ≤ c && c ≤ 0xDBFF
def isLow (c : ℕ) : Bool := 0xDC00 ≤ c && c ≤ 0xDFFF

/-- Two escapes that spell a pair of surrogates are one code point. -/
def joinUnits : List (ℕ × Bool) → Str
  | [] => []
  | [(c, _)] => [c]
  | (c, e) :: (d, e') :: us =>
    if e && e' && isHigh c && isLow d then
      (0x10000 + (c - 0xD800) * 0x400 + (d - 0xDC00)) :: joinUnits us
    else c :: joinUnits ((d, e') :: us)

/-- `scanstring`, behind the opening quote. -/
def scanString (s : Str) : Option (Str × Str) := (scanUnits s).map fun r => (joinUnits r.1, r.2)

/-- `[ \t\n\r]*`. -/
def skip (s : Str) : Str := s.dropWhile fun c => c == 32 || c == 9 || c == 10 || c == 13

def expect (word s : Str) : Option Str := if word.isPrefixOf s then some (s.drop word.length) else none

/-- `int(...)` reads at most 4300 digits. -/
def digitLimit : ℕ := 4300

def scanNumber (s : Str) : Option (Json × Str) :=
  match matchNumber s with
  | none => none
  | some t =>
    if t.isFloat then
      if h : floatShape t.text = true then some (.float ⟨t.text, h⟩, t.rest) else none
    else if digitLimit < t.whole.length then none
    else some (.int (if t.sign = [] then readDecimal t.whole else -readDecimal t.whole), t.rest)

def scanLiteral (s : Str) : Option (Json × Str) :=
  match expect (codes "null") s with
  | some rest => some (.null, rest)
  | none =>
    match expect (codes "true") s with
    | some rest => some (.bool true, rest)
    | none =>
      match expect (codes "false") s with
      | some rest => some (.bool false, rest)
      | none => scanNumber s

mutual
/-- `scan_once`; every turn reads a letter, so the length of the text is enough fuel. -/
def scanValue : ℕ → Str → Option (Json × Str)
  | 0, _ => none
  | _ + 1, [] => none
  | n + 1, c :: s =>
    if c = 34 then (scanString s).map fun r => (.str r.1, r.2)
    else if c = 91 then
      match expect [93] (skip s) with
      | some rest => some (.arr [], rest)
      | none => (scanItems n (skip s)).map fun r => (.arr r.1, r.2)
    else if c = 123 then
      match expect [125] (skip s) with
      | some rest => some (.obj [], rest)
      | none =>
        match scanMembers n (skip s) with
        | some (ms, rest) => if (ms.map Prod.fst).Nodup then some (.obj ms, rest) else none
        | none => none
    else scanLiteral (c :: s)

def scanItems : ℕ → Str → Option (List Json × Str)
  | 0, _ => none
  | n + 1, s =>
    match scanValue n s with
    | none => none
    | some (v, rest) =>
      match skip rest with
      | [] => none
      | c :: rest =>
        if c = 93 then some ([v], rest)
        else if c = 44 then (scanItems n (skip rest)).map fun r => (v :: r.1, r.2)
        else none

def scanMembers : ℕ → Str → Option (List (Str × Json) × Str)
  | 0, _ => none
  | n + 1, s =>
    match expect [34] s with
    | none => none
    | some s =>
      match scanString s with
      | none => none
      | some (k, s) =>
        match expect [58] (skip s) with
        | none => none
        | some s =>
          match scanValue n (skip s) with
          | none => none
          | some (v, rest) =>
            match skip rest with
            | [] => none
            | c :: rest =>
              if c = 125 then some ([(k, v)], rest)
              else if c = 44 then (scanMembers n (skip rest)).map fun r => ((k, v) :: r.1, r.2)
              else none
end

/-- `json.loads`, refusing duplicate keys and the constants that are not JSON. -/
def loads (s : Str) : Option Json :=
  match scanValue s.length (skip s) with
  | some (v, rest) => if skip rest = [] then some v else none
  | none => none

/-! ## Values -/

/-- `int.__repr__` prints at most as many digits. -/
def printable : Json → Bool
  | .int z => (decimal z.natAbs).length ≤ digitLimit
  | _ => true

mutual
/-- Every part of the value passes the test. -/
def every (test : Json → Bool) : Json → Bool
  | .arr vs => test (.arr vs) && everyItem test vs
  | .obj ms => test (.obj ms) && everyMember test ms
  | .null => test .null
  | .bool b => test (.bool b)
  | .int z => test (.int z)
  | .float f => test (.float f)
  | .str s => test (.str s)

def everyItem (test : Json → Bool) : List Json → Bool
  | [] => true
  | v :: vs => every test v && everyItem test vs

def everyMember (test : Json → Bool) : List (Str × Json) → Bool
  | [] => true
  | (_, v) :: ms => every test v && everyMember test ms
end

/-- An object names each key once, as a `dict` does. -/
def uniqueKeys : Json → Prop
  | .obj ms => (ms.map Prod.fst).Nodup
  | _ => True

mutual
/-- Every part of the value has the property. -/
def All (P : Json → Prop) : Json → Prop
  | .arr vs => P (.arr vs) ∧ AllItems P vs
  | .obj ms => P (.obj ms) ∧ AllMembers P ms
  | .null => P .null
  | .bool b => P (.bool b)
  | .int z => P (.int z)
  | .float f => P (.float f)
  | .str s => P (.str s)

def AllItems (P : Json → Prop) : List Json → Prop
  | [] => True
  | v :: vs => All P v ∧ AllItems P vs

def AllMembers (P : Json → Prop) : List (Str × Json) → Prop
  | [] => True
  | (_, v) :: ms => All P v ∧ AllMembers P ms
end

mutual
/-- The same JSON value: an array item by item, an object key by key in any order. -/
def Same : Json → Json → Prop
  | .arr vs, .arr ws => SameItems vs ws
  | .obj ms, .obj ns => ms.length = ns.length ∧ SameMembers ms ns
  | .null, .null => True
  | .bool a, .bool b => a = b
  | .int a, .int b => a = b
  | .float a, .float b => a = b
  | .str a, .str b => a = b
  | _, _ => False

def SameItems : List Json → List Json → Prop
  | [], [] => True
  | v :: vs, w :: ws => Same v w ∧ SameItems vs ws
  | _, _ => False

def SameMembers : List (Str × Json) → List (Str × Json) → Prop
  | [], _ => True
  | (k, v) :: ms, ns => (∃ w, (k, w) ∈ ns ∧ Same v w) ∧ SameMembers ms ns
end

end Json

end ParallelForge.Base
