import Mathlib.Data.List.Basic
import Mathlib.Data.Int.Notation

/-!
# Python values

Identifiers, and the parts of `str` the sources rely on:
`str.isspace` per character, `strip`, and the fixed-length lowercase
hexadecimal patterns `\A[0-9a-f]{n}\Z`.
-/

namespace ParallelForge.Base

/-- A UUID by its `int` value; the nil UUID is 0. -/
abbrev UUID := ℕ

/-- Characters `str.strip()` removes (Unicode White_Space plus U+001C..U+001F). -/
def isSpace (c : Char) : Bool :=
  let n := c.toNat
  (9 ≤ n && n ≤ 13) || (28 ≤ n && n ≤ 32) || n == 0x85 || n == 0xA0 || n == 0x1680 ||
    (0x2000 ≤ n && n ≤ 0x200A) || n == 0x2028 || n == 0x2029 || n == 0x202F || n == 0x205F ||
    n == 0x3000

def strip (s : String) : String :=
  String.ofList ((s.toList.dropWhile isSpace).reverse.dropWhile isSpace).reverse

def isLowerHex (c : Char) : Bool := ('0' ≤ c && c ≤ '9') || ('a' ≤ c && c ≤ 'f')

def isHexOfLength (n : ℕ) (s : String) : Bool := s.length == n && s.toList.all isLowerHex

/-- `[a-z_][a-z0-9_]*` as a full match. -/
def isIdentifier (s : String) : Bool :=
  match s.toList with
  | [] => false
  | c :: cs => (('a' ≤ c && c ≤ 'z') || c == '_') &&
      cs.all fun d => ('a' ≤ d && d ≤ 'z') || ('0' ≤ d && d ≤ '9') || d == '_'

end ParallelForge.Base
