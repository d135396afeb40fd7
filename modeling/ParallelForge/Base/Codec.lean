import ParallelForge.Base.Json

/-!
# Texts from bytes

The Unicode codecs by which Python reads bytes as a text, and how `json.loads`
chooses among them. With `surrogatepass` a lone surrogate is read as it stands.
-/

namespace ParallelForge.Base

namespace Codec

/-- `10xxxxxx`. -/
def isContinuation (b : ℕ) : Bool := 0x80 ≤ b && b ≤ 0xBF

/-- UTF-8; `surrogates` is the error handler `surrogatepass`. -/
def utf8 (surrogates : Bool) : List ℕ → Option Str
  | [] => some []
  | a :: s =>
    if a < 0x80 then (utf8 surrogates s).map (a :: ·)
    else if a < 0xE0 then
      match s with
      | b :: s =>
        if 0xC2 ≤ a && isContinuation b then
          (utf8 surrogates s).map (((a - 0xC0) * 0x40 + (b - 0x80)) :: ·)
        else none
      | _ => none
    else if a < 0xF0 then
      match s with
      | b :: c :: s =>
        let code := (a - 0xE0) * 0x1000 + (b - 0x80) * 0x40 + (c - 0x80)
        if isContinuation b && isContinuation c && 0x800 ≤ code &&
            (surrogates || !(0xD800 ≤ code && code ≤ 0xDFFF)) then
          (utf8 surrogates s).map (code :: ·)
        else none
      | _ => none
    else
      match s with
      | b :: c :: d :: s =>
        let code := (a - 0xF0) * 0x40000 + (b - 0x80) * 0x1000 + (c - 0x80) * 0x40 + (d - 0x80)
        if a < 0xF8 && isContinuation b && isContinuation c && isContinuation d && 0x10000 ≤ code &&
            code < 0x110000 then
          (utf8 surrogates s).map (code :: ·)
        else none
      | _ => none

/-- The units of UTF-16, the first byte of each being the high one or the low one. -/
def units16 (big : Bool) : List ℕ → Option (List ℕ)
  | [] => some []
  | [_] => none
  | a :: b :: s => (units16 big s).map ((if big then a * 0x100 + b else b * 0x100 + a) :: ·)

/-- Pairs of surrogates are one code point, lone ones pass. -/
def joinPairs : List ℕ → Str
  | [] => []
  | [c] => [c]
  | c :: d :: us =>
    if Json.isHigh c && Json.isLow d then
      (0x10000 + (c - 0xD800) * 0x400 + (d - 0xDC00)) :: joinPairs us
    else c :: joinPairs (d :: us)

def utf16 (big : Bool) (s : List ℕ) : Option Str := (units16 big s).map joinPairs

def utf32 (big : Bool) : List ℕ → Option Str
  | [] => some []
  | a :: b :: c :: d :: s =>
    let code := if big then ((a * 0x100 + b) * 0x100 + c) * 0x100 + d
      else ((d * 0x100 + c) * 0x100 + b) * 0x100 + a
    if code < 0x110000 then (utf32 big s).map (code :: ·) else none
  | _ => none

/-- `s.decode(detect_encoding(s), "surrogatepass")` of `json.loads`: by a byte order mark,
else by the zero bytes at the start of a JSON text. -/
def decodeDetected (s : List ℕ) : Option Str :=
  if [0, 0, 0xFE, 0xFF].isPrefixOf s then utf32 true (s.drop 4)
  else if [0xFF, 0xFE, 0, 0].isPrefixOf s then utf32 false (s.drop 4)
  else if [0xFE, 0xFF].isPrefixOf s then utf16 true (s.drop 2)
  else if [0xFF, 0xFE].isPrefixOf s then utf16 false (s.drop 2)
  else if [0xEF, 0xBB, 0xBF].isPrefixOf s then utf8 true (s.drop 3)
  else match s with
    | a :: b :: c :: d :: _ =>
      if a = 0 then if b ≠ 0 then utf16 true s else utf32 true s
      else if b = 0 then if c ≠ 0 ∨ d ≠ 0 then utf16 false s else utf32 false s
      else utf8 true s
    | [a, b] =>
      if a = 0 then utf16 true s else if b = 0 then utf16 false s else utf8 true s
    | _ => utf8 true s

/-! ## Bytes from texts -/

/-- The code points that UTF-8 has: not the surrogates. -/
def isScalar (c : ℕ) : Bool := c < 0xD800 || (0xDFFF < c && c < 0x110000)

def encodeLetter (c : ℕ) : List ℕ :=
  if c < 0x80 then [c]
  else if c < 0x800 then [0xC0 + c / 0x40, 0x80 + c % 0x40]
  else if c < 0x10000 then [0xE0 + c / 0x1000, 0x80 + c / 0x40 % 0x40, 0x80 + c % 0x40]
  else [0xF0 + c / 0x40000, 0x80 + c / 0x1000 % 0x40, 0x80 + c / 0x40 % 0x40, 0x80 + c % 0x40]

/-- `s.encode("utf-8")`, where it does not raise. -/
def encode (s : Str) : Option (List ℕ) := if s.all isScalar then some (s.flatMap encodeLetter) else none

theorem utf8_encodeLetter (c : ℕ) (rest : List ℕ) (hc : isScalar c = true) :
    utf8 false (encodeLetter c ++ rest) = (utf8 false rest).map (c :: ·) := by
  have hscalar : c < 0xD800 ∨ 0xDFFF < c ∧ c < 0x110000 := by simpa [isScalar] using hc
  have hcont : ∀ n, isContinuation (0x80 + n % 0x40) = true := by
    intro n
    simp only [isContinuation, Bool.and_eq_true, decide_eq_true_eq]
    omega
  unfold encodeLetter
  by_cases hone : c < 0x80
  · rw [if_pos hone, List.singleton_append, utf8.eq_def]
    exact if_pos hone
  rw [if_neg hone]
  by_cases htwo : c < 0x800
  · have hlead : 0xC2 ≤ 0xC0 + c / 0x40 ∧ 0xC0 + c / 0x40 < 0xE0 := by omega
    have hvalue : (0xC0 + c / 0x40 - 0xC0) * 0x40 + (0x80 + c % 0x40 - 0x80) = c := by omega
    rw [if_pos htwo, List.cons_append, List.singleton_append, utf8, if_neg (by omega), if_pos hlead.2]
    simp only [hlead.1, hcont, hvalue, decide_true, Bool.and_self, if_true]
  rw [if_neg htwo]
  by_cases hthree : c < 0x10000
  · have hlead : 0xE0 ≤ 0xE0 + c / 0x1000 ∧ 0xE0 + c / 0x1000 < 0xF0 := by omega
    have hvalue : (0xE0 + c / 0x1000 - 0xE0) * 0x1000 + (0x80 + c / 0x40 % 0x40 - 0x80) * 0x40 +
        (0x80 + c % 0x40 - 0x80) = c := by omega
    have hlarge : 0x800 ≤ c := by omega
    have hno : (decide (0xD800 ≤ c) && decide (c ≤ 0xDFFF)) = false := by
      rw [Bool.and_eq_false_iff, decide_eq_false_iff_not, decide_eq_false_iff_not]
      omega
    rw [if_pos hthree, List.cons_append, List.cons_append, List.singleton_append, utf8, if_neg (by omega),
      if_neg (by omega), if_pos hlead.2]
    simp only [hcont, hvalue, hlarge, hno, decide_true, Bool.and_self, Bool.not_false, Bool.or_true, if_true]
  · have hlead : 0xF0 ≤ 0xF0 + c / 0x40000 ∧ 0xF0 + c / 0x40000 < 0xF8 := by omega
    have hvalue : (0xF0 + c / 0x40000 - 0xF0) * 0x40000 + (0x80 + c / 0x1000 % 0x40 - 0x80) * 0x1000 +
        (0x80 + c / 0x40 % 0x40 - 0x80) * 0x40 + (0x80 + c % 0x40 - 0x80) = c := by omega
    have hrange : 0x10000 ≤ c ∧ c < 0x110000 := by omega
    rw [if_neg hthree, List.cons_append, List.cons_append, List.cons_append, List.singleton_append, utf8,
      if_neg (by omega), if_neg (by omega), if_neg (by omega)]
    simp only [hcont, hvalue, hrange.1, hrange.2, hlead.2, decide_true, Bool.and_self, if_true]

/-- What was encoded is decoded to the same text. -/
theorem utf8_encode {s : Str} {bytes : List ℕ} (h : encode s = some bytes) : utf8 false bytes = some s := by
  unfold encode at h
  split at h
  · next hall =>
    cases h
    induction s with
    | nil => rfl
    | cons c s ih =>
      rw [List.all_cons, Bool.and_eq_true] at hall
      rw [List.flatMap_cons, utf8_encodeLetter c _ hall.1, ih hall.2]
      rfl
  · cases h

theorem encode_isSome (s : Str) : (encode s).isSome = s.all isScalar := by
  unfold encode
  split
  · next h => rw [h]; rfl
  · next h => rw [Bool.not_eq_true] at h; rw [h]; rfl

end Codec

end ParallelForge.Base
