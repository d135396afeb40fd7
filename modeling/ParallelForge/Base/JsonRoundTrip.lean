import ParallelForge.Base.JsonOrder
import Mathlib.Data.List.TakeWhile

/-!
# What is printed is read back

The reader takes a printed value and stops where it ends, if the text goes on
as it does inside an array or an object. ASCII output does not tell a pair of
surrogates from the code point the pair stands for, so its strings must not
hold such a pair.
-/

namespace ParallelForge.Base.Json

/-- What follows a value inside a text. -/
def Closed (rest : Str) : Prop := ∀ c, rest.head? = some c → c = 44 ∨ c = 93 ∨ c = 125

theorem closed_nil : Closed [] := fun c h => by cases h

theorem closed_cons {c : ℕ} (rest : Str) (h : c = 44 ∨ c = 93 ∨ c = 125) : Closed (c :: rest) := by
  intro d hd
  cases hd
  exact h

/-! ## Numbers -/

theorem takeWhile_closed (s rest : Str) (h : Closed rest) :
    (s ++ rest).takeWhile isDigit = s.takeWhile isDigit ∧
    (s ++ rest).dropWhile isDigit = s.dropWhile isDigit ++ rest := by
  induction s with
  | nil =>
    cases rest with
    | nil => exact ⟨rfl, rfl⟩
    | cons c rest =>
      have hc : isDigit c = false := by
        rcases h c rfl with hc | hc | hc <;> rw [hc] <;> rfl
      simp [hc]
  | cons c s ih =>
    by_cases hc : isDigit c = true
    · simp [hc, ih.1, ih.2]
    · simp [hc]

theorem takeSign_append (s rest : Str) (h : Closed rest) :
    takeSign (s ++ rest) = ((takeSign s).1, (takeSign s).2 ++ rest) := by
  cases s with
  | nil =>
    cases rest with
    | nil => rfl
    | cons c rest => rcases h c rfl with rfl | rfl | rfl <;> rfl
  | cons c s =>
    by_cases hc : c = 45
    · rw [hc]
      rfl
    · simp [takeSign, hc]

theorem takeWhole_append (s rest : Str) (h : Closed rest) :
    takeWhole (s ++ rest) = ((takeWhole s).1, (takeWhole s).2 ++ rest) := by
  have hdigits := takeWhile_closed s rest h
  cases s with
  | nil =>
    cases rest with
    | nil => rfl
    | cons c rest => rcases h c rfl with rfl | rfl | rfl <;> rfl
  | cons c s =>
    by_cases hc : c = 48
    · rw [hc]
      rfl
    · have hother : ∀ t : Str, takeWhole (c :: t) = ((c :: t).takeWhile isDigit, (c :: t).dropWhile isDigit) := by
        intro t
        simp [takeWhole, hc]
      rw [List.cons_append, hother, hother, ← List.cons_append, hdigits.1, hdigits.2]

theorem takeFraction_append (s rest : Str) (h : Closed rest) :
    takeFraction (s ++ rest) = ((takeFraction s).1, (takeFraction s).2 ++ rest) := by
  cases s with
  | nil =>
    cases rest with
    | nil => rfl
    | cons c rest => rcases h c rfl with rfl | rfl | rfl <;> rfl
  | cons c s =>
    obtain ⟨htake, hdrop⟩ := takeWhile_closed s rest h
    by_cases hc : c = 46
    · rw [hc]
      simp only [List.cons_append, takeFraction, htake, hdrop]
      split <;> rfl
    · simp [takeFraction, hc]

theorem takeExponentSign_append (s rest : Str) (h : Closed rest) :
    takeExponentSign (s ++ rest) = ((takeExponentSign s).1, (takeExponentSign s).2 ++ rest) := by
  cases s with
  | nil =>
    cases rest with
    | nil => rfl
    | cons c rest => rcases h c rfl with rfl | rfl | rfl <;> rfl
  | cons c s =>
    simp only [List.cons_append, takeExponentSign]
    split <;> rfl

theorem takeExponent_append (s rest : Str) (h : Closed rest) :
    takeExponent (s ++ rest) = ((takeExponent s).1, (takeExponent s).2 ++ rest) := by
  cases s with
  | nil =>
    cases rest with
    | nil => rfl
    | cons c rest => rcases h c rfl with rfl | rfl | rfl <;> rfl
  | cons c s =>
    obtain ⟨htake, hdrop⟩ := takeWhile_closed (takeExponentSign s).2 rest h
    simp only [List.cons_append, takeExponent, takeExponentSign_append s rest h, htake, hdrop]
    split <;> rfl

theorem matchNumber_append (s rest : Str) (h : Closed rest) (t : NumberToken)
    (ht : matchNumber s = some t) : matchNumber (s ++ rest) = some { t with rest := t.rest ++ rest } := by
  unfold matchNumber at ht ⊢
  simp only [takeSign_append s rest h, takeWhole_append _ rest h, takeFraction_append _ rest h,
    takeExponent_append _ rest h]
  simp only at ht
  split at ht
  · cases ht
  · next hne =>
    rw [if_neg hne]
    cases ht
    rfl

theorem scanNumber_token (s : Str) (t : NumberToken) (f : FloatText) (h : matchNumber s = some t)
    (hfloat : t.isFloat = true) (htext : t.text = f.text) : scanNumber s = some (.float f, t.rest) := by
  have hshape : floatShape t.text = true := by rw [htext]; exact f.shape
  have hf : (⟨t.text, hshape⟩ : FloatText) = f := by
    cases f
    simp only [htext]
  simp only [scanNumber, h, hfloat, if_true, dif_pos hshape, hf]

theorem scanNumber_float (f : FloatText) (rest : Str) (h : Closed rest) :
    scanNumber (f.text ++ rest) = some (.float f, rest) := by
  have hshape := f.shape
  unfold floatShape at hshape
  split at hshape
  · next t ht =>
    simp only [Bool.and_eq_true, List.isEmpty_iff, beq_iff_eq] at hshape
    obtain ⟨⟨hfloat, hrest⟩, htext⟩ := hshape
    have hmatch := matchNumber_append f.text rest h t ht
    rw [hrest, List.nil_append] at hmatch
    exact scanNumber_token _ _ f hmatch hfloat htext
  · cases hshape

theorem isDigit_decimal (n : ℕ) : ∀ c ∈ decimal n, isDigit c = true := by
  intro c hc
  obtain ⟨d, hd, rfl⟩ := List.mem_map.mp hc
  have hdigit := Nat.isDigit_of_mem_toDigits (by decide) (by decide) hd
  simp only [Char.isDigit, Bool.and_eq_true, decide_eq_true_eq] at hdigit
  simp only [isDigit, Bool.and_eq_true, decide_eq_true_eq]
  exact ⟨hdigit.1, hdigit.2⟩

theorem readDecimal_decimal (n : ℕ) : readDecimal (decimal n) = n := by
  have h := Nat.ofDigitChars_ten_toDigits (n := n)
  rw [Nat.ofDigitChars_eq_foldl] at h
  unfold readDecimal decimal
  rw [List.foldl_map]
  exact h

/- Only zero is printed with a leading zero. -/
theorem decimal_head (n : ℕ) : decimal n = [48] ∨ ∃ c s, decimal n = c :: s ∧ c ≠ 48 := by
  induction n using Nat.strong_induction_on with
  | _ n ih =>
    unfold decimal at ih ⊢
    rw [Nat.toDigits_eq_if (by decide)]
    split
    · next hlt =>
      have hdigit : ∀ m < 10, Nat.digitChar m = '0' ∨ (Nat.digitChar m).toNat ≠ 48 := by decide
      rcases hdigit n hlt with hzero | hother
      · exact Or.inl (by rw [hzero]; rfl)
      · exact Or.inr ⟨_, _, rfl, hother⟩
    · next hge =>
      rcases ih (n / 10) (by omega) with hzero | ⟨c, s, hs, hc⟩
      · -- the leading digits are not those of zero
        have hpos : n / 10 = 0 := by
          rw [← readDecimal_decimal (n / 10), decimal, hzero]
          rfl
        omega
      · refine Or.inr ⟨c, s ++ [(Nat.digitChar (n % 10)).toNat], ?_, hc⟩
        rw [List.map_append, hs]
        rfl

theorem takeWhole_decimal (n : ℕ) (rest : Str) (h : Closed rest) :
    takeWhole (decimal n ++ rest) = (decimal n, rest) := by
  have hdigits := isDigit_decimal n
  have hwhole : takeWhole (decimal n) = (decimal n, []) := by
    rcases decimal_head n with hzero | ⟨c, s, hs, hc⟩
    · rw [hzero]
      rfl
    · rw [hs] at hdigits ⊢
      have hother : takeWhole (c :: s) = ((c :: s).takeWhile isDigit, (c :: s).dropWhile isDigit) := by
        simp [takeWhole, hc]
      rw [hother, List.takeWhile_eq_self_iff.mpr hdigits, List.dropWhile_eq_nil_iff.mpr hdigits]
  rw [takeWhole_append _ _ h, hwhole, List.nil_append]

theorem takeFraction_closed (rest : Str) (h : Closed rest) : takeFraction rest = ([], rest) := by
  have happend := takeFraction_append [] rest h
  rw [List.nil_append] at happend
  exact happend

theorem takeExponent_closed (rest : Str) (h : Closed rest) : takeExponent rest = ([], rest) := by
  have happend := takeExponent_append [] rest h
  rw [List.nil_append] at happend
  exact happend

theorem decimal_ne_nil (n : ℕ) : decimal n ≠ [] := by
  unfold decimal
  simp

theorem matchNumber_int (z : ℤ) (rest : Str) (h : Closed rest) :
    matchNumber (intText z ++ rest) =
      some ⟨if z < 0 then [45] else [], decimal z.natAbs, [], [], rest⟩ := by
  have hsign : takeSign (intText z ++ rest) = (if z < 0 then [45] else [], decimal z.natAbs ++ rest) := by
    unfold intText
    split
    · rfl
    · -- a digit is no sign
      cases hd : decimal z.natAbs with
      | nil => exact absurd hd (decimal_ne_nil _)
      | cons c s =>
        have hc := isDigit_decimal z.natAbs c (by rw [hd]; simp)
        have hne : c ≠ 45 := by
          intro hc'
          rw [hc'] at hc
          cases hc
        simp [takeSign, hne]
  simp only [matchNumber, hsign, takeWhole_decimal _ _ h, takeFraction_closed _ h,
    takeExponent_closed _ h, if_neg (decimal_ne_nil _)]

theorem scanNumber_int (z : ℤ) (rest : Str) (h : Closed rest)
    (hlimit : (decimal z.natAbs).length ≤ digitLimit) :
    scanNumber (intText z ++ rest) = some (.int z, rest) := by
  unfold scanNumber
  rw [matchNumber_int z rest h]
  have hfloat : (⟨if z < 0 then [45] else [], decimal z.natAbs, [], [], rest⟩ : NumberToken).isFloat
      = false := rfl
  simp only [hfloat, if_neg (Nat.not_lt.mpr hlimit), readDecimal_decimal]
  by_cases hz : z < 0
  · simp only [if_pos hz]
    have hneg : -(z.natAbs : ℤ) = z := by omega
    rw [hneg]
    simp
  · simp only [if_neg hz]
    have hpos : (z.natAbs : ℤ) = z := by omega
    rw [hpos]
    simp

/-! ## Strings -/

/-- The code points of a string; ASCII output holds no pair of surrogates. -/
structure Spelled (ascii : Bool) (s : Str) : Prop where
  codePoint : ∀ c ∈ s, c < 0x110000
  unpaired : ascii = true → s.IsChain fun c d => ¬ (isHigh c = true ∧ isLow d = true)

/-- How the reader takes a letter apart. -/
def units (ascii : Bool) (c : ℕ) : List (ℕ × Bool) :=
  match shortEscape c with
  | some _ => [(c, false)]
  | none =>
    if c < 32 then [(c, true)]
    else if !ascii || c < 127 then [(c, false)]
    else if c < 0x10000 then [(c, true)]
    else [(highSurrogate c, true), (lowSurrogate c, true)]

theorem hexValue_hexDigit (n : ℕ) (h : n < 16) : hexValue (hexDigit n) = some n := by
  have hall : ∀ m < 16, hexValue (hexDigit m) = some m := by decide
  exact hall n h

theorem hex4_digits (n : ℕ) (h : n < 0x10000) :
    hex4 (hexDigit (n / 4096 % 16)) (hexDigit (n / 256 % 16)) (hexDigit (n / 16 % 16))
      (hexDigit (n % 16)) = some n := by
  simp only [hex4, hexValue_hexDigit _ (Nat.mod_lt _ (by decide : 16 > 0)), Option.some.injEq]
  omega

theorem scanUnits_quote (s : Str) : scanUnits (34 :: s) = some ([], s) := by
  rw [scanUnits.eq_def]
  simp

theorem scanUnits_plain (c : ℕ) (s : Str) (hquote : c ≠ 34) (hslash : c ≠ 92) (hcontrol : ¬ c < 32) :
    scanUnits (c :: s) = (scanUnits s).map fun r => ((c, false) :: r.1, r.2) := by
  rw [scanUnits.eq_def]
  simp [hquote, hslash, hcontrol]

theorem scanUnits_short (e u : ℕ) (s : Str) (hne : e ≠ 117) (h : unescape e = some u) :
    scanUnits (92 :: e :: s) = (scanUnits s).map fun r => ((u, false) :: r.1, r.2) := by
  rw [scanUnits.eq_def]
  simp [hne, h]

theorem scanUnits_unicode (a b c d u : ℕ) (s : Str) (h : hex4 a b c d = some u) :
    scanUnits (92 :: 117 :: a :: b :: c :: d :: s) =
      (scanUnits s).map fun r => ((u, true) :: r.1, r.2) := by
  rw [scanUnits.eq_def]
  simp [h]

theorem scanUnits_unicodeEscape (n : ℕ) (h : n < 0x10000) (s : Str) :
    scanUnits (unicodeEscape n ++ s) = (scanUnits s).map fun r => ((n, true) :: r.1, r.2) := by
  simp only [unicodeEscape, List.cons_append, List.nil_append]
  exact scanUnits_unicode _ _ _ _ n s (hex4_digits n h)

theorem unescape_shortEscape (c e : ℕ) (h : shortEscape c = some e) :
    unescape e = some c ∧ e ≠ 117 := by
  unfold shortEscape at h
  split at h
  · next hc => cases h; rw [hc]; decide
  split at h
  · next hc => cases h; rw [hc]; decide
  split at h
  · next hc => cases h; rw [hc]; decide
  split at h
  · next hc => cases h; rw [hc]; decide
  split at h
  · next hc => cases h; rw [hc]; decide
  split at h
  · next hc => cases h; rw [hc]; decide
  split at h
  · next hc => cases h; rw [hc]; decide
  cases h

theorem shortEscape_none (c : ℕ) (h : shortEscape c = none) : c ≠ 34 ∧ c ≠ 92 := by
  constructor
  · intro hc
    rw [hc] at h
    cases h
  · intro hc
    rw [hc] at h
    cases h

theorem surrogate_bounds (c : ℕ) (h : c < 0x110000) (hc : ¬ c < 0x10000) :
    isHigh (highSurrogate c) = true ∧ isLow (lowSurrogate c) = true ∧
    highSurrogate c < 0x10000 ∧ lowSurrogate c < 0x10000 ∧
    0x10000 + (highSurrogate c - 0xD800) * 0x400 + (lowSurrogate c - 0xDC00) = c := by
  unfold isHigh isLow highSurrogate lowSurrogate
  simp only [Bool.and_eq_true, decide_eq_true_eq]
  omega

theorem scanUnits_escape (ascii : Bool) (c : ℕ) (h : c < 0x110000) (s : Str) :
    scanUnits (escape ascii c ++ s) = (scanUnits s).map fun r => (units ascii c ++ r.1, r.2) := by
  unfold escape units
  cases hshort : shortEscape c with
  | some e =>
    obtain ⟨hback, hne⟩ := unescape_shortEscape c e hshort
    exact scanUnits_short e c s hne hback
  | none =>
    obtain ⟨hquote, hslash⟩ := shortEscape_none c hshort
    simp only
    by_cases hcontrol : c < 32
    · simp only [if_pos hcontrol]
      exact scanUnits_unicodeEscape c (by omega) s
    · simp only [if_neg hcontrol]
      by_cases hplain : (!ascii || decide (c < 127)) = true
      · simp only [if_pos hplain]
        exact scanUnits_plain c s hquote hslash hcontrol
      · simp only [if_neg hplain]
        by_cases hbmp : c < 0x10000
        · simp only [if_pos hbmp]
          exact scanUnits_unicodeEscape c hbmp s
        · obtain ⟨-, -, hhi, hlo, -⟩ := surrogate_bounds c h hbmp
          simp only [if_neg hbmp]
          rw [List.append_assoc, scanUnits_unicodeEscape _ hhi, scanUnits_unicodeEscape _ hlo,
            Option.map_map]
          rfl

theorem scanUnits_string (ascii : Bool) (s rest : Str) (h : ∀ c ∈ s, c < 0x110000) :
    scanUnits (s.flatMap (escape ascii) ++ 34 :: rest) = some (s.flatMap (units ascii), rest) := by
  induction s with
  | nil => exact scanUnits_quote rest
  | cons c s ih =>
    rw [List.forall_mem_cons] at h
    rw [List.flatMap_cons, List.append_assoc, scanUnits_escape ascii c h.1, ih h.2]
    rfl

/- The first of the units of a letter: a low surrogate only if the letter is one. -/
theorem units_head (ascii : Bool) (c : ℕ) (h : c < 0x110000) :
    ∃ u us, units ascii c = u :: us ∧ (isLow u.1 = true → u.1 = c) ∧ (u.2 = true → ascii = true ∨ c < 32) := by
  unfold units
  cases shortEscape c with
  | some e => exact ⟨_, _, rfl, fun _ => rfl, fun h => by cases h⟩
  | none =>
    simp only
    by_cases hcontrol : c < 32
    · rw [if_pos hcontrol]
      exact ⟨_, _, rfl, fun _ => rfl, fun _ => Or.inr hcontrol⟩
    rw [if_neg hcontrol]
    by_cases hplain : (!ascii || decide (c < 127)) = true
    · rw [if_pos hplain]
      exact ⟨_, _, rfl, fun _ => rfl, fun h => by cases h⟩
    rw [if_neg hplain]
    have hascii : ascii = true := by
      cases ascii with
      | true => rfl
      | false => exact absurd rfl hplain
    by_cases hbmp : c < 0x10000
    · rw [if_pos hbmp]
      exact ⟨_, _, rfl, fun _ => rfl, fun _ => Or.inl hascii⟩
    · rw [if_neg hbmp]
      obtain ⟨hhigh, -⟩ := surrogate_bounds c h hbmp
      refine ⟨_, _, rfl, fun hlow => ?_, fun _ => Or.inl hascii⟩
      simp only [isHigh, isLow, Bool.and_eq_true, decide_eq_true_eq] at hhigh hlow
      omega

theorem joinUnits_cons (c : ℕ) (e : Bool) (us : List (ℕ × Bool))
    (h : ∀ u, us.head? = some u → ¬ (e = true ∧ u.2 = true ∧ isHigh c = true ∧ isLow u.1 = true)) :
    joinUnits ((c, e) :: us) = c :: joinUnits us := by
  cases us with
  | nil => rfl
  | cons u us =>
    have hu := h u rfl
    rw [joinUnits, if_neg]
    intro hcond
    simp only [Bool.and_eq_true] at hcond
    exact hu ⟨hcond.1.1.1, hcond.1.1.2, hcond.1.2, hcond.2⟩

theorem joinUnits_units (ascii : Bool) (c : ℕ) (s : Str) (h : Spelled ascii (c :: s)) :
    joinUnits (units ascii c ++ s.flatMap (units ascii)) = c :: joinUnits (s.flatMap (units ascii)) := by
  have hcode := h.codePoint c (by simp)
  -- what follows a high surrogate is not spelled as a low one
  have hnext : ∀ e : Bool, (e = true → ascii = true ∨ c < 32) → ∀ u, (s.flatMap (units ascii)).head? = some u →
      ¬ (e = true ∧ u.2 = true ∧ isHigh c = true ∧ isLow u.1 = true) := by
    rintro e he u hu ⟨hetrue, -, hhigh, hlow⟩
    cases s with
    | nil => cases hu
    | cons d s =>
      obtain ⟨u', us, hunits, hsame, -⟩ := units_head ascii d (h.codePoint d (by simp))
      rw [List.flatMap_cons, hunits] at hu
      cases hu
      rw [hsame hlow] at hlow
      rcases he hetrue with hascii | hcontrol
      · have hchain := h.unpaired hascii
        rw [List.isChain_cons_cons] at hchain
        exact hchain.1 ⟨hhigh, hlow⟩
      · simp only [isHigh, Bool.and_eq_true, decide_eq_true_eq] at hhigh
        omega
  unfold units
  cases hshort : shortEscape c with
  | some e => exact joinUnits_cons c false _ (hnext false (by simp))
  | none =>
    simp only
    by_cases hcontrol : c < 32
    · rw [if_pos hcontrol]
      exact joinUnits_cons c true _ (hnext true fun _ => Or.inr hcontrol)
    rw [if_neg hcontrol]
    by_cases hplain : (!ascii || decide (c < 127)) = true
    · rw [if_pos hplain]
      exact joinUnits_cons c false _ (hnext false (by simp))
    rw [if_neg hplain]
    have hascii : ascii = true := by
      cases ascii with
      | true => rfl
      | false => exact absurd rfl hplain
    by_cases hbmp : c < 0x10000
    · rw [if_pos hbmp]
      exact joinUnits_cons c true _ (hnext true fun _ => Or.inl hascii)
    · rw [if_neg hbmp]
      obtain ⟨hhigh, hlow, -, -, hback⟩ := surrogate_bounds c hcode hbmp
      simp only [List.cons_append, List.nil_append]
      rw [joinUnits, if_pos (by rw [hhigh, hlow]; rfl), hback]

theorem scanString_string (ascii : Bool) (s rest : Str) (h : Spelled ascii s) :
    scanString (s.flatMap (escape ascii) ++ 34 :: rest) = some (s, rest) := by
  have hjoin : joinUnits (s.flatMap (units ascii)) = s := by
    induction s with
    | nil => rfl
    | cons c s ih =>
      rw [List.flatMap_cons, joinUnits_units ascii c s h]
      congr 1
      apply ih
      refine ⟨fun d hd => h.codePoint d (List.mem_cons_of_mem c hd), fun hascii => ?_⟩
      exact (h.unpaired hascii).tail
  rw [scanString, scanUnits_string ascii s rest h.codePoint, Option.map_some, hjoin]

/-! ## Values -/

def spelled (ascii : Bool) : Json → Prop
  | .str s => Spelled ascii s
  | .obj ms => ∀ k ∈ ms.map Prod.fst, Spelled ascii k
  | _ => True

/-- What a value needs to be read back as it is. -/
structure Readable (ascii : Bool) (v : Json) : Prop where
  unique : uniqueKeys v
  digits : printable v = true
  spelled : spelled ascii v

def Reads (ascii : Bool) (v : Json) : Prop :=
  ∀ n rest, (render ascii v).length ≤ n → Closed rest →
    scanValue n (render ascii v ++ rest) = some (v, rest)

/-- A letter that starts a value: no blank, no closing bracket. -/
def Opens (c : ℕ) : Prop := c = 34 ∨ c = 91 ∨ c = 123 ∨ c = 45 ∨ c = 110 ∨ c = 116 ∨ c = 102 ∨ isDigit c = true

theorem opens_facts {c : ℕ} (h : Opens c) :
    (c == 32 || c == 9 || c == 10 || c == 13) = false ∧ c ≠ 93 ∧ c ≠ 125 := by
  unfold Opens at h
  simp only [isDigit, Bool.and_eq_true, decide_eq_true_eq] at h
  simp only [Bool.or_eq_false_iff, beq_eq_false_iff_ne]
  omega

theorem skip_cons (c : ℕ) (s : Str) (h : (c == 32 || c == 9 || c == 10 || c == 13) = false) :
    skip (c :: s) = c :: s := by
  simp [skip, h]

theorem matchNumber_head (s : Str) (t : NumberToken) (h : matchNumber s = some t) :
    ∃ c r, s = c :: r ∧ (c = 45 ∨ isDigit c = true) := by
  cases s with
  | nil => cases h
  | cons c r =>
    refine ⟨c, r, rfl, ?_⟩
    by_cases hminus : c = 45
    · exact Or.inl hminus
    · by_cases hdigit : isDigit c = true
      · exact Or.inr hdigit
      · -- nothing of the text is a digit
        have hzero : c ≠ 48 := by
          intro hc
          rw [hc] at hdigit
          exact hdigit rfl
        have hnone : matchNumber (c :: r) = none := by
          simp [matchNumber, takeSign, takeWhole, hminus, hzero, hdigit]
        rw [hnone] at h
        cases h

theorem intText_head (z : ℤ) : ∃ c r, intText z = c :: r ∧ (c = 45 ∨ isDigit c = true) := by
  have hmatch := matchNumber_int z [] closed_nil
  rw [List.append_nil] at hmatch
  exact matchNumber_head _ _ hmatch

theorem floatText_head (f : FloatText) : ∃ c r, f.text = c :: r ∧ (c = 45 ∨ isDigit c = true) := by
  have hshape := f.shape
  unfold floatShape at hshape
  split at hshape
  · next t ht => exact matchNumber_head _ t ht
  · cases hshape

theorem render_head (ascii : Bool) (v : Json) : ∃ c s, render ascii v = c :: s ∧ Opens c := by
  have hnumber : ∀ c, (c = 45 ∨ isDigit c = true) → Opens c := by
    unfold Opens
    rintro c (hc | hc)
    · simp [hc]
    · simp [hc]
  cases v with
  | null => exact ⟨110, [117, 108, 108], rfl, by simp [Opens]⟩
  | bool b =>
    cases b with
    | true => exact ⟨116, [114, 117, 101], rfl, by simp [Opens]⟩
    | false => exact ⟨102, [97, 108, 115, 101], rfl, by simp [Opens]⟩
  | int z =>
    obtain ⟨c, r, hr, hc⟩ := intText_head z
    exact ⟨c, r, by rw [render, hr], hnumber c hc⟩
  | float f =>
    obtain ⟨c, r, hr, hc⟩ := floatText_head f
    exact ⟨c, r, by rw [render, hr], hnumber c hc⟩
  | str s => exact ⟨_, _, by rw [render, stringText], by simp [Opens]⟩
  | arr vs => cases vs <;> exact ⟨_, _, by rw [render], by simp [Opens]⟩
  | obj ms =>
    cases ms with
    | nil => exact ⟨_, _, by rw [render], by simp [Opens]⟩
    | cons p ms =>
      obtain ⟨k, v⟩ := p
      exact ⟨_, _, by rw [render], by simp [Opens]⟩

theorem skip_render (ascii : Bool) (v : Json) (rest : Str) :
    skip (render ascii v ++ rest) = render ascii v ++ rest := by
  obtain ⟨c, s, hs, hc⟩ := render_head ascii v
  rw [hs, List.cons_append, skip_cons c _ (opens_facts hc).1]

theorem expect_other (a c : ℕ) (s : Str) (h : c ≠ a) : expect [a] (c :: s) = none := by
  have hne : (a == c) = false := by
    rw [beq_eq_false_iff_ne]
    exact Ne.symm h
  simp [expect, List.isPrefixOf, hne]

theorem expect_self (a : ℕ) (s : Str) : expect [a] (a :: s) = some s := by
  simp [expect, List.isPrefixOf]

theorem scanLiteral_number (c : ℕ) (s : Str) (h : c = 45 ∨ isDigit c = true) :
    scanLiteral (c :: s) = scanNumber (c :: s) := by
  have hne : c ≠ 110 ∧ c ≠ 116 ∧ c ≠ 102 := by
    simp only [isDigit, Bool.and_eq_true, decide_eq_true_eq] at h
    omega
  have hother : ∀ (a : ℕ) (word : Str), c ≠ a → expect (a :: word) (c :: s) = none := by
    intro a word hc
    have hca : (a == c) = false := by
      rw [beq_eq_false_iff_ne]
      exact Ne.symm hc
    simp [expect, List.isPrefixOf, hca]
  have hnull : expect (codes "null") (c :: s) = none := hother _ _ hne.1
  have htrue : expect (codes "true") (c :: s) = none := hother _ _ hne.2.1
  have hfalse : expect (codes "false") (c :: s) = none := hother _ _ hne.2.2
  simp only [scanLiteral, hnull, htrue, hfalse]

/- A number or a word is read by `scanLiteral`. -/
theorem scanValue_literal (n : ℕ) (c : ℕ) (s : Str) (hquote : c ≠ 34) (harr : c ≠ 91) (hobj : c ≠ 123) :
    scanValue (n + 1) (c :: s) = scanLiteral (c :: s) := by
  rw [scanValue, if_neg hquote, if_neg harr, if_neg hobj]

theorem reads_number (ascii : Bool) (v : Json) (text : Str) (htext : render ascii v = text)
    (hhead : ∃ c r, text = c :: r ∧ (c = 45 ∨ isDigit c = true))
    (hscan : ∀ rest, Closed rest → scanNumber (text ++ rest) = some (v, rest)) : Reads ascii v := by
  intro n rest hn hrest
  obtain ⟨c, r, hr, hc⟩ := hhead
  have hother : c ≠ 34 ∧ c ≠ 91 ∧ c ≠ 123 := by
    simp only [isDigit, Bool.and_eq_true, decide_eq_true_eq] at hc
    omega
  have hresult := hscan rest hrest
  rw [htext] at hn ⊢
  rw [hr] at hn hresult ⊢
  cases n with
  | zero => simp at hn
  | succ n =>
    rw [List.cons_append] at hresult ⊢
    rw [scanValue_literal n c _ hother.1 hother.2.1 hother.2.2, scanLiteral_number c _ hc]
    exact hresult

theorem reads_word (ascii : Bool) (v : Json) (c : ℕ) (word : Str) (htext : render ascii v = c :: word)
    (hother : c ≠ 34 ∧ c ≠ 91 ∧ c ≠ 123)
    (hscan : ∀ rest, scanLiteral (c :: word ++ rest) = some (v, rest)) : Reads ascii v := by
  intro n rest hn _
  rw [htext] at hn ⊢
  cases n with
  | zero => simp at hn
  | succ n =>
    rw [List.cons_append, scanValue_literal n c _ hother.1 hother.2.1 hother.2.2]
    exact hscan rest

theorem closed_items (ascii : Bool) (vs : List Json) (rest : Str) : Closed (renderItems ascii vs ++ rest) := by
  cases vs with
  | nil => exact closed_cons _ (by simp)
  | cons v vs => exact closed_cons _ (by simp)

theorem closed_members (ascii : Bool) (ms : List (Str × Json)) (rest : Str) :
    Closed (renderMembers ascii ms ++ rest) := by
  cases ms with
  | nil => exact closed_cons _ (by simp)
  | cons p ms => exact closed_cons _ (by simp)

theorem length_items_pos (ascii : Bool) (vs : List Json) : 0 < (renderItems ascii vs).length := by
  cases vs <;> simp [renderItems]

theorem length_members_pos (ascii : Bool) (ms : List (Str × Json)) :
    0 < (renderMembers ascii ms).length := by
  cases ms <;> simp [renderMembers]

theorem scanItems_render (ascii : Bool) (vs : List Json) (rest : Str) : ∀ (v : Json) (n : ℕ),
    (∀ w ∈ v :: vs, Reads ascii w) → (render ascii v ++ renderItems ascii vs).length ≤ n →
    scanItems n (render ascii v ++ (renderItems ascii vs ++ rest)) = some (v :: vs, rest) := by
  induction vs with
  | nil =>
    intro v n hreads hn
    have hpos := length_items_pos ascii []
    rw [List.length_append] at hn
    cases n with
    | zero => omega
    | succ n =>
      have hv := hreads v (by simp) n (renderItems ascii [] ++ rest) (by omega) (closed_items ascii [] rest)
      have hclose : skip (renderItems ascii [] ++ rest) = 93 :: rest := skip_cons 93 rest rfl
      simp only [scanItems, hv, hclose, if_true]
  | cons w vs ih =>
    intro v n hreads hn
    have hlen : (renderItems ascii (w :: vs)).length = (render ascii w ++ renderItems ascii vs).length + 1 := by
      rw [renderItems, List.length_cons]
    rw [List.length_append] at hn
    cases n with
    | zero => omega
    | succ n =>
      have hv := hreads v (by simp) n (renderItems ascii (w :: vs) ++ rest) (by omega)
        (closed_items ascii (w :: vs) rest)
      have hnext : skip (renderItems ascii (w :: vs) ++ rest) =
          44 :: (render ascii w ++ (renderItems ascii vs ++ rest)) := by
        rw [renderItems, List.cons_append, List.append_assoc]
        exact skip_cons 44 _ rfl
      have hrest := ih w n (fun x hx => hreads x (List.mem_cons_of_mem v hx)) (by omega)
      simp only [scanItems, hv, hnext, if_true, skip_render, hrest, Option.map_some]
      rfl

theorem expect_string (ascii : Bool) (k rest : Str) :
    expect [34] (stringText ascii k ++ rest) = some (k.flatMap (escape ascii) ++ 34 :: rest) := by
  rw [stringText, List.cons_append, expect_self, List.append_assoc, List.singleton_append]

theorem scanMembers_render (ascii : Bool) (ms : List (Str × Json)) (rest : Str) :
    ∀ (k : Str) (v : Json) (n : ℕ), (∀ p ∈ (k, v) :: ms, Spelled ascii p.1 ∧ Reads ascii p.2) →
    (stringText ascii k ++ 58 :: (render ascii v ++ renderMembers ascii ms)).length ≤ n →
    scanMembers n (stringText ascii k ++ 58 :: (render ascii v ++ (renderMembers ascii ms ++ rest))) =
      some ((k, v) :: ms, rest) := by
  have hmember : ∀ (k : Str) (v : Json) (n : ℕ) (more : Str), Spelled ascii k → Reads ascii v →
      (render ascii v).length ≤ n → Closed more →
      ∃ s₁ s₂ s₃, expect [34] (stringText ascii k ++ 58 :: (render ascii v ++ more)) = some s₁ ∧
        scanString s₁ = some (k, s₂) ∧ expect [58] (skip s₂) = some s₃ ∧
        scanValue n (skip s₃) = some (v, more) := by
    intro k v n more hk hv hn hmore
    refine ⟨_, _, render ascii v ++ more, expect_string ascii k _, scanString_string ascii k _ hk, ?_, ?_⟩
    · rw [skip_cons 58 _ rfl, expect_self]
    · rw [skip_render]
      exact hv n more hn hmore
  induction ms with
  | nil =>
    intro k v n hall hn
    have hpos := length_members_pos ascii []
    rw [List.length_append, List.length_cons, List.length_append] at hn
    cases n with
    | zero => omega
    | succ n =>
      obtain ⟨hk, hv⟩ := hall (k, v) (by simp)
      obtain ⟨s₁, s₂, s₃, h₁, h₂, h₃, h₄⟩ := hmember k v n (renderMembers ascii [] ++ rest) hk hv
        (by omega) (closed_members ascii [] rest)
      have hclose : skip (renderMembers ascii [] ++ rest) = 125 :: rest := skip_cons 125 rest rfl
      simp only [scanMembers, h₁, h₂, h₃, h₄, hclose, if_true]
  | cons p ms ih =>
    obtain ⟨k', v'⟩ := p
    intro k v n hall hn
    have hlen : (renderMembers ascii ((k', v') :: ms)).length =
        (stringText ascii k' ++ 58 :: (render ascii v' ++ renderMembers ascii ms)).length + 1 := by
      rw [renderMembers, List.length_cons]
    rw [List.length_append, List.length_cons, List.length_append] at hn
    cases n with
    | zero => omega
    | succ n =>
      obtain ⟨hk, hv⟩ := hall (k, v) (by simp)
      obtain ⟨s₁, s₂, s₃, h₁, h₂, h₃, h₄⟩ := hmember k v n
        (renderMembers ascii ((k', v') :: ms) ++ rest) hk hv (by omega)
        (closed_members ascii ((k', v') :: ms) rest)
      have hnext : skip (renderMembers ascii ((k', v') :: ms) ++ rest) =
          44 :: (stringText ascii k' ++ 58 :: (render ascii v' ++ (renderMembers ascii ms ++ rest))) := by
        rw [renderMembers, List.cons_append, List.append_assoc, List.cons_append, List.append_assoc]
        exact skip_cons 44 _ rfl
      have hskip : ∀ more : Str, skip (stringText ascii k' ++ more) = stringText ascii k' ++ more := by
        intro more
        rw [stringText, List.cons_append, skip_cons 34 _ rfl]
      have hrest := ih k' v' n (fun x hx => hall x (List.mem_cons_of_mem _ hx)) (by omega)
      simp only [scanMembers, h₁, h₂, h₃, h₄, hnext, hskip, hrest, Option.map_some]
      rfl

/-- A printed value is read back, up to the end of its text. -/
theorem reads_render (ascii : Bool) (v : Json) : All (Readable ascii) v → Reads ascii v := by
  induction v using induct with
  | null =>
    intro _
    exact reads_word ascii _ 110 [117, 108, 108] rfl (by decide) fun _ => rfl
  | bool b =>
    intro _
    cases b with
    | true => exact reads_word ascii _ 116 [114, 117, 101] rfl (by decide) fun _ => rfl
    | false => exact reads_word ascii _ 102 [97, 108, 115, 101] rfl (by decide) fun _ => rfl
  | int z =>
    intro h
    exact reads_number ascii _ (intText z) (by rw [render]) (intText_head z)
      fun rest hrest => scanNumber_int z rest hrest (decide_eq_true_eq.mp h.self.digits)
  | float f =>
    intro _
    exact reads_number ascii _ f.text (by rw [render]) (floatText_head f)
      fun rest hrest => scanNumber_float f rest hrest
  | str s =>
    intro h n rest hn _
    rw [render] at hn ⊢
    cases n with
    | zero => simp [stringText] at hn
    | succ n =>
      have hscan := scanString_string ascii s rest h.self.spelled
      rw [stringText, List.cons_append, List.append_assoc, List.singleton_append, scanValue, if_pos rfl,
        hscan]
      rfl
  | arr vs ih =>
    intro h n rest hn _
    rw [all_arr] at h
    cases n with
    | zero =>
      obtain ⟨c, s, hs, -⟩ := render_head ascii (.arr vs)
      rw [hs] at hn
      simp at hn
    | succ n =>
      cases vs with
      | nil => rw [render]; rfl
      | cons v vs =>
        have hreads : ∀ w ∈ v :: vs, Reads ascii w := fun w hw => ih w hw (h.2 w hw)
        rw [render, List.length_cons] at hn
        have hitems := scanItems_render ascii vs rest v n hreads (by omega)
        obtain ⟨c, s, hs, hc⟩ := render_head ascii v
        have hopen : expect [93] (render ascii v ++ (renderItems ascii vs ++ rest)) = none := by
          rw [hs, List.cons_append, expect_other 93 c _ (opens_facts hc).2.1]
        rw [render, List.cons_append, List.append_assoc, scanValue, if_neg (by decide), if_pos rfl,
          skip_render, hopen, hitems]
        rfl
  | obj ms ih =>
    intro h n rest hn _
    rw [all_obj] at h
    cases n with
    | zero =>
      obtain ⟨c, s, hs, -⟩ := render_head ascii (.obj ms)
      rw [hs] at hn
      simp at hn
    | succ n =>
      cases ms with
      | nil => rw [render]; rfl
      | cons p ms =>
        obtain ⟨k, v⟩ := p
        have hall : ∀ p ∈ (k, v) :: ms, Spelled ascii p.1 ∧ Reads ascii p.2 := by
          intro p hp
          exact ⟨h.1.spelled p.1 (List.mem_map.mpr ⟨p, hp, rfl⟩), ih p hp (h.2 p hp)⟩
        rw [render, List.length_cons] at hn
        have hmembers := scanMembers_render ascii ms rest k v n hall (by omega)
        have hskip : ∀ more : Str, skip (stringText ascii k ++ more) = stringText ascii k ++ more := by
          intro more
          rw [stringText, List.cons_append, skip_cons 34 _ rfl]
        have hopen : ∀ more : Str, expect [125] (stringText ascii k ++ more) = none := by
          intro more
          rw [stringText, List.cons_append, expect_other 125 34 _ (by decide)]
        have hunique : (((k, v) :: ms).map Prod.fst).Nodup := h.1.unique
        rw [render, List.cons_append, List.append_assoc, List.cons_append, List.append_assoc, scanValue,
          if_neg (by decide), if_neg (by decide), if_pos rfl, hskip, hopen, hmembers]
        simp only [if_pos hunique]

/-- The whole text of a value is read back as the value. -/
theorem loads_render (ascii : Bool) (v : Json) (h : All (Readable ascii) v) :
    loads (render ascii v) = some v := by
  have hreads := reads_render ascii v h (render ascii v).length [] (Nat.le_refl _) closed_nil
  have hskip := skip_render ascii v []
  rw [List.append_nil] at hreads hskip
  unfold loads
  rw [hskip, hreads]
  rfl

/-- Readable values print differently unless they are the same up to the order of keys. -/
theorem render_sortKeys_inj (ascii : Bool) (v w : Json) (hv : All (Readable ascii) v)
    (hw : All (Readable ascii) w) :
    render ascii (sortKeys v) = render ascii (sortKeys w) ↔ Same v w := by
  have hsorted : ∀ u, All (Readable ascii) u → All (Readable ascii) (sortKeys u) := by
    intro u hu
    refine all_sortKeys ?_ ?_ u hu
    · exact fun vs _ => ⟨trivial, rfl, trivial⟩
    · intro ms ns hperm hr
      exact ⟨hperm.nodup_iff.mp hr.unique, rfl, fun k hk => hr.spelled k (hperm.mem_iff.mpr hk)⟩
  have hunique : All uniqueKeys v := all_mono (fun _ hr => hr.unique) v hv
  rw [same_iff_sortKeys v w hunique]
  constructor
  · intro h
    have hback := loads_render ascii _ (hsorted v hv)
    rw [h, loads_render ascii _ (hsorted w hw)] at hback
    exact (Option.some.inj hback).symm
  · intro h
    rw [h]

/-! ## What the reader never yields -/

theorem scanNumber_unique (s rest : Str) (v : Json) (h : scanNumber s = some (v, rest)) :
    All uniqueKeys v := by
  unfold scanNumber at h
  split at h
  · cases h
  · split at h
    · split at h
      · cases h
        trivial
      · cases h
    · split at h
      · cases h
      · cases h
        trivial

theorem scanLiteral_unique (s rest : Str) (v : Json) (h : scanLiteral s = some (v, rest)) :
    All uniqueKeys v := by
  unfold scanLiteral at h
  split at h
  · cases h
    trivial
  · split at h
    · cases h
      trivial
    · split at h
      · cases h
        trivial
      · exact scanNumber_unique s rest v h

/- The three scanners, by the fuel they share. -/
theorem scan_unique (n : ℕ) :
    (∀ s v rest, scanValue n s = some (v, rest) → All uniqueKeys v) ∧
    (∀ s vs rest, scanItems n s = some (vs, rest) → ∀ v ∈ vs, All uniqueKeys v) ∧
    (∀ s ms rest, scanMembers n s = some (ms, rest) → ∀ p ∈ ms, All uniqueKeys p.2) := by
  induction n with
  | zero =>
    refine ⟨fun s v rest h => ?_, fun s vs rest h => ?_, fun s ms rest h => ?_⟩
    · simp [scanValue] at h
    · simp [scanItems] at h
    · simp [scanMembers] at h
  | succ n ih =>
    obtain ⟨hvalue, hitems, hmembers⟩ := ih
    refine ⟨fun s v rest h => ?_, fun s vs rest h => ?_, fun s ms rest h => ?_⟩
    · cases s with
      | nil => simp [scanValue] at h
      | cons c s =>
        simp only [scanValue] at h
        split at h
        · obtain ⟨r, -, h⟩ := Option.map_eq_some_iff.mp h
          cases h
          trivial
        · split at h
          · split at h
            · cases h
              exact ⟨trivial, trivial⟩
            · obtain ⟨r, hr, h⟩ := Option.map_eq_some_iff.mp h
              cases h
              rw [all_arr]
              exact ⟨trivial, hitems _ _ _ hr⟩
          · split at h
            · split at h
              · cases h
                exact ⟨List.nodup_nil, trivial⟩
              · split at h
                · next ms' rest' hm =>
                  split at h
                  · next hu =>
                    cases h
                    rw [all_obj]
                    exact ⟨hu, hmembers _ _ _ hm⟩
                  · cases h
                · cases h
            · exact scanLiteral_unique _ rest v h
    · simp only [scanItems] at h
      split at h
      · cases h
      · next w r hw =>
        have hfirst := hvalue _ _ _ hw
        split at h
        · cases h
        · split at h
          · cases h
            simpa using hfirst
          · split at h
            · obtain ⟨q, hq, h⟩ := Option.map_eq_some_iff.mp h
              cases h
              intro x hx
              rcases List.mem_cons.mp hx with rfl | hx
              · exact hfirst
              · exact hitems _ _ _ hq x hx
            · cases h
    · simp only [scanMembers] at h
      split at h
      · cases h
      · split at h
        · cases h
        · split at h
          · cases h
          · split at h
            · cases h
            · next w r hw =>
              have hfirst := hvalue _ _ _ hw
              split at h
              · cases h
              · split at h
                · cases h
                  simpa using hfirst
                · split at h
                  · obtain ⟨q, hq, h⟩ := Option.map_eq_some_iff.mp h
                    cases h
                    intro x hx
                    rcases List.mem_cons.mp hx with rfl | hx
                    · exact hfirst
                    · exact hmembers _ _ _ hq x hx
                  · cases h

theorem loads_unique (s : Str) (v : Json) (h : loads s = some v) : All uniqueKeys v := by
  unfold loads at h
  split at h
  · next w rest hw =>
    split at h
    · cases h
      exact (scan_unique _).1 _ _ _ hw
    · cases h
  · cases h

end ParallelForge.Base.Json
