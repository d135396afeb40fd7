import ParallelForge.Base.Json
import ParallelForge.Redaction.Patterns

/-!
# Lines of a text

`str.splitlines` ends a line at more letters than the line feed, and takes a
carriage return with a line feed behind it as one end. A text that ends with a
line feed splits off: its lines do not depend on what follows.
-/

namespace ParallelForge.Base

def isLineBreak (c : ℕ) : Bool :=
  (10 ≤ c && c ≤ 13) || (28 ≤ c && c ≤ 30) || c == 0x85 || c == 0x2028 || c == 0x2029

/-- A letter in front of the lines of the rest. -/
def pushLetter (c : ℕ) : List Str → List Str
  | [] => [[c]]
  | line :: lines => (c :: line) :: lines

/-- The lines; behind a carriage return a line feed belongs to it. -/
def linesFrom : Bool → Str → List Str
  | _, [] => []
  | afterReturn, c :: s =>
    if (afterReturn && c == 10) = true then linesFrom false s
    else if isLineBreak c = true then [] :: linesFrom (c == 13) s
    else pushLetter c (linesFrom false s)

/-- `str.splitlines`. -/
def splitlines (s : Str) : List Str := linesFrom false s

/-- `str.strip`. -/
def stripText (s : Str) : Str :=
  ((s.dropWhile Redaction.isSpaceCode).reverse.dropWhile Redaction.isSpaceCode).reverse

/-- `str.rfind`, where it finds something. -/
def lastIndex (w : Str) : Str → Option ℕ
  | [] => if w = [] then some 0 else none
  | c :: s =>
    match lastIndex w s with
    | some k => some (k + 1)
    | none => if w.isPrefixOf (c :: s) then some 0 else none

theorem pushLetter_append (c : ℕ) (ls ms : List Str) (h : ls ≠ []) :
    pushLetter c (ls ++ ms) = pushLetter c ls ++ ms := by
  cases ls with
  | nil => exact absurd rfl h
  | cons l ls => rfl

theorem linesFrom_ne_nil (s : Str) (hs : s ≠ []) : linesFrom false s ≠ [] := by
  cases s with
  | nil => exact absurd rfl hs
  | cons c s =>
    rw [linesFrom, if_neg (by simp)]
    split
    · simp
    · cases linesFrom false s <;> simp [pushLetter]

/- What a line feed ends is not touched by what comes behind it. -/
theorem linesFrom_append (s t : Str) (b : Bool) :
    linesFrom b (s ++ 10 :: t) = linesFrom b (s ++ [10]) ++ linesFrom false t := by
  induction s generalizing b with
  | nil => cases b <;> simp [linesFrom, isLineBreak]
  | cons c s ih =>
    rw [List.cons_append, List.cons_append, linesFrom, linesFrom]
    split
    · exact ih false
    split
    · rw [ih, List.cons_append]
    · rw [ih, pushLetter_append]
      exact linesFrom_ne_nil _ (by simp)

theorem splitlines_append (s t : Str) :
    splitlines (s ++ 10 :: t) = splitlines (s ++ [10]) ++ splitlines t :=
  linesFrom_append s t false

/- A text without line ends is one line. -/
theorem linesFrom_line (l : Str) (hne : l ≠ []) (hl : ∀ c ∈ l, isLineBreak c = false) :
    linesFrom false l = [l] := by
  induction l with
  | nil => exact absurd rfl hne
  | cons c l ih =>
    rw [List.forall_mem_cons] at hl
    rw [linesFrom, if_neg (by simp), if_neg (by rw [hl.1]; simp)]
    cases l with
    | nil => rfl
    | cons d l =>
      rw [ih (by simp) hl.2]
      rfl

theorem splitlines_line (l : Str) (hne : l ≠ []) (hl : ∀ c ∈ l, isLineBreak c = false) :
    splitlines l = [l] :=
  linesFrom_line l hne hl

/- The same with an end behind it. -/
theorem splitlines_ended {l e : Str} (he : splitlines e = [[]]) (hl : ∀ c ∈ l, isLineBreak c = false) :
    splitlines (l ++ e) = [l] := by
  unfold splitlines at he ⊢
  induction l with
  | nil => exact he
  | cons c l ih =>
    rw [List.forall_mem_cons] at hl
    rw [List.cons_append, linesFrom, if_neg (by simp), if_neg (by rw [hl.1]; simp), ih hl.2]
    rfl

theorem splitlines_record (l : Str) (hl : ∀ c ∈ l, isLineBreak c = false) :
    splitlines (l ++ [10]) = [l] :=
  splitlines_ended rfl hl

/- A text that begins and ends with other letters is stripped of nothing. -/
theorem stripText_self (s : Str) (hhead : ∀ c, s.head? = some c → Redaction.isSpaceCode c = false)
    (hlast : ∀ c, s.getLast? = some c → Redaction.isSpaceCode c = false) : stripText s = s := by
  have hdrop : ∀ l : Str, (∀ c, l.head? = some c → Redaction.isSpaceCode c = false) →
      l.dropWhile Redaction.isSpaceCode = l := by
    intro l hl
    cases l with
    | nil => rfl
    | cons c l => rw [List.dropWhile_cons, if_neg (by rw [hl c rfl]; simp)]
  rw [stripText, hdrop s hhead, hdrop s.reverse, List.reverse_reverse]
  intro c hc
  rw [List.head?_reverse] at hc
  exact hlast c hc

/-! ## Searching -/

theorem lastIndex_behind {w back : Str} {k : ℕ} (h : lastIndex w back = some k) (front : Str) :
    lastIndex w (front ++ back) = some (front.length + k) := by
  induction front with
  | nil => rw [List.nil_append, h, List.length_nil, Nat.zero_add]
  | cons c front ih =>
    rw [List.cons_append, lastIndex, ih, List.length_cons]
    simp only [Option.some.injEq]
    omega

theorem lastIndex_eq_none {w s : Str} (hw : w ≠ []) (h : ∀ k < s.length, ¬ w <+: s.drop k) :
    lastIndex w s = none := by
  induction s with
  | nil => rw [lastIndex, if_neg hw]
  | cons c s ih =>
    have hrest : lastIndex w s = none := by
      apply ih
      intro k hk
      exact h (k + 1) (by rw [List.length_cons]; omega)
    have hhead : ¬ w.isPrefixOf (c :: s) = true := by
      rw [List.isPrefixOf_iff_prefix]
      exact h 0 (by simp)
    simp only [lastIndex, hrest, if_neg hhead]

theorem isPrefixOf_feed {w : Str} (hw : 10 ∉ w) (front back : Str) :
    w.isPrefixOf (front ++ 10 :: back) = w.isPrefixOf (front ++ [10]) := by
  induction w generalizing front with
  | nil => simp
  | cons c w ih =>
    rw [List.mem_cons, not_or] at hw
    cases front with
    | nil =>
      have hc : (c == 10) = false := by simpa using Ne.symm hw.1
      simp only [List.nil_append, List.isPrefixOf, hc, Bool.false_and]
    | cons a front => simp only [List.cons_append, List.isPrefixOf, ih hw.2 front]

/- A word without line feeds that is not found behind a line feed is found before it. -/
theorem lastIndex_front {w back : Str} (hne : w ≠ []) (hw : 10 ∉ w) (h : lastIndex w back = none)
    (front : Str) : lastIndex w (front ++ 10 :: back) = lastIndex w (front ++ [10]) := by
  induction front with
  | nil =>
    have hfeed := isPrefixOf_feed hw [] back
    rw [List.nil_append, List.nil_append] at hfeed
    simp only [List.nil_append, lastIndex, h, if_neg hne, hfeed]
  | cons c front ih =>
    rw [List.cons_append, List.cons_append, lastIndex, lastIndex, ih]
    have hsame : w.isPrefixOf (c :: (front ++ 10 :: back)) = w.isPrefixOf (c :: (front ++ [10])) :=
      isPrefixOf_feed hw (c :: front) back
    rw [hsame]

theorem lastIndex_lt {w s : Str} {k : ℕ} (hne : w ≠ []) (h : lastIndex w s = some k) : k < s.length := by
  induction s generalizing k with
  | nil =>
    rw [lastIndex, if_neg hne] at h
    cases h
  | cons c s ih =>
    rw [lastIndex] at h
    split at h
    · next j hj =>
      cases h
      have hlt := ih hj
      rw [List.length_cons]
      omega
    · split at h
      · cases h
        simp
      · cases h

/- The rest of a line. -/
theorem takeWhile_feed {front : Str} (back : Str) {k : ℕ} (hk : k ≤ front.length) :
    ((front ++ 10 :: back).drop k).takeWhile (fun c => c != 10) =
      ((front ++ [10]).drop k).takeWhile fun c => c != 10 := by
  rw [List.drop_append_of_le_length hk, List.drop_append_of_le_length hk]
  induction front.drop k with
  | nil => simp
  | cons c rest ih => rw [List.cons_append, List.cons_append, List.takeWhile_cons, List.takeWhile_cons, ih]

end ParallelForge.Base
