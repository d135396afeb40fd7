import ParallelForge.Base.Lines
import Mathlib.Data.List.DropRight

/-!
# Lines that end at line feeds

A text falls into lines that keep their line feed, and `str.splitlines` works on them one
by one. A plain line is one line for it too: it has no line break but its end, a line feed,
a carriage return, or both.
-/

namespace ParallelForge.Base

/-- The lines of a text, each with its line feed. -/
def feedLines : Str → List Str
  | [] => []
  | c :: s => if c = 10 then [10] :: feedLines s else pushLetter c (feedLines s)

theorem feedLines_feed {l : Str} (hl : 10 ∉ l) (t : Str) :
    feedLines (l ++ 10 :: t) = (l ++ [10]) :: feedLines t := by
  induction l with
  | nil => rw [List.nil_append, feedLines, if_pos rfl, List.nil_append]
  | cons c l ih =>
    rw [List.mem_cons, not_or] at hl
    rw [List.cons_append, feedLines, if_neg (Ne.symm hl.1), ih hl.2]
    rfl

theorem feedLines_last {l : Str} (hne : l ≠ []) (hl : 10 ∉ l) : feedLines l = [l] := by
  induction l with
  | nil => exact absurd rfl hne
  | cons c l ih =>
    rw [List.mem_cons, not_or] at hl
    rw [feedLines, if_neg (Ne.symm hl.1)]
    cases l with
    | nil => rfl
    | cons d l =>
      rw [ih (by simp) hl.2]
      rfl

/-- Induction over the lines of a text. -/
theorem feed_induct {motive : Str → Prop} (nil : motive []) (last : ∀ l, l ≠ [] → 10 ∉ l → motive l)
    (line : ∀ l t, 10 ∉ l → motive t → motive (l ++ 10 :: t)) (s : Str) : motive s := by
  induction hn : s.length using Nat.strong_induction_on generalizing s with
  | _ n ih =>
    by_cases hfeed : 10 ∈ s
    · obtain ⟨l, t, rfl, hl⟩ := List.eq_append_cons_of_mem hfeed
      apply line l t hl
      apply ih t.length _ t rfl
      rw [← hn, List.length_append, List.length_cons]
      omega
    · by_cases hs : s = []
      · rw [hs]
        exact nil
      · exact last s hs hfeed

theorem splitlines_feedLines (s : Str) : splitlines s = (feedLines s).flatMap splitlines := by
  induction s using feed_induct with
  | nil => rfl
  | last l hne hl => rw [feedLines_last hne hl, List.flatMap_singleton]
  | line l t hl ih => rw [splitlines_append, feedLines_feed hl, List.flatMap_cons, ih]

theorem feedLines_flatten (s : Str) : (feedLines s).flatten = s := by
  induction s using feed_induct with
  | nil => rfl
  | last l hne hl => rw [feedLines_last hne hl, List.flatten_singleton]
  | line l t hl ih => rw [feedLines_feed hl, List.flatten_cons, ih, List.append_assoc, List.singleton_append]

theorem mem_of_feedLines {s l : Str} (hl : l ∈ feedLines s) {c : ℕ} (hc : c ∈ l) : c ∈ s := by
  rw [← feedLines_flatten s]
  exact List.mem_flatten.mpr ⟨l, hl, hc⟩

theorem feedLines_ne_nil {s l : Str} (hl : l ∈ feedLines s) : l ≠ [] := by
  induction s using feed_induct with
  | nil => cases hl
  | last m hne hm =>
    rw [feedLines_last hne hm, List.mem_singleton] at hl
    rw [hl]
    exact hne
  | line m t hm ih =>
    rw [feedLines_feed hm, List.mem_cons] at hl
    rcases hl with rfl | hl
    · simp
    · exact ih hl

theorem length_feedLines (s : Str) : (feedLines s).length ≤ s.length := by
  induction s using feed_induct with
  | nil => exact Nat.le_refl 0
  | last l hne hl =>
    rw [feedLines_last hne hl]
    exact List.length_pos_iff.mpr hne
  | line l t hl ih =>
    rw [feedLines_feed hl, List.length_cons, List.length_append, List.length_cons]
    omega

/-! ## Plain lines -/

/-- `line.rstrip("\r\n")`. -/
def stripEnd (l : Str) : Str := l.rdropWhile fun c => c == 10 || c == 13

def dropFinal (c : ℕ) (l : Str) : Str := if l.getLast? = some c then l.dropLast else l

/-- A line without its line feed and one carriage return before that. -/
def lineBody (l : Str) : Str := dropFinal 13 (dropFinal 10 l)

def PlainLine (l : Str) : Prop := ∀ c ∈ lineBody l, isLineBreak c = false

instance (l : Str) : Decidable (PlainLine l) := List.decidableBAll _ _

theorem dropFinal_cases (c : ℕ) (l : Str) : l = dropFinal c l ∨ l = dropFinal c l ++ [c] := by
  unfold dropFinal
  split
  · next h => exact Or.inr (List.dropLast_append_getLast? c h).symm
  · exact Or.inl rfl

/- What a line has besides its body. -/
theorem line_body (l : Str) : ∃ e, l = lineBody l ++ e ∧ e ∈ [[], [13], [10], [13, 10]] := by
  rcases dropFinal_cases 10 l with hfeed | hfeed <;>
    rcases dropFinal_cases 13 (dropFinal 10 l) with hreturn | hreturn
  · exact ⟨[], by rw [List.append_nil, lineBody, ← hreturn, ← hfeed], by simp⟩
  · exact ⟨[13], by rw [lineBody, ← hreturn, ← hfeed], by simp⟩
  · exact ⟨[10], by rw [lineBody, ← hreturn, ← hfeed], by simp⟩
  · refine ⟨[13, 10], ?_, by simp⟩
    rw [show [13, 10] = [13] ++ [10] from rfl, ← List.append_assoc, lineBody, ← hreturn, ← hfeed]

theorem stripEnd_concat {c : ℕ} (hc : c = 10 ∨ c = 13) (l : Str) : stripEnd (l ++ [c]) = stripEnd l := by
  apply List.rdropWhile_concat_pos
  rcases hc with rfl | rfl <;> rfl

theorem stripEnd_self {l : Str} (hl : ∀ c ∈ l, isLineBreak c = false) : stripEnd l = l := by
  refine List.rdropWhile_eq_self_iff.mpr fun hne => ?_
  have hlast := hl _ (List.getLast_mem hne)
  intro hend
  simp only [Bool.or_eq_true, beq_iff_eq] at hend
  rcases hend with hend | hend <;> rw [hend] at hlast <;> cases hlast

theorem stripEnd_plain {l : Str} (hl : PlainLine l) : stripEnd l = lineBody l := by
  obtain ⟨e, hline, he⟩ := line_body l
  have hbody : stripEnd (lineBody l) = lineBody l := stripEnd_self hl
  have hstrip : stripEnd (lineBody l ++ e) = stripEnd (lineBody l) := by
    simp only [List.mem_cons, List.not_mem_nil, or_false] at he
    rcases he with rfl | rfl | rfl | rfl
    · rw [List.append_nil]
    · exact stripEnd_concat (Or.inr rfl) _
    · exact stripEnd_concat (Or.inl rfl) _
    · rw [show [13, 10] = [13] ++ [10] from rfl, ← List.append_assoc, stripEnd_concat (Or.inl rfl),
        stripEnd_concat (Or.inr rfl)]
  rw [← hline] at hstrip
  rw [hstrip, hbody]

/-- A plain line is one line. -/
theorem splitlines_plain {l : Str} (hne : l ≠ []) (hl : PlainLine l) : splitlines l = [stripEnd l] := by
  obtain ⟨e, hline, he⟩ := line_body l
  rw [stripEnd_plain hl]
  have hsplit : lineBody l ++ e ≠ [] → splitlines (lineBody l ++ e) = [lineBody l] := by
    intro hne
    simp only [List.mem_cons, List.not_mem_nil, or_false] at he
    rcases he with rfl | rfl | rfl | rfl
    · rw [List.append_nil] at hne ⊢
      exact splitlines_line _ hne hl
    · exact splitlines_ended rfl hl
    · exact splitlines_ended rfl hl
    · exact splitlines_ended rfl hl
  rw [← hline] at hsplit
  exact hsplit hne

/-! ## Words in lines -/

theorem infix_concat {w : Str} {c : ℕ} (hc : c ∉ w) (s : Str) : w <:+: s ++ [c] ↔ w <:+: s := by
  rw [List.infix_concat_iff, List.suffix_concat_iff]
  constructor
  · rintro ((rfl | ⟨t, rfl, -⟩) | h)
    · exact List.nil_infix
    · exact absurd (List.mem_append_right t (List.mem_singleton_self c)) hc
    · exact h
  · exact Or.inr

/-- A word without line breaks is in a line where it is in its body. -/
theorem infix_stripEnd {w : Str} (hw : ∀ c ∈ w, isLineBreak c = false) (l : Str) :
    w <:+: stripEnd l ↔ w <:+: l := by
  induction l using List.reverseRecOn with
  | nil => rfl
  | append_singleton l c ih =>
    by_cases hc : c = 10 ∨ c = 13
    · have hmem : c ∉ w := by
        intro hcw
        have hbreak := hw c hcw
        rcases hc with rfl | rfl <;> cases hbreak
      rw [stripEnd_concat hc, infix_concat hmem, ih]
    · rw [stripEnd, List.rdropWhile_concat_neg]
      simpa using hc

/- A line is a part of the text; the first one is its beginning. -/
theorem linesFrom_parts (s : Str) (b : Bool) :
    (∀ line ∈ linesFrom b s, line <:+: s) ∧ (b = false → ∀ line ∈ (linesFrom b s).head?, line <+: s) := by
  induction s generalizing b with
  | nil => exact ⟨fun line h => (by cases h), fun _ line h => (by cases h)⟩
  | cons c s ih =>
    have hlater : ∀ b, ∀ line ∈ linesFrom b s, line <:+: c :: s := by
      intro b line hline
      exact List.infix_cons ((ih b).1 line hline)
    rw [linesFrom]
    split
    · next hpair =>
      simp only [Bool.and_eq_true] at hpair
      refine ⟨hlater false, fun hb => ?_⟩
      rw [hb] at hpair
      cases hpair.1
    split
    · constructor
      · rw [List.forall_mem_cons]
        exact ⟨List.nil_infix, hlater _⟩
      · intro _ line hline
        cases hline
        exact List.nil_prefix
    · have hfirst := (ih false).2 rfl
      have hrest := (ih false).1
      cases hlines : linesFrom false s with
      | nil =>
        have hhead : [c] <+: c :: s := ⟨s, rfl⟩
        constructor
        · intro line hline
          rw [pushLetter, List.mem_singleton] at hline
          rw [hline]
          exact hhead.isInfix
        · intro _ line hline
          cases hline
          exact hhead
      | cons first lines =>
        rw [hlines] at hfirst
        have hhead : c :: first <+: c :: s := (List.prefix_cons_inj c).mpr (hfirst first rfl)
        rw [pushLetter]
        constructor
        · rw [List.forall_mem_cons]
          refine ⟨hhead.isInfix, fun line hline => hlater false line ?_⟩
          rw [hlines]
          exact List.mem_cons_of_mem _ hline
        · intro _ line hline
          cases hline
          exact hhead

theorem splitlines_part {s line : Str} (h : line ∈ splitlines s) : line <:+: s :=
  (linesFrom_parts s false).1 line h

end ParallelForge.Base
