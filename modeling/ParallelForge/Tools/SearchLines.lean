import ParallelForge.Tools.Ripgrep

/-!
# The lines of both searches

The Python search counts the lines of `str.splitlines`, `rg` those that line feeds end. Where
the lines up to the last match are plain, both count alike and find the same texts.
-/

namespace ParallelForge.Tools
open Base Agents

variable {literal : Str}

theorem matchingLines_eq_nil (number : ℕ) {lines : List Str} (h : ∀ line ∈ lines, ¬ literal <:+: line) :
    matchingLines literal number lines = [] := by
  induction lines generalizing number with
  | nil => rfl
  | cons line lines ih =>
    rw [List.forall_mem_cons] at h
    rw [matchingLines, if_neg h.1, ih _ h.2]

theorem mem_matchingLines {number : ℕ} {lines : List Str} {m : ℕ × Str}
    (h : m ∈ matchingLines literal number lines) :
    m.2 ∈ lines ∧ literal <:+: m.2 ∧ number ≤ m.1 ∧ m.1 < number + lines.length := by
  induction lines generalizing number with
  | nil => cases h
  | cons line lines ih =>
    have hlater : m ∈ matchingLines literal (number + 1) lines →
        m.2 ∈ line :: lines ∧ literal <:+: m.2 ∧ number ≤ m.1 ∧ m.1 < number + (line :: lines).length := by
      intro hm
      obtain ⟨hmem, hfound, hlo, hhi⟩ := ih hm
      rw [List.length_cons]
      exact ⟨List.mem_cons_of_mem _ hmem, hfound, by omega, by omega⟩
    rw [matchingLines] at h
    split at h
    · next hfound =>
      rcases List.mem_cons.mp h with rfl | h
      · rw [List.length_cons]
        exact ⟨List.mem_cons_self, hfound, Nat.le_refl _, by omega⟩
      · exact hlater h
    · exact hlater h

theorem matchingLines_sorted (number : ℕ) (lines : List Str) :
    (matchingLines literal number lines).Pairwise fun a b => a.1 < b.1 := by
  induction lines generalizing number with
  | nil => exact List.Pairwise.nil
  | cons line lines ih =>
    rw [matchingLines]
    split
    · rw [List.pairwise_cons]
      refine ⟨fun m hm => ?_, ih _⟩
      have hlater := mem_matchingLines hm
      omega
    · exact ih _

/-- Up to the last one with the literal the lines are plain. -/
def Aligned (literal : Str) : List Str → Prop
  | [] => True
  | line :: lines =>
    (∃ later ∈ line :: lines, literal <:+: later) → PlainLine line ∧ Aligned literal lines

instance decidableAligned : ∀ lines, Decidable (Aligned literal lines)
  | [] => isTrue trivial
  | line :: lines =>
    have := decidableAligned lines
    inferInstanceAs (Decidable ((∃ later ∈ line :: lines, literal <:+: later) → PlainLine line ∧ Aligned literal lines))

theorem aligned_plain {lines : List Str} (h : Aligned literal lines) {line : Str} (hline : line ∈ lines)
    (hfound : literal <:+: line) : PlainLine line := by
  induction lines with
  | nil => cases hline
  | cons first lines ih =>
    have hfirst := h ⟨line, hline, hfound⟩
    rcases List.mem_cons.mp hline with rfl | hline
    · exact hfirst.1
    · exact ih hfirst.2 hline

/-- In aligned lines the Python search finds the same numbers and texts. -/
theorem matchingLines_aligned (hliteral : ∀ c ∈ literal, isLineBreak c = false) {lines : List Str}
    (hlines : ∀ line ∈ lines, line ≠ []) (h : Aligned literal lines) (number : ℕ) :
    matchingLines literal number (lines.flatMap splitlines) =
      (matchingLines literal number lines).map fun m => (m.1, stripEnd m.2) := by
  induction lines generalizing number with
  | nil => rfl
  | cons line lines ih =>
    rw [List.forall_mem_cons] at hlines
    by_cases hlater : ∃ later ∈ line :: lines, literal <:+: later
    · obtain ⟨hplain, hrest⟩ := h hlater
      rw [List.flatMap_cons, splitlines_plain hlines.1 hplain, List.singleton_append, matchingLines, matchingLines,
        ih hlines.2 hrest]
      by_cases hfound : literal <:+: line
      · rw [if_pos ((infix_stripEnd hliteral line).mpr hfound), if_pos hfound, List.map_cons]
      · rw [if_neg (fun hstrip => hfound ((infix_stripEnd hliteral line).mp hstrip)), if_neg hfound]
    · have hnone : ∀ later ∈ line :: lines, ¬ literal <:+: later := by
        intro later hmem hfound
        exact hlater ⟨later, hmem, hfound⟩
      rw [matchingLines_eq_nil number hnone, matchingLines_eq_nil, List.map_nil]
      intro piece hpiece hfound
      obtain ⟨later, hmem, hpart⟩ := List.mem_flatMap.mp hpiece
      exact hnone later hmem (hfound.trans (splitlines_part hpart))

/-! ## One file -/

/-- The matches of a file in the order of its lines. -/
def fileMatches (literal : Str) (file : RepositoryFile) : List SearchMatch :=
  (matchingLines literal 1 (splitlines file.text)).map fun m => ⟨file.path, m.1, m.2⟩

/-- A reported line without its end. -/
def reportedMatch (file : RepositoryFile) (m : ℕ × Str) : SearchMatch := ⟨file.path, m.1, stripEnd m.2⟩

def reportedMatches (literal : Str) (maxCount : ℕ) (file : RepositoryFile) : List SearchMatch :=
  (Ripgrep.reported literal maxCount file).map (reportedMatch file)

theorem reportedMatches_aligned (hliteral : ∀ c ∈ literal, isLineBreak c = false) {file : RepositoryFile}
    (h : Aligned literal (feedLines file.text)) (maxCount : ℕ) :
    reportedMatches literal maxCount file = (fileMatches literal file).take maxCount := by
  rw [fileMatches, splitlines_feedLines, matchingLines_aligned hliteral (fun _ => feedLines_ne_nil) h,
    reportedMatches, Ripgrep.reported, List.map_map, List.map_take]
  rfl

/-! ## The cap -/

theorem take_flatMap_take {α β : Type} (f : α → List β) {cap n : ℕ} (hn : n ≤ cap) (l : List α) :
    (l.flatMap fun a => (f a).take cap).take n = (l.flatMap f).take n := by
  induction l generalizing n with
  | nil => rfl
  | cons a l ih =>
    rw [List.flatMap_cons, List.flatMap_cons, List.take_append, List.take_append, List.take_take, min_eq_left hn,
      ih (by omega), List.length_take]
    congr 2
    omega

/-! ## The Python search -/

namespace Reader
variable {reader : Reader} {root : Root}

theorem searchLines_eq (path : Str) (number : ℕ) (lines : List Str) (found : List SearchMatch)
    (hroom : found.length < reader.maxSearchMatches) :
    reader.searchLines literal path number lines found =
      (found ++ (matchingLines literal number lines).map fun m => SearchMatch.mk path m.1 m.2).take reader.maxSearchMatches := by
  induction lines generalizing number found with
  | nil =>
    rw [searchLines, matchingLines, List.map_nil, List.append_nil, List.take_of_length_le (by omega)]
  | cons line lines ih =>
    rw [searchLines, matchingLines]
    split
    · have hlength : (found ++ [SearchMatch.mk path number line]).length = found.length + 1 := by simp
      rw [List.map_cons, List.append_cons found _ ((matchingLines literal (number + 1) lines).map _)]
      simp only
      split
      · rw [List.take_append_of_le_length (by omega), List.take_of_length_le (by omega)]
      · exact ih _ _ (by omega)
    · exact ih _ _ hroom

/-- The Python search finds the first matches of its files. -/
theorem searchFiles_eq (files : List RepositoryFile) (found : List SearchMatch)
    (hread : ∀ file ∈ files, ∃ cut, reader.readFile root file = .ok ⟨file.path, file.text, file.byteCount, cut⟩)
    (hroom : found.length < reader.maxSearchMatches) :
    reader.searchFiles root literal files found =
      .ok ((found ++ files.flatMap (fileMatches literal)).take reader.maxSearchMatches) := by
  induction files generalizing found with
  | nil => rw [searchFiles, List.flatMap_nil, List.append_nil, List.take_of_length_le (by omega)]
  | cons file files ih =>
    rw [List.forall_mem_cons] at hread
    obtain ⟨⟨cut, hfile⟩, hfiles⟩ := hread
    rw [searchFiles, hfile]
    simp only [searchLines_eq _ _ _ _ hroom, List.flatMap_cons]
    rw [← List.append_assoc]
    have hmatches : (matchingLines literal 1 (splitlines file.text)).map
        (fun m => SearchMatch.mk file.path m.1 m.2) = fileMatches literal file := rfl
    rw [hmatches]
    split
    · next hfull =>
      have hlong : reader.maxSearchMatches ≤ (found ++ fileMatches literal file).length := by
        rw [List.length_take] at hfull
        omega
      rw [List.take_append_of_le_length hlong]
    · next hfull =>
      have hshort : (found ++ fileMatches literal file).length < reader.maxSearchMatches := by
        rw [List.length_take] at hfull
        omega
      rw [List.take_of_length_le (Nat.le_of_lt hshort)]
      exact ih _ hfiles hshort

end Reader

end ParallelForge.Tools
