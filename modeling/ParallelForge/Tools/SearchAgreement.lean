import ParallelForge.Tools.SearchLines
import ParallelForge.Tools.SearchRecords
import Mathlib.Data.List.Sort

/-!
# Both searches agree

The matches parsed from the output of `rg` are sorted into the order of the listing, and its
cap per file does not show behind the cap of the search. So the two searches answer alike
where every file with a match is aligned, or the output is refused.
-/

namespace ParallelForge.Tools
open Base Agents PyJson

/-- What the listing promises; `_search_entries` answers it sorted and without two files of one key, and the
size of a file is an `off_t`. -/
structure Root.Keeps (root : Root) (reader : Reader) : Prop where
  listed : ∀ target files, root.searchEntries target = .ok files → ∀ file ∈ files, reader.Listed root target file
  small : ∀ target files, root.searchEntries target = .ok files → ∀ file ∈ files, file.byteCount < 2 ^ 63
  sorted : ∀ target files, root.searchEntries target = .ok files →
    files.Pairwise fun a b => reader.pathKey a.path < reader.pathKey b.path

/-- A file in which both searches see the same lines. -/
structure Comparable (literal : Str) (file : RepositoryFile) : Prop where
  path : Unbroken file.path
  lines : Aligned literal (feedLines file.text)

/-- What the proofs know of the files of a search. -/
structure Searched (reader : Reader) (root : Root) (literal target : Str) (entries : List RepositoryFile) : Prop where
  word : isText literal ∧ ∀ c ∈ literal, isLineBreak c = false
  listed : ∀ file ∈ entries, reader.Listed root target file
  visible : ∀ file ∈ entries, isHiddenSearchPath file.path = false
  sorted : entries.Pairwise fun a b => reader.pathKey a.path < reader.pathKey b.path
  small : ∀ file ∈ entries, file.byteCount < 2 ^ 63
  comparable : ∀ file ∈ entries, (∃ line ∈ feedLines file.text, literal <:+: line) → Comparable literal file

theorem isText_of_utf8 {s : Str} (h : (utf8Length s).isSome) : isText s := by
  obtain ⟨n, hn⟩ := Option.isSome_iff_exists.mp h
  exact fun c hc => (utf8Length_scalar s n hn c hc).1

theorem length_le_utf8 {s : Str} {n : ℕ} (h : utf8Length s = some n) : s.length ≤ n := by
  induction s generalizing n with
  | nil => exact Nat.zero_le n
  | cons c s ih =>
    unfold utf8Length at h
    cases hs : utf8Length s with
    | none => simp [hs] at h
    | some m =>
      have hle := ih hs
      simp only [hs] at h
      rw [List.length_cons]
      split_ifs at h <;> cases h <;> omega

/-! ## The records of a file -/

namespace Searched
variable {reader : Reader} {root : Root} {rg : Ripgrep} {readFloat : Json.FloatText → Option Json.FloatText}
variable {literal target : Str} {entries : List RepositoryFile} {maxCount : ℕ}

/- A reported line, and what the parser asks of it. -/
theorem reported_line (h : Searched reader root literal target entries) {file : RepositoryFile}
    (hfile : file ∈ entries) {m : ℕ × Str} (hm : m ∈ Ripgrep.reported literal maxCount file) :
    Reportable literal file ∧ 0 < m.1 ∧ m.1 < 2 ^ 63 ∧ m.2 ≠ [] ∧ (isText m.2 ∧ Unbroken m.2) ∧
      (∀ c ∈ stripEnd m.2, isLineBreak c = false) ∧ literal <:+: stripEnd m.2 := by
  obtain ⟨hline, hfound, hlo, hhi⟩ := mem_matchingLines (List.mem_of_mem_take hm)
  have hcomparable := h.comparable file hfile ⟨m.2, hline, hfound⟩
  have hplain : PlainLine m.2 := aligned_plain hcomparable.lines hline hfound
  have htext : isText file.text := isText_of_utf8 (by rw [file.encoded]; rfl)
  have hlength := length_le_utf8 file.encoded
  have hcount := length_feedLines file.text
  have hsmall := h.small file hfile
  refine ⟨⟨⟨h.word.1, fun c hc _ => h.word.2 c hc⟩, isText_of_utf8 file.named, hcomparable.path⟩, by omega,
    by omega, feedLines_ne_nil hline, ⟨fun c hc => htext c (mem_of_feedLines hline hc), ?_⟩, ?_,
    (infix_stripEnd h.word.2 m.2).mpr hfound⟩
  · obtain ⟨e, hbody, he⟩ := line_body m.2
    intro c hc hwide
    rw [hbody, List.mem_append] at hc
    rcases hc with hc | hc
    · exact hplain c hc
    · have hend : ∀ d ∈ e, d < 127 := by
        simp only [List.mem_cons, List.not_mem_nil, or_false] at he
        rcases he with rfl | rfl | rfl | rfl <;> decide
      have hlt := hend c hc
      omega
  · rw [stripEnd_plain hplain]
    exact hplain

theorem clean_records (h : Searched reader root literal target entries) {file : RepositoryFile}
    (hfile : file ∈ entries) : ∀ r ∈ rg.fileRecords literal maxCount file, Clean r := by
  intro r hr
  unfold Ripgrep.fileRecords at hr
  split at hr
  · cases hr
  · next lines hne =>
    have hreport : ∀ m ∈ Ripgrep.reported literal maxCount file, Clean (rg.matchRecord literal file m) := by
      intro m hm
      obtain ⟨hreportable, -, hbound, -, htext, -, -⟩ := h.reported_line hfile hm
      exact Ripgrep.clean_match hreportable hbound htext
    have hreportable : Reportable literal file := by
      cases hlines : Ripgrep.reported literal maxCount file with
      | nil => exact absurd hlines hne
      | cons m ms => exact (h.reported_line hfile (hlines ▸ List.mem_cons_self)).1
    rw [List.mem_cons, List.mem_append, List.mem_map, List.mem_singleton] at hr
    rcases hr with rfl | ⟨m, hm, rfl⟩ | rfl
    · exact Ripgrep.clean_begin hreportable
    · exact hreport m hm
    · exact Ripgrep.clean_end hreportable

/-! ## Parsing -/

theorem parse_lines (h : Searched reader root literal target entries) {file : RepositoryFile} (hfile : file ∈ entries)
    (ms : List (ℕ × Str)) (hms : ∀ m ∈ ms, m ∈ Ripgrep.reported literal maxCount file) (records : List SearchMatch)
    (hnew : ((records ++ ms.map (reportedMatch file)).map reader.recordKey).Nodup) :
    ((ms.map (rg.matchRecord literal file)).map (render false false)).foldlM
      (reader.parseLine root readFloat literal target entries) records =
      .ok (records ++ ms.map (reportedMatch file)) := by
  induction ms generalizing records with
  | nil => rw [List.map_nil, List.map_nil, List.map_nil, List.append_nil]; rfl
  | cons m ms ih =>
    rw [List.forall_mem_cons] at hms
    obtain ⟨hreportable, hpos, hbound, hne, htext, hbody, hfound⟩ := h.reported_line hfile hms.1
    rw [List.map_cons, List.append_cons] at hnew
    have hkey : reader.recordKey (reportedMatch file m) ∉ records.map reader.recordKey := by
      have hfront := List.Nodup.of_append_left (List.map_append (f := reader.recordKey) ▸ hnew)
      rw [List.map_append, List.nodup_append] at hfront
      intro hmem
      exact hfront.2.2 _ hmem _ (by simp) rfl
    have hline : reader.parseLine root readFloat literal target entries records
        (render false false (rg.matchRecord literal file m)) =
        .ok (records ++ [reportedMatch file m]) :=
      Reader.parseLine_match hreportable (h.listed file hfile) hfile (h.visible file hfile) hpos hbound hne htext hbody
        hfound hkey
    rw [List.map_cons, List.map_cons, foldlM_cons_ok hline, ih hms.2 _ hnew, List.map_cons, List.append_assoc,
      List.singleton_append]

theorem parse_file (h : Searched reader root literal target entries) {file : RepositoryFile} (hfile : file ∈ entries)
    (records : List SearchMatch)
    (hnew : ((records ++ reportedMatches literal maxCount file).map reader.recordKey).Nodup) :
    ((rg.fileRecords literal maxCount file).map (render false false)).foldlM
      (reader.parseLine root readFloat literal target entries) records =
      .ok (records ++ reportedMatches literal maxCount file) := by
  have hclean : ∀ r ∈ rg.fileRecords literal maxCount file, Clean r := h.clean_records hfile
  have hlines : (((Ripgrep.reported literal maxCount file).map (rg.matchRecord literal file)).map
      (render false false)).foldlM (reader.parseLine root readFloat literal target entries) records =
      .ok (records ++ reportedMatches literal maxCount file) :=
    h.parse_lines hfile _ (fun m hm => hm) records hnew
  rw [reportedMatches] at hlines ⊢
  unfold Ripgrep.fileRecords at hclean ⊢
  cases hreported : Ripgrep.reported literal maxCount file with
  | nil => rw [List.map_nil, List.map_nil, List.append_nil]; rfl
  | cons m ms =>
    rw [hreported] at hclean hlines
    simp only [List.forall_mem_cons, List.forall_mem_append] at hclean
    have hbegin : ∀ rs, reader.parseLine root readFloat literal target entries rs
        (render false false (Ripgrep.beginRecord file)) = .ok rs :=
      Reader.parseLine_passes (by decide) (by decide) hclean.1
    have hend : ∀ rs, reader.parseLine root readFloat literal target entries rs
        (render false false (rg.endRecord file)) = .ok rs :=
      Reader.parseLine_passes (by decide) (by decide) hclean.2.2.1
    rw [List.map_cons, foldlM_cons_ok (hbegin records), List.map_append, foldlM_append_ok hlines, List.map_singleton,
      foldlM_cons_ok (hend _)]
    rfl

theorem parse_files (h : Searched reader root literal target entries) (files : List RepositoryFile)
    (hfiles : ∀ file ∈ files, file ∈ entries) (records : List SearchMatch)
    (hnew : ((records ++ files.flatMap (reportedMatches literal maxCount)).map reader.recordKey).Nodup) :
    ((files.flatMap (rg.fileRecords literal maxCount)).map (render false false)).foldlM
      (reader.parseLine root readFloat literal target entries) records =
      .ok (records ++ files.flatMap (reportedMatches literal maxCount)) := by
  induction files generalizing records with
  | nil => rw [List.flatMap_nil, List.flatMap_nil, List.append_nil]; rfl
  | cons file files ih =>
    rw [List.forall_mem_cons] at hfiles
    rw [List.flatMap_cons, ← List.append_assoc] at hnew
    have hfront : ((records ++ reportedMatches literal maxCount file).map reader.recordKey).Nodup := by
      rw [List.map_append] at hnew
      exact List.Nodup.of_append_left hnew
    rw [List.flatMap_cons, List.map_append, foldlM_append_ok (h.parse_file hfiles.1 records hfront),
      ih hfiles.2 _ hnew, List.flatMap_cons, List.append_assoc]

/-! ## The order of the matches -/

/-- The order of the listing, and within a file that of the lines. -/
def Before (reader : Reader) (a b : SearchMatch) : Prop :=
  reader.pathKey a.path < reader.pathKey b.path ∨ a.path = b.path ∧ a.lineNumber < b.lineNumber

theorem Before.sortLe {a b : SearchMatch} (h : Before reader a b) : reader.sortLe a b := by
  unfold Reader.sortLe Reader.sortKey
  rw [Prod.Lex.toLex_le_toLex, Prod.Lex.toLex_lt_toLex]
  rcases h with h | ⟨hpath, h⟩
  · exact Or.inl (Or.inl h)
  · exact Or.inr ⟨by rw [hpath], h.le⟩

theorem Before.recordKey_ne {a b : SearchMatch} (h : Before reader a b) : reader.recordKey a ≠ reader.recordKey b := by
  intro heq
  rw [Reader.recordKey, Reader.recordKey, Prod.mk.injEq] at heq
  rcases h with h | ⟨-, h⟩
  · exact absurd heq.1 h.ne
  · exact absurd heq.2 h.ne

theorem reported_before (h : Searched reader root literal target entries) :
    (entries.flatMap (reportedMatches literal maxCount)).Pairwise (Before reader) := by
  rw [List.pairwise_flatMap]
  constructor
  · intro file _
    rw [reportedMatches, List.pairwise_map]
    exact ((matchingLines_sorted 1 (feedLines file.text)).sublist (List.take_sublist _ _)).imp
      fun hlt => Or.inr ⟨rfl, hlt⟩
  · apply h.sorted.imp
    intro a b hlt x hx y hy
    obtain ⟨m, -, rfl⟩ := List.mem_map.mp hx
    obtain ⟨n, -, rfl⟩ := List.mem_map.mp hy
    exact Or.inl hlt

theorem reported_nodup (h : Searched reader root literal target entries) :
    ((entries.flatMap (reportedMatches literal maxCount)).map reader.recordKey).Nodup := by
  rw [List.Nodup, List.pairwise_map]
  exact h.reported_before.imp fun hbefore => hbefore.recordKey_ne

/- Whatever the order of the records, sorted they are in the order of the listing. -/
theorem sorted_reported (h : Searched reader root literal target entries) {found : List SearchMatch}
    (hperm : found.Perm (entries.flatMap (reportedMatches literal maxCount))) :
    found.insertionSort reader.sortLe = entries.flatMap (reportedMatches literal maxCount) := by
  have htotal : Std.Total reader.sortLe := ⟨fun a b => le_total (reader.sortKey a) (reader.sortKey b)⟩
  have htrans : IsTrans SearchMatch reader.sortLe := ⟨fun a b c => le_trans⟩
  have hsame : (found.insertionSort reader.sortLe).Perm (entries.flatMap (reportedMatches literal maxCount)) :=
    (List.perm_insertionSort reader.sortLe found).trans hperm
  apply List.Perm.eq_of_pairwise _ (List.pairwise_insertionSort reader.sortLe found)
    (h.reported_before.imp fun hbefore => hbefore.sortLe) hsame
  intro a b ha hb hab hba
  have hkey : reader.sortKey a = reader.sortKey b := le_antisymm hab hba
  have hrecord : reader.recordKey a = reader.recordKey b := by
    unfold Reader.sortKey at hkey
    simp only [EmbeddingLike.apply_eq_iff_eq, Prod.mk.injEq] at hkey
    rw [Reader.recordKey, Reader.recordKey, hkey.1.1, hkey.2]
  exact List.inj_on_of_nodup_map h.reported_nodup (hsame.mem_iff.mp ha) hb hrecord

/-! ## The output -/

theorem splitlines_records {rs : List PyJson} (h : ∀ r ∈ rs, Clean r) :
    splitlines (rs.flatMap fun r => render false false r ++ [10]) = rs.map (render false false) := by
  induction rs with
  | nil => rfl
  | cons r rs ih =>
    rw [List.forall_mem_cons] at h
    rw [List.flatMap_cons, List.append_assoc, List.singleton_append, splitlines_append,
      splitlines_record _ h.1.line, ih h.2, List.map_cons, List.singleton_append]

variable (rg readFloat)

/-- Parsing the output finds what was reported, in the order of the listing. -/
theorem parseRgOutput_eq (h : Searched reader root literal target entries)
    (hletter : 0xFFFD ∉ rg.output literal maxCount entries) :
    reader.parseRgOutput root readFloat (rg.output literal maxCount entries) literal target entries =
      .ok (entries.flatMap (reportedMatches literal maxCount)) := by
  have horder := rg.order_perm entries
  have hperm : ((rg.order entries).flatMap (reportedMatches literal maxCount)).Perm
      (entries.flatMap (reportedMatches literal maxCount)) := horder.flatMap_right _
  have hfiles : ∀ file ∈ rg.order entries, file ∈ entries := fun file hfile => horder.mem_iff.mp hfile
  have hclean : ∀ r ∈ rg.records literal maxCount entries, Clean r := by
    intro r hr
    rw [Ripgrep.records, List.mem_append, List.mem_singleton] at hr
    rcases hr with hr | rfl
    · obtain ⟨file, hfile, hr⟩ := List.mem_flatMap.mp hr
      exact h.clean_records (hfiles file hfile) r hr
    · exact Ripgrep.clean_summary entries
  have hparse : ((((rg.order entries).flatMap (rg.fileRecords literal maxCount)).map (render false false))).foldlM
      (reader.parseLine root readFloat literal target entries) [] =
      .ok ([] ++ (rg.order entries).flatMap (reportedMatches literal maxCount)) := by
    apply h.parse_files _ hfiles
    rw [List.nil_append]
    exact (hperm.map _).nodup_iff.mpr h.reported_nodup
  have hsummary : ∀ records, reader.parseLine root readFloat literal target entries records
      (render false false (rg.summaryRecord entries)) = .ok records :=
    Reader.parseLine_passes (by decide) (by decide) (Ripgrep.clean_summary entries)
  have hlines : (splitlines (rg.output literal maxCount entries)).foldlM
      (reader.parseLine root readFloat literal target entries) [] =
      .ok ((rg.order entries).flatMap (reportedMatches literal maxCount)) := by
    rw [Ripgrep.output, splitlines_records hclean, Ripgrep.records, List.map_append, foldlM_append_ok hparse,
      List.nil_append, List.map_singleton, foldlM_cons_ok (hsummary _)]
    rfl
  rw [Reader.parseRgOutput, require, if_pos hletter]
  simp only [hlines, bind, Except.bind, pure, Except.pure, h.sorted_reported hperm]

end Searched

/-! ## The Python search -/

namespace Reader
variable {reader : Reader} {root : Root}

theorem boundedText_self {s : Str} {m n : ℕ} (h : utf8Length s = some m) (hle : m ≤ n) : boundedText n s = s := by
  induction s generalizing m n with
  | nil => rfl
  | cons c s ih =>
    unfold utf8Length at h
    cases hs : utf8Length s with
    | none => simp [hs] at h
    | some k =>
      have hwidth : utf8Width c + k = m := by
        simp only [hs] at h
        unfold utf8Width
        split_ifs at h ⊢ <;> cases h <;> omega
      rw [boundedText, if_pos (by omega), ih hs (by omega)]

/-- A listed file that is small enough is read whole. -/
theorem readFile_listed {target : Str} {file : RepositoryFile} (hlisted : Listed reader root target file)
    (hsize : file.byteCount ≤ reader.maxFileBytes) (hzero : 0 ∉ file.text) :
    ∃ cut, reader.readFile root file = .ok ⟨file.path, file.text, file.byteCount, cut⟩ := by
  have hsecret : reader.secretPaths.any (reader.matchesPath file.path) = false := by
    have hadmitted := hlisted.admitted
    rw [isExcluded, Bool.or_eq_false_iff] at hadmitted
    exact hadmitted.2
  have hallowed : reader.ensureAllowed root file.path = .ok () := by
    unfold ensureAllowed
    split
    · rfl
    · simp only [hsecret, hlisted.admitted, hlisted.noEnvironment, require, Bool.false_eq_true, not_false_eq_true,
        if_true, bind, Except.bind]
  refine ⟨decide (reader.maxFileBytes < file.byteCount), ?_⟩
  unfold readFile
  simp only [hlisted.normalized, hallowed, boundedText_self file.encoded hsize, require, if_pos hzero, bind,
    Except.bind, pure, Except.pure]

end Reader

/-! ## The search with `rg` -/

/-- What the output of a run is refused with. -/
def outputRefusal (output : Str) (byteCount : ℕ) : Option RepositoryError :=
  if rgStreamBytes < byteCount then some (.accessDenied "repository search failed")
  else if 0xFFFD ∈ output then some Reader.outputInvalid
  else none

namespace Ripgrep
variable (rg : Ripgrep) (literal : Str) (maxCount : ℕ) (files : List RepositoryFile)

theorem output_open : 123 ∈ rg.output literal maxCount files := by
  rw [output, List.mem_flatMap]
  refine ⟨rg.summaryRecord files, List.mem_append_right _ (List.mem_singleton_self _), ?_⟩
  rw [summaryRecord, record, render]
  exact List.mem_append_left _ List.mem_cons_self

theorem output_ended : (rg.output literal maxCount files).getLast? = some 10 := by
  rw [output, records, List.flatMap_append, List.flatMap_singleton, ← List.append_assoc, List.getLast?_append]
  rfl

end Ripgrep

namespace Searched
variable {reader : Reader} {root : Root} {rg : Ripgrep} {readFloat : Json.FloatText → Option Json.FloatText}
variable {literal target : Str} {entries : List RepositoryFile} {argv : List Str}

/- The checks before the output is parsed let it pass where it is not too long. -/
theorem searchWithRg_parses (hran : rg.Ran literal reader.maxSearchMatches entries (root.runArgv argv))
    (hshort : ¬ rgStreamBytes < (root.runArgv argv).stdoutOriginalByteCount) :
    reader.searchWithRg root readFloat argv literal target entries = (do
      let found ← reader.parseRgOutput root readFloat (rg.output literal reader.maxSearchMatches entries) literal
        target entries
      require (¬ ((root.runArgv argv).returnCode = some 1 ∧ found ≠ []))
        (.accessDenied "repository search output contradicts exit status")
      return found.take reader.maxSearchMatches) := by
  have hwhole : (root.runArgv argv).stdoutTruncated = false := by
    rw [hran.stdoutTruncated]
    exact decide_eq_false hshort
  have hcode : (root.runArgv argv).returnCode = some 0 ∨ (root.runArgv argv).returnCode = some 1 := by
    rw [hran.returnCode]
    split
    · exact Or.inr rfl
    · exact Or.inl rfl
  have hquiet : stripText (root.runArgv argv).stderr = [] := by
    rw [hran.stderr]
    rfl
  have hblank : stripText (rg.output literal reader.maxSearchMatches entries) ≠ [] :=
    stripText_ne_nil (rg.output_open literal reader.maxSearchMatches entries) rfl
  unfold Reader.searchWithRg
  simp only [hran.finished, hwhole, hran.stderrTruncated, hshort, hran.stderrCount, hran.stdout hwhole, hquiet, hcode,
    hblank, rg.output_ended, require, Nat.not_lt_zero, Bool.false_eq_true, or_self, not_false_eq_true, ne_eq,
    not_true_eq_false, and_false, if_true, if_false, bind, Except.bind, pure, Except.pure]

/-- What the search with `rg` answers. -/
theorem searchWithRg_eq (h : Searched reader root literal target entries)
    (hran : rg.Ran literal reader.maxSearchMatches entries (root.runArgv argv)) :
    (outputRefusal (rg.output literal reader.maxSearchMatches entries)
        (root.runArgv argv).stdoutOriginalByteCount = none →
      reader.searchWithRg root readFloat argv literal target entries =
        .ok ((entries.flatMap (reportedMatches literal reader.maxSearchMatches)).take reader.maxSearchMatches)) ∧
    ∀ e, outputRefusal (rg.output literal reader.maxSearchMatches entries)
        (root.runArgv argv).stdoutOriginalByteCount = some e →
      reader.searchWithRg root readFloat argv literal target entries = .error e := by
  by_cases hlong : rgStreamBytes < (root.runArgv argv).stdoutOriginalByteCount
  · rw [outputRefusal, if_pos hlong]
    refine ⟨fun hnone => (by cases hnone), fun e he => ?_⟩
    cases he
    unfold Reader.searchWithRg
    simp only [hlong, or_true, true_or, not_true_eq_false, require, if_false, bind, Except.bind]
  · rw [searchWithRg_parses hran hlong, outputRefusal, if_neg hlong]
    by_cases hletter : 0xFFFD ∈ rg.output literal reader.maxSearchMatches entries
    · rw [Reader.parseRgOutput, require, if_neg (Classical.not_not.mpr hletter), if_pos hletter]
      refine ⟨fun hnone => (by cases hnone), fun e he => ?_⟩
      cases he
      rfl
    · have hfound : ¬ ((root.runArgv argv).returnCode = some 1 ∧
          entries.flatMap (reportedMatches literal reader.maxSearchMatches) ≠ []) := by
        rintro ⟨hcode, hsome⟩
        rw [hran.returnCode] at hcode
        split at hcode
        · next hnone =>
          apply hsome
          rw [List.flatMap_eq_nil_iff]
          intro file hfile
          rw [reportedMatches, List.isEmpty_iff.mp (List.all_eq_true.mp hnone file hfile), List.map_nil]
        · cases hcode
      rw [h.parseRgOutput_eq rg readFloat hletter, if_neg hletter]
      refine ⟨fun _ => ?_, fun e he => (by cases he)⟩
      simp only [require, if_pos hfound, bind, Except.bind, pure, Except.pure]

/- The cap of `rg` for each file does not show behind the cap of the search. -/
theorem reported_capped (h : Searched reader root literal target entries) (cap : ℕ) :
    (entries.flatMap (reportedMatches literal cap)).take cap = (entries.flatMap (fileMatches literal)).take cap := by
  have hfile : ∀ file ∈ entries, reportedMatches literal cap file = (fileMatches literal file).take cap := by
    intro file hfile
    have haligned : Aligned literal (feedLines file.text) := by
      by_cases hmatch : ∃ line ∈ feedLines file.text, literal <:+: line
      · exact (h.comparable file hfile hmatch).lines
      · cases hlines : feedLines file.text with
        | nil => trivial
        | cons line lines =>
          rw [hlines] at hmatch
          exact fun hlater => absurd hlater hmatch
    exact reportedMatches_aligned h.word.2 haligned cap
  rw [List.flatMap_congr hfile, take_flatMap_take (fileMatches literal) (Nat.le_refl cap)]

end Searched

end ParallelForge.Tools
