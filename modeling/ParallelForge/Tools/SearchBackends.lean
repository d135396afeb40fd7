import ParallelForge.Tools.SearchAgreement

/-!
# A search answers the same with and without `rg`

The claim of the dispatch: with an executable the search gives the matches that it gives
without one, unless the output is refused.
-/

namespace ParallelForge.Tools
open Base Policy Agents PyJson

/-- The search reaches the choice of its backend, and `rg` can be called. -/
structure Dispatched (reader : Reader) (root : Root) (executable literal path target : Str)
    (entries : List RepositoryFile) (argv : List Str) : Prop where
  valid : Reader.validateSearchLiteral literal = .ok ()
  normalized : normalize path true = .ok target
  allowed : reader.ensureAllowed root target = .ok ()
  listed : reader.boundedSearchEntries root target = .ok entries
  nonempty : entries ≠ []
  built : reader.buildRgArgv executable literal entries = .ok (some argv)

section backends
variable {reader : Reader} {root : Root} {rg : Ripgrep} {readFloat : Json.FloatText → Option Json.FloatText}
variable {executable literal path target : Str} {entries : List RepositoryFile} {argv : List Str}

namespace Dispatched

theorem search_none (h : Dispatched reader root executable literal path target entries argv) :
    reader.search root readFloat none literal path = reader.searchWithPython root literal entries := by
  have hnonempty : entries.isEmpty = false := List.isEmpty_eq_false_iff.mpr h.nonempty
  unfold Reader.search
  simp only [h.valid, h.normalized, h.allowed, h.listed, hnonempty, Bool.false_eq_true, if_false, bind, Except.bind]

theorem search_some (h : Dispatched reader root executable literal path target entries argv) :
    reader.search root readFloat (some executable) literal path =
      reader.searchWithRg root readFloat argv literal target entries := by
  have hnonempty : entries.isEmpty = false := List.isEmpty_eq_false_iff.mpr h.nonempty
  unfold Reader.search
  simp only [h.valid, h.normalized, h.allowed, h.listed, h.built, hnonempty, Bool.false_eq_true, if_false, bind,
    Except.bind]

/- The files of the search are visible ones of the listing. -/
theorem entries_listed (h : Dispatched reader root executable literal path target entries argv) :
    ∃ files, root.searchEntries target = .ok files ∧
      entries = files.filter fun entry => !isHiddenSearchPath entry.path := by
  have hentries := h.listed
  rw [Reader.boundedSearchEntries, bind_eq_ok] at hentries
  obtain ⟨files, hfiles, hentries⟩ := hentries
  rw [bind_unit_eq_ok] at hentries
  obtain ⟨-, hentries⟩ := hentries
  cases hentries
  exact ⟨files, hfiles, rfl⟩

theorem searched (h : Dispatched reader root executable literal path target entries argv) (hroot : root.Keeps reader)
    (hliteral : ∀ c ∈ literal, isLineBreak c = false)
    (hcomparable : ∀ file ∈ entries, (∃ line ∈ feedLines file.text, literal <:+: line) → Comparable literal file) :
    Searched reader root literal target entries := by
  obtain ⟨files, hfiles, hfilter⟩ := h.entries_listed
  have hmem : ∀ file ∈ entries, file ∈ files ∧ isHiddenSearchPath file.path = false := by
    intro file hfile
    rw [hfilter, List.mem_filter, Bool.not_eq_true'] at hfile
    exact hfile
  have htext : isText literal := by
    apply isText_of_utf8
    have hvalid := h.valid
    unfold Reader.validateSearchLiteral at hvalid
    split at hvalid
    · cases hvalid
    · next hno =>
      rw [not_or, not_or, Bool.not_eq_true, Option.isNone_eq_false_iff] at hno
      exact hno.2.2
  refine ⟨⟨htext, hliteral⟩, fun file hfile => hroot.listed target files hfiles file (hmem file hfile).1,
    fun file hfile => (hmem file hfile).2, ?_,
    fun file hfile => hroot.small target files hfiles file (hmem file hfile).1, hcomparable⟩
  rw [hfilter]
  exact (hroot.sorted target files hfiles).filter _

end Dispatched

/-- With and without `rg` the search answers the same matches, where its lines are those of
`str.splitlines` up to the last match of each file and its output is not refused; and a refused
output is an error. -/
theorem backends_agree (hroot : root.Keeps reader)
    (hdispatched : Dispatched reader root executable literal path target entries argv)
    (hran : rg.Ran literal reader.maxSearchMatches entries (root.runArgv argv))
    (hliteral : ∀ c ∈ literal, isLineBreak c = false)
    (hfiles : ∀ file ∈ entries, 0 ∉ file.text ∧ file.byteCount ≤ reader.maxFileBytes)
    (hcomparable : ∀ file ∈ entries, (∃ line ∈ feedLines file.text, literal <:+: line) → Comparable literal file) :
    (outputRefusal (rg.output literal reader.maxSearchMatches entries)
        (root.runArgv argv).stdoutOriginalByteCount = none →
      ∃ found, reader.search root readFloat (some executable) literal path = .ok found ∧
        reader.search root readFloat none literal path = .ok found) ∧
    ∀ e, outputRefusal (rg.output literal reader.maxSearchMatches entries)
        (root.runArgv argv).stdoutOriginalByteCount = some e →
      reader.search root readFloat (some executable) literal path = .error e := by
  have hsearched : Searched reader root literal target entries := hdispatched.searched hroot hliteral hcomparable
  have hread : ∀ file ∈ entries, ∃ cut, reader.readFile root file = .ok ⟨file.path, file.text, file.byteCount, cut⟩ :=
    fun file hfile => Reader.readFile_listed (hsearched.listed file hfile) (hfiles file hfile).2 (hfiles file hfile).1
  have hpython : reader.searchWithPython root literal entries =
      .ok ((entries.flatMap (fileMatches literal)).take reader.maxSearchMatches) :=
    Reader.searchFiles_eq entries [] hread reader.searchMatches_pos
  have hrg := @Searched.searchWithRg_eq reader root rg readFloat literal target entries argv hsearched hran
  obtain ⟨hanswer, hrefused⟩ := hrg
  rw [hdispatched.search_some, hdispatched.search_none, hpython]
  constructor
  · intro hrefusal
    rw [hanswer hrefusal, hsearched.reported_capped]
    exact ⟨_, rfl, rfl⟩
  · exact hrefused

end backends

/-! ## Small repositories -/

namespace SmallRoot

def platform : Platform := ⟨false, id⟩

def reader : Reader where
  platform := platform
  secretPaths := []
  managedWorktreePaths := []
  artifactPaths := []
  maxFileBytes := 100
  maxSearchMatches := 2
  maxSearchBytes := 1000
  searchMatches_pos := by decide

def noNotes : Notes where
  members := []
  plain := ⟨List.nodup_nil, trivial⟩
  ascii := fun u hu s hs => by
    rw [parts, List.mem_cons] at hu
    rcases hu with rfl | hu
    · cases hs
    · cases hu

def rg : Ripgrep where
  order := List.reverse
  order_perm := List.reverse_perm
  offset := fun _ _ => 0
  spans := fun _ _ => []
  stats := fun _ => noNotes
  summary := fun _ => noNotes

def literal : Str := codes "needle"

/-- Files with the literal, the process having run over all of them. -/
def process (files : List RepositoryFile) : ProcessResult where
  returnCode := some 0
  stdout := rg.output literal reader.maxSearchMatches files
  stderr := []
  timedOut := false
  stdoutOriginalByteCount := (utf8Length (rg.output literal reader.maxSearchMatches files)).getD 0
  stderrOriginalByteCount := 0
  stdoutTruncated := false
  stderrTruncated := false

def root (files : List RepositoryFile) : Root where
  searchEntries := fun target => if target = codes "." then .ok files else .ok []
  containsPyvenvCfg := fun _ => .ok false
  statFile := fun _ => some true
  runArgv := fun _ => process files

def argv (files : List RepositoryFile) : List Str :=
  match reader.buildRgArgv (codes "rg") literal files with
  | .ok (some argv) => argv
  | _ => []

def file (path text : Str) (named : (utf8Length path).isSome) (encoded : (utf8Length text).isSome) :
    RepositoryFile where
  path := path
  text := text
  byteCount := (utf8Length text).get encoded
  named := named
  encoded := (Option.some_get encoded).symm

/-- Two files, of three lines with the literal altogether. -/
def files : List RepositoryFile :=
  [file (codes "a.txt") (codes "x\r\na needle\r\n") rfl rfl, file (codes "b.txt") (codes "needles\n\nneedle") rfl rfl]

theorem keeps : (root files).Keeps reader := by
  have hfound : ∀ target found, (root files).searchEntries target = .ok found →
      (target = codes "." ∧ found = files) ∨ found = [] := by
    intro target found hfound
    simp only [root] at hfound
    split at hfound
    · next htarget =>
      cases hfound
      exact Or.inl ⟨htarget, rfl⟩
    · cases hfound
      exact Or.inr rfl
  refine ⟨fun target found h => ?_, fun target found h => ?_, fun target found h => ?_⟩ <;>
    rcases hfound target found h with ⟨rfl, rfl⟩ | rfl
  · simp only [files, List.forall_mem_cons]
    exact ⟨⟨by decide +kernel, Or.inl rfl, by decide +kernel, by decide +kernel, rfl⟩,
      ⟨by decide +kernel, Or.inl rfl, by decide +kernel, by decide +kernel, rfl⟩, fun file hfile => absurd hfile List.not_mem_nil⟩
  · exact fun file hfile => absurd hfile List.not_mem_nil
  · decide +kernel
  · exact fun file hfile => absurd hfile List.not_mem_nil
  · decide +kernel
  · exact List.Pairwise.nil

/- What is left to see of a run over given files. -/
theorem dispatched (files : List RepositoryFile)
    (hlisted : reader.boundedSearchEntries (root files) (codes ".") = .ok files) (hnonempty : files ≠ [])
    (hbuilt : reader.buildRgArgv (codes "rg") literal files = .ok (some (argv files))) :
    Dispatched reader (root files) (codes "rg") literal (codes ".") (codes ".") files (argv files) where
  valid := by decide +kernel
  normalized := by decide +kernel
  allowed := rfl
  listed := hlisted
  nonempty := hnonempty
  built := hbuilt

theorem ran (files : List RepositoryFile)
    (hfound : files.all (fun file => (Ripgrep.reported literal reader.maxSearchMatches file).isEmpty) = false)
    (hcount : (utf8Length (rg.output literal reader.maxSearchMatches files)).isSome = true)
    (hshort : ¬ rgStreamBytes < (process files).stdoutOriginalByteCount) :
    rg.Ran literal reader.maxSearchMatches files ((root files).runArgv (argv files)) where
  finished := rfl
  returnCode := by rw [hfound]; rfl
  stdoutCount := (Option.getD_of_ne_none (Option.ne_none_iff_isSome.mpr hcount) 0).symm
  stdoutTruncated := (decide_eq_false hshort).symm
  stdout := fun _ => rfl
  stderr := rfl
  stderrCount := rfl
  stderrTruncated := rfl

/-- A replacement character behind the literal. -/
def replaced : List RepositoryFile := [file (codes "a.txt") (codes "needle" ++ [0xFFFD, 10]) rfl rfl]

/-- A form feed at the end of a line before it. -/
def paged : List RepositoryFile := [file (codes "a.txt") (codes "x\x0c\nneedle\n") rfl rfl]

end SmallRoot

open SmallRoot in
/-- Two files with the literal, more matches than the search answers. -/
theorem backends_agree_small : ∃ found,
    reader.search (root files) some (some (codes "rg")) literal (codes ".") = .ok found ∧
      reader.search (root files) some none literal (codes ".") = .ok found := by
  have hdispatched := dispatched files rfl (by decide) (by decide +kernel)
  have hran := ran files (by decide +kernel) (by decide +kernel) (by decide +kernel)
  have hcomparable : ∀ file ∈ files, (∃ line ∈ feedLines file.text, literal <:+: line) → Comparable literal file := by
    have hboth : ∀ file ∈ files, (∀ c ∈ file.path, 127 ≤ c → isLineBreak c = false) ∧
        Aligned literal (feedLines file.text) := by decide +kernel
    exact fun file hfile _ => ⟨(hboth file hfile).1, (hboth file hfile).2⟩
  have hrefusal : outputRefusal (rg.output literal reader.maxSearchMatches files)
      ((root files).runArgv (argv files)).stdoutOriginalByteCount = none := by decide +kernel
  exact (backends_agree keeps hdispatched hran (by decide +kernel) (by decide +kernel) hcomparable).1 hrefusal

open SmallRoot in
/-- A replacement character makes the output refused, a form feed counts as a line in the Python search only. -/
theorem backends_disagree :
    (rg.Ran literal reader.maxSearchMatches replaced ((root replaced).runArgv (argv replaced)) ∧
      reader.search (root replaced) some (some (codes "rg")) literal (codes ".") = .error Reader.outputInvalid ∧
      reader.search (root replaced) some none literal (codes ".") =
        .ok [⟨codes "a.txt", 1, codes "needle" ++ [0xFFFD]⟩]) ∧
    rg.Ran literal reader.maxSearchMatches paged ((root paged).runArgv (argv paged)) ∧
      reader.search (root paged) some (some (codes "rg")) literal (codes ".") =
        .ok [⟨codes "a.txt", 2, codes "needle"⟩] ∧
      reader.search (root paged) some none literal (codes ".") = .ok [⟨codes "a.txt", 3, codes "needle"⟩] :=
  ⟨⟨ran replaced (by decide +kernel) (by decide +kernel) (by decide +kernel), by decide +kernel, by decide +kernel⟩,
    ran paged (by decide +kernel) (by decide +kernel) (by decide +kernel), by decide +kernel, by decide +kernel⟩

end ParallelForge.Tools
