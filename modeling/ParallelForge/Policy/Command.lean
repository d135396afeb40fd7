import ParallelForge.Base.Json
import ParallelForge.Base.Result
import ParallelForge.Redaction.Patterns
import Mathlib.Data.List.Dedup
import Mathlib.Data.List.DropRight
import Mathlib.Data.List.Sort
import Mathlib.Data.List.ReduceOption

/-!
# The command registry (`domain/policy.py`)

A command is an exact argument vector without shell syntax. One with a path scope
runs on the owned paths below its prefixes; the paths are selected, checked again
when the command is derived, and the derived command is validated like any other.
-/

namespace ParallelForge.Policy
open Base Redaction

/-- `[\r\n;&|$()<>]` and the backtick. -/
def isShellMeta (c : ℕ) : Bool := (codes "\r\n;&|$`()<>").contains c

def isAsciiLetter (c : ℕ) : Bool := (65 ≤ c && c ≤ 90) || (97 ≤ c && c ≤ 122)

/-- `str.casefold` of a letter, if that is ASCII; any other letter stays, and so does
not equal an ASCII word either way. -/
def foldLetter (c : ℕ) : Str :=
  if 65 ≤ c && c ≤ 90 then [c + 32]
  else if c == 0x17F then [115]
  else if c == 0x212A then [107]
  else if c == 0xDF || c == 0x1E9E then codes "ss"
  else if c == 0xFB00 then codes "ff"
  else if c == 0xFB01 then codes "fi"
  else if c == 0xFB02 then codes "fl"
  else if c == 0xFB03 then codes "ffi"
  else if c == 0xFB04 then codes "ffl"
  else if c == 0xFB05 || c == 0xFB06 then codes "st"
  else [c]

def casefold (s : Str) : Str := s.flatMap foldLetter

def isBlank (s : Str) : Bool := s.all isSpaceCode

def shellWrappers : List Str :=
  ["bash", "cmd", "cmd.exe", "dash", "fish", "ksh", "powershell", "powershell.exe", "pwsh",
    "pwsh.exe", "sh", "zsh"].map codes

def shellWrapperFlags : List Str :=
  ["-c", "--command", "-command", "/c", "/k", "/command", "/encodedcommand",
    "-encodedcommand"].map codes

def maxCommandTimeoutSeconds : ℤ := 7200

inductive StepKind
  | bootstrap
  | install
  | migration
  | seed
  | test
  | lint
  | typecheck
  | build
  | custom
  deriving DecidableEq, Repr

/-! ## Path scopes -/

/-- `[A-Za-z0-9_.]`. -/
def isPathHead (c : ℕ) : Bool := isAsciiLetter c || Json.isDigit c || c == 95 || c == 46

/-- Besides `[A-Za-z0-9_.]`, a slash or a hyphen. -/
def isPathLetter (c : ℕ) : Bool := isPathHead c || c == 47 || c == 45

/-- `_SCOPED_PATH` as a full match. -/
def scopedPath : Str → Bool
  | [] => false
  | c :: s => isPathHead c && s.all isPathLetter

/-- `_safe_relative_path`. -/
def safeRelativePath (value : Str) : Bool :=
  scopedPath value &&
    !((codes "/").isPrefixOf value || (codes "-").isPrefixOf value || (codes "./").isPrefixOf value) &&
    !(value.splitOn 47).contains (codes "..") && !decide (codes "//" <:+: value)

/-- `s.rstrip("/")`. -/
def rstripSlash (s : Str) : Str := s.rdropWhile (· == 47)

inductive PolicyError
  | unsafePrefix
  | duplicatePrefix
  | noScope
  | tooManyPaths
  | outsideScope
  | invalid (fields : List String)
  deriving DecidableEq, Repr

def PolicyError.message : PolicyError → String
  | unsafePrefix => "path scope prefixes must be safe relative directories"
  | duplicatePrefix => "path scope prefixes must be unique"
  | noScope => "command has no path scope"
  | tooManyPaths => "focused check covers more owned paths than its scope allows"
  | outsideScope => "focused check paths are outside its scope"
  | invalid fields => String.intercalate "\n" fields

def normalizePrefix (directory : Str) : Except PolicyError Str :=
  if safeRelativePath (rstripSlash directory) then .ok (rstripSlash directory ++ [47])
  else .error .unsafePrefix

/-- `prefixes_must_be_relative_directories`. -/
def normalizePrefixes (value : List Str) : Except PolicyError (List Str) := do
  let normalized ← value.mapM normalizePrefix
  require normalized.Nodup .duplicatePrefix
  .ok normalized

theorem rstripSlash_slash (s : Str) : rstripSlash (rstripSlash s ++ [47]) = rstripSlash s := by
  unfold rstripSlash
  rw [List.rdropWhile_concat_pos _ _ _ (by decide), List.rdropWhile_idempotent]

theorem normalizePrefix_again (directory normal : Str) (h : normalizePrefix directory = .ok normal) :
    normalizePrefix normal = .ok normal := by
  unfold normalizePrefix at h
  split at h
  · next hsafe =>
    cases h
    unfold normalizePrefix
    rw [rstripSlash_slash, if_pos hsafe]
  · cases h

theorem normalizePrefixes_again (value normalized : List Str)
    (h : normalizePrefixes value = .ok normalized) :
    normalizePrefixes normalized = .ok normalized := by
  simp only [normalizePrefixes, bind_eq_ok, mapM_eq_ok] at h ⊢
  obtain ⟨result, hresult, u, hnodup, hok⟩ := h
  cases hok
  refine ⟨normalized, List.forall₂_same.mpr fun normal hnormal => ?_, u, hnodup, rfl⟩
  obtain ⟨directory, -, hdirectory⟩ := forall₂_exists hresult normal hnormal
  exact normalizePrefix_again directory normal hdirectory

/-- `CommandPathScope`: its prefixes are what its validator makes of them. -/
structure CommandPathScope where
  prefixes : List Str
  maxPaths : ℕ := 64
  normal : normalizePrefixes prefixes = .ok prefixes
  bounds : (1 ≤ prefixes.length && prefixes.length ≤ 16 && 1 ≤ maxPaths && maxPaths ≤ 256) = true

/-- `CommandPathScope.model_validate`, if the bounds of the fields hold. -/
def CommandPathScope.make (prefixes : List Str) (maxPaths : ℕ) : Except PolicyError CommandPathScope :=
  match h : normalizePrefixes prefixes with
  | .error e => .error e
  | .ok normalized =>
    if hb : (1 ≤ normalized.length && normalized.length ≤ 16 && 1 ≤ maxPaths && maxPaths ≤ 256) = true then
      .ok ⟨normalized, maxPaths, normalizePrefixes_again prefixes normalized h, hb⟩
    else .error (.invalid ["prefixes or max_paths out of bounds"])

def CommandPathScope.covers (scope : CommandPathScope) (path : Str) : Bool :=
  safeRelativePath path &&
    scope.prefixes.any fun directory => directory.isPrefixOf path || path ++ [47] == directory

/-! ## Commands -/

structure CommandFields where
  kind : StepKind
  name : Str
  argv : List Str
  timeoutSeconds : ℤ
  required : Bool := true
  networkEnabled : Bool := false
  environmentKeys : List Str := []
  pathScope : Option CommandPathScope := none

/-- The field constraint of `name`, then `name_must_not_be_blank`. -/
def nameError (value : Str) : Option String :=
  if value = [] then some "String should have at least 1 character"
  else if isBlank value then some "command name must not be blank"
  else if value.any isShellMeta then some "command name must not contain shell metacharacters"
  else none

/-- The last component of the first argument, where a backslash separates too. -/
def executable (argument : Str) : Str :=
  ((argument.map fun c => if c = 92 then 47 else c).reverse.takeWhile (· != 47)).reverse

/-- The field constraint of `argv`, then `argv_must_be_direct_and_nonempty`. -/
def argvError (value : List Str) : Option String :=
  match value with
  | [] => some "Tuple should have at least 1 item after validation, not 0"
  | first :: rest =>
    if value.any isBlank then some "argv entries must not be blank"
    else if value.any fun argument => argument.any isShellMeta then
      some "argv must not contain shell metacharacters"
    else if shellWrappers.contains (casefold (executable first)) then
      some "shell wrapper commands are not permitted"
    else if rest.any fun argument => shellWrapperFlags.contains (casefold argument) then
      some "shell wrapper flags are not permitted"
    else none

def timeoutError (value : ℤ) : Option String :=
  if value < 1 then some "Input should be greater than or equal to 1"
  else if maxCommandTimeoutSeconds < value then some "Input should be less than or equal to 7200"
  else none

/-- `_ENVIRONMENT_KEY` as a full match. -/
def isEnvironmentKey : Str → Bool
  | [] => false
  | c :: s => (isAsciiLetter c || c == 95) && s.all fun d => isAsciiLetter d || Json.isDigit d || d == 95

def environmentKeysError (value : List Str) : Option String :=
  if ¬ value.Nodup then some "environment_keys must not contain duplicates"
  else if !value.all isEnvironmentKey then some "environment_keys must contain environment variable names"
  else none

/-- The errors of a validation, one a field. -/
def CommandFields.errors (c : CommandFields) : List String :=
  [nameError c.name, argvError c.argv, timeoutError c.timeoutSeconds,
    environmentKeysError c.environmentKeys].reduceOption

/-- `CommandSpec`: fields without an error. -/
structure CommandSpec extends CommandFields where
  valid : toCommandFields.errors = []

/-- `CommandSpec.model_validate`. -/
def CommandFields.validate (c : CommandFields) : Except PolicyError CommandSpec :=
  if h : c.errors = [] then .ok ⟨c, h⟩ else .error (.invalid c.errors)

/-- `scoped_check_paths`. -/
def scopedCheckPaths (command : CommandSpec) (ownedPaths : List Str) : Except PolicyError (List Str) :=
  match command.pathScope with
  | none => .error .noScope
  | some scope => do
    let selected := (ownedPaths.filter scope.covers).dedup.insertionSort (· ≤ ·)
    require (selected.length ≤ scope.maxPaths) .tooManyPaths
    .ok selected

/-- `scoped_command`. -/
def scopedCommand (command : CommandSpec) (paths : List Str) : Except PolicyError CommandSpec :=
  match command.pathScope with
  | none => .error .outsideScope
  | some scope =>
    if paths = [] ∨ scope.maxPaths < paths.length ∨ ¬ paths.Nodup ∨
        paths ≠ paths.insertionSort (· ≤ ·) ∨ ¬ paths.all scope.covers then
      .error .outsideScope
    else { command.toCommandFields with argv := command.argv ++ paths, pathScope := none }.validate

/-! ## The paths of a derived command -/

theorem CommandSpec.validate_fields (command : CommandSpec) :
    command.toCommandFields.validate = .ok command := by
  unfold CommandFields.validate
  rw [dif_pos command.valid]

theorem safeRelativePath_head {path : Str} (h : safeRelativePath path = true) :
    ∃ c s, path = c :: s ∧ isPathHead c = true ∧ s.all isPathLetter = true := by
  cases path with
  | nil => simp [safeRelativePath, scopedPath] at h
  | cons c s =>
    simp only [safeRelativePath, scopedPath, Bool.and_eq_true] at h
    exact ⟨c, s, rfl, h.1.1.1⟩

theorem safeRelativePath_components {path : Str} (h : safeRelativePath path = true) :
    codes ".." ∉ path.splitOn 47 := by
  simp only [safeRelativePath, Bool.and_eq_true, Bool.not_eq_true', List.contains_eq_mem,
    decide_eq_false_iff_not] at h
  exact h.1.2

theorem isPathHead_letter {c : ℕ} (h : isPathHead c = true) : isPathLetter c = true := by
  simp [isPathLetter, h]

theorem isPathLetter_plain {c : ℕ} (h : isPathLetter c = true) : isShellMeta c = false := by
  have hmeta : ∀ d ∈ codes "\r\n;&|$`()<>", isPathLetter d = false := by decide
  by_contra hc
  rw [Bool.not_eq_false, isShellMeta, List.contains_eq_mem, decide_eq_true_eq] at hc
  rw [hmeta c hc] at h
  cases h

theorem isPathHead_solid {c : ℕ} (h : isPathHead c = true) : isSpaceCode c = false := by
  by_contra hc
  simp only [isPathHead, isAsciiLetter, Json.isDigit, Bool.or_eq_true, Bool.and_eq_true,
    decide_eq_true_eq, beq_iff_eq] at h
  simp only [Bool.not_eq_false, isSpaceCode, Bool.or_eq_true, Bool.and_eq_true, decide_eq_true_eq,
    beq_iff_eq] at hc
  omega

/- A path does not start as a flag does, in either case of its letters. -/
theorem casefold_head {c : ℕ} (s : Str) (h : isPathHead c = true) :
    ∃ d t, casefold (c :: s) = d :: t ∧ d ≠ 45 ∧ d ≠ 47 := by
  simp only [isPathHead, isAsciiLetter, Json.isDigit, Bool.or_eq_true, Bool.and_eq_true,
    decide_eq_true_eq, beq_iff_eq] at h
  by_cases hupper : 65 ≤ c ∧ c ≤ 90
  · refine ⟨c + 32, casefold s, ?_, by omega, by omega⟩
    simp [casefold, foldLetter, hupper]
  · have hfold : foldLetter c = [c] := by
      unfold foldLetter
      simp only [Bool.and_eq_true, Bool.or_eq_true, decide_eq_true_eq, beq_iff_eq, if_neg hupper]
      repeat rw [if_neg (by omega)]
    exact ⟨c, casefold s, by simp [casefold, hfold], by omega, by omega⟩

theorem casefold_not_flag {path : Str} (h : safeRelativePath path = true) :
    casefold path ∉ shellWrapperFlags := by
  obtain ⟨c, s, rfl, hc, -⟩ := safeRelativePath_head h
  obtain ⟨d, t, hfold, hhyphen, hslash⟩ := casefold_head s hc
  have hflags : ∀ flag ∈ shellWrapperFlags, flag.head? = some 45 ∨ flag.head? = some 47 := by decide
  intro hmem
  rw [hfold] at hmem
  rcases hflags _ hmem with hd | hd
  · exact hhyphen (Option.some.inj hd)
  · exact hslash (Option.some.inj hd)

/- What an argument vector without an error is. -/
theorem argvError_eq_none (first : Str) (rest : List Str) :
    argvError (first :: rest) = none ↔
      (∀ argument ∈ first :: rest, isBlank argument = false) ∧
      (∀ argument ∈ first :: rest, argument.any isShellMeta = false) ∧
      casefold (executable first) ∉ shellWrappers ∧
      ∀ argument ∈ rest, casefold argument ∉ shellWrapperFlags := by
  simp only [argvError]
  split
  · next h =>
    obtain ⟨a, ha, hblank⟩ := List.any_eq_true.mp h
    exact ⟨nofun, fun hall => absurd (hall.1 a ha) (by simp [hblank])⟩
  next hblank =>
  split
  · next h =>
    obtain ⟨a, ha, hmeta⟩ := List.any_eq_true.mp h
    exact ⟨nofun, fun hall => absurd (hall.2.1 a ha) (by simp [hmeta])⟩
  next hmeta =>
  split
  · next h => exact ⟨nofun, fun hall => absurd (by simpa using h) hall.2.2.1⟩
  next hwrapper =>
  split
  · next h =>
    obtain ⟨a, ha, hflag⟩ := List.any_eq_true.mp h
    exact ⟨nofun, fun hall => absurd (by simpa using hflag) (hall.2.2.2 a ha)⟩
  next hflag =>
  rw [Bool.not_eq_true, List.any_eq_false] at hblank hmeta hflag
  refine ⟨fun _ => ⟨fun a ha => ?_, fun a ha => ?_, ?_, fun a ha => ?_⟩, fun _ => rfl⟩
  · simpa using hblank a ha
  · simpa using hmeta a ha
  · simpa using hwrapper
  · simpa using hflag a ha

/- Safe paths pass the checks of an argument behind the first. -/
theorem argvError_append {argv paths : List Str} (hargv : argvError argv = none)
    (hpaths : ∀ path ∈ paths, safeRelativePath path = true) : argvError (argv ++ paths) = none := by
  cases argv with
  | nil => cases hargv
  | cons first rest =>
    obtain ⟨hblank, hmeta, hwrapper, hflag⟩ := (argvError_eq_none first rest).mp hargv
    rw [List.cons_append, argvError_eq_none]
    refine ⟨fun a ha => ?_, fun a ha => ?_, hwrapper, fun a ha => ?_⟩
    · rcases List.mem_append.mp ((List.cons_append).symm ▸ ha) with ha | ha
      · exact hblank a ha
      · obtain ⟨c, s, rfl, hc, -⟩ := safeRelativePath_head (hpaths a ha)
        simp [isBlank, isPathHead_solid hc]
    · rcases List.mem_append.mp ((List.cons_append).symm ▸ ha) with ha | ha
      · exact hmeta a ha
      · obtain ⟨c, s, rfl, hc, hs⟩ := safeRelativePath_head (hpaths a ha)
        rw [List.any_eq_false]
        intro d hd
        rw [Bool.not_eq_true]
        rcases List.mem_cons.mp hd with rfl | hd
        · exact isPathLetter_plain (isPathHead_letter hc)
        · exact isPathLetter_plain (List.all_eq_true.mp hs d hd)
    · rcases List.mem_append.mp ha with ha | ha
      · exact hflag a ha
      · exact casefold_not_flag (hpaths a ha)

theorem errors_eq_nil (c : CommandFields) : c.errors = [] ↔
    nameError c.name = none ∧ argvError c.argv = none ∧ timeoutError c.timeoutSeconds = none ∧
      environmentKeysError c.environmentKeys = none := by
  unfold CommandFields.errors
  cases nameError c.name <;> cases argvError c.argv <;> cases timeoutError c.timeoutSeconds <;>
    cases environmentKeysError c.environmentKeys <;> simp

/-! ## Selection and derivation -/

theorem scopedCheckPaths_eq_ok (command : CommandSpec) (ownedPaths selected : List Str)
    (h : scopedCheckPaths command ownedPaths = .ok selected) :
    ∃ scope, command.pathScope = some scope ∧ selected.length ≤ scope.maxPaths ∧
      selected = (ownedPaths.filter scope.covers).dedup.insertionSort (· ≤ ·) := by
  unfold scopedCheckPaths at h
  cases hscope : command.pathScope with
  | none =>
    rw [hscope] at h
    cases h
  | some scope =>
    rw [hscope] at h
    simp only [require_bind_eq_ok] at h
    obtain ⟨hle, hok⟩ := h
    cases hok
    exact ⟨scope, rfl, hle, rfl⟩

/- A list without repetitions, in order. -/
theorem sorted_dedup (l : List Str) :
    (l.dedup.insertionSort (· ≤ ·)).Nodup ∧ (l.dedup.insertionSort (· ≤ ·)).Pairwise (· ≤ ·) ∧
      ∀ a, a ∈ l.dedup.insertionSort (· ≤ ·) ↔ a ∈ l := by
  refine ⟨?_, List.pairwise_insertionSort _ _, fun a => ?_⟩
  · exact (List.perm_insertionSort _ _).nodup_iff.mpr (List.nodup_dedup l)
  · rw [List.mem_insertionSort, List.mem_dedup]

/-- The paths that the selection finds are those that the derivation accepts, and the
derived command is valid: it runs the original arguments and then the covered paths. -/
theorem scoped_checks_agree (command : CommandSpec) (ownedPaths selected : List Str)
    (h : scopedCheckPaths command ownedPaths = .ok selected) (hne : selected ≠ []) :
    ∃ scope spec, command.pathScope = some scope ∧ scopedCommand command selected = .ok spec ∧
      spec.argv = command.argv ++ selected ∧
      (selected.Nodup ∧ selected.Pairwise (· ≤ ·) ∧
        ∀ path, path ∈ selected ↔ path ∈ ownedPaths ∧ scope.covers path = true) ∧
      (∀ path ∈ selected, codes ".." ∉ path.splitOn 47 ∧
        ∃ directory ∈ scope.prefixes, directory <+: path ∨ path ++ [47] = directory) ∧
      spec.toCommandFields.validate = .ok spec := by
  obtain ⟨scope, hscope, hle, hselected⟩ := scopedCheckPaths_eq_ok command ownedPaths selected h
  have hsorted := sorted_dedup (ownedPaths.filter scope.covers)
  rw [← hselected] at hsorted
  obtain ⟨hnodup, hpairwise, hmem⟩ := hsorted
  have hcovered : ∀ path ∈ selected, scope.covers path = true :=
    fun path hp => (List.mem_filter.mp ((hmem path).mp hp)).2
  have hsafe : ∀ path ∈ selected, safeRelativePath path = true := by
    intro path hp
    have hcovers := hcovered path hp
    rw [CommandPathScope.covers, Bool.and_eq_true] at hcovers
    exact hcovers.1
  obtain ⟨hname, hargv, htimeout, hkeys⟩ := (errors_eq_nil _).mp command.valid
  let derived : CommandFields :=
    { command.toCommandFields with argv := command.argv ++ selected, pathScope := none }
  have hvalid : derived.errors = [] :=
    (errors_eq_nil derived).mpr ⟨hname, argvError_append hargv hsafe, htimeout, hkeys⟩
  have hspec : scopedCommand command selected = .ok ⟨derived, hvalid⟩ := by
    have hguard : ¬ (selected = [] ∨ scope.maxPaths < selected.length ∨ ¬ selected.Nodup ∨
        selected ≠ selected.insertionSort (· ≤ ·) ∨ ¬ selected.all scope.covers) := by
      have hsame := hpairwise.insertionSort_eq
      simp only [not_or, not_not, not_lt]
      exact ⟨hne, hle, hnodup, hsame.symm, List.all_eq_true.mpr hcovered⟩
    unfold scopedCommand
    rw [hscope]
    simp only [if_neg hguard]
    exact dif_pos hvalid
  refine ⟨scope, _, hscope, hspec, rfl, ⟨hnodup, hpairwise, fun path => ?_⟩, fun path hp => ⟨?_, ?_⟩, ?_⟩
  · rw [hmem, List.mem_filter]
  · exact safeRelativePath_components (hsafe path hp)
  · have hcovers := hcovered path hp
    simp only [CommandPathScope.covers, Bool.and_eq_true, List.any_eq_true, Bool.or_eq_true,
      beq_iff_eq, List.isPrefixOf_iff_prefix] at hcovers
    exact hcovers.2
  · exact CommandSpec.validate_fields _

/-- A check of two directories. -/
def focusedCheck : CommandSpec where
  kind := .test
  name := codes "unit"
  argv := [codes "pytest", codes "-q"]
  timeoutSeconds := 60
  pathScope := some ⟨[codes "src/", codes "tests/"], 64, rfl, rfl⟩
  valid := rfl

theorem scoped_checks_agree_focused :
    ∃ spec, scopedCommand focusedCheck [codes "src/a.py", codes "tests"] = .ok spec ∧
      spec.argv = [codes "pytest", codes "-q", codes "src/a.py", codes "tests"] := by
  obtain ⟨_, spec, -, hspec, hargv, -⟩ := scoped_checks_agree focusedCheck
    [codes "tests", codes "docs/b.md", codes "src/a.py", codes "tests", codes "src/../c.py"]
    [codes "src/a.py", codes "tests"] (by decide) (by decide)
  exact ⟨spec, hspec, hargv⟩

end ParallelForge.Policy
