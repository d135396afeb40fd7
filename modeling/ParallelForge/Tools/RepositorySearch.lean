import ParallelForge.Agents.StrictJson
import ParallelForge.Base.LineEnds
import ParallelForge.Base.PyJson
import ParallelForge.Policy.Paths
import Mathlib.Algebra.GroupWithZero.Nat
import Mathlib.Data.Prod.Lex

/-!
# Search in a repository (`tools/repository.py`)

A literal is searched line by line in the files of a listing, by `ripgrep` where there is
one, whose output is parsed, or by reading the files. Left out are how the files are listed,
which `Root` answers, and files that are not UTF-8.
-/

namespace ParallelForge.Tools
open Base Policy Agents

/-- A `ValueError`, the `RepositoryError`s, and what is raised for a value without a hash
and for a text that cannot be encoded. -/
inductive RepositoryError
  | value (message : String)
  | pathEscape (message : String)
  | accessDenied (message : String)
  | limitExceeded (message : String)
  | binaryFile
  | unhashable
  | encode
  deriving DecidableEq, Repr

structure SearchMatch where
  path : Str
  lineNumber : ℕ
  lineText : Str
  deriving DecidableEq, Repr

structure FileRead where
  path : Str
  content : Str
  originalByteCount : ℕ
  truncated : Bool

/-- A regular file, with its name and its text in UTF-8. -/
structure RepositoryFile where
  path : Str
  text : Str
  byteCount : ℕ
  named : (utf8Length path).isSome
  encoded : utf8Length text = some byteCount

structure ProcessResult where
  returnCode : Option ℤ
  stdout : Str
  stderr : Str
  timedOut : Bool
  stdoutOriginalByteCount : ℕ
  stderrOriginalByteCount : ℕ
  stdoutTruncated : Bool
  stderrTruncated : Bool

/-- `RepositoryReader`. -/
structure Reader where
  platform : Platform
  secretPaths : List Str
  managedWorktreePaths : List Str
  artifactPaths : List Str
  maxFileBytes : ℕ
  maxSearchMatches : ℕ
  maxSearchBytes : ℕ
  searchMatches_pos : 0 < maxSearchMatches

/-- What a search asks of the file system and of processes. `statFile` has no answer where
access is denied, else it says whether the file is regular. -/
structure Root where
  searchEntries : Str → Except RepositoryError (List RepositoryFile)
  containsPyvenvCfg : Str → Except RepositoryError Bool
  statFile : Str → Option Bool
  runArgv : List Str → ProcessResult

def rgStreamBytes : ℕ := 1024 * 1024
def rgArgMaxBytes : ℕ := 32 * 1024

/-! ## Paths -/

/-- `_relative_parts`. -/
def relativeParts (raw : Str) (allowRoot : Bool) : Except RepositoryError (List Str) :=
  if (raw.contains 0 || raw.contains 92) = true then
    .error (.pathEscape "repository path uses a forbidden separator")
  else if raw = [] then
    if allowRoot = true then .ok [] else .error (.pathEscape "repository path must not be empty")
  else if (raw == codes "." && allowRoot) = true then .ok []
  else if (raw.head? == some 47 || drivePrefix raw) = true then
    .error (.pathEscape "repository paths must be relative")
  else
    let parts := raw.splitOn 47
    if (parts.any fun part => part == [] || part == codes "." || part == codes "..") = true then
      .error (.pathEscape "repository path contains traversal")
    else if (parts.any fun part => part.contains 0 || part.contains 92) = true then
      .error (.pathEscape "repository path uses a forbidden separator")
    else .ok parts

/-- `CanonicalRoot.normalize`. -/
def normalize (value : Str) (allowRoot : Bool) : Except RepositoryError Str :=
  (relativeParts value allowRoot).map fun parts => if parts = [] then codes "." else [47].intercalate parts

/-- `is_hidden_search_path`. -/
def isHiddenSearchPath (path : Str) : Bool :=
  (path.splitOn 47).any fun part => part.head? == some 46 && part != codes ".env.example"

namespace Reader
variable (reader : Reader) (root : Root)

/-- `_path_key`. -/
def pathKey (path : Str) : Str := reader.platform.pathKey path

/-- `CanonicalRoot.matches`. -/
def matchesPath (candidate configured : Str) : Bool :=
  match relativeParts candidate false, relativeParts configured false with
  | .ok candidateParts, .ok configuredParts =>
    (configuredParts.map reader.pathKey).isPrefixOf (candidateParts.map reader.pathKey)
  | _, _ => false

/-- `_is_excluded`. -/
def isExcluded (normalized : Str) : Bool :=
  (normalized.splitOn 47).any (fun part =>
      (reservedRepositoryComponents.map reader.pathKey).contains (reader.pathKey part)) ||
    (reader.managedWorktreePaths ++ reader.artifactPaths).any (reader.matchesPath normalized) ||
      reader.secretPaths.any (reader.matchesPath normalized)

/-- The loop of `_has_virtual_environment_ancestor`. -/
def anyVirtualEnvironment : List Str → Except RepositoryError Bool
  | [] => .ok false
  | parent :: parents => do
    if (← root.containsPyvenvCfg parent) = true then return true
    anyVirtualEnvironment parents

/-- `_has_virtual_environment_ancestor`. -/
def hasVirtualEnvironmentAncestor (normalized : Str) : Except RepositoryError Bool :=
  let parts := normalized.splitOn 47
  anyVirtualEnvironment root
    ((List.range' 1 (parts.length - 1)).map fun index => [47].intercalate (parts.take index))

/-- `_ensure_allowed`, for a direct path. -/
def ensureAllowed (normalized : Str) : Except RepositoryError Unit := do
  if normalized = codes "." then return
  require (¬ reader.secretPaths.any (reader.matchesPath normalized) = true)
    (.accessDenied "secret-designated path is not readable")
  require (¬ reader.isExcluded normalized = true) (.accessDenied "repository path is excluded")
  let environment ← hasVirtualEnvironmentAncestor root normalized
  require (¬ environment = true) (.accessDenied "repository path is excluded")

/-! ## The Python search -/

/-- The bytes of a letter in UTF-8. -/
def utf8Width (c : ℕ) : ℕ := if c < 0x80 then 1 else if c < 0x800 then 2 else if c < 0x10000 then 3 else 4

/-- `_decode_bounded_utf8` of the first bytes of a text. -/
def boundedText : ℕ → Str → Str
  | _, [] => []
  | n, c :: s => if utf8Width c ≤ n then c :: boundedText (n - utf8Width c) s else []

/-- `read_file`. -/
def readFile (file : RepositoryFile) : Except RepositoryError FileRead := do
  let normalized ← normalize file.path false
  reader.ensureAllowed root normalized
  let content := boundedText reader.maxFileBytes file.text
  require (0 ∉ content) .binaryFile
  return ⟨normalized, content, file.byteCount, decide (reader.maxFileBytes < file.byteCount)⟩

/-- The inner loop of `_search_with_python`, with the number of the next line. -/
def searchLines (literal path : Str) : ℕ → List Str → List SearchMatch → List SearchMatch
  | _, [], found => found
  | number, line :: lines, found =>
    if literal <:+: line then
      let found := found ++ [SearchMatch.mk path number line]
      if reader.maxSearchMatches ≤ found.length then found
      else searchLines literal path (number + 1) lines found
    else searchLines literal path (number + 1) lines found

/-- The outer one; it is left where the inner one has found enough. -/
def searchFiles (literal : Str) : List RepositoryFile → List SearchMatch → Except RepositoryError (List SearchMatch)
  | [], found => .ok found
  | file :: files, found =>
    match reader.readFile root file with
    | .error .binaryFile => searchFiles literal files found
    | .error e => .error e
    | .ok result =>
      let found := reader.searchLines literal result.path 1 (splitlines result.content) found
      if reader.maxSearchMatches ≤ found.length then .ok found else searchFiles literal files found

/-- `_search_with_python`. -/
def searchWithPython (literal : Str) (entries : List RepositoryFile) :
    Except RepositoryError (List SearchMatch) :=
  reader.searchFiles root literal entries []

/-! ## The search with `rg` -/

/-- `_entry_sort_key`, with the number of the line. -/
def sortKey (found : SearchMatch) : (Str ×ₗ Str) ×ₗ ℕ :=
  toLex (toLex (reader.pathKey found.path, found.path), found.lineNumber)

def sortLe (a b : SearchMatch) : Prop := reader.sortKey a ≤ reader.sortKey b

instance : DecidableRel reader.sortLe := fun a b =>
  inferInstanceAs (Decidable (reader.sortKey a ≤ reader.sortKey b))

def outputInvalid : RepositoryError := .accessDenied "repository search output is invalid"

/-- `_rg_text_field`. -/
def rgTextField : Option PyJson → Except RepositoryError Str
  | some (.obj [(key, .str text)]) =>
    if key = codes "text" ∧ text ≠ [] then .ok text else .error outputInvalid
  | _ => .error outputInvalid

/-- The check of `line_number`. -/
def lineNumberField : Option PyJson → Except RepositoryError ℕ
  | some (.int n) => if 0 < n then .ok n.toNat else .error outputInvalid
  | _ => .error outputInvalid

/-- The key of `records`. -/
def recordKey (found : SearchMatch) : Str × ℕ := (reader.pathKey found.path, found.lineNumber)

/-- `records[key] = match`, where a prior match has the same text. -/
def addRecord (records : List SearchMatch) (found : SearchMatch) : Except RepositoryError (List SearchMatch) :=
  match records.find? fun prior => reader.recordKey prior = reader.recordKey found with
  | none => .ok (records ++ [found])
  | some prior =>
    if prior.lineText ≠ found.lineText then .error outputInvalid
    else .ok (records.map fun other => if reader.recordKey other = reader.recordKey found then found else other)

/-- A record of the type `match` in the loop of `_parse_rg_output`. -/
def parseMatch (literal target : Str) (entries : List RepositoryFile) (data : List (Str × PyJson)) :
    Except RepositoryError SearchMatch := do
  let path ← rgTextField (PyJson.get data (codes "path"))
  let lineText ← rgTextField (PyJson.get data (codes "lines"))
  let lineNumber ← lineNumberField (PyJson.get data (codes "line_number"))
  let lineText := stripEnd lineText
  require (13 ∉ lineText ∧ 10 ∉ lineText ∧ literal <:+: lineText) outputInvalid
  let normalized ← (normalize path false).mapError fun _ =>
    .accessDenied "repository search returned an invalid path"
  require (reader.pathKey normalized ∈ entries.map (fun entry => reader.pathKey entry.path) ∧
      (target = codes "." ∨ reader.matchesPath normalized target = true) ∧
      ¬ isHiddenSearchPath normalized = true ∧ ¬ reader.isExcluded normalized = true)
    (.accessDenied "repository search returned a forbidden path")
  let environment ← hasVirtualEnvironmentAncestor root normalized
  require (¬ environment = true) (.accessDenied "repository search returned a forbidden path")
  let regular ← orRaise (root.statFile normalized)
    (.accessDenied "repository search returned an unavailable path")
  require (regular = true) (.accessDenied "repository search returned a non-file path")
  return ⟨normalized, lineNumber, lineText⟩

variable (readFloat : Json.FloatText → Option Json.FloatText)

/-- A turn of the loop of `_parse_rg_output`. -/
def parseLine (literal target : Str) (entries : List RepositoryFile) (records : List SearchMatch) (line : Str) :
    Except RepositoryError (List SearchMatch) := do
  require (stripText line ≠ []) outputInvalid
  match PyJson.loads readFloat line with
  | some (.obj record) =>
    match PyJson.get record (codes "type") with
    | some (.str type) =>
      if type ∈ [codes "begin", codes "end", codes "summary"] then return records
      require (type = codes "match") outputInvalid
      match PyJson.get record (codes "data") with
      | some (.obj data) => reader.addRecord records (← reader.parseMatch root literal target entries data)
      | _ => .error outputInvalid
    | some (.arr _) => .error .unhashable
    | some (.obj _) => .error .unhashable
    | _ => .error outputInvalid
  | _ => .error outputInvalid

/-- `_parse_rg_output`. -/
def parseRgOutput (output literal target : Str) (entries : List RepositoryFile) :
    Except RepositoryError (List SearchMatch) := do
  require (0xFFFD ∉ output) outputInvalid
  let records ← (splitlines output).foldlM (reader.parseLine root readFloat literal target entries) []
  return records.insertionSort reader.sortLe

/-- `_search_with_rg`. -/
def searchWithRg (argv : List Str) (literal target : Str) (entries : List RepositoryFile) :
    Except RepositoryError (List SearchMatch) := do
  let result := root.runArgv argv
  require (¬ (result.timedOut = true ∨ result.stdoutTruncated = true ∨ result.stderrTruncated = true ∨
      rgStreamBytes < result.stdoutOriginalByteCount ∨ rgStreamBytes < result.stderrOriginalByteCount))
    (.accessDenied "repository search failed")
  require (result.returnCode = some 0 ∨ result.returnCode = some 1) (.accessDenied "repository search failed")
  require (¬ (result.returnCode = some 1 ∧ stripText result.stderr ≠ []))
    (.accessDenied "repository search failed")
  if stripText result.stdout = [] then
    if result.returnCode = some 1 then return []
    throw outputInvalid
  require (result.stdout.getLast? = some 10) (.accessDenied "repository search output is incomplete")
  let found ← reader.parseRgOutput root readFloat result.stdout literal target entries
  require (¬ (result.returnCode = some 1 ∧ found ≠ []))
    (.accessDenied "repository search output contradicts exit status")
  return found.take reader.maxSearchMatches

/-! ## The choice -/

/-- `_validate_search_literal`. -/
def validateSearchLiteral (literal : Str) : Except RepositoryError Unit :=
  if literal = [] ∨ 0 ∈ literal ∨ (utf8Length literal).isNone then
    .error (.value "search literal must be nonempty UTF-8 text")
  else .ok ()

/-- The loop of `_bounded_search_entries`. -/
def boundBytes : List RepositoryFile → ℕ → Except RepositoryError Unit
  | [], _ => .ok ()
  | entry :: entries, inspected => do
    let candidate := min entry.byteCount reader.maxFileBytes
    require (inspected + candidate ≤ reader.maxSearchBytes)
      (.limitExceeded "repository search exceeded its byte bound")
    boundBytes entries (inspected + candidate)

/-- `_bounded_search_entries`. -/
def boundedSearchEntries (normalized : Str) : Except RepositoryError (List RepositoryFile) := do
  let listed ← root.searchEntries normalized
  let entries := listed.filter fun entry => !isHiddenSearchPath entry.path
  reader.boundBytes entries 0
  return entries

/-- `_escape_rg_glob`. -/
def escapeRgGlob (value : Str) : Str :=
  value.flatMap fun c => if c ∈ codes "\\*?[]\x7b\x7d" then [92, c] else [c]

/-- `_rg_glob_exclusions`. -/
def rgGlobExclusions : List Str :=
  let fixed := reservedRepositoryComponents.flatMap fun component =>
    let escaped := escapeRgGlob component
    [escaped, codes "**/" ++ escaped]
  let configured :=
    (reader.secretPaths ++ reader.managedWorktreePaths ++ reader.artifactPaths).map escapeRgGlob
  let patterns := (fixed ++ configured).flatMap fun pattern =>
    [codes "!" ++ pattern, codes "!" ++ pattern ++ codes "/**"]
  patterns.dedup.insertionSort (· ≤ ·)

/-- `_build_rg_argv`; it has no answer where the arguments are too long. -/
def buildRgArgv (executable literal : Str) (entries : List RepositoryFile) :
    Except RepositoryError (Option (List Str)) := do
  let options := ["--fixed-strings", "--json", "--no-hidden", "--no-ignore", "--sort", "path",
    "--max-count"].map codes
  let globs := reader.rgGlobExclusions.flatMap fun exclusion => [codes "--glob", exclusion]
  let argv := [executable] ++ options ++ [Json.decimal reader.maxSearchMatches] ++ globs ++
    [codes "--", literal] ++ entries.map RepositoryFile.path
  let sizes ← argv.mapM fun argument => orRaise (utf8Length argument) .encode
  if rgArgMaxBytes < (sizes.map fun size => size + 1).sum then return none
  return some argv

/-- `search`; `executable` is what `_select_rg_executable` returns. -/
def search (executable : Option Str) (literal path : Str) : Except RepositoryError (List SearchMatch) := do
  validateSearchLiteral literal
  let normalized ← normalize path true
  reader.ensureAllowed root normalized
  let entries ← reader.boundedSearchEntries root normalized
  if entries.isEmpty = true then return []
  match executable with
  | none => reader.searchWithPython root literal entries
  | some executable =>
    match ← reader.buildRgArgv executable literal entries with
    | none => reader.searchWithPython root literal entries
    | some argv => reader.searchWithRg root readFloat argv literal normalized entries

end Reader

end ParallelForge.Tools
