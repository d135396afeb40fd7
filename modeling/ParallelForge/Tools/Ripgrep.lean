import ParallelForge.Base.PyJsonText
import ParallelForge.Tools.RepositorySearch

/-!
# What `rg --json` prints

Of each file with a match it reports the beginning, a record for every line with the
literal, up to `--max-count` of them, and the end; a summary comes last. A line is what a
line feed ends, or the rest of the file.
-/

namespace ParallelForge.Tools
open Base Agents

/-- The lines with a literal, with their numbers. -/
def matchingLines (literal : Str) : ℕ → List Str → List (ℕ × Str)
  | _, [] => []
  | number, line :: lines =>
    if literal <:+: line then (number, line) :: matchingLines literal (number + 1) lines
    else matchingLines literal (number + 1) lines

/-- An object beside the matches, with strings of ASCII. -/
structure Notes where
  members : List (Str × PyJson)
  plain : PyJson.Plain false (.obj members)
  ascii : ∀ u ∈ PyJson.parts (.obj members), ∀ s ∈ PyJson.texts u, ∀ c ∈ s, c < 127

/-- A run of `rg`: the order of the files, and what it tells besides the lines. -/
structure Ripgrep where
  order : List RepositoryFile → List RepositoryFile
  order_perm : ∀ files, (order files).Perm files
  offset : RepositoryFile → ℕ → Fin (2 ^ 63)
  spans : RepositoryFile → ℕ → List (Fin (2 ^ 63) × Fin (2 ^ 63))
  stats : RepositoryFile → Notes
  summary : List RepositoryFile → Notes

def textField (s : Str) : PyJson := .obj [(codes "text", .str s)]

def record (type : String) (data : List (Str × PyJson)) : PyJson :=
  .obj [(codes "type", .str (codes type)), (codes "data", .obj data)]

namespace Ripgrep
variable (rg : Ripgrep) (literal : Str) (maxCount : ℕ)

def beginRecord (file : RepositoryFile) : PyJson := record "begin" [(codes "path", textField file.path)]

def endRecord (file : RepositoryFile) : PyJson :=
  record "end" [(codes "path", textField file.path), (codes "binary_offset", .null),
    (codes "stats", .obj (rg.stats file).members)]

def summaryRecord (files : List RepositoryFile) : PyJson := record "summary" (rg.summary files).members

def submatch (span : Fin (2 ^ 63) × Fin (2 ^ 63)) : PyJson :=
  .obj [(codes "match", textField literal), (codes "start", .int span.1), (codes "end", .int span.2)]

def matchRecord (file : RepositoryFile) (line : ℕ × Str) : PyJson :=
  record "match" [(codes "path", textField file.path), (codes "lines", textField line.2),
    (codes "line_number", .int line.1), (codes "absolute_offset", .int (rg.offset file line.1)),
    (codes "submatches", .arr ((rg.spans file line.1).map (submatch literal)))]

/-- The lines reported of a file. -/
def reported (file : RepositoryFile) : List (ℕ × Str) :=
  (matchingLines literal 1 (feedLines file.text)).take maxCount

def fileRecords (file : RepositoryFile) : List PyJson :=
  match reported literal maxCount file with
  | [] => []
  | lines => beginRecord file :: (lines.map (rg.matchRecord literal file) ++ [rg.endRecord file])

def records (files : List RepositoryFile) : List PyJson :=
  (rg.order files).flatMap (rg.fileRecords literal maxCount) ++ [rg.summaryRecord files]

/-- The records, one a line. -/
def output (files : List RepositoryFile) : Str :=
  (rg.records literal maxCount files).flatMap fun r => PyJson.render false false r ++ [10]

/-- A process that ran to its end; the stream is cut where it is longer than the bound. -/
structure Ran (files : List RepositoryFile) (result : ProcessResult) : Prop where
  finished : result.timedOut = false
  returnCode : result.returnCode =
    if files.all (fun file => (reported literal maxCount file).isEmpty) = true then some 1 else some 0
  stdoutCount : utf8Length (rg.output literal maxCount files) = some result.stdoutOriginalByteCount
  stdoutTruncated : result.stdoutTruncated = decide (rgStreamBytes < result.stdoutOriginalByteCount)
  stdout : result.stdoutTruncated = false → result.stdout = rg.output literal maxCount files
  stderr : result.stderr = []
  stderrCount : result.stderrOriginalByteCount = 0
  stderrTruncated : result.stderrTruncated = false

end Ripgrep

end ParallelForge.Tools
