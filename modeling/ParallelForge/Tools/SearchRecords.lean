import ParallelForge.Tools.Ripgrep

/-!
# The records of `rg` are read back

A record without line breaks of its own is a line of the output, and reading it gives what
was written. A match of a file of the listing is added to the records, the other records
are passed over.
-/

namespace ParallelForge.Tools
open Base Agents PyJson

/-- No letter from 127 on ends a line. -/
def Unbroken (s : Str) : Prop := ∀ c ∈ s, 127 ≤ c → isLineBreak c = false

/-- A value that `rg` prints on a line of its own. -/
structure Clean (v : PyJson) : Prop where
  plain : Plain false v
  unbroken : ∀ u ∈ parts v, ∀ s ∈ texts u, Unbroken s

theorem unbroken_ascii {s : Str} (h : ∀ c ∈ s, c < 127) : Unbroken s := by
  intro c hc hwide
  have hlt := h c hc
  omega

theorem Clean.line {v : PyJson} (h : Clean v) : ∀ c ∈ render false false v, isLineBreak c = false := by
  have hletter : ∀ c, 32 ≤ c → c < 127 → isLineBreak c = false := by
    intro c hlo hhi
    simp only [isLineBreak, Bool.or_eq_false_iff, Bool.and_eq_false_iff, decide_eq_false_iff_not, beq_eq_false_iff_ne]
    omega
  apply render_all (fun c hc => hletter c hc.1 hc.2.1) v h.plain
  intro u hu s hs c hc
  rcases stringText_open s c hc with ⟨hlo, hhi⟩ | ⟨hmem, hwide⟩
  · exact hletter c hlo hhi
  · exact h.unbroken u hu s hs c hmem hwide

theorem clean_str {s : Str} (htext : isText s) (hs : Unbroken s) : Clean (.str s) := by
  refine ⟨htext, fun u hu t ht => ?_⟩
  rw [parts, List.mem_singleton] at hu
  rw [hu, texts, List.mem_singleton] at ht
  rw [ht]
  exact hs

theorem clean_null : Clean .null := by
  refine ⟨trivial, fun u hu t ht => ?_⟩
  rw [parts, List.mem_singleton] at hu
  rw [hu] at ht
  cases ht

theorem decimal_length {n : ℕ} (h : n < 2 ^ 63) : (Json.decimal n).length ≤ Json.digitLimit := by
  have hdigits : (Nat.toDigits 10 n).length ≤ 19 := by
    rw [Nat.length_toDigits_le_iff (by decide) (by decide)]
    omega
  rw [Json.decimal, List.length_map, Json.digitLimit]
  omega

theorem clean_int {n : ℕ} (h : n < 2 ^ 63) : Clean (.int n) := by
  refine ⟨?_, fun u hu t ht => ?_⟩
  · rw [Plain, Int.natAbs_natCast]
    exact decimal_length h
  · rw [parts, List.mem_singleton] at hu
    rw [hu] at ht
    cases ht

theorem clean_arr {vs : List PyJson} (h : ∀ v ∈ vs, Clean v) : Clean (.arr vs) := by
  refine ⟨?_, fun u hu t ht => ?_⟩
  · rw [Plain, plainItems_iff]
    exact fun v hv => (h v hv).plain
  · rcases mem_parts_arr.mp hu with rfl | ⟨v, hv, hu⟩
    · cases ht
    · exact (h v hv).unbroken u hu t ht

/- An object with some keys of ASCII. -/
theorem clean_obj (keys : List Str) {ms : List (Str × PyJson)} (hms : ms.map Prod.fst = keys)
    (hkeys : (keys.map (rejoin false)).Nodup ∧ ∀ k ∈ keys, ∀ c ∈ k, c < 127) (h : ∀ p ∈ ms, Clean p.2) :
    Clean (.obj ms) := by
  have hascii : ∀ p ∈ ms, ∀ c ∈ p.1, c < 127 := by
    intro p hp
    apply hkeys.2
    rw [← hms]
    exact List.mem_map_of_mem hp
  refine ⟨?_, fun u hu t ht => ?_⟩
  · rw [Plain, plainMembers_iff]
    refine ⟨?_, fun p hp => ⟨fun c hc => ?_, (h p hp).plain⟩⟩
    · rw [← hms, List.map_map] at hkeys
      exact hkeys.1
    · have hlt := hascii p hp c hc
      omega
  · rcases mem_parts_obj.mp hu with rfl | ⟨p, hp, hu⟩
    · rw [texts, List.mem_map] at ht
      obtain ⟨p, hp, rfl⟩ := ht
      exact unbroken_ascii (hascii p hp)
    · exact (h p hp).unbroken u hu t ht

theorem Notes.clean (notes : Notes) : Clean (.obj notes.members) :=
  ⟨notes.plain, fun u hu s hs => unbroken_ascii (notes.ascii u hu s hs)⟩

theorem clean_textField {s : Str} (htext : isText s) (hs : Unbroken s) : Clean (textField s) := by
  apply clean_obj [codes "text"] rfl (by decide)
  rw [List.forall_mem_singleton]
  exact clean_str htext hs

theorem clean_record {type : String} (htype : ∀ c ∈ codes type, c < 127) {data : List (Str × PyJson)}
    (h : Clean (.obj data)) : Clean (record type data) := by
  apply clean_obj (["type", "data"].map codes) rfl (by decide)
  rw [List.forall_mem_cons, List.forall_mem_singleton]
  refine ⟨clean_str (fun c hc => ?_) (unbroken_ascii htype), h⟩
  have hlt := htype c hc
  omega

/-! ## The records of a run -/

/-- What the records are made of. -/
structure Reportable (literal : Str) (file : RepositoryFile) : Prop where
  literal : isText literal ∧ Unbroken literal
  path : isText file.path ∧ Unbroken file.path

namespace Ripgrep
variable {rg : Ripgrep} {literal : Str} {file : RepositoryFile}

theorem clean_begin (h : Reportable literal file) : Clean (beginRecord file) := by
  apply clean_record (by decide)
  apply clean_obj [codes "path"] rfl (by decide)
  rw [List.forall_mem_singleton]
  exact clean_textField h.path.1 h.path.2

theorem clean_end (h : Reportable literal file) : Clean (rg.endRecord file) := by
  apply clean_record (by decide)
  apply clean_obj (["path", "binary_offset", "stats"].map codes) rfl (by decide)
  rw [List.forall_mem_cons, List.forall_mem_cons, List.forall_mem_singleton]
  exact ⟨clean_textField h.path.1 h.path.2, clean_null, (rg.stats file).clean⟩

theorem clean_summary (files : List RepositoryFile) : Clean (rg.summaryRecord files) :=
  clean_record (by decide) (rg.summary files).clean

theorem clean_submatch (h : Reportable literal file) (span : Fin (2 ^ 63) × Fin (2 ^ 63)) :
    Clean (submatch literal span) := by
  apply clean_obj (["match", "start", "end"].map codes) rfl (by decide)
  rw [List.forall_mem_cons, List.forall_mem_cons, List.forall_mem_singleton]
  exact ⟨clean_textField h.literal.1 h.literal.2, clean_int span.1.isLt, clean_int span.2.isLt⟩

theorem clean_match (h : Reportable literal file) {line : ℕ × Str} (hnumber : line.1 < 2 ^ 63)
    (hline : isText line.2 ∧ Unbroken line.2) : Clean (rg.matchRecord literal file line) := by
  apply clean_record (by decide)
  apply clean_obj (["path", "lines", "line_number", "absolute_offset", "submatches"].map codes) rfl (by decide)
  have hspans : Clean (.arr ((rg.spans file line.1).map (submatch literal))) := by
    apply clean_arr
    rw [List.forall_mem_map]
    exact fun span _ => clean_submatch h span
  simp only [List.forall_mem_cons, List.not_mem_nil, false_imp_iff, implies_true, and_true]
  exact ⟨clean_textField h.path.1 h.path.2, clean_textField hline.1 hline.2, clean_int hnumber,
    clean_int (rg.offset file line.1).isLt, hspans⟩

end Ripgrep

/-! ## Reading -/

theorem mem_dropWhile {p : ℕ → Bool} {s : Str} {c : ℕ} (hc : c ∈ s) (hp : p c = false) : c ∈ s.dropWhile p := by
  induction s with
  | nil => cases hc
  | cons d s ih =>
    rw [List.dropWhile_cons]
    rcases List.mem_cons.mp hc with rfl | hs
    · rw [hp]
      exact List.mem_cons_self
    · split
      · exact ih hs
      · exact hc

theorem stripText_ne_nil {s : Str} {c : ℕ} (hc : c ∈ s) (hspace : Redaction.isSpaceCode c = false) :
    stripText s ≠ [] := by
  have hmem : c ∈ stripText s := by
    rw [stripText, List.mem_reverse]
    apply mem_dropWhile _ hspace
    rw [List.mem_reverse]
    exact mem_dropWhile hc hspace
  exact List.ne_nil_of_mem hmem

/- The words of the records are read as they are. -/
theorem rejoin_word (word : String) (h : ∀ c ∈ codes word, c < 127) : rejoin false (codes word) = codes word := by
  apply rejoin_open
  intro c hc
  have hlt := h c hc
  omega

theorem loads_record {readFloat : Json.FloatText → Option Json.FloatText} {type : String}
    (htype : ∀ c ∈ codes type, c < 127) {data : List (Str × PyJson)} (h : Clean (record type data)) :
    loads readFloat (render false false (record type data)) =
      some (.obj [(codes "type", .str (codes type)), (codes "data", .obj (rereadMembers false data))]) := by
  rw [loads_render _ h.plain, record, reread, rereadMembers, rereadMembers, rereadMembers, reread, reread,
    rejoin_word type htype, rejoin_word "type" (by decide), rejoin_word "data" (by decide)]

theorem record_ne_blank (type : String) (data : List (Str × PyJson)) :
    stripText (render false false (record type data)) ≠ [] := by
  have hopen : 123 ∈ render false false (record type data) := by
    rw [record, render]
    exact List.mem_cons_self
  exact stripText_ne_nil hopen rfl

/- The fields of a record as it was read. -/
theorem get_type (type data : PyJson) :
    PyJson.get [(codes "type", type), (codes "data", data)] (codes "type") = some type := rfl

theorem get_data (type data : PyJson) :
    PyJson.get [(codes "type", type), (codes "data", data)] (codes "data") = some data := rfl

namespace Reader
variable {reader : Reader} {root : Root} {readFloat : Json.FloatText → Option Json.FloatText}
variable {literal target : Str} {entries : List RepositoryFile}

/-- The records around the matches are passed over. -/
theorem parseLine_passes {type : String} (htype : ∀ c ∈ codes type, c < 127)
    (hpassed : codes type ∈ [codes "begin", codes "end", codes "summary"]) {data : List (Str × PyJson)}
    (h : Clean (record type data)) (records : List SearchMatch) :
    reader.parseLine root readFloat literal target entries records (render false false (record type data)) =
      .ok records := by
  unfold parseLine
  rw [require, if_pos (record_ne_blank type data), loads_record htype h]
  simp only [get_type, if_pos hpassed]
  rfl

/-- What `_search_entries` promises of a file in its answer. -/
structure Listed (reader : Reader) (root : Root) (target : Str) (file : RepositoryFile) : Prop where
  normalized : normalize file.path false = .ok file.path
  inside : target = codes "." ∨ reader.matchesPath file.path target = true
  admitted : reader.isExcluded file.path = false
  noEnvironment : hasVirtualEnvironmentAncestor root file.path = .ok false
  regular : root.statFile file.path = some true

/- The data of a match as it is read. -/
theorem reread_match {rg : Ripgrep} {file : RepositoryFile} {line : ℕ × Str} (hpath : isText file.path)
    (hline : isText line.2) : ∃ rest, rereadMembers false
      [(codes "path", textField file.path), (codes "lines", textField line.2),
        (codes "line_number", .int line.1), (codes "absolute_offset", .int (rg.offset file line.1)),
        (codes "submatches", .arr ((rg.spans file line.1).map (Ripgrep.submatch literal)))] =
      (codes "path", textField file.path) :: (codes "lines", textField line.2) ::
        (codes "line_number", .int line.1) :: rest := by
  have hfield : ∀ s, isText s → reread false (textField s) = textField s := by
    intro s hs
    rw [textField, reread, rereadMembers, rereadMembers, reread, rejoin_open hs, rejoin_word "text" (by decide)]
  refine ⟨rereadMembers false [(codes "absolute_offset", .int (rg.offset file line.1)),
    (codes "submatches", .arr ((rg.spans file line.1).map (Ripgrep.submatch literal)))], ?_⟩
  rw [rereadMembers, rereadMembers, rereadMembers, hfield _ hpath, hfield _ hline, reread, rejoin_word "path" (by decide),
    rejoin_word "lines" (by decide), rejoin_word "line_number" (by decide)]

theorem rgTextField_text {s : Str} (hs : s ≠ []) : rgTextField (some (textField s)) = .ok s :=
  if_pos ⟨rfl, hs⟩

/-- The data of a reported line of a listed file is accepted. -/
theorem parseMatch_reported {file : RepositoryFile} {number : ℕ} {line : Str} {rest : List (Str × PyJson)}
    (hlisted : Listed reader root target file) (hentry : file ∈ entries)
    (hvisible : isHiddenSearchPath file.path = false) (hnumber : 0 < number) (hline : line ≠ [])
    (hbody : ∀ c ∈ stripEnd line, isLineBreak c = false) (hfound : literal <:+: stripEnd line) :
    reader.parseMatch root literal target entries
      ((codes "path", textField file.path) :: (codes "lines", textField line) ::
        (codes "line_number", .int number) :: rest) = .ok ⟨file.path, number, stripEnd line⟩ := by
  have hpath : PyJson.get ((codes "path", textField file.path) :: (codes "lines", textField line) ::
      (codes "line_number", .int number) :: rest) (codes "path") = some (textField file.path) := rfl
  have hlines : PyJson.get ((codes "path", textField file.path) :: (codes "lines", textField line) ::
      (codes "line_number", .int number) :: rest) (codes "lines") = some (textField line) := rfl
  have hnumbers : PyJson.get ((codes "path", textField file.path) :: (codes "lines", textField line) ::
      (codes "line_number", .int number) :: rest) (codes "line_number") = some (.int number) := rfl
  have hnonempty : file.path ≠ [] := by
    intro hempty
    have hnormalized := hlisted.normalized
    rw [hempty] at hnormalized
    cases hnormalized
  have hends : 13 ∉ stripEnd line ∧ 10 ∉ stripEnd line ∧ literal <:+: stripEnd line := by
    refine ⟨fun h => ?_, fun h => ?_, hfound⟩
    · exact absurd (hbody 13 h) (by decide)
    · exact absurd (hbody 10 h) (by decide)
  have hallowed : reader.pathKey file.path ∈ entries.map (fun entry => reader.pathKey entry.path) :=
    List.mem_map_of_mem hentry
  have hnumberField : lineNumberField (some (.int number)) = .ok number := by
    rw [lineNumberField, if_pos (by omega), Int.toNat_natCast]
  unfold parseMatch
  rw [hpath, hlines, hnumbers, rgTextField_text hnonempty, rgTextField_text hline, hnumberField]
  simp only [hlisted.normalized, hlisted.admitted, hlisted.noEnvironment, hlisted.regular, hvisible, hends,
    hallowed, hlisted.inside, require, orRaise, Except.mapError, bind, Except.bind, pure, Except.pure,
    Bool.false_eq_true, not_false_eq_true, and_self, if_true]

/-- The record of a reported line adds its match. -/
theorem parseLine_match {rg : Ripgrep} {file : RepositoryFile} {number : ℕ} {line : Str}
    (hreportable : Reportable literal file) (hlisted : Listed reader root target file) (hentry : file ∈ entries)
    (hvisible : isHiddenSearchPath file.path = false) (hnumber : 0 < number) (hbound : number < 2 ^ 63)
    (hline : line ≠ []) (htext : isText line ∧ Unbroken line)
    (hbody : ∀ c ∈ stripEnd line, isLineBreak c = false) (hfound : literal <:+: stripEnd line)
    {records : List SearchMatch}
    (hnew : reader.recordKey ⟨file.path, number, stripEnd line⟩ ∉ records.map reader.recordKey) :
    reader.parseLine root readFloat literal target entries records
      (render false false (rg.matchRecord literal file (number, line))) =
      .ok (records ++ [⟨file.path, number, stripEnd line⟩]) := by
  have hclean : Clean (rg.matchRecord literal file (number, line)) := Ripgrep.clean_match hreportable hbound htext
  have hreread : ∃ rest, rereadMembers false
      [(codes "path", textField file.path), (codes "lines", textField line), (codes "line_number", .int number),
        (codes "absolute_offset", .int (rg.offset file number)),
        (codes "submatches", .arr ((rg.spans file number).map (Ripgrep.submatch literal)))] =
      (codes "path", textField file.path) :: (codes "lines", textField line) ::
        (codes "line_number", .int number) :: rest :=
    @reread_match literal rg file (number, line) hreportable.path.1 htext.1
  obtain ⟨rest, hdata⟩ := hreread
  have hprior : records.find? (fun prior => reader.recordKey prior =
      reader.recordKey ⟨file.path, number, stripEnd line⟩) = none := by
    rw [List.find?_eq_none]
    intro prior hprior hsame
    exact hnew (List.mem_map.mpr ⟨prior, hprior, of_decide_eq_true hsame⟩)
  have hmatch : ¬ codes "match" ∈ [codes "begin", codes "end", codes "summary"] := by decide
  unfold parseLine
  rw [Ripgrep.matchRecord] at hclean ⊢
  rw [require, if_pos (record_ne_blank _ _), loads_record (by decide) hclean, hdata]
  simp only [get_type, get_data, if_neg hmatch, require, if_true,
    parseMatch_reported hlisted hentry hvisible hnumber hline hbody hfound, bind, Except.bind]
  rw [addRecord, hprior]

end Reader

end ParallelForge.Tools
