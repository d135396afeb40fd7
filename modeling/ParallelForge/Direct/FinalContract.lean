import ParallelForge.Direct.ContractObject
import ParallelForge.Direct.Fence

/-!
# The last contract object of a transcript

A result at the end of a transcript is found behind any transcript whose event lines
`json.dumps` can write. A review is found if moreover the transcript leaves no fence
open, or holds no candidate of its own.
-/

namespace ParallelForge.Direct
open Base PyJson Regex

variable {I : Interpreter}

/-! ## The text of a contract object -/

/-- An object that is read from a text and written as it, as a contract object is. -/
structure Reported (I : Interpreter) (members : Members) (body : Str) : Prop where
  head : body.head? = some 123
  last : body.getLast? = some 125
  letters : ∀ c ∈ body, Letter c
  read : loadsObject I body = some members
  written : dumps I (.obj members) = some body
  event : isEvent members = true
  bare : ∀ key ∈ ["result", "response", "text"], get members (codes key) = none

theorem renderMembers_last (ms : Members) : (renderMembers true true ms).getLast? = some 125 := by
  induction ms with
  | nil => rfl
  | cons p ms ih =>
    obtain ⟨k, v⟩ := p
    have hne : renderMembers true true ms ≠ [] := by
      intro hnil
      rw [hnil] at ih
      cases ih
    rw [renderMembers]
    simp only [List.getLast?_cons, List.getLast?_append, ih, Option.some_or, Option.getD_some]

theorem render_ends (ms : Members) : (render true true (.obj ms)).head? = some 123 ∧
    (render true true (.obj ms)).getLast? = some 125 := by
  cases ms with
  | nil => exact ⟨rfl, rfl⟩
  | cons p ms =>
    obtain ⟨k, v⟩ := p
    refine ⟨by rw [render]; rfl, ?_⟩
    rw [render]
    simp only [List.getLast?_cons, List.getLast?_append, renderMembers_last, Option.some_or, Option.getD_some]

theorem reported_object {properties : List (String × Check)} {ms : Members} (hnamed : Named properties)
    (h : object properties (.obj ms)) (hall : ∀ p ∈ properties, Tames 2 p.2) (htext : Textual (.obj ms))
    (htick : NoBacktick (.obj ms)) (hevent : isEvent (rereadMembers true ms) = true)
    (hbare : ∀ key ∈ ["result", "response", "text"], codes key ∉ properties.map fun p => codes p.1) :
    Reported I (rereadMembers true ms) (render true true (.obj ms)) := by
  have htame := object_tame h hall htext
  have hplain : Plain true (.obj ms) := plain_object hnamed h htext.key fun q hq => (htame q hq).plain
  have hdepth : nesting (.obj ms) ≤ 3 := by
    have hmembers := nestingMembers_le fun q hq => (htame q hq).depth
    rw [nesting]
    omega
  have hback : reread true (.obj ms) = .obj (rereadMembers true ms) := rfl
  have hshape := reread_shape true (.obj ms)
  rw [hback] at hshape
  obtain ⟨hhead, hlast⟩ := render_ends ms
  refine ⟨hhead, hlast, render_letters _ hplain htick, ?_, ?_, hevent, fun key hkey =>
    object_absent hnamed h (hbare key hkey)⟩
  · rw [loadsObject, loads_render _ hplain, hback]
    simp only
    rw [if_pos]
    rw [hshape.1]
    exact Nat.le_trans hdepth I.reads_contract
  · rw [dumps, if_pos, ← hback, render_reread _ hplain]
    refine ⟨?_, ?_⟩
    · rw [hshape.2]
      exact finite_of_plain _ hplain
    · rw [hshape.1]
      exact Nat.le_trans hdepth I.writes_contract

/-! ## The lines of the text -/

/-- A transcript and the fenced object behind it. -/
def finalText (p body : Str) : Str := p ++ codes "\n```json\n" ++ body ++ codes "\n```\n"

theorem finalText_eq (p body : Str) : finalText p body = (p ++ [10]) ++ codes "```" ++ lastBlock body := by
  have hopen : codes "\n```json\n" = [10] ++ (codes "```" ++ (codes "json" ++ [10])) := rfl
  have hclose : codes "\n```\n" = 10 :: (codes "```" ++ [10]) := rfl
  simp only [finalText, lastBlock, hopen, hclose, List.append_assoc, List.cons_append,
    List.nil_append]

section lines
variable {p body : Str} {members : Members}

theorem Reported.no_break (h : Reported I members body) : ∀ c ∈ body, isLineBreak c = false := by
  intro c hc
  obtain ⟨hlo, hhi, -⟩ := h.letters c hc
  simp only [isLineBreak, Bool.or_eq_false_iff, Bool.and_eq_false_iff, decide_eq_false_iff_not, beq_eq_false_iff_ne]
  omega

theorem Reported.strip (h : Reported I members body) : stripText body = body := by
  apply stripText_self
  · intro c hc
    rw [h.head] at hc
    cases hc
    rfl
  · intro c hc
    rw [h.last] at hc
    cases hc
    rfl

theorem finalText_lines (p body : Str) :
    finalText p body = p ++ 10 :: (codes "```json" ++ 10 :: (body ++ 10 :: (codes "```" ++ [10]))) := by
  have hopen : codes "```json" = codes "```" ++ codes "json" := rfl
  rw [finalText_eq, lastBlock, hopen]
  simp only [List.append_assoc, List.cons_append, List.nil_append]

theorem lines_final (h : Reported I members body) : splitlines (finalText p body) =
    splitlines (p ++ [10]) ++ [codes "```json", body, codes "```"] := by
  have hword : ∀ c ∈ codes "```json", isLineBreak c = false := by decide
  have hticks : ∀ c ∈ codes "```", isLineBreak c = false := by decide
  rw [finalText_lines, splitlines_append, splitlines_append (codes "```json"), splitlines_append body,
    splitlines_record _ hword, splitlines_record _ h.no_break, splitlines_record _ hticks]
  rfl

theorem no_object_open : loadsObject I (stripText (codes "```json")) = none := rfl

theorem no_object_close : loadsObject I (stripText (codes "```")) = none := rfl

theorem Reported.line (h : Reported I members body) : lineTexts I body = some [body] := by
  have hmember : ∀ key ∈ ["result", "response", "text"], memberTexts I members key = some [] := by
    intro key hkey
    rw [memberTexts, h.bare key hkey]
  have hall : ["result", "response", "text"].mapM (memberTexts I members) = some [[], [], []] := by
    simp only [List.mapM_cons, List.mapM_nil, hmember "result" (by simp), hmember "response" (by simp),
      hmember "text" (by simp)]
    rfl
  rw [lineTexts, h.strip, h.read]
  simp only [eventTexts, hall, ownText, h.event, if_true, h.written]
  rfl

/- The events of a transcript, and the last one. -/
theorem decoded_final (h : Reported I members body) : decodedEventTexts I (finalText p body) =
    (decodedEventTexts I (p ++ [10])).map fun events => events ++ [body] := by
  have hopen : lineTexts I (codes "```json") = some [] := by rw [lineTexts, no_object_open]
  have hclose : lineTexts I (codes "```") = some [] := by rw [lineTexts, no_object_close]
  have hlast : [codes "```json", body, codes "```"].mapM (lineTexts I) = some [[], [body], []] := by
    simp only [List.mapM_cons, List.mapM_nil, hopen, h.line, hclose]
    rfl
  rw [decodedEventTexts, lines_final h, List.mapM_append, hlast, decodedEventTexts]
  cases (splitlines (p ++ [10])).mapM (lineTexts I) with
  | none => rfl
  | some events =>
    show some (events ++ [[], [body], []]).flatten = some (events.flatten ++ [body])
    rw [List.flatten_append]
    rfl

end lines

/-! ## Transcripts -/

/-- `json.dumps` has no text of an event. -/
def Refused (I : Interpreter) (ms : Members) : Prop := isEvent ms = true ∧ dumps I (.obj ms) = none

/-- No event of a text is refused, on its line or in a member of the object there. -/
def Writable (I : Interpreter) (text : Str) : Prop :=
  ∀ line ∈ splitlines text, ∀ ms, loadsObject I (stripText line) = some ms → ¬ Refused I ms ∧
    ∀ key ∈ ["result", "response", "text"], ∀ inner, get ms (codes key) = some (.obj inner) → ¬ Refused I inner

theorem ownText_isSome (ms : Members) : (ownText I ms).isSome = true ↔ ¬ Refused I ms := by
  unfold ownText Refused
  split
  · next h =>
    rw [h]
    cases dumps I (.obj ms) <;> simp
  · next h => simp [h]

theorem memberTexts_isSome (ms : Members) (key : String) : (memberTexts I ms key).isSome = true ↔
    ∀ inner, get ms (codes key) = some (.obj inner) → ¬ Refused I inner := by
  unfold memberTexts
  split
  · next h => simp [h]
  · next inner h =>
    rw [Option.isSome_map, ownText_isSome]
    constructor
    · intro hinner inner' heq
      rw [h] at heq
      cases heq
      exact hinner
    · intro hall
      exact hall inner h
  · next hstr hobj =>
    refine ⟨fun _ inner h => absurd h (hobj inner), fun _ => rfl⟩

theorem mapM_isSome {α β : Type} (f : α → Option β) (l : List α) :
    (l.mapM f).isSome = true ↔ ∀ a ∈ l, (f a).isSome = true := by
  induction l with
  | nil => simp
  | cons a l ih =>
    rw [List.mapM_cons, List.forall_mem_cons, ← ih]
    cases f a with
    | none => simp
    | some b => cases l.mapM f <;> simp

theorem lineTexts_isSome (line : Str) : (lineTexts I line).isSome = true ↔
    ∀ ms, loadsObject I (stripText line) = some ms → ¬ Refused I ms ∧
      ∀ key ∈ ["result", "response", "text"], ∀ inner, get ms (codes key) = some (.obj inner) → ¬ Refused I inner := by
  unfold lineTexts
  split
  · next ms h =>
    have hmembers := mapM_isSome (memberTexts I ms) ["result", "response", "text"]
    have hown := ownText_isSome (I := I) ms
    simp only [memberTexts_isSome] at hmembers
    simp only [h, Option.some.injEq, forall_eq']
    rw [← hown, ← hmembers, eventTexts]
    cases ["result", "response", "text"].mapM (memberTexts I ms) with
    | none => simp
    | some members =>
      cases ownText I ms <;> simp
  · next h => simp [h]

theorem decoded_isSome (text : Str) : (decodedEventTexts I text).isSome = true ↔ Writable I text := by
  rw [decodedEventTexts, Option.isSome_map, mapM_isSome]
  exact forall_congr' fun line => imp_congr_right fun _ => lineTexts_isSome line

/-! ## Results -/

theorem extractResult_final {p body : Str} {members : Members} (h : Reported I members body)
    (hstatus : has members "status" = true) : extractResult I (finalText p body) =
      (decodedEventTexts I (p ++ [10])).map fun _ => some members := by
  have hown : objectWith I "status" body = some members := by
    rw [objectWith, h.strip, h.read, Option.filter_some, if_pos hstatus]
  rw [extractResult, decoded_final h]
  cases decodedEventTexts I (p ++ [10]) with
  | none => rfl
  | some events =>
    simp only [Option.map_some, Option.bind_eq_bind, Option.bind_some, List.reverse_append, List.reverse_singleton,
      List.singleton_append, List.findSome?_cons, hown, Option.some_or]

/-! ## Reviews -/

/-- A transcript has no candidate that could come before the last one. -/
structure NoRival (I : Interpreter) (text : Str) : Prop where
  event : ∀ events, decodedEventTexts I text = some events →
    (events.flatMap (decodedCandidates I)).filter (fun c => c.2) = []
  fenced : fencedCandidates I (text ++ codes "```") = []
  line : lineCandidates I text = []
  object : lastObject I (codes "\x7b\"verdict\"") text = none

/-- What the last candidate has to come after. -/
def rivals (I : Interpreter) (text : Str) (events : List Str) : Option (Members × Bool) :=
  ((events.flatMap (decodedCandidates I)).filter (fun c => c.2) ++
    fencedCandidates I (text ++ codes "```")).getLast?.or
    (lineCandidates I text ++ unfenced (lastObject I (codes "\x7b\"verdict\"") text)).getLast?

theorem findall_without_tick {body : Str} (h : ∀ c ∈ body, c ≠ 96) : findall body fence = [] := by
  have hnone : ∀ k, groupAt body fence k = none := by
    intro k
    refine groupAt_eq_none.mpr ?_
    intro a e c hopen
    have htick := (opens_iff.mp hopen).2.1.1
    exact absurd rfl (h 96 (List.mem_of_getElem? htick))
  rw [findall, groups, groupsFrom_eq_nil hnone]
  rfl

section candidates
variable {p body : Str} {members : Members} (h : Reported I members body)
  (hverdict : has members "verdict" = true)
include h

theorem Reported.no_tick : ∀ c ∈ body, c ≠ 96 := fun c hc => (h.letters c hc).2.2

theorem fenced_closed (hclosed : ¬ LeavesFenceOpen (p ++ [10])) : fencedCandidates I (finalText p body) =
    fencedCandidates I (p ++ [10]) ++ [(members, true)] := by
  rw [fencedCandidates, finalText_eq, findall_closed (by simp) h.head h.last h.no_tick hclosed,
    List.filterMap_append, fencedCandidates]
  simp only [List.filterMap_cons, h.read, Option.map_some, List.filterMap_nil]

theorem fenced_open (hopen : LeavesFenceOpen (p ++ [10])) : fencedCandidates I (finalText p body) =
    fencedCandidates I (p ++ [10] ++ codes "```") := by
  obtain ⟨junk, heq, hjunk⟩ := findall_open (by simp) h.head h.last h.no_tick hopen
  have hnone : junk.filterMap (fun raw => (loadsObject I raw).map fun ms => (ms, true)) = [] := by
    rw [List.filterMap_eq_nil_iff]
    intro raw hraw
    have hload : loads I.readFloat raw = none := by
      cases hl : loads I.readFloat raw with
      | none => rfl
      | some v => exact absurd (loads_tidy hl) (hjunk raw hraw)
    rw [loadsObject, hload]
    rfl
  rw [fencedCandidates, finalText_eq, heq, List.filterMap_append, hnone, List.append_nil, fencedCandidates]

include hverdict

theorem Reported.own : objectWith I "verdict" body = some members := by
  rw [objectWith, h.strip, h.read, Option.filter_some, if_pos hverdict]

theorem candidates_body : decodedCandidates I body = [(members, false)] := by
  rw [decodedCandidates, h.own hverdict, findall_without_tick h.no_tick]
  rfl

theorem lines_candidates : lineCandidates I (finalText p body) =
    (members, false) :: lineCandidates I (p ++ [10]) := by
  have hopen : objectWith I "verdict" (codes "```json") = none := by
    rw [objectWith, no_object_open]
    rfl
  have hclose : objectWith I "verdict" (codes "```") = none := by
    rw [objectWith, no_object_close]
    rfl
  rw [lineCandidates, lines_final h, List.reverse_append, List.filterMap_append, lineCandidates]
  simp only [List.reverse_cons, List.reverse_nil, List.nil_append, List.cons_append, List.filterMap_cons,
    List.filterMap_nil, hopen, hclose, h.own hverdict, Option.map_none, Option.map_some]

theorem extractReview_final : extractReview I (finalText p body) =
    (decodedEventTexts I (p ++ [10])).map fun events =>
      ((events.flatMap (decodedCandidates I)).filter (fun c => c.2) ++
        fencedCandidates I (finalText p body)).getLast?.or
      ((lineCandidates I (p ++ [10]) ++
        unfenced (lastObject I (codes "\x7b\"verdict\"") (finalText p body))).getLast?.or
        (some (members, false))) := by
  have hfenced : ∀ text, (fencedCandidates I text).filter (fun c => c.2) = fencedCandidates I text := by
    intro text
    rw [List.filter_eq_self]
    intro c hc
    rw [fencedCandidates, List.mem_filterMap] at hc
    obtain ⟨raw, -, hraw⟩ := hc
    rw [Option.map_eq_some_iff] at hraw
    obtain ⟨ms, -, rfl⟩ := hraw
    rfl
  have hlines : ∀ text, (lineCandidates I text).filter (fun c => c.2) = [] := by
    intro text
    rw [List.filter_eq_nil_iff]
    intro c hc
    rw [lineCandidates, List.mem_filterMap] at hc
    obtain ⟨line, -, hline⟩ := hc
    rw [Option.map_eq_some_iff] at hline
    obtain ⟨ms, -, rfl⟩ := hline
    simp
  have hobject : ∀ o : Option Members, (unfenced o).filter (fun c => c.2) = [] := by
    intro o
    cases o <;> rfl
  rw [extractReview, reviewCandidates, decoded_final h, lines_candidates h hverdict]
  cases decodedEventTexts I (p ++ [10]) with
  | none => rfl
  | some events =>
    simp only [Option.map_some, Option.bind_eq_bind, Option.bind_some, List.flatMap_append, List.flatMap_singleton,
      candidates_body h hverdict, List.filter_append, hfenced, hobject, hlines, List.filter_cons, List.filter_nil,
      Bool.false_eq_true, if_false, List.append_nil]
    simp only [List.getLast?_append, List.getLast?_cons]
    cases (unfenced (lastObject I (codes "\x7b\"verdict\"") (finalText p body))).getLast? with
    | some c => rfl
    | none => cases (lineCandidates I (p ++ [10])).getLast? <;> rfl

end candidates

/-! ### The last object -/

theorem word_opening {k : ℕ} {text : Str} (h : codes "\x7b\"verdict\"" <+: text.drop k) : opening <+: text.drop k := by
  have hword : opening <+: codes "\x7b\"verdict\"" := ⟨codes "erdict\"", rfl⟩
  exact hword.trans h

/- Behind the object nothing begins with a `v`. -/
theorem clear_behind (rest : Str) : Clear (10 :: (codes "```" ++ [10])) rest := clear_letters (by decide)

theorem lastObject_other {p body : Str} (hclear : ∀ rest : Str, rest.head? ≠ some 118 → Clear body rest) :
    lastObject I (codes "\x7b\"verdict\"") (finalText p body) =
      lastObject I (codes "\x7b\"verdict\"") (p ++ [10]) := by
  have hback : Clear (codes "```json" ++ 10 :: (body ++ 10 :: (codes "```" ++ [10]))) [] :=
    clear_append (clear_letters (by decide)) (clear_letter (by decide)
      (clear_append (hclear _ (by simp)) (clear_behind [])))
  have hnone : lastIndex (codes "\x7b\"verdict\"") (codes "```json" ++ 10 :: (body ++ 10 :: (codes "```" ++ [10]))) = none := by
    refine lastIndex_eq_none (by decide) ?_
    intro k hk hprefix
    have hclear := hback k hk
    rw [List.append_nil] at hclear
    exact hclear (word_opening hprefix)
  have hindex := lastIndex_front (by decide) (by decide) hnone p
  rw [lastObject, lastObject, finalText_lines, hindex]
  cases hfound : lastIndex (codes "\x7b\"verdict\"") (p ++ [10]) with
  | none => rfl
  | some k =>
    have hlt := lastIndex_lt (by decide) hfound
    rw [List.length_append, List.length_singleton] at hlt
    simp only [Option.bind_some]
    rw [takeWhile_feed _ (by omega)]

theorem lastObject_first {p body : Str} {members : Members} (h : Reported I members body)
    (hword : codes "\x7b\"verdict\"" <+: body) (hclear : ∀ rest : Str, rest.head? ≠ some 118 → Clear body.tail rest) :
    lastObject I (codes "\x7b\"verdict\"") (finalText p body) = some members := by
  obtain ⟨c, body', hbody⟩ : ∃ c body', body = c :: body' := by
    cases body with
    | nil => exact absurd h.head (by simp)
    | cons c body' => exact ⟨c, body', rfl⟩
  have hnone : lastIndex (codes "\x7b\"verdict\"") (body' ++ 10 :: (codes "```" ++ [10])) = none := by
    have hback : Clear (body' ++ 10 :: (codes "```" ++ [10])) [] := by
      refine clear_append ?_ (clear_behind [])
      have hrest := hclear (10 :: (codes "```" ++ [10]) ++ []) (by simp)
      rwa [hbody] at hrest
    refine lastIndex_eq_none (by decide) ?_
    intro k hk hprefix
    have hclear := hback k hk
    rw [List.append_nil] at hclear
    exact hclear (word_opening hprefix)
  have hstart : lastIndex (codes "\x7b\"verdict\"") (body ++ 10 :: (codes "```" ++ [10])) = some 0 := by
    have hprefix : (codes "\x7b\"verdict\"").isPrefixOf (c :: (body' ++ 10 :: (codes "```" ++ [10]))) = true := by
      rw [List.isPrefixOf_iff_prefix, ← List.cons_append, ← hbody]
      exact hword.trans (List.prefix_append _ _)
    rw [hbody, List.cons_append, lastIndex, hnone]
    simp only [if_pos hprefix]
  have htext : finalText p body = (p ++ codes "\n```json\n") ++ (body ++ 10 :: (codes "```" ++ [10])) := by
    rw [finalText, List.append_assoc]
    rfl
  have hline : (body ++ 10 :: (codes "```" ++ [10])).takeWhile (fun c => c != 10) = body := by
    have hfeed : ∀ c ∈ body, (c != 10) = true := by
      intro c hc
      have hletter := (h.letters c hc).1
      rw [bne_iff_ne]
      omega
    rw [List.takeWhile_append_of_pos hfeed, List.takeWhile_cons]
    simp
  rw [lastObject, htext, lastIndex_behind hstart, Option.bind_some, Nat.add_zero, List.drop_left, hline, h.read]

/-! ### Contract objects -/

theorem named_review : Named [("verdict", oneOf ["clean", "blocking"]), ("summary", isString),
    ("findings", arrayOf findingSchema)] := by
  refine ⟨by decide, ?_⟩
  simp only [List.forall_mem_cons]
  exact ⟨by decide, by decide, by decide, by simp⟩

theorem tames_review : ∀ p ∈ [("verdict", oneOf ["clean", "blocking"]), ("summary", isString),
    ("findings", arrayOf findingSchema)], Tames 2 p.2 := by
  simp only [List.forall_mem_cons]
  exact ⟨(tames_oneOf _).mono (by omega), tames_isString.mono (by omega), tames_arrayOf tames_finding, by simp⟩

theorem named_result : Named [("status", oneOf ["done", "needs_decision", "blocked"]), ("summary", isString),
    ("question", orNull isString), ("options", arrayOf isString)] := by
  refine ⟨by decide, ?_⟩
  simp only [List.forall_mem_cons]
  exact ⟨by decide, by decide, by decide, by decide, by simp⟩

theorem tames_result : ∀ p ∈ [("status", oneOf ["done", "needs_decision", "blocked"]), ("summary", isString),
    ("question", orNull isString), ("options", arrayOf isString)], Tames 2 p.2 := by
  simp only [List.forall_mem_cons]
  exact ⟨(tames_oneOf _).mono (by omega), tames_isString.mono (by omega),
    (tames_orNull tames_isString).mono (by omega), (tames_arrayOf tames_isString).mono (by omega), by simp⟩

theorem reported_result {ms : Members} (h : resultSchema (.obj ms)) (htext : Textual (.obj ms))
    (htick : NoBacktick (.obj ms)) : Reported I (rereadMembers true ms) (render true true (.obj ms)) := by
  refine reported_object named_result h tames_result htext htick ?_ (by decide)
  have hstatus : has (rereadMembers true ms) "status" = true := by
    rw [object_has named_result h]
    decide
  have hsummary : has (rereadMembers true ms) "summary" = true := by
    rw [object_has named_result h]
    decide
  rw [isEvent, hstatus, hsummary]
  rfl

theorem reported_review {ms : Members} (h : reviewSchema (.obj ms)) (htext : Textual (.obj ms))
    (htick : NoBacktick (.obj ms)) : Reported I (rereadMembers true ms) (render true true (.obj ms)) := by
  refine reported_object named_review h tames_review htext htick ?_ (by decide)
  have hverdict : has (rereadMembers true ms) "verdict" = true := by
    rw [object_has named_review h]
    decide
  rw [isEvent, hverdict, Bool.or_true]

/- An `enum` is read back as itself. -/
theorem reread_oneOf {words : List String} (hwords : ∀ w ∈ words, rejoin true (codes w) = codes w) {v : PyJson}
    (h : oneOf words v) : ∃ w ∈ words, v = .str (codes w) ∧ reread true v = .str (codes w) := by
  obtain ⟨w, hw, rfl⟩ := h
  exact ⟨w, hw, rfl, by rw [reread, hwords w hw]⟩

theorem inSet_word {words : List String} {w : String} (hw : w ∈ words) :
    inSet (some (.str (codes w))) words = some true := by
  rw [inSet, Option.some.injEq, List.contains_iff_mem]
  exact List.mem_map_of_mem hw

theorem findingOf_isSome {v : PyJson} (h : findingSchema v) : (findingOf (reread true v)).isSome = true := by
  obtain ⟨ms, rfl, -⟩ := id h
  obtain ⟨severity, hcheck, -, hget⟩ := object_get named_finding h (p := ("severity", oneOf ["blocking", "note"]))
    (by simp)
  obtain ⟨w, hw, -, hread⟩ := reread_oneOf (by decide) hcheck
  rw [hread] at hget
  have hset : inSet (some (.str (codes w))) ["blocking", "note"] = some true := inSet_word hw
  rw [reread, findingOf]
  simp only [hget, strOf, hset, Option.bind_eq_bind, Option.bind_some, Option.isSome_some]

theorem findingsOf_isSome {items : List PyJson} (h : ∀ item ∈ items, findingSchema item) :
    (findingsOf (some (reread true (.arr items)))).isSome = true := by
  rw [reread, findingsOf, Option.isSome_map, mapM_isSome, rereadItems_eq]
  intro v hv
  have hmem := List.mem_of_mem_take hv
  rw [List.mem_map] at hmem
  obtain ⟨item, hitem, rfl⟩ := hmem
  exact findingOf_isSome (h item hitem)

/- The review that an extracted contract object makes. -/
theorem parse_review {ms : Members} (h : reviewSchema (.obj ms)) {text : Str} {fromFenced : Bool}
    (hextract : extractReview I text = some (some (rereadMembers true ms, fromFenced))) :
    ∃ result, parseReviewResult I text = some (some result) ∧
      memberOf (.obj ms) "verdict" = some (.str result.verdict) := by
  obtain ⟨verdict, hcheck, hhere, hget⟩ := object_get named_review h (p := ("verdict", oneOf ["clean", "blocking"]))
    (by simp)
  obtain ⟨w, hw, hverdict, hread⟩ := reread_oneOf (by decide) hcheck
  obtain ⟨findings, ⟨items, hitems, hall⟩, -, hfindings⟩ := object_get named_review h
    (p := ("findings", arrayOf findingSchema)) (by simp)
  rw [hitems] at hfindings
  obtain ⟨fs, hfs⟩ := Option.isSome_iff_exists.mp (findingsOf_isSome hall)
  rw [hread] at hget
  have hset : inSet (some (.str (codes w))) ["clean", "blocking"] = some true := inSet_word hw
  refine ⟨{ verdict := codes w
            summary := ((strOf (PyJson.get (rereadMembers true ms) (codes "summary"))).getD []).take 4000
            findings := fs
            degraded := !fromFenced }, ?_, ?_⟩
  · rw [parseReviewResult, hextract]
    simp only [Option.bind_eq_bind, Option.bind_some, hget, strOf, hset, hfindings, hfs]
  · rw [memberOf, hhere, hverdict]

theorem parse_result {ms : Members} (h : resultSchema (.obj ms)) {text : Str}
    (hextract : extractResult I text = some (some (rereadMembers true ms))) :
    ∃ result, parseDirectResult I text = some result ∧
      memberOf (.obj ms) "status" = some (.str result.status) := by
  obtain ⟨status, hcheck, hhere, hget⟩ := object_get named_result h
    (p := ("status", oneOf ["done", "needs_decision", "blocked"])) (by simp)
  obtain ⟨w, hw, hstatus, hread⟩ := reread_oneOf (by decide) hcheck
  rw [hread] at hget
  have hset : inSet (some (.str (codes w))) ["done", "needs_decision", "blocked"] = some true := inSet_word hw
  refine ⟨resultOf (rereadMembers true ms) (codes w), ?_, ?_⟩
  · rw [parseDirectResult, hextract]
    simp only [Option.bind_eq_bind, Option.bind_some, hget, strOf, hset]
  · rw [memberOf, hhere, hstatus]
    rfl

/-! ## Which transcripts let the last contract through -/

section wins
variable {p : Str}

/- A review is extracted behind a transcript that has nothing to come before it. -/
theorem extractReview_wins {ms : Members} (h : reviewSchema (.obj ms)) (htext : Textual (.obj ms))
    (htick : NoBacktick (.obj ms)) (hwritable : Writable I (p ++ [10]))
    (hfree : ¬ LeavesFenceOpen (p ++ [10]) ∨ NoRival I (p ++ [10])) :
    ∃ fromFenced, extractReview I (finalText p (render true true (.obj ms))) =
      some (some (rereadMembers true ms, fromFenced)) := by
  have hreported : Reported I (rereadMembers true ms) (render true true (.obj ms)) := reported_review h htext htick
  have hverdict : has (rereadMembers true ms) "verdict" = true := by
    rw [object_has named_review h]
    decide
  obtain ⟨events, hevents⟩ := Option.isSome_iff_exists.mp ((decoded_isSome _).mpr hwritable)
  have hextract := extractReview_final (p := p) hreported hverdict
  rw [hevents, Option.map_some] at hextract
  by_cases hopen : LeavesFenceOpen (p ++ [10])
  · have hrival : NoRival I (p ++ [10]) := hfree.resolve_left (not_not_intro hopen)
    rw [hrival.event events hevents, fenced_open hreported hopen, hrival.fenced, hrival.line] at hextract
    have htame := object_tame h tames_review htext
    have hplain : Plain true (.obj ms) := plain_object named_review h htext.key fun q hq => (htame q hq).plain
    have hcleared : ∀ q ∈ ms, Cleared true q.2 := fun q hq => render_cleared q.2 (htame q hq).plain (htame q hq).keys
    refine ⟨false, hextract.trans ?_⟩
    -- the last object is that of the contract, or one of the transcript
    cases ms with
    | nil => exact absurd (object_member h (p := ("summary", isString)) (by simp)) (by simp)
    | cons q rest =>
      obtain ⟨k, v⟩ := q
      obtain ⟨p', hp', hkey, -⟩ := object_checks h (k, v) List.mem_cons_self
      have hobject : ∀ more : Str, Clear (Json.stringText true k ++ 58 :: (gap true ++ (render true true v ++
          renderMembers true true rest))) more := fun more => clear_object k v rest more hcleared
      by_cases hk : k = codes "verdict"
      · have hfirst := lastObject_first (p := p) hreported (by
          rw [render, hk]
          exact ⟨_, rfl⟩) (by
          intro more hmore
          rw [render]
          exact hobject more)
        rw [hfirst]
        rfl
      · have hclear : ∀ more : Str, more.head? ≠ some 118 →
            Clear (render true true (.obj ((k, v) :: rest))) more := by
          intro more hmore
          rw [render]
          refine clear_cons ?_ (hobject more)
          rw [List.append_assoc]
          refine not_opening_key k _ ?_
          simp only [List.mem_cons, List.not_mem_nil, or_false] at hp'
          simp only at hkey
          rcases hp' with rfl | rfl | rfl
          · exact absurd hkey hk
          · rw [hkey]
            decide
          · rw [hkey]
            decide
        rw [lastObject_other hclear, hrival.object]
        rfl
  · rw [fenced_closed hreported hopen, ← List.append_assoc, List.getLast?_append] at hextract
    exact ⟨true, hextract⟩

/-- A review whose verdict comes last. -/
def bareReview (verdict : String) : Members :=
  [(codes "summary", .str []), (codes "findings", .arr []), (codes "verdict", .str (codes verdict))]

theorem bareReview_keys (verdict : String) :
    (bareReview verdict).map Prod.fst = [codes "summary", codes "findings", codes "verdict"] := rfl

theorem bareReview_valid {verdict : String} (h : verdict ∈ ["clean", "blocking"]) :
    reviewSchema (.obj (bareReview verdict)) := by
  have hn : ((bareReview verdict).map Prod.fst).Nodup := by
    rw [bareReview_keys]
    decide
  have hvalue : ∀ {key value value'}, (codes key, value) ∈ bareReview verdict →
      PyJson.get (bareReview verdict) (codes key) = some value' → value = value' := by
    intro key value value' hmem hget
    rw [lookup_of_mem hn hmem] at hget
    cases hget
    rfl
  refine ⟨_, rfl, ?_, ?_⟩
  · rw [bareReview_keys]
    decide
  · simp only [List.forall_mem_cons]
    refine ⟨?_, ?_, ?_, by simp⟩
    · intro value hmem
      exact ⟨verdict, h, hvalue hmem rfl⟩
    · intro value hmem
      exact ⟨[], hvalue hmem rfl⟩
    · intro value hmem
      exact ⟨[], hvalue hmem rfl, by simp⟩

theorem bareReview_strings {verdict : String} (h : verdict ∈ ["clean", "blocking"]) {Q : Str → Prop}
    (hQ : ∀ s ∈ ["summary", "findings", "verdict", "", "clean", "blocking"], Q (codes s)) :
    ∀ u ∈ parts (.obj (bareReview verdict)), ∀ s ∈ texts u, Q s := by
  have hverdict : verdict ∈ ["summary", "findings", "verdict", "", "clean", "blocking"] := by
    simp only [List.mem_cons, List.not_mem_nil, or_false] at h ⊢
    tauto
  have hempty : Q [] := hQ "" (by simp)
  simp only [bareReview, parts, partsMembers, partsItems, List.append_nil, List.cons_append, List.nil_append,
    List.forall_mem_cons, texts, List.map_cons, List.map_nil, List.not_mem_nil, false_imp_iff, implies_true,
    and_true]
  exact ⟨⟨hQ _ (by simp), hQ _ (by simp), hQ _ (by simp)⟩, hempty, trivial, hQ verdict hverdict⟩

theorem bareReview_textual {verdict : String} (h : verdict ∈ ["clean", "blocking"]) :
    Textual (.obj (bareReview verdict)) := by
  refine bareReview_strings h ?_
  unfold isText
  decide

theorem bareReview_quiet {verdict : String} (h : verdict ∈ ["clean", "blocking"]) :
    NoBacktick (.obj (bareReview verdict)) :=
  bareReview_strings h (by decide)

/- Behind an open fence a rival is extracted in the place of such a review, whatever its verdict. -/
theorem extractReview_rival {verdict : String} (h : verdict ∈ ["clean", "blocking"])
    (hopen : LeavesFenceOpen (p ++ [10])) {events : List Str} (hevents : decodedEventTexts I (p ++ [10]) = some events)
    {rival : Members × Bool} (hrival : rivals I (p ++ [10]) events = some rival) :
    extractReview I (finalText p (render true true (.obj (bareReview verdict)))) = some (some rival) := by
  have hvalid := bareReview_valid h
  have htext := bareReview_textual h
  have hreported : Reported I (rereadMembers true (bareReview verdict)) (render true true (.obj (bareReview verdict))) :=
    reported_review hvalid htext (bareReview_quiet h)
  have hverdict : has (rereadMembers true (bareReview verdict)) "verdict" = true := by
    rw [object_has named_review hvalid]
    decide
  have htame := object_tame hvalid tames_review htext
  have hplain : Plain true (.obj (bareReview verdict)) :=
    plain_object named_review hvalid htext.key fun q hq => (htame q hq).plain
  have hclear : ∀ more : Str, more.head? ≠ some 118 →
      Clear (render true true (.obj (bareReview verdict))) more := by
    refine render_cleared _ hplain ?_
    rw [parts, List.forall_mem_cons]
    refine ⟨?_, partsMembers_forall fun q hq => (htame q hq).keys⟩
    intro q hq
    cases hq
    decide
  rw [extractReview_final hreported hverdict, hevents, fenced_open hreported hopen, lastObject_other hclear,
    Option.map_some]
  unfold rivals at hrival
  rw [← Option.or_assoc, hrival]
  rfl

theorem noRival_of_rivals {events : List Str} (hevents : decodedEventTexts I (p ++ [10]) = some events)
    (h : rivals I (p ++ [10]) events = none) : NoRival I (p ++ [10]) := by
  unfold rivals at h
  rw [Option.or_eq_none_iff, List.getLast?_eq_none_iff, List.getLast?_eq_none_iff, List.append_eq_nil_iff,
    List.append_eq_nil_iff] at h
  obtain ⟨⟨hevent, hfenced⟩, hline, hobject⟩ := h
  refine ⟨?_, hfenced, hline, ?_⟩
  · intro events' heq
    rw [hevents] at heq
    cases heq
    exact hevent
  · cases ho : lastObject I (codes "\x7b\"verdict\"") (p ++ [10]) with
    | none => rfl
    | some ms =>
      rw [ho] at hobject
      cases hobject

theorem writable_of_review {verdict : String} (h : verdict ∈ ["clean", "blocking"]) {answer : Option DirectReviewResult}
    (hparse : parseReviewResult I (finalText p (render true true (.obj (bareReview verdict)))) = some answer) :
    Writable I (p ++ [10]) := by
  have hvalid := bareReview_valid h
  have hreported : Reported I (rereadMembers true (bareReview verdict)) (render true true (.obj (bareReview verdict))) :=
    reported_review hvalid (bareReview_textual h) (bareReview_quiet h)
  rw [← decoded_isSome]
  cases hevents : decodedEventTexts I (p ++ [10]) with
  | some events => rfl
  | none =>
    rw [parseReviewResult, extractReview, reviewCandidates, decoded_final hreported, hevents] at hparse
    cases hparse

def bareResult : Members :=
  [(codes "status", .str (codes "done")), (codes "summary", .str []), (codes "question", .null),
    (codes "options", .arr [])]

theorem bareResult_valid : resultSchema (.obj bareResult) := by
  have hn : (bareResult.map Prod.fst).Nodup := by decide
  have hvalue : ∀ {key value value'}, (codes key, value) ∈ bareResult →
      PyJson.get bareResult (codes key) = some value' → value = value' := by
    intro key value value' hmem hget
    rw [lookup_of_mem hn hmem] at hget
    cases hget
    rfl
  refine ⟨_, rfl, by decide, ?_⟩
  simp only [List.forall_mem_cons]
  refine ⟨?_, ?_, ?_, ?_, by simp⟩
  · intro value hmem
    exact ⟨"done", by simp, hvalue hmem rfl⟩
  · intro value hmem
    exact ⟨[], hvalue hmem rfl⟩
  · intro value hmem
    exact Or.inl (hvalue hmem rfl)
  · intro value hmem
    exact ⟨[], hvalue hmem rfl, by simp⟩

theorem bareResult_textual : Textual (.obj bareResult) := by
  unfold Textual isText
  decide

theorem bareResult_quiet : NoBacktick (.obj bareResult) := by
  unfold NoBacktick
  decide

theorem writable_of_result {result : DirectResult}
    (hparse : parseDirectResult I (finalText p (render true true (.obj bareResult))) = some result) :
    Writable I (p ++ [10]) := by
  have hreported : Reported I (rereadMembers true bareResult) (render true true (.obj bareResult)) :=
    reported_result bareResult_valid bareResult_textual bareResult_quiet
  rw [← decoded_isSome]
  cases hevents : decodedEventTexts I (p ++ [10]) with
  | some events => rfl
  | none =>
    rw [parseDirectResult, extractResult, decoded_final hreported, hevents] at hparse
    cases hparse

end wins

/-- The verdict of the last review, and the status of the last result, win behind exactly these
transcripts. -/
theorem final_contract_wins (I : Interpreter) (p : Str) :
    ((∀ r, reviewSchema r → Textual r → NoBacktick r → ∃ result,
        parseReviewResult I (finalText p (render true true r)) = some (some result) ∧
        memberOf r "verdict" = some (.str result.verdict)) ↔
      Writable I (p ++ [10]) ∧ (¬ LeavesFenceOpen (p ++ [10]) ∨ NoRival I (p ++ [10]))) ∧
    ((∀ r, resultSchema r → Textual r → NoBacktick r → ∃ result,
        parseDirectResult I (finalText p (render true true r)) = some result ∧
        memberOf r "status" = some (.str result.status)) ↔
      Writable I (p ++ [10])) := by
  refine ⟨⟨?_, ?_⟩, ?_, ?_⟩
  · intro hwins
    have hclean : "clean" ∈ ["clean", "blocking"] := by decide
    have hblocking : "blocking" ∈ ["clean", "blocking"] := by decide
    obtain ⟨result, hparse, hmember⟩ :=
      hwins _ (bareReview_valid hclean) (bareReview_textual hclean) (bareReview_quiet hclean)
    obtain ⟨result', hparse', hmember'⟩ :=
      hwins _ (bareReview_valid hblocking) (bareReview_textual hblocking) (bareReview_quiet hblocking)
    have hwritable := writable_of_review hclean hparse
    refine ⟨hwritable, ?_⟩
    by_contra hneither
    rw [not_or, not_not] at hneither
    obtain ⟨hopen, hrivals⟩ := hneither
    obtain ⟨events, hevents⟩ := Option.isSome_iff_exists.mp ((decoded_isSome _).mpr hwritable)
    cases hrival : rivals I (p ++ [10]) events with
    | none => exact hrivals (noRival_of_rivals hevents hrival)
    | some rival =>
      -- the rival answers for both reviews
      have hextract := extractReview_rival hclean hopen hevents hrival
      have hextract' := extractReview_rival hblocking hopen hevents hrival
      rw [parseReviewResult, hextract] at hparse
      rw [parseReviewResult, hextract', hparse, Option.some.injEq, Option.some.injEq] at hparse'
      rw [← hparse'] at hmember'
      have hsame : memberOf (.obj (bareReview "clean")) "verdict" = memberOf (.obj (bareReview "blocking")) "verdict" := by
        rw [hmember, hmember']
      have hdiffer : codes "clean" ≠ codes "blocking" := by decide
      have hverdicts : some (PyJson.str (codes "clean")) = some (PyJson.str (codes "blocking")) := hsame
      cases hverdicts
  · rintro ⟨hwritable, hfree⟩ r hvalid htext htick
    obtain ⟨ms, rfl, -⟩ := id hvalid
    obtain ⟨fromFenced, hextract⟩ := extractReview_wins hvalid htext htick hwritable hfree
    exact parse_review hvalid hextract
  · intro hwins
    obtain ⟨result, hparse, -⟩ := hwins _ bareResult_valid bareResult_textual bareResult_quiet
    exact writable_of_result hparse
  · intro hwritable r hvalid htext htick
    obtain ⟨ms, rfl, -⟩ := id hvalid
    have hreported : Reported I (rereadMembers true ms) (render true true (.obj ms)) :=
      reported_result hvalid htext htick
    have hstatus : has (rereadMembers true ms) "status" = true := by
      rw [object_has named_result hvalid]
      decide
    obtain ⟨events, hevents⟩ := Option.isSome_iff_exists.mp ((decoded_isSome _).mpr hwritable)
    have hextract := extractResult_final (p := p) hreported hstatus
    rw [hevents] at hextract
    exact parse_result hvalid hextract

/-- An interpreter with the default limits of recursion. -/
def plainInterpreter : Interpreter where
  readFloat := some
  readDepth := 900
  writeDepth := 900
  reads_contract := by decide
  writes_contract := by decide

def openFence : Str := codes "```json\n\x7b\"verdict\": \"clean\", \"summary\": \"\", \"findings\": []\x7d"

theorem open_fence_answers :
    (reviewSchema (.obj (bareReview "blocking")) ∧ Textual (.obj (bareReview "blocking")) ∧
      NoBacktick (.obj (bareReview "blocking"))) ∧
    memberOf (.obj (bareReview "blocking")) "verdict" = some (.str (codes "blocking")) ∧
    (parseReviewResult plainInterpreter
      (finalText openFence (render true true (.obj (bareReview "blocking"))))).map (fun answer =>
        answer.map fun result => result.verdict) = some (some (codes "clean")) := by
  refine ⟨⟨bareReview_valid (by decide), bareReview_textual (by decide), bareReview_quiet (by decide)⟩, rfl, ?_⟩
  decide +kernel

end ParallelForge.Direct
