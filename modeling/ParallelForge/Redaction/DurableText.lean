import ParallelForge.Base.Substitute
import ParallelForge.Redaction.Assignment
import ParallelForge.Redaction.Edges

/-!
# Redaction of durable texts (`domain/payload.py:43-62`)

Five substitutions, one after the other. The first four know nothing of labels:
what they leave of a labelled value is still one visible word, as long as none
of their matches touches the label or crosses the end of the word.
-/

namespace ParallelForge.Redaction
open Base Regex

/-! ### The substitutions -/

/-- `re.sub(r":([^/@]+)@", ":[REDACTED]@", url)`. -/
def redactUrl (url : Text) : Text :=
  sub (seqs [lit ":", plus (noneOf "/@"), lit "@"]) (fun _ => text ":[REDACTED]@") url

/-- `value.split(maxsplit=1)[0]` and the mark. -/
def redactAuth (value : Text) : Text :=
  (value.dropWhile isSpaceCode).takeWhile (fun c => !isSpaceCode c) ++ text " [REDACTED]"

/-- `value[: value.find(sign) + 1]`. -/
def through (sign : ℕ) (value : Text) : Text :=
  match value.findIdx? (· == sign) with
  | some i => value.take (i + 1)
  | none => []

def redactAssignment (value : Text) : Text :=
  if value.contains 61 then through 61 value ++ redactedMark
  else through 58 value ++ redactedMark

section durable
variable (isAlnum : ℕ → Bool)

/-- `redact_durable_text`. -/
def Payload.redactDurableText (value : Text) : Text :=
  let redacted := sub privateKey (fun _ => redactedMark) value
  let redacted := sub (databaseUrl isAlnum) redactUrl redacted
  let redacted := sub (githubToken isAlnum) (fun _ => redactedMark) redacted
  let redacted := sub (authValue isAlnum) redactAuth redacted
  sub (assignment isAlnum) redactAssignment redacted

/-- The substitutions before that of labelled values. -/
def unlabelled : List (Regex ℕ × (Text → Text)) :=
  [(privateKey, fun _ => redactedMark), (databaseUrl isAlnum, redactUrl),
    (githubToken isAlnum, fun _ => redactedMark), (authValue isAlnum, redactAuth)]

theorem redactDurableText_eq (value : Text) : Payload.redactDurableText isAlnum value =
    sub (assignment isAlnum) redactAssignment
      ((unlabelled isAlnum).foldl (fun redacted e => sub e.1 e.2 redacted) value) := by
  simp only [Payload.redactDurableText, unlabelled, List.foldl_cons, List.foldl_nil]

end durable

/-! ### What a pattern starts with -/

section opening
variable (isAlnum : ℕ → Bool)

theorem opens_lit {q : ℕ → Bool} (s : String) (c : ℕ) (hs : (text s).head? = some c)
    (h : ∀ d, foldCase d = c → q d = true) : Opens q (lit s) := by
  obtain ⟨w, hw⟩ := List.head?_eq_some_iff.mp hs
  have hfirst : ∀ d, (foldCase d == c) = true → q d = true := fun d hd => h d (by simpa using hd)
  unfold lit
  rw [hw]
  cases w with
  | nil => exact hfirst
  | cons e w => exact ⟨hfirst, Or.inl rfl⟩

theorem fold_word (c : ℕ) (hlow : 60 ≤ c) (hhigh : c ≤ 126) (d : ℕ) (h : foldCase d = c) :
    wordLetter d = true := by
  have hvisible := visible_of_fold d (by omega) (by omega)
  rw [isVisible] at hvisible
  rw [wordLetter, hvisible, Bool.true_and, Bool.not_eq_true', ← Bool.not_eq_true,
    List.contains_iff_mem]
  intro hmem
  have hd : d = 44 ∨ d = 59 := by simpa [text] using hmem
  have hcomma : foldCase 44 = 44 := by decide
  have hsemicolon : foldCase 59 = 59 := by decide
  rcases hd with rfl | rfl
  · omega
  · omega

theorem opens_word (s : String) (c : ℕ) (hs : (text s).head? = some c) (hlow : 60 ≤ c)
    (hhigh : c ≤ 126) : Opens wordLetter (lit s) := opens_lit s c hs (fold_word c hlow hhigh)

theorem key_opens : Opens wordLetter privateKey := by
  have hdash : Opens wordLetter (lit "-----") := opens_lit "-----" 45 rfl fun d hd => by
    rw [fold_eq_sign d 45 (by decide) hd]
    decide
  exact ⟨⟨hdash, Or.inl rfl⟩, Or.inl rfl⟩

theorem url_opens : Opens wordLetter (databaseUrl isAlnum) := by
  refine ⟨trivial, Or.inr ⟨fun d hd => ?_, Or.inl rfl⟩⟩
  rw [Bool.and_eq_true, decide_eq_true_eq, decide_eq_true_eq] at hd
  exact fold_word (foldCase d) (by omega) (by omega) d rfl

theorem github_opens : Opens wordLetter (githubToken isAlnum) :=
  ⟨trivial, Or.inr ⟨⟨⟨opens_word "gh" 103 rfl (by decide) (by decide), Or.inl rfl⟩,
    opens_word "github_pat_" 103 rfl (by decide) (by decide), Or.inl rfl⟩, Or.inl rfl⟩⟩

theorem auth_opens : Opens wordLetter (authValue isAlnum) :=
  ⟨trivial, Or.inr ⟨⟨opens_word "bearer" 98 rfl (by decide) (by decide),
    opens_word "basic" 98 rfl (by decide) (by decide)⟩, Or.inl rfl⟩⟩

theorem label_opens : Opens wordLetter label :=
  ⟨⟨opens_word "api" 97 rfl (by decide) (by decide), Or.inl rfl⟩,
    ⟨opens_word "access" 97 rfl (by decide) (by decide), Or.inl rfl⟩,
    ⟨opens_word "refresh" 114 rfl (by decide) (by decide), Or.inl rfl⟩,
    ⟨opens_word "auth" 97 rfl (by decide) (by decide), Or.inl rfl⟩,
    opens_word "password" 112 rfl (by decide) (by decide),
    opens_word "secret" 115 rfl (by decide) (by decide),
    opens_word "credential" 99 rfl (by decide) (by decide),
    opens_word "token" 116 rfl (by decide) (by decide)⟩

theorem assignment_opens : Opens wordLetter (assignment isAlnum) :=
  ⟨trivial, Or.inr ⟨⟨⟨opens_word "x" 120 rfl (by decide) (by decide), Or.inl rfl⟩, trivial⟩,
    Or.inr ⟨label_opens, Or.inl rfl⟩⟩⟩

end opening

/-! ### What a substitution makes of a word -/

/-- Inside a word a substitution leaves a word that starts with no quote. -/
structure Keeps (r : Regex ℕ) (f : Text → Text) : Prop where
  opens : Opens wordLetter r
  consumes : consumes r = true
  letters : ∀ T i j, matchAt T r i = some j → Covers T wordLetter i j →
    ∀ c ∈ f (slice T i j), wordLetter c = true
  first : ∀ T i j, matchAt T r i = some j → Covers T wordLetter i j →
    (∃ c, T[i]? = some c ∧ isQuote c = false) →
      ∃ c, (f (slice T i j)).head? = some c ∧ isQuote c = false

section keeps
variable (isAlnum : ℕ → Bool) {T : Text} {i j : ℕ}

theorem keeps_mark {r : Regex ℕ} (hopens : Opens wordLetter r) (hcons : consumes r = true) :
    Keeps r fun _ => redactedMark where
  opens := hopens
  consumes := hcons
  letters _ _ _ _ _ := by decide
  first _ _ _ _ _ _ := ⟨91, rfl, rfl⟩

theorem letter_of_slice (h : Covers T wordLetter i j) : ∀ c ∈ slice T i j, wordLetter c = true := by
  intro c hc
  obtain ⟨k, hik, hkj, hget⟩ := mem_slice hc
  have hany := h k hik hkj
  rw [hget] at hany
  exact hany

theorem keeps_url : Keeps (databaseUrl isAlnum) redactUrl where
  opens := url_opens isAlnum
  consumes := rfl
  letters T i j hmatch hcovers := by
    refine splice_letters (fun m _ => by decide) (ordered_matchesFrom _ _ 0) (fun k c _ _ hget => ?_)
      fun m hm => ?_
    · exact letter_of_slice hcovers c (List.mem_of_getElem? hget)
    · have hbounds := finditer_bounds hm
      omega
  first T i j hmatch hcovers hfirst := by
    have hlt : i < j :=
      lt_of_consumes (databaseUrl isAlnum) rfl (List.mem_of_mem_head? (Option.mem_def.mpr hmatch))
    obtain ⟨c, hc, hquote⟩ := hfirst
    have hget : (slice T i j)[0]? = some c := by
      rw [← List.head?_eq_getElem?, slice_head hlt]
      exact hc
    have hpos : 0 < (slice T i j).length := (List.getElem?_eq_some_iff.mp hget).1
    exact splice_head ⟨c, hget, hquote⟩ hpos (fun m _ _ => ⟨58, rfl, rfl⟩) (ordered_matchesFrom _ _ 0)

/- An auth value has spaces in it. -/
theorem auth_spaced (hmatch : matchAt T (authValue isAlnum) i = some j) :
    ¬ Covers T wordLetter i j := by
  intro hcovers
  have hmem := List.mem_of_mem_head? (Option.mem_def.mpr hmatch)
  rw [authValue] at hmem
  obtain ⟨a, ha, h₁⟩ := mem_ends_seqs_cons.mp hmem
  obtain ⟨k, hk, h₂⟩ := mem_ends_seqs_cons.mp h₁
  obtain ⟨p, hp, h₃⟩ := mem_ends_seqs_cons.mp h₂
  have hia := ends_ge _ ha
  have hak := ends_ge _ hk
  have hpj := ends_ge _ h₃
  have hspaces := mem_ends_plus.mp hp
  change k + 1 ≤ p ∧ p ≤ k + run isSpaceCode T k at hspaces
  have hspace : T[k]?.any isSpaceCode = true := covers_run isSpaceCode k k le_rfl (by omega)
  have hletter := any_visible visible_word (hcovers k (by omega) (by omega))
  rw [hspace] at hletter
  cases hletter

theorem keeps_auth : Keeps (authValue isAlnum) redactAuth where
  opens := auth_opens isAlnum
  consumes := rfl
  letters _ _ _ hmatch hcovers := absurd hcovers (auth_spaced isAlnum hmatch)
  first _ _ _ hmatch hcovers _ := absurd hcovers (auth_spaced isAlnum hmatch)

theorem unlabelled_keeps : ∀ e ∈ unlabelled isAlnum, Keeps e.1 e.2 := by
  intro e he
  unfold unlabelled at he
  rcases List.mem_cons.mp he with rfl | he
  · exact keeps_mark key_opens rfl
  rcases List.mem_cons.mp he with rfl | he
  · exact keeps_url isAlnum
  rcases List.mem_cons.mp he with rfl | he
  · exact keeps_mark (github_opens isAlnum) rfl
  · obtain rfl := List.mem_singleton.mp he
    exact keeps_auth isAlnum

end keeps

end ParallelForge.Redaction
