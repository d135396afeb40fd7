import ParallelForge.Base.PyJsonTokens
import ParallelForge.Direct.Extraction

/-!
# The fence at the end of a transcript

What the scan for fenced objects finds depends on whether the transcript before the last
fence leaves one open: then the first of its blocks that nothing closed ends at the ticks
that open the last fence, or swallows that fence.
-/

namespace ParallelForge.Direct
open Base Regex

/-! ## The parts of the pattern -/

theorem mem_ends_word {text w : List ℕ} {i j : ℕ} :
    j ∈ ends text (seqs (w.map fun c => .chr fun d => d == c)) i ↔
      w <+: text.drop i ∧ j = i + w.length := by
  have hletter : ∀ (c i : ℕ) (w : List ℕ), c :: w <+: text.drop i ↔
      text[i]?.any (fun d => d == c) = true ∧ w <+: text.drop (i + 1) := by
    intro c i w
    rw [← List.head?_drop, ← List.tail_drop]
    cases text.drop i with
    | nil => simp
    | cons d rest =>
      simp only [List.cons_prefix_cons, List.head?_cons, Option.any_some, beq_iff_eq, List.tail_cons]
      exact and_congr_left fun _ => eq_comm
  induction w generalizing i with
  | nil => simp [seqs, ends]
  | cons c w ih =>
    cases w with
    | nil =>
      rw [List.map_cons, List.map_nil, seqs, mem_ends_chr, hletter]
      simp
    | cons d w =>
      have hseq : seqs ((c :: d :: w).map fun c => .chr fun d => d == c) =
          .seq (.chr fun d => d == c) (seqs ((d :: w).map fun c => .chr fun d => d == c)) := rfl
      rw [hseq, mem_ends_seq, hletter]
      simp only [mem_ends_chr, ih]
      constructor
      · rintro ⟨_, ⟨hc, rfl⟩, hw, rfl⟩
        refine ⟨⟨hc, hw⟩, ?_⟩
        simp only [List.length_cons]
        omega
      · rintro ⟨⟨hc, hw⟩, rfl⟩
        refine ⟨_, ⟨hc, rfl⟩, hw, ?_⟩
        simp only [List.length_cons]
        omega

def TicksAt (text : List ℕ) (k : ℕ) : Prop :=
  text[k]? = some 96 ∧ text[k + 1]? = some 96 ∧ text[k + 2]? = some 96

def JsonAt (text : List ℕ) (k : ℕ) : Prop := codes "json" <+: text.drop k

theorem prefix_letter {text w : List ℕ} {i k : ℕ} (h : w <+: text.drop i) (hk : k < w.length) :
    text[i + k]? = w[k]? := by
  obtain ⟨rest, hrest⟩ := h
  rw [← List.getElem?_drop, ← hrest, List.getElem?_append_left hk]

theorem prefix_ticks {text : List ℕ} {i : ℕ} : codes "```" <+: text.drop i ↔ TicksAt text i := by
  constructor
  · intro h
    exact ⟨prefix_letter (k := 0) h (by decide), prefix_letter (k := 1) h (by decide),
      prefix_letter (k := 2) h (by decide)⟩
  · rintro ⟨h₀, h₁, h₂⟩
    refine ⟨text.drop (i + 3), ?_⟩
    apply List.ext_getElem?
    intro k
    have hlen : (codes "```").length = 3 := rfl
    by_cases hk : k < 3
    · rw [List.getElem?_append_left (by omega), List.getElem?_drop]
      have hcases : k = 0 ∨ k = 1 ∨ k = 2 := by omega
      rcases hcases with rfl | rfl | rfl
      · exact h₀.symm
      · exact h₁.symm
      · exact h₂.symm
    · rw [List.getElem?_append_right (by omega), List.getElem?_drop, List.getElem?_drop, hlen]
      congr 1
      omega

theorem mem_ends_empty {text : List ℕ} {i j : ℕ} : j ∈ ends text .empty i ↔ j = i := by
  rw [ends, List.mem_singleton]

theorem mem_lead {text : List ℕ} {i a : ℕ} : a ∈ ends text fence.lead i ↔
    TicksAt text i ∧ ∃ k, (k = i + 3 ∨ JsonAt text (i + 3) ∧ k = i + 7) ∧ k ≤ a ∧
      a ≤ k + run Redaction.isSpaceCode text k := by
  have hlead : fence.lead = .seq (word "```") (.seq (opt (word "json")) (star Redaction.space)) := rfl
  have hticks : (codes "```").length = 3 := rfl
  have hjson : (codes "json").length = 4 := rfl
  rw [hlead]
  simp only [mem_ends_seq, opt, mem_ends_alt, word, mem_ends_word, Redaction.space, mem_ends_star,
    mem_ends_empty, hticks, hjson, prefix_ticks]
  constructor
  · rintro ⟨_, ⟨hopen, rfl⟩, k, hk, hrun⟩
    refine ⟨hopen, k, ?_, hrun⟩
    rcases hk with ⟨hj, rfl⟩ | rfl
    · exact Or.inr ⟨hj, by omega⟩
    · exact Or.inl rfl
  · rintro ⟨hopen, k, hk, hrun⟩
    refine ⟨_, ⟨hopen, rfl⟩, k, ?_, hrun⟩
    rcases hk with rfl | ⟨hj, rfl⟩
    · exact Or.inr rfl
    · exact Or.inl ⟨hj, by omega⟩

theorem mem_trail {text : List ℕ} {j c : ℕ} : c ∈ ends text fence.trail j ↔
    ∃ k, j ≤ k ∧ k ≤ j + run Redaction.isSpaceCode text j ∧ TicksAt text k ∧ c = k + 3 := by
  have htrail : fence.trail = .seq (star Redaction.space) (word "```") := rfl
  have hticks : (codes "```").length = 3 := rfl
  rw [htrail]
  simp only [mem_ends_seq, word, mem_ends_word, Redaction.space, mem_ends_star, hticks, prefix_ticks]
  constructor
  · rintro ⟨k, ⟨hjk, hk⟩, hopen, rfl⟩
    exact ⟨k, hjk, hk, hopen, rfl⟩
  · rintro ⟨k, hjk, hk, hopen, rfl⟩
    exact ⟨k, ⟨hjk, hk⟩, hopen, rfl⟩

/-! ## Opening and closing -/

theorem fence_delimited : fence = delimited fence.lead fence.trail (fun c => c == 123) (fun c => c == 125) := rfl

/-- A block that begins at one position opens at another. -/
def Opens (text : List ℕ) (i a : ℕ) : Prop := Opening text fence.lead (fun c => c == 123) i a

/-- The brace that closes a block, and the end of its fence. -/
def Closes (text : List ℕ) (e c : ℕ) : Prop := Closing text fence.trail (fun c => c == 125) e c

theorem any_eq {text : List ℕ} {i c : ℕ} : text[i]?.any (fun d => d == c) = true ↔ text[i]? = some c := by
  cases text[i]? with
  | none => simp
  | some d => simp

theorem within_lead : Within (fun c => !(c == 123)) fence.lead := by
  have hspace : ∀ c, Redaction.isSpaceCode c = true → (!(c == 123)) = true := by
    intro c hc
    by_contra h
    have hbrace : c = 123 := by simpa using h
    rw [hbrace] at hc
    cases hc
  have hletter : ∀ d, d ≠ 123 → ∀ c, (c == d) = true → (!(c == 123)) = true := by
    intro d hd c hc
    rw [beq_iff_eq] at hc
    rw [hc]
    simpa using hd
  refine ⟨⟨hletter _ (by decide), hletter _ (by decide), hletter _ (by decide)⟩, ⟨?_, trivial⟩, hspace⟩
  exact ⟨hletter _ (by decide), hletter _ (by decide), hletter _ (by decide), hletter _ (by decide)⟩

theorem space_at {text : List ℕ} {i k : ℕ} (hi : i ≤ k) (hk : k < i + run Redaction.isSpaceCode text i) :
    ∃ c, text[k]? = some c ∧ Redaction.isSpaceCode c = true := by
  have hget := covers_run Redaction.isSpaceCode i k hi hk
  cases hc : text[k]? with
  | none => rw [hc] at hget; cases hget
  | some c =>
    rw [hc] at hget
    exact ⟨c, rfl, hget⟩

theorem not_space_at {text : List ℕ} {i k c : ℕ} (hi : i ≤ k) (hk : k < i + run Redaction.isSpaceCode text i)
    (hc : text[k]? = some c) : Redaction.isSpaceCode c = true := by
  obtain ⟨d, hd, hspace⟩ := space_at hi hk
  rw [hc] at hd
  cases hd
  exact hspace

/- Blanks are read up to the first tick. -/
theorem trail_one {text : List ℕ} {j c c' : ℕ} (h : c ∈ ends text fence.trail j)
    (h' : c' ∈ ends text fence.trail j) : c = c' := by
  rw [mem_trail] at h h'
  obtain ⟨k, hjk, hk, hticks, rfl⟩ := h
  obtain ⟨k', hjk', hk', hticks', rfl⟩ := h'
  rcases Nat.lt_trichotomy k k' with hlt | rfl | hlt
  · have hspace := not_space_at hjk (by omega) hticks.1
    cases hspace
  · rfl
  · have hspace := not_space_at hjk' (by omega) hticks'.1
    cases hspace

theorem closes_iff {text : List ℕ} {e c : ℕ} : Closes text e c ↔ text[e]? = some 125 ∧
    ∃ k, e + 1 ≤ k ∧ k ≤ e + 1 + run Redaction.isSpaceCode text (e + 1) ∧ TicksAt text k ∧ c = k + 3 := by
  rw [Closes, Closing, any_eq, ← mem_trail]
  refine and_congr_right fun _ => ⟨List.mem_of_mem_head?, fun hmem => ?_⟩
  cases hl : ends text fence.trail (e + 1) with
  | nil => rw [hl] at hmem; cases hmem
  | cons d l =>
    have hd : d ∈ ends text fence.trail (e + 1) := by
      rw [hl]
      exact List.mem_cons_self
    rw [trail_one hd hmem]
    rfl

theorem opens_iff {text : List ℕ} {i a : ℕ} : Opens text i a ↔ text[a]? = some 123 ∧ TicksAt text i ∧
    ∃ k, (k = i + 3 ∨ JsonAt text (i + 3) ∧ k = i + 7) ∧ k ≤ a ∧
      a ≤ k + run Redaction.isSpaceCode text k := by
  rw [Opens, Opening, any_eq, mem_lead, and_comm]

/-! ## A fence behind a line -/

section front
variable {P more : List ℕ} (hP : P.getLast? = some 10)
include hP

theorem last_feed : 0 < P.length ∧ P[P.length - 1]? = some 10 := by
  rw [List.getLast?_eq_getElem?] at hP
  refine ⟨?_, hP⟩
  cases P with
  | nil => cases hP
  | cons c P => simp

variable (more) in
theorem last_feed_append : (P ++ more)[P.length - 1]? = some 10 := by
  obtain ⟨hpos, hfeed⟩ := last_feed hP
  rw [List.getElem?_append_left (by omega), hfeed]

/- No ticks stand across the end of the line. -/
theorem ticks_before {k : ℕ} (h : TicksAt (P ++ more) k) (hk : k < P.length) : k + 4 ≤ P.length := by
  obtain ⟨h₀, h₁, h₂⟩ := h
  have hfeed := last_feed_append more hP
  by_contra hlt
  have hcases : P.length - 1 = k ∨ P.length - 1 = k + 1 ∨ P.length - 1 = k + 2 := by omega
  rcases hcases with heq | heq | heq
  · rw [heq, h₀] at hfeed
    cases hfeed
  · rw [heq, h₁] at hfeed
    cases hfeed
  · rw [heq, h₂] at hfeed
    cases hfeed

theorem ticks_inside {k : ℕ} (h : TicksAt P k) : k + 4 ≤ P.length := by
  have hlt : k < P.length := by
    by_contra hge
    have hnone := h.1
    rw [List.getElem?_eq_none (by omega)] at hnone
    cases hnone
  have hsame : TicksAt (P ++ []) k := by rwa [List.append_nil]
  exact ticks_before hP hsame hlt

omit hP in
variable (more) in
theorem tick_behind : (P ++ codes "```" ++ more)[P.length]? = some 96 := by
  rw [List.append_assoc, List.getElem?_append_right (Nat.le_refl _), Nat.sub_self]
  rfl

omit hP in
theorem agree_front (k : ℕ) (hk : k < P.length) : P[k]? = (P ++ codes "```" ++ more)[k]? := by
  rw [List.append_assoc, List.getElem?_append_left hk]

omit hP in
variable (more) in
theorem length_front : P.length ≤ (P ++ codes "```" ++ more).length := by
  rw [List.append_assoc, List.length_append]
  omega

/- What opens before the end of the line opens there altogether. -/
theorem opens_front {i a : ℕ} (h : Opens (P ++ codes "```" ++ more) i a) (hi : i < P.length) :
    a < P.length := by
  obtain ⟨hbrace, hticks, k, hk, hka, hrun⟩ := opens_iff.mp h
  have htick := tick_behind (P := P) more
  rw [List.append_assoc] at hticks
  have hbefore := ticks_before hP hticks hi
  have hkP : k ≤ P.length := by
    rcases hk with rfl | ⟨hjson, rfl⟩
    · omega
    · have hfeed := last_feed_append (codes "```" ++ more) hP
      rw [← List.append_assoc] at hfeed
      by_contra hlt
      have hletter := prefix_letter (k := P.length - 1 - (i + 3)) hjson (by
        have hlen : (codes "json").length = 4 := rfl
        omega)
      rw [show i + 3 + (P.length - 1 - (i + 3)) = P.length - 1 by omega, hfeed] at hletter
      have hmem : 10 ∈ codes "json" := List.mem_of_getElem? hletter.symm
      revert hmem
      decide
  by_contra hge
  rcases Nat.lt_or_eq_of_le (Nat.not_lt.mp hge) with hlt | heq
  · have hspace := not_space_at hkP (by omega) htick
    cases hspace
  · rw [← heq, htick] at hbrace
    cases hbrace

/- What closes before the end of the line does so with ticks on it, or with those behind it. -/
theorem closes_front {e c : ℕ} (h : Closes (P ++ codes "```" ++ more) e c) (he : e < P.length) :
    c ≤ P.length ∨ c = P.length + 3 ∧
      P.length ≤ e + 1 + run Redaction.isSpaceCode (P ++ codes "```" ++ more) (e + 1) := by
  obtain ⟨-, k, hek, hrun, hticks, rfl⟩ := closes_iff.mp h
  rcases Nat.lt_trichotomy k P.length with hlt | rfl | hgt
  · rw [List.append_assoc] at hticks
    have hbefore := ticks_before hP hticks hlt
    omega
  · exact Or.inr ⟨rfl, hrun⟩
  · have hspace := not_space_at (i := e + 1) (k := P.length) (by omega) (by omega) (tick_behind more)
    cases hspace

omit hP in
theorem closes_inside {e c : ℕ} (h : Closes P e c) : e < P.length ∧ c ≤ P.length := by
  obtain ⟨hbrace, k, -, -, ⟨-, -, h₂⟩, rfl⟩ := closes_iff.mp h
  have hlt : ∀ {j d : ℕ}, P[j]? = some d → j < P.length := by
    intro j d hj
    by_contra hge
    rw [List.getElem?_eq_none (by omega)] at hj
    cases hj
  have hk := hlt h₂
  exact ⟨hlt hbrace, by omega⟩

omit hP in
variable (more) in
theorem closes_append {e c : ℕ} (h : Closes P e c) : Closes (P ++ codes "```" ++ more) e c :=
  Closing.agree rfl (fun _ _ _ => trail_one) (Nat.le_refl _) (length_front _) agree_front h (closes_inside h).2

omit hP in
theorem closes_restrict {e c : ℕ} (h : Closes (P ++ codes "```" ++ more) e c) (hc : c ≤ P.length) :
    Closes P e c :=
  Closing.agree rfl (fun _ _ _ => trail_one) (length_front _) (Nat.le_refl _)
    (fun k hk => (agree_front k hk).symm) h hc

omit hP in
theorem opens_append {i a : ℕ} (h : Opens P i a) : Opens (P ++ codes "```" ++ more) i a := by
  refine Opening.agree rfl (Nat.le_refl _) (length_front _) agree_front h ?_
  by_contra hge
  have hbrace := (opens_iff.mp h).1
  rw [List.getElem?_eq_none (by omega)] at hbrace
  cases hbrace

theorem opens_restrict {i a : ℕ} (h : Opens (P ++ codes "```" ++ more) i a) (hi : i < P.length) :
    Opens P i a :=
  Opening.agree rfl (length_front _) (Nat.le_refl _) (fun k hk => (agree_front k hk).symm) h
    (opens_front hP h hi)

variable (more) in
/-- A block that is found before the end of the line is found whatever follows. -/
theorem groupAt_front {i : ℕ} {m : ℕ × ℕ × ℕ} (h : groupAt P fence i = some m) :
    groupAt (P ++ codes "```" ++ more) fence i = some m := by
  obtain ⟨a, b, c⟩ := m
  rw [fence_delimited, groupAt_eq_some within_lead] at h ⊢
  obtain ⟨hopen, e, rfl, hae, hclose, hfirst⟩ := h
  refine ⟨opens_append hopen, e, rfl, hae, closes_append more hclose, ?_⟩
  intro e' c' hae' hlt hclose'
  have heP := (closes_inside hclose).1
  rcases closes_front hP hclose' (by omega) with hc' | ⟨-, hrun⟩
  · exact hfirst e' c' hae' hlt (closes_restrict hclose' hc')
  · have hbrace := (closes_iff.mp (closes_append more hclose)).1
    have hspace := not_space_at (i := e' + 1) (k := e) (by omega) (by omega) hbrace
    cases hspace

variable (more) in
theorem groupAt_front_none {i : ℕ} (h : ∀ a, ¬ Opens P i a) (hi : i < P.length) :
    groupAt (P ++ codes "```" ++ more) fence i = none := by
  rw [fence_delimited, groupAt_eq_none]
  intro a e c hopen
  exact absurd (opens_restrict hP hopen hi) (h a)

end front

/-! ## The last fence -/

/-- What follows the ticks that open the last fence. -/
def lastBlock (body : Str) : Str := codes "json" ++ 10 :: (body ++ 10 :: (codes "```" ++ [10]))

section last
variable {P body : List ℕ} (hP : P.getLast? = some 10) (hhead : body.head? = some 123)
  (hlast : body.getLast? = some 125) (hletters : ∀ c ∈ body, c ≠ 96)

theorem last_letter (j : ℕ) : (P ++ codes "```" ++ lastBlock body)[P.length + j]? =
    if j < 8 then (codes "```json\n")[j]?
    else if j < body.length + 8 then body[j - 8]?
    else (codes "\n```\n")[j - (body.length + 8)]? := by
  have hsplit : P ++ codes "```" ++ lastBlock body = P ++ (codes "```json\n" ++ (body ++ codes "\n```\n")) := by
    rw [List.append_assoc]
    rfl
  have hopen : (codes "```json\n").length = 8 := rfl
  rw [hsplit, List.getElem?_append_right (by omega), Nat.add_sub_cancel_left]
  split
  · rw [List.getElem?_append_left (by omega)]
  split
  · rw [List.getElem?_append_right (by omega), List.getElem?_append_left (by omega), hopen]
  · rw [List.getElem?_append_right (by omega), List.getElem?_append_right (by omega), hopen]
    congr 1
    omega

variable (body) in
theorem last_length : (P ++ codes "```" ++ lastBlock body).length = P.length + body.length + 13 := by
  have hopen : (codes "```").length = 3 := rfl
  have hjson : (codes "json").length = 4 := rfl
  simp only [lastBlock, List.length_append, List.length_cons, List.length_nil, hopen, hjson]
  omega

include hhead hlast in
theorem body_long : 2 ≤ body.length := by
  cases body with
  | nil => cases hhead
  | cons c body =>
    cases body with
    | nil =>
      cases hhead
      cases hlast
    | cons d body => simp

include hletters in
theorem last_tick {j : ℕ} (h : (P ++ codes "```" ++ lastBlock body)[P.length + j]? = some 96) :
    j < 3 ∨ body.length + 9 ≤ j ∧ j < body.length + 12 := by
  rw [last_letter] at h
  split at h
  · next hj =>
    have hopen : ∀ j < 8, (codes "```json\n")[j]? = some 96 → j < 3 := by decide
    exact Or.inl (hopen j hj h)
  split at h
  · exact absurd rfl (hletters 96 (List.mem_of_getElem? h))
  · next hj =>
    have hclose : ∀ l < 5, (codes "\n```\n")[l]? = some 96 → 1 ≤ l ∧ l < 4 := by decide
    have hlt : j - (body.length + 8) < 5 := by
      by_contra hge
      have hlen : (codes "\n```\n").length = 5 := rfl
      rw [List.getElem?_eq_none (by omega)] at h
      cases h
    have hl := hclose _ hlt h
    omega

theorem last_brace {j d : ℕ} (hd : d = 123 ∨ d = 125)
    (h : (P ++ codes "```" ++ lastBlock body)[P.length + j]? = some d) : 8 ≤ j ∧ j < body.length + 8 := by
  rw [last_letter] at h
  have hnot : d ∉ codes "```json\n" ∧ d ∉ codes "\n```\n" := by
    rcases hd with rfl | rfl <;> decide
  split at h
  · exact absurd (List.mem_of_getElem? h) hnot.1
  split at h
  · omega
  · exact absurd (List.mem_of_getElem? h) hnot.2

include hletters in
theorem last_ticks {k : ℕ} (h : TicksAt (P ++ codes "```" ++ lastBlock body) k) (hk : P.length ≤ k) :
    k = P.length ∨ k = P.length + body.length + 9 := by
  obtain ⟨j, rfl⟩ := Nat.exists_eq_add_of_le hk
  obtain ⟨h₀, -, h₂⟩ := h
  have hfirst := last_tick hletters h₀
  have hthird := last_tick (j := j + 2) hletters h₂
  omega

include hhead hlast hletters

theorem closes_last {e c : ℕ} (h : Closes (P ++ codes "```" ++ lastBlock body) e c) (he : P.length ≤ e) :
    e = P.length + body.length + 7 ∧ c = P.length + body.length + 12 := by
  obtain ⟨hbrace, k, hek, hrun, hticks, rfl⟩ := closes_iff.mp h
  have hlong := body_long hhead hlast
  have hk := last_ticks hletters hticks (by omega)
  have hj := last_brace (j := e - P.length) (Or.inr rfl) (by rw [Nat.add_sub_cancel' he]; exact hbrace)
  refine ⟨?_, by omega⟩
  by_contra hne
  have hend : (P ++ codes "```" ++ lastBlock body)[P.length + (body.length + 7)]? = some 125 := by
    rw [last_letter, if_neg (by omega), if_pos (by omega), ← hlast, List.getLast?_eq_getElem?]
    congr 1
  have hspace := not_space_at (i := e + 1) (by omega) (by omega) hend
  cases hspace

omit hletters in
theorem closes_body : Closes (P ++ codes "```" ++ lastBlock body) (P.length + body.length + 7)
    (P.length + body.length + 12) := by
  have hlong := body_long hhead hlast
  have hclose : ∀ l, (P ++ codes "```" ++ lastBlock body)[P.length + (body.length + 8 + l)]? =
      (codes "\n```\n")[l]? := by
    intro l
    rw [last_letter, if_neg (by omega), if_neg (by omega)]
    congr 1
    omega
  have hrun : 1 ≤ run Redaction.isSpaceCode (P ++ codes "```" ++ lastBlock body) (P.length + body.length + 7 + 1) := by
    apply le_run
    intro k hk
    rw [show P.length + body.length + 7 + 1 + k = P.length + (body.length + 8 + 0) by omega, hclose]
    rfl
  rw [closes_iff]
  refine ⟨?_, P.length + body.length + 9, by omega, by omega, ⟨?_, ?_, ?_⟩, by omega⟩
  · rw [Nat.add_assoc, last_letter, if_neg (by omega), if_pos (by omega), ← hlast, List.getLast?_eq_getElem?]
    congr 1
  · rw [show P.length + body.length + 9 = P.length + (body.length + 8 + 1) by omega, hclose]
    rfl
  · rw [show P.length + body.length + 9 + 1 = P.length + (body.length + 8 + 2) by omega, hclose]
    rfl
  · rw [show P.length + body.length + 9 + 2 = P.length + (body.length + 8 + 3) by omega, hclose]
    rfl

omit hletters in
theorem opens_body : Opens (P ++ codes "```" ++ lastBlock body) P.length (P.length + 8) := by
  have hlong := body_long hhead hlast
  have hopen : ∀ j, j < 8 → (P ++ codes "```" ++ lastBlock body)[P.length + j]? = (codes "```json\n")[j]? := by
    intro j hj
    rw [last_letter, if_pos hj]
  have hrun : 1 ≤ run Redaction.isSpaceCode (P ++ codes "```" ++ lastBlock body) (P.length + 7) := by
    apply le_run
    intro k hk
    rw [show P.length + 7 + k = P.length + 7 by omega, hopen 7 (by omega)]
    rfl
  rw [opens_iff]
  refine ⟨?_, ⟨hopen 0 (by omega), hopen 1 (by omega), hopen 2 (by omega)⟩, P.length + 7,
    Or.inr ⟨?_, rfl⟩, by omega, by omega⟩
  · rw [last_letter, if_neg (by omega), if_pos (by omega), ← hhead, List.head?_eq_getElem?]
  · have hlen : P.length + 3 = (P ++ codes "```").length := by
      rw [List.length_append]
      rfl
    rw [JsonAt, hlen, List.drop_left]
    exact ⟨_, rfl⟩

omit hhead hlast in
theorem not_opens_behind {i a : ℕ} (hi : P.length < i) :
    ¬ Opens (P ++ codes "```" ++ lastBlock body) i a := by
  intro h
  obtain ⟨hbrace, hticks, k, hk, hka, -⟩ := opens_iff.mp h
  have hplace := last_ticks hletters hticks (by omega)
  have hj := last_brace (j := a - P.length) (Or.inl rfl) (by rw [Nat.add_sub_cancel' (by omega)]; exact hbrace)
  omega

theorem groupAt_last : groupAt (P ++ codes "```" ++ lastBlock body) fence P.length =
    some (P.length + 8, P.length + body.length + 8, P.length + body.length + 12) := by
  have hlong := body_long hhead hlast
  rw [fence_delimited, groupAt_eq_some within_lead]
  refine ⟨opens_body hhead hlast, P.length + body.length + 7, by omega, by omega,
    closes_body hhead hlast, ?_⟩
  intro e' c' hae' hlt hclose
  have heq := (closes_last hhead hlast hletters hclose (by omega)).1
  omega

omit hhead hlast in
theorem groupsFrom_behind (n i : ℕ) (hi : P.length < i) :
    groupsFrom (P ++ codes "```" ++ lastBlock body) fence n i = [] := by
  induction n generalizing i with
  | zero => rfl
  | succ n ih =>
    have hnone : groupAt (P ++ codes "```" ++ lastBlock body) fence i = none := by
      rw [fence_delimited, groupAt_eq_none]
      intro a e c hopen
      exact absurd hopen (not_opens_behind hletters hi)
    rw [groupsFrom, hnone]
    split
    · rfl
    · exact ih (i + 1) (by omega)

end last

/-! ## The scan -/

/-- A block opens from a position on that no scan closes. -/
def OpenFrom (text : List ℕ) (e : ℕ) : Prop := ∃ k a, e ≤ k ∧ Opens text k a

/-- Behind the last of its blocks a text opens another. -/
def LeavesFenceOpen (text : List ℕ) : Prop := OpenFrom text (endOf (groups text fence) 0)

section scan
variable {P body : List ℕ} (hP : P.getLast? = some 10) (hhead : body.head? = some 123)
  (hlast : body.getLast? = some 125) (hletters : ∀ c ∈ body, c ≠ 96)

/- With the ticks behind a text the rest does not matter for what ends there. -/
theorem closes_ticks {more more' : List ℕ} {e : ℕ} (h : Closes (P ++ codes "```" ++ more) e (P.length + 3)) :
    Closes (P ++ codes "```" ++ more') e (P.length + 3) := by
  have hlen : (P ++ codes "```").length = P.length + 3 := by
    rw [List.length_append]
    rfl
  refine Closing.agree rfl (fun _ _ _ => trail_one) ?_ ?_ ?_ h (Nat.le_refl _)
  · rw [List.length_append]
    omega
  · rw [List.length_append]
    omega
  · intro k hk
    have hleft : ∀ rest : List ℕ, (P ++ codes "```" ++ rest)[k]? = (P ++ codes "```")[k]? :=
      fun rest => List.getElem?_append_left (by omega)
    rw [hleft, hleft]

include hP hhead hlast hletters

/- A block that is left open ends at the ticks of the last fence, or swallows it. -/
theorem groupAt_open {i a : ℕ} (hopen : Opens P i a) (hnone : groupAt P fence i = none) :
    (∃ m, groupAt (P ++ codes "```" ++ lastBlock body) fence i = some m ∧
      groupAt (P ++ codes "```" ++ []) fence i = some m ∧ m.2.1 ≤ P.length ∧ m.2.2 = P.length + 3) ∨
    ∃ m, groupAt (P ++ codes "```" ++ lastBlock body) fence i = some m ∧
      groupAt (P ++ codes "```" ++ []) fence i = none ∧ m.1 < P.length ∧
      m.2.1 = P.length + body.length + 8 ∧ m.2.2 = P.length + body.length + 12 := by
  have hlt : a < P.length := by
    by_contra hge
    have hbrace := (opens_iff.mp hopen).1
    rw [List.getElem?_eq_none (by omega)] at hbrace
    cases hbrace
  have hstays : ∀ e c, a < e → ¬ Closes P e c := fun e c hae => groupAt_eq_none.mp hnone a e c hopen hae
  -- the last fence closes it at the latest
  cases hfound : groupAt (P ++ codes "```" ++ lastBlock body) fence i with
  | none =>
    exact absurd (closes_body hhead hlast) (groupAt_eq_none.mp hfound a _ _ (opens_append hopen) (by omega))
  | some m =>
    obtain ⟨a', b, c⟩ := m
    have hblock := (groupAt_eq_some within_lead).mp hfound
    obtain ⟨hopen', e, rfl, hae, hclose, hfirst⟩ := hblock
    have ha : a' = a := hopen'.unique within_lead (opens_append hopen)
    subst ha
    by_cases heP : e < P.length
    · -- closed by blanks and the ticks behind the text
      rcases closes_front hP hclose heP with hc | ⟨rfl, -⟩
      · exact absurd (closes_restrict hclose hc) (hstays e c hae)
      refine Or.inl ⟨_, rfl, ?_, by simp only; omega, rfl⟩
      refine (groupAt_eq_some within_lead).mpr ⟨opens_append hopen, e, rfl, hae, closes_ticks hclose, ?_⟩
      intro e' c' hae' hlt' hclose'
      rcases closes_front hP hclose' (by omega) with hc' | ⟨rfl, -⟩
      · exact hstays e' c' hae' (closes_restrict hclose' hc')
      · exact hfirst e' _ hae' hlt' (closes_ticks hclose')
    · obtain ⟨rfl, rfl⟩ := closes_last hhead hlast hletters hclose (by omega)
      refine Or.inr ⟨_, rfl, ?_, hlt, rfl, rfl⟩
      refine groupAt_eq_none.mpr ?_
      intro a'' e' c' hopen'' hae' hclose'
      have ha : a'' = a' := hopen''.unique within_lead (opens_append hopen)
      subst ha
      have heP' : e' < P.length := by
        by_contra hge
        have hbrace := (closes_iff.mp hclose').1
        rw [List.append_nil, List.getElem?_append_right (by omega)] at hbrace
        exact absurd (List.mem_of_getElem? hbrace) (by decide)
      rcases closes_front hP hclose' heP' with hc' | ⟨rfl, -⟩
      · exact hstays e' c' hae' (closes_restrict hclose' hc')
      · exact hfirst e' _ hae' (by omega) (closes_ticks hclose')

omit hP hhead hlast hletters in
theorem groupsFrom_ticks (n i : ℕ) (hi : P.length ≤ i) :
    groupsFrom (P ++ codes "```" ++ []) fence n i = [] := by
  induction n generalizing i with
  | zero => rfl
  | succ n ih =>
    have hnone : groupAt (P ++ codes "```" ++ []) fence i = none := by
      refine groupAt_eq_none.mpr ?_
      intro a e c hopen
      obtain ⟨hbrace, -, k, hk, hka, -⟩ := opens_iff.mp hopen
      rw [List.append_nil, List.getElem?_append_right (by omega)] at hbrace
      exact absurd (List.mem_of_getElem? hbrace) (by decide)
    rw [groupsFrom, hnone]
    split
    · rfl
    · exact ih (i + 1) (by omega)

/-- Both texts are scanned like the part they share, until a block is left open. -/
theorem scan (m n l i : ℕ) (hi : i ≤ P.length) (hm : P.length < i + m)
    (hn : (P ++ codes "```" ++ lastBlock body).length < i + n)
    (hl : (P ++ codes "```" ++ []).length < i + l) :
    (¬ OpenFrom P (endOf (groupsFrom P fence m i) i) ∧
      groupsFrom (P ++ codes "```" ++ lastBlock body) fence n i = groupsFrom P fence m i ++
        [(P.length + 8, P.length + body.length + 8, P.length + body.length + 12)]) ∨
    (OpenFrom P (endOf (groupsFrom P fence m i) i) ∧ ∃ rest junk,
      groupsFrom (P ++ codes "```" ++ lastBlock body) fence n i = groupsFrom P fence m i ++ rest ++ junk ∧
      groupsFrom (P ++ codes "```" ++ []) fence l i = groupsFrom P fence m i ++ rest ∧
      (∀ x ∈ rest, x.2.1 ≤ P.length) ∧
      ∀ x ∈ junk, x.1 < P.length ∧ x.2.1 = P.length + body.length + 8) := by
  have hbehind := groupsFrom_behind (P := P) hletters
  have hticks := groupsFrom_ticks (P := P)
  have hlength := last_length (P := P) body
  have hshort := length_front (P := P) []
  induction m generalizing n l i with
  | zero => omega
  | succ m ih =>
    cases n with
    | zero => omega
    | succ n =>
    cases l with
    | zero => omega
    | succ l =>
    rcases Nat.lt_or_eq_of_le hi with hlt | rfl
    · cases hfound : groupAt P fence i with
      | some x =>
        have hwhole := groupAt_front (lastBlock body) hP hfound
        have hcut := groupAt_front [] hP hfound
        obtain ⟨a, b, c⟩ := x
        obtain ⟨hopen, e, rfl, hae, hclose, -⟩ := (groupAt_eq_some within_lead).mp hfound
        have hinside := closes_inside hclose
        have hback : i < c := by
          have hge := ends_ge _ hopen.1
          obtain ⟨-, k, hek, -, -, rfl⟩ := closes_iff.mp hclose
          omega
        have hstep : ∀ (text : List ℕ) (j : ℕ), ¬ text.length < i → groupAt text fence i = some (a, e + 1, c) →
            groupsFrom text fence (j + 1) i = (a, e + 1, c) :: groupsFrom text fence j c := by
          intro text j hlong hsome
          rw [groupsFrom, if_neg hlong, hsome]
          simp only
          rw [Nat.max_eq_left (by omega)]
        have hrest := ih n l c hinside.2 (by omega) (by omega) (by omega)
        rw [hstep _ _ (by omega) hfound, hstep _ _ (by omega) hwhole, hstep _ _ (by omega) hcut, endOf_cons]
        rcases hrest with ⟨hclosed, heq⟩ | ⟨hleft, rest, junk, heq, heq', hx, hy⟩
        · exact Or.inl ⟨hclosed, by rw [heq]; rfl⟩
        · exact Or.inr ⟨hleft, rest, junk, by rw [heq]; rfl, by rw [heq']; rfl, hx, hy⟩
      | none =>
        by_cases hopen : ∃ a, Opens P i a
        · -- left open: nothing more is found before the end of the line
          obtain ⟨a, hopen⟩ := hopen
          have hnothing : groupsFrom P fence (m + 1) i = [] :=
            groupsFrom_unclosed within_lead hopen hfound _ _ (Nat.le_refl i)
          rw [hnothing, endOf_nil]
          refine Or.inr ⟨⟨i, a, Nat.le_refl i, hopen⟩, ?_⟩
          rcases groupAt_open hP hhead hlast hletters hopen hfound with
            ⟨x, hwhole, hcut, hx, hend⟩ | ⟨x, hwhole, hcut, hx, hx', hend⟩
          · refine ⟨[x], [], ?_, ?_, by simpa using hx, by simp⟩
            · rw [groupsFrom, if_neg (by omega), hwhole]
              simp only
              rw [hend, Nat.max_eq_left (by omega), hbehind n _ (by omega)]
              rfl
            · rw [groupsFrom, if_neg (by omega), hcut]
              simp only
              rw [hend, Nat.max_eq_left (by omega), hticks l _ (by omega)]
              rfl
          · refine ⟨[], [x], ?_, ?_, by simp, by simpa using ⟨hx, hx'⟩⟩
            · rw [groupsFrom, if_neg (by omega), hwhole]
              simp only
              rw [hend, Nat.max_eq_left (by omega), hbehind n _ (by omega)]
              rfl
            · exact groupsFrom_unclosed within_lead (opens_append hopen) hcut _ _ (Nat.le_refl i)
        · rw [not_exists] at hopen
          have hwhole := groupAt_front_none (lastBlock body) hP hopen hlt
          have hcut := groupAt_front_none [] hP hopen hlt
          have hstep : ∀ (text : List ℕ) (j : ℕ), ¬ text.length < i → groupAt text fence i = none →
              groupsFrom text fence (j + 1) i = groupsFrom text fence j (i + 1) := by
            intro text j hlong hnone
            rw [groupsFrom, if_neg hlong, hnone]
          have hrest := ih n l (i + 1) hlt (by omega) (by omega) (by omega)
          have hfrom : OpenFrom P (endOf (groupsFrom P fence m (i + 1)) (i + 1)) ↔
              OpenFrom P (endOf (groupsFrom P fence m (i + 1)) i) := by
            cases groupsFrom P fence m (i + 1) with
            | cons y ys => rw [endOf_cons, endOf_cons]
            | nil =>
              rw [endOf_nil, endOf_nil]
              constructor
              · intro hlater
                obtain ⟨k, a, hk, h⟩ := hlater
                exact ⟨k, a, by omega, h⟩
              · intro hfrom
                obtain ⟨k, a, hk, h⟩ := hfrom
                have hne : k ≠ i := by
                  rintro rfl
                  exact hopen a h
                exact ⟨k, a, by omega, h⟩
          rw [hstep _ _ (by omega) hfound, hstep _ _ (by omega) hwhole, hstep _ _ (by omega) hcut, ← hfrom]
          exact hrest
    · -- the last fence is reached
      have hnone : ∀ k a, P.length ≤ k → ¬ Opens P k a := by
        intro k a hk hopen
        have hinside := ticks_inside hP (opens_iff.mp hopen).2.1
        omega
      have hfound : groupAt P fence P.length = none := by
        refine groupAt_eq_none.mpr ?_
        intro a e c hopen
        exact absurd hopen (hnone _ a (Nat.le_refl _))
      have hnothing : groupsFrom P fence (m + 1) P.length = [] := by
        rw [groupsFrom, if_neg (by omega), hfound]
        simp only
        cases m with
        | zero => rfl
        | succ m => rw [groupsFrom, if_pos (by omega)]
      rw [hnothing, endOf_nil]
      refine Or.inl ⟨?_, ?_⟩
      · rintro ⟨k, a, hk, hopen⟩
        exact hnone k a hk hopen
      · rw [groupsFrom, if_neg (by omega), groupAt_last hhead hlast hletters]
        simp only
        rw [Nat.max_eq_left (by omega), hbehind n _ (by omega)]
        rfl

/-! ## The blocks that are found -/

omit hP hhead hlast hletters in
theorem slice_body : slice (P ++ codes "```" ++ lastBlock body) (P.length + 8) (P.length + body.length + 8) = body := by
  apply List.ext_getElem?
  intro k
  rw [getElem_slice]
  by_cases hk : k < body.length
  · rw [if_pos (by omega), Nat.add_assoc, last_letter, if_neg (by omega), if_pos (by omega)]
    congr 1
    omega
  · rw [if_neg (by omega), List.getElem?_eq_none (by omega)]

omit hP hhead hlast hletters in
theorem slice_found {x : ℕ × ℕ × ℕ} (hx : x ∈ groups P fence) (more : List ℕ) :
    slice (P ++ more) x.1 x.2.1 = slice P x.1 x.2.1 := by
  obtain ⟨k, hk⟩ := mem_groupsFrom hx
  obtain ⟨a, b, c⟩ := x
  obtain ⟨-, e, rfl, -, hclose, -⟩ := (groupAt_eq_some within_lead).mp hk
  exact slice_front (closes_inside hclose).1

/-- Where no fence is left open the last block is the last that is found. -/
theorem findall_closed (h : ¬ LeavesFenceOpen P) :
    findall (P ++ codes "```" ++ lastBlock body) fence = findall P fence ++ [body] := by
  have hscan := scan hP hhead hlast hletters (P.length + 1) ((P ++ codes "```" ++ lastBlock body).length + 1)
    ((P ++ codes "```" ++ []).length + 1) 0 (Nat.zero_le _) (by omega) (by omega) (by omega)
  rcases hscan with ⟨-, heq⟩ | ⟨hopen, -⟩
  · have hgroups : groups (P ++ codes "```" ++ lastBlock body) fence = groups P fence ++
        [(P.length + 8, P.length + body.length + 8, P.length + body.length + 12)] := heq
    have hfront : ∀ x ∈ groups P fence,
        slice (P ++ codes "```" ++ lastBlock body) x.1 x.2.1 = slice P x.1 x.2.1 := by
      intro x hx
      rw [List.append_assoc]
      exact slice_found hx _
    rw [findall, hgroups, List.map_append, List.map_singleton, slice_body, findall,
      List.map_congr_left hfront]
  · exact absurd hopen h

/-- Where one is, the ticks that open the last fence close it, or the block that is found in the
place of the last is no text of one line. -/
theorem findall_open (h : LeavesFenceOpen P) : ∃ junk : List Str,
    findall (P ++ codes "```" ++ lastBlock body) fence = findall (P ++ codes "```") fence ++ junk ∧
    ∀ raw ∈ junk, ¬ PyJson.Tidy raw := by
  have hscan := scan hP hhead hlast hletters (P.length + 1) ((P ++ codes "```" ++ lastBlock body).length + 1)
    ((P ++ codes "```" ++ []).length + 1) 0 (Nat.zero_le _) (by omega) (by omega) (by omega)
  rcases hscan with ⟨hclosed, -⟩ | ⟨-, rest, junk, heq, heq', hrest, hjunk⟩
  · exact absurd h hclosed
  · have hgroups : groups (P ++ codes "```" ++ lastBlock body) fence = groups P fence ++ rest ++ junk := heq
    have hgroups' : groups (P ++ codes "```" ++ []) fence = groups P fence ++ rest := heq'
    refine ⟨junk.map fun x => slice (P ++ codes "```" ++ lastBlock body) x.1 x.2.1, ?_, ?_⟩
    · rw [List.append_nil] at hgroups'
      rw [findall, findall, hgroups, hgroups', List.map_append]
      congr 1
      apply List.map_congr_left
      intro x hx
      rw [List.mem_append] at hx
      rw [List.append_assoc]
      rcases hx with hx | hx
      · rw [slice_found hx, slice_found hx]
      · rw [slice_front (hrest x hx), slice_front (hrest x hx)]
    · intro raw hraw
      rw [List.mem_map] at hraw
      obtain ⟨x, hx, rfl⟩ := hraw
      obtain ⟨hstart, hend⟩ := hjunk x hx
      obtain ⟨hpos, hfeed⟩ := last_feed hP
      have hget : ∀ k, k < P.length + body.length + 8 - x.1 →
          (slice (P ++ codes "```" ++ lastBlock body) x.1 x.2.1)[k]? =
            (P ++ codes "```" ++ lastBlock body)[x.1 + k]? := by
        intro k hk
        rw [getElem_slice, if_pos (by omega)]
      have hten := hget (P.length - 1 - x.1) (by omega)
      have htick := hget (P.length - 1 - x.1 + 1) (by omega)
      rw [show x.1 + (P.length - 1 - x.1) = P.length - 1 by omega, List.append_assoc,
        List.getElem?_append_left (by omega), hfeed, ← List.append_assoc] at hten
      rw [show x.1 + (P.length - 1 - x.1 + 1) = P.length by omega, tick_behind] at htick
      rintro ⟨-, hchain⟩
      obtain ⟨hlt, hten⟩ := List.getElem?_eq_some_iff.mp hten
      obtain ⟨hlt', htick⟩ := List.getElem?_eq_some_iff.mp htick
      have hpair := List.isChain_iff_getElem.mp hchain _ hlt'
      exact hpair ⟨hten, htick⟩

end scan

end ParallelForge.Direct
