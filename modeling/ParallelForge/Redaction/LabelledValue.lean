import ParallelForge.Redaction.DurableText

/-!
# The value of a label does not show

Two texts that differ in a labelled value only are redacted to the same text.
The pieces before the label and behind the word go through the five
substitutions alike, and of the label and its word only the label is kept.
-/

namespace ParallelForge.Redaction
open Base Regex

/-! ### The substitutions before the labels -/

/-- Each pattern, at its turn, leaves the lead and the borders of the word alone. -/
def Spared : List (Regex ℕ × (Text → Text)) → Parts ℕ → Prop
  | [], _ => True
  | e :: es, p => p.Spares e.1 ∧ Spared es (p.replace e.1 e.2)

def replaceAll (es : List (Regex ℕ × (Text → Text))) (p : Parts ℕ) : Parts ℕ :=
  es.foldl (fun p e => p.replace e.1 e.2) p

/-- One visible word, up to a space, a comma, a semicolon or the end. -/
structure IsWord (p : Parts ℕ) : Prop where
  lead : p.lead ≠ []
  letters : ∀ c ∈ p.word, wordLetter c = true
  first : ∃ c, p.word.head? = some c ∧ isQuote c = false
  closed : p.rest[0]?.any wordLetter = false

section pass
variable {p p' : Parts ℕ} {r : Regex ℕ} {f : Text → Text} {es : List (Regex ℕ × (Text → Text))}

theorem IsWord.word_pos (hp : IsWord p) : 0 < p.word.length := by
  obtain ⟨c, hc, -⟩ := hp.first
  rw [List.length_pos_iff]
  intro hempty
  rw [hempty] at hc
  cases hc

/- The letter at which the word starts. -/
theorem IsWord.first_at (hp : IsWord p) : ∃ c, p.text[p.wordAt]? = some c ∧ isQuote c = false := by
  obtain ⟨c, hc, hquote⟩ := hp.first
  have hget : p.text[p.wordAt + 0]? = p.word[0]? := Parts.getElem_word hp.word_pos
  rw [Nat.add_zero, ← List.head?_eq_getElem?, hc] at hget
  exact ⟨c, hget, hquote⟩

theorem IsWord.covers (hp : IsWord p) : Covers p.text wordLetter p.wordAt p.restAt := by
  intro k hk hkr
  obtain ⟨n, rfl⟩ : ∃ n, k = p.wordAt + n := ⟨k - p.wordAt, by omega⟩
  have hn : n < p.word.length := by
    have hat : p.restAt = p.wordAt + p.word.length := rfl
    omega
  rw [Parts.getElem_word hn, List.getElem?_eq_getElem hn]
  exact hp.letters _ (List.getElem_mem hn)

/- A match that starts in the word is a match inside it. -/
theorem inside_word (hp : IsWord p) (hcons : consumes r = true) (h : p.Spares r) {m : ℕ × ℕ}
    (hm : m ∈ finditer p.text r) (hstart : p.wordAt ≤ m.1) (hlt : m.1 < p.restAt) :
    Covers p.text wordLetter m.1 m.2 := by
  have hlw : p.leadAt ≤ p.wordAt := Nat.le_add_right _ _
  have hpos := Parts.match_lt hcons hm
  have hspare := h m hm
  intro k hk hkm
  exact hp.covers k (by omega) (by omega)

theorem replace_isWord (hk : Keeps r f) (hp : IsWord p) (h : p.Spares r) : IsWord (p.replace r f) where
  lead := hp.lead
  letters := Parts.replaceWord_letters hp.letters fun m hm hstart hlt =>
    hk.letters p.text m.1 m.2 (mem_finditer hm) (inside_word hp hk.consumes h hm hstart hlt)
  first := by
    have hpos := hp.word_pos
    refine Parts.replaceWord_head hp.first fun m hm hat => ?_
    have hlt : m.1 < p.restAt := by
      have hend : p.restAt = p.wordAt + p.word.length := rfl
      omega
    refine hk.first p.text m.1 m.2 (mem_finditer hm)
      (inside_word hp hk.consumes h hm hat.ge hlt) ?_
    rw [hat]
    exact hp.first_at
  closed := Parts.replaceRest_head hk.opens hk.consumes hp.closed

/- A match that is spared ends before the lead where it starts before it, and before the rest likewise. -/
theorem spares_ends (h : p.Spares r) : ∀ m ∈ finditer p.text r,
    (m.1 < p.leadAt → m.2 ≤ p.leadAt) ∧ (m.1 < p.restAt → m.2 ≤ p.restAt) := by
  intro m hm
  have hspare := h m hm
  have hlead : p.leadAt ≤ p.wordAt := Nat.le_add_right _ _
  have hword : p.wordAt ≤ p.restAt := Nat.le_add_right _ _
  omega

theorem replace_same (hk : Keeps r f) (hsame : p.Same p') (hp : IsWord p) (h : p.Spares r)
    (h' : p'.Spares r) : (p.replace r f).Same (p'.replace r f) where
  front := Parts.replaceFront_same hsame hp.lead (fun m hm => (spares_ends h m hm).1)
    fun m hm => (spares_ends h' m hm).1
  lead := hsame.lead
  rest := Parts.replaceRest_same hsame hk.opens hk.consumes hp.closed (fun m hm => (spares_ends h m hm).2)
    fun m hm => (spares_ends h' m hm).2

/-- The substitutions work on the pieces of a text that they spare. -/
theorem spared_run (hes : ∀ e ∈ es, Keeps e.1 e.2) (hp : IsWord p) (h : Spared es p) :
    es.foldl (fun redacted e => sub e.1 e.2 redacted) p.text = (replaceAll es p).text ∧
      IsWord (replaceAll es p) ∧ (replaceAll es p).lead = p.lead := by
  induction es generalizing p with
  | nil => exact ⟨rfl, hp, rfl⟩
  | cons e es ih =>
    have hk := hes e (List.mem_cons_self ..)
    have hrest := ih (fun e he => hes e (List.mem_cons_of_mem _ he)) (replace_isWord hk hp h.1) h.2
    rw [List.foldl_cons, Parts.sub_text hk.consumes h.1]
    exact hrest

theorem spared_same (hes : ∀ e ∈ es, Keeps e.1 e.2) (hsame : p.Same p') (hp : IsWord p)
    (hp' : IsWord p') (h : Spared es p) (h' : Spared es p') :
    (replaceAll es p).Same (replaceAll es p') := by
  induction es generalizing p p' with
  | nil => exact hsame
  | cons e es ih =>
    have hk := hes e (List.mem_cons_self ..)
    exact ih (fun e he => hes e (List.mem_cons_of_mem _ he)) (replace_same hk hsame hp h.1 h'.1)
      (replace_isWord hk hp h.1) (replace_isWord hk hp' h'.1) h.2 h'.2

end pass

/-! ### The substitution of labels -/

section labels
variable (isAlnum : ℕ → Bool) {p p' : Parts ℕ} {name blanks : Text} {sign e : ℕ}

/-- What is written around a separator. -/
structure Label (name : Text) (sign : ℕ) (blanks : Text) : Prop where
  name : ∀ c ∈ name, notSeparator c = true
  sign : sign = 58 ∨ sign = 61
  blanks : ∀ c ∈ blanks, isSpaceCode c = true

/- The value of the label starts where the word does. -/
theorem value_at_word (hlabel : Label name sign blanks) (hlead : p.lead = name ++ sign :: blanks)
    (hp : IsWord p) : valueStart p.text p.leadAt = p.wordAt := by
  have hlen : p.wordAt = p.leadAt + (name.length + 1 + blanks.length) := by
    have hcount := congrArg List.length hlead
    rw [List.length_append, List.length_cons] at hcount
    show p.front.length + p.lead.length = p.front.length + _
    omega
  have hget : ∀ k, k < name.length + 1 + blanks.length →
      p.text[p.leadAt + k]? = (name ++ sign :: blanks)[k]? := by
    intro k hk
    rw [← hlead]
    refine Parts.getElem_lead ?_
    rw [hlead, List.length_append, List.length_cons]
    omega
  have hsign : p.text[p.leadAt + name.length]? = some sign := by
    rw [hget _ (by omega), List.getElem?_append_right le_rfl, Nat.sub_self]
    rfl
  have hname : run notSeparator p.text p.leadAt = name.length := by
    refine run_eq _ (fun k hk => ?_) ?_
    · rw [hget k (by omega), List.getElem?_append_left hk, List.getElem?_eq_getElem hk]
      exact hlabel.name _ (List.getElem_mem hk)
    · rw [hsign]
      rcases hlabel.sign with rfl | rfl
      · rfl
      · rfl
  have hvisible : p.text[p.wordAt]?.any isSpaceCode = false := by
    obtain ⟨c, hc, _⟩ := hp.first
    have hpos : p.wordAt < p.restAt := by
      have hend : p.restAt = p.wordAt + p.word.length := rfl
      have hword : 0 < p.word.length := by
        rw [List.length_pos_iff]
        intro hempty
        rw [hempty] at hc
        cases hc
      omega
    exact any_visible visible_word (hp.covers p.wordAt le_rfl hpos)
  have hblanks : run isSpaceCode p.text (p.leadAt + name.length + 1) = blanks.length := by
    refine run_eq _ (fun k hk => ?_) ?_
    · have hat : p.leadAt + name.length + 1 + k = p.leadAt + (name.length + 1 + k) := by omega
      have hback : name.length + 1 + k - name.length = k + 1 := by omega
      rw [hat, hget _ (by omega), List.getElem?_append_right (by omega), hback,
        List.getElem?_cons_succ, List.getElem?_eq_getElem hk]
      exact hlabel.blanks _ (List.getElem_mem hk)
    · have hat : p.leadAt + name.length + 1 + blanks.length = p.wordAt := by omega
      rw [hat]
      exact hvisible
  rw [valueStart, separatorOf, hname, hblanks]
  omega

/-- A label that is found takes the word for its value, and no more. -/
theorem label_match_end (hlabel : Label name sign blanks) (hlead : p.lead = name ++ sign :: blanks)
    (hp : IsWord p) (halone : ∀ k v, ¬ SchemeAt p.text p.wordAt k v)
    (hmatch : matchAt p.text (assignment isAlnum) p.leadAt = some e) : e = p.restAt := by
  rw [matchAt, ends_assignment] at hmatch
  obtain ⟨v, hv, hvalue⟩ := head_flatMap_some hmatch
  have hvalue := valueAt_iff.mpr hvalue
  obtain ⟨l, s, hl⟩ := lead_path isAlnum hv
  have hstart := hl.start isAlnum (value_visible hvalue)
  rw [value_at_word hlabel hlead hp] at hstart
  subst hstart
  obtain ⟨c, hget, hquote⟩ := hp.first_at
  cases hvalue with
  | quoted n hn =>
    have hopen := hn.open_
    rw [hget] at hopen
    rw [show isQuote c = true from hopen] at hquote
    cases hquote
  | scheme k v _ hs => exact absurd hs (halone k v)
  | word _ _ _ =>
    have hend : p.restAt = p.wordAt + p.word.length := rfl
    have hrun : run wordLetter p.text p.wordAt = p.word.length := by
      refine run_eq _ (fun k hk => hp.covers _ (by omega) (by omega)) ?_
      rw [← hend, ← Nat.add_zero p.restAt, Parts.getElem_rest]
      exact hp.closed
    rw [hrun, hend]

/- Only the label is kept of what is found. -/
theorem redact_labelled {word : Text} (hlabel : Label name sign blanks)
    (hsign : sign = 61 ∨ 61 ∉ word) :
    redactAssignment (name ++ sign :: blanks ++ word) = name ++ [sign] ++ redactedMark := by
  have hquiet : sign ∉ name := by
    intro hmem
    have hname := hlabel.name sign hmem
    rcases hlabel.sign with rfl | rfl
    · cases hname
    · cases hname
  have hfind : (name ++ sign :: (blanks ++ word)).findIdx? (· == sign) = some name.length := by
    have hnone : name.findIdx? (· == sign) = none := by
      rw [List.findIdx?_eq_none_iff]
      intro c hc
      rw [beq_eq_false_iff_ne]
      exact fun heq => hquiet (heq ▸ hc)
    have hself : (sign == sign) = true := beq_self_eq_true sign
    rw [List.findIdx?_append, hnone, List.findIdx?_cons, if_pos hself]
    simp
  have hthrough : through sign (name ++ sign :: blanks ++ word) = name ++ [sign] := by
    rw [List.append_assoc, List.cons_append, through, hfind]
    show (name ++ sign :: (blanks ++ word)).take (name.length + 1) = name ++ [sign]
    rw [List.take_append, Nat.add_sub_cancel_left, List.take_of_length_le (by omega)]
    rfl
  rw [redactAssignment]
  by_cases heq : sign = 61
  · subst heq
    have hmem : (name ++ 61 :: blanks ++ word).contains 61 = true := by simp
    rw [if_pos hmem, hthrough]
  · have hcolon : sign = 58 := hlabel.sign.resolve_right heq
    subst hcolon
    have hnot : ¬ (name ++ 58 :: blanks ++ word).contains 61 = true := by
      rw [List.contains_iff_mem, List.append_assoc, List.cons_append, List.mem_append, List.mem_cons,
        List.mem_append]
      rintro (hname | hsame | hblank | hword)
      · have hno := hlabel.name 61 hname
        cases hno
      · omega
      · have hspace := hlabel.blanks 61 hblank
        revert hspace
        decide
      · exact hsign.resolve_left heq hword
    rw [if_neg hnot, hthrough]

theorem slice_labelled (p : Parts ℕ) : slice p.text p.leadAt p.restAt = p.lead ++ p.word := by
  have hlw : p.leadAt ≤ p.wordAt := Nat.le_add_right _ _
  have hwr : p.wordAt ≤ p.restAt := Nat.le_add_right _ _
  rw [slice_append hlw hwr, Parts.slice_lead]
  congr 1
  apply List.ext_getElem?
  intro k
  have hlen : p.restAt - p.wordAt = p.word.length := Nat.add_sub_cancel_left ..
  rw [getElem_slice, hlen]
  split
  · exact Parts.getElem_word ‹_›
  · rw [List.getElem?_eq_none (by omega)]

/-- A labelled word is replaced by a mark, and what is around it on its own. -/
theorem sub_labelled (hlabel : Label name sign blanks) (hlead : p.lead = name ++ sign :: blanks)
    (hsign : sign = 61 ∨ 61 ∉ p.word)
    (hfound : (p.leadAt, p.restAt) ∈ finditer p.text (assignment isAlnum)) :
    sub (assignment isAlnum) redactAssignment p.text =
      p.replaceFront (assignment isAlnum) redactAssignment ++ (name ++ [sign] ++ redactedMark) ++
        p.replaceRest (assignment isAlnum) redactAssignment ∧
      (∀ m ∈ finditer p.text (assignment isAlnum), m.1 < p.leadAt → m.2 ≤ p.leadAt) ∧
      ∀ m ∈ finditer p.text (assignment isAlnum), m.1 < p.restAt → m.2 ≤ p.restAt := by
  obtain ⟨l, l', hms⟩ := List.append_of_mem hfound
  have hordered : Ordered 0 (finditer p.text (assignment isAlnum)) := ordered_matchesFrom _ _ 0
  have hpos : ∀ m ∈ finditer p.text (assignment isAlnum), m.1 < m.2 := fun m hm =>
    Parts.match_lt rfl hm
  have hlt := hpos _ hfound
  rw [hms] at hordered hpos
  obtain ⟨hleft, hright⟩ := hordered.around
  simp only at hleft hright hlt
  have hl : ∀ m ∈ l, m.1 < p.leadAt := fun m hm => by
    have hend := (hleft m hm).2
    have hlen := hpos m (List.mem_append_left _ hm)
    omega
  have hfront : ((finditer p.text (assignment isAlnum)).filter fun m => decide (m.1 < p.leadAt)) = l := by
    have hself : (l.filter fun m => decide (m.1 < p.leadAt)) = l := by
      rw [List.filter_eq_self]
      exact fun m hm => decide_eq_true (hl m hm)
    have hnone : (((p.leadAt, p.restAt) :: l').filter fun m => decide (m.1 < p.leadAt)) = [] := by
      rw [List.filter_eq_nil_iff]
      intro m hm
      rw [decide_eq_true_eq]
      rcases List.mem_cons.mp hm with rfl | hm
      · simp only
        omega
      · have hle := hright m hm
        omega
    rw [hms, List.filter_append, hself, hnone, List.append_nil]
  have hrest : ((finditer p.text (assignment isAlnum)).filter fun m => decide (p.restAt ≤ m.1)) = l' := by
    have hnone : (l.filter fun m => decide (p.restAt ≤ m.1)) = [] := by
      rw [List.filter_eq_nil_iff]
      intro m hm
      have hle := hl m hm
      rw [decide_eq_true_eq]
      omega
    have hself : (((p.leadAt, p.restAt) :: l').filter fun m => decide (p.restAt ≤ m.1)) = l' := by
      have hfirst : ¬ decide (p.restAt ≤ p.leadAt) = true := by
        rw [decide_eq_true_eq]
        omega
      rw [List.filter_cons, if_neg hfirst, List.filter_eq_self]
      exact fun m hm => decide_eq_true (hright m hm)
    rw [hms, List.filter_append, hnone, hself, List.nil_append]
  refine ⟨?_, fun m hm hm' => ?_, fun m hm hm' => ?_⟩
  · rw [Parts.replaceFront, Parts.replaceRest, hfront, hrest, sub, hms, splice_at, slice_labelled, hlead,
      redact_labelled hlabel hsign]
  · rw [hms] at hm
    rcases List.mem_append.mp hm with hm | hm
    · exact (hleft m hm).2
    · rcases List.mem_cons.mp hm with rfl | hm
      · simp only at hm'
        omega
      · have hle := hright m hm
        omega
  · rw [hms] at hm
    rcases List.mem_append.mp hm with hm | hm
    · have hle := (hleft m hm).2
      omega
    · rcases List.mem_cons.mp hm with rfl | hm
      · exact le_rfl
      · have hle := hright m hm
        omega

end labels

/-! ### Noninterference -/

section noninterference
variable (isAlnum : ℕ → Bool) (pre name : Text) (sign : ℕ) (blanks : Text)

/-- A labelled value in a text; its word goes on to the end of what is visible. -/
def labelled (value post : Text) : Parts ℕ where
  front := pre
  lead := name ++ sign :: blanks
  word := value ++ post.takeWhile wordLetter
  rest := post.dropWhile wordLetter

/-- No white space, comma, semicolon or quote. -/
structure Value (value : Text) : Prop where
  nonempty : value ≠ []
  letters : ∀ c ∈ value, wordLetter c = true ∧ isQuote c = false

/-- The label is read as one: the other patterns spare it and its word, the label is found, and its
word is no auth scheme in front of another word. Behind a colon the word has no `=`. -/
structure Recognised (p : Parts ℕ) : Prop where
  spared : Spared (unlabelled isAlnum) p
  found : ∃ e, ((replaceAll (unlabelled isAlnum) p).leadAt, e) ∈
    finditer (replaceAll (unlabelled isAlnum) p).text (assignment isAlnum)
  alone : ∀ k v, ¬ SchemeAt (replaceAll (unlabelled isAlnum) p).text
    (replaceAll (unlabelled isAlnum) p).wordAt k v
  sign : sign = 61 ∨ 61 ∉ (replaceAll (unlabelled isAlnum) p).word

variable {isAlnum pre name sign blanks}

theorem labelled_text (value post : Text) :
    (labelled pre name sign blanks value post).text = pre ++ (name ++ sign :: blanks) ++ value ++ post := by
  have hpost : post.takeWhile wordLetter ++ post.dropWhile wordLetter = post :=
    List.takeWhile_append_dropWhile
  conv_rhs => rw [← hpost]
  simp only [Parts.text, labelled, List.append_assoc]

theorem labelled_isWord {value : Text} (hvalue : Value value) (post : Text) :
    IsWord (labelled pre name sign blanks value post) where
  lead := by
    show name ++ sign :: blanks ≠ []
    simp
  letters := by
    intro c hc
    rcases List.mem_append.mp hc with hc | hc
    · exact (hvalue.letters c hc).1
    · exact List.mem_takeWhile_imp hc
  first := by
    obtain ⟨c, rest, hc⟩ := List.exists_cons_of_ne_nil hvalue.nonempty
    refine ⟨c, ?_, (hvalue.letters c (hc ▸ List.mem_cons_self ..)).2⟩
    show (value ++ post.takeWhile wordLetter).head? = some c
    rw [hc]
    rfl
  closed := by
    show (post.dropWhile wordLetter)[0]?.any wordLetter = false
    cases hdrop : post.dropWhile wordLetter with
    | nil => rfl
    | cons c rest =>
      have hhead := List.head?_dropWhile_not wordLetter post
      rw [hdrop] at hhead
      simpa using hhead

/-- What the redaction makes of a text with a label that is read as one. -/
theorem redact_pieces {p q : Parts ℕ} (hlabel : Label name sign blanks)
    (hlead : p.lead = name ++ sign :: blanks) (hp : IsWord p) (h : Recognised isAlnum sign p)
    (hq : replaceAll (unlabelled isAlnum) p = q) :
    Payload.redactDurableText isAlnum p.text =
      q.replaceFront (assignment isAlnum) redactAssignment ++ (name ++ [sign] ++ redactedMark) ++
        q.replaceRest (assignment isAlnum) redactAssignment ∧ IsWord q ∧
      (∀ m ∈ finditer q.text (assignment isAlnum), m.1 < q.leadAt → m.2 ≤ q.leadAt) ∧
      ∀ m ∈ finditer q.text (assignment isAlnum), m.1 < q.restAt → m.2 ≤ q.restAt := by
  obtain ⟨htext, hword, hkept⟩ := spared_run (unlabelled_keeps isAlnum) hp h.spared
  have halone := h.alone
  have hsign := h.sign
  obtain ⟨e, hfound⟩ := h.found
  rw [hq] at htext hword hkept halone hsign hfound
  have hlead' := hkept.trans hlead
  have hend := label_match_end isAlnum hlabel hlead' hword halone (mem_finditer hfound)
  simp only at hend
  rw [hend] at hfound
  obtain ⟨hsub, hbefore, hbehind⟩ := sub_labelled isAlnum hlabel hlead' hsign hfound
  refine ⟨?_, hword, hbefore, hbehind⟩
  rw [redactDurableText_eq, htext, hsub]

/-- Noninterference of the redaction. Whatever is around a credential label that is read as one, the
text is redacted to the same for any two values. -/
theorem redact_noninterference (hlabel : Label name sign blanks) {value value' : Text} (post : Text)
    (hvalue : Value value) (hvalue' : Value value')
    (h : Recognised isAlnum sign (labelled pre name sign blanks value post))
    (h' : Recognised isAlnum sign (labelled pre name sign blanks value' post)) :
    Payload.redactDurableText isAlnum (pre ++ (name ++ sign :: blanks) ++ value ++ post) =
      Payload.redactDurableText isAlnum (pre ++ (name ++ sign :: blanks) ++ value' ++ post) := by
  have hp : IsWord (labelled pre name sign blanks value post) := labelled_isWord hvalue post
  have hp' : IsWord (labelled pre name sign blanks value' post) := labelled_isWord hvalue' post
  have hsame : (labelled pre name sign blanks value post).Same (labelled pre name sign blanks value' post) :=
    ⟨rfl, rfl, rfl⟩
  have hpieces := spared_same (unlabelled_keeps isAlnum) hsame hp hp' h.spared h'.spared
  obtain ⟨q, hq⟩ : ∃ q, replaceAll (unlabelled isAlnum) (labelled pre name sign blanks value post) = q :=
    ⟨_, rfl⟩
  obtain ⟨q', hq'⟩ : ∃ q, replaceAll (unlabelled isAlnum) (labelled pre name sign blanks value' post) = q :=
    ⟨_, rfl⟩
  obtain ⟨htext, hword, hbefore, hbehind⟩ := redact_pieces hlabel rfl hp h hq
  obtain ⟨htext', _, hbefore', hbehind'⟩ := redact_pieces hlabel rfl hp' h' hq'
  rw [hq, hq'] at hpieces
  rw [← labelled_text, ← labelled_text, htext, htext',
    Parts.replaceFront_same hpieces hword.lead hbefore hbefore',
    Parts.replaceRest_same hpieces (assignment_opens isAlnum) rfl hword.closed hbehind hbehind']

end noninterference

section samples

instance (p : Parts ℕ) (r : Regex ℕ) : Decidable (p.Spares r) :=
  inferInstanceAs (Decidable (∀ m ∈ finditer p.text r, _))

instance decidableSpared : ∀ (es : List (Regex ℕ × (Text → Text))) (p : Parts ℕ), Decidable (Spared es p)
  | [], _ => inferInstanceAs (Decidable True)
  | e :: es, p =>
    have := decidableSpared es (p.replace e.1 e.2)
    inferInstanceAs (Decidable (p.Spares e.1 ∧ Spared es (p.replace e.1 e.2)))

def samplePart (value : Text) : Parts ℕ :=
  labelled (text "run with ") (text "password") 61 [] value (text " now")

theorem sample_alone {p : Parts ℕ} (hnone : ends p.text scheme p.wordAt = []) (k v : ℕ) :
    ¬ SchemeAt p.text p.wordAt k v := by
  intro h
  have hmem := h.scheme
  rw [hnone] at hmem
  cases hmem

/- A plain value and a token. -/
theorem redact_noninterference_token :
    Payload.redactDurableText (inClass "") (text "run with password=hunter2 now") =
      Payload.redactDurableText (inClass "") (text "run with password=ghp_0123456789abcdefghij now") := by
  have hlabel : Label (text "password") 61 [] := ⟨by decide, Or.inr rfl, by decide⟩
  have hplain : Recognised (inClass "") 61 (samplePart (text "hunter2")) := by
    refine ⟨by decide +kernel, ⟨25, by decide +kernel⟩, sample_alone (by decide +kernel), Or.inl rfl⟩
  have htoken : Recognised (inClass "") 61 (samplePart (text "ghp_0123456789abcdefghij")) := by
    refine ⟨by decide +kernel, ⟨28, by decide +kernel⟩, sample_alone (by decide +kernel), Or.inl rfl⟩
  have hsame := redact_noninterference hlabel (text " now") ⟨by decide, by decide⟩
    ⟨by decide, by decide⟩ hplain htoken
  exact hsame

/- A scheme takes the next word for its value, an auth value ends inside the word, and behind a colon
the word shows up to its first `=`. -/
theorem redact_shows_values :
    Payload.redactDurableText (inClass "") (text "password=bearer foo") ≠
        Payload.redactDurableText (inClass "") (text "password=x foo") ∧
      Payload.redactDurableText (inClass "") (text "bearer password=a!b") ≠
        Payload.redactDurableText (inClass "") (text "bearer password=a!c") ∧
      Payload.redactDurableText (inClass "") (text "password:a=b") ≠
        Payload.redactDurableText (inClass "") (text "password:c=b") := by
  decide +kernel

end samples

end ParallelForge.Redaction
