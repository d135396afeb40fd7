import ParallelForge.Redaction.HeadCut

/-!
# The tail of a truncated capture

The tail may start inside a label, before or behind its separator, inside a
scheme, a quoted value, a visible word or the lines of a key. Each of these
places is recognised by one of the leads that are put before the tail, and what
is recognised reaches the end of the secret. Only a key whose END line shares
the dashes of its BEGIN line is taken for a shorter one.
-/

namespace ParallelForge.Redaction
open Base Prog Regex

/-! ### What a recogniser finds is cut off -/

section recognised
variable (isAlnum : ℕ → Bool) {tail : Text} {cut stop x : ℕ}

theorem le_foldl {β : Type} (f : ℕ → β → ℕ) (hf : ∀ c b, c ≤ f c b) (l : List β) (c : ℕ) :
    c ≤ l.foldl f c := by
  induction l generalizing c with
  | nil => exact le_rfl
  | cons b l ih => exact (hf c b).trans (ih (f c b))

/- One entry of a fold that only goes up. -/
theorem le_foldl_of_mem {β : Type} (f : ℕ → β → ℕ) (hf : ∀ c b, c ≤ f c b) (l : List β) (a : β)
    (ha : a ∈ l) (x : ℕ) (hx : ∀ c, x ≤ f c a) (c : ℕ) : x ≤ l.foldl f c := by
  induction l generalizing c with
  | nil => cases ha
  | cons b l ih =>
    rw [List.foldl_cons]
    rcases List.mem_cons.mp ha with rfl | ha
    · exact (hx c).trans (le_foldl f hf l (f c a))
    · exact ih ha (f c b)

theorem le_afterLead (pattern : Regex ℕ) (lead : Text) (c : ℕ) :
    c ≤ afterLead tail pattern lead c := by
  unfold afterLead
  split
  · exact le_max_left _ _
  · exact le_rfl

theorem afterLead_reaches {pattern : Regex ℕ} {lead : Text}
    (hmatch : matchAt (lead ++ tail) pattern 0 = some stop) (hx : lead.length + x ≤ stop) (c : ℕ) :
    x ≤ afterLead tail pattern lead c := by
  unfold afterLead
  rw [hmatch]
  show x ≤ max c (stop - lead.length)
  omega

/-- The cut after the leads, and after the separator. -/
def cutAfterLeads (tail : Text) (cut : ℕ) : ℕ :=
  (leads isAlnum).foldl (fun cut entry => afterLead tail entry.1 entry.2 cut)
    (afterLead tail initialToken [] cut)

def cutAfterSeparator (tail : Text) (cut : ℕ) : ℕ :=
  match matchAt tail separator 0 with
  | some stop =>
    match matchAt (text "password=" ++ tail.drop stop) (assignment isAlnum) 0 with
    | some stop' => max cut (stop + stop' - (text "password=").length)
    | none => cut
  | none => cut

theorem completeTail_eq (tail : Text) (cut : ℕ) : completeTail isAlnum tail cut =
    schemeLeads.foldl (fun cut lead => afterLead tail (assignment isAlnum) lead cut)
      (cutAfterSeparator isAlnum tail (cutAfterLeads isAlnum tail cut)) := rfl

theorem le_completeTail_of (h : x ≤ cutAfterSeparator isAlnum tail (cutAfterLeads isAlnum tail cut)) :
    x ≤ completeTail isAlnum tail cut := by
  rw [completeTail_eq]
  exact h.trans (le_foldl _ (fun c lead => le_afterLead _ lead c) _ _)

theorem le_cutAfterSeparator (c : ℕ) : c ≤ cutAfterSeparator isAlnum tail c := by
  unfold cutAfterSeparator
  split
  · split
    · exact le_max_left _ _
    · exact le_rfl
  · exact le_rfl

theorem initial_reaches (hmatch : matchAt tail initialToken 0 = some stop) :
    stop ≤ completeTail isAlnum tail cut := by
  refine le_completeTail_of isAlnum (le_trans ?_ (le_cutAfterSeparator isAlnum _))
  have hfirst : stop ≤ afterLead tail initialToken [] cut := by
    have hmatch' : matchAt ([] ++ tail) initialToken 0 = some stop := hmatch
    refine afterLead_reaches hmatch' ?_ cut
    rw [List.length_nil]
    omega
  unfold cutAfterLeads
  generalize leads isAlnum = entries
  exact hfirst.trans (le_foldl _ (fun c entry => le_afterLead entry.1 entry.2 c) entries _)

theorem lead_reaches {pattern : Regex ℕ} {lead : Text} (hentry : (pattern, lead) ∈ leads isAlnum)
    (hmatch : matchAt (lead ++ tail) pattern 0 = some stop) (hx : lead.length + x ≤ stop) :
    x ≤ completeTail isAlnum tail cut := by
  have hreach : x ≤ cutAfterLeads isAlnum tail cut := by
    unfold cutAfterLeads
    generalize leads isAlnum = entries at hentry
    refine le_foldl_of_mem (fun cut entry => afterLead tail entry.1 entry.2 cut) ?_ _ _ hentry x ?_ _
    · exact fun c entry => le_afterLead entry.1 entry.2 c
    · exact afterLead_reaches hmatch hx
  exact le_completeTail_of isAlnum (hreach.trans (le_cutAfterSeparator isAlnum _))

theorem separator_reaches {start : ℕ} (hsep : matchAt tail separator 0 = some start)
    (hmatch : matchAt (text "password=" ++ tail.drop start) (assignment isAlnum) 0 = some stop)
    (hx : 9 + x ≤ start + stop) : x ≤ completeTail isAlnum tail cut := by
  refine le_completeTail_of isAlnum ?_
  unfold cutAfterSeparator
  rw [hsep]
  simp only [hmatch]
  have hlen : (text "password=").length = 9 := rfl
  omega

theorem schemeLead_reaches {lead : Text} (hentry : lead ∈ schemeLeads)
    (hmatch : matchAt (lead ++ tail) (assignment isAlnum) 0 = some stop)
    (hx : lead.length + x ≤ stop) : x ≤ completeTail isAlnum tail cut := by
  rw [completeTail_eq]
  exact le_foldl_of_mem _ (fun c lead => le_afterLead _ lead c) _ _ hentry x
    (afterLead_reaches hmatch hx) _

end recognised

/-! ### The text behind the edge -/

section behind
variable {front tail : Text} {c : ℕ → Bool} {i j k n p q s : ℕ}

theorem run_behind (c : ℕ → Bool) (front tail : Text) (i : ℕ) :
    run c (front ++ tail) (front.length + i) = run c tail i := by
  unfold Regex.run
  rw [List.drop_append, List.drop_eq_nil_of_le (by omega), List.nil_append,
    Nat.add_sub_cancel_left]

theorem getElem_behind (front tail : Text) (i : ℕ) :
    (front ++ tail)[front.length + i]? = tail[i]? := by
  rw [List.getElem?_append_right (by omega), Nat.add_sub_cancel_left]

theorem covers_behind (h : Covers (front ++ tail) c (front.length + i) (front.length + j)) :
    Covers tail c i j := by
  intro k hik hkj
  have hget := h (front.length + k) (by omega) (by omega)
  rwa [getElem_behind] at hget

/- A value does not depend on what is before it. -/
theorem valueAt_behind : ValueAt (front ++ tail) (front.length + i) (front.length + j) ↔
    ValueAt tail i j := by
  rw [valueAt_iff, valueAt_iff, ends_shift valueForm (by decide) i, List.head?_map]
  constructor
  · intro h
    obtain ⟨j', hj', heq⟩ := Option.map_eq_some_iff.mp h
    have hsame : j' = j := by omega
    rw [hj', hsame]
  · intro h
    rw [h]
    rfl

theorem reads_lower (w : Text) {v rest : Text} (hlen : w.length ≤ v.length)
    (hsame : ∀ k, k < w.length → v[k]?.map foldCase = w[k]?) : Reads (v ++ rest) 0 w := by
  intro k hk
  rw [Nat.zero_add, List.getElem?_append_left (by omega)]
  exact hsame k hk

end behind

/-! ### Synthetic leads -/

section leads
variable (isAlnum : ℕ → Bool) {rest : Text} {j w : ℕ}

/- After `password=` a value is read as it stands. -/
theorem password_matchAt (hword : ∀ c, githubLetter c = true → isWord isAlnum c = true)
    (hspaces : Covers rest isSpaceCode 0 w) (hvalue : ValueAt rest w j) :
    matchAt (text "password=" ++ rest) (assignment isAlnum) 0 = some (9 + j) := by
  have hlen : (text "password=").length = 9 := rfl
  have hget : ∀ k, (text "password=" ++ rest)[9 + k]? = rest[k]? := getElem_behind (text "password=") rest
  have hshift : ValueAt (text "password=" ++ rest) ((text "password=").length + w)
      ((text "password=").length + j) ↔ ValueAt rest w j := valueAt_behind
  have hvalue' : ValueAt (text "password=" ++ rest) (9 + w) (9 + j) := hshift.mpr hvalue
  refine assignment_matchAt isAlnum ?_ hvalue'
  rw [assignmentLead]
  have hedge : 0 ∈ ends (text "password=" ++ rest) (wordEdge isAlnum) 0 := by
    refine (mem_ends_edge isAlnum).mpr ⟨?_, rfl⟩
    have hfirst : isWord isAlnum 112 = true := hword 112 (by decide)
    show (false != isWord isAlnum 112) = true
    rw [hfirst]
    rfl
  have hlabel : 8 ∈ ends (text "password=" ++ rest) label 0 := by
    have hread : Reads (text "password=" ++ rest) 0 (text "password") :=
      reads_lower _ (by decide) (by decide)
    have hpassword : 8 ∈ ends (text "password=" ++ rest) (lit "password") 0 :=
      mem_ends_lit.mpr ⟨hread, rfl⟩
    rw [label]
    exact mem_ends_alt.mpr (Or.inr (mem_ends_alt.mpr (Or.inr (mem_ends_alt.mpr (Or.inr
      (mem_ends_alt.mpr (Or.inr (mem_ends_alt.mpr (Or.inl hpassword)))))))))
  have hsign : 9 ∈ ends (text "password=" ++ rest) (among ":=") 8 :=
    mem_ends_chr.mpr ⟨rfl, rfl⟩
  have hvalueStart : 9 + w ∈ ends (text "password=" ++ rest) (star space) 9 := by
    refine mem_ends_star.mpr ⟨by omega, le_run_of_covers fun k hk hkw => ?_⟩
    have hany := hspaces (k - 9) (by omega) (by omega)
    rw [← hget, Nat.add_sub_cancel' hk] at hany
    exact hany
  refine mem_ends_seqs_cons.mpr ⟨0, hedge, mem_ends_seqs_cons.mpr ⟨0, ?_, mem_ends_seqs_cons.mpr
    ⟨8, hlabel, mem_ends_seqs_cons.mpr ⟨8, ?_, mem_ends_seqs_cons.mpr ⟨9, hsign, hvalueStart⟩⟩⟩⟩⟩
  · exact mem_ends_alt.mpr (Or.inr (List.mem_singleton.mpr rfl))
  · exact mem_ends_star.mpr ⟨le_rfl, by omega⟩

end leads

/-! ### Where the tail may start -/

section starts
variable (isAlnum : ℕ → Bool) {front tail : Text} {cut e i j k l n p q s v : ℕ}

/- Up to the end of the first visible word. -/
theorem token_hidden (hp : front.length ≤ p)
    (hspaces : Covers (front ++ tail) isSpaceCode front.length p)
    (hvisible : Covers (front ++ tail) isVisible p q) (hpq : p < q) :
    q ≤ front.length + completeTail isAlnum tail cut := by
  obtain ⟨p', rfl⟩ : ∃ p', p = front.length + p' := ⟨p - front.length, by omega⟩
  obtain ⟨q', rfl⟩ : ∃ q', q = front.length + q' := ⟨q - front.length, by omega⟩
  have hspaces' : Covers tail isSpaceCode 0 p' := covers_behind hspaces
  have hvisible' : Covers tail isVisible p' q' := covers_behind hvisible
  have hrun : run isSpaceCode tail 0 = p' := by
    refine run_eq p' (fun k hk => ?_) ?_
    · rw [Nat.zero_add]
      exact hspaces' k (Nat.zero_le _) hk
    · rw [Nat.zero_add]
      exact any_visible (fun c hc => hc) (hvisible' p' le_rfl (by omega))
  have hletters : Covers tail (fun c => !isSpaceCode c && !(text "").contains c) p' q' := by
    intro k hpk hkq
    refine any_imp (fun c hc => ?_) (hvisible' k hpk hkq)
    rw [isVisible] at hc
    rw [hc]
    rfl
  have hword := le_run_of_covers hletters
  have hfirst : (ends tail (plus (solid "")) p').head?
      = some (p' + run (fun c => !isSpaceCode c && !(text "").contains c) tail p') := by
    rw [solid, head_ends_plus, if_pos (by omega)]
  have hmatch : matchAt tail initialToken 0
      = some (p' + run (fun c => !isSpaceCode c && !(text "").contains c) tail p') := by
    rw [matchAt, initialToken, ends]
    have hstar : (ends tail (star space) 0).head? = some (0 + run isSpaceCode tail 0) :=
      head_ends_star 0
    rw [hrun, Nat.zero_add] at hstar
    exact head_flatMap_head hstar hfirst
  have hle : _ ≤ completeTail isAlnum tail cut := initial_reaches isAlnum hmatch
  omega

/- The schemes, as the leads spell them. -/
theorem mem_ends_scheme_spelled : k ∈ ends tail scheme i ↔
    ∃ w ∈ [text "Bearer", text "Basic"], Reads tail i (w.map foldCase) ∧ k = i + w.length := by
  rw [mem_ends_scheme]
  constructor
  · rintro (h | h)
    · exact ⟨text "Bearer", List.mem_cons_self .., h⟩
    · exact ⟨text "Basic", List.mem_cons_of_mem _ (List.mem_singleton.mpr rfl), h⟩
  · rintro ⟨w, hw, h⟩
    rcases List.mem_cons.mp hw with rfl | hw
    · exact Or.inl h
    · obtain rfl := List.mem_singleton.mp hw
      exact Or.inr h

theorem scheme_not_quoted (hk : k ∈ ends tail scheme i) : ¬ QuotedAt tail i n := by
  intro h
  have hfirst : tail[i]?.map foldCase = some 98 := by
    rcases mem_ends_scheme.mp hk with hread | hread
    · exact hread.1.letter 0 98 rfl
    · exact hread.1.letter 0 98 rfl
  obtain ⟨c, hc, hquote⟩ := (Option.any_eq_true _ _).mp h.open_
  rw [hc] at hfirst
  rcases quote_cases c hquote with rfl | rfl
  · revert hfirst
    decide
  · revert hfirst
    decide

/- A tail that starts inside a scheme. -/
theorem scheme_hidden (hword : ∀ c, githubLetter c = true → isWord isAlnum c = true)
    (h : SchemeAt (front ++ tail) v k p) (hv : v < front.length) (hk : front.length ≤ k) :
    p + run wordLetter (front ++ tail) p ≤ front.length + completeTail isAlnum tail cut := by
  obtain ⟨w, hw, hread, hkw⟩ := mem_ends_scheme_spelled.mp h.scheme
  have hstart := h.start
  obtain ⟨n, hn⟩ : ∃ n, front.length = v + n := ⟨front.length - v, by omega⟩
  obtain ⟨k', rfl⟩ : ∃ k', k = front.length + k' := ⟨k - front.length, by omega⟩
  obtain ⟨p', rfl⟩ : ∃ p', p = front.length + p' := ⟨p - front.length, by omega⟩
  have hlen : (w.take n).length = n := by
    rw [List.length_take]
    omega
  have hrun : ∀ c x, run c (w.take n ++ tail) (n + x) = run c (front ++ tail) (front.length + x) := by
    intro c x
    have hleft := run_behind c (w.take n) tail x
    rw [hlen] at hleft
    rw [hleft, run_behind]
  have hreads : Reads (w.take n ++ tail) 0 (w.map foldCase) := by
    intro x hx
    rw [List.length_map] at hx
    rw [Nat.zero_add]
    by_cases hxn : x < n
    · rw [List.getElem?_append_left (by omega), List.getElem?_take, if_pos hxn, List.getElem?_map]
    · have hread := hread x (by rw [List.length_map]; exact hx)
      have hpos : v + x = front.length + (x - n) := by omega
      rw [hpos, getElem_behind] at hread
      rw [List.getElem?_append_right (by omega), hlen, hread]
  have hscheme : w.length ∈ ends (w.take n ++ tail) scheme 0 :=
    mem_ends_scheme_spelled.mpr ⟨w, hw, hreads, by omega⟩
  have hwk : w.length = n + k' := by omega
  have hat : SchemeAt (w.take n ++ tail) 0 w.length (n + p') := by
    have hspaces := h.spaces
    have hletter := h.some_letter
    refine ⟨hscheme, ?_, ?_, ?_⟩
    · rw [hwk, hrun]
      exact hspaces
    · rw [hwk, hrun]
      omega
    · rw [hrun]
      exact hletter
  have hvalue := ValueAt.scheme w.length (n + p') (fun m => scheme_not_quoted hscheme) hat
  rw [hrun] at hvalue
  have hmatch := password_matchAt isAlnum hword covers_self hvalue
  rw [← List.append_assoc] at hmatch
  have hlead : text "password=" ++ w.take n ∈ schemeLeads := by
    unfold schemeLeads
    exact List.mem_flatMap.mpr ⟨w, hw, List.mem_map.mpr ⟨n, List.mem_range.mpr (by omega), rfl⟩⟩
  have hle : p' + run wordLetter (front ++ tail) (front.length + p') ≤ completeTail isAlnum tail cut := by
    refine schemeLead_reaches isAlnum hlead hmatch ?_
    have hnine : (text "password=").length = 9 := rfl
    rw [List.length_append, hlen]
    omega
  omega

theorem auth_hidden (hword : ∀ c, githubLetter c = true → isWord isAlnum c = true)
    (h : AuthAt isAlnum (front ++ tail) i k p) (hi : i < front.length)
    (hq : front.length < p + run authLetter (front ++ tail) p) :
    p + run authLetter (front ++ tail) p ≤ front.length + completeTail isAlnum tail cut := by
  have hstart := h.start
  have hlong := h.long
  have hvisible : Covers (front ++ tail) authLetter p (p + run authLetter (front ++ tail) p) :=
    covers_run authLetter p
  by_cases hk : front.length ≤ k
  · have hletters : ∀ c, authLetter c = true → wordLetter c = true := by
      intro c hc
      have hseen := visible_auth c hc
      rw [isVisible] at hseen
      rw [wordLetter, hseen, Bool.true_and, Bool.not_eq_true', ← Bool.not_eq_true,
        List.contains_iff_mem]
      intro hmem
      rcases List.mem_cons.mp hmem with rfl | hmem
      · revert hc
        decide
      · obtain rfl := List.mem_singleton.mp hmem
        revert hc
        decide
    have hrun := le_run_of_covers fun x hpx hxq => any_imp hletters (hvisible x hpx hxq)
    have hle : p + run wordLetter (front ++ tail) p ≤ front.length + completeTail isAlnum tail cut :=
      scheme_hidden isAlnum hword ⟨h.scheme, h.spaces, h.start, by omega⟩ hi hk
    omega
  · -- the tail starts in the spaces or in the value
    have hspaces : Covers (front ++ tail) isSpaceCode k (k + run isSpaceCode (front ++ tail) k) :=
      covers_run isSpaceCode k
    refine token_hidden isAlnum (p := max front.length p) (le_max_left _ _) (fun x hx hxp => ?_)
      (fun x hx hxq => ?_) (by omega)
    · exact hspaces x (by omega) (by omega)
    · exact any_imp visible_auth (hvisible x (by omega) hxq)

theorem quoted_hidden (hword : ∀ c, githubLetter c = true → isWord isAlnum c = true)
    (h : QuotedAt (front ++ tail) v n) (hv : v < front.length) (hq : front.length < v + 1 + n) :
    v + 1 + n ≤ front.length + completeTail isAlnum tail cut := by
  obtain ⟨m, hm⟩ : ∃ m, v + 1 + n = front.length + m := ⟨v + 1 + n - front.length, by omega⟩
  have hclose := h.close
  have hrun := h.length
  rw [hm, getElem_behind] at hclose
  have hbody : run notQuote tail 0 = m := by
    refine run_eq m (fun x hx => ?_) ?_
    · have hin : front.length + x - (v + 1) < run notQuote (front ++ tail) (v + 1) := by omega
      have hget := getElem_of_run _ hin
      rwa [Nat.add_sub_cancel' (by omega), getElem_behind, ← Nat.zero_add x] at hget
    · rw [Nat.zero_add]
      obtain ⟨c, hc, hquote⟩ := (Option.any_eq_true _ _).mp hclose
      rw [hc]
      rcases quote_cases c hquote with rfl | rfl
      · decide
      · decide
  have hrun' : run notQuote (text "'" ++ tail) (0 + 1) = m :=
    (run_behind notQuote (text "'") tail 0).trans hbody
  have hat : QuotedAt (text "'" ++ tail) 0 m := by
    refine ⟨rfl, hrun'.symm, by omega, ?_⟩
    have hget := getElem_behind (text "'") tail m
    rw [Nat.zero_add]
    exact (congrArg (Option.any isQuote) hget).trans hclose
  have hmatch := password_matchAt isAlnum hword covers_self (ValueAt.quoted m hat)
  have hsplit : text "password='" = text "password=" ++ text "'" := by decide
  rw [← List.append_assoc, ← hsplit] at hmatch
  have hentry : (assignment isAlnum, text "password='") ∈ leads isAlnum := by
    unfold leads
    exact List.mem_cons_of_mem _ (List.mem_cons_self ..)
  have hten : (text "password='").length = 10 := rfl
  have hle : m ≤ completeTail isAlnum tail cut := lead_reaches isAlnum hentry hmatch (by omega)
  omega

/- A tail that starts inside a quoted value or behind its quote is read up to the closing one, and
one that starts in the spaces before a value, after a separator. -/
theorem spaced_hidden (hword : ∀ c, githubLetter c = true → isWord isAlnum c = true)
    (hv : front.length ≤ v) (hspaces : Covers (front ++ tail) isSpaceCode front.length v)
    (h : ValueAt (front ++ tail) v e) (he : front.length ≤ e) :
    e ≤ front.length + completeTail isAlnum tail cut := by
  obtain ⟨v', rfl⟩ : ∃ v', v = front.length + v' := ⟨v - front.length, by omega⟩
  obtain ⟨e', rfl⟩ : ∃ e', e = front.length + e' := ⟨e - front.length, by omega⟩
  have hspaces' : Covers tail isSpaceCode 0 v' := covers_behind hspaces
  have hmatch := password_matchAt isAlnum hword hspaces' (valueAt_behind.mp h)
  have hentry : (assignment isAlnum, text "password=") ∈ leads isAlnum := by
    unfold leads
    exact List.mem_cons_self ..
  have hnine : (text "password=").length = 9 := rfl
  have hle : e' ≤ completeTail isAlnum tail cut := lead_reaches isAlnum hentry hmatch (by omega)
  omega

/-- `[^\r\n:=]`. -/
def lineLetter (c : ℕ) : Bool := !(text "\r\n:=").contains c

theorem not_lineLetter (c : ℕ) (h : lineLetter c = false) : labelLetter c = false := by
  rw [lineLetter, Bool.not_eq_false', List.contains_iff_mem] at h
  have hc : c = 13 ∨ c = 10 ∨ c = 58 ∨ c = 61 := by simpa [text] using h
  rcases hc with rfl | rfl | rfl | rfl
  · decide
  · decide
  · decide
  · decide

/- A tail that starts inside a label, or in the spaces behind it. -/
theorem separator_found (h : LeadAt isAlnum (front ++ tail) i l s v) (hi : i < front.length)
    (hs : front.length ≤ s) (hv : v = valueStart (front ++ tail) i) :
    ∃ v', v = front.length + v' ∧ matchAt tail separator 0 = some v' := by
  obtain ⟨hil, hls⟩ := h.reach
  have hsep := h.separator
  obtain ⟨s', rfl⟩ : ∃ s', s = front.length + s' := ⟨s - front.length, by omega⟩
  have hsign : tail[s']? = some 58 ∨ tail[s']? = some 61 := by
    have hsign := h.sign
    rwa [getElem_behind] at hsign
  have hnotLine : tail[s']?.any lineLetter = false := by
    rcases hsign with hsign | hsign
    · rw [hsign]
      decide
    · rw [hsign]
      decide
  have hnotSpace : tail[s']?.any isSpaceCode = false := by
    rcases hsign with hsign | hsign
    · rw [hsign]
      decide
    · rw [hsign]
      decide
  -- what a line ends with inside the label can only be one of the spaces behind it
  have hline : run lineLetter tail 0 ≤ s' := by
    by_contra hlt
    have hin : s' < run lineLetter tail 0 := by omega
    have hget := getElem_of_run s' hin
    rw [Nat.zero_add, hnotLine] at hget
    cases hget
  have hspaces : Covers tail isSpaceCode (run lineLetter tail 0) s' := by
    intro x hx hxs
    have hend : tail[0 + run lineLetter tail 0]?.any lineLetter = false := getElem_run_end
    rw [Nat.zero_add] at hend
    have hbehind : l ≤ front.length + run lineLetter tail 0 := by
      by_contra hlt
      have hlabel := h.label (front.length + run lineLetter tail 0) (by omega) (by omega)
      rw [getElem_behind] at hlabel
      obtain ⟨c, hc, hletter⟩ := (Option.any_eq_true _ _).mp hlabel
      rw [hc] at hend
      rw [not_lineLetter c hend] at hletter
      cases hletter
    have hspace := h.spaces (front.length + x) (by omega) (by omega)
    rwa [getElem_behind] at hspace
  have hrun : run isSpaceCode tail (run lineLetter tail 0) = s' - run lineLetter tail 0 := by
    refine run_eq _ (fun x hx => hspaces _ (by omega) (by omega)) ?_
    rw [Nat.add_sub_cancel' hline]
    exact hnotSpace
  have hstart : v = front.length + (s' + 1 + run isSpaceCode tail (s' + 1)) := by
    rw [hv, valueStart, ← hsep, Nat.add_assoc front.length s' 1, run_behind, Nat.add_assoc]
  refine ⟨_, hstart, ?_⟩
  have hchoose : (ends tail (among ":=") s').head? = some (s' + 1) := by
    have hany : tail[s']?.any (fun c => (text ":=").contains (foldCase c)) = true := by
      rcases hsign with hsign | hsign
      · rw [hsign]
        decide
      · rw [hsign]
        decide
    rw [among, ends_chr_true hany]
    rfl
  have hfirst : (ends tail (star (noneOf "\r\n:=")) 0).head? = some (0 + run lineLetter tail 0) :=
    head_ends_star 0
  have hsecond : (ends tail (star space) (run lineLetter tail 0)).head?
      = some (run lineLetter tail 0 + run isSpaceCode tail (run lineLetter tail 0)) :=
    head_ends_star _
  rw [Nat.zero_add] at hfirst
  rw [hrun, Nat.add_sub_cancel' hline] at hsecond
  have hlast : (ends tail (star space) (s' + 1)).head?
      = some (s' + 1 + run isSpaceCode tail (s' + 1)) := head_ends_star _
  rw [matchAt, separator, ends_seqs_cons]
  refine head_flatMap_head hfirst ?_
  rw [ends_seqs_cons]
  refine head_flatMap_head hsecond ?_
  rw [ends_seqs_cons]
  exact head_flatMap_head hchoose hlast

theorem label_hidden (hword : ∀ c, githubLetter c = true → isWord isAlnum c = true)
    (h : LeadAt isAlnum (front ++ tail) i l s v) (hi : i < front.length) (hs : front.length ≤ s)
    (hv : v = valueStart (front ++ tail) i) (hvalue : ValueAt (front ++ tail) v e) (hve : v ≤ e)
    (hlen : v ≤ (front ++ tail).length) : e ≤ front.length + completeTail isAlnum tail cut := by
  obtain ⟨v', hv', hsep⟩ := separator_found isAlnum h hi hs hv
  obtain ⟨n, rfl⟩ : ∃ n, e = v + n := ⟨e - v, by omega⟩
  subst hv'
  rw [List.length_append] at hlen
  have htake : (tail.take v').length = v' := by
    rw [List.length_take]
    omega
  have hrest : ValueAt (tail.drop v') 0 n := by
    have hshift : ValueAt (tail.take v' ++ tail.drop v') ((tail.take v').length + 0)
        ((tail.take v').length + n) ↔ ValueAt (tail.drop v') 0 n := valueAt_behind
    rw [List.take_append_drop, htake, Nat.add_zero] at hshift
    rw [Nat.add_assoc] at hvalue
    exact hshift.mp (valueAt_behind.mp hvalue)
  have hmatch := password_matchAt isAlnum hword covers_self hrest
  have hle : v' + n ≤ completeTail isAlnum tail cut :=
    separator_reaches isAlnum hsep hmatch (by omega)
  omega

theorem value_after (h : ValueAt tail v e) : v < e := by
  cases h with
  | quoted n _ => omega
  | scheme k p _ hs =>
    have hk := (scheme_covers hs.scheme).1
    have hp := hs.start
    omega
  | word _ _ hone => omega

theorem assignment_hidden (hword : ∀ c, githubLetter c = true → isWord isAlnum c = true)
    (h : (assignmentCredential isAlnum).secret (front ++ tail) i = some (p, q, e))
    (hi : i < front.length) (hq : front.length < q) :
    q ≤ front.length + completeTail isAlnum tail cut := by
  obtain ⟨v, l, s, hv, hlead, hstart, hvalue, hsecret⟩ := assignment_secret isAlnum h
  have hqe : q ≤ e := by
    cases hsecret with
    | quoted n _ => omega
    | bare _ _ _ => exact le_rfl
  have hve := value_after hvalue
  have hlen : v ≤ (front ++ tail).length := by
    refine (ends_bounds _ i v ?_ hv).2
    rw [List.length_append]
    omega
  by_cases hvb : front.length ≤ v
  · have hle : e ≤ front.length + completeTail isAlnum tail cut := by
      by_cases hs : front.length ≤ s
      · exact label_hidden isAlnum hword hlead hi hs hstart hvalue hve.le hlen
      · have hspaces := hlead.value
        refine spaced_hidden isAlnum hword hvb (fun x hx hxv => ?_) hvalue (by omega)
        exact covers_run isSpaceCode (s + 1) x (by omega) (by omega)
    omega
  · cases hsecret with
    | quoted n hn => exact quoted_hidden isAlnum hword hn (by omega) hq
    | bare _ hnone _ =>
      cases hvalue with
      | quoted n hn => exact absurd hn (hnone n)
      | scheme k w _ hs =>
        by_cases hk : front.length ≤ k
        · exact scheme_hidden isAlnum hword hs (by omega) hk
        · have hw := hs.start
          have hletter := hs.some_letter
          refine token_hidden isAlnum (p := max front.length w) (le_max_left _ _) (fun x hx hxp => ?_)
            (fun x hx hxq => ?_) (by omega)
          · exact covers_run isSpaceCode k x (by omega) (by omega)
          · exact any_imp visible_word (covers_run wordLetter w x (by omega) hxq)
      | word _ _ _ =>
        refine token_hidden isAlnum le_rfl covers_self (fun x hx hxq => ?_) hq
        exact any_imp visible_word (covers_run wordLetter _ x (by omega) hxq)

end starts

end ParallelForge.Redaction
