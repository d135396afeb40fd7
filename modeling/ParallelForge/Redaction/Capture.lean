import ParallelForge.Redaction.Cuts
import Mathlib.Data.List.TakeWhile

/-!
# No registered secret leaks at a truncated edge

The cuts of a truncated capture start behind the longest overlap with a
registered secret and then only move outwards, until neither a complete secret
nor a complete credential is split. What the patterns find never matters for
this, only that a match lies inside the text it was found in.
-/

namespace ParallelForge.Redaction
open Base Prog Regex

section widening
variable {tail : Text} {isAlnum : ℕ → Bool}

/-- The head cut moves left and the tail cut right, inside the tail. -/
structure Widens (tail : Text) (cuts cuts' : ℕ × ℕ) : Prop where
  head : cuts'.1 ≤ cuts.1
  tail_le : cuts.2 ≤ cuts'.2
  inside : cuts'.2 ≤ tail.length

theorem Widens.trans {a b c : ℕ × ℕ} (h : Widens tail a b) (h' : Widens tail b c) : Widens tail a c :=
  ⟨h'.head.trans h.head, h.tail_le.trans h'.tail_le, h'.inside⟩

/- A fold that stays between its start and a bound. -/
theorem foldl_up {β : Type} (f : ℕ → β → ℕ) (bound : ℕ) (l : List β)
    (hf : ∀ c, ∀ b ∈ l, c ≤ bound → c ≤ f c b ∧ f c b ≤ bound) :
    ∀ c, c ≤ bound → c ≤ l.foldl f c ∧ l.foldl f c ≤ bound := by
  induction l with
  | nil => exact fun c hc => ⟨le_rfl, hc⟩
  | cons a l ih =>
    intro c hc
    have hfirst := hf c a (List.mem_cons_self ..) hc
    have hrest := ih (fun c b hb => hf c b (List.mem_cons_of_mem a hb)) (f c a) hfirst.2
    rw [List.foldl_cons]
    omega

theorem completeHead_le (head : Text) (cut : ℕ) : completeHead isAlnum head cut ≤ cut := by
  refine (foldl_down _ ?_ (completions isAlnum) cut).1
  intro c entry
  refine (foldl_down _ ?_ _ c).1
  intro c m
  split
  · omega
  · exact le_rfl

theorem afterLead_bounds (pattern : Regex ℕ) (lead : Text) {cut : ℕ} (hcut : cut ≤ tail.length) :
    cut ≤ afterLead tail pattern lead cut ∧ afterLead tail pattern lead cut ≤ tail.length := by
  unfold afterLead
  split
  · next stop hstop =>
    have hle := (matchAt_bounds (Nat.zero_le _) hstop).2
    rw [List.length_append] at hle
    omega
  · exact ⟨le_rfl, hcut⟩

theorem completeTail_bounds {cut : ℕ} (hcut : cut ≤ tail.length) :
    cut ≤ completeTail isAlnum tail cut ∧ completeTail isAlnum tail cut ≤ tail.length := by
  unfold completeTail
  dsimp only
  have hfirst := afterLead_bounds initialToken [] hcut
  have hleads := foldl_up (fun cut entry => afterLead tail entry.1 entry.2 cut) tail.length
    (leads isAlnum) (fun c entry _ hc => afterLead_bounds entry.1 entry.2 hc) _ hfirst.2
  have hschemes : ∀ c, c ≤ tail.length →
      c ≤ schemeLeads.foldl (fun cut lead => afterLead tail (assignment isAlnum) lead cut) c ∧
        schemeLeads.foldl (fun cut lead => afterLead tail (assignment isAlnum) lead cut) c
          ≤ tail.length :=
    foldl_up _ tail.length schemeLeads fun c lead _ hc => afterLead_bounds (assignment isAlnum) lead hc
  split
  · next stop hstop =>
    split
    · next stop' hstop' =>
      have hle := (matchAt_bounds (Nat.zero_le _) hstop).2
      have hle' := (matchAt_bounds (Nat.zero_le _) hstop').2
      rw [List.length_append, List.length_drop] at hle'
      have hlast := hschemes (max ((leads isAlnum).foldl (fun cut entry => afterLead tail entry.1
        entry.2 cut) (afterLead tail initialToken [] cut))
          (stop + stop' - (text "password=").length)) (by omega)
      omega
    · have hlast := hschemes _ hleads.2
      omega
  · have hlast := hschemes _ hleads.2
    omega

theorem closeHead_le (head : Text) (pattern : Regex ℕ) (cut : ℕ) : closeHead head pattern cut ≤ cut := by
  unfold closeHead
  split
  · refine (foldl_down _ ?_ _ cut).1
    intro c m
    split
    · next h =>
      rw [Bool.and_eq_true, decide_eq_true_eq] at h
      omega
    · exact le_rfl
  · exact le_rfl

theorem closeTail_bounds (pattern : Regex ℕ) {cut : ℕ} (hcut : cut ≤ tail.length) :
    cut ≤ closeTail tail pattern cut ∧ closeTail tail pattern cut ≤ tail.length := by
  unfold closeTail
  split
  · refine foldl_up _ tail.length _ ?_ cut hcut
    intro c m hm hc
    have hbounds := finditer_bounds hm
    split
    · next h =>
      rw [Bool.and_eq_true, decide_eq_true_eq, decide_eq_true_eq] at h
      omega
    · omega
  · exact ⟨le_rfl, hcut⟩

theorem closeCuts_widens (head : Text) (cuts : ℕ × ℕ) (h : cuts.2 ≤ tail.length) :
    Widens tail cuts (closeCuts isAlnum head tail cuts) := by
  unfold closeCuts
  induction patterns isAlnum generalizing cuts with
  | nil => exact ⟨le_rfl, le_rfl, h⟩
  | cons pattern rest ih =>
    have hhead := closeHead_le head pattern cuts.1
    have htail := closeTail_bounds pattern h
    have hstep : Widens tail cuts (closeHead head pattern cuts.1, closeTail tail pattern cuts.2) :=
      ⟨hhead, htail.1, htail.2⟩
    exact hstep.trans (ih _ htail.2)

/-- The room that is left to the cuts; a round that changes them uses some of it. -/
def room (tail : Text) (cuts : ℕ × ℕ) : ℕ := cuts.1 + (tail.length - cuts.2)

theorem Widens.room_lt {cuts cuts' : ℕ × ℕ} (h : Widens tail cuts cuts') :
    cuts' = cuts ∨ room tail cuts' < room tail cuts := by
  have hhead := h.head
  have htail := h.tail_le
  have hinside := h.inside
  by_cases heq : cuts' = cuts
  · exact Or.inl heq
  · have hne : cuts'.1 ≠ cuts.1 ∨ cuts'.2 ≠ cuts.2 := by
      by_contra hsame
      rw [not_or, not_not, not_not] at hsame
      exact heq (Prod.ext hsame.1 hsame.2)
    right
    unfold room
    omega

/-- The cuts move outwards from what completes the edges, until a round changes nothing. -/
theorem credentialCaptureCuts_stable (head : Text) {cuts : ℕ × ℕ} (h : cuts.2 ≤ tail.length) :
    ∃ cuts', Returns (credentialCaptureCuts isAlnum head tail cuts.1 cuts.2) cuts' ∧
      Widens tail (completeHead isAlnum head cuts.1, completeTail isAlnum tail cuts.2) cuts' ∧
      closeCuts isAlnum head tail cuts' = cuts' := by
  have htail := @completeTail_bounds tail isAlnum cuts.2 h
  obtain ⟨cuts', hrun, hwide, hlast⟩ := returns_untilStable (fun _ => true)
    (fun cuts => (pure (closeCuts isAlnum head tail cuts) : Prog (ℕ × ℕ)))
    (fun cuts' => Widens tail (completeHead isAlnum head cuts.1, completeTail isAlnum tail cuts.2) cuts')
    (room tail)
    (by
      intro c hc _
      have hstep := @closeCuts_widens tail isAlnum head c hc.inside
      exact ⟨_, returns_pure _, hc.trans hstep, hstep.room_lt⟩) _ ⟨le_rfl, le_rfl, htail.2⟩
  refine ⟨cuts', hrun, hwide, ?_⟩
  rcases hlast with hfalse | hstable
  · cases hfalse
  · exact (returns_pure _).unique hstable

theorem credentialCaptureCuts_returns (head : Text) {cuts : ℕ × ℕ} (h : cuts.2 ≤ tail.length) :
    ∃ cuts', Returns (credentialCaptureCuts isAlnum head tail cuts.1 cuts.2) cuts' ∧
      Widens tail cuts cuts' := by
  have hhead := @completeHead_le isAlnum head cuts.1
  have htail := @completeTail_bounds tail isAlnum cuts.2 h
  have hstart : Widens tail cuts (completeHead isAlnum head cuts.1, completeTail isAlnum tail cuts.2) :=
    ⟨hhead, htail.1, htail.2⟩
  obtain ⟨cuts', hrun, hwide, -⟩ := @credentialCaptureCuts_stable tail isAlnum head cuts h
  exact ⟨cuts', hrun, hstart.trans hwide⟩

end widening

section rounds
variable (isAlnum : ℕ → Bool) (r : Redactor) (head tail : Text)

/-- Neither side of a truncated capture is cut inside a complete secret. -/
def Whole (cuts : ℕ × ℕ) : Prop :=
  Unsplit head r.secrets cuts.1 ∧
    Unsplit tail.reverse (r.secrets.map List.reverse) (tail.length - cuts.2)

/-- A round widens the cuts, and splits nothing where it changes nothing. -/
theorem cutRound_returns {cuts : ℕ × ℕ} (h : cuts.2 ≤ tail.length) :
    ∃ cuts', Returns (cutRound isAlnum r head tail cuts) cuts' ∧ Widens tail cuts cuts' ∧
      (cuts' = cuts → Whole r head tail cuts) := by
  obtain ⟨c, hc, hcle, hcwhole, -⟩ := @secretCutStart_returns head r.secrets cuts.1
  obtain ⟨d, hd, hdle, hdwhole, -⟩ := @secretCutStart_returns tail.reverse
    (r.secrets.map List.reverse) (tail.length - cuts.2)
  obtain ⟨cuts', hrun, hwide⟩ := @credentialCaptureCuts_returns tail isAlnum head (c, tail.length - d)
    (Nat.sub_le _ _)
  have hfirst : Widens tail cuts (c, tail.length - d) := ⟨hcle, by simp only; omega, Nat.sub_le _ _⟩
  refine ⟨cuts', returns_bind hc (returns_bind hd hrun), hfirst.trans hwide, ?_⟩
  intro heq
  -- every part of the round only widens, so none of them moved a cut
  subst heq
  have hhead := hwide.head
  have htail := hwide.tail_le
  simp only at hhead htail
  have hc' : c = cuts'.1 := by omega
  have hd' : d = tail.length - cuts'.2 := by omega
  subst hc' hd'
  exact ⟨hcwhole, hdwhole⟩

theorem captureCuts_returns :
    ∃ cuts, Returns (captureCuts isAlnum r head tail) cuts ∧ cuts.1 ≤ head.length ∧
      cuts.2 ≤ tail.length ∧ Whole r head tail cuts ∧
      (∀ s ∈ r.secrets, ∀ k, Overlaps s head k → cuts.1 + k ≤ head.length) ∧
      (∀ s ∈ r.secrets, ∀ k, Overlaps s.reverse tail.reverse k → k ≤ cuts.2) := by
  obtain ⟨k, hk, hkle, hkmax⟩ := longestOverlap_returns head r.secrets
  obtain ⟨l, hl, hlle, hlmax⟩ := longestOverlap_returns tail.reverse (r.secrets.map List.reverse)
  rw [List.length_reverse] at hlle
  obtain ⟨cuts, hrun, hwide, hlast⟩ := returns_untilStable (fun _ => true)
    (cutRound isAlnum r head tail) (fun cuts => Widens tail (head.length - k, l) cuts) (room tail)
    (by
      intro c hc _
      obtain ⟨c', hc', hstep, -⟩ := cutRound_returns isAlnum r head tail hc.inside
      exact ⟨c', hc', hc.trans hstep, hstep.room_lt⟩) (head.length - k, l) ⟨le_rfl, le_rfl, hlle⟩
  have hhead := hwide.head
  have htail := hwide.tail_le
  simp only at hhead htail
  refine ⟨cuts, returns_bind hk (returns_bind hl hrun), by omega, hwide.inside, ?_, ?_, ?_⟩
  · have hstable : Returns (cutRound isAlnum r head tail cuts) cuts := by
      rcases hlast with hfalse | hstable
      · cases hfalse
      · exact hstable
    obtain ⟨cuts', hrun', -, hwhole⟩ := cutRound_returns isAlnum r head tail hwide.inside
    exact hwhole (hrun'.unique hstable)
  · intro s hs j hj
    have hle := hkmax s hs j hj
    omega
  · intro s hs j hj
    have hle := hlmax s.reverse (List.mem_map_of_mem hs) j hj
    omega

end rounds

section strips
variable {c : ℕ} {s : Text} {i : ℕ}

theorem dropWhile_append (c : ℕ) (value : Text) :
    ∃ n, value = List.replicate n c ++ value.dropWhile (· == c) := by
  refine ⟨(value.takeWhile (· == c)).length, ?_⟩
  have hall : value.takeWhile (· == c) = List.replicate (value.takeWhile (· == c)).length c := by
    refine List.eq_replicate_of_mem ?_
    intro d hd
    simpa using List.mem_takeWhile_imp hd
  rw [← hall]
  exact List.takeWhile_append_dropWhile.symm

theorem rstrip_append (c : ℕ) (value : Text) : ∃ n, value = rstrip c value ++ List.replicate n c := by
  obtain ⟨n, hn⟩ := dropWhile_append c value.reverse
  refine ⟨n, ?_⟩
  have hrev := congrArg List.reverse hn
  rw [List.reverse_reverse, List.reverse_append, List.reverse_replicate] at hrev
  exact hrev

theorem lstrip_append (c : ℕ) (value : Text) : ∃ n, value = List.replicate n c ++ lstrip c value :=
  dropWhile_append c value

theorem length_rstrip_le (c : ℕ) (value : Text) : (rstrip c value).length ≤ value.length := by
  obtain ⟨n, hn⟩ := rstrip_append c value
  have hlen := congrArg List.length hn
  rw [List.length_append] at hlen
  omega

theorem length_lstrip_le (c : ℕ) (value : Text) : (lstrip c value).length ≤ value.length := by
  obtain ⟨n, hn⟩ := lstrip_append c value
  have hlen := congrArg List.length hn
  rw [List.length_append] at hlen
  omega

/- What is kept of a stripped text is a part of the text. -/
theorem take_rstrip {value : Text} {cut : ℕ} (hle : cut ≤ (rstrip c value).length) :
    (rstrip c value).take cut = value.take cut := by
  obtain ⟨n, hn⟩ := rstrip_append c value
  conv_rhs => rw [hn]
  rw [List.take_append_of_le_length hle]

theorem drop_lstrip (value : Text) (cut : ℕ) :
    (lstrip c value).drop cut = value.drop (value.length - (lstrip c value).length + cut) := by
  obtain ⟨n, hn⟩ := lstrip_append c value
  have hlen := congrArg List.length hn
  rw [List.length_append, List.length_replicate] at hlen
  have hstripped : value.length - (lstrip c value).length = n := by omega
  have hsplit : value.drop n = lstrip c value := by
    conv_lhs => rw [hn]
    have hsize : (List.replicate n c).length = n := List.length_replicate
    rw [List.drop_append_of_le_length hsize.ge, List.drop_eq_nil_of_le hsize.le, List.nil_append]
  rw [hstripped, ← List.drop_drop, hsplit]

/- An occurrence of a word without the letter does not reach into its repetitions. -/
theorem not_letter_of_occurs {value : Text} {p : ℕ} (hc : c ∉ s) (hocc : Occurs s value i)
    (hi : i ≤ p) (hp : p < i + s.length) : value[p]? ≠ some c := by
  intro hget
  have hsame := occurs_iff_getElem?.mp hocc (p - i) (by omega)
  have hpi : i + (p - i) = p := by omega
  rw [hpi, hget] at hsame
  exact hc (List.mem_of_getElem? hsame.symm)

end strips

section capture
variable (isAlnum : ℕ → Bool) (r : Redactor)

/-- The value that is captured of a text: what is before the omitted part, and what is behind it
unless the capture has no boundary and keeps the head only. -/
def Captured (value : Text) (boundary : Option ℕ) (h t : Text) : Prop :=
  (value = h ++ t ∧ boundary = some h.length) ∨ (value = h ∧ boundary = none ∧ t = [])

theorem captured_parts {value h t : Text} {boundary : Option ℕ} (hcap : Captured value boundary h t) :
    captureHead value boundary = rstrip replacement h ∧
      captureTail value boundary = lstrip replacement t := by
  rcases hcap with ⟨rfl, rfl⟩ | ⟨rfl, rfl, rfl⟩
  · simp [captureHead, captureTail]
  · exact ⟨rfl, rfl⟩

/-- The characters of an occurrence that overlaps the omitted part lie behind the head cut and
before the tail cut. -/
def Removed (h m : Text) (a b i n : ℕ) : Prop :=
  ∀ p, i ≤ p → p < i + n →
    (p < h.length → a ≤ p) ∧ (h.length + m.length ≤ p → p - (h.length + m.length) < b)

theorem head_removed {h rest s : Text} {i cut : ℕ} (hclean : replacement ∉ s)
    (hcut : ∀ k, Overlaps s (rstrip replacement h) k → cut + k ≤ (rstrip replacement h).length)
    (hocc : Occurs s (h ++ rest) i) (hover : h.length < i + s.length) (hi : i < h.length) :
    cut ≤ i := by
  obtain ⟨n, hn⟩ := rstrip_append replacement h
  -- the last character of the head belongs to the occurrence, so nothing was stripped
  have hzero : n = 0 := by
    by_contra hpos
    have hlen := congrArg List.length hn
    rw [List.length_append, List.length_replicate] at hlen
    have hget : (rstrip replacement h ++ List.replicate n replacement)[h.length - 1]?
        = some replacement := by
      rw [List.getElem?_append_right (by omega), List.getElem?_replicate, if_pos (by omega)]
    rw [← hn] at hget
    have hlast : (h ++ rest)[h.length - 1]? = some replacement := by
      rw [List.getElem?_append_left (by omega)]
      exact hget
    exact not_letter_of_occurs hclean hocc (by omega) (by omega) hlast
  rw [hzero, List.replicate_zero, List.append_nil] at hn
  rw [← hn] at hcut
  have hle := hcut _ (hocc.overlaps hi.le hover.le)
  omega

theorem tail_removed {front t s : Text} {i cut : ℕ} (hclean : replacement ∉ s)
    (hcut : ∀ k, Overlaps s.reverse (lstrip replacement t).reverse k → k ≤ cut)
    (hocc : Occurs s (front ++ t) i) (hi : i < front.length) (hend : front.length < i + s.length)
    (hlen : i + s.length ≤ (front ++ t).length) :
    i + s.length - front.length ≤ t.length - (lstrip replacement t).length + cut := by
  obtain ⟨n, hn⟩ := lstrip_append replacement t
  have hzero : n = 0 := by
    by_contra hpos
    have hfirst : (front ++ t)[front.length]? = some replacement := by
      rw [List.getElem?_append_right le_rfl, Nat.sub_self, hn, List.getElem?_append_left,
        List.getElem?_replicate, if_pos (by omega)]
      rw [List.length_replicate]
      omega
    exact not_letter_of_occurs hclean hocc (by omega) (by omega) hfirst
  rw [hzero, List.replicate_zero, List.nil_append] at hn
  rw [← hn] at hcut ⊢
  have hrev := hocc.reverse hlen
  rw [List.reverse_append] at hrev
  rw [List.length_append] at hrev hlen
  have hover := hrev.overlaps (by rw [List.length_reverse]; omega)
    (by rw [List.length_reverse, List.length_reverse]; omega)
  rw [List.length_reverse] at hover
  have hle := hcut _ hover
  omega

theorem head_whole {h s : Text} {i cut : ℕ} (hne : s ≠ []) (hclean : replacement ∉ s)
    (hwhole : Occurs s (rstrip replacement h) i → i + s.length ≤ cut ∨ cut ≤ i)
    (hocc : Occurs s h i) : i + s.length ≤ cut ∨ cut ≤ i := by
  obtain ⟨n, hn⟩ := rstrip_append replacement h
  have hlen := hocc.le_length hne
  have hpos := List.length_pos_iff.mpr hne
  have hsize := congrArg List.length hn
  rw [List.length_append, List.length_replicate] at hsize
  refine hwhole (Occurs.of_append_left (by rw [← hn]; exact hocc) ?_)
  by_contra hout
  have hget : (rstrip replacement h ++ List.replicate n replacement)[i + s.length - 1]?
      = some replacement := by
    rw [List.getElem?_append_right (by omega), List.getElem?_replicate, if_pos (by omega)]
  rw [← hn] at hget
  exact not_letter_of_occurs hclean hocc (by omega) (by omega) hget

theorem tail_whole {t s : Text} {i cut : ℕ} (hne : s ≠ []) (hclean : replacement ∉ s)
    (hcut : cut ≤ (lstrip replacement t).length)
    (hwhole : ∀ j, Occurs s.reverse (lstrip replacement t).reverse j →
      j + s.reverse.length ≤ (lstrip replacement t).length - cut ∨
        (lstrip replacement t).length - cut ≤ j)
    (hocc : Occurs s t i) :
    i + s.length ≤ t.length - (lstrip replacement t).length + cut ∨
      t.length - (lstrip replacement t).length + cut ≤ i := by
  obtain ⟨n, hn⟩ := lstrip_append replacement t
  have hpos := List.length_pos_iff.mpr hne
  have hsize := congrArg List.length hn
  rw [List.length_append, List.length_replicate] at hsize
  have hbehind : n ≤ i := by
    by_contra hin
    have hget : (List.replicate n replacement ++ lstrip replacement t)[i]? = some replacement := by
      rw [List.getElem?_append_left (by rw [List.length_replicate]; omega), List.getElem?_replicate,
        if_pos (by omega)]
    rw [← hn] at hget
    exact not_letter_of_occurs hclean hocc le_rfl (by omega) hget
  have hinner : Occurs s (lstrip replacement t) (i - n) := by
    have happ : Occurs s (List.replicate n replacement ++ lstrip replacement t) i := by
      rw [← hn]
      exact hocc
    have hright := happ.of_append_right (by rw [List.length_replicate]; exact hbehind)
    rw [List.length_replicate] at hright
    exact hright
  have hlen := hinner.le_length hne
  have hrev := hwhole _ (hinner.reverse hlen)
  rw [List.length_reverse] at hrev
  omega

theorem markHead_eq (head : Text) (cut : ℕ) (hle : cut ≤ head.length) :
    ∃ mark, markHead head cut = head.take cut ++ mark ∧ (mark = [] ∨ mark = redactedMark) := by
  unfold markHead
  split
  · exact ⟨redactedMark, rfl, Or.inr rfl⟩
  · refine ⟨[], ?_, Or.inl rfl⟩
    rw [List.append_nil, List.take_of_length_le (by omega)]

theorem markTail_eq (tail : Text) (cut : ℕ) :
    ∃ mark, markTail tail cut = mark ++ tail.drop cut ∧ (mark = [] ∨ mark = redactedMark) := by
  unfold markTail
  split
  · exact ⟨redactedMark, rfl, Or.inr rfl⟩
  · next hzero =>
    rw [not_not] at hzero
    exact ⟨[], by rw [hzero, List.drop_zero, List.nil_append], Or.inl rfl⟩

/-- Truncated captures. For every text `h ++ m ++ t` whose middle `m` was dropped, the closure
returns cuts inside the stripped head and tail, the output keeps `h` up to a position and `t` from
a position on, every registered secret that overlaps `m` loses all its characters in `h` and `t`,
and every complete one in `h` or in `t` is kept or removed as a whole. -/
theorem capture_edges_redacted (isAlnum : ℕ → Bool) (r : Redactor)
    (hclean : ∀ s ∈ r.secrets, replacement ∉ s) (h m t value : Text) (boundary : Option ℕ)
    (hcap : Captured value boundary h t) :
    ∃ a b headCut tailCut before after,
      Returns (captureCuts isAlnum r (captureHead value boundary) (captureTail value boundary))
        (headCut, tailCut) ∧
      headCut ≤ (captureHead value boundary).length ∧
      tailCut ≤ (captureTail value boundary).length ∧
      a ≤ h.length ∧ b ≤ t.length ∧
      Returns (redactCaptureEdges isAlnum r value boundary)
        (h.take a ++ before ++ captureOmission ++ (after ++ t.drop b)) ∧
      (before = [] ∨ before = redactedMark) ∧ (after = [] ∨ after = redactedMark) ∧
      (∀ s ∈ r.secrets, ∀ i, Occurs s (h ++ m ++ t) i → i < h.length + m.length →
        h.length < i + s.length → Removed h m a b i s.length) ∧
      (∀ s ∈ r.secrets, ∀ i, Occurs s h i → i + s.length ≤ a ∨ a ≤ i) ∧
      (∀ s ∈ r.secrets, ∀ i, Occurs s t i → i + s.length ≤ b ∨ b ≤ i) := by
  obtain ⟨hhead, htail⟩ := captured_parts hcap
  obtain ⟨⟨headCut, tailCut⟩, hrun, hheadCut, htailCut, ⟨hwholeHead, hwholeTail⟩, hoverHead, hoverTail⟩ :=
    captureCuts_returns isAlnum r (captureHead value boundary) (captureTail value boundary)
  obtain ⟨before, hbefore, hbeforeMark⟩ := markHead_eq (captureHead value boundary) headCut hheadCut
  obtain ⟨after, hafter, hafterMark⟩ := markTail_eq (captureTail value boundary) tailCut
  have hheadLen := length_rstrip_le replacement h
  have htailLen := length_lstrip_le replacement t
  simp only at hheadCut htailCut hwholeHead hwholeTail hoverHead hoverTail
  rw [hhead] at hheadCut hwholeHead hoverHead
  rw [htail] at htailCut hwholeTail hoverTail
  refine ⟨headCut, t.length - (lstrip replacement t).length + tailCut, headCut, tailCut, before, after,
    hrun, by rw [hhead]; exact hheadCut, by rw [htail]; exact htailCut, by omega, by omega, ?_,
    hbeforeMark, hafterMark, ?_, ?_, ?_⟩
  · -- the kept parts of the stripped head and tail are parts of `h` and `t`
    have hkeptHead : (captureHead value boundary).take headCut = h.take headCut := by
      rw [hhead]
      exact take_rstrip hheadCut
    have hkeptTail : (captureTail value boundary).drop tailCut
        = t.drop (t.length - (lstrip replacement t).length + tailCut) := by
      rw [htail]
      exact drop_lstrip t tailCut
    have hreturn := returns_bind (f := fun cuts => (pure (markHead (captureHead value boundary) cuts.1
      ++ captureOmission ++ markTail (captureTail value boundary) cuts.2) : Prog Text)) hrun
      (returns_pure _)
    simp only at hreturn
    rw [hbefore, hafter, hkeptHead, hkeptTail] at hreturn
    exact hreturn
  · intro s hs i hocc hi hend p hip hp
    have hlen := hocc.le_length (r.nonempty s hs)
    constructor
    · intro hph
      have hocc' : Occurs s (h ++ (m ++ t)) i := by
        rw [← List.append_assoc]
        exact hocc
      have hle := head_removed (hclean s hs) (hoverHead s hs) hocc' hend (by omega)
      omega
    · intro hpt
      have hle := @tail_removed (h ++ m) t s i tailCut (hclean s hs) (hoverTail s hs) hocc
        (by rw [List.length_append]; exact hi) (by rw [List.length_append]; omega) hlen
      rw [List.length_append] at hle
      omega
  · intro s hs i hocc
    exact head_whole (r.nonempty s hs) (hclean s hs) (hwholeHead s hs i) hocc
  · intro s hs i hocc
    exact tail_whole (r.nonempty s hs) (hclean s hs) htailCut
      (fun j hj => hwholeTail s.reverse (List.mem_map_of_mem hs) j hj) hocc

def sampleRedactor : Redactor where
  secrets := [text "private-sensitive-value"]
  nonempty := by decide

/- A secret that is cut on both sides of the omitted part leaves neither half. -/
theorem capture_edges_redacted_halves :
    ∃ a b before after, a ≤ 6 ∧ 8 ≤ b ∧
      Returns (redactCaptureEdges (fun c => inClass "" c) sampleRedactor
          (text "BEGIN private-" ++ text "ve-value END") (some 14))
        ((text "BEGIN private-").take a ++ before ++ captureOmission ++
          (after ++ (text "ve-value END").drop b)) := by
  obtain ⟨a, b, -, -, before, after, -, -, -, -, -, hrun, -, -, hremoved, -⟩ :=
    capture_edges_redacted (fun c => inClass "" c) sampleRedactor (by decide) (text "BEGIN private-")
      (text "sensiti") (text "ve-value END") _ (some 14) (Or.inl ⟨rfl, rfl⟩)
  have hgone := hremoved (text "private-sensitive-value") (List.mem_cons_self ..) 6
    ⟨text " END", by decide⟩ (by decide) (by decide)
  have hhead := (hgone 6 le_rfl (by decide)).1 (by decide)
  have htail := (hgone 28 (by decide) (by decide)).2 (by decide)
  refine ⟨a, b, before, after, hhead, ?_, hrun⟩
  have hlast : 28 - ((text "BEGIN private-").length + (text "sensiti").length) = 7 := by decide
  omega

end capture

end ParallelForge.Redaction
