import ParallelForge.Redaction.Forms

/-!
# Where a secret starts and ends

The pieces of each pattern are told apart by their letters: a scheme ends at the
first space, a label at the first `:` or `=`. So what the matcher finds first is
the only way to read what it reads.
-/

namespace ParallelForge.Redaction
open Base Regex

/-! ### Letters -/

theorem space_cases (c : ℕ) (h : isSpaceCode c = true) : foldCase c = c ∧ (c ≤ 32 ∨ 127 ≤ c) := by
  have hcases : (9 ≤ c ∧ c ≤ 13) ∨ (28 ≤ c ∧ c ≤ 32) ∨ c = 0x85 ∨ c = 0xA0 ∨ c = 0x1680 ∨
      (0x2000 ≤ c ∧ c ≤ 0x200A) ∨ c = 0x2028 ∨ c = 0x2029 ∨ c = 0x202F ∨ c = 0x205F ∨
      c = 0x3000 := by
    simp only [isSpaceCode, Bool.or_eq_true, Bool.and_eq_true, decide_eq_true_eq, beq_iff_eq,
      or_assoc] at h
    exact h
  have hfold : foldCase c = c := by
    unfold foldCase
    have h1 : ¬ (65 ≤ c ∧ c ≤ 90) := by omega
    have h2 : ¬ (c = 0x130 ∨ c = 0x131) := by omega
    have h3 : ¬ c = 0x17F := by omega
    have h4 : ¬ c = 0x212A := by omega
    simp [h1, h2, h3, h4]
  refine ⟨hfold, ?_⟩
  omega

/- A letter that a visible one folds to is no space. -/
theorem not_space (c : ℕ) (hlow : 33 ≤ foldCase c) (hhigh : foldCase c ≤ 126) :
    isSpaceCode c = false := by
  by_contra h
  rw [Bool.not_eq_false] at h
  obtain ⟨hfold, hrange⟩ := space_cases c h
  omega

def isVisible (c : ℕ) : Bool := !isSpaceCode c

theorem visible_of_fold (c : ℕ) (hlow : 33 ≤ foldCase c) (hhigh : foldCase c ≤ 126) :
    isVisible c = true := by
  rw [isVisible, not_space c hlow hhigh]
  rfl

theorem fold_of_inClass (more : String) (hmore : ∀ d ∈ text more, 43 ≤ d ∧ d ≤ 126) (c : ℕ)
    (h : inClass more c = true) : 43 ≤ foldCase c ∧ foldCase c ≤ 126 := by
  unfold inClass at h
  simp only [Bool.or_eq_true, Bool.and_eq_true, decide_eq_true_eq, List.contains_iff_mem] at h
  rcases h with (h | h) | h
  · omega
  · omega
  · exact hmore _ h

theorem visible_of_inClass (more : String) (hmore : ∀ d ∈ text more, 43 ≤ d ∧ d ≤ 126) (c : ℕ)
    (h : inClass more c = true) : isVisible c = true := by
  obtain ⟨hlow, hhigh⟩ := fold_of_inClass more hmore c h
  exact visible_of_fold c (by omega) hhigh

theorem within_lit {q : ℕ → Bool} (s : String) (h : ∀ c ∈ text s, ∀ d, foldCase d = c → q d = true) :
    Within q (lit s) := by
  unfold lit
  generalize text s = w at h
  induction w with
  | nil => trivial
  | cons c w ih =>
    have hc : ∀ d, (foldCase d == c) = true → q d = true := fun d hd =>
      h c (List.mem_cons_self ..) d (by simpa using hd)
    have hw := ih fun e he => h e (List.mem_cons_of_mem _ he)
    cases w with
    | nil => exact hc
    | cons e w => exact ⟨hc, hw⟩

/-! ### Word edges -/

section edges
variable (isAlnum : ℕ → Bool) {T : Text} {i j : ℕ}

def isWord (c : ℕ) : Bool := isAlnum c || c == 95

def AtEdge (T : Text) (i : ℕ) : Prop :=
  ((before T i).any (isWord isAlnum) != T[i]?.any (isWord isAlnum)) = true

theorem mem_ends_edge : j ∈ ends T (wordEdge isAlnum) i ↔ AtEdge isAlnum T i ∧ j = i := by
  unfold wordEdge AtEdge
  rw [ends]
  split
  · rename_i h
    rw [List.mem_singleton]
    exact ⟨fun hj => ⟨h, hj⟩, fun hj => hj.2⟩
  · rename_i h
    exact ⟨fun hj => absurd hj List.not_mem_nil, fun hj => absurd hj.1 h⟩

end edges

/-! ### Auth schemes -/

section scheme
variable {T : Text} {i j k : ℕ}

def scheme : Regex ℕ := alt (lit "bearer") (lit "basic")

theorem mem_ends_scheme : k ∈ ends T scheme i ↔
    (Reads T i (text "bearer") ∧ k = i + 6) ∨ (Reads T i (text "basic") ∧ k = i + 5) := by
  rw [scheme, mem_ends_alt, mem_ends_lit, mem_ends_lit]
  rfl

theorem scheme_unique (hj : j ∈ ends T scheme i) (hk : k ∈ ends T scheme i) : j = k := by
  have hapart : ¬ (Reads T i (text "bearer") ∧ Reads T i (text "basic")) := by
    intro h
    have he := h.1.letter 1 101 rfl
    have ha := h.2.letter 1 97 rfl
    rw [he] at ha
    cases ha
  rcases mem_ends_scheme.mp hj with hj | hj
  · rcases mem_ends_scheme.mp hk with hk | hk
    · omega
    · exact absurd ⟨hj.1, hk.1⟩ hapart
  · rcases mem_ends_scheme.mp hk with hk | hk
    · exact absurd ⟨hk.1, hj.1⟩ hapart
    · omega

theorem scheme_first (hk : k ∈ ends T scheme i) {β : Type} (f : ℕ → List β) :
    ((ends T scheme i).flatMap f).head? = (f k).head? :=
  head_flatMap_unique _ f k hk fun _ hk' hne => absurd (scheme_unique hk' hk) hne

/- A loop over spaces that something visible must follow. -/
theorem spaces_first {n : ℕ} {β : Type} (f : ℕ → List β)
    (hf : ∀ k, T[k]?.any isSpaceCode = true → f k = []) (hn : n ≤ run isSpaceCode T i) :
    ((ends T (atLeast space n) i).flatMap f).head? = (f (i + run isSpaceCode T i)).head? := by
  refine head_flatMap_unique _ f _ (mem_ends_atLeast.mpr (by omega)) fun k hk hne => ?_
  have hk' := mem_ends_atLeast.mp hk
  have hget : T[k]?.any isSpaceCode = true := covers_run isSpaceCode i k (by omega) (by omega)
  exact hf k hget

end scheme

/-! ### Forms -/

section forms
variable {T : Text} {k : ℕ}

theorem formSpans_bare (r : Regex ℕ) (k : ℕ) :
    formSpans T (.empty, r, .empty) k = (ends T r k).map fun q => (k, q, q) := by
  show [k].flatMap _ = _
  rw [List.flatMap_singleton]
  show (ends T r k).flatMap (fun q => [q].map fun j => (k, q, j)) = _
  rw [List.map_eq_flatMap]
  rfl

theorem formSpans_open (r r' : Regex ℕ) (k : ℕ) : formSpans T (.empty, r, r') k =
    (ends T r k).flatMap fun q => (ends T r' q).map fun j => (k, q, j) := by
  show [k].flatMap _ = _
  rw [List.flatMap_singleton]

theorem mem_formSpans {f : Regex ℕ × Regex ℕ × Regex ℕ} {p q j : ℕ} :
    (p, q, j) ∈ formSpans T f k ↔
      p ∈ ends T f.1 k ∧ q ∈ ends T f.2.1 p ∧ j ∈ ends T f.2.2 q := by
  simp only [formSpans, List.mem_flatMap, List.mem_map, Prod.mk.injEq]
  constructor
  · rintro ⟨p', hp, q', hq, j', hj, rfl, rfl, rfl⟩
    exact ⟨hp, hq, hj⟩
  · rintro ⟨hp, hq, hj⟩
    exact ⟨p, hp, q, hq, j, hj, rfl, rfl, rfl⟩

end forms

/-! ### Bearer and basic values -/

def authLetter : ℕ → Bool := inClass "+/._~=-"

def githubLetter : ℕ → Bool := inClass "_"

theorem visible_auth (c : ℕ) (h : authLetter c = true) : isVisible c = true :=
  visible_of_inClass "+/._~=-" (by decide) c h

theorem visible_github (c : ℕ) (h : githubLetter c = true) : isVisible c = true :=
  visible_of_inClass "_" (by decide) c h

/- Spaces and visible letters do not mix. -/
theorem any_visible {T : Text} {k : ℕ} {p : ℕ → Bool} (hp : ∀ c, p c = true → isVisible c = true)
    (h : T[k]?.any p = true) : T[k]?.any isSpaceCode = false := by
  obtain ⟨c, hc, hpc⟩ := (Option.any_eq_true _ _).mp h
  rw [hc]
  have hv := hp c hpc
  rw [isVisible, Bool.not_eq_true'] at hv
  exact hv

/- What follows a loop over spaces starts behind the last of them. -/
theorem end_of_spaces {T : Text} {k p n : ℕ} (hp : p ∈ ends T (atLeast space n) k)
    (hvisible : T[p]?.any isSpaceCode = false) : p = k + run isSpaceCode T k := by
  have hp' := mem_ends_atLeast.mp hp
  by_contra hne
  have hget : T[p]?.any isSpaceCode = true := covers_run isSpaceCode k p (by omega) (by omega)
  rw [hvisible] at hget
  cases hget

section auth
variable (isAlnum : ℕ → Bool) {T : Text} {i k p q e : ℕ}

/-- What a bearer value is read from. -/
structure AuthAt (T : Text) (i k p : ℕ) : Prop where
  edge : AtEdge isAlnum T i
  scheme : k ∈ ends T scheme i
  spaces : 1 ≤ run isSpaceCode T k
  start : p = k + run isSpaceCode T k
  long : 8 ≤ run authLetter T p

theorem auth_found (h : AuthAt isAlnum T i k p) : (authCredential isAlnum).secret T i =
    some (p, p + run authLetter T p, p + run authLetter T p) := by
  have hvalue : ∀ k', (formSpans T (.empty, atLeast (.chr authLetter) 8, .empty) k').head? =
      if 8 ≤ run authLetter T k' then some (k', k' + run authLetter T k', k' + run authLetter T k')
      else none := by
    intro k'
    rw [formSpans_bare, List.head?_map, head_ends_atLeast]
    split
    · rfl
    · rfl
  have hspace : ∀ k', T[k']?.any isSpaceCode = true →
      formSpans T (.empty, atLeast (.chr authLetter) 8, .empty) k' = [] := by
    intro k' hk'
    have hzero : run authLetter T k' = 0 := by
      refine run_eq_zero ?_
      by_contra hone
      rw [Bool.not_eq_false] at hone
      rw [any_visible visible_auth hone] at hk'
      cases hk'
    have hnone := hvalue k'
    rw [if_neg (by omega), List.head?_eq_none_iff] at hnone
    exact hnone
  have hlead : (authCredential isAlnum).spans T i = (ends T (wordEdge isAlnum) i).flatMap fun a =>
      (ends T scheme a).flatMap fun k => (ends T (atLeast space 1) k).flatMap
        (formSpans T (.empty, atLeast (.chr authLetter) 8, .empty)) := by
    show (ends T (seqs [wordEdge isAlnum, scheme, atLeast space 1]) i).flatMap (fun k =>
      [(Regex.empty, atLeast (.chr authLetter) 8, Regex.empty)].flatMap fun f => formSpans T f k) = _
    simp only [ends_seqs_cons, ends_seqs_nil, List.flatMap_assoc, List.flatMap_cons,
      List.flatMap_nil, List.append_nil]
  have hedge : (ends T (wordEdge isAlnum) i).head? = some i := by
    have hmem := (mem_ends_edge isAlnum).mpr ⟨h.edge, rfl⟩
    unfold wordEdge at hmem ⊢
    rw [ends] at hmem ⊢
    split
    · rfl
    · rename_i hno
      rw [if_neg hno] at hmem
      cases hmem
  rw [Credential.secret, hlead]
  refine head_flatMap_head hedge ?_
  rw [scheme_first h.scheme, spaces_first _ hspace h.spaces, ← h.start, hvalue, if_pos h.long]

theorem auth_secret (h : (authCredential isAlnum).secret T i = some (p, q, e)) :
    ∃ k, AuthAt isAlnum T i k p ∧ q = p + run authLetter T p ∧ e = q := by
  have hmem := List.mem_of_mem_head? (Option.mem_def.mpr h)
  obtain ⟨p', hlead, hform⟩ := List.mem_flatMap.mp hmem
  obtain ⟨f, hf, hspan⟩ := List.mem_flatMap.mp hform
  obtain rfl := List.mem_singleton.mp hf
  obtain ⟨hp, hq, _⟩ := mem_formSpans.mp hspan
  obtain rfl := List.mem_singleton.mp hp
  have hq' := mem_ends_atLeast.mp hq
  obtain ⟨a, ha, hlead⟩ := mem_ends_seqs_cons.mp hlead
  obtain ⟨k, hk, hspaces⟩ := mem_ends_seqs_cons.mp hlead
  obtain ⟨hedge, rfl⟩ := (mem_ends_edge isAlnum).mp ha
  have hlong : 8 ≤ run authLetter T p := by
    change p + 8 ≤ q ∧ q ≤ p + run authLetter T p at hq'
    omega
  have hfirst : T[p]?.any authLetter = true := covers_run authLetter p p le_rfl (by omega)
  have hend := end_of_spaces (n := 1) hspaces (any_visible visible_auth hfirst)
  have hplus := mem_ends_atLeast (n := 1).mp hspaces
  have hat : AuthAt isAlnum T a k p := ⟨hedge, hk, by omega, hend, hlong⟩
  rw [auth_found isAlnum hat] at h
  cases h
  exact ⟨k, hat, rfl, rfl⟩

end auth

/-! ### GitHub tokens -/

section github
variable (isAlnum : ℕ → Bool) {T : Text} {i j p q e : ℕ}

theorem within_githubLetter_lit (s : String) (h : ∀ c ∈ text s, inClass "_" c = true ∧ foldCase c = c) :
    Within githubLetter (lit s) := by
  refine within_lit s fun c hc d hd => ?_
  obtain ⟨hclass, hfold⟩ := h c hc
  unfold inClass at hclass
  unfold githubLetter inClass
  rw [hd]
  rwa [hfold] at hclass

theorem within_githubLetter_among (s : String)
    (h : ∀ c ∈ text s, inClass "_" c = true ∧ foldCase c = c) : Within githubLetter (among s) := by
  intro d hd
  rw [List.contains_iff_mem] at hd
  obtain ⟨hclass, hfold⟩ := h _ hd
  unfold inClass at hclass
  unfold githubLetter inClass
  rwa [hfold] at hclass

theorem within_atLeast {r : Regex ℕ} {c : ℕ → Bool} (hr : Within c r) (n : ℕ) :
    Within c (atLeast r n) := by
  induction n with
  | zero => exact hr
  | succ n ih => exact ⟨hr, ih⟩

/- Every letter of a token belongs to the class of its body. -/
theorem github_within : Within githubLetter (githubToken isAlnum) := by
  have hletter : Within githubLetter (.chr (inClass "_")) := fun c hc => hc
  have hbody := within_atLeast hletter 20
  exact ⟨trivial, ⟨⟨within_githubLetter_lit "gh" (by decide),
    within_githubLetter_among "pousr" (by decide), within_githubLetter_lit "_" (by decide), hbody⟩,
    within_githubLetter_lit "github_pat_" (by decide), hbody⟩, trivial⟩

theorem github_ends (h : j ∈ ends T (githubToken isAlnum) i) :
    i + 20 ≤ j ∧ Covers T githubLetter i j ∧ AtEdge isAlnum T j := by
  have hcovers := ends_covers _ (github_within isAlnum) i j h
  rw [githubToken] at h
  obtain ⟨a, ha, hrest⟩ := mem_ends_seqs_cons.mp h
  obtain ⟨b, hb, hlast⟩ := mem_ends_seqs_cons.mp hrest
  have hai := ((mem_ends_edge isAlnum).mp ha).2
  obtain ⟨hedge, rfl⟩ := (mem_ends_edge isAlnum).mp hlast
  refine ⟨?_, hcovers, hedge⟩
  rcases mem_ends_alt.mp hb with hb | hb
  · obtain ⟨k₁, hk₁, hb⟩ := mem_ends_seqs_cons.mp hb
    obtain ⟨k₂, hk₂, hb⟩ := mem_ends_seqs_cons.mp hb
    obtain ⟨k₃, hk₃, hb⟩ := mem_ends_seqs_cons.mp hb
    have hge₁ := ends_ge _ hk₁
    have hge₂ := ends_ge _ hk₂
    have hge₃ := ends_ge _ hk₃
    have hge₄ := (mem_ends_atLeast.mp hb).1
    omega
  · obtain ⟨k₁, hk₁, hb⟩ := mem_ends_seq.mp hb
    have hge₁ := ends_ge _ hk₁
    have hge₂ := (mem_ends_atLeast.mp hb).1
    omega

theorem github_secret (h : (githubCredential isAlnum).secret T i = some (p, q, e)) :
    i + 4 ≤ p ∧ e = q ∧ e ∈ ends T (githubToken isAlnum) i := by
  have hmem := List.mem_of_mem_head? (Option.mem_def.mpr h)
  have hend : e ∈ ends T (githubToken isAlnum) i := by
    rw [github_finds isAlnum T i]
    exact List.mem_map.mpr ⟨_, hmem, rfl⟩
  obtain ⟨a, ha, hform⟩ := List.mem_flatMap.mp hmem
  obtain ⟨_, rfl⟩ := (mem_ends_edge isAlnum).mp ha
  obtain ⟨f, hf, hspan⟩ := List.mem_flatMap.mp hform
  obtain ⟨hp, _, he⟩ := mem_formSpans.mp hspan
  rcases List.mem_cons.mp hf with rfl | hf
  · obtain ⟨k₁, hk₁, hp⟩ := mem_ends_seqs_cons.mp hp
    obtain ⟨k₂, hk₂, hp⟩ := mem_ends_seqs_cons.mp hp
    have h₁ := (mem_ends_lit.mp hk₁).2
    have h₂ := (mem_ends_chr.mp hk₂).2
    have h₃ := (mem_ends_lit.mp hp).2
    obtain ⟨_, rfl⟩ := (mem_ends_edge isAlnum).mp he
    change k₁ = a + 2 at h₁
    change p = k₂ + 1 at h₃
    exact ⟨by omega, rfl, hend⟩
  · obtain rfl := List.mem_singleton.mp hf
    have h₁ := (mem_ends_lit.mp hp).2
    obtain ⟨_, rfl⟩ := (mem_ends_edge isAlnum).mp he
    change p = a + 11 at h₁
    exact ⟨by omega, rfl, hend⟩

end github

/-! ### Passwords of URLs -/

section url
variable (isAlnum : ℕ → Bool) {T : Text} {i j k p q e : ℕ}

/-- `[^\s/@:]` and `[^\s/@]`. -/
def userLetter (c : ℕ) : Bool := !isSpaceCode c && !(text "/@:").contains c

def passwordLetter (c : ℕ) : Bool := !isSpaceCode c && !(text "/@").contains c

/- One code point is a letter of a word. -/
theorem Reads.exactly {w : Text} (h : Reads T i w) (n c : ℕ) (hc : w[n]? = some c)
    (honly : ∀ d, foldCase d = c → d = c) : T[i + n]? = some c := by
  obtain ⟨d, hd, hfold⟩ := Option.map_eq_some_iff.mp (h.letter n c hc)
  rw [hd, honly d hfold]

theorem fold_eq_sign (d : ℕ) (c : ℕ) (hc : c < 65) (h : foldCase d = c) : d = c := by
  unfold foldCase at h
  split at h
  · rename_i hd
    rw [Bool.and_eq_true, decide_eq_true_eq, decide_eq_true_eq] at hd
    omega
  · split at h
    · omega
    · split at h
      · omega
      · split at h
        · omega
        · exact h

theorem fold_eq_underscore (d : ℕ) (h : foldCase d = 95) : d = 95 := by
  unfold foldCase at h
  split at h
  · rename_i hd
    rw [Bool.and_eq_true, decide_eq_true_eq, decide_eq_true_eq] at hd
    omega
  · split at h
    · omega
    · split at h
      · omega
      · split at h
        · omega
        · exact h

/- Where the end of a run is read as something else, the loop stopped there. -/
theorem run_end_of_mem {c : ℕ → Bool} {n k : ℕ} (hk : k ∈ ends T (atLeast (.chr c) n) i)
    (hout : T[k]?.any c = false) : k = i + run c T i := by
  have hk' := mem_ends_atLeast.mp hk
  by_contra hne
  have hget : T[k]?.any c = true := covers_run c i k (by omega) (by omega)
  rw [hout] at hget
  cases hget

theorem url_lead_path (h : p ∈ ends T (urlLead isAlnum) i) :
    AtEdge isAlnum T i ∧
      p = i + 1 + run (inClass "+.-") T (i + 1) + 3 +
        run userLetter T (i + 1 + run (inClass "+.-") T (i + 1) + 3) + 1 := by
  rw [urlLead] at h
  obtain ⟨a, ha, h₁⟩ := mem_ends_seqs_cons.mp h
  obtain ⟨b, hb, h₂⟩ := mem_ends_seqs_cons.mp h₁
  obtain ⟨k, hk, h₃⟩ := mem_ends_seqs_cons.mp h₂
  obtain ⟨u, hu, h₄⟩ := mem_ends_seqs_cons.mp h₃
  obtain ⟨n, hn, h₅⟩ := mem_ends_seqs_cons.mp h₄
  obtain ⟨hedge, rfl⟩ := (mem_ends_edge isAlnum).mp ha
  obtain ⟨_, rfl⟩ := mem_ends_chr.mp hb
  obtain ⟨hslashes, hulen⟩ := mem_ends_lit.mp hu
  obtain ⟨hcolon, hplen⟩ := mem_ends_lit.mp h₅
  have hcolon₁ := hslashes.exactly 0 58 rfl fun d hd => fold_eq_sign d 58 (by decide) hd
  have hcolon₂ := hcolon.exactly 0 58 rfl fun d hd => fold_eq_sign d 58 (by decide) hd
  rw [Nat.add_zero] at hcolon₁ hcolon₂
  have hk' := run_end_of_mem (n := 0) hk (by rw [hcolon₁]; decide)
  have hn' := run_end_of_mem (n := 1) hn (by rw [hcolon₂]; decide)
  change u = k + 3 at hulen
  change p = n + 1 at hplen
  subst hk'
  subst hulen
  exact ⟨hedge, by rw [hplen, hn']; rfl⟩

theorem url_lead_unique (hj : j ∈ ends T (urlLead isAlnum) i) (hk : k ∈ ends T (urlLead isAlnum) i) :
    j = k := by
  rw [(url_lead_path isAlnum hj).2, (url_lead_path isAlnum hk).2]

theorem within_visible_lit (s : String) (h : ∀ c ∈ text s, 33 ≤ c ∧ c ≤ 126) :
    Within isVisible (lit s) :=
  within_lit s fun c hc d hd => visible_of_fold d (hd ▸ (h c hc).1) (hd ▸ (h c hc).2)

theorem visible_solid (s : String) (c : ℕ)
    (h : (!isSpaceCode c && !(text s).contains c) = true) : isVisible c = true :=
  (Bool.and_eq_true _ _).mp h |>.1

theorem url_lead_within : Within isVisible (urlLead isAlnum) := by
  refine ⟨trivial, fun c hc => ?_, fun c hc => visible_of_inClass "+.-" (by decide) c hc,
    within_visible_lit "://" (by decide), ⟨fun c hc => visible_solid "/@:" c hc,
      fun c hc => visible_solid "/@:" c hc⟩, within_visible_lit ":" (by decide)⟩
  rw [Bool.and_eq_true, decide_eq_true_eq, decide_eq_true_eq] at hc
  exact visible_of_fold c (by omega) (by omega)

/-- What a password is read from. -/
structure UrlAt (T : Text) (i p q : ℕ) : Prop where
  lead : p ∈ ends T (urlLead isAlnum) i
  some_letter : p < q
  letters : Covers T passwordLetter p q
  close : T[q]? = some 64

theorem url_span (h : (p, q, e) ∈ (urlCredential isAlnum).spans T i) : UrlAt isAlnum T i p q ∧ e = q + 1 := by
  obtain ⟨p', hlead, hform⟩ := List.mem_flatMap.mp h
  obtain ⟨f, hf, hspan⟩ := List.mem_flatMap.mp hform
  obtain rfl := List.mem_singleton.mp hf
  obtain ⟨hp, hq, he⟩ := mem_formSpans.mp hspan
  obtain rfl := List.mem_singleton.mp hp
  have hrange := mem_ends_plus.mp hq
  obtain ⟨hat, helen⟩ := mem_ends_lit.mp he
  have hclose := hat.exactly 0 64 rfl fun d hd => fold_eq_sign d 64 (by decide) hd
  have hletters : Covers T passwordLetter p q := fun k hpk hkq =>
    covers_run passwordLetter p k hpk (by
      change p + 1 ≤ q ∧ q ≤ p + run passwordLetter T p at hrange
      omega)
  exact ⟨⟨hlead, by omega, hletters, hclose⟩, helen⟩

theorem url_secret (h : (urlCredential isAlnum).secret T i = some (p, q, e)) :
    UrlAt isAlnum T i p q ∧ e = q + 1 :=
  url_span isAlnum (List.mem_of_mem_head? (Option.mem_def.mpr h))

theorem url_ends (h : j ∈ ends T (databaseUrl isAlnum) i) :
    ∃ p q, UrlAt isAlnum T i p q ∧ j = q + 1 := by
  rw [url_finds isAlnum T i] at h
  obtain ⟨⟨p, q, e⟩, hspan, rfl⟩ := List.mem_map.mp h
  exact ⟨p, q, url_span isAlnum hspan⟩

theorem url_found (h : UrlAt isAlnum T i p q) : q + 1 ∈ ends T (databaseUrl isAlnum) i := by
  rw [url_finds isAlnum T i]
  refine List.mem_map.mpr ⟨(p, q, q + 1), List.mem_flatMap.mpr ⟨p, h.lead, ?_⟩, rfl⟩
  refine List.mem_flatMap.mpr ⟨_, List.mem_singleton.mpr rfl, mem_formSpans.mpr ⟨?_, ?_, ?_⟩⟩
  · exact List.mem_singleton.mpr rfl
  · have hrun := le_run_of_covers h.letters
    have hlt := h.some_letter
    exact mem_ends_plus.mpr ⟨hlt, hrun⟩
  · refine mem_ends_lit.mpr ⟨fun k hk => ?_, rfl⟩
    have hzero : k = 0 := by
      change k < 1 at hk
      omega
    rw [hzero, Nat.add_zero, h.close]
    rfl

end url

/-! ### Private keys -/

section key
variable {T : Text} {i j k p q e : ℕ}

/- The first member that something follows. -/
theorem head_flatMap_range {β : Type} {f : ℕ → List β} {b : β} (i n : ℕ)
    (h : (((List.range n).map (i + ·)).flatMap f).head? = some b) :
    ∃ q, i ≤ q ∧ (∀ y, i ≤ y → y < q → f y = []) ∧ (f q).head? = some b := by
  induction n generalizing i with
  | zero => cases h
  | succ n ih =>
    rw [range_shift, List.flatMap_cons, List.head?_append] at h
    cases hf : (f i).head? with
    | some c =>
      rw [hf] at h
      exact ⟨i, le_rfl, fun y hiy hyi => absurd hyi (by omega), hf.trans h⟩
    | none =>
      rw [hf, Option.none_or] at h
      obtain ⟨q, hq, hbefore, hfirst⟩ := ih (i + 1) h
      refine ⟨q, by omega, fun y hiy hyq => ?_, hfirst⟩
      by_cases hy : y = i
      · rw [hy]
        exact List.head?_eq_none_iff.mp hf
      · exact hbefore y (by omega) hyq

/-- What a key is read from: its lines, and no other END line between them. -/
structure KeyAt (T : Text) (i p q e : ℕ) : Prop where
  line : p ∈ ends T (keyLine "begin") i
  start : p ≤ q
  close : e ∈ ends T (keyLine "end") q
  first : ∀ y, p ≤ y → y < q → ends T (keyLine "end") y = []

theorem key_secret (h : keyCredential.secret T i = some (p, q, e)) : KeyAt T i p q e := by
  rw [Credential.secret, Credential.spans] at h
  obtain ⟨p', hline, hform⟩ := head_flatMap_some h
  change (([(Regex.empty, lazy (.chr fun _ => true), keyLine "end")] : List _).flatMap
    (fun f => formSpans T f p')).head? = some (p, q, e) at hform
  rw [List.flatMap_singleton, formSpans_open, ends_lazy_any] at hform
  obtain ⟨q', hstart, hfirst, hhead⟩ := head_flatMap_range p' _ hform
  have hmem := List.mem_of_mem_head? (Option.mem_def.mpr hhead)
  obtain ⟨e', he, heq⟩ := List.mem_map.mp hmem
  cases heq
  exact ⟨hline, hstart, he, fun y hpy hyq => List.map_eq_nil_iff.mp (hfirst y hpy hyq)⟩

theorem mem_ends_key : j ∈ ends T privateKey i ↔
    ∃ p ∈ ends T (keyLine "begin") i, ∃ q, p ≤ q ∧ q ≤ max p T.length ∧
      j ∈ ends T (keyLine "end") q := by
  rw [privateKey]
  constructor
  · intro h
    obtain ⟨p, hp, h₁⟩ := mem_ends_seqs_cons.mp h
    obtain ⟨q, hq, h₂⟩ := mem_ends_seqs_cons.mp h₁
    rw [ends_lazy_any] at hq
    obtain ⟨n, hn, rfl⟩ := List.mem_map.mp hq
    rw [List.mem_range] at hn
    exact ⟨p, hp, p + n, by omega, by omega, h₂⟩
  · rintro ⟨p, hp, q, hpq, hq, hj⟩
    refine mem_ends_seqs_cons.mpr ⟨p, hp, mem_ends_seqs_cons.mpr ⟨q, ?_, hj⟩⟩
    rw [ends_lazy_any]
    exact List.mem_map.mpr ⟨q - p, List.mem_range.mpr (by omega), by omega⟩

def notDash (c : ℕ) : Bool := c != 45

theorem notDash_of_fold (c : ℕ) (h : foldCase c ≠ 45) : notDash c = true := by
  rw [notDash, bne_iff_ne]
  intro hc
  exact h (by rw [hc]; rfl)

theorem reads_append {w w' : Text} (h : Reads T i (w ++ w')) : Reads T i w := by
  intro k hk
  have hread := h k (by rw [List.length_append]; omega)
  rwa [List.getElem?_append_left hk] at hread

theorem reads_behind {w w' : Text} (h : Reads T i (w ++ w')) : Reads T (i + w.length) w' := by
  intro k hk
  have hread := h (w.length + k) (by rw [List.length_append]; omega)
  rwa [List.getElem?_append_right (by omega), Nat.add_sub_cancel_left, ← Nat.add_assoc] at hread

/-- Between the dashes of a line there are none. -/
structure KeyLineShape (T : Text) (i j n : ℕ) : Prop where
  long : i + n ≤ j
  dash : T[j - 5]? = some 45
  inner : ∀ y, i + 5 ≤ y → y < j - 5 → T[y]?.any notDash = true

theorem keyLine_shape (w : String) (hw : ∀ c ∈ text w, c ≠ 45) (h : j ∈ ends T (keyLine w) i) :
    KeyLineShape T i j (22 + (text w).length) := by
  rw [keyLine] at h
  obtain ⟨k₁, hk₁, h₁⟩ := mem_ends_seqs_cons.mp h
  obtain ⟨k₂, hk₂, h₂⟩ := mem_ends_seqs_cons.mp h₁
  obtain ⟨k₃, hk₃, h₃⟩ := mem_ends_seqs_cons.mp h₂
  obtain ⟨k₄, hk₄, h₄⟩ := mem_ends_seqs_cons.mp h₃
  have hlen₁ := (mem_ends_lit.mp hk₁).2
  have hlen₂ := (mem_ends_lit.mp hk₂).2
  have hlen₃ := (mem_ends_lit.mp hk₃).2
  obtain ⟨hread, hlen₅⟩ := mem_ends_lit.mp h₄
  have hge := ends_ge _ hk₄
  change k₁ = i + 5 at hlen₁
  change k₃ = k₂ + 1 at hlen₃
  change j = k₄ + 16 at hlen₅
  have hword : Covers T notDash k₁ k₂ := by
    refine ends_covers _ (within_lit w fun c hc d hd => ?_) _ _ hk₂
    exact notDash_of_fold d (hd ▸ hw c hc)
  have hclass : ∀ c, inClass "" c = true → notDash c = true := fun c hc =>
    notDash_of_fold c fun hfold => by
      simp [inClass, hfold, text] at hc
  have hspace : Within notDash (lit " ") := within_lit " " fun c hc d hd => by
    have hc' : c = 32 := List.mem_singleton.mp hc
    exact notDash_of_fold d (by omega)
  have hopt : Within notDash (opt (seq (plus (.chr (inClass ""))) (lit " "))) :=
    ⟨⟨⟨hclass, hclass⟩, hspace⟩, trivial⟩
  have hblank := ends_covers _ hspace _ _ hk₃
  have hkind := ends_covers _ hopt _ _ hk₄
  have hsplit : text "private key-----" = text "private key" ++ text "-----" := by decide
  rw [hsplit] at hread
  have hletters : ∀ c ∈ text "private key", c ≠ 45 := by decide
  have hname := reads_append hread
  have hdashes := reads_behind hread
  have hlast := hdashes.exactly 0 45 rfl fun d hd => fold_eq_sign d 45 (by decide) hd
  change T[k₄ + 11 + 0]? = some 45 at hlast
  refine ⟨by omega, ?_, ?_⟩
  · have hpos : j - 5 = k₄ + 11 + 0 := by omega
    rw [hpos, hlast]
  · intro y hy hyj
    by_cases hy₄ : y < k₄
    · exact covers_trans (covers_trans hword hblank) hkind y (by omega) hy₄
    · have hany := hname.any notDash (y - k₄) (by
        change y - k₄ < 11
        omega) fun c hc d hd => notDash_of_fold d (hd ▸ hletters c hc)
      rwa [Nat.add_sub_cancel' (by omega)] at hany

/- Two lines of which one starts in the other end together. -/
theorem keyLine_nested {w : String} {j' n : ℕ} (hline : KeyLineShape T i j (22 + n))
    (hw : ∀ c ∈ text w, c ≠ 45) (hj : j' ∈ ends T (keyLine w) k) (hik : i ≤ k) : j ≤ j' := by
  by_contra hlt
  have hshape := keyLine_shape w hw hj
  have hlong := hshape.long
  have hinner := hline.inner (j' - 5) (by omega) (by omega)
  rw [hshape.dash] at hinner
  cases hinner

theorem begin_unique (hj : j ∈ ends T (keyLine "begin") i) (hk : k ∈ ends T (keyLine "begin") i) :
    j = k := by
  have hjk := keyLine_nested (keyLine_shape "begin" (by decide) hj) (by decide) hk le_rfl
  have hkj := keyLine_nested (keyLine_shape "begin" (by decide) hk) (by decide) hj le_rfl
  omega

end key

end ParallelForge.Redaction
